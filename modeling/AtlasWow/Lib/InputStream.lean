/-
A string as an `istringstream` that unsigned numbers are taken from: blanks are
skipped, a sign and digits are read, and the stream keeps in two bits that its
end was met and that something failed. A number before a blank is taken without
either (`extract_decimal`), and where only blanks are left nothing is
(`extract_blanks`).
-/
import AtlasWow.Lib.Decimal

structure IStream where
  text : List Char
  eof : Bool
  fail : Bool

namespace IStream

def ofString (text : List Char) : IStream := ⟨text, false, false⟩

def good (s : IStream) : Bool := !s.eof && !s.fail

def isSpace (c : Char) : Bool := c = ' ' || ('\t' ≤ c && c ≤ '\r')

/-- The sign of a number, and what follows it. -/
def sign : List Char → Bool × List Char
  | '-' :: cs => (true, cs)
  | '+' :: cs => (false, cs)
  | cs => (false, cs)

/-- `>>` to a number of `w` bits; a negative one wraps, and of what is too large the number becomes the largest. -/
def extract (w : Nat) (s : IStream) : Nat × IStream :=
  if !s.good then (0, { s with fail := true })
  else
    let text := s.text.dropWhile isSpace
    if text.isEmpty then (0, ⟨[], true, true⟩)
    else
      let signed := sign text
      let digits := signed.2.takeWhile Char.isDigit
      let rest := signed.2.dropWhile Char.isDigit
      let n := Nat.ofDigitChars 10 digits 0
      if digits.isEmpty then (0, ⟨rest, rest.isEmpty, true⟩)
      else if 2 ^ w ≤ n then (2 ^ w - 1, ⟨rest, rest.isEmpty, true⟩)
      else (if signed.1 then (2 ^ w - n) % 2 ^ w else n, ⟨rest, rest.isEmpty, false⟩)

theorem length_sign_le (cs : List Char) : (sign cs).2.length ≤ cs.length := by
  unfold sign
  split <;> simp

variable {w : Nat} {s : IStream}

/-- A number takes a character at least. -/
theorem extract_shorter (h : (s.extract w).2.fail = false) : (s.extract w).2.text.length < s.text.length := by
  have hblanks := List.length_dropWhile_le isSpace s.text
  have hsign := length_sign_le (s.text.dropWhile isSpace)
  obtain ⟨r, hr⟩ : ∃ r, s.extract w = r := ⟨_, rfl⟩
  rw [hr] at h ⊢
  rw [extract] at hr
  split at hr
  · obtain rfl := hr
    exact nomatch h
  extract_lets text signed digits rest n at hr
  split at hr
  · obtain rfl := hr
    exact nomatch h
  split at hr
  · obtain rfl := hr
    exact nomatch h
  next hdigits =>
  split at hr
  · obtain rfl := hr
    exact nomatch h
  have hlength : digits.length + rest.length = signed.2.length := by
    rw [← List.length_append, List.takeWhile_append_dropWhile]
  have hpos : 0 < digits.length := List.length_pos_iff.2 (by simpa using hdigits)
  have hsigned : signed.2.length ≤ text.length := hsign
  have htext : text.length ≤ s.text.length := hblanks
  obtain rfl := hr
  show rest.length < s.text.length
  omega

theorem good_of_extract (h : (s.extract w).2.fail = false) : s.good = true := by
  by_contra hgood
  rw [extract, if_pos (by simpa using hgood)] at h
  exact nomatch h

/-- Two numbers, one after the other. -/
theorem extract_extract_shorter (h : ((s.extract w).2.extract w).2.fail = false) :
    ((s.extract w).2.extract w).2.text.length < s.text.length := by
  have hgood := good_of_extract h
  have hfirst : (s.extract w).2.fail = false := by
    rw [good, Bool.and_eq_true] at hgood
    simpa using hgood.2
  exact Nat.lt_trans (extract_shorter h) (extract_shorter hfirst)

theorem isSpace_digit {c : Char} (h : c.isDigit = true) : isSpace c = false := by
  have hspace := (Char.isDigit_ne h).1
  simp only [Char.isDigit, Bool.and_eq_true, decide_eq_true_eq] at h
  have hlow : 48 ≤ c.val.toNat := h.1
  have hhigh : ¬ c ≤ '\r' := fun hle => absurd (show c.val.toNat ≤ 13 from hle) (by omega)
  simp [isSpace, hspace, hhigh]

/-- A number that stands after blanks and before another one. -/
theorem extract_decimal {n : Nat} (h : n < 2 ^ w) {blanks rest : List Char} (hblanks : ∀ c ∈ blanks, isSpace c = true) :
    (ofString (blanks ++ (decimal n ++ ' ' :: rest))).extract w = (n, ofString (' ' :: rest)) := by
  obtain ⟨c, cs, hcs, hc⟩ := toDigits_cons n
  obtain ⟨-, hminus, hplus, -⟩ := Char.isDigit_ne hc
  have hall : ∀ d ∈ Nat.toDigits 10 n, d.isDigit = true := fun d hd =>
    Nat.isDigit_of_mem_toDigits (by decide) (by decide) hd
  have hdrop : (blanks ++ (decimal n ++ ' ' :: rest)).dropWhile isSpace = Nat.toDigits 10 n ++ ' ' :: rest := by
    rw [List.dropWhile_append_of_pos hblanks, decimal_nat, hcs, List.cons_append, List.dropWhile_cons_of_neg]
    simp [isSpace_digit hc]
  have hsign : sign (Nat.toDigits 10 n ++ ' ' :: rest) = (false, Nat.toDigits 10 n ++ ' ' :: rest) := by
    rw [hcs, List.cons_append]
    unfold sign
    split
    next heq => exact absurd (List.cons.inj heq).1 hminus
    next heq => exact absurd (List.cons.inj heq).1 hplus
    next => rfl
  have htake : (Nat.toDigits 10 n ++ ' ' :: rest).takeWhile Char.isDigit = Nat.toDigits 10 n := by
    rw [List.takeWhile_append_of_pos hall, List.takeWhile_cons_of_neg (by decide), List.append_nil]
  have hrest : (Nat.toDigits 10 n ++ ' ' :: rest).dropWhile Char.isDigit = ' ' :: rest := by
    rw [List.dropWhile_append_of_pos hall, List.dropWhile_cons_of_neg (by decide)]
  have hne : (Nat.toDigits 10 n).isEmpty = false := by rw [hcs]; rfl
  have hne' : (Nat.toDigits 10 n ++ ' ' :: rest).isEmpty = false := by rw [hcs]; rfl
  simp only [extract, ofString, good, hdrop, hsign, htake, hrest, hne, hne', Nat.ofDigitChars_ten_toDigits]
  simp [Nat.not_le.2 h]

theorem extract_blanks {blanks : List Char} (hblanks : ∀ c ∈ blanks, isSpace c = true) :
    (ofString blanks).extract w = (0, ⟨[], true, true⟩) := by
  have hdrop : blanks.dropWhile isSpace = [] := List.dropWhile_eq_nil_iff.2 hblanks
  simp [extract, ofString, good, hdrop]

end IStream
