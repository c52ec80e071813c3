/-
The grammar of chat messages with links, and that the check of a message
accepts just it. A link is parsed from what it is written as, with the spans it
was written from, and from nothing else (`parseHyperlink_safe`,
`parseHyperlink_chars`); no message is read beyond its NUL.
-/
import AtlasWow.Chat.Hyperlinks
import Mathlib.Data.List.Nodup

namespace AtlasWow.Hyperlinks

open Reading

/-! ## The grammar -/

def IsHexDigit (c : Char) : Prop :=
  '0'.toNat ≤ c.toNat ∧ c.toNat ≤ '9'.toNat ∨ 'a'.toNat ≤ c.toNat ∧ c.toNat ≤ 'f'.toNat

def hexValue (c : Char) : Nat := if c.toNat ≤ '9'.toNat then c.toNat - '0'.toNat else c.toNat - 'a'.toNat + 10

def hexNumber (digits : List Char) : Nat := digits.foldl (fun n c => 16 * n + hexValue c) 0

/-- The parts of a link. -/
structure Link where
  color : List Char
  tag : List Char
  data : Option (List Char)
  text : List Char
  color_length : color.length = 8
  color_hex : ∀ c ∈ color, IsHexDigit c
  tag_plain : ∀ c ∈ tag, c ≠ '|' ∧ c ≠ ':'
  data_plain : ∀ data', data = some data' → ∀ c ∈ data', c ≠ '|'
  text_plain : ∀ c ∈ text, c ≠ '|' ∧ c ≠ ']'

namespace Link

/-- The data with its colon. -/
def dataChars (l : Link) : List Char := l.data.elim [] (':' :: ·)

/-- What follows the start of the text. -/
def ending : List Char := [']', '|', 'h', '|', 'r']

/-- A link as it is written. -/
def chars (l : Link) : List Char :=
  '|' :: 'c' :: (l.color ++ '|' :: 'H' :: (l.tag ++ (l.dataChars ++ '|' :: 'h' :: '[' :: (l.text ++ ending))))

/-- What the parser has to say of a link, with the rest of the message behind it. -/
def info (l : Link) (rest : List Char) : HyperlinkInfo where
  next := cstr rest
  color := .ofNat (hexNumber l.color)
  tag := ⟨cstr (l.tag ++ (l.dataChars ++ '|' :: 'h' :: '[' :: (l.text ++ (ending ++ rest)))), l.tag.length⟩
  data := ⟨cstr (l.data.getD [] ++ '|' :: 'h' :: '[' :: (l.text ++ (ending ++ rest))), (l.data.getD []).length⟩
  text := ⟨cstr (l.text ++ (ending ++ rest)), l.text.length⟩

/-- The validator of the link's tag passes the link. -/
def Passes (stores : LinkStores) (l : Link) : Prop :=
  ∃ tag : LinkTag, tag.tag = l.tag ∧
    passes stores (stores.validator tag) (.ofNat (hexNumber l.color)) (l.data.getD []) l.text = true

end Link

/-- Characters, escaped pipes and links. -/
inductive Piece where
  | char (c : Char) (plain : c ≠ '|')
  | pipe
  | link (l : Link)

def Piece.chars : Piece → List Char
  | char c _ => [c]
  | pipe => ['|', '|']
  | link l => l.chars

/-- A message of such pieces, with links that pass. -/
def Accepted (stores : LinkStores) (s : List Char) : Prop :=
  ∃ pieces : List Piece, s = pieces.flatMap Piece.chars ∧ ∀ l, Piece.link l ∈ pieces → l.Passes stores

/-! ## The parser -/

variable {c : Char} {s rest digits text : List Char} {color n k turns : Nat} {tag data : Span}

theorem toHex_digit (h : IsHexDigit c) : toHex c ≠ 0 ∧ toHex c &&& 0xf = hexValue c ∧ hexValue c < 16 := by
  unfold IsHexDigit at h
  unfold toHex hexValue
  have hmask : ∀ n, n &&& 0xf = n % 16 := fun n => Nat.and_two_pow_sub_one_eq_mod n 4
  rw [hmask]
  simp only [Char.reduceToNat] at h ⊢
  split_ifs <;> omega

theorem isHexDigit_of_toHex (h : toHex c ≠ 0) : IsHexDigit c := by
  unfold toHex at h
  unfold IsHexDigit
  split_ifs at h
  next hdigit => exact .inl hdigit
  next hletter => exact .inr hletter
  next => exact absurd rfl h

/-- One more digit, while the number has room. -/
theorem hexDigit_step (h : IsHexDigit c) (hcolor : color < 2 ^ 28) :
    (color <<< 4 ||| toHex c &&& 0xf) % 2 ^ 32 = 16 * color + hexValue c := by
  obtain ⟨-, hvalue, hlt⟩ := toHex_digit h
  rw [hvalue, ← Nat.shiftLeft_add_eq_or_of_lt (i := 4) hlt, Nat.shiftLeft_eq]
  omega

theorem room (hcolor : color < 16 ^ k) (hk : k ≤ 7) : color < 2 ^ 28 :=
  calc color < 16 ^ k := hcolor
    _ ≤ 16 ^ 7 := Nat.pow_le_pow_right (by decide) hk
    _ = 2 ^ 28 := rfl

theorem grow (h : IsHexDigit c) (hcolor : color < 16 ^ k) : 16 * color + hexValue c < 16 ^ (k + 1) := by
  have hdigit := (toHex_digit h).2.2
  rw [Nat.pow_succ]
  omega

/-- The digits of a color. -/
theorem readColor_safe : ∀ (n k color : Nat) {s : List Char}, n + k = 8 → color < 16 ^ k →
    (readColor n color (cstr s)).Safe fun r => ∃ digits rest, s = digits ++ rest ∧ digits.length = n ∧
      (∀ c ∈ digits, IsHexDigit c) ∧ r = (digits.foldl (fun n c => 16 * n + hexValue c) color, cstr rest)
  | 0, _, color, s, _, _ => ⟨[], s, rfl, rfl, fun _ h => (nomatch h), rfl⟩
  | n + 1, k, color, [], _, _ => by
    unfold readColor cstr
    dsimp only [List.nil_append]
    rw [if_neg (by decide)]
    trivial
  | n + 1, k, color, c :: s, hk, hcolor => by
    rw [cstr_cons, readColor]
    split
    next hhex =>
      have hc := isHexDigit_of_toHex hhex
      rw [hexDigit_step hc (room hcolor (by omega))]
      refine (readColor_safe n (k + 1) (16 * color + hexValue c) (by omega) (grow hc hcolor)).mono fun r hr => ?_
      obtain ⟨digits, rest, rfl, hlength, hdigits, hr⟩ := hr
      exact ⟨c :: digits, rest, rfl, congrArg (· + 1) hlength, List.forall_mem_cons.2 ⟨hc, hdigits⟩, hr⟩
    next => trivial

theorem readColor_digits : ∀ {digits : List Char} (k color : Nat), digits.length + k = 8 → color < 16 ^ k →
    (∀ c ∈ digits, IsHexDigit c) → ∀ pos,
    readColor digits.length color (digits ++ pos) = ok (digits.foldl (fun n c => 16 * n + hexValue c) color, pos)
  | [], _, _, _, _, _, _ => rfl
  | c :: digits, k, color, hk, hcolor, h, pos => by
    obtain ⟨hc, hdigits⟩ := List.forall_mem_cons.1 h
    rw [List.length_cons] at hk
    rw [List.cons_append, List.length_cons, readColor, if_pos (toHex_digit hc).1, hexDigit_step hc (room hcolor (by omega)),
      readColor_digits (k + 1) _ (by omega) (grow hc hcolor) hdigits]
    rfl

/-! ### What is parsed is written as a link -/

theorem parseText_safe (h : '\x00' ∉ s) : (parseText color tag data (cstr s)).Safe fun info =>
    ∃ text rest, s = text ++ (Link.ending ++ rest) ∧ (∀ c ∈ text, c ≠ '|' ∧ c ≠ ']') ∧
      info = ⟨cstr rest, .ofNat color, tag, data, ⟨cstr s, text.length⟩⟩ := by
  unfold parseText
  refine (Safe.span _ h).bind fun r hr => ?_
  obtain ⟨text, s, rfl, rfl, htext, hstop⟩ := hr
  dsimp only
  split
  next => trivial
  next hbar =>
  rw [advance_cstr (by decide)]
  refine (Safe.expect (by decide) _).bind fun pos hpos => ?_
  obtain ⟨s₁, hs₁, rfl⟩ := hpos
  -- the span has stopped at the bracket
  have hs : s = ']' :: '|' :: s₁ := by
    cases s with
    | nil => cases hs₁
    | cons c s =>
      have hc := hstop c s rfl
      rw [cstr_cons, List.head?_cons, Option.some_inj] at hbar
      simp only [hbar, decide_false, Bool.false_or, decide_eq_true_eq] at hc
      subst hc
      rw [advance_cons] at hs₁
      rw [hs₁]
  subst hs
  refine (Safe.expect (by decide) s₁).bind fun pos hpos => ?_
  obtain ⟨s₂, rfl, rfl⟩ := hpos
  refine (Safe.expect (by decide) s₂).bind fun pos hpos => ?_
  obtain ⟨s₃, rfl, rfl⟩ := hpos
  refine (Safe.expect (by decide) s₃).bind fun pos hpos => ?_
  obtain ⟨rest, rfl, rfl⟩ := hpos
  exact ⟨text, rest, rfl, fun c hc => by simpa using htext c hc, rfl⟩

theorem parseData_safe (h : '\x00' ∉ s) : (parseData color tag (cstr s)).Safe fun info =>
    ∃ data text rest, s = data ++ '|' :: 'h' :: '[' :: (text ++ (Link.ending ++ rest)) ∧ (∀ c ∈ data, c ≠ '|') ∧
      (∀ c ∈ text, c ≠ '|' ∧ c ≠ ']') ∧ info = ⟨cstr rest, .ofNat color, tag, ⟨cstr s, data.length⟩,
        ⟨cstr (text ++ (Link.ending ++ rest)), text.length⟩⟩ := by
  unfold parseData
  refine (Safe.span _ h).bind fun r hr => ?_
  obtain ⟨data, s, rfl, rfl, hdata, hstop⟩ := hr
  dsimp only
  rw [advance_cstr (by decide)]
  refine (Safe.expect (by decide) _).bind fun pos hpos => ?_
  obtain ⟨s₁, hs₁, rfl⟩ := hpos
  have hs : s = '|' :: 'h' :: s₁ := by
    cases s with
    | nil => cases hs₁
    | cons c s =>
      obtain rfl : c = '|' := of_decide_eq_true (hstop c s rfl)
      rw [advance_cons] at hs₁
      rw [hs₁]
  subst hs
  refine (Safe.expect (by decide) s₁).bind fun pos hpos => ?_
  obtain ⟨s₂, rfl, rfl⟩ := hpos
  have hs₂ : '\x00' ∉ s₂ := fun hmem => h (by simp [hmem])
  refine (parseText_safe hs₂).mono fun info hinfo => ?_
  obtain ⟨text, rest, rfl, htext, rfl⟩ := hinfo
  exact ⟨data, text, rest, rfl, fun c hc => of_decide_eq_false (hdata c hc), htext, rfl⟩

/-- Nothing is read past the NUL, and what is parsed is a link and its spans. -/
theorem parseHyperlink_safe (h : '\x00' ∉ s) : (parseHyperlink (cstr s)).Safe fun info =>
    ∃ (l : Link) (rest : List Char), s = l.chars ++ rest ∧ info = l.info rest := by
  unfold parseHyperlink
  refine (Safe.expect (by decide) s).bind fun pos hpos => ?_
  obtain ⟨s, rfl, rfl⟩ := hpos
  refine (Safe.expect (by decide) s).bind fun pos hpos => ?_
  obtain ⟨s, rfl, rfl⟩ := hpos
  refine (readColor_safe 8 0 0 rfl (by decide)).bind fun r hr => ?_
  obtain ⟨digits, s, rfl, hlength, hdigits, rfl⟩ := hr
  refine (Safe.expect (by decide) s).bind fun pos hpos => ?_
  obtain ⟨s, rfl, rfl⟩ := hpos
  refine (Safe.expect (by decide) s).bind fun pos hpos => ?_
  obtain ⟨s, rfl, rfl⟩ := hpos
  have hs : '\x00' ∉ s := fun hmem => h (by simp [hmem])
  refine (Safe.span _ hs).bind fun r hr => ?_
  obtain ⟨tag, s, rfl, rfl, htag, hstop⟩ := hr
  dsimp only
  rw [advance_cstr (by decide)]
  have htag : ∀ c ∈ tag, c ≠ '|' ∧ c ≠ ':' := fun c hc => by simpa using htag c hc
  have hadvance : '\x00' ∉ advance ':' s := fun hmem => hs (List.mem_append_right _ (mem_of_mem_advance hmem))
  refine (parseData_safe hadvance).mono fun info hinfo => ?_
  obtain ⟨data, text, rest, hs₁, hdata, htext, rfl⟩ := hinfo
  cases s with
  | nil =>
    -- the string ends with the tag
    have hlen := congrArg List.length hs₁
    simp [advance] at hlen
  | cons c s =>
    by_cases hc : c = ':'
    · subst hc
      rw [advance_cons] at hs₁
      subst hs₁
      exact ⟨⟨digits, tag, some data, text, hlength, hdigits, htag, fun _ h => by cases h; exact hdata, htext⟩, rest,
        by simp [Link.chars, Link.dataChars], by simp [Link.info, Link.dataChars, hexNumber]⟩
    obtain rfl : c = '|' := by simpa [hc] using hstop c s rfl
    rw [advance_ne (by simp)] at hs₁
    obtain rfl : data = [] := by
      cases data with
      | nil => rfl
      | cons x data =>
        cases hs₁
        exact absurd rfl (hdata '|' List.mem_cons_self)
    cases hs₁
    exact ⟨⟨digits, tag, none, text, hlength, hdigits, htag, fun _ h => (nomatch h), htext⟩, rest,
      by simp [Link.chars, Link.dataChars], by simp [Link.info, Link.dataChars, hexNumber, advance]⟩

/-! ### What is written as a link is parsed -/

theorem parseText_chars (h : '\x00' ∉ text) (htext : ∀ c ∈ text, c ≠ '|' ∧ c ≠ ']')
    (pos : List Char) : parseText color tag data (text ++ (Link.ending ++ pos)) =
      ok ⟨pos, .ofNat color, tag, data, ⟨text ++ (Link.ending ++ pos), text.length⟩⟩ := by
  have hspan := @span_append ']' text (fun c => c = '|' || c = ']')
    (fun c hc => ⟨fun h' => h (h' ▸ hc), by simpa using htext c hc⟩) (.inr rfl) ('|' :: 'h' :: '|' :: 'r' :: pos)
  unfold parseText
  rw [show text ++ (Link.ending ++ pos) = text ++ ']' :: '|' :: 'h' :: '|' :: 'r' :: pos from rfl, hspan]
  simp

theorem parseData_chars {data : List Char} (hdata : '\x00' ∉ data) (htext : '\x00' ∉ text)
    (hdataPlain : ∀ c ∈ data, c ≠ '|') (htextPlain : ∀ c ∈ text, c ≠ '|' ∧ c ≠ ']') (pos : List Char) :
    parseData color tag (data ++ '|' :: 'h' :: '[' :: (text ++ (Link.ending ++ pos))) =
      ok ⟨pos, .ofNat color, tag, ⟨data ++ '|' :: 'h' :: '[' :: (text ++ (Link.ending ++ pos)), data.length⟩,
        ⟨text ++ (Link.ending ++ pos), text.length⟩⟩ := by
  have hspan := @span_append '|' data (fun c => c = '|')
    (fun c hc => ⟨fun h' => hdata (h' ▸ hc), by simpa using hdataPlain c hc⟩) (.inr rfl)
    ('h' :: '[' :: (text ++ (Link.ending ++ pos)))
  unfold parseData
  rw [hspan]
  simp only [ok_bind, advance_cons, expect_cons]
  exact parseText_chars htext htextPlain pos

theorem parseHyperlink_chars (l : Link) (h : '\x00' ∉ l.chars) (rest : List Char) :
    parseHyperlink (cstr (l.chars ++ rest)) = ok (l.info rest) := by
  have htag : '\x00' ∉ l.tag := fun hmem => h (by simp [Link.chars, hmem])
  have htext : '\x00' ∉ l.text := fun hmem => h (by simp [Link.chars, hmem])
  have hdata : '\x00' ∉ l.data.getD [] := fun hmem => h (by
    cases hd : l.data with
    | none => simp [hd] at hmem
    | some data => simp_all [Link.chars, Link.dataChars])
  have hplain : ∀ c ∈ l.data.getD [], c ≠ '|' := by
    cases hd : l.data with
    | none => exact fun _ h => (nomatch h)
    | some data => exact l.data_plain data hd
  have hcolor : ∀ pos, readColor 8 0 (l.color ++ pos) = ok (hexNumber l.color, pos) := fun pos => by
    rw [← l.color_length]
    exact readColor_digits 0 0 l.color_length (by decide) l.color_hex pos
  have hspan := fun c hc pos => @span_append c l.tag (fun c => c = '|' || c = ':')
    (fun c hc => ⟨fun h' => htag (h' ▸ hc), by simpa using l.tag_plain c hc⟩) hc pos
  have hend : ∀ tag : Span, parseData (hexNumber l.color) tag
      (cstr (l.data.getD [] ++ '|' :: 'h' :: '[' :: (l.text ++ (Link.ending ++ rest)))) =
        ok { l.info rest with tag := tag } := fun tag => by
    simp only [cstr_append, cstr_cons]
    rw [parseData_chars hdata htext hplain l.text_plain]
    simp [Link.info]
  unfold parseHyperlink Link.chars
  simp only [List.cons_append, List.append_assoc, cstr_cons, cstr_append, expect_cons, ok_bind, hcolor]
  cases hd : l.data with
  | none =>
    simp only [Link.dataChars, hd, Option.elim_none, List.nil_append]
    rw [hspan '|' (.inr rfl), ok_bind]
    dsimp only
    rw [advance_ne (by decide)]
    have hall := hend ⟨l.tag ++ '|' :: 'h' :: '[' :: (l.text ++ (Link.ending ++ cstr rest)), l.tag.length⟩
    simp only [hd, Option.getD_none, List.nil_append, cstr_append, cstr_cons] at hall
    rw [hall]
    simp [Link.info, Link.dataChars, hd]
  | some data =>
    simp only [Link.dataChars, hd, Option.elim_some, List.cons_append]
    rw [hspan ':' (.inr rfl), ok_bind]
    dsimp only
    rw [advance_cons]
    have hall := hend ⟨l.tag ++ ':' :: (data ++ '|' :: 'h' :: '[' :: (l.text ++ (Link.ending ++ cstr rest))), l.tag.length⟩
    simp only [hd, Option.getD_some, cstr_append, cstr_cons] at hall
    rw [hall]
    simp [Link.info, Link.dataChars, hd]

/-! ## The validators -/

theorem LinkTag.tag_injective : Function.Injective LinkTag.tag := fun a b h => by
  have hall : ∀ tag : LinkTag, tag ∈ LinkTag.all := fun tag => by cases tag <;> decide
  have hnodup : (LinkTag.all.map LinkTag.tag).Nodup := by decide
  exact List.inj_on_of_nodup_map hnodup (hall a) (hall b) h

variable {stores : LinkStores}

theorem tryValidateAs_info (l : Link) (rest : List Char) (tag : LinkTag) : tryValidateAs stores (l.info rest) tag =
    if tag.tag = l.tag then
      some (passes stores (stores.validator tag) (.ofNat (hexNumber l.color)) (l.data.getD []) l.text)
    else none := by
  have htag : ((l.info rest).tag.length = tag.tag.length ∧ (l.info rest).tag.start.take tag.tag.length = tag.tag) ↔
      tag.tag = l.tag := by
    show (l.tag.length = tag.tag.length ∧ (cstr (l.tag ++ _)).take tag.tag.length = tag.tag) ↔ _
    rw [cstr_append]
    constructor
    · intro h
      rw [← h.1, List.take_left] at h
      exact h.2.symm
    · intro h
      rw [h]
      exact ⟨rfl, List.take_left⟩
  have hdata : (l.info rest).data.chars = l.data.getD [] := by
    show (cstr (l.data.getD [] ++ _)).take (l.data.getD []).length = _
    rw [cstr_append, List.take_left]
  have htext : (l.info rest).text.chars = l.text := by
    show (cstr (l.text ++ _)).take l.text.length = _
    rw [cstr_append, List.take_left]
  unfold tryValidateAs
  rw [hdata, htext]
  exact if_congr htag rfl rfl

/-- A link passes by the one validator of its tag. -/
theorem validateLinkInfo_iff (l : Link) (rest : List Char) : validateLinkInfo stores (l.info rest) = true ↔ l.Passes stores := by
  unfold validateLinkInfo Link.Passes
  constructor
  · intro h
    cases hfind : LinkTag.all.findSome? (tryValidateAs stores (l.info rest)) with
    | none => rw [hfind] at h; cases h
    | some b =>
      rw [hfind] at h
      obtain rfl : b = true := h
      obtain ⟨tag, -, htry⟩ := List.exists_of_findSome?_eq_some hfind
      rw [tryValidateAs_info] at htry
      split at htry
      next htag => exact ⟨tag, htag, Option.some.inj htry⟩
      next => cases htry
  · intro h
    obtain ⟨tag, htag, hpasses⟩ := h
    have htry : tryValidateAs stores (l.info rest) tag = some true := by rw [tryValidateAs_info, if_pos htag, hpasses]
    have hmem : tag ∈ LinkTag.all := by cases tag <;> decide
    cases hfind : LinkTag.all.findSome? (tryValidateAs stores (l.info rest)) with
    | none => rw [List.findSome?_eq_none_iff.1 hfind tag hmem] at htry; cases htry
    | some b =>
      obtain ⟨tag', -, htry'⟩ := List.exists_of_findSome?_eq_some hfind
      rw [tryValidateAs_info] at htry'
      split at htry'
      next htag' =>
        obtain rfl := LinkTag.tag_injective (htag'.trans htag.symm)
        rw [hpasses] at htry'
        exact (Option.some.inj htry').symm
      next => cases htry'

/-! ## Pieces -/

variable {a : List Char} {l : Link} {pieces : List Piece}

theorem accepted_nil : Accepted stores [] := ⟨[], rfl, fun _ h => (nomatch h)⟩

theorem accepted_char (hc : c ≠ '|') : Accepted stores (c :: s) ↔ Accepted stores s := by
  constructor
  · rintro ⟨pieces, hs, hall⟩
    cases pieces with
    | nil => cases hs
    | cons piece pieces =>
      cases piece with
      | char c' plain =>
        obtain ⟨rfl, rfl⟩ := List.cons.inj hs
        exact ⟨pieces, rfl, fun l hl => hall l (List.mem_cons_of_mem _ hl)⟩
      | pipe => exact absurd (List.cons.inj hs).1 hc
      | link l => exact absurd (List.cons.inj hs).1 hc
  · rintro ⟨pieces, rfl, hall⟩
    exact ⟨.char c hc :: pieces, rfl, fun l hl => hall l (by simpa using hl)⟩

theorem accepted_plain (ha : ∀ c ∈ a, c ≠ '|') : Accepted stores (a ++ s) ↔ Accepted stores s := by
  induction a with
  | nil => rfl
  | cons c a ih =>
    obtain ⟨hc, ha⟩ := List.forall_mem_cons.1 ha
    rw [List.cons_append, accepted_char hc, ih ha]

/-- What is accepted and begins with a pipe begins with an escaped one or a link. -/
theorem accepted_bar : Accepted stores ('|' :: s) ↔
    (∃ s', s = '|' :: s' ∧ Accepted stores s') ∨
      ∃ (l : Link) (rest : List Char), '|' :: s = l.chars ++ rest ∧ l.Passes stores ∧ Accepted stores rest := by
  constructor
  · rintro ⟨pieces, hs, hall⟩
    cases pieces with
    | nil => cases hs
    | cons piece pieces =>
      have hrest : Accepted stores (pieces.flatMap Piece.chars) :=
        ⟨pieces, rfl, fun l hl => hall l (List.mem_cons_of_mem _ hl)⟩
      cases piece with
      | char c plain => exact absurd (List.cons.inj hs).1.symm plain
      | pipe => exact .inl ⟨_, (List.cons.inj hs).2, hrest⟩
      | link l => exact .inr ⟨l, _, hs, hall l List.mem_cons_self, hrest⟩
  · rintro (⟨s', rfl, pieces, rfl, hall⟩ | ⟨l, rest, hs, hpasses, pieces, rfl, hall⟩)
    · exact ⟨.pipe :: pieces, rfl, fun l hl => hall l (by simpa using hl)⟩
    · refine ⟨.link l :: pieces, hs, fun l' hl => ?_⟩
      rcases List.mem_cons.1 hl with heq | hl
      · cases heq
        exact hpasses
      · exact hall l' hl

/-! ## The check of a message -/

theorem controlSequences_char (hc : c ≠ '|') (pos : List Char) : controlSequences (c :: pos) = controlSequences pos := by
  cases pos with
  | nil => exact if_neg hc
  | cons next pos => exact if_pos hc

theorem controlSequences_plain (ha : ∀ c ∈ a, c ≠ '|') (pos : List Char) :
    controlSequences (a ++ pos) = controlSequences pos := by
  induction a with
  | nil => rfl
  | cons c a ih =>
    obtain ⟨hc, ha⟩ := List.forall_mem_cons.1 ha
    rw [List.cons_append, controlSequences_char hc, ih ha]

theorem controlSequences_bar (hc : c = 'H' ∨ c = 'h' ∨ c = 'c' ∨ c = 'r' ∨ c = '|') (pos : List Char) :
    controlSequences ('|' :: c :: pos) = controlSequences pos := by
  rcases hc with rfl | rfl | rfl | rfl | rfl <;> rfl

/-- The first step leaves every string where its NUL is. -/
theorem controlSequences_ends : ∀ s : List Char, ∃ b, controlSequences (cstr s) = some b
  | [] => ⟨true, rfl⟩
  | [c] => by
    by_cases hc : c = '|'
    · subst hc
      exact ⟨false, rfl⟩
    · exact ⟨true, controlSequences_char hc _⟩
  | c :: next :: s => by
    rw [cstr_cons, cstr_cons, controlSequences]
    split
    · exact controlSequences_ends (next :: s)
    split
    · exact controlSequences_ends s
    · exact ⟨false, rfl⟩

theorem controlSequences_link (l : Link) (pos : List Char) : controlSequences (l.chars ++ pos) = controlSequences pos := by
  have hcolor : ∀ c ∈ l.color, c ≠ '|' := fun c hc h => by
    have hhex := l.color_hex c hc
    subst h
    unfold IsHexDigit at hhex
    simp at hhex
  have hdata : ∀ c ∈ l.dataChars, c ≠ '|' := by
    unfold Link.dataChars
    cases hd : l.data with
    | none => exact fun _ h => (nomatch h)
    | some data => exact List.forall_mem_cons.2 ⟨by decide, l.data_plain data hd⟩
  unfold Link.chars Link.ending
  simp only [List.cons_append, List.append_assoc, List.nil_append]
  rw [controlSequences_bar (by decide), controlSequences_plain hcolor, controlSequences_bar (by decide),
    controlSequences_plain fun c hc => (l.tag_plain c hc).1, controlSequences_plain hdata, controlSequences_bar (by decide),
    controlSequences_char (by decide), controlSequences_plain fun c hc => (l.text_plain c hc).1,
    controlSequences_char (by decide), controlSequences_bar (by decide), controlSequences_bar (by decide)]

/-- The first step lets the messages of the grammar pass. -/
theorem controlSequences_accepted (h : Accepted stores s) : controlSequences (cstr s) = some true := by
  obtain ⟨pieces, rfl, -⟩ := h
  induction pieces with
  | nil => rfl
  | cons piece pieces ih =>
    rw [List.flatMap_cons, cstr_append, ← ih]
    cases piece with
    | char c plain => exact controlSequences_char plain _
    | pipe => rfl
    | link l => exact controlSequences_link l _

theorem length_chars (l : Link) : 0 < l.chars.length := Nat.zero_lt_succ _

/-- What a pointer at a pipe leads to: whether what is parsed there passes, and what follows. -/
theorem accepted_parsed (h : '\x00' ∉ l.chars ++ rest) (hs : '|' :: s = l.chars ++ rest) :
    Accepted stores ('|' :: s) ↔ l.Passes stores ∧ Accepted stores rest := by
  rw [accepted_bar]
  constructor
  · rintro (⟨s', rfl, -⟩ | ⟨l', rest', hs', hpasses, haccepted⟩)
    · cases hs
    · -- both links are what is parsed
      have hparsed := parseHyperlink_chars l (fun hmem => h (List.mem_append_left _ hmem)) rest
      have hparsed' := parseHyperlink_chars l' (fun hmem => h (hs ▸ hs' ▸ List.mem_append_left _ hmem)) rest'
      rw [← hs', hs, hparsed] at hparsed'
      have hinfo : l.info rest = l'.info rest' := Reading.ok.inj hparsed'
      refine ⟨(validateLinkInfo_iff l rest).1 (hinfo ▸ (validateLinkInfo_iff l' rest').2 hpasses), ?_⟩
      have hrest : rest = rest' := List.append_cancel_right (congrArg HyperlinkInfo.next hinfo)
      exact hrest ▸ haccepted
  · rintro ⟨hpasses, haccepted⟩
    exact .inr ⟨l, rest, hs, hpasses, haccepted⟩

theorem linkSequences_plain (ha : ∀ c ∈ a, c ≠ '|') (pos : List Char) :
    linkSequences stores (turns + 1) (a ++ pos) = linkSequences stores (turns + 1) pos := by
  unfold linkSequences
  rw [List.dropWhile_append_of_pos fun c hc => decide_eq_true (ha c hc)]

/-- At a pipe that is not escaped a link is parsed. -/
theorem linkSequences_link (hs : ∀ s', s ≠ '|' :: s') : linkSequences stores (turns + 1) ('|' :: cstr s) =
    match parseHyperlink ('|' :: cstr s) with
    | .past => none
    | .failed => some false
    | .ok info => if validateLinkInfo stores info then linkSequences stores turns info.next else some false := by
  cases s with
  | nil => rfl
  | cons c s => exact if_neg fun hc => hs s (by rw [hc])

/-- The second step ends, and accepts the messages of the grammar. -/
theorem linkSequences_spec : ∀ (turns : Nat) {s : List Char}, s.length < turns → '\x00' ∉ s →
    ∃ b, linkSequences stores turns (cstr s) = some b ∧ (b = true ↔ Accepted stores s)
  | turns + 1, s, hturns, h => by
    have hplain : ∀ c ∈ s.takeWhile (· ≠ '|'), c ≠ '|' := fun c hc => by
      simpa using List.mem_takeWhile_imp hc
    rw [← List.takeWhile_append_dropWhile (p := (· ≠ '|')) (l := s), cstr_append, linkSequences_plain hplain,
      accepted_plain hplain]
    have hlength := List.length_dropWhile_le (· ≠ '|') s
    have hnul : '\x00' ∉ s.dropWhile (· ≠ '|') := fun hmem => h ((List.dropWhile_sublist _).subset hmem)
    cases hrest : s.dropWhile (· ≠ '|') with
    | nil => exact ⟨true, rfl, iff_of_true rfl accepted_nil⟩
    | cons bar t =>
      obtain rfl : bar = '|' := by
        have hstop := List.head?_dropWhile_not (· ≠ '|') s
        rw [hrest] at hstop
        simpa using hstop
      rw [hrest] at hlength hnul
      rw [List.length_cons] at hlength
      have ht : '\x00' ∉ t := fun hmem => hnul (List.mem_cons_of_mem _ hmem)
      by_cases hescaped : ∃ t', t = '|' :: t'
      · obtain ⟨t', rfl⟩ := hescaped
        rw [List.length_cons] at hlength
        obtain ⟨b, hb, hiff⟩ := linkSequences_spec turns (s := t') (by omega) fun hmem => ht (List.mem_cons_of_mem _ hmem)
        refine ⟨b, hb, hiff.trans ⟨fun haccepted => accepted_bar.2 (.inl ⟨t', rfl, haccepted⟩), fun haccepted => ?_⟩⟩
        rcases accepted_bar.1 haccepted with ⟨t'', heq, haccepted⟩ | ⟨l, rest, heq, -⟩
        · obtain rfl := (List.cons.inj heq).2
          exact haccepted
        · exact absurd (List.cons.inj (List.cons.inj heq).2).1 (by decide)
      rw [cstr_cons, linkSequences_link fun t' ht' => hescaped ⟨t', ht'⟩]
      have hsafe := parseHyperlink_safe hnul
      rw [cstr_cons] at hsafe
      cases hparse : parseHyperlink ('|' :: cstr t) with
      | past => rw [hparse] at hsafe; exact hsafe.elim
      | failed =>
        refine ⟨false, rfl, iff_of_false Bool.false_ne_true fun haccepted => ?_⟩
        rcases accepted_bar.1 haccepted with ⟨t', heq, -⟩ | ⟨l, rest, heq, -⟩
        · exact hescaped ⟨t', heq⟩
        have hparsed := parseHyperlink_chars l (fun hmem => hnul (heq ▸ List.mem_append_left _ hmem)) rest
        rw [← heq, cstr_cons, hparse] at hparsed
        cases hparsed
      | ok info =>
        rw [hparse] at hsafe
        obtain ⟨l, rest, heq, rfl⟩ := hsafe
        rw [accepted_parsed (heq ▸ hnul) heq, ← validateLinkInfo_iff l rest]
        dsimp only
        split
        next hvalid =>
          have hlink : rest.length < turns := by
            have hlen := congrArg List.length heq
            have hpos := length_chars l
            rw [List.length_append, List.length_cons] at hlen
            omega
          obtain ⟨b, hb, hiff⟩ := linkSequences_spec turns hlink fun hmem => hnul (heq ▸ List.mem_append_right _ hmem)
          exact ⟨b, hb, hiff.trans ⟨fun haccepted => ⟨hvalid, haccepted⟩, fun hboth => hboth.2⟩⟩
        next hinvalid => exact ⟨false, rfl, iff_of_false Bool.false_ne_true fun hboth => hinvalid hboth.1⟩

/-- No message is read past its NUL; the check accepts the messages of the grammar, and a link is parsed wherever there is
one, with its spans and what follows. -/
theorem checkAllLinks_iff (stores : LinkStores) {str : List Char} (h : '\x00' ∉ str) :
    (∃ b, checkAllLinks stores str = some b ∧ (b = true ↔ Accepted stores str)) ∧
      ∀ before s, str = before ++ s → parseHyperlink (cstr s) ≠ .past ∧
        ∀ info, parseHyperlink (cstr s) = .ok info ↔ ∃ (l : Link) (rest : List Char), s = l.chars ++ rest ∧ info = l.info rest := by
  refine ⟨?_, fun before s hs => ?_⟩
  · obtain ⟨b, hcontrol⟩ := controlSequences_ends str
    obtain ⟨b', hlinks, hiff⟩ := @linkSequences_spec stores (cstr str).length str (by simp [cstr]) h
    unfold checkAllLinks
    cases b with
    | false =>
      rw [hcontrol]
      refine ⟨false, rfl, iff_of_false Bool.false_ne_true fun haccepted => ?_⟩
      rw [controlSequences_accepted haccepted] at hcontrol
      cases hcontrol
    | true =>
      rw [hcontrol]
      exact ⟨b', hlinks, hiff⟩
  · have hnul : '\x00' ∉ s := fun hmem => h (hs ▸ List.mem_append_right _ hmem)
    have hsafe := parseHyperlink_safe hnul
    refine ⟨fun hpast => ?_, fun info => ⟨fun hok => ?_, ?_⟩⟩
    · rw [hpast] at hsafe
      exact hsafe
    · rw [hok] at hsafe
      exact hsafe
    · rintro ⟨l, rest, rfl, rfl⟩
      exact parseHyperlink_chars l (fun hmem => hnul (List.mem_append_left _ hmem)) rest

/-- Stores with the spell Ghost and no other. -/
def ghostStores : LinkStores where
  strictLinkChecking := true
  getSpellInfo id := if id = 8326 then some ["Ghost".toList] else none
  stored _ := .string

def ghostMessage : List Char := "a||b |cff71d5ff|Hspell:8326|h[Ghost]|h|r!".toList

theorem checkAllLinks_ghost : Accepted ghostStores ghostMessage := by
  have hnul : '\x00' ∉ ghostMessage := by decide
  obtain ⟨⟨b, hcheck, haccepted⟩, -⟩ := checkAllLinks_iff ghostStores hnul
  have htrue : checkAllLinks ghostStores ghostMessage = some true := by decide
  rw [htrue] at hcheck
  exact haccepted.1 (Option.some.inj hcheck).symm

end AtlasWow.Hyperlinks
