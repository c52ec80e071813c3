/-
UTF-8 and UTF-16 as the `utf8` headers under `dep/utf8cpp` read and write them.
A code point is a number; where the headers throw the answer is `none`.

`next` reads what `append` writes and nothing else (`next_append`,
`append_of_next`), so that a string is read as the code points it is the octets
of (`codePoints_eq_some`). What went to UTF-16 comes back (`utf16to8_units`).
-/
import Mathlib.Algebra.Group.Int.Defs
import Mathlib.Algebra.Group.Nat.Defs
import Mathlib.Tactic.Common

namespace AtlasWow
namespace Utf8

def isLeadSurrogate (cp : Nat) : Bool := 0xd800 ≤ cp ∧ cp ≤ 0xdbff

def isTrailSurrogate (cp : Nat) : Bool := 0xdc00 ≤ cp ∧ cp ≤ 0xdfff

def isSurrogate (cp : Nat) : Bool := 0xd800 ≤ cp ∧ cp ≤ 0xdfff

def isCodePointValid (cp : Nat) : Bool := cp ≤ 0x10ffff ∧ ¬ isSurrogate cp

def isTrail (oc : UInt8) : Bool := oc.toNat >>> 6 = 0x2

def sequenceLength (lead : UInt8) : Nat :=
  if lead.toNat < 0x80 then 1
  else if lead.toNat >>> 5 = 0x6 then 2
  else if lead.toNat >>> 4 = 0xe then 3
  else if lead.toNat >>> 3 = 0x1e then 4
  else 0

def isOverlongSequence (cp length : Nat) : Bool :=
  if cp < 0x80 then length ≠ 1
  else if cp < 0x800 then length ≠ 2
  else if cp < 0x10000 then length ≠ 3
  else false

/-- `get_sequence_1` to `get_sequence_4`: the code point and what is left. -/
def getSequence : Nat → List UInt8 → Option (Nat × List UInt8)
  | 1, a :: s => some (a.toNat, s)
  | 2, a :: b :: s =>
    if isTrail b then some (((a.toNat <<< 6) &&& 0x7ff) + (b.toNat &&& 0x3f), s) else none
  | 3, a :: b :: c :: s =>
    if isTrail b ∧ isTrail c then
      some (((a.toNat <<< 12) &&& 0xffff) + ((b.toNat <<< 6) &&& 0xfff) + (c.toNat &&& 0x3f), s)
    else none
  | 4, a :: b :: c :: d :: s =>
    if isTrail b ∧ isTrail c ∧ isTrail d then
      some (((a.toNat <<< 18) &&& 0x1fffff) + ((b.toNat <<< 12) &&& 0x3ffff) + ((c.toNat <<< 6) &&& 0xfff) +
        (d.toNat &&& 0x3f), s)
    else none
  | _, _ => none

def next : List UInt8 → Option (Nat × List UInt8)
  | [] => none
  | lead :: s =>
    match getSequence (sequenceLength lead) (lead :: s) with
    | some (cp, rest) =>
      if isCodePointValid cp ∧ ¬ isOverlongSequence cp (sequenceLength lead) then some (cp, rest) else none
    | none => none

/-- `append`: the octets of a code point. -/
def append (cp : Nat) : Option (List UInt8) :=
  if ¬ isCodePointValid cp then none
  else if cp < 0x80 then some [UInt8.ofNat cp]
  else if cp < 0x800 then some [UInt8.ofNat (cp >>> 6 ||| 0xc0), UInt8.ofNat (cp &&& 0x3f ||| 0x80)]
  else if cp < 0x10000 then
    some [UInt8.ofNat (cp >>> 12 ||| 0xe0), UInt8.ofNat (cp >>> 6 &&& 0x3f ||| 0x80), UInt8.ofNat (cp &&& 0x3f ||| 0x80)]
  else
    some [UInt8.ofNat (cp >>> 18 ||| 0xf0), UInt8.ofNat (cp >>> 12 &&& 0x3f ||| 0x80),
      UInt8.ofNat (cp >>> 6 &&& 0x3f ||| 0x80), UInt8.ofNat (cp &&& 0x3f ||| 0x80)]

/-- `next` until the end; every turn takes an octet, so that the length is fuel enough. -/
def codePointsFrom : Nat → List UInt8 → Option (List Nat)
  | _, [] => some []
  | 0, _ :: _ => none
  | fuel + 1, s =>
    match next s with
    | some (cp, rest) => (codePointsFrom fuel rest).map (cp :: ·)
    | none => none

def codePoints (s : List UInt8) : Option (List Nat) := codePointsFrom s.length s

def distance (s : List UInt8) : Option Nat := (codePoints s).map List.length

/-- The words of a code point in UTF-16. -/
def units (cp : Nat) : List Nat :=
  if cp > 0xffff then [((cp >>> 10) + (0xd800 - (0x10000 >>> 10))) % 2 ^ 16, ((cp &&& 0x3ff) + 0xdc00) % 2 ^ 16]
  else [cp % 2 ^ 16]

def utf8to16 (s : List UInt8) : Option (List Nat) := (codePoints s).map (List.flatMap units)

def surrogateOffset : Nat := (0x10000 - (0xd800 <<< 10 : Int) - 0xdc00 : Int) % 2 ^ 32 |>.toNat

def utf16to8 : List Nat → Option (List UInt8)
  | [] => some []
  | [u] =>
    if isLeadSurrogate (u &&& 0xffff) || isTrailSurrogate (u &&& 0xffff) then none else append (u &&& 0xffff)
  | u :: v :: us =>
    let cp := u &&& 0xffff
    let trail := v &&& 0xffff
    if isLeadSurrogate cp then
      if isTrailSurrogate trail then
        (append (((cp <<< 10) + trail + surrogateOffset) % 2 ^ 32)).bind fun bs => (utf16to8 us).map (bs ++ ·)
      else none
    else if isTrailSurrogate cp then none
    else (append cp).bind fun bs => (utf16to8 (v :: us)).map (bs ++ ·)

/-- The octets of code points, one after the other. -/
def encode : List Nat → Option (List UInt8)
  | [] => some []
  | cp :: cps => (append cp).bind fun bs => (encode cps).map (bs ++ ·)

/-! ### One code point -/

variable {m fuel : Nat} {c d : List Nat}

theorem and_low (k : Nat) (h : m = 2 ^ k - 1) (n : Nat) : n &&& m = n % 2 ^ k := by
  rw [h, Nat.and_two_pow_sub_one_eq_mod]

variable {n cp : Nat} {s bs : List UInt8} {cps : List Nat}

theorem or_high (k i : Nat) (hm : m = 2 ^ k * i) (h : n < 2 ^ k) : n ||| m = m + n := by
  rw [hm, Nat.or_comm, Nat.two_pow_add_eq_or_of_lt h]

theorem isTrail_iff {oc : UInt8} : isTrail oc = true ↔ 128 ≤ oc.toNat ∧ oc.toNat < 192 := by
  rw [isTrail, decide_eq_true_eq, Nat.shiftRight_eq_div_pow]
  omega

theorem isCodePointValid_iff : isCodePointValid cp = true ↔ cp < 0xd800 ∨ (0xe000 ≤ cp ∧ cp < 0x110000) := by
  simp only [isCodePointValid, isSurrogate, decide_eq_true_eq]
  omega

/-- `append` in plain arithmetic. -/
theorem append_eq (cp : Nat) : append cp =
    if ¬ isCodePointValid cp then none
    else if cp < 128 then some [UInt8.ofNat cp]
    else if cp < 2048 then some [UInt8.ofNat (192 + cp / 64), UInt8.ofNat (128 + cp % 64)]
    else if cp < 65536 then
      some [UInt8.ofNat (224 + cp / 4096), UInt8.ofNat (128 + cp / 64 % 64), UInt8.ofNat (128 + cp % 64)]
    else some [UInt8.ofNat (240 + cp / 262144), UInt8.ofNat (128 + cp / 4096 % 64), UInt8.ofNat (128 + cp / 64 % 64),
      UInt8.ofNat (128 + cp % 64)] := by
  have hvalid : isCodePointValid cp = true ↔ _ := isCodePointValid_iff
  simp only [append, Nat.shiftRight_eq_div_pow, and_low 6 (m := 0x3f) rfl, Nat.reducePow]
  split
  · rfl
  next hv =>
  rw [not_not, hvalid] at hv
  split_ifs
  · rfl
  · rw [or_high 6 3 (m := 0xc0) rfl (by omega), or_high 7 1 (m := 0x80) rfl (by omega)]
  · rw [or_high 5 7 (m := 0xe0) rfl (by omega), or_high 7 1 (m := 0x80) rfl (by omega),
      or_high 7 1 (m := 0x80) rfl (by omega)]
  · rw [or_high 4 15 (m := 0xf0) rfl (by omega), or_high 7 1 (m := 0x80) rfl (by omega),
      or_high 7 1 (m := 0x80) rfl (by omega), or_high 7 1 (m := 0x80) rfl (by omega)]

theorem sequenceLength_eq (lead : UInt8) : sequenceLength lead =
    if lead.toNat < 128 then 1
    else if lead.toNat < 192 then 0
    else if lead.toNat < 224 then 2
    else if lead.toNat < 240 then 3
    else if lead.toNat < 248 then 4
    else 0 := by
  simp only [sequenceLength, Nat.shiftRight_eq_div_pow]
  split_ifs <;> omega

theorem not_isOverlongSequence {length : Nat} : ¬ isOverlongSequence cp length = true ↔
    (cp < 128 → length = 1) ∧ (128 ≤ cp → cp < 2048 → length = 2) ∧ (2048 ≤ cp → cp < 65536 → length = 3) := by
  rw [isOverlongSequence]
  split_ifs <;> simp <;> omega

theorem getSequence_two (a b : UInt8) (s : List UInt8) : getSequence 2 (a :: b :: s) =
    if isTrail b then some (a.toNat % 32 * 64 + b.toNat % 64, s) else none := by
  have ha : a.toNat * 64 % 2048 = a.toNat % 32 * 64 := Nat.mul_mod_mul_right 64 _ 32
  simp only [getSequence, Nat.shiftLeft_eq, and_low 11 (m := 0x7ff) rfl, and_low 6 (m := 0x3f) rfl, Nat.reducePow, ha]

theorem getSequence_three (a b c : UInt8) (s : List UInt8) : getSequence 3 (a :: b :: c :: s) =
    if isTrail b ∧ isTrail c then some (a.toNat % 16 * 4096 + b.toNat % 64 * 64 + c.toNat % 64, s) else none := by
  have ha : a.toNat * 4096 % 65536 = a.toNat % 16 * 4096 := Nat.mul_mod_mul_right 4096 _ 16
  have hb : b.toNat * 64 % 4096 = b.toNat % 64 * 64 := Nat.mul_mod_mul_right 64 _ 64
  simp only [getSequence, Nat.shiftLeft_eq, and_low 16 (m := 0xffff) rfl, and_low 12 (m := 0xfff) rfl,
    and_low 6 (m := 0x3f) rfl, Nat.reducePow, ha, hb]

theorem getSequence_four (a b c d : UInt8) (s : List UInt8) : getSequence 4 (a :: b :: c :: d :: s) =
    if isTrail b ∧ isTrail c ∧ isTrail d then
      some (a.toNat % 8 * 262144 + b.toNat % 64 * 4096 + c.toNat % 64 * 64 + d.toNat % 64, s) else none := by
  have ha : a.toNat * 262144 % 2097152 = a.toNat % 8 * 262144 := Nat.mul_mod_mul_right 262144 _ 8
  have hb : b.toNat * 4096 % 262144 = b.toNat % 64 * 4096 := Nat.mul_mod_mul_right 4096 _ 64
  have hc : c.toNat * 64 % 4096 = c.toNat % 64 * 64 := Nat.mul_mod_mul_right 64 _ 64
  simp only [getSequence, Nat.shiftLeft_eq, and_low 21 (m := 0x1fffff) rfl, and_low 18 (m := 0x3ffff) rfl,
    and_low 12 (m := 0xfff) rfl, and_low 6 (m := 0x3f) rfl, Nat.reducePow, ha, hb, hc]

theorem toNat_ofNat (h : n < 256) : (UInt8.ofNat n).toNat = n := UInt8.toNat_ofNat_of_lt' h

theorem ofNat_eq {b : UInt8} (h : n = b.toNat) : UInt8.ofNat n = b := by rw [h, UInt8.ofNat_toNat]

theorem isTrail_ofNat (h : n < 64) : isTrail (UInt8.ofNat (128 + n)) = true := by
  rw [isTrail_iff, toNat_ofNat (by omega)]
  omega

/-- A sequence that is complete and passes the checks. -/
theorem next_of_sequence (length : Nat) {lead : UInt8} {rest : List UInt8} (hlength : sequenceLength lead = length)
    (hseq : getSequence length (lead :: s) = some (cp, rest)) (hvalid : isCodePointValid cp = true)
    (hlong : ¬ isOverlongSequence cp length = true) : next (lead :: s) = some (cp, rest) := by
  simp only [next, hlength, hseq]
  rw [if_pos ⟨hvalid, hlong⟩]

/-- What `append` writes is read, whatever follows. -/
theorem next_append (h : append cp = some bs) (s : List UInt8) : next (bs ++ s) = some (cp, s) := by
  rw [append_eq] at h
  split at h
  · exact nomatch h
  next hv =>
  rw [not_not] at hv
  have hrange := isCodePointValid_iff.1 hv
  split_ifs at h with h1 h2 h3 <;> obtain rfl := Option.some.inj h <;>
    simp only [List.cons_append, List.nil_append]
  · refine next_of_sequence 1 ?_ ?_ hv (by rw [not_isOverlongSequence]; omega)
    · rw [sequenceLength_eq, toNat_ofNat (by omega), if_pos h1]
    · rw [getSequence, toNat_ofNat (by omega)]
  · refine next_of_sequence 2 ?_ ?_ hv (by rw [not_isOverlongSequence]; omega)
    · rw [sequenceLength_eq, toNat_ofNat (by omega), if_neg (by omega), if_neg (by omega), if_pos (by omega)]
    · have hcp : (192 + cp / 64) % 32 * 64 + (128 + cp % 64) % 64 = cp := by omega
      rw [getSequence_two, if_pos (isTrail_ofNat (by omega)), toNat_ofNat (by omega),
        toNat_ofNat (by omega), hcp]
  · refine next_of_sequence 3 ?_ ?_ hv (by rw [not_isOverlongSequence]; omega)
    · rw [sequenceLength_eq, toNat_ofNat (by omega), if_neg (by omega), if_neg (by omega), if_neg (by omega),
        if_pos (by omega)]
    · have hcp : (224 + cp / 4096) % 16 * 4096 + (128 + cp / 64 % 64) % 64 * 64 + (128 + cp % 64) % 64 = cp := by omega
      rw [getSequence_three,
        if_pos ⟨isTrail_ofNat (by omega), isTrail_ofNat (by omega)⟩, toNat_ofNat (by omega), toNat_ofNat (by omega),
        toNat_ofNat (by omega), hcp]
  · refine next_of_sequence 4 ?_ ?_ hv (by rw [not_isOverlongSequence]; omega)
    · rw [sequenceLength_eq, toNat_ofNat (by omega), if_neg (by omega), if_neg (by omega), if_neg (by omega),
        if_neg (by omega), if_pos (by omega)]
    · have hcp : (240 + cp / 262144) % 8 * 262144 + (128 + cp / 4096 % 64) % 64 * 4096 +
          (128 + cp / 64 % 64) % 64 * 64 + (128 + cp % 64) % 64 = cp := by omega
      rw [getSequence_four,
        if_pos ⟨isTrail_ofNat (by omega), isTrail_ofNat (by omega), isTrail_ofNat (by omega)⟩, toNat_ofNat (by omega),
        toNat_ofNat (by omega), toNat_ofNat (by omega), toNat_ofNat (by omega), hcp]

/-- What is read is what `append` writes. -/
theorem append_of_next {t : List UInt8} (h : next s = some (cp, t)) : ∃ bs, append cp = some bs ∧ s = bs ++ t := by
  cases s with
  | nil => exact nomatch h
  | cons a s =>
    rw [next] at h
    split at h
    next c rest hseq =>
      split at h
      next hchecks =>
        obtain ⟨rfl, rfl⟩ := Prod.mk.inj (Option.some.inj h)
        obtain ⟨hv, hlong⟩ := hchecks
        have hrange := isCodePointValid_iff.1 hv
        rw [not_isOverlongSequence] at hlong
        rw [append_eq, if_neg (not_not.2 hv)]
        rw [sequenceLength_eq] at hseq hlong
        split_ifs at hseq hlong with h1 h2 h3 h4 h5
        · obtain ⟨rfl, rfl⟩ := Prod.mk.inj (Option.some.inj hseq)
          refine ⟨[a], ?_, rfl⟩
          rw [if_pos h1, UInt8.ofNat_toNat]
        · exact nomatch hseq
        · match s with
          | [] => exact nomatch hseq
          | b :: s =>
            rw [getSequence_two] at hseq
            split at hseq
            next hb =>
              rw [isTrail_iff] at hb
              obtain ⟨rfl, rfl⟩ := Prod.mk.inj (Option.some.inj hseq)
              refine ⟨[a, b], ?_, rfl⟩
              rw [if_neg (by omega), if_pos (by omega), ofNat_eq (b := a) (by omega), ofNat_eq (b := b) (by omega)]
            next => exact nomatch hseq
        · match s with
          | [] | [_] => exact nomatch hseq
          | b :: c :: s =>
            rw [getSequence_three] at hseq
            split at hseq
            next hbc =>
              rw [isTrail_iff, isTrail_iff] at hbc
              obtain ⟨rfl, rfl⟩ := Prod.mk.inj (Option.some.inj hseq)
              refine ⟨[a, b, c], ?_, rfl⟩
              rw [if_neg (by omega), if_neg (by omega), if_pos (by omega), ofNat_eq (b := a) (by omega),
                ofNat_eq (b := b) (by omega), ofNat_eq (b := c) (by omega)]
            next => exact nomatch hseq
        · match s with
          | [] | [_] | [_, _] => exact nomatch hseq
          | b :: c :: d :: s =>
            rw [getSequence_four] at hseq
            split at hseq
            next hbcd =>
              rw [isTrail_iff, isTrail_iff, isTrail_iff] at hbcd
              obtain ⟨rfl, rfl⟩ := Prod.mk.inj (Option.some.inj hseq)
              refine ⟨[a, b, c, d], ?_, rfl⟩
              rw [if_neg (by omega), if_neg (by omega), if_neg (by omega), ofNat_eq (b := a) (by omega),
                ofNat_eq (b := b) (by omega), ofNat_eq (b := c) (by omega), ofNat_eq (b := d) (by omega)]
            next => exact nomatch hseq
        · exact nomatch hseq
      next => exact nomatch h
    next => exact nomatch h

theorem append_ne_nil (h : append cp = some bs) : bs ≠ [] := by
  rw [append_eq] at h
  split_ifs at h <;> obtain rfl := Option.some.inj h <;> simp

theorem valid_of_append (h : append cp = some bs) : isCodePointValid cp = true := by
  by_contra hv
  rw [append, if_pos hv] at h
  exact nomatch h

/-! ### Strings -/

theorem encode_cons : encode (cp :: cps) = some s ↔
    ∃ bs t, append cp = some bs ∧ encode cps = some t ∧ s = bs ++ t := by
  simp only [encode, Option.bind_eq_some_iff, Option.map_eq_some_iff]
  constructor
  · rintro ⟨bs, hbs, t, ht, rfl⟩
    exact ⟨bs, t, hbs, ht, rfl⟩
  · rintro ⟨bs, t, hbs, ht, rfl⟩
    exact ⟨bs, hbs, t, ht, rfl⟩

theorem encode_append : encode (c ++ d) = some s ↔ ∃ p q, encode c = some p ∧ encode d = some q ∧ s = p ++ q := by
  induction c generalizing s with
  | nil => simp [encode]
  | cons cp c ih =>
    rw [List.cons_append, encode_cons]
    constructor
    · rintro ⟨bs, t, hbs, ht, rfl⟩
      obtain ⟨p, q, hp, hq, rfl⟩ := ih.1 ht
      exact ⟨bs ++ p, q, encode_cons.2 ⟨bs, p, hbs, hp, rfl⟩, hq, (List.append_assoc ..).symm⟩
    · rintro ⟨p, q, hp, hq, rfl⟩
      obtain ⟨bs, t, hbs, ht, rfl⟩ := encode_cons.1 hp
      exact ⟨bs, t ++ q, hbs, ih.2 ⟨t, q, ht, hq, rfl⟩, List.append_assoc ..⟩

theorem codePointsFrom_encode (h : encode cps = some s)
    (hfuel : s.length ≤ fuel) : codePointsFrom fuel s = some cps := by
  induction cps generalizing s fuel with
  | nil =>
    obtain rfl := Option.some.inj h
    rw [codePointsFrom]
  | cons cp cps ih =>
    obtain ⟨bs, t, hbs, ht, rfl⟩ := encode_cons.1 h
    have hnext := next_append hbs t
    have hpos := List.length_pos_iff.2 (append_ne_nil hbs)
    rw [List.length_append] at hfuel
    obtain ⟨b, r, hbr⟩ := List.exists_cons_of_length_pos (l := bs ++ t) (by rw [List.length_append]; omega)
    obtain ⟨fuel, rfl⟩ : ∃ f, fuel = f + 1 := ⟨fuel - 1, by omega⟩
    rw [hbr] at hnext ⊢
    rw [codePointsFrom, hnext]
    · simp only [ih ht (show t.length ≤ fuel by omega), Option.map_some]
    · exact List.cons_ne_nil _ _

theorem encode_codePointsFrom (h : codePointsFrom fuel s = some cps) : encode cps = some s := by
  induction fuel generalizing s cps with
  | zero =>
    cases s with
    | nil => obtain rfl := Option.some.inj h; rfl
    | cons _ _ => exact nomatch h
  | succ fuel ih =>
    cases s with
    | nil => obtain rfl := Option.some.inj h; rfl
    | cons a s =>
      rw [codePointsFrom] at h
      · split at h
        next cp rest hnext =>
          obtain ⟨cps, hcps, rfl⟩ := Option.map_eq_some_iff.1 h
          obtain ⟨bs, hbs, hs⟩ := append_of_next hnext
          exact encode_cons.2 ⟨bs, rest, hbs, ih hcps, hs⟩
        next => exact nomatch h
      · exact List.cons_ne_nil _ _

/-- A string is read as the code points that it is the octets of. -/
theorem codePoints_eq_some : codePoints s = some cps ↔ encode cps = some s :=
  ⟨encode_codePointsFrom, fun h => codePointsFrom_encode h (Nat.le_refl _)⟩

/-- Of two strings, one the beginning of the other, so are the code points. -/
theorem prefix_of_encode {p q : List UInt8} (hc : encode c = some p) (hd : encode d = some (p ++ q)) : c <+: d := by
  induction c generalizing d p with
  | nil => exact List.nil_prefix
  | cons x c ih =>
    obtain ⟨bs, t, hbs, ht, rfl⟩ := encode_cons.1 hc
    cases d with
    | nil =>
      have hnil : bs ++ t ++ q = [] := (Option.some.inj hd).symm
      rw [List.append_assoc] at hnil
      exact absurd (List.append_eq_nil_iff.1 hnil).1 (append_ne_nil hbs)
    | cons y d =>
      obtain ⟨bs', t', hbs', ht', heq⟩ := encode_cons.1 hd
      -- Both begin with what `next` reads there.
      have hnext := next_append hbs (t ++ q)
      rw [← List.append_assoc, heq, next_append hbs'] at hnext
      obtain ⟨rfl, rfl⟩ := Prod.mk.inj (Option.some.inj hnext)
      exact List.cons_prefix_cons.2 ⟨rfl, ih ht ht'⟩

/-! ### UTF-16 -/

theorem surrogateOffset_eq : surrogateOffset = 4238353408 := by decide

theorem units_basic (h : cp ≤ 0xffff) : units cp = [cp] := by
  rw [units, if_neg (by omega), Nat.mod_eq_of_lt (by omega)]

theorem units_pair (h : 0xffff < cp) (hmax : cp < 0x110000) : units cp = [cp / 1024 + 0xd7c0, cp % 1024 + 0xdc00] := by
  have hlead : (cp / 1024 + 0xd7c0) % 65536 = cp / 1024 + 0xd7c0 := Nat.mod_eq_of_lt (by omega)
  have htrail : (cp % 1024 + 0xdc00) % 65536 = cp % 1024 + 0xdc00 := Nat.mod_eq_of_lt (by omega)
  simp only [units, h, if_true, Nat.shiftRight_eq_div_pow, and_low 10 (m := 0x3ff) rfl, Nat.reducePow, Nat.reduceDiv,
    Nat.reduceSub, hlead, htrail]

/-- The words of a code point are read as it, whatever follows. -/
theorem utf16to8_append (hv : isCodePointValid cp = true) (us : List Nat) :
    utf16to8 (units cp ++ us) = (append cp).bind fun bs => (utf16to8 us).map (bs ++ ·) := by
  have hrange := isCodePointValid_iff.1 hv
  by_cases h : cp ≤ 0xffff
  · have hmask : cp &&& 0xffff = cp := by rw [and_low 16 (m := 0xffff) rfl, Nat.mod_eq_of_lt (by omega)]
    have hlead : isLeadSurrogate cp = false := by rw [isLeadSurrogate, decide_eq_false_iff_not]; omega
    have htrail : isTrailSurrogate cp = false := by rw [isTrailSurrogate, decide_eq_false_iff_not]; omega
    rw [units_basic h, List.singleton_append]
    cases us with
    | nil => simp [utf16to8, hmask, hlead, htrail]
    | cons v us => simp only [utf16to8, hmask, hlead, htrail, Bool.false_eq_true, if_false]
  have hmask : (cp / 1024 + 0xd7c0) &&& 0xffff = cp / 1024 + 0xd7c0 := by
    rw [and_low 16 (m := 0xffff) rfl, Nat.mod_eq_of_lt (by omega)]
  have hmask' : (cp % 1024 + 0xdc00) &&& 0xffff = cp % 1024 + 0xdc00 := by
    rw [and_low 16 (m := 0xffff) rfl, Nat.mod_eq_of_lt (by omega)]
  have hlead : isLeadSurrogate (cp / 1024 + 0xd7c0) = true := by rw [isLeadSurrogate, decide_eq_true_eq]; omega
  have htrail : isTrailSurrogate (cp % 1024 + 0xdc00) = true := by rw [isTrailSurrogate, decide_eq_true_eq]; omega
  have hcp : ((cp / 1024 + 0xd7c0) * 2 ^ 10 + (cp % 1024 + 0xdc00) + surrogateOffset) % 2 ^ 32 = cp := by
    rw [surrogateOffset_eq]
    omega
  rw [units_pair (by omega) (by omega), List.cons_append, List.singleton_append]
  simp only [utf16to8, hmask, hmask', hlead, htrail, if_true, Nat.shiftLeft_eq, hcp]

/-- A string that went to UTF-16 comes back. -/
theorem utf16to8_units (h : encode cps = some s) : utf16to8 (cps.flatMap units) = some s := by
  induction cps generalizing s with
  | nil =>
    obtain rfl := Option.some.inj h
    rfl
  | cons cp cps ih =>
    obtain ⟨bs, t, hbs, ht, rfl⟩ := encode_cons.1 h
    rw [List.flatMap_cons, utf16to8_append (valid_of_append hbs), hbs, ih ht]
    rfl

end Utf8
end AtlasWow
