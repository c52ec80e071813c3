/-
`utf8truncate` (`Util.cpp`): the words of the string are written to a buffer
with room for one word a code point. A code point above 0xffff takes two, so
that with one in it the string fits no more; without, what is left is the
longest beginning of the string that the length allows (`utf8truncate_basic`).
-/
import AtlasWow.Utilities.Utf8

namespace AtlasWow
namespace Util

/-- Writing through a pointer to the first element; `none` beyond the last one. -/
def written {α : Type} (buffer out : List α) : Option (List α) :=
  if out.length ≤ buffer.length then some (out ++ buffer.drop out.length) else none

/-- What the string becomes; where a function of `utf8` throws it is cleared. -/
def utf8truncate (utf8str : List UInt8) (len : Nat) : Option (List UInt8) :=
  match Utf8.distance utf8str with
  | none => some []
  | some wlen =>
    if wlen ≤ len then some utf8str
    else match Utf8.utf8to16 utf8str with
      | none => some []
      | some words =>
        match written (List.replicate wlen 0) words with
        | none => none
        | some wstr =>
          match Utf8.utf16to8 (wstr.take len) with
          | none => some []
          | some out => (written utf8str out).map (List.take out.length)

/-- A beginning of `s` that is valid UTF-8 of at most `len` code points. -/
def IsCut (s : List UInt8) (len : Nat) (r : List UInt8) : Prop :=
  r <+: s ∧ ∃ cps, Utf8.codePoints r = some cps ∧ cps.length ≤ len

/-- The longest one. -/
def IsLongestCut (s : List UInt8) (len : Nat) (r : List UInt8) : Prop :=
  IsCut s len r ∧ ∀ p, IsCut s len p → p.length ≤ r.length

open Utf8

theorem length_flatMap_units_le (cps : List Nat) : cps.length ≤ (cps.flatMap units).length := by
  induction cps with
  | nil => exact Nat.le_refl _
  | cons cp cps ih =>
    have hunits : 0 < (units cp).length := by
      rw [units]
      split <;> exact Nat.succ_pos _
    rw [List.flatMap_cons, List.length_append, List.length_cons]
    omega

/-- The words are as many as the code points only where every code point is one word. -/
theorem length_flatMap_units (cps : List Nat) :
    (cps.flatMap units).length = cps.length ↔ ∀ cp ∈ cps, cp ≤ 0xffff := by
  induction cps with
  | nil => simp
  | cons cp cps ih =>
    have hle := length_flatMap_units_le cps
    rw [List.flatMap_cons, List.length_append, List.length_cons, List.forall_mem_cons, ← ih]
    by_cases h : cp ≤ 0xffff
    · rw [units_basic h]
      simp only [List.length_singleton, h, true_and]
      omega
    have hunits : (units cp).length = 2 := by
      rw [units, if_pos (by omega)]
      rfl
    simp only [hunits, h, false_and, iff_false]
    omega

variable {cps : List Nat} {s : List UInt8} {len : Nat}

theorem flatMap_units_basic (h : ∀ cp ∈ cps, cp ≤ 0xffff) : cps.flatMap units = cps := by
  induction cps with
  | nil => rfl
  | cons cp cps ih =>
    obtain ⟨hcp, hcps⟩ := List.forall_mem_cons.1 h
    rw [List.flatMap_cons, units_basic hcp, ih hcps, List.singleton_append]

/-- The octets of the first `len` code points are the longest cut. -/
theorem isLongestCut_take {r : List UInt8} (hs : encode cps = some s)
    (hr : encode (cps.take len) = some r) : IsLongestCut s len r := by
  have happend := hs
  rw [← List.take_append_drop len cps] at happend
  obtain ⟨r', t, hr', ht, rfl⟩ := encode_append.1 happend
  obtain rfl : r = r' := Option.some.inj (hr.symm.trans hr')
  refine ⟨⟨List.prefix_append .., _, codePoints_eq_some.2 hr, List.length_take_le ..⟩, ?_⟩
  rintro p ⟨⟨q, hq⟩, c, hc, hlen⟩
  rw [codePoints_eq_some] at hc
  have hprefix : c <+: cps.take len :=
    List.prefix_take_iff.2 ⟨prefix_of_encode hc (hs.trans (congrArg some hq.symm)), hlen⟩
  obtain ⟨d, hd⟩ := hprefix
  rw [← hd] at hr
  obtain ⟨p', q', hp', -, rfl⟩ := encode_append.1 hr
  obtain rfl : p = p' := Option.some.inj (hc.symm.trans hp')
  rw [List.length_append]
  exact Nat.le_add_right ..

/-- A string that is not longer stays as it is. -/
theorem utf8truncate_short (hs : codePoints s = some cps) (hlen : cps.length ≤ len) : utf8truncate s len = some s := by
  simp only [utf8truncate, distance, hs, Option.map_some]
  rw [if_pos hlen]

theorem utf8truncate_overflow (hs : codePoints s = some cps)
    (hlen : len < cps.length) (h : ¬ ∀ cp ∈ cps, cp ≤ 0xffff) : utf8truncate s len = none := by
  have hle := length_flatMap_units_le cps
  rw [← length_flatMap_units] at h
  have hwritten : written (List.replicate cps.length 0) (cps.flatMap units) = none := by
    rw [written, if_neg (by rw [List.length_replicate]; omega)]
  simp only [utf8truncate, distance, utf8to16, hs, Option.map_some, hwritten]
  rw [if_neg (by omega)]

theorem utf8truncate_basic (hs : codePoints s = some cps) (hlen : len < cps.length) (h : ∀ cp ∈ cps, cp ≤ 0xffff) :
    ∃ r, utf8truncate s len = some r ∧ encode (cps.take len) = some r := by
  have happend := codePoints_eq_some.1 hs
  rw [← List.take_append_drop len cps] at happend
  obtain ⟨r, t, hr, -, rfl⟩ := encode_append.1 happend
  have hwords : cps.flatMap units = cps := flatMap_units_basic h
  have hwstr : written (List.replicate cps.length 0) cps = some cps := by
    rw [written, if_pos (by simp), List.drop_replicate, Nat.sub_self, List.replicate_zero, List.append_nil]
  have hback : utf16to8 (cps.take len) = some r := by
    have hunits := utf16to8_units hr
    rwa [flatMap_units_basic fun cp hcp => h cp (List.mem_of_mem_take hcp)] at hunits
  have hout : written (r ++ t) r = some (r ++ t) := by
    rw [written, if_pos (by rw [List.length_append]; omega), List.drop_left]
  refine ⟨r, ?_, hr⟩
  simp only [utf8truncate, distance, utf8to16, hs, Option.map_some, hwords, hwstr, hback, hout, List.take_left]
  rw [if_neg (by omega)]

/-- `utf8truncate` leaves the longest beginning exactly where it has nothing to cut or every code point is one word. -/
theorem utf8truncate_spec {s : List UInt8} {cps : List Nat} (hs : codePoints s = some cps) (len : Nat) :
    (∃ r, utf8truncate s len = some r ∧ IsLongestCut s len r) ↔ cps.length ≤ len ∨ ∀ cp ∈ cps, cp ≤ 0xffff := by
  have hencode := codePoints_eq_some.1 hs
  constructor
  · rintro ⟨r, hr, -⟩
    by_contra hnot
    obtain ⟨hlen, hbasic⟩ := not_or.1 hnot
    rw [utf8truncate_overflow hs (by omega) hbasic] at hr
    exact nomatch hr
  · intro h
    by_cases hlen : cps.length ≤ len
    · exact ⟨s, utf8truncate_short hs hlen, isLongestCut_take hencode (by rwa [List.take_of_length_le hlen])⟩
    · obtain ⟨r, hr, htake⟩ := utf8truncate_basic hs (Nat.lt_of_not_le hlen) (h.resolve_left hlen)
      exact ⟨r, hr, isLongestCut_take hencode htake⟩

/-- Two letters, cut to one. -/
theorem utf8truncate_letters : ∃ r, utf8truncate [0xd0, 0xb9, 0x64] 1 = some r ∧ IsLongestCut [0xd0, 0xb9, 0x64] 1 r :=
  (utf8truncate_spec (show codePoints [0xd0, 0xb9, 0x64] = some [0x439, 0x64] by decide) 1).2 (.inr (by decide))

/-- Two clefs, cut to one. -/
theorem utf8truncate_clefs :
    codePoints [0xf0, 0x9d, 0x84, 0x9e, 0xf0, 0x9d, 0x84, 0x9e] = some [0x1d11e, 0x1d11e] ∧
      ¬ ∃ r, utf8truncate [0xf0, 0x9d, 0x84, 0x9e, 0xf0, 0x9d, 0x84, 0x9e] 1 = some r ∧
        IsLongestCut [0xf0, 0x9d, 0x84, 0x9e, 0xf0, 0x9d, 0x84, 0x9e] 1 r := by
  have hnone : utf8truncate [0xf0, 0x9d, 0x84, 0x9e, 0xf0, 0x9d, 0x84, 0x9e] 1 = none := by decide
  refine ⟨by decide, ?_⟩
  rintro ⟨r, hr, -⟩
  rw [hnone] at hr
  exact nomatch hr

end Util
end AtlasWow
