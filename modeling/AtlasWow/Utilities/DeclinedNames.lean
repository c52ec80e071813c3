/-
The check of a Russian name's declined forms: `GetMainPartOfName` (`Util.cpp`)
takes the ending of a form off, `ObjectMgr::CheckDeclinedNames` compares what
is left. A wide string is the list of its words; `none` is `out_of_range`, which
nothing catches.

`getMainPartOfName_isSome` and `checkDeclinedNames_isSome` tell when they return.
-/
import AtlasWow.Utilities.Utf8

namespace AtlasWow
namespace Util

def isCyrillicCharacter (wchar : Nat) : Bool :=
  (0x0410 ≤ wchar ∧ wchar ≤ 0x044F) ∨ wchar = 0x0401 ∨ wchar = 0x0451

/-- An ending, with the length that is kept before it. -/
structure NameEnd where
  len : Nat
  text : List Nat
  length_text : text.length = len

def a_End : NameEnd := ⟨1, [0x0430], rfl⟩
def o_End : NameEnd := ⟨1, [0x043E], rfl⟩
def ya_End : NameEnd := ⟨1, [0x044F], rfl⟩
def ie_End : NameEnd := ⟨1, [0x0435], rfl⟩
def i_End : NameEnd := ⟨1, [0x0438], rfl⟩
def yeru_End : NameEnd := ⟨1, [0x044B], rfl⟩
def u_End : NameEnd := ⟨1, [0x0443], rfl⟩
def yu_End : NameEnd := ⟨1, [0x044E], rfl⟩
def oj_End : NameEnd := ⟨2, [0x043E, 0x0439], rfl⟩
def ie_j_End : NameEnd := ⟨2, [0x0435, 0x0439], rfl⟩
def io_j_End : NameEnd := ⟨2, [0x0451, 0x0439], rfl⟩
def o_m_End : NameEnd := ⟨2, [0x043E, 0x043C], rfl⟩
def io_m_End : NameEnd := ⟨2, [0x0451, 0x043C], rfl⟩
def ie_m_End : NameEnd := ⟨2, [0x0435, 0x043C], rfl⟩
def soft_End : NameEnd := ⟨1, [0x044C], rfl⟩
def j_End : NameEnd := ⟨1, [0x0439], rfl⟩

def dropEnds : List (List NameEnd) := [
  [a_End, o_End, ya_End, ie_End, soft_End, j_End],
  [a_End, ya_End, yeru_End, i_End],
  [ie_End, u_End, yu_End, i_End],
  [u_End, yu_End, o_End, ie_End, soft_End, ya_End, a_End],
  [oj_End, io_j_End, ie_j_End, o_m_End, io_m_End, ie_m_End, yu_End],
  [ie_End, i_End]]

/-- The difference of two `size_t`. -/
def sizeSub (a b : Nat) : Nat := if b ≤ a then a - b else 2 ^ 64 + a - b

def substr (s : List Nat) (pos len : Nat) : Option (List Nat) :=
  if pos ≤ s.length then some ((s.drop pos).take len) else none

/-- The loop over the endings of a declension. -/
def dropEnd (wname : List Nat) : List NameEnd → Option (List Nat)
  | [] => some wname
  | e :: ends =>
    match substr wname (sizeSub wname.length e.len) e.len with
    | none => none
    | some tail => if tail = e.text then substr wname 0 (sizeSub wname.length e.len) else dropEnd wname ends

def getMainPartOfName (wname : List Nat) (declension : Nat) : Option (List Nat) :=
  match wname with
  | [] => some []
  | c :: _ =>
    if ¬ isCyrillicCharacter c ∨ declension > 5 then some wname
    else match dropEnds[declension]? with
      | none => none
      | some ends => dropEnd wname ends

/-- The declined forms, as a client sent them. -/
structure DeclinedName where
  name : Vector (List UInt8) 5

/-- The loop of `CheckDeclinedNames` from the form `i` on. -/
def checkDeclined (w_ownname mainpart : List Nat) : Nat → List (List UInt8) → Bool → Bool → Option Bool
  | _, [], x, y => some (x || y)
  | i, name :: names, x, y =>
    match Utf8.utf8to16 name with
    | none => some false
    | some wname =>
      match getMainPartOfName wname (i + 1) with
      | none => none
      | some part =>
        checkDeclined w_ownname mainpart (i + 1) names (x && decide (mainpart = part)) (y && decide (w_ownname = wname))

def checkDeclinedNames (w_ownname : List Nat) (names : DeclinedName) : Option Bool :=
  match getMainPartOfName w_ownname 0 with
  | none => none
  | some mainpart => checkDeclined w_ownname mainpart 0 names.name.toList true true

variable {s : List Nat} {len : Nat} {ends : List NameEnd}

theorem substr_sub (h : len ≤ s.length) : substr s (sizeSub s.length len) len = some (s.drop (s.length - len)) := by
  rw [substr, sizeSub, if_pos h, if_pos (Nat.sub_le ..), List.take_of_length_le]
  rw [List.length_drop]
  omega

theorem substr_before (h : s.length < len) (hlen : len < 2 ^ 64) : substr s (sizeSub s.length len) len = none := by
  have hpos : sizeSub s.length len = 2 ^ 64 + s.length - len := if_neg (by omega)
  rw [substr, hpos, if_neg (by omega)]

/-- Endings that are not longer than the name are taken off within it. -/
theorem dropEnd_isSome {wname : List Nat} (h : ∀ e ∈ ends, e.len ≤ wname.length) : (dropEnd wname ends).isSome := by
  induction ends with
  | nil => rfl
  | cons e ends ih =>
    obtain ⟨he, hends⟩ := List.forall_mem_cons.1 h
    simp only [dropEnd, substr_sub he]
    split
    · rw [substr, if_pos (Nat.zero_le _)]
      rfl
    · exact ih hends

/-- A letter is shorter than the first ending of declension 4. -/
theorem getMainPartOfName_letter {c : Nat} (hc : isCyrillicCharacter c = true) : getMainPartOfName [c] 4 = none := by
  have hfirst : substr [c] (sizeSub [c].length oj_End.len) oj_End.len = none :=
    substr_before (show 1 < 2 by decide) (show 2 < 2 ^ 64 by decide)
  rw [getMainPartOfName, if_neg (by simp [hc])]
  show dropEnd [c] [oj_End, io_j_End, ie_j_End, o_m_End, io_m_End, ie_m_End, yu_End] = none
  rw [dropEnd, hfirst]

/-- Endings are one letter, but for those of declension 4, which are two at most. -/
theorem len_dropEnds {declension : Nat} (h : dropEnds[declension]? = some ends) :
    ∀ e ∈ ends, e.len ≤ if declension = 4 then 2 else 1 := by
  match declension with
  | 0 | 1 | 2 | 3 | 4 | 5 =>
    obtain rfl := Option.some.inj h
    decide
  | n + 6 => exact nomatch h

/-- The main part of a name is found, but for one Cyrillic letter in declension 4. -/
theorem getMainPartOfName_isSome (wname : List Nat) (declension : Nat) : (getMainPartOfName wname declension).isSome ↔
    ¬ (declension = 4 ∧ ∃ c, wname = [c] ∧ isCyrillicCharacter c = true) := by
  constructor
  · rintro hsome ⟨rfl, c, rfl, hc⟩
    rw [getMainPartOfName_letter hc] at hsome
    exact nomatch hsome
  · intro hnot
    cases wname with
    | nil => rfl
    | cons c rest =>
      rw [getMainPartOfName]
      split
      next => rfl
      next hcond =>
      obtain ⟨hc, hdeclension⟩ := not_or.1 hcond
      rw [not_not] at hc
      obtain ⟨ends, hends⟩ : ∃ ends, dropEnds[declension]? = some ends :=
        ⟨_, List.getElem?_eq_getElem (show declension < 6 by omega)⟩
      have hlen := len_dropEnds hends
      rw [hends]
      refine dropEnd_isSome fun e he => Nat.le_trans (hlen e he) ?_
      split
      next h4 =>
        -- The name has a second word, or else it is one letter.
        cases rest with
        | nil => exact absurd ⟨h4, c, rfl, hc⟩ hnot
        | cons _ _ => exact Nat.le_add_left 2 _
      next => exact Nat.le_add_left 1 _

theorem getMainPartOfName_nominative (wname : List Nat) : ∃ mainpart, getMainPartOfName wname 0 = some mainpart :=
  Option.isSome_iff_exists.1 ((getMainPartOfName_isSome wname 0).2 fun h => absurd h.1 (by decide))

/-- The form for declension 4 is one Cyrillic letter, and the loop comes to it. -/
def ReachesLetter (i : Nat) (names : List (List UInt8)) : Prop :=
  i ≤ 3 ∧ (∀ name ∈ names.take (3 - i), (Utf8.utf8to16 name).isSome) ∧
    ∃ name c, names[3 - i]? = some name ∧ Utf8.utf8to16 name = some [c] ∧ isCyrillicCharacter c = true

theorem reachesLetter_cons {i : Nat} {name : List UInt8} {names : List (List UInt8)} :
    ReachesLetter i (name :: names) ↔
      (i = 3 ∧ ∃ c, Utf8.utf8to16 name = some [c] ∧ isCyrillicCharacter c = true) ∨
        ((Utf8.utf8to16 name).isSome ∧ ReachesLetter (i + 1) names) := by
  rcases Nat.lt_trichotomy i 3 with h | rfl | h
  · have hsub : 3 - i = 3 - (i + 1) + 1 := by omega
    simp only [ReachesLetter, hsub, List.take_succ_cons, List.forall_mem_cons, List.getElem?_cons_succ]
    constructor
    · rintro ⟨-, ⟨hname, hnames⟩, hletter⟩
      exact .inr ⟨hname, by omega, hnames, hletter⟩
    · rintro (⟨rfl, -⟩ | ⟨hname, -, hnames, hletter⟩)
      · exact absurd h (by decide)
      · exact ⟨by omega, ⟨hname, hnames⟩, hletter⟩
  · simp [ReachesLetter]
  · simp only [ReachesLetter]
    constructor
    · rintro ⟨h3, -⟩
      omega
    · rintro (⟨rfl, -⟩ | ⟨-, h4, -⟩) <;> omega

theorem checkDeclined_isSome (w_ownname mainpart : List Nat) (i : Nat) (names : List (List UInt8)) (x y : Bool) :
    (checkDeclined w_ownname mainpart i names x y).isSome ↔ ¬ ReachesLetter i names := by
  induction names generalizing i x y with
  | nil => simp [checkDeclined, ReachesLetter]
  | cons name names ih =>
    rw [reachesLetter_cons, checkDeclined]
    cases hname : Utf8.utf8to16 name with
    | none => simp
    | some wname =>
      have hpart := getMainPartOfName_isSome wname (i + 1)
      cases hmain : getMainPartOfName wname (i + 1) with
      | none =>
        rw [hmain] at hpart
        obtain ⟨hi, c, rfl, hc⟩ := not_not.1 fun h => nomatch hpart.2 h
        simp only [hmain, Option.isSome_none, Bool.false_eq_true, false_iff, not_not]
        exact .inl ⟨by omega, c, rfl, hc⟩
      | some part =>
        have hnot := hpart.1 (by rw [hmain]; rfl)
        simp only [hmain, ih, Option.isSome_some, true_and]
        refine not_congr ⟨Or.inr, ?_⟩
        rintro (⟨rfl, c, hc, hcyrillic⟩ | hreaches)
        · exact absurd ⟨rfl, c, Option.some.inj hc, hcyrillic⟩ hnot
        · exact hreaches

/-- Both return, but for one Cyrillic letter in declension 4: a name, and a form that the loop comes to. -/
theorem declinedNames_return (wname : List Nat) (declension : Nat) (w_ownname : List Nat) (names : DeclinedName) :
    ((getMainPartOfName wname declension).isSome ↔
      ¬ (declension = 4 ∧ ∃ c, wname = [c] ∧ isCyrillicCharacter c = true)) ∧
    ((checkDeclinedNames w_ownname names).isSome ↔
      ¬ ((∀ name ∈ names.name.toList.take 3, (Utf8.utf8to16 name).isSome) ∧
        ∃ c, Utf8.utf8to16 names.name[3] = some [c] ∧ isCyrillicCharacter c = true)) := by
  refine ⟨getMainPartOfName_isSome wname declension, ?_⟩
  obtain ⟨mainpart, hmain⟩ := getMainPartOfName_nominative w_ownname
  rw [checkDeclinedNames, hmain]
  simp only [checkDeclined_isSome, ReachesLetter]
  simp

/-- Five forms of one letter each. -/
theorem checkDeclinedNames_letters :
    getMainPartOfName [0x0410] 4 = none ∧
      checkDeclinedNames [0x0410] ⟨#v[[0xd0, 0x90], [0xd0, 0x90], [0xd0, 0x90], [0xd0, 0x90], [0xd0, 0x90]]⟩ = none := by
  decide

end Util
end AtlasWow
