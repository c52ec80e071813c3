/-
Two algorithms of the standard library on sorted sequences: `is_sorted`, which
looks at neighbours only, and the bisection of `upper_bound`. Where a property
once met stays met, the bisection comes to the first element that has it
(`upperBound_spec`, `getElem?_upperBound`).
-/
import Mathlib.Data.List.Basic
import Mathlib.Data.List.Pairwise

variable {α : Type}

/-- No element comes before its neighbour on the left. -/
def isSorted (comp : α → α → Bool) : List α → Bool
  | x :: y :: l => !comp y x && isSorted comp (y :: l)
  | _ => true

theorem isSorted_of_pairwise {comp : α → α → Bool} : ∀ {l : List α}, l.Pairwise (fun x y => comp y x = false) →
    isSorted comp l = true
  | [], _ => rfl
  | [_], _ => rfl
  | x :: y :: l, h => by
    obtain ⟨hx, hl⟩ := List.pairwise_cons.1 h
    rw [isSorted, hx y List.mem_cons_self, isSorted_of_pairwise hl]
    rfl

/-- The bisection of the `len` elements from `first` on, in no more steps than there are elements. -/
def bisect (p : α → Bool) (l : List α) : Nat → Nat → Nat → Nat
  | 0, first, _ => first
  | steps + 1, first, len =>
    if len = 0 then first
    else
      let half := len / 2
      match l[first + half]? with
      | none => first
      | some x => if p x then bisect p l steps first half else bisect p l steps (first + half + 1) (len - half - 1)

/-- `upper_bound`: where the elements with a property begin. -/
def upperBound (p : α → Bool) (l : List α) : Nat := bisect p l l.length 0 l.length

variable {p : α → Bool} {l : List α}

/-- What is met at a place is met at all that follow. -/
theorem met_of_le (hl : l.Pairwise fun x y => p x = true → p y = true) {i j : Nat} {x y : α} (hij : i ≤ j)
    (hx : l[i]? = some x) (hy : l[j]? = some y) (hmet : p x = true) : p y = true := by
  obtain ⟨hi, rfl⟩ := List.getElem?_eq_some_iff.1 hx
  obtain ⟨hj, rfl⟩ := List.getElem?_eq_some_iff.1 hy
  rcases Nat.eq_or_lt_of_le hij with rfl | hlt
  · exact hmet
  · exact List.pairwise_iff_getElem.1 hl i j hi hj hlt hmet

/-- The border stays between the ends of what is bisected. -/
theorem bisect_spec (hl : l.Pairwise fun x y => p x = true → p y = true) : ∀ (steps first len : Nat), len ≤ steps →
    first + len ≤ l.length → (∀ i x, l[i]? = some x → i < first → p x = false) →
    (∀ i x, l[i]? = some x → first + len ≤ i → p x = true) →
    ∀ i x, l[i]? = some x → (p x = true ↔ bisect p l steps first len ≤ i)
  | 0, first, len, hsteps, _, hbelow, habove, i, x, hx => by
    obtain rfl : len = 0 := by omega
    unfold bisect
    constructor
    · intro hmet
      by_contra hlt
      rw [hbelow i x hx (by omega)] at hmet
      cases hmet
    · exact habove i x hx
  | steps + 1, first, len, hsteps, hlen, hbelow, habove, i, x, hx => by
    unfold bisect
    split
    next hzero =>
      subst hzero
      constructor
      · intro hmet
        by_contra hlt
        rw [hbelow i x hx (by omega)] at hmet
        cases hmet
      · exact habove i x hx
    next hpos =>
    have hhalf : len / 2 < len := Nat.div_lt_self (by omega) (by decide)
    obtain ⟨y, hy⟩ : ∃ y, l[first + len / 2]? = some y := ⟨_, List.getElem?_eq_getElem (by omega)⟩
    dsimp only
    rw [hy]
    dsimp only
    split
    next hmet =>
      refine bisect_spec hl steps _ _ (by omega) (by omega) hbelow (fun j z hz hj => ?_) i x hx
      exact met_of_le hl hj hy hz hmet
    next hmet =>
    refine bisect_spec hl steps _ _ (by omega) (by omega) (fun j z hz hj => ?_) (fun j z hz hj => ?_) i x hx
    · rw [Bool.eq_false_iff]
      exact fun hz' => hmet (met_of_le hl (by omega) hz hy hz')
    · exact habove j z hz (by omega)

theorem upperBound_spec (hl : l.Pairwise fun x y => p x = true → p y = true) {i : Nat} {x : α} (hx : l[i]? = some x) :
    p x = true ↔ upperBound p l ≤ i := by
  refine bisect_spec hl _ 0 _ (Nat.le_refl _) (by omega) (fun _ _ _ h => absurd h (Nat.not_lt_zero _)) (fun j y hy hj => ?_) i x hx
  obtain ⟨hlt, -⟩ := List.getElem?_eq_some_iff.1 hy
  omega

/-- What `upper_bound` points at is the first element with the property. -/
theorem getElem?_upperBound (hl : l.Pairwise fun x y => p x = true → p y = true) : l[upperBound p l]? = l.find? p := by
  cases hfind : l.find? p with
  | none =>
    cases hget : l[upperBound p l]? with
    | none => rfl
    | some x =>
      exact absurd ((upperBound_spec hl hget).2 (Nat.le_refl _)) (List.find?_eq_none.1 hfind x (List.mem_of_getElem? hget))
  | some x =>
    obtain ⟨hmet, before, after, hsplit, hbefore⟩ := List.find?_eq_some_iff_append.1 hfind
    have hget : l[before.length]? = some x := by rw [hsplit, List.getElem?_append_right (Nat.le_refl _), Nat.sub_self]; rfl
    obtain ⟨border, hborder⟩ : ∃ border, border = upperBound p l := ⟨_, rfl⟩
    have hle := (upperBound_spec hl hget).1 hmet
    rw [← hborder] at hle ⊢
    rcases Nat.eq_or_lt_of_le hle with heq | hlt
    · rw [heq, hget]
    -- an element before it would be met already
    have hget' : l[border]? = some before[border] := by
      rw [hsplit, List.getElem?_append_left hlt, List.getElem?_eq_getElem hlt]
    have hnot := hbefore _ (List.getElem_mem hlt)
    rw [(upperBound_spec hl hget').2 (Nat.le_of_eq hborder.symm)] at hnot
    cases hnot
