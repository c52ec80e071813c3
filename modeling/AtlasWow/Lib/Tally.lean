/-
Counters kept next to a list: how many elements are in each of `n` buckets,
counted in bytes. An element more or less is one counter up or down
(`tally_append`, `tally_remove`); one that changes its bucket, both
(`tally_replace`). The counters are exact while no bucket has more than a byte
can say (`toNat_tally`).
-/
import Mathlib.Data.List.Basic
import Mathlib.Data.Nat.Basic

variable {α : Type}

/-- How many elements of a list are in a bucket. -/
def inBucket (bucket : α → Nat) (i : Nat) (l : List α) : Nat := l.countP (bucket · = i)

def tally (bucket : α → Nat) (n : Nat) (l : List α) : List UInt8 :=
  (List.range n).map fun i => UInt8.ofNat (inBucket bucket i l)

variable (bucket : α → Nat) (n : Nat)

@[simp] theorem length_tally (l : List α) : (tally bucket n l).length = n := by simp [tally]

theorem getElem?_tally (l : List α) (i : Nat) :
    (tally bucket n l)[i]? = if i < n then some (UInt8.ofNat (inBucket bucket i l)) else none := by
  rw [tally, List.getElem?_map]
  split
  next hi => rw [List.getElem?_range hi, Option.map_some]
  next hi => rw [List.getElem?_eq_none (by simpa using hi), Option.map_none]

variable {bucket n}

theorem toNat_tally {l : List α} {i : Nat} (hi : i < n) (hl : inBucket bucket i l < 256) :
    ((tally bucket n l)[i]?).map UInt8.toNat = some (inBucket bucket i l) := by
  rw [getElem?_tally, if_pos hi, Option.map_some, UInt8.toNat_ofNat_of_lt' hl]

theorem inBucket_append (i : Nat) (l l' : List α) :
    inBucket bucket i (l ++ l') = inBucket bucket i l + inBucket bucket i l' := List.countP_append

theorem inBucket_cons (i : Nat) (a : α) (l : List α) :
    inBucket bucket i (a :: l) = inBucket bucket i l + if bucket a = i then 1 else 0 := by
  simp [inBucket, List.countP_cons]

/-- An element more. -/
theorem tally_append (l : List α) (a : α) :
    tally bucket n (l ++ [a]) = (tally bucket n l).modify (bucket a) (· + 1) := by
  apply List.ext_getElem?
  intro i
  rw [List.getElem?_modify, getElem?_tally, getElem?_tally, inBucket_append, inBucket_cons]
  split
  · by_cases h : bucket a = i
    · simp [h, inBucket, UInt8.ofNat_add]
    · simp [h, inBucket]
  · split <;> rfl

/-- An element less. -/
theorem tally_remove (l₁ l₂ : List α) (a : α) :
    tally bucket n (l₁ ++ l₂) = (tally bucket n (l₁ ++ a :: l₂)).modify (bucket a) (· - 1) := by
  apply List.ext_getElem?
  intro i
  rw [List.getElem?_modify, getElem?_tally, getElem?_tally, inBucket_append, inBucket_append, inBucket_cons]
  split
  · by_cases h : bucket a = i
    · simp only [h, if_true, ← Nat.add_assoc, UInt8.ofNat_add]
      exact congrArg some (UInt8.add_sub_cancel _ _).symm
    · simp [h]
  · split <;> rfl

/-- An element in another bucket: first counted there, then no more where it was. -/
theorem tally_replace (l₁ l₂ : List α) (a b : α) :
    tally bucket n (l₁ ++ b :: l₂) =
      ((tally bucket n (l₁ ++ a :: l₂)).modify (bucket b) (· + 1)).modify (bucket a) (· - 1) := by
  apply List.ext_getElem?
  intro i
  rw [List.getElem?_modify, List.getElem?_modify, getElem?_tally, getElem?_tally]
  simp only [inBucket_append, inBucket_cons]
  split
  · by_cases ha : bucket a = i <;> by_cases hb : bucket b = i
    · simp only [ha, hb, if_true, ← Nat.add_assoc, UInt8.ofNat_add]
      exact congrArg some (UInt8.add_sub_cancel _ _).symm
    · simp only [ha, hb, if_true, if_false, ← Nat.add_assoc, UInt8.ofNat_add, Nat.add_zero]
      exact congrArg some (UInt8.add_sub_cancel _ _).symm
    · simp only [ha, hb, if_true, if_false, ← Nat.add_assoc, UInt8.ofNat_add, Nat.add_zero]
      rfl
    · simp [ha, hb]
  · split <;> split <;> rfl

/-- One element that changes. -/
theorem countP_modify (p : α → Bool) (f : α → α) {l : List α} {i : Nat} {a : α} (h : l[i]? = some a) :
    (l.modify i f).countP p + (if p a then 1 else 0) = l.countP p + if p (f a) then 1 else 0 := by
  induction l generalizing i with
  | nil => cases h
  | cons b l ih =>
    cases i with
    | zero =>
      cases h
      simp only [List.modify_zero_cons, List.countP_cons]
      omega
    | succ i =>
      have hrest := ih h
      simp only [List.modify_succ_cons, List.countP_cons]
      omega

/-- A predicate that changes at one element. -/
theorem countP_move {p q : α → Bool} {l : List α} (hl : l.Nodup) {a : α} (ha : a ∈ l) (h : ∀ b ∈ l, b ≠ a → q b = p b) :
    l.countP q + (if p a then 1 else 0) = l.countP p + if q a then 1 else 0 := by
  induction l with
  | nil => cases ha
  | cons b l ih =>
    obtain ⟨hb, hl⟩ := List.nodup_cons.1 hl
    rw [List.countP_cons, List.countP_cons]
    rcases List.mem_cons.1 ha with rfl | ha
    · have hrest : l.countP q = l.countP p :=
        List.countP_congr fun c hc => by rw [h c (List.mem_cons_of_mem _ hc) fun heq => hb (heq ▸ hc)]
      omega
    have hne : b ≠ a := fun heq => hb (heq ▸ ha)
    have hrest := ih hl ha fun c hc => h c (List.mem_cons_of_mem _ hc)
    rw [h b List.mem_cons_self hne]
    omega
