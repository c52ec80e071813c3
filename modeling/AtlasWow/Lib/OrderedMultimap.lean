/-
Finite multimaps with ordered keys: entries in the order of their keys, and
among equal keys in the order in which they came. A queue of timed events is
one: `insert` puts an event behind those of the same time, `popFirst` takes
the first. `perm_insert`, `insert_first` and `perm_eraseFirst` say which entries
there are afterwards; `valuesAt`, the values of one key in their order, says in
which order, since the values of every key determine what is first.
-/
import Mathlib.Data.List.Perm.Basic
import Mathlib.Order.Lattice

/-- The only element of its kind is the one that is erased. -/
theorem perm_eraseP {α : Type} {q : α → Bool} {l l' : List α} {a : α} (h : l.Perm (a :: l')) (ha : q a = true)
    (hrest : ∀ x ∈ l', q x = false) : (l.eraseP q).Perm l' := by
  have hpairs : (a :: l').Pairwise fun x y => q x = true → q y = true → False := by
    refine List.pairwise_cons.2 ⟨fun y hy _ hqy => ?_, List.Pairwise.imp_of_mem (R := fun _ _ => True)
      (fun _ hy _ _ hqy => ?_) (List.pairwise_of_forall fun _ _ => trivial)⟩
    · rw [hrest y hy] at hqy
      cases hqy
    · rw [hrest _ hy] at hqy
      cases hqy
  have herase := (h.symm.eraseP q hpairs).symm
  rwa [List.eraseP_cons_of_pos ha] at herase

structure OMultimap (κ υ : Type) [LinearOrder κ] where
  entries : List (κ × υ)
  sorted : entries.Pairwise fun p q => p.1 ≤ q.1

namespace OMultimap

variable {κ υ : Type} [LinearOrder κ]

def empty : OMultimap κ υ := ⟨[], .nil⟩

def insertEntry (k : κ) (v : υ) : List (κ × υ) → List (κ × υ)
  | [] => [(k, v)]
  | e :: l => if k < e.1 then (k, v) :: e :: l else e :: insertEntry k v l

theorem perm_insertEntry (k : κ) (v : υ) (l : List (κ × υ)) : (insertEntry k v l).Perm ((k, v) :: l) := by
  induction l with
  | nil => exact .refl _
  | cons e l ih =>
    unfold insertEntry
    split
    next => exact .refl _
    next => exact (ih.cons e).trans (.swap (k, v) e l)

variable {l : List (κ × υ)} {m : OMultimap κ υ} {e : κ × υ} {k : κ} {p : κ → υ → Bool}

theorem sorted_insertEntry (k : κ) (v : υ) (h : l.Pairwise fun p q => p.1 ≤ q.1) :
    (insertEntry k v l).Pairwise fun p q => p.1 ≤ q.1 := by
  induction l with
  | nil => exact List.pairwise_singleton ..
  | cons e l ih =>
    obtain ⟨hfirst, hrest⟩ := List.pairwise_cons.1 h
    unfold insertEntry
    split
    next hlt =>
      refine List.pairwise_cons.2 ⟨fun q hq => ?_, h⟩
      rcases List.mem_cons.1 hq with rfl | hq
      · exact le_of_lt hlt
      · exact le_trans (le_of_lt hlt) (hfirst q hq)
    next hle =>
    refine List.pairwise_cons.2 ⟨fun q hq => ?_, ih hrest⟩
    rcases List.mem_cons.1 ((perm_insertEntry k v l).mem_iff.1 hq) with rfl | hq
    · exact le_of_not_gt hle
    · exact hfirst q hq

def insert (m : OMultimap κ υ) (k : κ) (v : υ) : OMultimap κ υ := ⟨insertEntry k v m.entries, sorted_insertEntry k v m.sorted⟩

def popFirst (m : OMultimap κ υ) : OMultimap κ υ := ⟨m.entries.tail, m.sorted.sublist (List.tail_sublist _)⟩

/-- The value of the first entry is changed in its place. -/
def changeFirst (m : OMultimap κ υ) (f : υ → υ) : OMultimap κ υ where
  entries := m.entries.modifyHead fun e => (e.1, f e.2)
  sorted := by
    have hsorted := m.sorted
    cases hentries : m.entries with
    | nil => exact .nil
    | cons e l =>
      rw [hentries] at hsorted
      exact List.pairwise_cons.2 (List.pairwise_cons.1 hsorted)

/-- Without the first entry of some kind. -/
def eraseFirst (m : OMultimap κ υ) (p : κ → υ → Bool) : OMultimap κ υ :=
  ⟨m.entries.eraseP fun e => p e.1 e.2, m.sorted.sublist List.eraseP_sublist⟩

/-- Without the entry at some place. -/
def eraseAt (m : OMultimap κ υ) (i : Nat) : OMultimap κ υ :=
  ⟨m.entries.eraseIdx i, m.sorted.sublist (List.eraseIdx_sublist m.entries i)⟩

theorem perm_insert (m : OMultimap κ υ) (k : κ) (v : υ) : (m.insert k v).entries.Perm ((k, v) :: m.entries) :=
  perm_insertEntry k v m.entries

/-- A later entry leaves the first one first. -/
theorem insert_first (h : m.entries = e :: l) (hle : e.1 ≤ k)
    (v : υ) : (m.insert k v).entries = e :: insertEntry k v l := by
  show insertEntry k v m.entries = _
  rw [h, insertEntry, if_neg (not_lt.2 hle)]

/-- What comes later than some entry goes behind it. -/
theorem insertEntry_behind {l' : List (κ × υ)} (h : (l ++ e :: l').Pairwise fun p q => p.1 ≤ q.1)
    (hle : e.1 ≤ k) (v : υ) : insertEntry k v (l ++ e :: l') = l ++ e :: insertEntry k v l' := by
  induction l with
  | nil => rw [List.nil_append, insertEntry, if_neg (not_lt.2 hle), List.nil_append]
  | cons x l ih =>
    obtain ⟨hfirst, hrest⟩ := List.pairwise_cons.1 h
    have hx : x.1 ≤ k := le_trans (hfirst e (List.mem_append_right _ List.mem_cons_self)) hle
    rw [List.cons_append, insertEntry, if_neg (not_lt.2 hx), ih hrest, List.cons_append]

/-- What comes earlier goes before it. -/
theorem insertEntry_before (hlt : k < e.1) (v : υ) (l l' : List (κ × υ)) :
    insertEntry k v (l ++ e :: l') = insertEntry k v l ++ e :: l' := by
  induction l with
  | nil => exact if_pos hlt
  | cons x l ih =>
    rw [List.cons_append, insertEntry, insertEntry, ih]
    split <;> rfl

theorem eraseFirst_of_none (h : ∀ e ∈ m.entries, p e.1 e.2 = false) : (m.eraseFirst p).entries = m.entries :=
  List.eraseP_of_forall_not fun e he => by rw [h e he]; exact Bool.false_ne_true

/-- The only entry of its kind is the one that is erased. -/
theorem perm_eraseFirst (h : m.entries.Perm (e :: l)) (he : p e.1 e.2 = true) (hrest : ∀ x ∈ l, p x.1 x.2 = false) :
    (m.eraseFirst p).entries.Perm l :=
  perm_eraseP (q := fun x : κ × υ => p x.1 x.2) h he hrest

/-! ### The values of a key -/

/-- The entries of some kind. -/
def filter (m : OMultimap κ υ) (p : κ → υ → Bool) : OMultimap κ υ := ⟨m.entries.filter fun e => p e.1 e.2, m.sorted.filter _⟩

/-- Insert entries, one after the other. -/
def insertAll (m : OMultimap κ υ) (l : List (κ × υ)) : OMultimap κ υ := l.foldl (fun m e => m.insert e.1 e.2) m

/-- The values of the entries of a list with a key. -/
def valuesIn (k : κ) (l : List (κ × υ)) : List υ := (l.filter fun e => e.1 = k).map (·.2)

def valuesAt (m : OMultimap κ υ) (k : κ) : List υ := valuesIn k m.entries

theorem valuesIn_cons (k : κ) (e : κ × υ) (l : List (κ × υ)) :
    valuesIn k (e :: l) = if e.1 = k then e.2 :: valuesIn k l else valuesIn k l := by
  unfold valuesIn
  rw [List.filter_cons]
  simp only [decide_eq_true_eq]
  split <;> rfl

theorem valuesIn_append (k : κ) (l l' : List (κ × υ)) : valuesIn k (l ++ l') = valuesIn k l ++ valuesIn k l' := by
  unfold valuesIn
  rw [List.filter_append, List.map_append]

theorem valuesIn_eq_nil (h : ∀ e ∈ l, e.1 ≠ k) : valuesIn k l = [] := by
  unfold valuesIn
  rw [List.filter_eq_nil_iff.2 fun e he => by simpa using h e he, List.map_nil]

theorem valuesIn_insertEntry (k k' : κ) (v : υ) (h : l.Pairwise fun p q => p.1 ≤ q.1) :
    valuesIn k' (insertEntry k v l) = if k' = k then valuesIn k l ++ [v] else valuesIn k' l := by
  induction l with
  | nil =>
    unfold insertEntry
    rw [valuesIn_cons]
    by_cases hk : k' = k
    · rw [if_pos hk.symm, if_pos hk]
      rfl
    · rw [if_neg (Ne.symm hk), if_neg hk]
  | cons e l ih =>
    obtain ⟨hfirst, hrest⟩ := List.pairwise_cons.1 h
    unfold insertEntry
    split
    next hlt =>
      have hnil : valuesIn k (e :: l) = [] := valuesIn_eq_nil fun q hq => by
        rcases List.mem_cons.1 hq with rfl | hq
        · exact ne_of_gt hlt
        · exact ne_of_gt (lt_of_lt_of_le hlt (hfirst q hq))
      rw [valuesIn_cons]
      by_cases hk : k' = k
      · rw [if_pos hk.symm, if_pos hk, hnil, hk, hnil]
        rfl
      · rw [if_neg (Ne.symm hk), if_neg hk]
    next hle =>
    rw [valuesIn_cons, ih hrest, valuesIn_cons, valuesIn_cons]
    by_cases hk : k' = k
    · subst hk
      rw [if_pos rfl, if_pos rfl]
      split <;> rfl
    · rw [if_neg hk, if_neg hk]

theorem valuesAt_insert (m : OMultimap κ υ) (k k' : κ) (v : υ) :
    (m.insert k v).valuesAt k' = if k' = k then m.valuesAt k ++ [v] else m.valuesAt k' :=
  valuesIn_insertEntry k k' v m.sorted

theorem valuesIn_filter (p : κ → υ → Bool) (k : κ) (l : List (κ × υ)) :
    valuesIn k (l.filter fun e => p e.1 e.2) = (valuesIn k l).filter (p k) := by
  unfold valuesIn
  rw [List.filter_map, List.filter_filter, List.filter_filter]
  congr 1
  refine List.filter_congr fun e _ => ?_
  by_cases he : e.1 = k
  · simp [he]
  · simp [he]

theorem valuesAt_filter (m : OMultimap κ υ) (p : κ → υ → Bool) (k : κ) :
    (m.filter p).valuesAt k = (m.valuesAt k).filter (p k) := valuesIn_filter p k m.entries

theorem mem_valuesIn {v : υ} : v ∈ valuesIn k l ↔ (k, v) ∈ l := by
  unfold valuesIn
  rw [List.mem_map]
  constructor
  · rintro ⟨⟨k', v'⟩, he, rfl⟩
    obtain ⟨hmem, hkey⟩ := List.mem_filter.1 he
    have hkey : k' = k := of_decide_eq_true hkey
    exact hkey ▸ hmem
  · exact fun h => ⟨(k, v), List.mem_filter.2 ⟨h, decide_eq_true rfl⟩, rfl⟩

theorem valuesAt_insertAll (m : OMultimap κ υ) (l : List (κ × υ)) (k : κ) :
    (m.insertAll l).valuesAt k = m.valuesAt k ++ valuesIn k l := by
  induction l generalizing m with
  | nil => exact (List.append_nil _).symm
  | cons e l ih =>
    rw [insertAll, List.foldl_cons, ← insertAll, ih, valuesAt_insert, valuesIn_cons]
    by_cases hk : k = e.1
    · rw [if_pos hk, if_pos hk.symm, hk, List.append_assoc]
      rfl
    · rw [if_neg hk, if_neg (Ne.symm hk)]

/-- The first entry has the least key that has values. -/
theorem first_le (h : m.entries = e :: l) (hk : m.valuesAt k ≠ []) : e.1 ≤ k := by
  obtain ⟨v, hv⟩ := List.exists_mem_of_ne_nil _ hk
  have hmem : (k, v) ∈ m.entries := mem_valuesIn.1 hv
  have hsorted := m.sorted
  rw [h] at hmem hsorted
  rcases List.mem_cons.1 hmem with he | hmem
  · exact le_of_eq (congrArg Prod.fst he.symm)
  · exact (List.pairwise_cons.1 hsorted).1 _ hmem

theorem valuesAt_first (h : m.entries = e :: l) (k : κ) :
    m.valuesAt k = if e.1 = k then e.2 :: m.popFirst.valuesAt k else m.popFirst.valuesAt k := by
  have htail : m.popFirst.entries = l := by
    show m.entries.tail = l
    rw [h, List.tail_cons]
  unfold valuesAt
  rw [h, htail, valuesIn_cons]

end OMultimap
