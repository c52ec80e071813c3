/-
Greedy filling: an amount is shared out over places, each of which takes what
it has room for, until nothing is left. The places are visited in stages, and
no place takes twice.

As long as something is left, every place that was visited is full
(`Full`), so what is left over tells that all of them together are too small
(`Full.lt`); where nothing is left, what was shared out fits (`Done.le`).
-/
import Mathlib.Algebra.GroupWithZero.Nat
import Mathlib.Algebra.Order.BigOperators.Group.List
import Mathlib.Algebra.Order.Group.Nat
import Mathlib.Data.List.Nodup
import Mathlib.Data.List.Perm.Subperm
import Mathlib.Data.Set.Insert

/-- What has been shared out, and what is left. -/
structure Fill (α : Type) where
  dest : List (α × Nat)
  count : Nat

namespace Fill

variable {α : Type}

/-- A place takes up to so much, unless it already took something. -/
def place [DecidableEq α] (f : Fill α) (x : α) (space : Nat) : Fill α :=
  if x ∈ f.dest.map Prod.fst then f else ⟨f.dest ++ [(x, min space f.count)], f.count - min space f.count⟩

/-- The places of a list, until nothing is left. -/
def placeAll [DecidableEq α] (space : α → Option Nat) : List α → Fill α → Fill α
  | [], f => f
  | x :: l, f =>
    match space x with
    | none => placeAll space l f
    | some n =>
      if x ∈ f.dest.map Prod.fst then placeAll space l f
      else if (f.place x n).count = 0 then f.place x n
      else placeAll space l (f.place x n)

/-- Everything visited is full, and something is left. -/
structure Full (room : α → Nat) (total : Nat) (visited : Set α) (f : Fill α) : Prop where
  nodup : (f.dest.map Prod.fst).Nodup
  taken : ∀ e ∈ f.dest, e.1 ∈ visited ∧ e.2 = room e.1 ∧ 0 < e.2
  all : ∀ x ∈ visited, 0 < room x → x ∈ f.dest.map Prod.fst
  sum : (f.dest.map Prod.snd).sum + f.count = total
  left : 0 < f.count

/-- Everything was shared out over places that had been visited. -/
structure Done (room : α → Nat) (total : Nat) (visited : Set α) (dest : List (α × Nat)) : Prop where
  nodup : (dest.map Prod.fst).Nodup
  taken : ∀ e ∈ dest, e.1 ∈ visited ∧ e.2 ≤ room e.1 ∧ 0 < e.2
  sum : (dest.map Prod.snd).sum = total

variable {room : α → Nat} {total : Nat} {visited : Set α} {f : Fill α}

variable {dest : List (α × Nat)} {l : List α} {visited' : Set α} {x : α}

theorem Done.mono (h : Done room total visited dest) (hsub : visited ⊆ visited') : Done room total visited' dest :=
  ⟨h.nodup, fun e he => ⟨hsub (h.taken e he).1, (h.taken e he).2⟩, h.sum⟩

/-- Only what has room matters of what was visited. -/
theorem Full.congr (h : Full room total visited f) (hsub : visited ⊆ visited')
    (hall : ∀ x ∈ visited', 0 < room x → x ∈ visited) : Full room total visited' f :=
  ⟨h.nodup, fun e he => ⟨hsub (h.taken e he).1, (h.taken e he).2⟩, fun x hx hroom => h.all x (hall x hx hroom) hroom, h.sum, h.left⟩

theorem sum_snoc (dest : List (α × Nat)) (x : α) (n : Nat) : ((dest ++ [(x, n)]).map Prod.snd).sum = (dest.map Prod.snd).sum + n := by
  rw [List.map_append, List.sum_append]
  rfl

theorem nodup_snoc (h : (dest.map Prod.fst).Nodup) (hx : x ∉ dest.map Prod.fst) (n : Nat) :
    ((dest ++ [(x, n)]).map Prod.fst).Nodup := by
  rw [List.map_append, List.nodup_append]
  refine ⟨h, List.nodup_singleton x, fun a ha b hb => ?_⟩
  rw [List.map_singleton, List.mem_singleton] at hb
  subst hb
  exact fun he => hx (he ▸ ha)

/-- A place that has room takes it, or all that is left. -/
theorem Full.place [DecidableEq α] (h : Full room total visited f) (hroom : 0 < room x) :
    Full room total (insert x visited) (f.place x (room x)) ∨
      ((f.place x (room x)).count = 0 ∧ Done room total (insert x visited) (f.place x (room x)).dest) := by
  have hleft := h.left
  have hsum := h.sum
  rw [Fill.place]
  split
  next hold =>
    obtain ⟨e, he, rfl⟩ := List.mem_map.1 hold
    rw [Set.insert_eq_of_mem (h.taken e he).1]
    exact .inl h
  next hnew =>
  by_cases hmore : room x < f.count
  · rw [Nat.min_eq_left hmore.le]
    refine .inl ⟨nodup_snoc h.nodup hnew _, fun e he => ?_, fun y hy hroom' => ?_, ?_, Nat.sub_pos_of_lt hmore⟩
    · rcases List.mem_append.1 he with he | he
      · exact ⟨Set.mem_insert_of_mem x (h.taken e he).1, (h.taken e he).2⟩
      · rw [List.mem_singleton.1 he]
        exact ⟨Set.mem_insert x visited, rfl, hroom⟩
    · rw [List.map_append, List.mem_append]
      rcases Set.mem_insert_iff.1 hy with rfl | hy
      · exact .inr (List.mem_singleton.2 rfl)
      · exact .inl (h.all y hy hroom')
    · rw [sum_snoc]
      dsimp only
      omega
  · rw [Nat.min_eq_right (not_lt.1 hmore)]
    refine .inr ⟨Nat.sub_self _, nodup_snoc h.nodup hnew _, fun e he => ?_, ?_⟩
    · rcases List.mem_append.1 he with he | he
      · obtain ⟨hin, heq, hpos⟩ := h.taken e he
        exact ⟨Set.mem_insert_of_mem x hin, heq.le, hpos⟩
      · rw [List.mem_singleton.1 he]
        exact ⟨Set.mem_insert x visited, not_lt.1 hmore, hleft⟩
    · rw [sum_snoc]
      exact hsum

/-- The places of a list are visited, or nothing is left. -/
theorem Full.placeAll [DecidableEq α] {space : α → Option Nat} (hspace : ∀ x ∈ l, ∀ n, space x = some n → n = room x ∧ 0 < n)
    (h : Full room total visited f) : Full room total (visited ∪ {x | x ∈ l ∧ (space x).isSome}) (placeAll space l f) ∨
      ((placeAll space l f).count = 0 ∧ Done room total (visited ∪ {x | x ∈ l ∧ (space x).isSome}) (placeAll space l f).dest) := by
  induction l generalizing f visited with
  | nil =>
    refine .inl (h.congr Set.subset_union_left fun x hx _ => hx.resolve_right fun hin => ?_)
    cases hin.1
  | cons y l ih =>
    rw [List.forall_mem_cons] at hspace
    rw [Fill.placeAll]
    cases hy : space y with
    | none =>
      have hset : {x | x ∈ y :: l ∧ (space x).isSome} = {x | x ∈ l ∧ (space x).isSome} := by
        ext x
        simp only [Set.mem_ofPred_eq, List.mem_cons]
        refine ⟨fun hx => ⟨hx.1.resolve_left fun he => ?_, hx.2⟩, fun hx => ⟨.inr hx.1, hx.2⟩⟩
        rw [he, hy] at hx
        cases hx.2
      rw [hset]
      exact ih hspace.2 h
    | some n =>
      obtain ⟨rfl, hpos⟩ := hspace.1 n hy
      have hset : visited ∪ {x | x ∈ y :: l ∧ (space x).isSome} = insert y visited ∪ {x | x ∈ l ∧ (space x).isSome} := by
        ext x
        simp only [Set.mem_union, Set.mem_insert_iff, Set.mem_ofPred_eq, List.mem_cons]
        constructor
        · rintro (hx | ⟨he | hx, hsome⟩)
          · exact .inl (.inr hx)
          · exact .inl (.inl he)
          · exact .inr ⟨hx, hsome⟩
        · rintro ((he | hx) | hx)
          · refine .inr ⟨.inl he, ?_⟩
            rw [he, hy]
            rfl
          · exact .inl hx
          · exact .inr ⟨.inr hx.1, hx.2⟩
      rw [hset]
      simp only
      split
      next hold =>
        obtain ⟨e, he, hey⟩ := List.mem_map.1 hold
        rw [Set.insert_eq_of_mem (hey ▸ (h.taken e he).1)]
        exact ih hspace.2 h
      next =>
      rcases h.place hpos with hfull | ⟨hzero, hdone⟩
      · rw [if_neg hfull.left.ne']
        exact ih hspace.2 hfull
      · rw [if_pos hzero]
        exact .inr ⟨hzero, hdone.mono Set.subset_union_left⟩

/-- More places have more room. -/
theorem sum_map_le_of_subset {l' : List α} (hl : l.Nodup) (hsub : l ⊆ l') : (l.map room).sum ≤ (l'.map room).sum := by
  obtain ⟨l'', hperm, hl''⟩ := List.subperm_of_subset hl hsub
  rw [← (hperm.map room).sum_eq]
  exact (hl''.map room).sum_le_sum fun _ _ => Nat.zero_le _

/-- Where nothing is left, the places were large enough. -/
theorem Done.le (h : Done room total visited dest) (hsub : ∀ x ∈ visited, 0 < room x → x ∈ l) :
    total ≤ (l.map room).sum := by
  have hle : (dest.map Prod.snd).sum ≤ ((dest.map Prod.fst).map room).sum := by
    rw [List.map_map]
    exact List.sum_le_sum fun e he => (h.taken e he).2.1
  calc total = (dest.map Prod.snd).sum := h.sum.symm
    _ ≤ ((dest.map Prod.fst).map room).sum := hle
    _ ≤ (l.map room).sum := sum_map_le_of_subset h.nodup fun x hx => by
      obtain ⟨e, he, rfl⟩ := List.mem_map.1 hx
      obtain ⟨hin, hle, hpos⟩ := h.taken e he
      exact hsub e.1 hin (hpos.trans_le hle)

/-- Where something is left, all the places that were visited are too small. -/
theorem Full.lt (h : Full room total visited f) (hl : l.Nodup) (hsub : ∀ x ∈ l, 0 < room x → x ∈ visited) :
    (l.map room).sum < total := by
  have hsame : (f.dest.map Prod.snd).sum = ((f.dest.map Prod.fst).map room).sum := by
    rw [List.map_map]
    exact congrArg List.sum (List.map_congr_left fun e he => (h.taken e he).2.1)
  have hroom : (l.map room).sum = ((l.filter (0 < room ·)).map room).sum := by
    clear hl hsub
    induction l with
    | nil => rfl
    | cons x l ih =>
      by_cases hx : 0 < room x
      · rw [List.filter_cons_of_pos (by simpa using hx), List.map_cons, List.sum_cons, ih, List.map_cons, List.sum_cons]
      · rw [List.filter_cons_of_neg (by simpa using hx), List.map_cons, List.sum_cons, ih]
        omega
  have hle : ((l.filter (0 < room ·)).map room).sum ≤ ((f.dest.map Prod.fst).map room).sum :=
    sum_map_le_of_subset (hl.filter (0 < room ·)) fun x hx => by
      have hx' := List.mem_filter.1 hx
      have hpos : 0 < room x := by simpa using hx'.2
      exact h.all x (hsub x hx'.1 hpos) hpos
  have hsum := h.sum
  have hleft := h.left
  rw [hroom]
  omega

end Fill
