/-
How a running battleground is filled: `FillPlayersToBG` takes groups from each
queue in order and then kicks groups of the fuller side until the sides are
even. Each round takes a group from a pool or ends the loop (`round_spec`), so
it ends, within the free slots and balanced (`fillPlayersToBG_balanced`).
-/
import AtlasWow.Battlegrounds.BattlegroundQueue
import Mathlib.Algebra.BigOperators.Group.List.Basic
import Mathlib.Algebra.GroupWithZero.Nat

namespace AtlasWow.Battlegrounds.BattlegroundQueue

/-- A pool and what its cursor has not passed, for a queue and a number of free slots. -/
structure Fits (info : Nat → GroupQueueInfo) (queue : List Nat) (limit : Nat) (pool : SelectionPool) (left : List Nat) :
    Prop where
  counted : pool.playerCount = (pool.selectedGroups.map fun g => (info g).size).sum
  within : pool.playerCount ≤ limit
  uninvited : ∀ g ∈ pool.selectedGroups, (info g).isInvited = false
  /-- A place in the queue is passed once. -/
  places : (pool.selectedGroups ++ left).Subperm queue

variable {info : Nat → GroupQueueInfo} {queue left : List Nat} {limit desired : Nat} {pool : SelectionPool} {size : Int}

/-- A pool with no more groups, and as few left to look at, does not cost more. -/
def poolCost (pool : SelectionPool) (left : List Nat) : Nat := pool.selectedGroups.length + 2 * left.length

theorem Fits.init (info : Nat → GroupQueueInfo) (queue : List Nat) (limit : Nat) :
    Fits info queue limit .init queue where
  counted := rfl
  within := Nat.zero_le _
  uninvited g hg := by cases hg
  places := .refl _

/-- A group is passed over. -/
theorem Fits.skip {g : Nat} (h : Fits info queue limit pool (g :: left)) : Fits info queue limit pool left :=
  ⟨h.counted, h.within, h.uninvited, (((List.sublist_cons_self g left).append_left _).subperm).trans h.places⟩

/-- A group is selected. -/
theorem Fits.select {g : Nat} (h : Fits info queue limit pool (g :: left)) (hinvited : (info g).isInvited = false)
    (hroom : pool.playerCount + (info g).size ≤ limit) :
    Fits info queue limit ⟨pool.selectedGroups ++ [g], pool.playerCount + (info g).size⟩ left where
  counted := by
    rw [List.map_append, List.sum_append, ← h.counted]
    simp
  within := hroom
  uninvited g' hg' := by
    rcases List.mem_append.1 hg' with hg' | hg'
    · exact h.uninvited g' hg'
    · rw [List.mem_singleton.1 hg']
      exact hinvited
  places := by
    rw [List.append_assoc]
    exact h.places

theorem Fits.fill (hdesired : desired ≤ limit) (h : Fits info queue limit pool left) :
    Fits info queue limit (pool.fill info desired left).1 (pool.fill info desired left).2 ∧
      poolCost (pool.fill info desired left).1 (pool.fill info desired left).2 ≤ poolCost pool left := by
  unfold SelectionPool.fill
  induction left generalizing pool with
  | nil => exact ⟨h, Nat.le_refl _⟩
  | cons g left ih =>
    rw [loopUntil]
    unfold SelectionPool.addGroup
    by_cases hadd : (!(info g).isInvited && pool.playerCount + (info g).size ≤ desired) = true
    · obtain ⟨hinvited, hroom⟩ := Bool.and_eq_true_iff.1 hadd
      have hselect := h.select (by simpa using hinvited) ((of_decide_eq_true hroom).trans hdesired)
      obtain ⟨hfits, hcost⟩ := ih hselect
      simp only [hadd, if_true]
      refine ⟨hfits, hcost.trans ?_⟩
      simp only [poolCost, List.length_append, List.length_cons, List.length_nil]
      omega
    simp only [hadd, if_false, Bool.false_eq_true]
    split
    · obtain ⟨hfits, hcost⟩ := ih h.skip
      refine ⟨hfits, hcost.trans ?_⟩
      simp only [poolCost, List.length_cons]
      omega
    · exact ⟨h, Nat.le_refl _⟩

theorem betterToKick_mem {l : List Nat} : ∀ {rest : List Nat} {kick : Nat × Bool}, kick.1 ∈ l → rest ⊆ l →
    (rest.foldl (SelectionPool.betterToKick info size) kick).1 ∈ l
  | [], _, hkick, _ => hkick
  | itr :: rest, kick, hkick, hrest => by
    obtain ⟨hitr, htail⟩ := List.cons_subset.1 hrest
    rw [List.foldl_cons]
    refine betterToKick_mem ?_ htail
    unfold SelectionPool.betterToKick
    split
    · exact hitr
    split
    · exact hitr
    · exact hkick

/-- One group is kicked, if there is one. -/
theorem Fits.kick (h : Fits info queue limit pool left) (size : Int) :
    ∃ pool' again, pool.kickGroup info size = some (pool', again) ∧ Fits info queue limit pool' left ∧
      ((pool.playerCount = 0 ∧ pool' = pool) ∨
        pool.playerCount ≠ 0 ∧ poolCost pool' left + 1 = poolCost pool left) := by
  unfold SelectionPool.kickGroup
  by_cases hcount : pool.playerCount = 0
  · rw [if_pos hcount]
    exact ⟨pool, true, rfl, h, .inl ⟨hcount, rfl⟩⟩
  rw [if_neg hcount]
  obtain ⟨groups, count⟩ := pool
  cases groups with
  | nil => exact absurd h.counted hcount
  | cons first rest =>
    dsimp only
    generalize hkick : (((first :: rest).foldl (SelectionPool.betterToKick info size) (first, false)).1) = kicked
    have hmem : kicked ∈ first :: rest := hkick ▸ betterToKick_mem List.mem_cons_self (List.Subset.refl _)
    have hperm := List.perm_cons_erase hmem
    have hsum : count = (info kicked).size + (((first :: rest).erase kicked).map fun g => (info g).size).sum := by
      have hsum := (hperm.map fun g => (info g).size).sum_eq
      rw [List.map_cons, List.sum_cons] at hsum
      exact h.counted.trans hsum
    have hwithin : count ≤ limit := h.within
    have hlength := hperm.length_eq
    refine ⟨_, _, rfl, ⟨Nat.sub_eq_of_eq_add' hsum, (Nat.sub_le ..).trans hwithin,
      fun g hg => h.uninvited g (List.mem_of_mem_erase hg), ?_⟩, .inr ⟨hcount, ?_⟩⟩
    · exact (((List.erase_sublist).append_right left).subperm).trans h.places
    · simp only [poolCost, List.length_cons] at hlength ⊢
      omega

/-! ## The loop -/

/-- What is selected leaves even sides, or nobody of the side with fewer free slots left is selected. -/
def Balanced (free : Team → Nat) (pool : Team → SelectionPool) : Prop :=
  ((free .alliance - (pool .alliance).playerCount : Int) - (free .horde - (pool .horde).playerCount)).natAbs ≤ 1 ∨
    ∃ side, (free side - (pool side).playerCount : Int) ≤ free side.other - (pool side.other).playerCount ∧
      (pool side).playerCount = 0

/-- The invariant of the loop: both pools fit, and where it is left they are balanced. -/
structure Fitting (info : Nat → GroupQueueInfo) (queue : Team → List Nat) (free : Team → Nat) (f : Filling) : Prop where
  fits : ∀ team, Fits info (queue team) (free team) (f.pool team) (f.left team)
  balanced : f.stop = true → Balanced free f.pool

def sideCost (f : Filling) (team : Team) : Nat := poolCost (f.pool team) (f.left team)

def fillingCost (f : Filling) : Nat := sideCost f .alliance + sideCost f .horde + if f.stop then 0 else 1

section

variable {queue : Team → List Nat} {free : Team → Nat} {f f' : Filling} {side team : Team}

/-- One side has changed. -/
structure Only (side : Team) (f f' : Filling) : Prop where
  pool : f'.pool side.other = f.pool side.other
  left : f'.left side.other = f.left side.other
  stop : f'.stop = f.stop

theorem team_cases (side team : Team) : team = side ∨ team = side.other := by
  cases side <;> cases team <;> decide

theorem side_ne_other (side : Team) : side.other ≠ side := by
  cases side <;> decide

theorem Only.trans {f'' : Filling} (h : Only side f f') (h' : Only side f' f'') : Only side f f'' :=
  ⟨h'.pool.trans h.pool, h'.left.trans h.left, h'.stop.trans h.stop⟩

theorem Only.fits (h : Only side f f') (hf : ∀ team, Fits info (queue team) (free team) (f.pool team) (f.left team))
    (hside : Fits info (queue side) (free side) (f'.pool side) (f'.left side)) (team : Team) :
    Fits info (queue team) (free team) (f'.pool team) (f'.left team) := by
  rcases team_cases side team with rfl | rfl
  · exact hside
  · rw [h.pool, h.left]
    exact hf _

theorem Only.sideCost (h : Only side f f') : sideCost f' side.other = sideCost f side.other := by
  unfold BattlegroundQueue.sideCost
  rw [h.pool, h.left]

theorem fillingCost_eq (side : Team) (f : Filling) :
    fillingCost f = sideCost f side + sideCost f side.other + if f.stop then 0 else 1 := by
  cases side with
  | alliance => rfl
  | horde =>
    unfold fillingCost
    rw [Nat.add_comm (sideCost f .alliance)]
    rfl

theorem kick_spec (h : ∀ team, Fits info (queue team) (free team) (f.pool team) (f.left team)) (side : Team)
    (size : Int) : ∃ f' again, f.kick info side size = some (f', again) ∧ Only side f f' ∧
      Fits info (queue side) (free side) (f'.pool side) (f'.left side) ∧
      (((f.pool side).playerCount = 0 ∧ f' = f) ∨
        (f.pool side).playerCount ≠ 0 ∧ sideCost f' side + 1 = sideCost f side) := by
  obtain ⟨pool', again, hkick, hfits, hcost⟩ := (h side).kick size
  have hself : Function.update f.pool side pool' side = pool' := Function.update_self ..
  refine ⟨{ f with pool := Function.update f.pool side pool' }, again, ?_, ⟨?_, rfl, rfl⟩, ?_, ?_⟩
  · unfold Filling.kick
    rw [hkick]
    rfl
  · exact Function.update_of_ne (side_ne_other side) ..
  · dsimp only
    rw [hself]
    exact hfits
  · unfold sideCost
    dsimp only
    rw [hself]
    refine hcost.imp (fun hcost => ⟨hcost.1, ?_⟩) id
    rw [hcost.2, Function.update_eq_self]

theorem refill_spec (h : Fits info (queue side) limit (f.pool side) (f.left side)) (hdesired : desired ≤ limit) :
    Only side f (f.refill info side desired) ∧
      Fits info (queue side) limit ((f.refill info side desired).pool side) ((f.refill info side desired).left side) ∧
      sideCost (f.refill info side desired) side ≤ sideCost f side := by
  obtain ⟨hfits, hcost⟩ := h.fill hdesired
  unfold Filling.refill sideCost
  dsimp only
  rw [Function.update_self, Function.update_self]
  exact ⟨⟨Function.update_of_ne (side_ne_other side) .., Function.update_of_ne (side_ne_other side) .., rfl⟩, hfits, hcost⟩

theorem other_other (side : Team) : side.other.other = side := by
  cases side <;> rfl

/-- A side with nobody selected and at most one free slot more than the other. -/
theorem balanced_of_empty (hempty : (f.pool side).playerCount = 0) (h : (free side : Int) ≤ f.diff free side.other + 1) :
    Balanced free f.pool := by
  unfold Filling.diff at h
  by_cases hfewer : (free side : Int) ≤ free side.other - (f.pool side.other).playerCount
  · exact .inr ⟨side, by omega, hempty⟩
  refine .inl ?_
  cases side with
  | alliance =>
    change (free .alliance : Int) ≤ free .horde - (f.pool .horde).playerCount + 1 at h
    change ¬ (free .alliance : Int) ≤ free .horde - (f.pool .horde).playerCount at hfewer
    omega
  | horde =>
    change (free .horde : Int) ≤ free .alliance - (f.pool .alliance).playerCount + 1 at h
    change ¬ (free .horde : Int) ≤ free .alliance - (f.pool .alliance).playerCount at hfewer
    omega

/-- A round ends the loop with balanced sides, or takes a group from a pool. -/
theorem round_spec (h : ∀ team, Fits info (queue team) (free team) (f.pool team) (f.left team))
    (hgo : f.goesOn free = true) :
    ∃ f', f.round info free = some f' ∧ Fitting info queue free f' ∧ fillingCost f' < fillingCost f := by
  unfold Filling.goesOn at hgo
  obtain ⟨hgo, -⟩ := Bool.and_eq_true_iff.1 hgo
  obtain ⟨hstop, hdiff⟩ := Bool.and_eq_true_iff.1 hgo
  have hstop : f.stop = false := by simpa using hstop
  have hdiff := of_decide_eq_true hdiff
  unfold Filling.round
  dsimp only
  generalize hside : (if f.diff free .alliance < f.diff free .horde then Team.alliance else .horde) = side
  have hsize : f.diff free side + 1 < f.diff free side.other := by
    split at hside
    · subst hside
      show f.diff free .alliance + 1 < f.diff free .horde
      omega
    subst hside
    show f.diff free .horde + 1 < f.diff free .alliance
    omega
  have hmost : 0 ≤ f.diff free side.other := by
    have hwithin := (h side.other).within
    unfold Filling.diff
    omega
  obtain ⟨f₁, again, hkick, honly₁, hfits₁, hcost₁⟩ :=
    kick_spec h side (f.diff free side.other - f.diff free side)
  rw [hkick, Option.bind_some]
  dsimp only
  have hdesired : ((free side : Int) - f.diff free side.other).toNat ≤ free side := by omega
  generalize hf₂ : (if again then f₁.refill info side ((free side : Int) - f.diff free side.other).toNat else f₁) = f₂
  obtain ⟨honly₂, hfits₂, hcost₂⟩ : Only side f f₂ ∧
      Fits info (queue side) (free side) (f₂.pool side) (f₂.left side) ∧ sideCost f₂ side ≤ sideCost f₁ side := by
    rw [← hf₂]
    split
    · obtain ⟨honly, hfits, hcost⟩ := refill_spec hfits₁ hdesired
      exact ⟨honly₁.trans honly, hfits, hcost⟩
    · exact ⟨honly₁, hfits₁, Nat.le_refl _⟩
  have hall₂ := honly₂.fits h hfits₂
  have hother : f₂.diff free side.other = f.diff free side.other := by
    unfold Filling.diff
    rw [honly₂.pool]
  have hcost := fillingCost_eq side f
  rw [hstop, if_neg Bool.false_ne_true] at hcost
  -- with nobody selected, nobody is added
  have hnobody : (f.pool side).playerCount = 0 → (f₂.pool side).playerCount = 0 := by
    intro hzero
    rcases hcost₁ with ⟨-, hsame⟩ | ⟨hne, -⟩
    · have hfull : ((free side : Int) - f.diff free side.other).toNat = 0 := by
        have hall := hsize
        unfold Filling.diff at hall ⊢
        omega
      have hnone : Fits info (queue side) 0 (f.pool side) (f.left side) :=
        ⟨(h side).counted, Nat.le_of_eq hzero, (h side).uninvited, (h side).places⟩
      rw [← hf₂, hsame, hfull]
      split
      · exact Nat.le_zero.1 (refill_spec hnone (Nat.le_refl 0)).2.1.within
      · exact hzero
    · exact absurd hzero hne
  have hle₁ : sideCost f₁ side ≤ sideCost f side := by
    rcases hcost₁ with ⟨-, hsame⟩ | ⟨-, hless⟩
    · rw [hsame]
    · omega
  have hless₁ : (f.pool side).playerCount ≠ 0 → sideCost f₁ side < sideCost f side := fun hne =>
    hcost₁.elim (fun hzero => absurd hzero.1 hne) fun hless => by omega
  have hcost' := honly₂.sideCost
  by_cases hempty : (f₂.pool side).playerCount = 0
  · rw [if_pos hempty]
    by_cases hleave : (free side : Int) ≤ f.diff free side.other + 1
    · rw [if_pos hleave]
      refine ⟨_, rfl, ⟨hall₂, fun _ => ?_⟩, ?_⟩
      · rw [← hother] at hleave
        exact balanced_of_empty hempty hleave
      · rw [hcost, fillingCost_eq side]
        show sideCost f₂ side + sideCost f₂ side.other + 0 < _
        omega
    rw [if_neg hleave]
    have hsome : (f.pool side).playerCount ≠ 0 := by
      intro hzero
      unfold Filling.diff at hsize hleave
      omega
    obtain ⟨f₃, again', hkick', honly₃, hfits₃, hcost₃⟩ :=
      kick_spec hall₂ side.other (f.diff free side.other - f.diff free side)
    rw [hkick']
    refine ⟨f₃, rfl, ⟨honly₃.fits hall₂ hfits₃, fun h => ?_⟩, ?_⟩
    · rw [honly₃.stop, honly₂.stop, hstop] at h
      cases h
    · have hside₃ := honly₃.sideCost
      rw [other_other] at hside₃
      have hle₃ : sideCost f₃ side.other ≤ sideCost f₂ side.other := by
        rcases hcost₃ with ⟨-, hsame⟩ | ⟨-, hless⟩
        · rw [hsame]
        · omega
      have hless := hless₁ hsome
      rw [hcost, fillingCost_eq side, honly₃.stop, honly₂.stop, hstop, if_neg Bool.false_ne_true]
      omega
  · rw [if_neg hempty]
    refine ⟨f₂, rfl, ⟨hall₂, fun h => ?_⟩, ?_⟩
    · rw [honly₂.stop, hstop] at h
      cases h
    · have hless := hless₁ fun hzero => hempty (hnobody hzero)
      rw [hcost, fillingCost_eq side, honly₂.stop, hstop, if_neg Bool.false_ne_true]
      omega

end

/-! ## The result -/

/-- What is selected for a side: groups of the queue, each place of it at most once, not yet invited and within the free
slots. -/
structure Selected (info : Nat → GroupQueueInfo) (queue : List Nat) (freeSlots : Nat) (pool : SelectionPool) : Prop where
  places : pool.selectedGroups.Subperm queue
  distinct : queue.Nodup → pool.selectedGroups.Nodup
  uninvited : ∀ g ∈ pool.selectedGroups, (info g).isInvited = false
  counted : pool.playerCount = (pool.selectedGroups.map fun g => (info g).size).sum
  within : pool.playerCount ≤ freeSlots

theorem Fits.selected (h : Fits info queue limit pool left) {freeSlots : Nat} (hfree : limit ≤ freeSlots) :
    Selected info queue freeSlots pool where
  places := ((List.sublist_append_left _ left).subperm).trans h.places
  distinct hnodup := by
    obtain ⟨l, hperm, hsub⟩ := ((List.sublist_append_left _ left).subperm).trans h.places
    exact hperm.nodup_iff.1 (hsub.nodup hnodup)
  uninvited := h.uninvited
  counted := h.counted
  within := h.within.trans hfree

def slots (bg : RunningBattleground) : Team → Nat
  | .alliance => bg.aliFree
  | .horde => bg.hordeFree

variable {u : UpdateRequest} {bg : RunningBattleground} {q : BattlegroundQueue}

theorem freeSlots_le (u : UpdateRequest) (bg : RunningBattleground) (aliCount hordeCount : Nat) (team : Team) :
    freeSlots u bg aliCount hordeCount team ≤ slots bg team := by
  cases team with
  | alliance =>
    show (if _ then _ else _) ≤ bg.aliFree
    split
    · exact Nat.sub_le ..
    · exact Nat.le_refl _
  | horde =>
    show (if _ then _ else _) ≤ bg.hordeFree
    split
    · exact Nat.sub_le ..
    · exact Nat.le_refl _

/-- The slots that the last two of even teams leave unused do not matter for the balance. -/
theorem Balanced.slots {aliCount hordeCount : Nat} {pool : Team → SelectionPool}
    (hwithin : ∀ team, (pool team).playerCount ≤ freeSlots u bg aliCount hordeCount team)
    (h : Balanced (freeSlots u bg aliCount hordeCount) pool) : Balanced (slots bg) pool := by
  by_cases heven : (u.invitationType = .even && bg.hordeFree = 1 && bg.aliFree = 1) = true
  · have hali := (hwithin .alliance).trans (freeSlots_le u bg aliCount hordeCount .alliance)
    have hhorde := (hwithin .horde).trans (freeSlots_le u bg aliCount hordeCount .horde)
    simp only [Bool.and_eq_true, decide_eq_true_iff] at heven
    have haliFree : BattlegroundQueue.slots bg .alliance = 1 := heven.2
    have hhordeFree : BattlegroundQueue.slots bg .horde = 1 := heven.1.2
    refine .inl ?_
    omega
  have hsame : freeSlots u bg aliCount hordeCount = BattlegroundQueue.slots bg := by
    funext team
    cases team with
    | alliance => exact if_neg heven
    | horde => exact if_neg heven
  exact hsame ▸ h

/-- Where the loop does not go on, the sides are balanced. -/
theorem Fitting.ended {queue : Team → List Nat} {free : Team → Nat} {f : Filling} (h : Fitting info queue free f)
    (hend : f.goesOn free = false) : Balanced free f.pool := by
  unfold Filling.goesOn at hend
  rcases Bool.and_eq_false_iff.1 hend with hend | hend
  · rcases Bool.and_eq_false_iff.1 hend with hend | hend
    · exact h.balanced (by simpa using hend)
    · exact .inl (Nat.not_lt.1 (of_decide_eq_false hend))
  obtain ⟨hhorde, hali⟩ := Bool.or_eq_false_iff.1 hend
  have hhorde : (f.pool .horde).playerCount = 0 := Nat.eq_zero_of_not_pos (of_decide_eq_false hhorde)
  have hali : (f.pool .alliance).playerCount = 0 := Nat.eq_zero_of_not_pos (of_decide_eq_false hali)
  -- nobody is selected at all
  rcases Nat.le_total (free .alliance) (free .horde) with hle | hle
  · refine .inr ⟨.alliance, ?_, hali⟩
    show (free .alliance - (f.pool .alliance).playerCount : Int) ≤ free .horde - (f.pool .horde).playerCount
    omega
  refine .inr ⟨.horde, ?_, hhorde⟩
  show (free .horde - (f.pool .horde).playerCount : Int) ≤ free .alliance - (f.pool .alliance).playerCount
  omega

/-- A running battleground is filled within its free slots and kept balanced. -/
theorem fillPlayersToBG_balanced (u : UpdateRequest) (bg : RunningBattleground) (q : BattlegroundQueue) :
    ∃ q', fillPlayersToBG u bg q.initPools = some q' ∧
      (∀ team, Selected q.info (q.m_QueuedGroups u.bracketId (.normal team)) (slots bg team) (q'.m_SelectionPools team)) ∧
      (u.invitationType ≠ .noBalance → Balanced (slots bg) q'.m_SelectionPools) := by
  unfold fillPlayersToBG
  dsimp only
  generalize hfree : freeSlots u bg _ _ = free
  have hle : ∀ team, free team ≤ slots bg team := fun team => hfree ▸ freeSlots_le ..
  have hfilled : ∀ team, Fits q.info (q.m_QueuedGroups u.bracketId (.normal team)) (free team)
      (SelectionPool.init.fill q.info (free team) (q.m_QueuedGroups u.bracketId (.normal team))).1
      (SelectionPool.init.fill q.info (free team) (q.m_QueuedGroups u.bracketId (.normal team))).2 :=
    fun team => ((Fits.init ..).fill (Nat.le_refl _)).1
  by_cases htype : u.invitationType = .noBalance
  · rw [if_pos htype]
    exact ⟨_, rfl, fun team => (hfilled team).selected (hle team), fun h => absurd htype h⟩
  · rw [if_neg htype]
    generalize hf : Filling.mk _ _ false = f
    have hfits : Fitting q.info (fun team => q.m_QueuedGroups u.bracketId (.normal team)) free f := by
      rw [← hf]
      exact ⟨hfilled, fun h => by cases h⟩
    have hrounds : fillingCost f ≤ f.rounds := by
      unfold fillingCost sideCost poolCost Filling.rounds
      omega
    obtain ⟨f', hrun, hfits', hend⟩ := whileLoop_ends (Fitting q.info _ free) fillingCost
      (fun f hfits hgo => round_spec hfits.fits hgo) hfits hrounds
    refine ⟨_, Option.map_eq_some_iff.2 ⟨f', hrun, rfl⟩, fun team => (hfits'.fits team).selected (hle team), fun _ => ?_⟩
    have hbalanced := hfits'.ended hend
    rw [← hfree] at hbalanced
    exact hbalanced.slots fun team => hfree ▸ (hfits'.fits team).within

end AtlasWow.Battlegrounds.BattlegroundQueue
