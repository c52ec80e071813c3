/-
The counters of a `ReputationMgr` and the range of its standings: a change of
one standing moves one faction between ranks (`setOne_counted`), loading does so
once for each row (`loadFromDB_counted`), and with list ids that are distinct
the counters are the numbers of factions at a rank or shown, in the 8 bits they
have, in every state reached (`counters_modulo`).
-/
import AtlasWow.Lib.Tally
import AtlasWow.Reputation.ReputationMgr

namespace AtlasWow.Reputation

open ReputationMgr

/-- No two factions have one place in the list. -/
def Env.DistinctLists (E : Env) : Prop := (E.listed.map (·.reputationListID)).Nodup

/-- How many of the player's factions are at a rank or above. -/
def numberAt (E : Env) (rank : ReputationRank) (m : ReputationMgr) : Nat := E.listed.countP fun e => rank ≤ m.getRank E e

def isVisible (m : ReputationMgr) (e : FactionEntry) : Bool := (m.getState e).any (·.flags.visible)

/-- How many have the visible flag. -/
def numberVisible (E : Env) (m : ReputationMgr) : Nat := E.listed.countP (isVisible m)

def inRange (standing : Int) : Prop := reputationBottom ≤ standing ∧ standing ≤ reputationCap

def standingAt (m : ReputationMgr) (k : Int) : Option Int := (m.factions.find? k).map (·.standing)

/-- The runs: with a state, the list ids whose standings `SetReputation` has changed since the last login. -/
inductive Reached (E : Env) : ReputationMgr → (Int → Prop) → Prop
  | fresh : Reached E (initializeFactions E) fun _ => False
  /-- The rows in any order, one for a faction. -/
  | load (rows : List (Nat × ReputationRow)) (hrows : (rows.map Prod.fst).Nodup) :
    Reached E (loadFromDB E rows) fun _ => False
  | setReputation {m m' : ReputationMgr} {changed : Int → Prop} {e : FactionEntry} (standing : Int)
    (incremental spillOverOnly res : Bool) (h : Reached E m changed) (he : e ∈ E.store.entries)
    (hset : m.setReputation E e standing incremental spillOverOnly = some (res, m')) :
    Reached E m' fun k => changed k ∨ standingAt m' k ≠ standingAt m k
  | setVisible {m : ReputationMgr} {changed : Int → Prop} (e : FactionEntry) (h : Reached E m changed) :
    Reached E (m.setVisible e) changed
  | setTemplateVisible {m : ReputationMgr} {changed : Int → Prop} (faction : Nat) (h : Reached E m changed) :
    Reached E (m.setTemplateVisible E faction) changed

/-! ## Counters -/

variable {rank newRank : ReputationRank} {v : Int} {row : Nat × ReputationRow}

/-- The counter of a number, after one goes from a rank to another. -/
theorem recount_number {oldRank : ReputationRank} {n n' : Nat}
    (h : n' + (if rank ≤ oldRank then 1 else 0) = n + if rank ≤ newRank then 1 else 0) :
    recount rank oldRank newRank (UInt8.ofNat n) = UInt8.ofNat n' := by
  unfold recount
  split at h <;> split at h
  next hold hnew =>
    rw [if_pos hold, if_pos hnew, UInt8.sub_add_cancel, show n' = n by omega]
  next hold hnew =>
    rw [if_pos hold, if_neg hnew, show n = n' + 1 by omega, UInt8.ofNat_add]
    exact UInt8.add_sub_cancel _ _
  next hold hnew =>
    rw [if_neg hold, if_pos hnew, show n' = n + 1 by omega, UInt8.ofNat_add]
    rfl
  next hold hnew => rw [if_neg hold, if_neg hnew, show n' = n by omega]

/-- The rank counters of two managers are the same. -/
def SameCounts (m m' : ReputationMgr) : Prop :=
  m'.honoredFactionCount = m.honoredFactionCount ∧ m'.reveredFactionCount = m.reveredFactionCount ∧
    m'.exaltedFactionCount = m.exaltedFactionCount

/-- A change of flags: what the ranks depend on stays. -/
structure SameRanks (m m' : ReputationMgr) : Prop where
  standing : ∀ k, standingAt m' k = standingAt m k
  counts : SameCounts m m'

structure Ranked (E : Env) (m : ReputationMgr) : Prop where
  honored : m.honoredFactionCount = UInt8.ofNat (numberAt E .honored m)
  revered : m.reveredFactionCount = UInt8.ofNat (numberAt E .revered m)
  exalted : m.exaltedFactionCount = UInt8.ofNat (numberAt E .exalted m)

def Shown (E : Env) (m : ReputationMgr) : Prop := m.visibleFactionCount = UInt8.ofNat (numberVisible E m)

/-- The invariant, the ranks apart: each state is of a listed faction, and the visible ones are counted. -/
structure Tracked (E : Env) (m : ReputationMgr) : Prop where
  keyed : ∀ k f, m.factions.find? k = some f → ∃ e ∈ E.listed, e.reputationListID = k
  shown : Shown E m

variable {E : Env} {m m' m'' : ReputationMgr} {e e' : FactionEntry} {k k' : Int} {s s' : Int} {changed : Int → Prop}
  {g : FactionState → FactionState} {standing : Int} {incremental spillOverOnly res : Bool}

theorem SameRanks.refl : SameRanks m m := ⟨fun _ => rfl, rfl, rfl, rfl⟩

theorem SameRanks.trans (h : SameRanks m m') (h' : SameRanks m' m'') : SameRanks m m'' :=
  ⟨fun k => (h'.standing k).trans (h.standing k), h'.counts.1.trans h.counts.1, h'.counts.2.1.trans h.counts.2.1,
    h'.counts.2.2.trans h.counts.2.2⟩

/-! ### One state -/

theorem modify_counts (k : Int) (g : FactionState → FactionState) (m : ReputationMgr) : SameCounts m (m.modify k g) := by
  unfold ReputationMgr.modify
  split <;> exact ⟨rfl, rfl, rfl⟩

theorem modify_visibleFactionCount (k : Int) (g : FactionState → FactionState) (m : ReputationMgr) :
    (m.modify k g).visibleFactionCount = m.visibleFactionCount := by
  unfold ReputationMgr.modify
  split <;> rfl

theorem standingAt_modify (k k' : Int) (g : FactionState → FactionState) (m : ReputationMgr) :
    standingAt (m.modify k g) k' = if k' = k then (m.factions.find? k).map fun f => (g f).standing else standingAt m k' := by
  unfold standingAt
  rw [find?_modify]
  split
  · rw [Option.map_map]
    rfl
  · rfl

theorem modify_sameRanks (hg : ∀ f, (g f).standing = f.standing) : SameRanks m (m.modify k g) := by
  refine ⟨fun k' => ?_, modify_counts k g m⟩
  rw [standingAt_modify]
  split
  next heq =>
    rw [heq]
    exact congrArg (fun h => (m.factions.find? k).map h) (funext hg)
  next => rfl

theorem setVisibleState_sameRanks : SameRanks m (m.setVisibleState k) := by
  unfold setVisibleState
  split
  · exact .refl
  next f hf =>
  split
  · exact .refl
  split
  · exact .refl
  refine ⟨fun k' => ?_, rfl, rfl, rfl⟩
  unfold standingAt
  rw [OMap.find?_insert]
  split
  next heq => rw [heq, hf, Option.map_some, Option.map_some]
  next => rfl

theorem setAtWar_standing (on : Bool) (f : FactionState) : (f.setAtWar on).standing = f.standing := by
  unfold FactionState.setAtWar
  split
  · rfl
  · split <;> rfl

theorem setAtWar_visible (on : Bool) (f : FactionState) : (f.setAtWar on).flags.visible = f.flags.visible := by
  unfold FactionState.setAtWar
  split
  · rfl
  · split <;> rfl

theorem setInactive_standing (on : Bool) (f : FactionState) : (f.setInactive on).standing = f.standing := by
  unfold FactionState.setInactive
  split
  · rfl
  · split <;> rfl

theorem setInactive_visible (on : Bool) (f : FactionState) : (f.setInactive on).flags.visible = f.flags.visible := by
  unfold FactionState.setInactive
  split
  · rfl
  · split <;> rfl

/-! ### Ranks -/

theorem Env.DistinctLists.eq (hd : E.DistinctLists) (he : e ∈ E.listed) (he' : e' ∈ E.listed)
    (h : e.reputationListID = e'.reputationListID) : e = e' :=
  List.inj_on_of_nodup_map hd he he' h

theorem nodup_listed (E : Env) : E.listed.Nodup :=
  (E.store.sorted.filter _).imp fun hlt heq => Nat.ne_of_lt hlt (congrArg _ heq)

theorem getReputation_congr (h : standingAt m' e.reputationListID = standingAt m e.reputationListID) :
    m'.getReputation E e = m.getReputation E e := by
  unfold standingAt at h
  unfold getReputation getState
  by_cases he : e.canHaveReputation = true
  · rw [if_pos he, if_pos he]
    cases hm : m.factions.find? e.reputationListID with
    | none =>
      rw [hm] at h
      rw [Option.map_eq_none_iff.1 h]
    | some f =>
      rw [hm] at h
      obtain ⟨f', hf', hs⟩ := Option.map_eq_some_iff.1 h
      rw [hf']
      dsimp only
      rw [hs]
  · rw [if_neg he, if_neg he]

theorem getRank_congr (h : standingAt m' e.reputationListID = standingAt m e.reputationListID) :
    m'.getRank E e = m.getRank E e := congrArg reputationToRank (getReputation_congr h)

theorem getReputation_of (he : e ∈ E.listed) (h : standingAt m e.reputationListID = some s) :
    m.getReputation E e = int32 (E.getBaseReputation e + s) := by
  obtain ⟨f, hf, rfl⟩ := Option.map_eq_some_iff.1 h
  unfold getReputation getState
  rw [if_pos (List.mem_filter.1 he).2, hf]

theorem getRank_of (he : e ∈ E.listed) (h : standingAt m e.reputationListID = some s) :
    m.getRank E e = reputationToRank (int32 (E.getBaseReputation e + s)) := congrArg reputationToRank (getReputation_of he h)

theorem SameRanks.getRank (h : SameRanks m m') (e : FactionEntry) : m'.getRank E e = m.getRank E e :=
  getRank_congr (h.standing _)

theorem SameRanks.numberAt (h : SameRanks m m') (rank : ReputationRank) : numberAt E rank m' = numberAt E rank m :=
  List.countP_congr fun e _ => by rw [h.getRank e]

theorem Ranked.same (h : Ranked E m) (hs : SameRanks m m') : Ranked E m' :=
  ⟨by rw [hs.counts.1, hs.numberAt, h.honored], by rw [hs.counts.2.1, hs.numberAt, h.revered],
    by rw [hs.counts.2.2, hs.numberAt, h.exalted]⟩

/-- One standing changes: one faction goes from a rank to another. -/
theorem Ranked.move (hd : E.DistinctLists) (h : Ranked E m) (he : e ∈ E.listed)
    (hold : standingAt m e.reputationListID = some s) (hnew : standingAt m' e.reputationListID = some s')
    (hsame : ∀ k, k ≠ e.reputationListID → standingAt m' k = standingAt m k) (hcounts : SameCounts m m') :
    Ranked E (m'.updateRankCounters (reputationToRank (int32 (E.getBaseReputation e + s)))
      (reputationToRank (int32 (E.getBaseReputation e + s')))) := by
  have hmove : ∀ rank : ReputationRank, numberAt E rank m' +
      (if rank ≤ reputationToRank (int32 (E.getBaseReputation e + s)) then 1 else 0) =
        numberAt E rank m + if rank ≤ reputationToRank (int32 (E.getBaseReputation e + s')) then 1 else 0 := by
    intro rank
    have hcount := countP_move (p := fun e => decide (rank ≤ m.getRank E e)) (q := fun e => decide (rank ≤ m'.getRank E e))
      (nodup_listed E) he fun e' he' hne => by
        rw [getRank_congr (hsame _ fun heq => hne (hd.eq he' he heq))]
    simp only [decide_eq_true_iff, getRank_of he hold, getRank_of he hnew] at hcount
    exact hcount
  refine ⟨?_, ?_, ?_⟩
  · show recount _ _ _ m'.honoredFactionCount = _
    rw [hcounts.1, h.honored]
    exact recount_number (hmove _)
  · show recount _ _ _ m'.reveredFactionCount = _
    rw [hcounts.2.1, h.revered]
    exact recount_number (hmove _)
  · show recount _ _ _ m'.exaltedFactionCount = _
    rw [hcounts.2.2, h.exalted]
    exact recount_number (hmove _)

/-! ### Visible ones -/

def visibleAt (m : ReputationMgr) (k : Int) : Bool := (m.factions.find? k).any (·.flags.visible)

theorem isVisible_congr (h : visibleAt m' e.reputationListID = visibleAt m e.reputationListID) :
    isVisible m' e = isVisible m e := by
  unfold isVisible getState
  split
  · exact h
  · rfl

theorem isVisible_listed (he : e ∈ E.listed) : isVisible m e = visibleAt m e.reputationListID := by
  unfold isVisible getState
  rw [if_pos (List.mem_filter.1 he).2]
  rfl

theorem Shown.same (h : Shown E m) (hcount : m'.visibleFactionCount = m.visibleFactionCount)
    (hs : ∀ k, visibleAt m' k = visibleAt m k) : Shown E m' := by
  unfold Shown numberVisible
  rw [hcount, h]
  exact congrArg _ (List.countP_congr fun e _ => by rw [isVisible_congr (hs _)]).symm

theorem visibleAt_modify (hg : ∀ f, (g f).flags.visible = f.flags.visible) (k k' : Int) (m : ReputationMgr) :
    visibleAt (m.modify k g) k' = visibleAt m k' := by
  unfold visibleAt
  rw [find?_modify]
  split
  next heq =>
    rw [heq]
    cases m.factions.find? k with
    | none => rfl
    | some f => exact hg f
  next => rfl

/-! ### Operations keep the counters -/

theorem Tracked.modify (h : Tracked E m) (hv : ∀ f, (g f).flags.visible = f.flags.visible) :
    Tracked E (m.modify k g) where
  keyed k' f hf := by
    rw [find?_modify] at hf
    split at hf
    next heq =>
      obtain ⟨f', hf', -⟩ := Option.map_eq_some_iff.1 hf
      rw [heq]
      exact h.keyed k f' hf'
    next => exact h.keyed k' f hf
  shown := h.shown.same (modify_visibleFactionCount ..) fun k' => visibleAt_modify hv k k' m

theorem keyed_setVisibleState (h : ∀ k f, m.factions.find? k = some f → ∃ e ∈ E.listed, e.reputationListID = k)
    (k k' : Int) (f : FactionState) (hf : (m.setVisibleState k).factions.find? k' = some f) :
    ∃ e ∈ E.listed, e.reputationListID = k' := by
  unfold setVisibleState at hf
  split at hf
  · exact h k' f hf
  next f₀ hf₀ =>
  split at hf
  · exact h k' f hf
  split at hf
  · exact h k' f hf
  dsimp only at hf
  rw [OMap.find?_insert] at hf
  split at hf
  next heq => exact heq ▸ h k f₀ hf₀
  next => exact h k' f hf

/-- A faction is shown and counted. -/
theorem shown_setVisibleState (hd : E.DistinctLists)
    (hk : ∀ k f, m.factions.find? k = some f → ∃ e ∈ E.listed, e.reputationListID = k) (h : Shown E m) :
    Shown E (m.setVisibleState k) := by
  unfold setVisibleState
  split
  · exact h
  next f hf =>
  split
  · exact h
  split
  · exact h
  next hhidden hvisible =>
  obtain ⟨e, he, rfl⟩ := hk k f hf
  generalize hm' : ReputationMgr.mk _ (m.visibleFactionCount + 1) _ _ _ = m'
  have hcount : m'.visibleFactionCount = m.visibleFactionCount + 1 := by rw [← hm']
  have hfind : ∀ k, k ≠ e.reputationListID → m'.factions.find? k = m.factions.find? k := by
    intro k hne
    rw [← hm']
    exact OMap.find?_insert_of_ne hne
  have hself : visibleAt m' e.reputationListID = true := by
    unfold visibleAt
    rw [← hm']
    dsimp only
    rw [OMap.find?_insert_self]
    rfl
  have hwas : visibleAt m e.reputationListID = false := by
    unfold visibleAt
    rw [hf]
    exact Bool.eq_false_iff.2 hvisible
  have hmove := countP_move (p := isVisible m) (q := isVisible m') (nodup_listed E) he fun e' he' hne =>
    isVisible_congr (by
      unfold visibleAt
      rw [hfind _ fun heq => hne (hd.eq he' he heq)])
  rw [isVisible_listed he, isVisible_listed he, hself, hwas] at hmove
  simp only [Bool.false_eq_true, if_false, if_true, Nat.add_zero] at hmove
  show m'.visibleFactionCount = UInt8.ofNat (E.listed.countP (isVisible m'))
  rw [hcount, hmove, UInt8.ofNat_add, h]
  rfl

theorem Tracked.setVisibleState (hd : E.DistinctLists) (h : Tracked E m) : Tracked E (m.setVisibleState k) :=
  ⟨keyed_setVisibleState h.keyed k, shown_setVisibleState hd h.keyed h.shown⟩

theorem Tracked.updateRankCounters (h : Tracked E m) (oldRank newRank : ReputationRank) :
    Tracked E (m.updateRankCounters oldRank newRank) := ⟨h.keyed, h.shown⟩

variable {P : ReputationMgr → Prop} {f : FactionState}

/-- Both ways of `SetVisible` come down to one for a list id, or to nothing. -/
theorem setVisible_keeps (hP : ∀ k, P (m.setVisibleState k)) (hm : P m) (e : FactionEntry) : P (m.setVisible e) := by
  unfold ReputationMgr.setVisible
  split
  · exact hm
  · exact hP _

theorem setTemplateVisible_keeps (hP : ∀ k, P (m.setVisibleState k)) (hm : P m)
    (faction : Nat) : P (m.setTemplateVisible E faction) := by
  unfold ReputationMgr.setTemplateVisible
  split
  · exact hm
  split
  · exact hm
  split
  · exact hm
  · exact setVisible_keeps hP hm _

/-- A state belongs to a listed faction. -/
theorem Tracked.listed (h : Tracked E m) (he : e ∈ E.store.entries)
    (hf : m.factions.find? e.reputationListID = some f) : e ∈ E.listed := by
  obtain ⟨e', he', heq⟩ := h.keyed _ f hf
  exact Env.mem_listed.2 ⟨he, heq ▸ (Env.mem_listed.1 he').2⟩

/-! ### A standing set -/

/-- What is set: the sum, within the bounds. -/
def newStanding (E : Env) (e : FactionEntry) (f : FactionState) (standing : Int) (incremental : Bool) : Int :=
  let standing := if incremental then int32 (E.gain standing + (f.standing + E.getBaseReputation e)) else standing
  if reputationCap < standing then reputationCap else if standing < reputationBottom then reputationBottom else standing

theorem newStanding_inRange (f : FactionState) : inRange (newStanding E e f standing incremental) := by
  unfold newStanding inRange reputationCap reputationBottom
  dsimp only
  split
  · omega
  · split <;> omega

/-- A standing comes back over its base. -/
theorem int32_base (base : Int) (hv : inRange v) : int32 (base + int32 (v - base)) = v := by
  obtain ⟨hlo, hhi⟩ := hv
  unfold reputationBottom at hlo
  unfold reputationCap at hhi
  rw [int32_eq (base + int32 (v - base)), int32_eq (v - base)]
  split_ifs <;> omega

/-- What `SetOneFactionReputation` does, before the counters. -/
def setOneState (E : Env) (e : FactionEntry) (v : Int) (m : ReputationMgr) : ReputationMgr :=
  let m := m.modify e.reputationListID fun f =>
    { f with standing := int32 (v - E.getBaseReputation e), needSave := true }
  let m := m.setVisibleState e.reputationListID
  if reputationToRank v ≤ .hostile then m.modify e.reputationListID (·.setAtWar true) else m

theorem setOne_none (h : m.factions.find? e.reputationListID = none) :
    (m.setOneFactionReputation E e standing incremental).2 = m := by
  unfold setOneFactionReputation
  rw [h]

theorem setOne_some (h : m.factions.find? e.reputationListID = some f) :
    (m.setOneFactionReputation E e standing incremental).2 =
      (setOneState E e (newStanding E e f standing incremental) m).updateRankCounters
        (reputationToRank (int32 (f.standing + E.getBaseReputation e)))
        (reputationToRank (newStanding E e f standing incremental)) := by
  unfold setOneFactionReputation
  rw [h]
  rfl

/-- Only the faction's own standing changes. -/
theorem setOneState_spec {v : Int} {f : FactionState} (hf : m.factions.find? e.reputationListID = some f) :
    (∀ k, standingAt (setOneState E e v m) k =
      if k = e.reputationListID then some (int32 (v - E.getBaseReputation e)) else standingAt m k) ∧
      SameCounts m (setOneState E e v m) := by
  unfold setOneState
  dsimp only
  generalize hm₁ : m.modify e.reputationListID _ = m₁
  have hsame : SameRanks m₁ (if reputationToRank v ≤ .hostile then
      (m₁.setVisibleState e.reputationListID).modify e.reputationListID (·.setAtWar true)
      else m₁.setVisibleState e.reputationListID) := by
    split
    · exact setVisibleState_sameRanks.trans (modify_sameRanks (setAtWar_standing true))
    · exact setVisibleState_sameRanks
  have hcounts : SameCounts m m₁ := by
    rw [← hm₁]
    exact modify_counts ..
  refine ⟨fun k => ?_, hsame.counts.1.trans hcounts.1, hsame.counts.2.1.trans hcounts.2.1,
    hsame.counts.2.2.trans hcounts.2.2⟩
  rw [hsame.standing, ← hm₁, standingAt_modify, hf, Option.map_some]

theorem setOneState_tracked (hd : E.DistinctLists) (h : Tracked E m) : Tracked E (setOneState E e v m) := by
  have hset := (Tracked.modify (k := e.reputationListID)
    (g := fun f => { f with standing := int32 (v - E.getBaseReputation e), needSave := true }) h fun f => rfl)
  have hshown := @Tracked.setVisibleState _ _ e.reputationListID hd hset
  unfold setOneState
  dsimp only
  split
  · exact hshown.modify (setAtWar_visible true)
  · exact hshown

/-- The invariant of a run: each standing that was changed is in range. -/
structure Counted (E : Env) (changed : Int → Prop) (m : ReputationMgr) : Prop where
  tracked : Tracked E m
  ranked : Ranked E m
  ranged : ∀ e ∈ E.listed, changed e.reputationListID → inRange (m.getReputation E e)

theorem Counted.setOne (hd : E.DistinctLists) (he : e ∈ E.store.entries) (h : Counted E changed m) :
    Counted E (fun k => changed k ∨ standingAt (m.setOneFactionReputation E e standing incremental).2 k ≠ standingAt m k)
      (m.setOneFactionReputation E e standing incremental).2 := by
  cases hf : m.factions.find? e.reputationListID with
  | none =>
    rw [setOne_none hf]
    exact ⟨h.tracked, h.ranked, fun e he hc => h.ranged e he (hc.resolve_right fun hne => hne rfl)⟩
  | some f =>
    have hlisted := h.tracked.listed he hf
    rw [setOne_some hf]
    generalize hv : newStanding E e f standing incremental = v
    have hrange : inRange v := hv ▸ newStanding_inRange f
    obtain ⟨hstanding, hcounts⟩ := @setOneState_spec E m e v f hf
    have hnew : standingAt (setOneState E e v m) e.reputationListID = some (int32 (v - E.getBaseReputation e)) := by
      rw [hstanding, if_pos rfl]
    refine ⟨(setOneState_tracked hd h.tracked).updateRankCounters _ _, ?_, fun e' he' hc => ?_⟩
    · have hmove := h.ranked.move hd hlisted (congrArg (Option.map _) hf) hnew
        (fun k hk => by rw [hstanding, if_neg hk]) hcounts
      rw [int32_base _ hrange, Int.add_comm] at hmove
      exact hmove
    · show inRange ((setOneState E e v m).getReputation E e')
      by_cases hk : e'.reputationListID = e.reputationListID
      · have heq := hd.eq he' hlisted hk
        subst heq
        rw [getReputation_of he' hnew, int32_base _ hrange]
        exact hrange
      have hsame : standingAt (setOneState E e v m) e'.reputationListID = standingAt m e'.reputationListID := by
        rw [hstanding, if_neg hk]
      rw [getReputation_congr hsame]
      exact h.ranged e' he' (hc.resolve_right fun hne => hne hsame)

theorem Counted.setReputation (hd : E.DistinctLists) (he : e ∈ E.store.entries) (h : Counted E changed m)
    (hset : m.setReputation E e standing incremental spillOverOnly = some (res, m')) :
    Counted E (fun k => changed k ∨ standingAt m' k ≠ standingAt m k) m' := by
  refine setReputation_keeps (P := fun m' => Counted E (fun k => changed k ∨ standingAt m' k ≠ standingAt m k) m')
    (fun e he standing m₁ h₁ => ?_) he hset ⟨h.tracked, h.ranked, fun e he hc =>
      h.ranged e he (hc.resolve_right fun hne => hne rfl)⟩
  have hone := @Counted.setOne E m₁ e _ standing incremental hd he h₁
  refine ⟨hone.tracked, hone.ranked, fun e' he' hc => hone.ranged e' he' ?_⟩
  rcases hc with hc | hne
  · exact .inl (.inl hc)
  by_cases hsame : standingAt m₁ e'.reputationListID = standingAt m e'.reputationListID
  · exact .inr fun heq => hne (heq.trans hsame)
  · exact .inl (.inr hsame)

theorem Counted.setVisibleState (hd : E.DistinctLists) (h : Counted E changed m) (k : Int) :
    Counted E changed (m.setVisibleState k) :=
  ⟨h.tracked.setVisibleState hd, h.ranked.same setVisibleState_sameRanks, fun e he hc => by
    rw [getReputation_congr (setVisibleState_sameRanks.standing _)]
    exact h.ranged e he hc⟩

/-! ### A login -/

theorem owner_listed (hd : E.DistinctLists) (he : e ∈ E.listed) : E.owner e.reputationListID = some e := by
  cases h : E.owner e.reputationListID with
  | none => exact absurd (List.find?_eq_none.1 h e (List.mem_reverse.2 he)) (by simp)
  | some e' =>
    obtain ⟨he', hk⟩ := Env.owner_some h
    rw [hd.eq he' he hk]

theorem standingAt_initializeFactions (hd : E.DistinctLists) (he : e ∈ E.listed) :
    standingAt (initializeFactions E) e.reputationListID = some 0 := by
  unfold standingAt
  rw [find?_initializeFactions, owner_listed hd he]
  rfl

theorem base_int32 (he : e ∈ E.store.entries) : int32 (E.getBaseReputation e) = E.getBaseReputation e := by
  unfold Env.getBaseReputation
  split
  next i _ => exact int32_of_range (E.store.values e he i).1 (E.store.values e he i).2
  next => exact int32_small (by decide) (by decide)

theorem recount_hostile (h : ¬ rank ≤ .hostile) (n : Nat) :
    recount rank .hostile newRank (UInt8.ofNat n) = UInt8.ofNat (n + if rank ≤ newRank then 1 else 0) :=
  recount_number (by rw [if_neg h, Nat.add_zero])

/-- The counters of `Initialize`, for the factions it has seen. -/
structure Started (E : Env) (seen : List FactionEntry) (m : ReputationMgr) : Prop where
  visible : m.visibleFactionCount = UInt8.ofNat (seen.countP fun e => (E.getDefaultStateFlags e).visible)
  honored : m.honoredFactionCount = UInt8.ofNat (seen.countP fun e => .honored ≤ E.getBaseRank e)
  revered : m.reveredFactionCount = UInt8.ofNat (seen.countP fun e => .revered ≤ E.getBaseRank e)
  exalted : m.exaltedFactionCount = UInt8.ofNat (seen.countP fun e => .exalted ≤ E.getBaseRank e)

theorem initializeFaction_ranks (he : 0 ≤ e.reputationListID) :
    (initializeFaction E m e).honoredFactionCount = recount .honored .hostile (E.getBaseRank e) m.honoredFactionCount ∧
      (initializeFaction E m e).reveredFactionCount = recount .revered .hostile (E.getBaseRank e) m.reveredFactionCount ∧
      (initializeFaction E m e).exaltedFactionCount = recount .exalted .hostile (E.getBaseRank e) m.exaltedFactionCount := by
  unfold initializeFaction
  rw [if_pos he]
  dsimp only
  split <;> exact ⟨rfl, rfl, rfl⟩

theorem initializeFaction_visible (he : 0 ≤ e.reputationListID) :
    (initializeFaction E m e).visibleFactionCount =
      m.visibleFactionCount + if (E.getDefaultStateFlags e).visible then 1 else 0 := by
  unfold initializeFaction
  rw [if_pos he]
  dsimp only
  split
  · rfl
  · exact (UInt8.add_zero _).symm

theorem Started.step {seen : List FactionEntry} (h : Started E seen m) (he : 0 ≤ e.reputationListID) :
    Started E (e :: seen) (initializeFaction E m e) := by
  have hcount : ∀ {rank : ReputationRank}, ¬ rank ≤ .hostile →
      recount rank .hostile (E.getBaseRank e) (UInt8.ofNat (seen.countP fun e => rank ≤ E.getBaseRank e)) =
        UInt8.ofNat ((e :: seen).countP fun e => rank ≤ E.getBaseRank e) := by
    intro rank hrank
    rw [recount_hostile hrank, List.countP_cons]
    simp only [decide_eq_true_iff]
  obtain ⟨hhonored, hrevered, hexalted⟩ := @initializeFaction_ranks E m e he
  refine ⟨?_, ?_, ?_, ?_⟩
  · rw [initializeFaction_visible he, h.visible, List.countP_cons, UInt8.ofNat_add]
    split <;> rfl
  · rw [hhonored, h.honored, hcount (by decide)]
  · rw [hrevered, h.revered, hcount (by decide)]
  · rw [hexalted, h.exalted, hcount (by decide)]

theorem started_initializeFactions (E : Env) : Started E E.listed.reverse (initializeFactions E) := by
  have hfold : ∀ (l seen : List FactionEntry) (m : ReputationMgr), Started E seen m →
      Started E ((l.filter (·.canHaveReputation)).reverse ++ seen) (l.foldl (initializeFaction E) m) := by
    intro l
    induction l with
    | nil => exact fun seen m h => h
    | cons e l ih =>
      intro seen m h
      rw [List.foldl_cons, List.filter_cons]
      by_cases he : 0 ≤ e.reputationListID
      · have hlisted : e.canHaveReputation = true := decide_eq_true he
        rw [if_pos hlisted, List.reverse_cons, List.append_assoc]
        exact ih _ _ (h.step he)
      have hlisted : ¬ e.canHaveReputation = true := by simpa [FactionEntry.canHaveReputation] using he
      rw [if_neg hlisted, show initializeFaction E m e = m by
        unfold initializeFaction
        rw [if_neg he]]
      exact ih _ _ h
  have hall := hfold E.store.entries [] ⟨.empty, 0, 0, 0, 0⟩ ⟨rfl, rfl, rfl, rfl⟩
  rw [List.append_nil] at hall
  exact hall

theorem getRank_initializeFactions (hd : E.DistinctLists) (he : e ∈ E.listed) :
    (initializeFactions E).getRank E e = E.getBaseRank e := by
  rw [getRank_of he (standingAt_initializeFactions hd he), Int.add_zero, base_int32 (Env.mem_listed.1 he).1]
  rfl

theorem initializeFactions_counted (hd : E.DistinctLists) : Counted E (fun _ => False) (initializeFactions E) := by
  have hstart := started_initializeFactions E
  have hrank : ∀ rank : ReputationRank, E.listed.reverse.countP (fun e => rank ≤ E.getBaseRank e) =
      numberAt E rank (initializeFactions E) := by
    intro rank
    rw [List.countP_reverse]
    exact List.countP_congr fun e he => by rw [getRank_initializeFactions hd he]
  refine ⟨⟨fun k f hf => ?_, ?_⟩, ⟨?_, ?_, ?_⟩, fun _ _ hc => hc.elim⟩
  · rw [find?_initializeFactions] at hf
    obtain ⟨e, he, -⟩ := Option.map_eq_some_iff.1 hf
    exact ⟨e, Env.owner_some he⟩
  · unfold Shown numberVisible
    rw [hstart.visible, List.countP_reverse]
    refine congrArg _ (List.countP_congr fun e he => ?_)
    rw [isVisible_listed he]
    unfold visibleAt
    rw [find?_initializeFactions, owner_listed hd he]
    rfl
  · rw [hstart.honored, hrank]
  · rw [hstart.revered, hrank]
  · rw [hstart.exalted, hrank]

/-- The flags of a row, once its standing is in place. -/
def loadFlags (E : Env) (e : FactionEntry) (flags : FactionFlags) (m : ReputationMgr) : ReputationMgr :=
  let k := e.reputationListID
  let m := if flags.visible then m.setVisibleState k else m
  let m := if flags.inactive then m.modify k (·.setInactive true) else m
  let m :=
    if flags.atWar then m.modify k (·.setAtWar true)
    else m.modify k fun f => if f.flags.visible then f.setAtWar false else f
  let m := if m.getRank E e ≤ .hostile then m.modify k (·.setAtWar true) else m
  m.modify k fun f => if f.flags = flags then { f with needSave := false } else f

theorem loadRow_none (h : ∀ e, E.store.lookupEntry row.1 = some e → m.getState e = none) : loadRow E m row = m := by
  unfold loadRow
  split
  · rfl
  next e he => rw [h e he]

theorem loadRow_some (he : E.store.lookupEntry row.1 = some e)
    (hf : m.getState e = some f) : loadRow E m row = loadFlags E e row.2.flags
      ((m.modify e.reputationListID fun f => { f with standing := row.2.standing }).updateRankCounters
        (reputationToRank (E.getBaseReputation e))
        (reputationToRank (int32 (E.getBaseReputation e + row.2.standing)))) := by
  unfold loadRow
  rw [he]
  dsimp only
  rw [hf]
  rfl

theorem clearWar_standing (f : FactionState) :
    (if f.flags.visible then f.setAtWar false else f).standing = f.standing := by
  split
  · exact setAtWar_standing false f
  · rfl

theorem clearWar_visible (f : FactionState) :
    (if f.flags.visible then f.setAtWar false else f).flags.visible = f.flags.visible := by
  split
  · exact setAtWar_visible false f
  · rfl

theorem saved_standing (flags : FactionFlags) (f : FactionState) :
    (if f.flags = flags then { f with needSave := false } else f).standing = f.standing := by
  split <;> rfl

theorem saved_visible (flags : FactionFlags) (f : FactionState) :
    (if f.flags = flags then { f with needSave := false } else f).flags.visible = f.flags.visible := by
  split <;> rfl

/-- What neither a write of other flags nor a `SetVisible` breaks, the flags of a row do not break. -/
theorem loadFlags_keeps (e : FactionEntry) (flags : FactionFlags) (hm : P m)
    (hvisible : ∀ m, P m → P (m.setVisibleState e.reputationListID))
    (hmodify : ∀ m (g : FactionState → FactionState), (∀ f, (g f).standing = f.standing) →
      (∀ f, (g f).flags.visible = f.flags.visible) → P m → P (m.modify e.reputationListID g)) :
    P (loadFlags E e flags m) := by
  unfold loadFlags
  dsimp only
  have h₁ : P (if flags.visible then m.setVisibleState e.reputationListID else m) := by
    split
    · exact hvisible _ hm
    · exact hm
  generalize (if flags.visible then m.setVisibleState e.reputationListID else m) = m₁ at h₁ ⊢
  have h₂ : P (if flags.inactive then m₁.modify e.reputationListID (·.setInactive true) else m₁) := by
    split
    · exact hmodify _ _ (setInactive_standing true) (setInactive_visible true) h₁
    · exact h₁
  generalize (if flags.inactive then m₁.modify e.reputationListID (·.setInactive true) else m₁) = m₂ at h₂ ⊢
  have h₃ : P (if flags.atWar then m₂.modify e.reputationListID (·.setAtWar true)
      else m₂.modify e.reputationListID fun f => if f.flags.visible then f.setAtWar false else f) := by
    split
    · exact hmodify _ _ (setAtWar_standing true) (setAtWar_visible true) h₂
    · exact hmodify _ _ clearWar_standing clearWar_visible h₂
  generalize (if flags.atWar then m₂.modify e.reputationListID (·.setAtWar true)
      else m₂.modify e.reputationListID fun f => if f.flags.visible then f.setAtWar false else f) = m₃ at h₃ ⊢
  refine hmodify _ _ (saved_standing flags) (saved_visible flags) ?_
  split
  · exact hmodify _ _ (setAtWar_standing true) (setAtWar_visible true) h₃
  · exact h₃

theorem loadFlags_sameRanks (flags : FactionFlags) : SameRanks m (loadFlags E e flags m) :=
  loadFlags_keeps (P := fun m' => SameRanks m m') e flags .refl (fun _ h => h.trans setVisibleState_sameRanks)
    fun _ _ hs _ h => h.trans (modify_sameRanks hs)

theorem Tracked.loadFlags (hd : E.DistinctLists) (h : Tracked E m) (flags : FactionFlags) :
    Tracked E (loadFlags E e flags m) :=
  loadFlags_keeps e flags h (fun _ h => h.setVisibleState hd) fun _ _ _ hv h => h.modify hv

/-- A row for a faction whose standing was the base. -/
theorem loadRow_counted (hd : E.DistinctLists) {row : Nat × ReputationRow} (h : Counted E (fun _ => False) m)
    (hzero : ∀ e, E.store.lookupEntry row.1 = some e → ∀ s, standingAt m e.reputationListID = some s → s = 0) :
    Counted E (fun _ => False) (loadRow E m row) ∧ ∀ e ∈ E.listed, e.id ≠ row.1 →
      standingAt (loadRow E m row) e.reputationListID = standingAt m e.reputationListID := by
  by_cases hnone : ∀ e, E.store.lookupEntry row.1 = some e → m.getState e = none
  · rw [loadRow_none hnone]
    exact ⟨h, fun _ _ _ => rfl⟩
  push Not at hnone
  obtain ⟨e, he, hf⟩ := hnone
  obtain ⟨f, hf⟩ := Option.ne_none_iff_exists'.1 hf
  rw [loadRow_some he hf]
  unfold getState at hf
  split at hf
  next hlist =>
    obtain ⟨hmem, hid⟩ := FactionStore.mem_of_lookupEntry he
    have hlisted : e ∈ E.listed := List.mem_filter.2 ⟨hmem, hlist⟩
    have hold : standingAt m e.reputationListID = some 0 := by
      have hs := congrArg (Option.map (·.standing)) hf
      rw [← hzero e he _ hs]
      exact hs
    have hstanding : ∀ k, standingAt (m.modify e.reputationListID fun f => { f with standing := row.2.standing }) k =
        if k = e.reputationListID then some row.2.standing else standingAt m k := by
      intro k
      rw [standingAt_modify, hf, Option.map_some]
    generalize hm₁ : (m.modify e.reputationListID fun f => { f with standing := row.2.standing }) = m₁ at hstanding ⊢
    have hcounts : SameCounts m m₁ := by
      rw [← hm₁]
      exact modify_counts ..
    have htracked : Tracked E m₁ := by
      rw [← hm₁]
      exact h.tracked.modify fun _ => rfl
    have hnew : standingAt m₁ e.reputationListID = some row.2.standing := by rw [hstanding, if_pos rfl]
    have hmove := h.ranked.move hd hlisted hold hnew (fun k hk => by rw [hstanding, if_neg hk]) hcounts
    rw [Int.add_zero, base_int32 hmem] at hmove
    refine ⟨⟨(htracked.updateRankCounters _ _).loadFlags hd _, hmove.same (loadFlags_sameRanks _),
      fun _ _ hc => hc.elim⟩, fun e' he' hne => ?_⟩
    rw [(loadFlags_sameRanks _).standing]
    show standingAt m₁ _ = _
    rw [hstanding, if_neg fun heq => hne (by rw [hd.eq he' hlisted heq, hid])]
  next => cases hf

theorem loadFromDB_counted (hd : E.DistinctLists) {rows : List (Nat × ReputationRow)}
    (hrows : (rows.map Prod.fst).Nodup) : Counted E (fun _ => False) (loadFromDB E rows) := by
  -- the rows still to come find their standings at 0
  have hfold : ∀ (rows : List (Nat × ReputationRow)) (m : ReputationMgr), (rows.map Prod.fst).Nodup →
      Counted E (fun _ => False) m →
      (∀ e ∈ E.listed, e.id ∈ rows.map Prod.fst → standingAt m e.reputationListID = some 0) →
      Counted E (fun _ => False) (rows.foldl (loadRow E) m) := by
    intro rows
    induction rows with
    | nil => exact fun m _ h _ => h
    | cons row rows ih =>
      intro m hrows h hzero
      obtain ⟨hrow, hrows⟩ := List.nodup_cons.1 hrows
      have hstep := @loadRow_counted E m hd row h fun e he s hs => by
        obtain ⟨f, hf, -⟩ := Option.map_eq_some_iff.1 hs
        obtain ⟨hmem, hid⟩ := FactionStore.mem_of_lookupEntry he
        have hlisted := h.tracked.listed hmem hf
        rw [hzero e hlisted (hid ▸ List.mem_cons_self)] at hs
        exact (Option.some.inj hs).symm
      refine ih _ hrows hstep.1 fun e he hmem => ?_
      rw [hstep.2 e he fun heq => hrow (heq ▸ hmem)]
      exact hzero e he (List.mem_cons_of_mem _ hmem)
  exact hfold rows _ hrows (initializeFactions_counted hd) fun e he _ => standingAt_initializeFactions hd he

/-! ## Runs -/

theorem Reached.counted (hd : E.DistinctLists) (h : Reached E m changed) : Counted E changed m := by
  induction h with
  | fresh => exact initializeFactions_counted hd
  | load rows hrows => exact loadFromDB_counted hd hrows
  | setReputation standing incremental spillOverOnly res _ he hset ih => exact ih.setReputation hd he hset
  | setVisible e _ ih => exact setVisible_keeps (fun k => ih.setVisibleState hd k) ih e
  | setTemplateVisible faction _ ih => exact setTemplateVisible_keeps (fun k => ih.setVisibleState hd k) ih faction

/-- The counters are the numbers of factions, as far as 8 bits go. -/
structure CountersExact (E : Env) (m : ReputationMgr) : Prop where
  visible : m.visibleFactionCount.toNat = numberVisible E m % 256
  honored : m.honoredFactionCount.toNat = numberAt E .honored m % 256
  revered : m.reveredFactionCount.toNat = numberAt E .revered m % 256
  exalted : m.exaltedFactionCount.toNat = numberAt E .exalted m % 256

/-- In every state reached, the counters are these numbers modulo 256, and what `SetReputation` changed is in range. -/
theorem counters_modulo (hd : E.DistinctLists) (h : Reached E m changed) :
    CountersExact E m ∧ ∀ e ∈ E.listed, changed e.reputationListID → inRange (m.getReputation E e) := by
  have hcounted := h.counted hd
  refine ⟨⟨?_, ?_, ?_, ?_⟩, hcounted.ranged⟩
  · rw [hcounted.tracked.shown, UInt8.toNat_ofNat']
  · rw [hcounted.ranked.honored, UInt8.toNat_ofNat']
  · rw [hcounted.ranked.revered, UInt8.toNat_ofNat']
  · rw [hcounted.ranked.exalted, UInt8.toNat_ofNat']

/-- A faction at neutral, with the visible flag. -/
def plainFaction (i : Nat) : FactionEntry :=
  ⟨i + 1, i, fun _ => 1, fun _ => 0, fun _ => 0, fun _ => { FactionFlags.none with visible := true }, 0, 1, 0, 0⟩

/-- A table of such factions. -/
def plainStore (n : Nat) (hn : n < 2 ^ 16 - 1) : FactionStore where
  entries := (List.range n).map plainFaction
  sorted := List.pairwise_map.2 (List.pairwise_lt_range.imp fun h => Nat.succ_lt_succ h)
  ids e he := by
    obtain ⟨i, hi, rfl⟩ := List.mem_map.1 he
    have hlt := List.mem_range.1 hi
    show 0 < i + 1 ∧ i + 1 < 2 ^ 16
    omega
  values e he i := by
    obtain ⟨_, _, rfl⟩ := List.mem_map.1 he
    show -2 ^ 31 ≤ (0 : Int) ∧ (0 : Int) < 2 ^ 31
    omega

def plainEnv (n : Nat) (hn : n < 2 ^ 16 - 1) : Env := ⟨plainStore n hn, fun _ => none, 1, id, 1, 1⟩

theorem plainEnv_listed (n : Nat) (hn : n < 2 ^ 16 - 1) : (plainEnv n hn).listed = (List.range n).map plainFaction :=
  List.filter_eq_self.2 fun e he => by
    obtain ⟨i, _, rfl⟩ := List.mem_map.1 he
    exact decide_eq_true (Int.natCast_nonneg i)

theorem plainEnv_distinct (n : Nat) (hn : n < 2 ^ 16 - 1) : (plainEnv n hn).DistinctLists := by
  unfold Env.DistinctLists
  rw [plainEnv_listed, List.map_map]
  exact List.nodup_range.map fun i j h => Int.ofNat.inj h

theorem plainEnv_flags (n : Nat) (hn : n < 2 ^ 16 - 1) (i : Nat) :
    ((plainEnv n hn).getDefaultStateFlags (plainFaction i)).visible = true := by
  have hrow : (plainEnv n hn).baseRow (plainFaction i) = some 0 := by
    unfold Env.baseRow
    rw [show List.finRange 4 = [0, 1, 2, 3] by decide, List.find?_cons_of_pos]
    simp [plainFaction, plainEnv]
  unfold Env.getDefaultStateFlags
  rw [hrow]
  rfl

def twoFactions : Env := plainEnv 2 (by decide)

/-- The standing of the first of two factions, set above the highest. -/
def afterGift : ReputationMgr :=
  ((initializeFactions twoFactions).setOneFactionReputation twoFactions (plainFaction 0) 50000 false).2

theorem counters_after_gift :
    CountersExact twoFactions afterGift ∧ inRange (afterGift.getReputation twoFactions (plainFaction 0)) := by
  have hd : twoFactions.DistinctLists := plainEnv_distinct 2 (by decide)
  have hmem : plainFaction 0 ∈ twoFactions.listed := List.mem_filter.2 ⟨List.mem_cons_self, rfl⟩
  have hreached : Reached twoFactions afterGift _ :=
    .setReputation 50000 false false true .fresh (Env.mem_listed.1 hmem).1 rfl
  have hstanding : standingAt afterGift (plainFaction 0).reputationListID = some (int32 42999) := rfl
  refine ⟨(counters_modulo hd hreached).1, (counters_modulo hd hreached).2 _ hmem (.inr ?_)⟩
  rw [hstanding, int32_small (by decide) (by decide), standingAt_initializeFactions hd hmem]
  decide

/-- The counter of 256 visible factions is 0. -/
theorem visible_counter_wraps : ∃ (E : Env) (m : ReputationMgr) (changed : Int → Prop), E.DistinctLists ∧
    Reached E m changed ∧ m.visibleFactionCount.toNat = 0 ∧ numberVisible E m = 256 := by
  have hd := plainEnv_distinct 256 (by decide)
  have hall : numberVisible (plainEnv 256 (by decide)) (initializeFactions (plainEnv 256 (by decide))) = 256 := by
    unfold numberVisible
    rw [List.countP_eq_length.2 fun e he => ?_, plainEnv_listed, List.length_map, List.length_range]
    rw [isVisible_listed he]
    unfold visibleAt
    rw [find?_initializeFactions, owner_listed hd he]
    rw [plainEnv_listed] at he
    obtain ⟨i, _, rfl⟩ := List.mem_map.1 he
    exact plainEnv_flags 256 (by decide) i
  refine ⟨plainEnv 256 (by decide), _, _, hd, .fresh, ?_, hall⟩
  rw [(initializeFactions_counted hd).tracked.shown, hall]
  rfl

end AtlasWow.Reputation
