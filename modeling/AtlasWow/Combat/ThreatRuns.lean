/-
Threat implies combat: a unit fights everybody on its threat list. With the
invariants of the two systems this is kept by every call, so it holds in every
world reached (`reached_worldInv`).
-/
import AtlasWow.Combat.CombatRuns
import AtlasWow.Combat.ThreatPlaces

namespace AtlasWow.Combat

variable {P : Platform} {env : Env P} {can : ObjectGuid → Bool} {c c' : CombatState} {s s' : ThreatState P}
  {w w' : World P} {a b o : ObjectGuid} {ref : CombatReference} {pvp im : Bool} {rest : List (ObjectGuid × RefId)}
  {amount : Fl P.fmt} {spell : Option SpellInfo} {f : ThreatState P → Option (ThreatState P)}

/-- A unit is in combat with everybody it has a threat reference for. -/
def Fighting (c : CombatState) (s : ThreatState P) : Prop :=
  ∀ o v t, Threatens s o v t → isInCombatWith c o v = true

/-- The invariant of the two systems together. -/
structure WorldInv (w : World P) : Prop where
  combat : CombatInv w.combat
  threat : ThreatInv w.threat
  fighting : Fighting w.combat w.threat

theorem worldInv_init (can : ObjectGuid → Bool) : WorldInv (World.init P can) :=
  ⟨combatInv_init, threatInv_init can, fun _ _ _ ⟨_, h, _⟩ => by cases h⟩

theorem Fighting.fewer (h : Fighting c s) (hs : Fewer s s') : Fighting c s' :=
  fun o v t ht => h o v t (hs.threatens o v t ht)

/-! ## Calls that keep everybody in combat -/

theorem isInCombatWith_iff : isInCombatWith c a b = true ↔ ∃ pvp r, ((c.unit a).refsOf pvp).find? b = some r := by
  simp only [isInCombatWith, Bool.or_eq_true, Option.isSome_iff_exists, Bool.exists_bool]
  exact Iff.rfl

/-- From `c` to `c'` nobody leaves combat. -/
def MoreCombat (c c' : CombatState) : Prop := ∀ a b, isInCombatWith c a b = true → isInCombatWith c' a b = true

theorem MoreCombat.trans {c'' : CombatState} (h : MoreCombat c c') (h' : MoreCombat c' c'') : MoreCombat c c'' :=
  fun a b hab => h' a b (h a b hab)

theorem MoreCombat.of_maps (h : ∀ u pvp, (c'.unit u).refsOf pvp = (c.unit u).refsOf pvp) : MoreCombat c c' :=
  fun a b hab => by
    rw [isInCombatWith_iff] at hab ⊢
    simpa only [h] using hab

theorem SameMaps.moreCombat (h : SameMaps c c') : MoreCombat c c' := .of_maps h.maps

theorem Fighting.more (h : Fighting c s) (hc : MoreCombat c c') : Fighting c' s :=
  fun o v t ht => hc o v (h o v t ht)

variable {r : RefId} {who owner target : ObjectGuid}

theorem unsuppressFirst_more : MoreCombat c (unsuppressFirst env can c r ref) := by
  unfold unsuppressFirst
  split
  · exact (sameMaps_updateOwnerCombatState (s := c.setRef r _)).moreCombat
  · exact fun _ _ h => h

theorem unsuppressSecond_more : MoreCombat c (unsuppressSecond env can c r ref) := by
  unfold unsuppressSecond
  split
  · exact (sameMaps_updateOwnerCombatState (s := c.setRef r _)).moreCombat
  · exact fun _ _ h => h

theorem refresh_more (h : refresh env can c r = some c') : MoreCombat c c' := by
  simp only [refresh, Option.bind_eq_bind, Option.bind_eq_some_iff] at h
  obtain ⟨ref, -, h⟩ := h
  cases h
  exact (unsuppressFirst_more (c := c.setRef r _)).trans unsuppressSecond_more

theorem suppressFor_more (h : suppressFor env can c r who = some c') : MoreCombat c c' := by
  simp only [suppressFor, Option.bind_eq_bind, Option.bind_eq_some_iff] at h
  obtain ⟨ref, -, h⟩ := h
  cases h
  exact (sameMaps_updateOwnerCombatState (s := c.setRef r _)).moreCombat

theorem suppressPvPCombat_more (h : suppressPvPCombat env can c owner = some c') : MoreCombat c c' := by
  simp only [suppressPvPCombat, Option.bind_eq_bind, Option.bind_eq_some_iff] at h
  obtain ⟨c₁, h₁, h⟩ := h
  cases h
  refine MoreCombat.trans ?_ sameMaps_updateOwnerCombatState.moreCombat
  refine foldlM_invariant (MoreCombat c) (fun e a b ha hab => ?_) (fun _ _ h => h) h₁
  simp only [Option.bind_eq_some_iff] at hab
  obtain ⟨ref, -, hab⟩ := hab
  cases hab
  exact ha

theorem putReference_more (h : putReference env c a b r = some c') : MoreCombat c c' := by
  obtain ⟨ref, hr⟩ : ∃ ref, c.refs r = some ref := by
    simp only [putReference, Option.bind_eq_bind, Option.bind_eq_some_iff] at h
    obtain ⟨ref, hr, -⟩ := h
    exact ⟨ref, hr⟩
  obtain ⟨-, -, -, hm⟩ := putReference_spec hr h
  intro x y hxy
  rw [isInCombatWith_iff] at hxy ⊢
  obtain ⟨q, r', h'⟩ := hxy
  refine ⟨q, ?_⟩
  rw [hm]
  split
  · exact ⟨r, rfl⟩
  · exact ⟨r', h'⟩

/-- `SetInCombatWith` ends nobody's combat, and when it answers yes the two are in combat. -/
theorem setInCombatWith_more {b : Bool} (h : setInCombatWith env can c owner who = some (c', b)) :
    MoreCombat c c' ∧ (b = true → isInCombatWith c' owner who = true) := by
  unfold setInCombatWith at h
  split at h
  next r hr =>
    simp only [Option.map_eq_some_iff, Prod.mk.injEq] at h
    obtain ⟨c₁, h, rfl, -⟩ := h
    have hm := refresh_more h
    exact ⟨hm, fun _ => hm _ _ (isInCombatWith_iff.2 ⟨true, r, hr⟩)⟩
  next =>
  split at h
  next hr =>
    cases h
    exact ⟨fun _ _ h => h, fun _ => by simp [isInCombatWith, hr]⟩
  split at h
  · cases h; exact ⟨fun _ _ h => h, fun h => by cases h⟩
  simp only [Option.bind_eq_bind, Option.bind_eq_some_iff] at h
  obtain ⟨c₁, h₁, c₂, h₂, h⟩ := h
  cases h
  refine ⟨?_, fun h => h⟩
  exact ((putReference_more h₁).trans (putReference_more h₂)).trans
    (sameMaps_updateOwnerCombatState.trans sameMaps_updateOwnerCombatState).moreCombat

theorem inheritCombatStatesFrom_more (h : inheritCombatStatesFrom env can c owner who = some c') : MoreCombat c c' := by
  have round : ∀ e a b, MoreCombat c a → inheritCombatState env can owner who a e = some b → MoreCombat c b := by
    intro e a b ha h
    simp only [inheritCombatState] at h
    split at h
    · cases h; exact ha
    simp only [Option.bind_eq_bind, Option.bind_eq_some_iff] at h
    obtain ⟨ref, -, h⟩ := h
    split at h
    · cases h; exact ha
    simp only [Option.map_eq_some_iff] at h
    obtain ⟨⟨s₁, b⟩, h, rfl⟩ := h
    exact ha.trans (setInCombatWith_more h).1
  simp only [inheritCombatStatesFrom, Option.bind_eq_bind, Option.bind_eq_some_iff] at h
  obtain ⟨c₁, h₁, h₂⟩ := h
  exact foldlM_invariant _ round (foldlM_invariant _ round (fun _ _ h => h) h₁) h₂

/-! ## Ending combat -/

/-- `EndCombat` clears the threat between the two before their reference goes. -/
theorem endCombat_fighting {r : RefId} {ref : CombatReference} (hr : w.combat.refs r = some ref)
    (hi : ThreatInv w.threat)
    (hf : ∀ o v t, Threatens w.threat o v t → ¬ ref.Joins o v → isInCombatWith w.combat o v = true)
    (h : endCombat env w r = some w') : ThreatInv w'.threat ∧ Fighting w'.combat w'.threat := by
  obtain ⟨s₁, h₁, hi₁, hf₁, hn₁⟩ := (@clearThreat_spec _ env) ref.first ref.second hi
  obtain ⟨s₂, h₂, hi₂, hf₂, hn₂⟩ := (@clearThreat_spec _ env) ref.second ref.first hi₁
  simp only [endCombat, hr, h₁, h₂, Option.bind_eq_bind, Option.bind_some, Option.some.injEq] at h
  subst h
  refine ⟨hi₂, fun o v t ht => ?_⟩
  have hj : ¬ ref.Joins o v := by
    rintro (⟨rfl, rfl⟩ | ⟨rfl, rfl⟩)
    · exact hn₁ t (hf₂.threatens _ _ _ ht)
    · exact hn₂ t ht
  have := hf o v t (hf₁.threatens _ _ _ (hf₂.threatens _ _ _ ht)) hj
  rw [isInCombatWith_iff] at this ⊢
  obtain ⟨pvp, r', h'⟩ := this
  exact ⟨pvp, r', by rw [find?_endReference, if_neg fun hc => hj hc.2]; exact h'⟩

theorem WorldInv.endCombat (hi : WorldInv w) (h : endCombat env w r = some w') : WorldInv w' := by
  obtain ⟨ref, hr, -⟩ := endCombat_combat h
  obtain ⟨ht, hf⟩ := endCombat_fighting hr hi.threat (fun o v t h _ => hi.fighting o v t h) h
  exact ⟨hi.combat.endCombat h, ht, hf⟩

/-- What the loops over the owner's map keep. -/
def WorldAhead (owner : ObjectGuid) (pvp : Bool) (rest : List (ObjectGuid × RefId)) (w : World P) : Prop :=
  Ahead owner pvp rest w.combat ∧ ThreatInv w.threat ∧ Fighting w.combat w.threat

theorem WorldAhead.inv (h : WorldAhead owner pvp rest w) : WorldInv w := ⟨h.1.1, h.2.1, h.2.2⟩

theorem eraseAndEndCombat_worldAhead {e : ObjectGuid × RefId} (ha : WorldAhead owner pvp (e :: rest) w)
    (h : eraseAndEndCombat env w owner pvp e = some w') : WorldAhead owner pvp rest w' := by
  obtain ⟨ref, hr, hp, hj, -⟩ := ha.1.1.views.end_of_entry (ha.1.2.2 e (by simp))
  refine ⟨eraseAndEndCombat_ahead ha.1 h, ?_⟩
  refine (@endCombat_fighting _ _ { w with combat := purgeReference w.combat owner e.1 pvp } _ _ ref) ?_ ha.2.1 (fun o v t ht hn => ?_) h
  · simpa only [(refs_purgeReference w.combat owner e.1 pvp).1] using hr
  · have := ha.2.2 o v t ht
    rw [isInCombatWith_iff] at this ⊢
    obtain ⟨q, r, h'⟩ := this
    refine ⟨q, r, ?_⟩
    rw [find?_purgeReference, if_neg]
    · exact h'
    · rintro ⟨rfl, -, rfl⟩
      exact hn hj

section

variable (hi : WorldInv w)

include hi

theorem WorldInv.updateCombat {tdiff : Nat} (h : updateCombat env w owner tdiff = some w') : WorldInv w' := by
  refine (foldlM_invariant_rest (WorldAhead owner true) ?_ ⟨ahead_entries hi.combat, hi.threat, hi.fighting⟩ h).inv
  intro e rest a b ha hab
  simp only [updateEntry, Option.bind_eq_bind, Option.bind_eq_some_iff] at hab
  obtain ⟨ref, hr, hab⟩ := hab
  split at hab
  · split at hab
    next ref' hup =>
      cases hab
      refine ⟨ha.1.tail (ha.1.1.setRef_same hr ?_ ?_) fun _ _ => rfl, ha.2⟩
      · unfold CombatReference.update at hup
        split at hup <;> cases hup
        exact ⟨rfl, rfl, rfl⟩
      · unfold CombatReference.update at hup
        split at hup <;> cases hup
        exact fun _ => rfl
    next => exact eraseAndEndCombat_worldAhead ha hab
  · cases hab
    exact ⟨ha.1.tail ha.1.1 fun _ _ => rfl, ha.2⟩

theorem WorldInv.endCombatBeyondRange {range : ℚ} {includingPvP : Bool} (h : endCombatBeyondRange env w owner range includingPvP = some w') : WorldInv w' := by
  have loop : ∀ pvp {w w' : World P}, WorldInv w →
      ((w.combat.unit owner).refsOf pvp).entries.foldlM (endIfBeyondRange env owner range pvp) w = some w' →
      WorldInv w' := by
    intro pvp w w' hi h
    refine (foldlM_invariant_rest (WorldAhead owner pvp) ?_ ⟨ahead_entries hi.combat, hi.threat, hi.fighting⟩ h).inv
    intro e rest a b ha hab
    simp only [endIfBeyondRange, Option.bind_eq_bind, Option.bind_eq_some_iff] at hab
    obtain ⟨ref, hr, hab⟩ := hab
    split at hab
    · cases hab
      exact ⟨ha.1.tail ha.1.1 fun _ _ => rfl, ha.2⟩
    · exact eraseAndEndCombat_worldAhead ha hab
  simp only [Combat.endCombatBeyondRange, Option.bind_eq_bind, Option.bind_eq_some_iff] at h
  obtain ⟨w₁, h₁, h⟩ := h
  have hi₁ := loop false hi h₁
  split at h
  · cases h; exact hi₁
  · exact loop true hi₁ h

theorem WorldInv.endAllPvPCombat (h : endAllPvPCombat env w owner = some w') : WorldInv w' := by
  refine (whileLoop_invariant WorldInv ?_ hi h).1
  intro a b ha _ hab
  simp only [endFirstPvP, Option.bind_eq_bind, Option.bind_eq_some_iff] at hab
  obtain ⟨e, -, hab⟩ := hab
  exact ha.endCombat hab

theorem WorldInv.endAllPvECombat (h : endAllPvECombat env w owner = some w') : WorldInv w' := by
  obtain ⟨s₁, h₁, hi₁, hf₁, -⟩ := (@removeMeFromThreatLists_ends _ env) owner hi.threat
  obtain ⟨s₂, h₂, hi₂, hf₂, -⟩ := clearAllThreat_ends owner hi₁
  simp only [Combat.endAllPvECombat, h₁, h₂, Option.bind_eq_bind, Option.bind_some] at h
  have hw₂ : WorldInv { w with threat := s₂ } := ⟨hi.combat, hi₂, hi.fighting.fewer (hf₁.trans hf₂)⟩
  refine (whileLoop_invariant WorldInv ?_ hw₂ h).1
  intro a b ha _ hab
  simp only [endFirstPvE, Option.bind_eq_bind, Option.bind_eq_some_iff] at hab
  obtain ⟨e, -, hab⟩ := hab
  exact ha.endCombat hab

/-! ## AddThreat -/

theorem WorldInv.setInCombatWith {b : Bool} (h : w.setInCombatWith env owner who = some (w', b)) :
    WorldInv w' ∧ w'.threat = w.threat ∧ (b = true → isInCombatWith w'.combat owner who = true) := by
  have hc := hi.combat.worldSetInCombatWith h
  simp only [World.setInCombatWith, Option.map_eq_some_iff, Prod.mk.injEq] at h
  obtain ⟨⟨c, b'⟩, h, rfl, rfl⟩ := h
  obtain ⟨hm, hb⟩ := setInCombatWith_more h
  exact ⟨⟨hc, hi.threat, hi.fighting.more hm⟩, rfl, hb⟩

theorem WorldInv.addCombatOnly (h : addCombatOnly env w owner target = some w') : WorldInv w' := by
  simp only [Combat.addCombatOnly, Option.bind_eq_bind, Option.bind_eq_some_iff] at h
  obtain ⟨⟨w₁, b⟩, h₁, h⟩ := h
  obtain ⟨hi₁, -, -⟩ := hi.setInCombatWith h₁
  split at h
  · cases h; exact hi₁
  refine foldlM_invariant WorldInv (fun pair a b ha hab => ?_) hi₁ h
  split at hab
  · simp only [Option.map_eq_some_iff] at hab
    obtain ⟨⟨w₂, b₂⟩, hab, rfl⟩ := hab
    exact (ha.setInCombatWith hab).1
  · cases hab; exact ha

theorem WorldInv.applyThreat (h : applyThreat env w owner target amount = some w') : WorldInv w' := by
  simp only [Combat.applyThreat, Option.bind_eq_bind, Option.bind_eq_some_iff] at h
  obtain ⟨⟨w₁, b⟩, h₁, h⟩ := h
  obtain ⟨hi₁, -, hb⟩ := hi.setInCombatWith h₁
  split at h
  · cases h; exact hi₁
  next hin =>
  have hin : isInCombatWith w₁.combat owner target = true := hb (by simpa using hin)
  split at h
  · -- an old entry: references only move
    simp only [Option.bind_eq_some_iff] at h
    obtain ⟨s₁, hs₁, h⟩ := h
    cases h
    have hs := SamePlaces.addThreatToEntry hs₁
    exact ⟨hi₁.combat, hs.inv hi₁.threat, hi₁.fighting.fewer hs.sameLists.fewer⟩
  next hno =>
  simp only [Option.bind_eq_some_iff] at h
  obtain ⟨s₁, hs₁, h⟩ := h
  obtain ⟨ht₁, hm⟩ := addThreatEntry_inv hi₁.threat hno hs₁
  have hf₁ : Fighting w₁.combat s₁ := by
    intro o v t ht
    rcases hm.threatens o v t ht with ht | ⟨rfl, rfl⟩
    · exact hi₁.fighting o v t ht
    · exact hin
  split at h
  · cases h; exact ⟨hi₁.combat, ht₁, hf₁⟩
  simp only [Option.bind_eq_some_iff] at h
  obtain ⟨s₂, hs₂, h⟩ := h
  cases h
  obtain ⟨ht₂, hs⟩ := updateVictim_inv ht₁ hs₂
  have hm : SameMaps w₁.combat (w₁.combat.setUnit owner { w₁.combat.unit owner with isEngaged := true }) :=
    sameMaps_setUnit rfl rfl
  exact ⟨hi₁.combat.setUnit rfl rfl rfl, ht₂, (hf₁.fewer hs.fewer).more hm.moreCombat⟩

theorem WorldInv.addThreat {n : Nat}
    {ir : Bool} (h : addThreat env n w owner target amount spell im ir = some w') : WorldInv w' :=
  addThreat_invariant WorldInv (fun ha h => ha.addCombatOnly h) (fun ha h => ha.applyThreat h)
    (fun {w amount target spell im} ha => by
      have hs := SamePlaces.modifyAmount env w.threat amount target spell im
      exact ⟨ha.combat, hs.inv ha.threat, ha.fighting.fewer hs.sameLists.fewer⟩) hi h

theorem WorldInv.forwardThreat {me assistant : ObjectGuid} {baseAmount : Fl P.fmt} (h : forwardThreatForAssistingMe env w me assistant baseAmount spell im = some w') :
    WorldInv w' := by
  simp only [forwardThreatForAssistingMe] at h
  split at h
  · cases h; exact hi
  simp only [Option.bind_eq_bind, Option.bind_eq_some_iff] at h
  obtain ⟨owners, -, w₁, h₁, h₂⟩ := h
  exact foldlM_invariant WorldInv (fun _ _ _ ha hab => ha.addThreat hab)
    (foldlM_invariant WorldInv (fun _ _ _ ha hab => ha.addThreat hab) hi h₁) h₂

/-! ## Runs -/

theorem WorldInv.mapCombat {f : CombatState → Option CombatState}
    (hf : ∀ c', f w.combat = some c' → CombatInv c' ∧ MoreCombat w.combat c') (h : w.mapCombat f = some w') :
    WorldInv w' := by
  simp only [World.mapCombat, Option.map_eq_some_iff] at h
  obtain ⟨c', h, rfl⟩ := h
  obtain ⟨hc, hm⟩ := hf c' h
  exact ⟨hc, hi.threat, hi.fighting.more hm⟩

theorem WorldInv.mapThreat
    (hf : ∀ s', f w.threat = some s' → ThreatInv s' ∧ Fewer w.threat s') (h : w.mapThreat f = some w') :
    WorldInv w' := by
  simp only [World.mapThreat, Option.map_eq_some_iff] at h
  obtain ⟨s', h, rfl⟩ := h
  obtain ⟨ht, hs⟩ := hf s' h
  exact ⟨hi.combat, ht, hi.fighting.fewer hs⟩

/-- A call that only tunes references. -/
theorem WorldInv.tune
    (hf : ∀ s', f w.threat = some s' → SamePlaces w.threat s') (h : w.mapThreat f = some w') : WorldInv w' :=
  hi.mapThreat (fun s' hs => ⟨(hf s' hs).inv hi.threat, (hf s' hs).sameLists.fewer⟩) h

/-- Every call keeps the invariant of the two systems. -/
theorem step_worldInv {e : Env P × Op P} (h : step e w = some w') : WorldInv w' := by
  obtain ⟨env, op⟩ := e
  unfold step at h
  cases op with
  | setInCombatWith owner who =>
    simp only [Option.map_eq_some_iff] at h
    obtain ⟨⟨w₁, b⟩, h, rfl⟩ := h
    exact (hi.setInCombatWith h).1
  | endCombat r => exact hi.endCombat h
  | updateCombat owner tdiff => exact hi.updateCombat h
  | endCombatBeyondRange owner range includingPvP => exact hi.endCombatBeyondRange h
  | suppressPvPCombat owner =>
    exact hi.mapCombat (fun c hc => ⟨hi.combat.suppressPvPCombat hc, suppressPvPCombat_more hc⟩) h
  | refresh r =>
    simp only [Option.bind_eq_some_iff] at h
    obtain ⟨ref, -, h⟩ := h
    exact hi.mapCombat (fun c hc => ⟨hi.combat.refresh hc, refresh_more hc⟩) h
  | updateReference r tdiff =>
    simp only [Option.map_eq_some_iff, pvpReference, Option.filter_eq_some_iff] at h
    obtain ⟨ref, ⟨hr, -⟩, h⟩ := h
    split at h
    next ref' hup =>
      subst h
      unfold CombatReference.update at hup
      split at hup <;> cases hup
      exact ⟨hi.combat.setRef_same hr ⟨rfl, rfl, rfl⟩ fun _ => rfl, hi.threat, hi.fighting⟩
    next => subst h; exact hi
  | suppressFor r who =>
    simp only [Option.bind_eq_some_iff, pvpReference, Option.filter_eq_some_iff] at h
    obtain ⟨ref, ⟨hr, -⟩, h⟩ := h
    split at h
    next hw => exact hi.mapCombat (fun c hc => ⟨hi.combat.suppressFor hr hw hc, suppressFor_more hc⟩) h
    next => cases h
  | endAllPvECombat owner => exact hi.endAllPvECombat h
  | endAllPvPCombat owner => exact hi.endAllPvPCombat h
  | inheritCombatStatesFrom owner who =>
    exact hi.mapCombat (fun c hc => ⟨hi.combat.inheritCombatStatesFrom hc, inheritCombatStatesFrom_more hc⟩) h
  | addThreat => exact hi.addThreat h
  | forwardThreat => exact hi.forwardThreat h
  | matchUnitThreatToHighestThreat owner target =>
    simp only [matchUnitThreatToHighestThreat] at h
    split at h
    · cases h; exact hi
    · exact hi.addThreat h
  | scaleThreat => exact hi.tune (fun _ => SamePlaces.scaleThreat) h
  | modifyThreatByPercent => exact hi.tune (fun _ => SamePlaces.modifyThreatByPercent) h
  | refScaleThreat => exact hi.tune (fun _ => SamePlaces.refScaleThreat) h
  | refModifyThreatByPercent => exact hi.tune (fun _ => SamePlaces.refModifyThreatByPercent) h
  | resetAllThreat => exact hi.tune (fun _ => SamePlaces.resetAllThreat) h
  | tauntUpdate => exact hi.tune (fun _ => SamePlaces.tauntUpdate) h
  | evaluateSuppressed => exact hi.tune (fun _ => SamePlaces.evaluateSuppressed) h
  | updateMyTempModifiers => exact hi.tune (fun _ => SamePlaces.updateMyTempModifiers) h
  | updateMySpellSchoolModifiers me =>
    exact hi.tune (fun _ hs => by cases hs; exact SamePlaces.setMgr rfl rfl (.refl _) rfl rfl rfl) h
  | updateOffline => exact hi.tune (fun _ => SamePlaces.updateOffline) h
  | fixateTarget owner target =>
    refine hi.mapThreat (fun s' hs => ?_) h
    cases hs
    obtain ⟨ht, hs⟩ := (@fixateTarget_inv _ _ owner target) hi.threat
    exact ⟨ht, hs.fewer⟩
  | updateThreat =>
    exact hi.mapThreat (fun s' hs => by obtain ⟨ht, hs⟩ := updateThreat_inv hi.threat hs; exact ⟨ht, hs.fewer⟩) h
  | updateVictim =>
    exact hi.mapThreat (fun s' hs => by obtain ⟨ht, hs⟩ := updateVictim_inv hi.threat hs; exact ⟨ht, hs.fewer⟩) h
  | getCurrentVictim =>
    exact hi.mapThreat (fun s' hs => by obtain ⟨ht, hs⟩ := getCurrentVictim_inv hi.threat hs; exact ⟨ht, hs.fewer⟩) h
  | clearThreat owner target =>
    refine hi.mapThreat (fun s' hs => ?_) h
    obtain ⟨s₁, h₁, ht, hf, -⟩ := (@clearThreat_spec _ env) owner target hi.threat
    rw [h₁] at hs
    cases hs
    exact ⟨ht, hf⟩
  | clearAllThreat owner =>
    refine hi.mapThreat (fun s' hs => ?_) h
    obtain ⟨s₁, h₁, ht, hf, -⟩ := clearAllThreat_ends owner hi.threat
    rw [h₁] at hs
    cases hs
    exact ⟨ht, hf⟩
  | removeMeFromThreatLists me =>
    refine hi.mapThreat (fun s' hs => ?_) h
    obtain ⟨s₁, h₁, ht, hf, -⟩ := (@removeMeFromThreatLists_ends _ env) me hi.threat
    rw [h₁] at hs
    cases hs
    exact ⟨ht, hf⟩
  | registerRedirectThreat =>
    exact hi.tune (fun _ hs => by cases hs; exact SamePlaces.registerRedirectThreat _ _ _ _ _ _) h
  | unregisterRedirectThreat =>
    exact hi.tune (fun _ hs => by cases hs; exact SamePlaces.unregisterRedirectThreat _ _ _) h
  | unregisterRedirectThreatFor =>
    exact hi.tune (fun _ hs => by cases hs; exact SamePlaces.unregisterRedirectThreatFor _ _ _ _ _) h

end

theorem reached_worldInv (h : Reached w) : WorldInv w := by
  obtain ⟨can, h⟩ := h
  exact h.invariant WorldInv (fun _ _ _ hi _ hs => step_worldInv hi hs) (worldInv_init can)

/-- **Combat references stay symmetric, and the in-combat flag is theirs.** -/
theorem reached_combat_consistent {w : World P} (h : Reached w) : CombatConsistent w.combat :=
  (reached_worldInv h).combat.consistent

/-- A unit in combat with two others leaves one of them. -/
theorem reached_combat_consistent_three : ∃ w : World .plain,
    runSteps step [(Env.openField _, .setInCombatWith 1 2), (Env.openField _, .setInCombatWith 1 3),
      (Env.openField _, .endCombat 0)] (World.init .plain fun _ => false) = some w ∧
    CombatConsistent w.combat := by
  have h : (runSteps step [(Env.openField .plain, .setInCombatWith 1 2), (Env.openField _, .setInCombatWith 1 3),
      (Env.openField _, .endCombat 0)] (World.init .plain fun _ => false)).isSome = true := by decide
  obtain ⟨w, hw⟩ := Option.isSome_iff_exists.1 h
  exact ⟨w, hw, reached_combat_consistent ⟨_, Reaches.of_runSteps hw⟩⟩

/-! ## What is promised of the threat lists -/

/-- `o` and `v` hold one combat reference, with each other. -/
def JoinedInCombat (c : CombatState) (o v : ObjectGuid) : Prop :=
  ∃ r ref, c.refs r = some ref ∧ ref.Joins o v ∧
    ((c.unit o).refsOf ref.isPvP).find? v = some r ∧ ((c.unit v).refsOf ref.isPvP).find? o = some r

/-- The three places mirror each other, a threat reference implies a combat
reference, and the cached pointers are live references of their own list. -/
structure ThreatConsistent (w : World P) : Prop where
  list_iff_byMe : ∀ o v t, (w.threat.mgr o).myThreatListEntries.find? v = some t ↔
    (w.threat.mgr v).threatenedByMe.find? o = some t
  list_iff_sorted : ∀ o t, (∃ v, (w.threat.mgr o).myThreatListEntries.find? v = some t) ↔
    t ∈ P.heap.elems (w.threat.mgr o).sortedThreatList
  sorted_once : ∀ o, (P.heap.elems (w.threat.mgr o).sortedThreatList).Nodup
  list_iff_live : ∀ o v t, (w.threat.mgr o).myThreatListEntries.find? v = some t ↔
    ∃ ref, w.threat.refs t = some ref ∧ ref.owner = o ∧ ref.victim = v
  inCombat : ∀ o v t, (w.threat.mgr o).myThreatListEntries.find? v = some t → JoinedInCombat w.combat o v
  current : ∀ o t, (w.threat.mgr o).currentVictimRef = some t →
    ∃ v, (w.threat.mgr o).myThreatListEntries.find? v = some t
  fixate : ∀ o t, (w.threat.mgr o).fixateRef = some t →
    ∃ v, (w.threat.mgr o).myThreatListEntries.find? v = some t

/-- The loops of `ClearAllThreat` and `RemoveMeFromThreatLists` take one entry
each round, and end with an empty list. -/
structure ClearLoopsEnd (s : ThreatState P) : Prop where
  clearRound : ∀ o, (s.mgr o).myThreatListEntries.isEmpty = false → ∃ s', clearFirstEntry o s = some s' ∧
    (s'.mgr o).myThreatListEntries.size + 1 = (s.mgr o).myThreatListEntries.size
  clear : ∀ o, ∃ s', clearAllThreat s o = some s' ∧ (s'.mgr o).myThreatListEntries.isEmpty = true
  removeRound : ∀ (env : Env P) v, (s.mgr v).threatenedByMe.isEmpty = false →
    ∃ s', leaveFirstThreatList env v s = some s' ∧
      (s'.mgr v).threatenedByMe.size + 1 = (s.mgr v).threatenedByMe.size
  remove : ∀ (env : Env P) v, ∃ s', removeMeFromThreatLists env s v = some s' ∧
    (s'.mgr v).threatenedByMe.isEmpty = true

theorem ThreatInv.clearLoopsEnd (hi : ThreatInv s) : ClearLoopsEnd s where
  clearRound := fun o h => by
    obtain ⟨s', t, v, h', hu⟩ := clearFirstEntry_unlinked hi (by simpa using h)
    exact ⟨s', h', hu.list_size⟩
  clear := fun o => by
    obtain ⟨s', h, -, -, he⟩ := clearAllThreat_ends o hi
    exact ⟨s', h, he⟩
  removeRound := fun env v h => by
    obtain ⟨s', t, o, h', hu⟩ := (@leaveFirstThreatList_unlinked _ env) hi (by simpa using h)
    exact ⟨s', h', hu.byMe_size⟩
  remove := fun env v => by
    obtain ⟨s', h, -, -, he⟩ := (@removeMeFromThreatLists_ends _ env) v hi
    exact ⟨s', h, he⟩

theorem CombatInv.joinedInCombat {v : ObjectGuid} (hi : CombatInv c) (h : isInCombatWith c o v = true) :
    JoinedInCombat c o v := by
  obtain ⟨pvp, r, hr⟩ := isInCombatWith_iff.1 h
  obtain ⟨ref, href, rfl, hj⟩ := hi.views.sound pvp o v r hr
  exact ⟨r, ref, href, hj, hr, hi.views.symm hr⟩

theorem ThreatInv.onList_iff (hi : ThreatInv s) {t : ThreatId} :
    OnList s o t ↔ ∃ v, (s.mgr o).myThreatListEntries.find? v = some t := by
  constructor
  · rintro ⟨ref, ht, rfl⟩
    exact ⟨ref.victim, (hi.list _ _ _).2 (threatens_of_ref ht)⟩
  · rintro ⟨v, h⟩
    exact ((hi.list o v t).1 h).onList

theorem WorldInv.consistent (hi : WorldInv w) : ThreatConsistent w where
  list_iff_byMe := fun o v t => (hi.threat.list o v t).trans (hi.threat.byMe v o t).symm
  list_iff_sorted := fun o t => hi.threat.onList_iff.symm.trans (hi.threat.heap o t).symm
  sorted_once := hi.threat.nodup
  list_iff_live := hi.threat.list
  inCombat := fun o v t h => hi.combat.joinedInCombat (hi.fighting o v t ((hi.threat.list o v t).1 h))
  current := fun o t h => hi.threat.onList_iff.1 (hi.threat.current o t h)
  fixate := fun o t h => hi.threat.onList_iff.1 (hi.threat.fixate o t h)

/-- **Threat references live in three mirrored places and imply combat**, and
the loops that clear them end. -/
theorem reached_threat_consistent (h : Reached w) : ThreatConsistent w ∧ ClearLoopsEnd w.threat :=
  ⟨(reached_worldInv h).consistent, (reached_worldInv h).threat.clearLoopsEnd⟩

/-- A creature is attacked by two units, fixates one and forgets the other. -/
def skirmish : List (Env .plain × Op .plain) :=
  [(Env.openField _, .addThreat 1 2 (.ofInt 10) none false false), (Env.openField _, .addThreat 1 3 (.ofInt 20) none false false),
    (Env.openField _, .fixateTarget 1 (some 2)), (Env.openField _, .clearThreat 1 3)]

theorem reached_threat_consistent_skirmish : ∃ w : World .plain,
    runSteps step skirmish (World.init .plain fun u => u == 1) = some w ∧
    ThreatConsistent w ∧ ClearLoopsEnd w.threat := by
  have h : (runSteps step skirmish (World.init .plain fun u => u == 1)).isSome = true := by
    decide +kernel
  obtain ⟨w, hw⟩ := Option.isSome_iff_exists.1 h
  exact ⟨w, hw, reached_threat_consistent ⟨_, Reaches.of_runSteps hw⟩⟩

/-- The combat reference need not be a PvE one: a creature that a player
controls, but that keeps its threat list, and an enemy player. -/
theorem threat_with_pvp_reference : ¬ ∀ w : World .plain, Reached w →
    ∀ o v t, (w.threat.mgr o).myThreatListEntries.find? v = some t →
      ((w.combat.unit o).pveRefs.find? v).isSome = true ∧ ((w.combat.unit v).pveRefs.find? o).isSome = true := by
  intro hall
  let env : Env .plain := { Env.openField .plain with isControlledByPlayer := fun _ => true }
  let start : World .plain := World.init .plain fun u => u == 1
  have h : (step (env, .addThreat 1 2 (.ofInt 10) none false false) start).any (fun w =>
      (w.threat.mgr 1).myThreatListEntries.find? 2 = some 0 && !((w.combat.unit 1).pveRefs.find? 2).isSome) = true := by
    decide +kernel
  obtain ⟨w, hw, hb⟩ := (Option.any_eq_true _ _).1 h
  simp only [Bool.and_eq_true, decide_eq_true_eq, Bool.not_eq_true'] at hb
  have := (hall w ⟨_, .tail _ .refl trivial hw⟩ 1 2 0 hb.1).1
  rw [hb.2] at this
  cases this

end AtlasWow.Combat
