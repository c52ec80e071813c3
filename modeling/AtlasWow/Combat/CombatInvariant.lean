/-
What holds of the combat managers in every world reached: the two maps of a
unit are views of the live references. `refsOf_find?` of unit `a` at `b` is
the reference that joins `a` and `b`, so the maps are symmetric because
`Joins` is; and the in-combat flag is what `HasCombat` answers.

Inside a call the picture is broken in one place: a reference that is being
put or taken out (`Views (some r)`), and the flags of its two ends. Each
function is proved once, from that state to the full invariant.
-/
import AtlasWow.Combat.ThreatManager

namespace AtlasWow.Combat

variable {P : Platform} {env : Env P} {can : ObjectGuid → Bool} {s s' : CombatState} {gone : Option RefId} {x : Unit}
  {owner a b : ObjectGuid} {ref : CombatReference} {w w' : World P}

/-! ## The invariant -/

/-- The reference is between `a` and `b`, whichever way round. -/
def CombatReference.Joins (ref : CombatReference) (a b : ObjectGuid) : Prop :=
  (ref.first = a ∧ ref.second = b) ∨ (ref.first = b ∧ ref.second = a)

instance (ref : CombatReference) (a b : ObjectGuid) : Decidable (ref.Joins a b) :=
  inferInstanceAs (Decidable (_ ∨ _))

theorem CombatReference.Joins.symm {ref : CombatReference} {a b : ObjectGuid} (h : ref.Joins a b) :
    ref.Joins b a := Or.symm h

/-- The PvP map or the PvE map. -/
def Unit.refsOf (x : Unit) (pvp : Bool) : UMap ObjectGuid RefId := if pvp then x.pvpRefs else x.pveRefs

/-- The maps hold exactly the live references, except that `gone` may be
missing from them. -/
structure Views (gone : Option RefId) (s : CombatState) : Prop where
  sound : ∀ pvp a b r, ((s.unit a).refsOf pvp).find? b = some r →
    ∃ ref, s.refs r = some ref ∧ ref.isPvP = pvp ∧ ref.Joins a b
  complete : ∀ r ref a b, s.refs r = some ref → gone ≠ some r → ref.Joins a b →
    ((s.unit a).refsOf ref.isPvP).find? b = some r
  distinct : ∀ r ref, s.refs r = some ref → ref.first ≠ ref.second
  unique : ∀ r r' ref ref' a b, s.refs r = some ref → s.refs r' = some ref' →
    ref.Joins a b → ref'.Joins a b → r = r'
  fresh : ∀ r, s.nextRef ≤ r → s.refs r = none

/-- The in-combat flag of `u` is up to date. -/
def FlagOk (s : CombatState) (u : ObjectGuid) : Prop := (s.unit u).inCombat = hasCombat s u

/-- The invariant of the combat system. -/
structure CombatInv (s : CombatState) : Prop where
  views : Views none s
  flag : ∀ u, FlagOk s u

theorem Views.weaken (h : Views none s) : Views gone s :=
  { h with complete := fun r ref a b hr _ hj => h.complete r ref a b hr (by simp) hj }

theorem combatInv_init : CombatInv .init where
  views := {
    sound := by intro pvp a b r h; cases pvp <;> simp [CombatState.init, Unit.idle, Unit.refsOf] at h
    complete := by intro r ref a b h; cases h
    distinct := by intro r ref h; cases h
    unique := by intro r r' ref ref' a b h; cases h
    fresh := fun _ _ => rfl }
  flag := fun u => by
    simp [FlagOk, CombatState.init, hasCombat, hasPvECombat, hasPvPCombat, Unit.idle, UMap.empty, UMap.isEmpty]

/-! ## What a flag depends on -/

variable {u : ObjectGuid} {r : RefId}

theorem hasCombat_iff : hasCombat s u = true ↔ (∃ g r, ((s.unit u).refsOf false).find? g = some r) ∨
    ∃ g r, ((s.unit u).refsOf true).find? g = some r ∧ countsFor s u r = true := by
  have h₁ : hasPvECombat s u = true ↔ ∃ g r, ((s.unit u).refsOf false).find? g = some r := by
    rw [hasPvECombat, Bool.not_eq_true', ← Bool.not_eq_true, UMap.isEmpty_iff]
    simp [Unit.refsOf, Option.ne_none_iff_exists']
  have h₂ : hasPvPCombat s u = true ↔
      ∃ g r, ((s.unit u).refsOf true).find? g = some r ∧ countsFor s u r = true := by
    simp only [hasPvPCombat, List.any_eq_true, Unit.refsOf, if_true, ← UMap.mem_entries, Prod.exists]
  rw [hasCombat, Bool.or_eq_true, h₁, h₂]

/-- The flag of a unit is about its own maps and the references in them. -/
theorem hasCombat_congr {u : ObjectGuid} (hm : ∀ pvp g, ((s'.unit u).refsOf pvp).find? g = ((s.unit u).refsOf pvp).find? g)
    (hc : ∀ g r, ((s.unit u).refsOf true).find? g = some r → countsFor s' u r = countsFor s u r) :
    hasCombat s' u = hasCombat s u := by
  rw [Bool.eq_iff_iff, hasCombat_iff, hasCombat_iff]
  simp only [hm]
  refine or_congr Iff.rfl (exists_congr fun g => exists_congr fun r => and_congr_right fun hr => ?_)
  rw [hc g r hr]

/-- The same references in the same maps. -/
structure SameMaps (s s' : CombatState) : Prop where
  refs : s'.refs = s.refs
  nextRef : s'.nextRef = s.nextRef
  maps : ∀ u pvp, (s'.unit u).refsOf pvp = (s.unit u).refsOf pvp

theorem SameMaps.trans {s'' : CombatState} (h : SameMaps s s') (h' : SameMaps s' s'') : SameMaps s s'' :=
  ⟨h'.refs.trans h.refs, h'.nextRef.trans h.nextRef, fun u pvp => (h'.maps u pvp).trans (h.maps u pvp)⟩

theorem SameMaps.views (h : SameMaps s s') (hv : Views gone s) : Views gone s' where
  sound := by simpa only [h.refs, h.maps] using hv.sound
  complete := by simpa only [h.refs, h.maps] using hv.complete
  distinct := by simpa only [h.refs] using hv.distinct
  unique := by simpa only [h.refs] using hv.unique
  fresh := by simpa only [h.refs, h.nextRef] using hv.fresh

theorem SameMaps.hasCombat (h : SameMaps s s') (u : ObjectGuid) : hasCombat s' u = Combat.hasCombat s u :=
  hasCombat_congr (fun pvp g => by rw [h.maps]) fun g r _ => by rw [countsFor, countsFor, h.refs]

/-- A change of the flags of one unit other than `inCombat`, or of a unit's `inCombat`. -/
theorem sameMaps_setUnit (h₁ : x.pveRefs = (s.unit u).pveRefs)
    (h₂ : x.pvpRefs = (s.unit u).pvpRefs) : SameMaps s (s.setUnit u x) where
  refs := rfl
  nextRef := rfl
  maps := by
    intro v pvp
    by_cases hv : v = u
    · subst hv; cases pvp <;> simp [CombatState.setUnit, Unit.refsOf, h₁, h₂]
    · simp [CombatState.setUnit, hv]

theorem CombatInv.setUnit (h : CombatInv s) (h₁ : x.pveRefs = (s.unit u).pveRefs)
    (h₂ : x.pvpRefs = (s.unit u).pvpRefs) (h₃ : x.inCombat = (s.unit u).inCombat) : CombatInv (s.setUnit u x) where
  views := (sameMaps_setUnit h₁ h₂).views h.views
  flag := by
    intro v
    rw [FlagOk, (sameMaps_setUnit h₁ h₂).hasCombat v, ← h.flag v]
    by_cases hv : v = u
    · subst hv; simp [CombatState.setUnit, h₃]
    · simp [CombatState.setUnit, hv]

/-! ## UpdateOwnerCombatState -/

theorem sameMaps_updateMaster : SameMaps s (updateMaster env s owner) := by
  unfold updateMaster
  split
  · exact sameMaps_setUnit rfl rfl
  · exact ⟨rfl, rfl, fun _ _ => rfl⟩

theorem sameMaps_updateOwnerCombatState {owner : ObjectGuid} :
    SameMaps s (updateOwnerCombatState env can s owner).1 := by
  simp only [updateOwnerCombatState]
  split
  · exact ⟨rfl, rfl, fun _ _ => rfl⟩
  · have h : SameMaps s (setCombatFlag env can s owner (Combat.hasCombat s owner)) := sameMaps_setUnit rfl rfl
    exact h.trans sameMaps_updateMaster

theorem inCombat_updateMaster (owner v : ObjectGuid) :
    ((updateMaster env s owner).unit v).inCombat = (s.unit v).inCombat := by
  unfold updateMaster
  split
  · next master _ =>
    by_cases hv : v = master
    · subst hv; simp [updatePetCombatState, CombatState.setUnit]
    · simp [updatePetCombatState, CombatState.setUnit, hv]
  · rfl

/-- The flag of the owner becomes what `HasCombat` answers; the other flags stay. -/
theorem inCombat_updateOwnerCombatState (owner v : ObjectGuid) :
    ((updateOwnerCombatState env can s owner).1.unit v).inCombat =
      if v = owner then hasCombat s owner else (s.unit v).inCombat := by
  simp only [updateOwnerCombatState]
  split
  · next h =>
    split
    · next hv => rw [hv, h]
    · rfl
  simp only [inCombat_updateMaster]
  by_cases hv : v = owner
  · subst hv; simp [setCombatFlag, CombatState.setUnit]
  · simp [setCombatFlag, CombatState.setUnit, hv]

theorem flagOk_updateOwnerCombatState (h : ∀ v, v ≠ owner → FlagOk s v) (v : ObjectGuid) :
    FlagOk (updateOwnerCombatState env can s owner).1 v := by
  rw [FlagOk, inCombat_updateOwnerCombatState, sameMaps_updateOwnerCombatState.hasCombat v]
  split
  · next hv => rw [hv]
  · next hv => exact h v hv

/-- Bringing the flags of both ends up to date, with the flags of the others right. -/
theorem flagOk_updateBoth {a b : ObjectGuid} (h : ∀ v, v ≠ a → v ≠ b → FlagOk s v) (v : ObjectGuid) :
    FlagOk (updateOwnerCombatState env can (updateOwnerCombatState env can s a).1 b).1 v := by
  apply flagOk_updateOwnerCombatState
  intro v hb
  rw [FlagOk, inCombat_updateOwnerCombatState, sameMaps_updateOwnerCombatState.hasCombat v]
  split
  · next hv => rw [hv]
  · next hv => exact h v hv hb

/-! ## Putting and purging a reference -/

theorem find?_purgeReference (s : CombatState) (a b : ObjectGuid) (pvp : Bool) (u : ObjectGuid) (q : Bool)
    (g : ObjectGuid) : (((purgeReference s a b pvp).unit u).refsOf q).find? g =
      if u = a ∧ q = pvp ∧ g = b then none else ((s.unit u).refsOf q).find? g := by
  by_cases hu : u = a
  · subst hu
    cases pvp <;> cases q <;>
      simp [purgeReference, CombatState.setUnit, Unit.refsOf, UMap.find?_erase]
  · cases pvp <;> simp [purgeReference, CombatState.setUnit, hu]

theorem inCombat_purgeReference (s : CombatState) (a b : ObjectGuid) (pvp : Bool) (u : ObjectGuid) :
    ((purgeReference s a b pvp).unit u).inCombat = (s.unit u).inCombat := by
  by_cases hu : u = a
  · subst hu; cases pvp <;> simp [purgeReference, CombatState.setUnit]
  · cases pvp <;> simp [purgeReference, CombatState.setUnit, hu]

theorem refs_purgeReference (s : CombatState) (a b : ObjectGuid) (pvp : Bool) :
    (purgeReference s a b pvp).refs = s.refs ∧ (purgeReference s a b pvp).nextRef = s.nextRef := by
  cases pvp <;> exact ⟨rfl, rfl⟩

/-- A reference that is missing may be purged from either of its ends. -/
theorem Views.purge (hv : Views (some r) s)
    (hr : s.refs r = some ref) (hj : ref.Joins a b) : Views (some r) (purgeReference s a b ref.isPvP) where
  sound := by
    intro pvp u g r' h
    rw [find?_purgeReference] at h
    rw [(refs_purgeReference s a b ref.isPvP).1]
    split at h
    · cases h
    · exact hv.sound pvp u g r' h
  complete := by
    intro r' ref' u g hr' hne hj'
    rw [(refs_purgeReference s a b ref.isPvP).1] at hr'
    rw [find?_purgeReference, if_neg]
    · exact hv.complete r' ref' u g hr' hne hj'
    · rintro ⟨rfl, -, rfl⟩
      exact hne (congrArg some (hv.unique r r' ref ref' _ _ hr hr' hj hj'))
  distinct := by rw [(refs_purgeReference s a b ref.isPvP).1]; exact hv.distinct
  unique := by rw [(refs_purgeReference s a b ref.isPvP).1]; exact hv.unique
  fresh := by
    rw [(refs_purgeReference s a b ref.isPvP).1, (refs_purgeReference s a b ref.isPvP).2]; exact hv.fresh

theorem flagOk_purgeReference {v : ObjectGuid} {pvp : Bool} (hv : v ≠ a) (h : FlagOk s v) :
    FlagOk (purgeReference s a b pvp) v := by
  rw [FlagOk, inCombat_purgeReference, h]
  refine (hasCombat_congr (fun q g => ?_) fun g r _ => ?_).symm
  · rw [find?_purgeReference, if_neg (by tauto)]
  · rw [countsFor, countsFor, (refs_purgeReference s a b pvp).1]

/-- What `PutReference` does when it does not fail. -/
theorem putReference_spec {a b : ObjectGuid} {r : RefId} {ref : CombatReference} (hr : s.refs r = some ref)
    (h : putReference env s a b r = some s') :
    s'.refs = s.refs ∧ s'.nextRef = s.nextRef ∧ (∀ u, (s'.unit u).inCombat = (s.unit u).inCombat) ∧
    ∀ u q g, ((s'.unit u).refsOf q).find? g =
      if u = a ∧ q = ref.isPvP ∧ g = b then some r else ((s.unit u).refsOf q).find? g := by
  have key : ∀ x : Unit, x.inCombat = (s.unit a).inCombat →
      (∀ q g, (x.refsOf q).find? g =
        if q = ref.isPvP ∧ g = b then some r else ((s.unit a).refsOf q).find? g) →
      (∀ u, ((s.setUnit a x).unit u).inCombat = (s.unit u).inCombat) ∧
      ∀ u q g, (((s.setUnit a x).unit u).refsOf q).find? g =
        if u = a ∧ q = ref.isPvP ∧ g = b then some r else ((s.unit u).refsOf q).find? g := by
    intro x hi hf
    constructor
    · intro u
      by_cases hu : u = a
      · subst hu; simp [CombatState.setUnit, hi]
      · simp [CombatState.setUnit, hu]
    · intro u q g
      by_cases hu : u = a
      · subst hu; simp [CombatState.setUnit, hf]
      · simp [CombatState.setUnit, hu]
  simp only [putReference, hr, Option.bind_eq_bind, Option.bind_some] at h
  split at h
  · next hp =>
    split at h
    · cases h
    cases h
    refine ⟨rfl, rfl, key _ rfl fun q g => ?_⟩
    cases q <;> simp [Unit.refsOf, hp, UMap.find?_insert]
  next hp =>
  split at h
  · cases h
  cases h
  refine ⟨rfl, rfl, key _ rfl fun q g => ?_⟩
  cases q <;> simp [Unit.refsOf, hp, UMap.find?_insert]

/-! ## Ending combat -/

/-- The maps after a reference has ended: those of its two ends have lost it. -/
theorem find?_endReference (s : CombatState) (r : RefId) (ref : CombatReference) (u : ObjectGuid) (q : Bool)
    (g : ObjectGuid) : (((endReference env can s r ref).unit u).refsOf q).find? g =
      if q = ref.isPvP ∧ ref.Joins u g then none else ((s.unit u).refsOf q).find? g := by
  have hsame := ((@sameMaps_updateOwnerCombatState _ env can (purgeReference (purgeReference s ref.first ref.second ref.isPvP) ref.second ref.first ref.isPvP) ref.first)).trans
    ((@sameMaps_updateOwnerCombatState _ env can _ ref.second))
  simp only [endReference]
  rw [hsame.maps u q, find?_purgeReference, find?_purgeReference]
  by_cases h₁ : u = ref.second ∧ q = ref.isPvP ∧ g = ref.first
  · obtain ⟨rfl, rfl, rfl⟩ := h₁
    simp [CombatReference.Joins]
  by_cases h₂ : u = ref.first ∧ q = ref.isPvP ∧ g = ref.second
  · obtain ⟨rfl, rfl, rfl⟩ := h₂
    simp [CombatReference.Joins]
  rw [if_neg h₁, if_neg h₂, if_neg]
  rintro ⟨rfl, ⟨rfl, rfl⟩ | ⟨rfl, rfl⟩⟩
  · exact h₂ ⟨rfl, rfl, rfl⟩
  · exact h₁ ⟨rfl, rfl, rfl⟩

theorem refs_endReference (s : CombatState) (r : RefId) (ref : CombatReference) :
    (endReference env can s r ref).refs = Function.update s.refs r none ∧
    (endReference env can s r ref).nextRef = s.nextRef := by
  have hsame := ((@sameMaps_updateOwnerCombatState _ env can (purgeReference (purgeReference s ref.first ref.second ref.isPvP) ref.second ref.first ref.isPvP) ref.first)).trans
    ((@sameMaps_updateOwnerCombatState _ env can _ ref.second))
  simp only [endReference]
  rw [hsame.refs, hsame.nextRef, (refs_purgeReference _ _ _ _).1, (refs_purgeReference _ _ _ _).1,
    (refs_purgeReference _ _ _ _).2, (refs_purgeReference _ _ _ _).2]
  exact ⟨rfl, rfl⟩

/-- Ending combat restores the invariant, also where the reference was already
missing from its maps and the flags of its ends were behind. -/
theorem endReference_inv (hv : Views (some r) s) (hr : s.refs r = some ref)
    (hf : ∀ v, v ≠ ref.first → v ≠ ref.second → FlagOk s v) : CombatInv (endReference env can s r ref) := by
  have hrefs := (@refs_endReference _ env can) s r ref
  have live : ∀ {r' ref'}, (endReference env can s r ref).refs r' = some ref' → r' ≠ r ∧ s.refs r' = some ref' := by
    intro r' ref' h
    rw [hrefs.1] at h
    by_cases hr' : r' = r
    · subst hr'; simp at h
    · rw [Function.update_of_ne hr'] at h; exact ⟨hr', h⟩
  refine ⟨⟨?_, ?_, ?_, ?_, ?_⟩, ?_⟩
  · intro pvp a b r' h
    rw [find?_endReference] at h
    split at h
    · cases h
    next hne =>
    obtain ⟨ref', hr', hp, hj⟩ := hv.sound pvp a b r' h
    refine ⟨ref', ?_, hp, hj⟩
    rw [hrefs.1, Function.update_of_ne]
    · exact hr'
    · rintro rfl
      rw [hr] at hr'
      cases hr'
      exact hne ⟨hp.symm, hj⟩
  · intro r' ref' a b h _ hj
    obtain ⟨hne, hr'⟩ := live h
    rw [find?_endReference, if_neg]
    · exact hv.complete r' ref' a b hr' (by simpa using Ne.symm hne) hj
    · rintro ⟨-, hj'⟩
      exact hne (hv.unique r' r ref' ref a b hr' hr hj hj')
  · intro r' ref' h; exact hv.distinct r' ref' (live h).2
  · intro r₁ r₂ ref₁ ref₂ a b h₁ h₂; exact hv.unique r₁ r₂ ref₁ ref₂ a b (live h₁).2 (live h₂).2
  · intro r' h
    rw [hrefs.2] at h
    rw [hrefs.1]
    by_cases hr' : r' = r
    · subst hr'; simp
    · rw [Function.update_of_ne hr']; exact hv.fresh r' h
  · -- the flags: first without freeing the reference, which no map holds any more
    intro v
    have hflags := (@flagOk_updateBoth _ env can (purgeReference (purgeReference s ref.first ref.second ref.isPvP) ref.second ref.first ref.isPvP) ref.first ref.second)
      (fun v h₁ h₂ => flagOk_purgeReference h₂ (flagOk_purgeReference h₁ (hf v h₁ h₂))) v
    rw [FlagOk] at hflags ⊢
    refine hflags.trans (Eq.symm ((@hasCombat_congr _ (endReference env can s r ref)) (fun _ _ => rfl)
      fun g r' h => ?_))
    have h' := h
    change (((endReference env can s r ref).unit v).refsOf true).find? g = some r' at h'
    rw [find?_endReference] at h'
    split at h'
    · cases h'
    next hne =>
    have hr' : r' ≠ r := by
      rintro rfl
      obtain ⟨ref', hr', hp, hj⟩ := hv.sound true v g r' h'
      rw [hr] at hr'
      cases hr'
      exact hne ⟨hp.symm, hj⟩
    simp only [countsFor, endReference, Function.update_of_ne hr']

theorem endCombat_combat (h : endCombat env w r = some w') :
    ∃ ref, w.combat.refs r = some ref ∧ w'.combat = endReference env w.canHaveThreatList w.combat r ref := by
  simp only [endCombat, Option.bind_eq_bind, Option.bind_eq_some_iff] at h
  obtain ⟨ref, hr, t, -, t', -, h⟩ := h
  cases h
  exact ⟨ref, hr, rfl⟩

theorem CombatInv.endCombat (hi : CombatInv w.combat) (h : endCombat env w r = some w') : CombatInv w'.combat := by
  obtain ⟨ref, hr, he⟩ := endCombat_combat h
  rw [he]
  exact endReference_inv hi.views.weaken hr fun v _ _ => hi.flag v

end AtlasWow.Combat
