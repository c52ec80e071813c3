/-
Every call of a combat manager keeps the invariant of the combat system, and
what the maps and the flags promise follows from it (`CombatInv.consistent`).
-/
import AtlasWow.Combat.CombatInvariant

namespace AtlasWow.Combat

variable {P : Platform} {env : Env P} {can : ObjectGuid → Bool} {s s' : CombatState}

/-! ## Changing a reference in place -/

/-- `ref'` is the same reference with another timer or other suppress flags. -/
structure SameEnds (ref ref' : CombatReference) : Prop where
  first : ref'.first = ref.first
  second : ref'.second = ref.second
  isPvP : ref'.isPvP = ref.isPvP

variable {a b who owner : ObjectGuid} {pvp : Bool}

theorem SameEnds.joins {ref ref' : CombatReference} (h : SameEnds ref ref') : ref'.Joins a b ↔ ref.Joins a b := by
  unfold CombatReference.Joins
  rw [h.first, h.second]

theorem sameEnds_suppress (ref : CombatReference) (who : ObjectGuid) : SameEnds ref (ref.suppress who) := by
  unfold CombatReference.suppress
  split <;> exact ⟨rfl, rfl, rfl⟩

section SetRef

variable {r : RefId} {ref ref' : CombatReference}

theorem refs_setRef {r' : RefId} {x : CombatReference} (hr : s.refs r = some ref)
    (h : (s.setRef r ref').refs r' = some x) :
    ∃ y, s.refs r' = some y ∧ (SameEnds ref ref' → SameEnds y x) := by
  by_cases hr' : r' = r
  · subst hr'
    simp only [CombatState.setRef, Function.update_self, Option.some.injEq] at h
    subst h
    exact ⟨ref, hr, id⟩
  · simp only [CombatState.setRef, Function.update_of_ne hr'] at h
    exact ⟨x, h, fun _ => ⟨rfl, rfl, rfl⟩⟩

theorem setRef_refs {r' : RefId} {x : CombatReference} (hr : s.refs r = some ref) (h : s.refs r' = some x) :
    ∃ y, (s.setRef r ref').refs r' = some y ∧ (SameEnds ref ref' → SameEnds x y) := by
  by_cases hr' : r' = r
  · subst hr'
    rw [hr] at h
    cases h
    exact ⟨ref', by simp [CombatState.setRef], id⟩
  · exact ⟨x, by simp [CombatState.setRef, hr', h], fun _ => ⟨rfl, rfl, rfl⟩⟩

theorem Views.setRef (hv : Views none s) (hr : s.refs r = some ref) (he : SameEnds ref ref') :
    Views none (s.setRef r ref') where
  sound := by
    intro pvp a b r' h
    obtain ⟨x, hx, hp, hj⟩ := hv.sound pvp a b r' h
    obtain ⟨y, hy, hxy⟩ := (@setRef_refs _ _ _ ref') hr hx
    exact ⟨y, hy, (hxy he).isPvP.trans hp, (hxy he).joins.2 hj⟩
  complete := by
    intro r' x a b hx hg hj
    obtain ⟨y, hy, hyx⟩ := refs_setRef hr hx
    rw [(hyx he).isPvP]
    exact hv.complete r' y a b hy hg ((hyx he).joins.1 hj)
  distinct := by
    intro r' x hx
    obtain ⟨y, hy, hyx⟩ := refs_setRef hr hx
    rw [(hyx he).first, (hyx he).second]
    exact hv.distinct r' y hy
  unique := by
    intro r₁ r₂ x₁ x₂ a b h₁ h₂ hj₁ hj₂
    obtain ⟨y₁, hy₁, hyx₁⟩ := refs_setRef hr h₁
    obtain ⟨y₂, hy₂, hyx₂⟩ := refs_setRef hr h₂
    exact hv.unique r₁ r₂ y₁ y₂ a b hy₁ hy₂ ((hyx₁ he).joins.1 hj₁) ((hyx₂ he).joins.1 hj₂)
  fresh := by
    intro r' h
    by_cases hr' : r' = r
    · subst hr'
      rw [hv.fresh r' h] at hr
      cases hr
    · simp only [CombatState.setRef, Function.update_of_ne hr']
      exact hv.fresh r' h

/-- The flag of a unit stays right if the reference counts for it as before. -/
theorem flagOk_setRef {v : ObjectGuid} (hv : Views none s) (hr : s.refs r = some ref)
    (hc : ∀ b, ref.Joins v b → ref'.isSuppressedFor v = ref.isSuppressedFor v) (h : FlagOk s v) :
    FlagOk (s.setRef r ref') v := by
  rw [FlagOk]
  refine h.trans (Eq.symm (hasCombat_congr (fun _ _ => rfl) fun g r' hg => ?_))
  by_cases hr' : r' = r
  · subst hr'
    obtain ⟨x, hx, -, hj⟩ := hv.sound true v g r' hg
    rw [hr] at hx
    cases hx
    simp [countsFor, CombatState.setRef, hr, hc g hj]
  · simp [countsFor, CombatState.setRef, Function.update_of_ne hr']

/-- A change of the suppress flag of one end, followed by `UpdateOwnerCombatState` there. -/
theorem setRef_update_inv {u : ObjectGuid} (hv : Views none s) (hf : ∀ v, v ≠ u → FlagOk s v)
    (hr : s.refs r = some ref) (he : SameEnds ref ref')
    (hc : ∀ v b, v ≠ u → ref.Joins v b → ref'.isSuppressedFor v = ref.isSuppressedFor v) :
    CombatInv (updateOwnerCombatState env can (s.setRef r ref') u).1 where
  views := sameMaps_updateOwnerCombatState.views (hv.setRef hr he)
  flag := flagOk_updateOwnerCombatState fun v hvu => flagOk_setRef hv hr (fun b => hc v b hvu) (hf v hvu)

end SetRef

/-- The other end does not see that `who` is suppressed. -/
theorem isSuppressedFor_suppress {ref : CombatReference} {v : ObjectGuid}
    (hw : who = ref.first ∨ who = ref.second) (hv : v ≠ who) (hj : ref.Joins v b) :
    (ref.suppress who).isSuppressedFor v = ref.isSuppressedFor v := by
  unfold CombatReference.suppress CombatReference.isSuppressedFor
  unfold CombatReference.Joins at hj
  rcases hw with rfl | rfl
  · simp [hv]
  split
  · next he => exact absurd hv (by rcases hj with ⟨h₁, -⟩ | ⟨-, h₁⟩ <;> simp [← h₁, he])
  next hne =>
  rcases hj with ⟨rfl, rfl⟩ | ⟨rfl, rfl⟩
  · simp
  · exact absurd rfl hv

/-! ## Refresh and suppression -/

theorem unsuppressFirst_inv {r : RefId} {ref : CombatReference} (hi : CombatInv s) (hr : s.refs r = some ref) :
    CombatInv (unsuppressFirst env can s r ref) ∧
      (unsuppressFirst env can s r ref).refs r = some { ref with suppressFirst := false } := by
  unfold unsuppressFirst
  split
  · refine ⟨setRef_update_inv hi.views (fun v _ => hi.flag v) hr ⟨rfl, rfl, rfl⟩ fun v b hv _ => ?_, ?_⟩
    · simp [CombatReference.isSuppressedFor, hv]
    · rw [sameMaps_updateOwnerCombatState.refs]; simp [CombatState.setRef]
  next h =>
  have : ref.suppressFirst = false := by simpa using h
  exact ⟨hi, by rw [hr, ← this]⟩

theorem unsuppressSecond_inv {r : RefId} {ref : CombatReference} (hi : CombatInv s) (hr : s.refs r = some ref) :
    CombatInv (unsuppressSecond env can s r ref) := by
  unfold unsuppressSecond
  split
  · refine setRef_update_inv hi.views (fun v _ => hi.flag v) hr ⟨rfl, rfl, rfl⟩ fun v b hv hj => ?_
    unfold CombatReference.isSuppressedFor
    rcases hj with ⟨rfl, rfl⟩ | ⟨rfl, rfl⟩
    · simp
    · exact absurd rfl hv
  · exact hi

theorem CombatInv.setRef_same {r : RefId} {ref ref' : CombatReference} (hi : CombatInv s)
    (hr : s.refs r = some ref) (he : SameEnds ref ref')
    (hc : ∀ v, ref'.isSuppressedFor v = ref.isSuppressedFor v) : CombatInv (s.setRef r ref') where
  views := hi.views.setRef hr he
  flag := fun v => flagOk_setRef hi.views hr (fun _ _ => hc v) (hi.flag v)

theorem CombatInv.refresh {r : RefId} (hi : CombatInv s) (h : refresh env can s r = some s') : CombatInv s' := by
  simp only [Combat.refresh, Option.bind_eq_bind, Option.bind_eq_some_iff] at h
  obtain ⟨ref, hr, h⟩ := h
  cases h
  have h₁ : CombatInv (s.setRef r { ref with combatTimer := PVP_COMBAT_TIMEOUT }) :=
    hi.setRef_same hr ⟨rfl, rfl, rfl⟩ fun _ => rfl
  obtain ⟨h₂, hr₂⟩ := (@unsuppressFirst_inv _ env can) h₁
    (r := r) (Function.update_self _ _ _)
  exact unsuppressSecond_inv h₂ hr₂

theorem CombatInv.suppressFor {r : RefId} {ref : CombatReference} (hi : CombatInv s)
    (hr : s.refs r = some ref) (hw : who = ref.first ∨ who = ref.second)
    (h : suppressFor env can s r who = some s') : CombatInv s' := by
  simp only [Combat.suppressFor, hr, Option.bind_eq_bind, Option.bind_some, Option.some.injEq] at h
  subst h
  exact setRef_update_inv hi.views (fun v _ => hi.flag v) hr (sameEnds_suppress ref who)
    fun v b hv hj => isSuppressedFor_suppress hw hv hj

/-- The references in a map are its unit's own. -/
theorem Views.end_of_entry {r : RefId} (hv : Views none s) (h : ((s.unit a).refsOf pvp).find? b = some r) :
    ∃ ref, s.refs r = some ref ∧ ref.isPvP = pvp ∧ ref.Joins a b ∧ (a = ref.first ∨ a = ref.second) := by
  obtain ⟨ref, hr, hp, hj⟩ := hv.sound pvp a b r h
  refine ⟨ref, hr, hp, hj, ?_⟩
  rcases hj with ⟨rfl, -⟩ | ⟨-, rfl⟩
  · exact .inl rfl
  · exact .inr rfl

theorem CombatInv.suppressPvPCombat (hi : CombatInv s)
    (h : suppressPvPCombat env can s owner = some s') : CombatInv s' := by
  simp only [Combat.suppressPvPCombat, Option.bind_eq_bind, Option.bind_eq_some_iff] at h
  obtain ⟨s₁, hfold, h⟩ := h
  cases h
  -- the loop keeps everything but the owner's own flag
  let I : List (ObjectGuid × RefId) → CombatState → Prop := fun rest s =>
    Views none s ∧ (∀ v, v ≠ owner → FlagOk s v) ∧
      ∀ e ∈ rest, ((s.unit owner).refsOf true).find? e.1 = some e.2
  have hI := foldlM_invariant_rest I ?_ ⟨hi.views, fun v _ => hi.flag v, fun e he => UMap.mem_entries.1 he⟩ hfold
  · exact ⟨sameMaps_updateOwnerCombatState.views hI.1, flagOk_updateOwnerCombatState hI.2.1⟩
  intro e rest a b ⟨hv, hf, hm⟩ hab
  obtain ⟨ref, hr, -, -, hown⟩ := hv.end_of_entry (hm e (by simp))
  simp only [hr, Option.bind_some, Option.some.injEq] at hab
  subst hab
  refine ⟨hv.setRef hr (sameEnds_suppress ref owner), fun v hne => ?_, fun e' he' => hm e' (by simp [he'])⟩
  exact flagOk_setRef hv hr (fun b hj => isSuppressedFor_suppress hown hne hj) (hf v hne)

/-! ## SetInCombatWith -/

/-- A pair in neither map of one unit has no live reference. -/
theorem Views.no_reference (hv : Views none s)
    (h : ∀ pvp, ((s.unit a).refsOf pvp).find? b = none) {r : RefId} {ref : CombatReference}
    (hr : s.refs r = some ref) : ¬ ref.Joins a b := by
  intro hj
  have := hv.complete r ref a b hr (by simp) hj
  rw [h ref.isPvP] at this
  cases this

/-- The state after the new reference has been allocated and put into both maps. -/
theorem put_views {a b : ObjectGuid} {ref : CombatReference} {s₁ s₂ : CombatState} (hv : Views none s)
    (hf : ref.first = a) (hs : ref.second = b) (hab : a ≠ b)
    (hno : ∀ pvp, ((s.unit a).refsOf pvp).find? b = none)
    (h₁ : putReference env { s with refs := Function.update s.refs s.nextRef (some ref), nextRef := s.nextRef + 1 }
      a b s.nextRef = some s₁)
    (h₂ : putReference env s₁ b a s.nextRef = some s₂) :
    Views none s₂ ∧ ∀ v, v ≠ a → v ≠ b → FlagOk s v → FlagOk s₂ v := by
  obtain ⟨hr₁, hn₁, hi₁, hm₁⟩ := (@putReference_spec _ _ _ _ _ _ _ ref) (by simp) h₁
  obtain ⟨hr₂, hn₂, hi₂, hm₂⟩ := (@putReference_spec _ _ _ _ _ _ _ ref) (by rw [hr₁]; simp) h₂
  have hrefs : s₂.refs = Function.update s.refs s.nextRef (some ref) := hr₂.trans hr₁
  have hnext : s₂.nextRef = s.nextRef + 1 := hn₂.trans hn₁
  have hmap : ∀ u q g, ((s₂.unit u).refsOf q).find? g =
      if q = ref.isPvP ∧ ref.Joins u g then some s.nextRef else ((s.unit u).refsOf q).find? g := by
    intro u q g
    rw [hm₂, hm₁]
    by_cases h₂ : u = b ∧ q = ref.isPvP ∧ g = a
    · rw [if_pos h₂, if_pos ⟨h₂.2.1, .inr ⟨hf.trans h₂.2.2.symm, hs.trans h₂.1.symm⟩⟩]
    rw [if_neg h₂]
    by_cases h₁ : u = a ∧ q = ref.isPvP ∧ g = b
    · rw [if_pos h₁, if_pos ⟨h₁.2.1, .inl ⟨hf.trans h₁.1.symm, hs.trans h₁.2.2.symm⟩⟩]
    rw [if_neg h₁, if_neg]
    rintro ⟨hq, ⟨rfl, rfl⟩ | ⟨rfl, rfl⟩⟩
    · exact h₁ ⟨hf, hq, hs⟩
    · exact h₂ ⟨hs, hq, hf⟩
  have hold : ∀ {r x}, s.refs r = some x → r ≠ s.nextRef := by
    rintro r x hr rfl
    rw [hv.fresh _ (Nat.le_refl _)] at hr
    cases hr
  have hlive : ∀ {r x}, s₂.refs r = some x → (r = s.nextRef ∧ x = ref) ∨ (r ≠ s.nextRef ∧ s.refs r = some x) := by
    intro r x h
    rw [hrefs] at h
    by_cases hr : r = s.nextRef
    · subst hr
      rw [Function.update_self] at h
      exact .inl ⟨rfl, (Option.some.inj h).symm⟩
    · rw [Function.update_of_ne hr] at h
      exact .inr ⟨hr, h⟩
  have hjoin : ∀ {u g}, ref.Joins u g → ∀ {r x}, s.refs r = some x → ¬ x.Joins u g := by
    intro u g hj r x hr hx
    have hn := hv.no_reference hno hr
    rcases hj with ⟨rfl, rfl⟩ | ⟨rfl, rfl⟩
    · rw [hf, hs] at hx; exact hn hx
    · rw [hf, hs] at hx; exact hn hx.symm
  refine ⟨⟨?_, ?_, ?_, ?_, ?_⟩, ?_⟩
  · intro pvp u g r h
    rw [hmap] at h
    split at h
    · next hc => cases h; exact ⟨ref, by rw [hrefs]; simp, hc.1.symm, hc.2⟩
    · obtain ⟨x, hx, hp, hj⟩ := hv.sound pvp u g r h
      exact ⟨x, by rw [hrefs, Function.update_of_ne (hold hx)]; exact hx, hp, hj⟩
  · intro r x u g hx _ hj
    rw [hmap]
    rcases hlive hx with ⟨rfl, rfl⟩ | ⟨-, hx⟩
    · rw [if_pos ⟨rfl, hj⟩]
    · rw [if_neg fun hc => hjoin hc.2 hx hj]
      exact hv.complete r x u g hx (by simp) hj
  · intro r x hx
    rcases hlive hx with ⟨rfl, rfl⟩ | ⟨-, hx⟩
    · rw [hf, hs]; exact hab
    · exact hv.distinct r x hx
  · intro r₁ r₂ x₁ x₂ u g hx₁ hx₂ hj₁ hj₂
    rcases hlive hx₁ with ⟨rfl, rfl⟩ | ⟨-, hx₁⟩ <;> rcases hlive hx₂ with ⟨rfl, rfl⟩ | ⟨-, hx₂⟩
    · rfl
    · exact absurd hj₂ (hjoin hj₁ hx₂)
    · exact absurd hj₁ (hjoin hj₂ hx₁)
    · exact hv.unique r₁ r₂ x₁ x₂ u g hx₁ hx₂ hj₁ hj₂
  · intro r hr
    rw [hnext] at hr
    have hr' : s.nextRef < r := hr
    rw [hrefs, Function.update_of_ne (Nat.ne_of_gt hr')]
    exact hv.fresh r (Nat.le_of_lt hr')
  · intro v hva hvb hflag
    rw [FlagOk, hi₂, hi₁]
    refine Eq.trans hflag (Eq.symm (hasCombat_congr (fun q g => ?_) fun g r h => ?_))
    · rw [hmap, if_neg]
      rintro ⟨-, ⟨rfl, -⟩ | ⟨-, rfl⟩⟩
      · exact hva hf
      · exact hvb hs
    · obtain ⟨x, hx, -, -⟩ := hv.sound true v g r h
      rw [countsFor, countsFor, hrefs, Function.update_of_ne (hold hx)]

theorem CombatInv.setInCombatWith {b : Bool} (hi : CombatInv s)
    (h : setInCombatWith env can s owner who = some (s', b)) : CombatInv s' := by
  unfold Combat.setInCombatWith at h
  split at h
  · simp only [Option.map_eq_some_iff, Prod.mk.injEq] at h
    obtain ⟨s₁, h, rfl, -⟩ := h
    exact hi.refresh h
  next hpvp =>
  split at h
  · cases h; exact hi
  next hpve =>
  split at h
  · cases h; exact hi
  next hbegin =>
  simp only [Option.bind_eq_bind, Option.bind_eq_some_iff] at h
  obtain ⟨s₁, h₁, s₂, h₂, h⟩ := h
  cases h
  have hne : owner ≠ who := by
    rintro rfl
    simp [canBeginCombat] at hbegin
  have hno : ∀ pvp, ((s.unit owner).refsOf pvp).find? who = none := by
    intro pvp
    cases pvp
    · simpa [Unit.refsOf] using hpve
    · exact hpvp
  obtain ⟨hv, hf⟩ := (@put_views _ _ _ _ _ (newReference env owner who)) hi.views rfl rfl hne hno h₁ h₂
  exact ⟨sameMaps_updateOwnerCombatState.views (sameMaps_updateOwnerCombatState.views hv),
    flagOk_updateBoth fun v hva hvb => hf v hva hvb (hi.flag v)⟩

theorem CombatInv.inheritCombatStatesFrom (hi : CombatInv s)
    (h : inheritCombatStatesFrom env can s owner who = some s') : CombatInv s' := by
  have round : ∀ e a b, CombatInv a → inheritCombatState env can owner who a e = some b → CombatInv b := by
    intro e a b ha h
    simp only [inheritCombatState] at h
    split at h
    · cases h; exact ha
    simp only [Option.bind_eq_bind, Option.bind_eq_some_iff] at h
    obtain ⟨ref, -, h⟩ := h
    split at h
    · cases h; exact ha
    simp only [Option.map_eq_some_iff] at h
    obtain ⟨⟨s₁, b⟩, h, rfl⟩ := h
    exact ha.setInCombatWith h
  simp only [Combat.inheritCombatStatesFrom, Option.bind_eq_bind, Option.bind_eq_some_iff] at h
  obtain ⟨s₁, h₁, h₂⟩ := h
  exact foldlM_invariant _ round (foldlM_invariant _ round hi h₁) h₂

/-! ## The loops that end combat -/

/-- What the loops over the owner's map keep: the entries still ahead are in the map. -/
def Ahead (owner : ObjectGuid) (pvp : Bool) (rest : List (ObjectGuid × RefId)) (s : CombatState) : Prop :=
  CombatInv s ∧ (rest.map Prod.fst).Nodup ∧ ∀ e ∈ rest, ((s.unit owner).refsOf pvp).find? e.1 = some e.2

theorem ahead_entries (hi : CombatInv s) : Ahead owner pvp ((s.unit owner).refsOf pvp).entries s :=
  ⟨hi, ((s.unit owner).refsOf pvp).nodup, fun _ he => UMap.mem_entries.1 he⟩

theorem Ahead.tail {owner : ObjectGuid} {pvp : Bool} {e : ObjectGuid × RefId} {rest : List (ObjectGuid × RefId)}
    (h : Ahead owner pvp (e :: rest) s) (hi : CombatInv s')
    (hm : ∀ g, g ≠ e.1 → ((s'.unit owner).refsOf pvp).find? g = ((s.unit owner).refsOf pvp).find? g) :
    Ahead owner pvp rest s' := by
  obtain ⟨-, hn, hmem⟩ := h
  simp only [List.map_cons, List.nodup_cons] at hn
  refine ⟨hi, hn.2, fun e' he' => ?_⟩
  rw [hm e'.1 fun he => hn.1 (he ▸ List.mem_map_of_mem he')]
  exact hmem e' (by simp [he'])

/-- Erasing the entry by hand and ending its reference takes that entry out and no other. -/
theorem eraseAndEndCombat_ahead {w w' : World P} {e : ObjectGuid × RefId}
    {rest : List (ObjectGuid × RefId)} (ha : Ahead owner pvp (e :: rest) w.combat)
    (h : eraseAndEndCombat env w owner pvp e = some w') : Ahead owner pvp rest w'.combat := by
  obtain ⟨ref, hr, hp, hj, -⟩ := ha.1.views.end_of_entry (ha.2.2 e (by simp))
  obtain ⟨ref', hr', he⟩ := endCombat_combat h
  simp only [(refs_purgeReference w.combat owner e.1 pvp).1] at hr'
  rw [hr] at hr'
  cases hr'
  subst hp
  refine ha.tail ?_ fun g hg => ?_
  · rw [he]
    refine endReference_inv (ha.1.views.weaken.purge hr hj) ?_ fun v h₁ h₂ => ?_
    · simpa only [(refs_purgeReference w.combat owner e.1 ref.isPvP).1] using hr
    · refine flagOk_purgeReference ?_ (ha.1.flag v)
      rintro rfl
      rcases hj with ⟨h, -⟩ | ⟨-, h⟩
      · exact h₁ h.symm
      · exact h₂ h.symm
  · have hne : ¬ ref.Joins owner g := by
      have hd := ha.1.views.distinct _ _ hr
      rintro (⟨h₁, h₂⟩ | ⟨h₁, h₂⟩) <;> rcases hj with ⟨h₃, h₄⟩ | ⟨h₃, h₄⟩
      · exact hg (h₂.symm.trans h₄)
      · exact hd (h₁.trans h₄.symm)
      · exact hd (h₃.trans h₂.symm)
      · exact hg (h₁.symm.trans h₃)
    rw [he, find?_endReference, if_neg (fun hc => hne hc.2), find?_purgeReference, if_neg (fun hc => hg hc.2.2)]

theorem CombatInv.worldSetInCombatWith {w w' : World P} {b : Bool}
    (hi : CombatInv w.combat) (h : w.setInCombatWith env owner who = some (w', b)) : CombatInv w'.combat := by
  simp only [World.setInCombatWith, Option.map_eq_some_iff, Prod.mk.injEq] at h
  obtain ⟨⟨c, b'⟩, h, rfl, -⟩ := h
  exact hi.setInCombatWith h

/-! ## What is promised of the combat references -/

/-- What the two maps and the flag of every unit promise together. -/
structure CombatConsistent (s : CombatState) : Prop where
  pve_symm : ∀ a b r, (s.unit a).pveRefs.find? b = some r ↔ (s.unit b).pveRefs.find? a = some r
  pvp_symm : ∀ a b r, (s.unit a).pvpRefs.find? b = some r ↔ (s.unit b).pvpRefs.find? a = some r
  pve_ends : ∀ a b r, (s.unit a).pveRefs.find? b = some r →
    a ≠ b ∧ ∃ ref, s.refs r = some ref ∧ ref.isPvP = false ∧ ref.Joins a b
  pvp_ends : ∀ a b r, (s.unit a).pvpRefs.find? b = some r →
    a ≠ b ∧ ∃ ref, s.refs r = some ref ∧ ref.isPvP = true ∧ ref.Joins a b
  not_both : ∀ a b, (s.unit a).pveRefs.find? b = none ∨ (s.unit a).pvpRefs.find? b = none
  inCombat : ∀ u, (s.unit u).inCombat = true ↔ (∃ g r, (s.unit u).pveRefs.find? g = some r) ∨
    ∃ g r ref, (s.unit u).pvpRefs.find? g = some r ∧ s.refs r = some ref ∧ ref.isSuppressedFor u = false

theorem Views.symm {a b : ObjectGuid} {pvp : Bool} {r : RefId} (hv : Views none s)
    (h : ((s.unit a).refsOf pvp).find? b = some r) : ((s.unit b).refsOf pvp).find? a = some r := by
  obtain ⟨ref, hr, rfl, hj⟩ := hv.sound pvp a b r h
  exact hv.complete r ref b a hr (by simp) hj.symm

theorem Views.ends {a b : ObjectGuid} {pvp : Bool} {r : RefId} (hv : Views none s)
    (h : ((s.unit a).refsOf pvp).find? b = some r) :
    a ≠ b ∧ ∃ ref, s.refs r = some ref ∧ ref.isPvP = pvp ∧ ref.Joins a b := by
  obtain ⟨ref, hr, hp, hj⟩ := hv.sound pvp a b r h
  refine ⟨?_, ref, hr, hp, hj⟩
  have := hv.distinct r ref hr
  rcases hj with ⟨rfl, rfl⟩ | ⟨rfl, rfl⟩
  · exact this
  · exact this.symm

theorem Views.not_both (hv : Views none s) :
    ((s.unit a).refsOf false).find? b = none ∨ ((s.unit a).refsOf true).find? b = none := by
  cases h₁ : ((s.unit a).refsOf false).find? b with
  | none => exact .inl rfl
  | some r₁ =>
    cases h₂ : ((s.unit a).refsOf true).find? b with
    | none => exact .inr rfl
    | some r₂ =>
      obtain ⟨ref₁, hr₁, hp₁, hj₁⟩ := hv.sound _ _ _ _ h₁
      obtain ⟨ref₂, hr₂, hp₂, hj₂⟩ := hv.sound _ _ _ _ h₂
      have := hv.unique r₁ r₂ ref₁ ref₂ a b hr₁ hr₂ hj₁ hj₂
      subst this
      rw [hr₁] at hr₂
      cases hr₂
      rw [hp₁] at hp₂
      cases hp₂

theorem CombatInv.consistent (hi : CombatInv s) : CombatConsistent s where
  pve_symm := fun a b r => ⟨@Views.symm s a b false r hi.views, @Views.symm s b a false r hi.views⟩
  pvp_symm := fun a b r => ⟨@Views.symm s a b true r hi.views, @Views.symm s b a true r hi.views⟩
  pve_ends := fun a b r => @Views.ends s a b false r hi.views
  pvp_ends := fun a b r => @Views.ends s a b true r hi.views
  not_both := fun _ _ => hi.views.not_both
  inCombat := by
    intro u
    rw [hi.flag u, hasCombat_iff]
    refine or_congr Iff.rfl (exists_congr fun g => exists_congr fun r => ?_)
    constructor
    · rintro ⟨hg, hc⟩
      obtain ⟨ref, hr, -, -⟩ := hi.views.sound true u g r hg
      exact ⟨ref, hg, hr, by simpa [countsFor, hr] using hc⟩
    · rintro ⟨ref, hg, hr, hs⟩
      exact ⟨hg, by simp [countsFor, hr, hs]⟩

end AtlasWow.Combat
