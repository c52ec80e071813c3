/-
What `AddThreat` adds, seen from one threat list. An entry that is online, or
comes back online because nothing suppresses it any more, gets the amount; no
other entry changes. A unit that may be fought is put in combat first, and who
was engaged stays so.
-/
import AtlasWow.Combat.ThreatHeap

namespace AtlasWow.Combat

variable {P : Platform} {env : Env P} {can : ObjectGuid → Bool} {c c' : CombatState} {s s' : ThreatState P}
  {w w' : World P} {owner target who v : ObjectGuid} {t : ThreatId} {ref : ThreatReference P.fmt} {amount : Fl P.fmt}
  {b : Bool} {fmt : FloatFormat}

/-! ## One reference -/

/-- A suppressed reference is online again if nothing suppresses it any more. -/
def backOnline (env : Env P) (ref : ThreatReference P.fmt) : ThreatReference P.fmt :=
  if ref.isSuppressed && !shouldBeSuppressed env ref then { ref with online := .online } else ref

def withThreat {fmt : FloatFormat} (ref : ThreatReference fmt) (amount : Fl fmt) : ThreatReference fmt :=
  if amount = 0 then ref else { ref with baseAmount := max (ref.baseAmount + amount) 0 }

/-- A reference after `AddThreat`. -/
def afterThreat (env : Env P) (ref : ThreatReference P.fmt) (amount : Fl P.fmt) : ThreatReference P.fmt :=
  if (backOnline env ref).isOnline then withThreat (backOnline env ref) amount else backOnline env ref

theorem ends_backOnline (env : Env P) (ref : ThreatReference P.fmt) :
    (backOnline env ref).owner = ref.owner ∧ (backOnline env ref).victim = ref.victim ∧
      (backOnline env ref).baseAmount = ref.baseAmount ∧ (backOnline env ref).tempModifier = ref.tempModifier ∧
      (backOnline env ref).taunted = ref.taunted := by
  unfold backOnline
  split <;> exact ⟨rfl, rfl, rfl, rfl, rfl⟩

theorem refs_refAddThreat (h : refAddThreat s t amount = some s') (ht : s.refs t = some ref) :
    s'.refs = Function.update s.refs t (some (withThreat ref amount)) := by
  unfold Combat.refAddThreat withThreat at *
  split at h
  next h₀ =>
    cases h
    rw [if_pos h₀, ← ht, Function.update_eq_self]
  next h₀ =>
  rw [if_neg h₀]
  simp only [ht, Option.bind_eq_bind, Option.bind_some, Option.bind_eq_some_iff] at h
  obtain ⟨s₁, h₁, h⟩ := h
  cases h
  split at h₁
  · exact refs_heapNotify h₁
  · exact refs_heapNotify h₁

theorem refs_addThreatToEntry (h : addThreatToEntry env s t amount = some s') (ht : s.refs t = some ref) :
    s'.refs = Function.update s.refs t (some (afterThreat env ref amount)) := by
  simp only [addThreatToEntry, ht, Option.bind_eq_bind, Option.bind_some, Option.bind_eq_some_iff] at h
  obtain ⟨s₁, h₁, ref₁, ht₁, h⟩ := h
  have hs₁ : s₁.refs = Function.update s.refs t (some (backOnline env ref)) := by
    unfold backOnline
    split at h₁
    next hb =>
      rw [if_pos hb]
      exact refs_heapNotify h₁
    next hb =>
    cases h₁
    rw [if_neg hb, ← ht, Function.update_eq_self]
  rw [hs₁, Function.update_self] at ht₁
  cases ht₁
  unfold afterThreat
  split at h
  next ho =>
    rw [if_pos ho, refs_refAddThreat h (by rw [hs₁, Function.update_self]), hs₁, Function.update_idem]
  next ho =>
  cases h
  rw [if_neg ho, hs₁]

/-! ## Combat first -/

/-- `SetInCombatWith` answers yes for those who fight already and those who may. -/
theorem setInCombatWith_true (h : setInCombatWith env can c owner who = some (c', b))
    (hf : isInCombatWith c owner who = true ∨ canBeginCombat env owner who = true) : b = true := by
  unfold setInCombatWith at h
  split at h
  · simp only [Option.map_eq_some_iff, Prod.mk.injEq] at h
    obtain ⟨-, -, -, hb⟩ := h
    exact hb.symm
  next hpvp =>
  split at h
  · cases h
    rfl
  next hpve =>
  have hbegin : canBeginCombat env owner who = true := by
    refine hf.resolve_left fun hin => ?_
    rw [isInCombatWith, hpvp, Bool.or_eq_true] at hin
    rcases hin with hin | hin
    · exact hpve hin
    · cases hin
  rw [hbegin] at h
  simp only [Bool.not_true, Bool.false_eq_true, if_false, Option.bind_eq_bind, Option.bind_eq_some_iff] at h
  obtain ⟨c₁, h₁, c₂, h₂, h⟩ := h
  cases h
  obtain ⟨hr, -, -, hm⟩ := (@putReference_spec _ _ _ _ _ _ _ (newReference env owner who)) (Function.update_self _ _ _) h₁
  have hin : isInCombatWith c₁ owner who = true := by
    refine isInCombatWith_iff.2 ⟨(newReference env owner who).isPvP, c.nextRef, ?_⟩
    rw [hm, if_pos ⟨rfl, rfl, rfl⟩]
  exact ((putReference_more h₂).trans
    (sameMaps_updateOwnerCombatState.trans sameMaps_updateOwnerCombatState).moreCombat) _ _ hin

theorem isEngaged_updateMaster (c : CombatState) (owner v : ObjectGuid) :
    ((updateMaster env c owner).unit v).isEngaged = (c.unit v).isEngaged := by
  unfold updateMaster
  split
  next master _ =>
    by_cases hv : v = master
    · subst hv
      simp [updatePetCombatState, CombatState.setUnit]
    · simp [updatePetCombatState, CombatState.setUnit, hv]
  next => rfl

/-- Nobody who is in combat is disengaged. -/
theorem isEngaged_updateOwnerCombatState (h : v = owner → hasCombat c owner = true) (he : (c.unit v).isEngaged = true) :
    ((updateOwnerCombatState env can c owner).1.unit v).isEngaged = true := by
  simp only [updateOwnerCombatState]
  split
  · exact he
  rw [isEngaged_updateMaster]
  by_cases hv : v = owner
  · subst hv
    simp only [setCombatFlag, CombatState.setUnit, Function.update_self, h rfl, if_true, he]
    split <;> rfl
  · simpa [setCombatFlag, CombatState.setUnit, hv] using he

theorem isEngaged_refresh {r : RefId} (hi : CombatInv c) (hr : ((c.unit v).refsOf true).find? who = some r)
    (h : refresh env can c r = some c') (he : (c.unit v).isEngaged = true) : (c'.unit v).isEngaged = true := by
  obtain ⟨ref, href, -, hjoins⟩ := hi.views.sound true v who r hr
  have hdistinct := hi.views.distinct r ref href
  simp only [refresh, href, Option.bind_eq_bind, Option.bind_some] at h
  cases h
  have hcombat : ∀ (c₁ : CombatState) (u : ObjectGuid), v = u → (∀ u pvp, (c₁.unit u).refsOf pvp = (c.unit u).refsOf pvp) →
      (c₁.refs r).any (!·.isSuppressedFor v) = true → hasCombat c₁ u = true := by
    rintro c₁ _ rfl hmaps hcounts
    exact hasCombat_iff.2 (.inr ⟨who, r, by rw [hmaps, hr], hcounts⟩)
  have hfirst : ∀ c₁ : CombatState, (c₁.unit v).isEngaged = true → (∀ u pvp, (c₁.unit u).refsOf pvp = (c.unit u).refsOf pvp) →
      ∀ ref₁ : CombatReference, ref₁.first = ref.first → ref₁.second = ref.second →
      ((unsuppressFirst env can c₁ r ref₁).unit v).isEngaged = true ∧
        ∀ u pvp, ((unsuppressFirst env can c₁ r ref₁).unit u).refsOf pvp = (c.unit u).refsOf pvp := by
    intro c₁ he₁ hmaps ref₁ hf₁ hs₁
    unfold unsuppressFirst
    split
    · refine ⟨isEngaged_updateOwnerCombatState (fun hv => ?_) he₁, fun u pvp => ?_⟩
      · refine hcombat _ _ hv hmaps ?_
        simp [CombatState.setRef, CombatReference.isSuppressedFor, hv]
      · rw [sameMaps_updateOwnerCombatState.maps]
        exact hmaps u pvp
    · exact ⟨he₁, hmaps⟩
  obtain ⟨he₁, hmaps₁⟩ := hfirst (c.setRef r { ref with combatTimer := PVP_COMBAT_TIMEOUT }) he (fun _ _ => rfl)
    { ref with combatTimer := PVP_COMBAT_TIMEOUT } rfl rfl
  unfold unsuppressSecond
  split
  · refine isEngaged_updateOwnerCombatState (fun hv => ?_) he₁
    refine hcombat _ _ hv hmaps₁ ?_
    have hne : v ≠ ref.first := fun hf => hdistinct (hf.symm.trans hv)
    simp [CombatState.setRef, CombatReference.isSuppressedFor, hne]
  · exact he₁

theorem isEngaged_setInCombatWith (hi : CombatInv c) (h : setInCombatWith env can c owner who = some (c', b))
    (he : (c.unit owner).isEngaged = true) : (c'.unit owner).isEngaged = true := by
  unfold setInCombatWith at h
  split at h
  next r hr =>
    simp only [Option.map_eq_some_iff, Prod.mk.injEq] at h
    obtain ⟨c₁, h, rfl, -⟩ := h
    exact isEngaged_refresh hi hr h he
  next =>
  split at h
  · cases h
    exact he
  split at h
  · cases h
    exact he
  next hbegin =>
  have hne : owner ≠ who := by
    rintro rfl
    simp [canBeginCombat] at hbegin
  simp only [Option.bind_eq_bind, Option.bind_eq_some_iff] at h
  obtain ⟨c₁, h₁, c₂, h₂, h⟩ := h
  cases h
  obtain ⟨hr₁, -, -, hm₁⟩ := (@putReference_spec _ _ _ _ _ _ _ (newReference env owner who)) (Function.update_self _ _ _) h₁
  have hnew : c₁.refs c.nextRef = some (newReference env owner who) := by
    rw [hr₁]
    exact Function.update_self _ _ _
  obtain ⟨hr₂, -, -, hm₂⟩ := putReference_spec hnew h₂
  have hput : ∀ {x x' : CombatState} {a b : ObjectGuid} {r : RefId}, putReference env x a b r = some x' →
      (x.unit owner).isEngaged = true → (x'.unit owner).isEngaged = true := by
    intro x x' a b r hx he
    simp only [putReference, Option.bind_eq_bind, Option.bind_eq_some_iff] at hx
    obtain ⟨ref, -, hx⟩ := hx
    have hset : ∀ y : Unit, y.isEngaged = (x.unit a).isEngaged → ((x.setUnit a y).unit owner).isEngaged = true := by
      intro y hy
      by_cases ha : owner = a
      · subst ha
        simpa [CombatState.setUnit, hy] using he
      · simpa [CombatState.setUnit, ha] using he
    split at hx
    · split at hx
      · cases hx
      · cases hx
        exact hset _ rfl
    split at hx
    · cases hx
    · cases hx
      exact hset _ rfl
  have hcombat : hasCombat c₂ owner = true := by
    have hfind : ((c₂.unit owner).refsOf (newReference env owner who).isPvP).find? who = some c.nextRef := by
      rw [hm₂, if_neg fun h => hne h.1, hm₁, if_pos ⟨rfl, rfl, rfl⟩]
    rw [hasCombat_iff]
    cases hp : (newReference env owner who).isPvP with
    | false => exact .inl ⟨who, c.nextRef, hp ▸ hfind⟩
    | true =>
      refine .inr ⟨who, c.nextRef, hp ▸ hfind, ?_⟩
      rw [countsFor, hr₂, hnew]
      simp [newReference, CombatReference.isSuppressedFor]
  refine isEngaged_updateOwnerCombatState (fun hv => absurd hv hne) ?_
  exact isEngaged_updateOwnerCombatState (fun _ => hcombat) (hput h₂ (hput h₁ he))

/-! ## What a list has for a unit -/

/-- The threat that has been added for a unit, modifiers aside: `_baseAmount`, 0 off the list. -/
def threatBase (s : ThreatState P) (owner v : ObjectGuid) : Fl P.fmt :=
  match (s.mgr owner).myThreatListEntries.find? v with
  | none => 0
  | some t =>
    match s.refs t with
    | none => 0
    | some ref => ref.baseAmount

theorem threatBase_eq {x : Fl P.fmt} (hi : ThreatInv s)
    (hx : ∀ t ref, s.refs t = some ref → ref.owner = owner → ref.victim = v → ref.baseAmount = x)
    (h₀ : (∀ t, ¬ Threatens s owner v t) → x = 0) : threatBase s owner v = x := by
  unfold threatBase
  split
  next hnone =>
    refine (h₀ fun t ht => ?_).symm
    rw [(hi.list _ _ _).2 ht] at hnone
    cases hnone
  next t ht =>
  obtain ⟨ref, href, ho, hv⟩ := (hi.list _ _ _).1 ht
  rw [href]
  exact hx t ref href ho hv

theorem threatBase_ref (hi : ThreatInv s) (ht : s.refs t = some ref) (ho : ref.owner = owner) (hv : ref.victim = v) :
    threatBase s owner v = ref.baseAmount := by
  rw [threatBase, (hi.list _ _ _).2 ⟨ref, ht, ho, hv⟩]
  dsimp only
  rw [ht]

theorem threatBase_none (hi : ThreatInv s) (h : ∀ t, ¬ Threatens s owner v t) : threatBase s owner v = 0 :=
  threatBase_eq hi (fun t ref ht ho hv => absurd ⟨ref, ht, ho, hv⟩ (h t)) fun _ => rfl

/-- A unit to which threat can be added: it rides nothing, it fights the owner or may, the owner would not ignore it, and
nothing suppresses it. -/
structure Able (env : Env P) (w : World P) (owner v : ObjectGuid) : Prop where
  onFoot : env.vehicleBase v = none
  fights : isInCombatWith w.combat owner v = true ∨ canBeginCombat env owner v = true
  acceptable : shouldBeOffline env (newThreatReference env owner v) = false
  listed : ∀ t ref, w.threat.refs t = some ref → ref.owner = owner → ref.victim = v →
    (backOnline env ref).isOnline = true ∧ 0 ≤ ref.baseAmount
  unlisted : (w.threat.mgr owner).myThreatListEntries.find? v = none →
    shouldBeSuppressed env (newThreatReference env owner v) = false

theorem shouldBeOffline_congr {ref ref' : ThreatReference P.fmt} (ho : ref'.owner = ref.owner) (hv : ref'.victim = ref.victim) :
    shouldBeOffline env ref' = shouldBeOffline env ref := by
  unfold shouldBeOffline
  rw [ho, hv]

theorem backOnline_of_isOnline (h : ref.isOnline = true) : backOnline env ref = ref := by
  refine if_neg fun hs => ?_
  rw [Bool.and_eq_true, ThreatReference.isSuppressed, decide_eq_true_eq] at hs
  rw [ThreatReference.isOnline, hs.1] at h
  cases h

theorem isOffline_of_backOnline (h : (backOnline env ref).isOnline = true) : ref.isOffline = false := by
  unfold backOnline at h
  split at h
  next hs =>
    rw [Bool.and_eq_true, ThreatReference.isSuppressed, decide_eq_true_eq] at hs
    rw [ThreatReference.isOffline, hs.1]
    rfl
  next =>
  unfold ThreatReference.isOnline at h
  unfold ThreatReference.isOffline
  rw [decide_eq_true_eq] at h
  rw [decide_eq_false_iff_not]
  omega

theorem ends_withThreat (ref : ThreatReference fmt) (amount : Fl fmt) :
    (withThreat ref amount).owner = ref.owner ∧ (withThreat ref amount).victim = ref.victim ∧
      (withThreat ref amount).online = ref.online := by
  unfold withThreat
  split <;> exact ⟨rfl, rfl, rfl⟩

theorem baseAmount_withThreat {ref : ThreatReference fmt} {amount : Fl fmt} (hb : 0 ≤ ref.baseAmount)
    (ha : 0 ≤ amount) : (withThreat ref amount).baseAmount = ref.baseAmount + amount := by
  unfold withThreat
  split
  next h₀ =>
    rw [h₀]
    exact (Fl.add_zero _).symm
  next => exact max_eq_left (hb.trans (Fl.le_add_of_nonneg ha))

/-- The reference of somebody able, after threat has been added to it. -/
theorem afterThreat_of_online (hon : (backOnline env ref).isOnline = true) (hb : 0 ≤ ref.baseAmount) (ha : 0 ≤ amount) :
    (afterThreat env ref amount).owner = ref.owner ∧ (afterThreat env ref amount).victim = ref.victim ∧
      (afterThreat env ref amount).isOnline = true ∧ (afterThreat env ref amount).baseAmount = ref.baseAmount + amount := by
  obtain ⟨ho, hv, hbase, -, -⟩ := ends_backOnline env ref
  obtain ⟨ho', hv', honline⟩ := ends_withThreat (backOnline env ref) amount
  have hafter : afterThreat env ref amount = withThreat (backOnline env ref) amount := if_pos hon
  rw [hafter]
  refine ⟨ho'.trans ho, hv'.trans hv, ?_, ?_⟩
  · rw [ThreatReference.isOnline, honline]
    exact hon
  · rw [baseAmount_withThreat (by rw [hbase]; exact hb) ha, hbase]

/-! ## Online states brought up to date -/

/-- From `s` to `s'` only online states have been updated. -/
def Tended (env : Env P) (s s' : ThreatState P) : Prop :=
  ∀ t ref, s.refs t = some ref → ∃ o, s'.refs t = some { ref with online := o } ∧
    (shouldBeOffline env ref = false → ref.isOffline = false → o = ref.online)

theorem Tended.refl (s : ThreatState P) : Tended env s s := fun _ ref h => ⟨ref.online, h, fun _ _ => rfl⟩

theorem Tended.trans {s'' : ThreatState P} (h : Tended env s s') (h' : Tended env s' s'') : Tended env s s'' := by
  intro t ref ht
  obtain ⟨o, ho, hkeep⟩ := h t ref ht
  obtain ⟨o', ho', hkeep'⟩ := h' t _ ho
  refine ⟨o', ho', fun hoff hnot => ?_⟩
  have he := hkeep hoff hnot
  subst he
  exact hkeep' hoff hnot

theorem updateOffline_tended (h : updateOffline env s t = some s') : Tended env s s' := by
  intro t' ref' ht'
  simp only [updateOffline, Option.bind_eq_bind, Option.bind_eq_some_iff] at h
  obtain ⟨ref, ht, h⟩ := h
  have hset : ∀ o, s'.refs = Function.update s.refs t (some { ref with online := o }) →
      (shouldBeOffline env ref = false → ref.isOffline = false → o = ref.online) →
      ∃ o, s'.refs t' = some { ref' with online := o } ∧
        (shouldBeOffline env ref' = false → ref'.isOffline = false → o = ref'.online) := by
    intro o hrefs hkeep
    by_cases htt : t' = t
    · subst htt
      rw [ht] at ht'
      cases ht'
      exact ⟨o, by rw [hrefs, Function.update_self], hkeep⟩
    · exact ⟨ref'.online, by rw [hrefs, Function.update_of_ne htt, ht'], fun _ _ => rfl⟩
  split at h
  next hsame =>
    cases h
    exact ⟨ref'.online, ht', fun _ _ => rfl⟩
  next hne =>
  split at h
  next hoff => exact hset .offline (refs_heapNotify h) fun hon => by rw [hon] at hoff; cases hoff
  next hoff => exact hset (onlineOrSuppressed env ref) (refs_heapNotify h) fun hon hnot => absurd (hon.trans hnot.symm) hne

theorem updateVictim_tended (h : updateVictim env s owner = some s') : Tended env s s' := by
  simp only [updateVictim, Option.bind_eq_bind, Option.bind_eq_some_iff] at h
  obtain ⟨⟨s₁, victim⟩, h₁, h⟩ := h
  cases h
  simp only [reselectVictim] at h₁
  split at h₁
  · cases h₁
    exact .refl s
  simp only [Option.bind_eq_bind, Option.bind_eq_some_iff] at h₁
  obtain ⟨s₂, h₂, v, -, h₁⟩ := h₁
  cases h₁
  have hall : Tended env s s₁ :=
    foldlM_invariant (Tended env s) (fun _ _ _ ha hab => ha.trans (updateOffline_tended hab)) (.refl s) h₂
  exact hall

theorem Tended.threatBase (h : Tended env s s') (hi : ThreatInv s) (hi' : ThreatInv s') (hs : SameLists s s') (owner v : ObjectGuid) :
    threatBase s' owner v = threatBase s owner v := by
  refine threatBase_eq hi' (fun t ref' ht' ho hv => ?_) fun hno => ?_
  · obtain ⟨ref, ht, ho₀, hv₀⟩ := (hs.threatens owner v t).1 ⟨ref', ht', ho, hv⟩
    obtain ⟨o, hto, -⟩ := h t ref ht
    rw [ht'] at hto
    cases hto
    exact (threatBase_ref hi ht ho₀ hv₀).symm
  · exact threatBase_none hi fun t ht => hno t ((hs.threatens owner v t).2 ht)

/-- Whoever is able stays so. -/
theorem Tended.able (h : Tended env w.threat s') (hs : SameLists w.threat s') (ha : Able env w owner v) :
    Able env ⟨w.combat, s'⟩ owner v where
  onFoot := ha.onFoot
  fights := ha.fights
  acceptable := ha.acceptable
  listed := by
    intro t ref' ht' ho hv
    obtain ⟨ref, ht, ho₀, hv₀⟩ := (hs.threatens owner v t).1 ⟨ref', ht', ho, hv⟩
    obtain ⟨hon, hbase⟩ := ha.listed t ref ht ho₀ hv₀
    obtain ⟨o, hto, hkeep⟩ := h t ref ht
    have hoff : shouldBeOffline env ref = false := by
      rw [@shouldBeOffline_congr _ env (newThreatReference env owner v) ref ho₀ hv₀]
      exact ha.acceptable
    have ho := hkeep hoff (isOffline_of_backOnline hon)
    subst ho
    rw [ht'] at hto
    cases hto
    exact ⟨hon, hbase⟩
  unlisted := by
    intro hnone
    refine ha.unlisted ?_
    rw [← hs.list]
    exact hnone

/-! ## The end of `AddThreat` -/

/-- From `w` to `w'` a unit of the list got an amount of threat. -/
structure Adds (env : Env P) (owner v : ObjectGuid) (amount : Fl P.fmt) (w w' : World P) : Prop where
  inv : WorldInv w'
  self : threatBase w'.threat owner v = threatBase w.threat owner v + amount
  others : ∀ u, u ≠ v → threatBase w'.threat owner u = threatBase w.threat owner u
  able : ∀ u, Able env w owner u → Able env w' owner u
  engaged : (w.combat.unit owner).isEngaged = true → (w'.combat.unit owner).isEngaged = true
  canHave : w'.canHaveThreatList owner = w.canHaveThreatList owner
  listed : ∀ u, ((w.threat.mgr owner).myThreatListEntries.find? u).isSome = true →
    ((w'.threat.mgr owner).myThreatListEntries.find? u).isSome = true

theorem Able.more (ha : Able env w owner v) (hc : MoreCombat w.combat c) : Able env ⟨c, w.threat⟩ owner v :=
  ⟨ha.onFoot, ha.fights.imp_left (hc owner v), ha.acceptable, ha.listed, ha.unlisted⟩

/-- An entry that is there gets the amount. -/
theorem addThreatToEntry_adds (hi : WorldInv w) (ha : Able env w owner v) (hamount : 0 ≤ amount)
    (ht : (w.threat.mgr owner).myThreatListEntries.find? v = some t) (h : addThreatToEntry env w.threat t amount = some s') :
    Adds env owner v amount w ⟨w.combat, s'⟩ := by
  obtain ⟨ref, href, ho, hv⟩ := (hi.threat.list _ _ _).1 ht
  obtain ⟨hon, hbase⟩ := ha.listed t ref href ho hv
  obtain ⟨ho', hv', hon', hbase'⟩ := afterThreat_of_online hon hbase hamount
  have hrefs := refs_addThreatToEntry h href
  have hs := SamePlaces.addThreatToEntry h
  have hi' := hs.inv hi.threat
  have ht' : s'.refs t = some (afterThreat env ref amount) := by rw [hrefs, Function.update_self]
  refine ⟨⟨hi.combat, hi', hi.fighting.fewer hs.sameLists.fewer⟩, ?_, fun u hu => ?_, fun u hu => ?_, id, hs.canHave owner,
    fun u hu => by rwa [← hs.list owner] at hu⟩
  · rw [threatBase_ref hi' ht' (ho'.trans ho) (hv'.trans hv), threatBase_ref hi.threat href ho hv, hbase']
  · refine threatBase_eq hi' (fun t₁ ref₁ ht₁ ho₁ hv₁ => ?_) fun hno => ?_
    · have hne : t₁ ≠ t := by
        rintro rfl
        rw [ht'] at ht₁
        cases ht₁
        exact hu (hv₁.symm.trans (hv'.trans hv))
      rw [hrefs, Function.update_of_ne hne] at ht₁
      exact (threatBase_ref hi.threat ht₁ ho₁ hv₁).symm
    · exact threatBase_none hi.threat fun t₁ ht₁ => hno t₁ ((hs.threatens owner u t₁).2 ht₁)
  · refine ⟨hu.onFoot, hu.fights, hu.acceptable, fun t₁ ref₁ ht₁ ho₁ hv₁ => ?_, fun hnone => hu.unlisted ?_⟩
    · by_cases hne : t₁ = t
      · subst hne
        rw [ht'] at ht₁
        cases ht₁
        refine ⟨by rw [backOnline_of_isOnline hon']; exact hon', ?_⟩
        rw [hbase']
        exact hbase.trans (Fl.le_add_of_nonneg hamount)
      · rw [hrefs, Function.update_of_ne hne] at ht₁
        exact hu.listed t₁ ref₁ ht₁ ho₁ hv₁
    · rw [← hs.list owner]
      exact hnone

/-- The references after a new entry of somebody able. -/
theorem refs_addThreatEntry (ha : Able env w owner v)
    (hno : (w.threat.mgr owner).myThreatListEntries.find? v = none)
    (h : addThreatEntry env w.threat owner v amount = some s') :
    (newThreatReference env owner v).isOnline = true ∧
      s'.refs = Function.update w.threat.refs w.threat.nextRef (some (withThreat (newThreatReference env owner v) amount)) ∧
      s'.refs w.threat.nextRef = some (withThreat (newThreatReference env owner v) amount) ∧
      (s'.mgr owner).ownerCanHaveThreatList = (w.threat.mgr owner).ownerCanHaveThreatList := by
  have hsup : shouldBeSuppressed env (⟨owner, v, .online, 0, 0, TAUNT_STATE_NONE⟩ : ThreatReference P.fmt) = false :=
    ha.unlisted hno
  have hon : (newThreatReference env owner v).online = .online := if_neg (by rw [hsup]; exact Bool.false_ne_true)
  have honline : (newThreatReference env owner v).isOnline = true := by
    rw [ThreatReference.isOnline, hon]
    rfl
  simp only [addThreatEntry, Option.bind_eq_bind, Option.bind_eq_some_iff] at h
  obtain ⟨s₁, h₁, s₂, h₂, s₃, h₃, ref', href', h⟩ := h
  obtain ⟨hrefs, -, hmgr, -, -⟩ := (@put_eq _ _ _ (newThreatReference env owner v)) h₁ h₂
  have ht₂ : s₂.refs w.threat.nextRef = some (newThreatReference env owner v) := by rw [hrefs, Function.update_self]
  have hs₃ : s₃ = s₂ := by
    have hoff : (newThreatReference env owner v).isOffline = false := by
      rw [ThreatReference.isOffline, hon]
      rfl
    simp only [updateOffline, ht₂, Option.bind_eq_bind, Option.bind_some, ha.acceptable, hoff, if_true] at h₃
    exact (Option.some.inj h₃).symm
  subst hs₃
  rw [ht₂] at href'
  cases href'
  rw [if_pos honline] at h
  have hadd := refs_refAddThreat h ht₂
  have hcan := (SamePlaces.refAddThreat h).canHave owner
  rw [hrefs, Function.update_idem] at hadd
  refine ⟨honline, hadd, by rw [hadd, Function.update_self], hcan.trans ?_⟩
  rw [hmgr]
  rfl

/-- A new entry gets the amount. -/
theorem addThreatEntry_adds (hi : WorldInv w) (hin : isInCombatWith w.combat owner v = true) (ha : Able env w owner v)
    (hamount : 0 ≤ amount) (hno : (w.threat.mgr owner).myThreatListEntries.find? v = none)
    (h : addThreatEntry env w.threat owner v amount = some s') : Adds env owner v amount w ⟨w.combat, s'⟩ := by
  obtain ⟨honline, hrefs, hnew, hcan⟩ := refs_addThreatEntry ha hno h
  obtain ⟨hi', hm⟩ := addThreatEntry_inv hi.threat hno h
  obtain ⟨ho', hv', hon'⟩ := ends_withThreat (newThreatReference env owner v) amount
  have hbase : (withThreat (newThreatReference env owner v) amount).baseAmount = amount := by
    rw [baseAmount_withThreat (le_refl _) hamount]
    exact Fl.zero_add amount
  have hf : Fighting w.combat s' := by
    intro o u t ht
    rcases hm.threatens o u t ht with ht | ⟨rfl, rfl⟩
    · exact hi.fighting o u t ht
    · exact hin
  have hold : ∀ {t₁ ref₁}, s'.refs t₁ = some ref₁ → t₁ ≠ w.threat.nextRef → w.threat.refs t₁ = some ref₁ := by
    intro t₁ ref₁ ht₁ hne
    rwa [hrefs, Function.update_of_ne hne] at ht₁
  have hkept : ∀ {o u t₁}, Threatens w.threat o u t₁ → Threatens s' o u t₁ := by
    rintro o u t₁ ⟨ref₁, ht₁, hends⟩
    have hne : t₁ ≠ w.threat.nextRef := Threatens.old hi.threat ⟨ref₁, ht₁, hends⟩
    exact ⟨ref₁, by rw [hrefs, Function.update_of_ne hne, ht₁], hends⟩
  refine ⟨⟨hi.combat, hi', hf⟩, ?_, fun u hu => ?_, fun u hu => ?_, id, hcan, fun u hu => ?_⟩
  · have hself : threatBase s' owner v = amount := (threatBase_ref hi' hnew ho' hv').trans hbase
    have hzero : threatBase w.threat owner v = 0 := by rw [threatBase, hno]
    show threatBase s' owner v = _
    rw [hself, hzero]
    exact (Fl.zero_add amount).symm
  · refine threatBase_eq hi' (fun t₁ ref₁ ht₁ ho₁ hv₁ => ?_) fun hnone => ?_
    · have hne : t₁ ≠ w.threat.nextRef := by
        rintro rfl
        rw [hnew] at ht₁
        cases ht₁
        exact hu (hv₁.symm.trans hv')
      exact (threatBase_ref hi.threat (hold ht₁ hne) ho₁ hv₁).symm
    · exact threatBase_none hi.threat fun t₁ ht₁ => hnone t₁ (hkept ht₁)
  · refine ⟨hu.onFoot, hu.fights, hu.acceptable, fun t₁ ref₁ ht₁ ho₁ hv₁ => ?_, fun hnone => hu.unlisted ?_⟩
    · by_cases hne : t₁ = w.threat.nextRef
      · subst hne
        rw [hnew] at ht₁
        cases ht₁
        have hon : (withThreat (newThreatReference env owner v) amount).isOnline = true := by
          rw [ThreatReference.isOnline, hon']
          exact honline
        exact ⟨by rw [backOnline_of_isOnline hon]; exact hon, by rw [hbase]; exact hamount⟩
      · exact hu.listed t₁ ref₁ (hold ht₁ hne) ho₁ hv₁
    · refine Option.eq_none_iff_forall_ne_some.2 fun t₁ ht₁ => ?_
      have := (hi'.list _ _ _).2 (hkept ((hi.threat.list _ _ _).1 ht₁))
      rw [hnone] at this
      cases this
  · obtain ⟨t₁, ht₁⟩ := Option.isSome_iff_exists.1 hu
    exact Option.isSome_iff_exists.2 ⟨t₁, (hi'.list _ _ _).2 (hkept ((hi.threat.list _ _ _).1 ht₁))⟩

/-- **The end of `AddThreat` adds the amount** for a unit it can be added to. -/
theorem applyThreat_adds (hi : WorldInv w) (ha : Able env w owner v) (hamount : 0 ≤ amount)
    (h : applyThreat env w owner v amount = some w') : Adds env owner v amount w w' := by
  simp only [Combat.applyThreat, Option.bind_eq_bind, Option.bind_eq_some_iff] at h
  obtain ⟨⟨w₁, b⟩, h₁, h⟩ := h
  obtain ⟨hi₁, hthreat, hin⟩ := hi.setInCombatWith h₁
  simp only [World.setInCombatWith, Option.map_eq_some_iff, Prod.mk.injEq] at h₁
  obtain ⟨⟨c, b'⟩, hc, rfl, rfl⟩ := h₁
  have hb : b' = true := setInCombatWith_true hc ha.fights
  obtain ⟨hmore, -⟩ := setInCombatWith_more hc
  have heng : (w.combat.unit owner).isEngaged = true → (c.unit owner).isEngaged = true :=
    isEngaged_setInCombatWith hi.combat hc
  have hable : ∀ u, Able env w owner u → Able env { w with combat := c } owner u := fun u hu => hu.more hmore
  subst hb
  simp only [Bool.not_true, Bool.false_eq_true, if_false] at h
  -- what was added after combat was set, with what that left alone
  have hafter : ∀ {w₂ : World P}, Adds env owner v amount { w with combat := c } w₂ → Adds env owner v amount w w₂ :=
    fun hadds => ⟨hadds.inv, hadds.self, hadds.others, fun u hu => hadds.able u (hable u hu),
      fun he => hadds.engaged (heng he), hadds.canHave, hadds.listed⟩
  split at h
  next t ht =>
    simp only [Option.bind_eq_some_iff] at h
    obtain ⟨s₁, hs₁, h⟩ := h
    cases h
    exact hafter (addThreatToEntry_adds hi₁ (hable v ha) hamount ht hs₁)
  next hno =>
  simp only [Option.bind_eq_some_iff] at h
  obtain ⟨s₁, hs₁, h⟩ := h
  have hadds := addThreatEntry_adds hi₁ (hin rfl) (hable v ha) hamount hno hs₁
  split at h
  · cases h
    exact hafter hadds
  simp only [Option.bind_eq_some_iff] at h
  obtain ⟨s₂, hs₂, h⟩ := h
  cases h
  obtain ⟨hi₂, hsame⟩ := updateVictim_inv hadds.inv.threat hs₂
  have htended := updateVictim_tended hs₂
  have hm : SameMaps c (c.setUnit owner { c.unit owner with isEngaged := true }) := sameMaps_setUnit rfl rfl
  have hbase := htended.threatBase hadds.inv.threat hi₂ hsame owner
  refine hafter ⟨⟨hadds.inv.combat.setUnit rfl rfl rfl, hi₂, (hadds.inv.fighting.fewer hsame.fewer).more hm.moreCombat⟩,
    (hbase v).trans hadds.self, fun u hu => (hbase u).trans (hadds.others u hu), fun u hu => ?_, fun _ => ?_, ?_, fun u hu => ?_⟩
  · exact (htended.able (w := ⟨c, s₁⟩) hsame (hadds.able u hu)).more hm.moreCombat
  · simp [CombatState.setUnit]
  · exact (hsame.canHave owner).trans hadds.canHave
  · rw [hsame.list owner]
    exact hadds.listed u hu

/-! ## No assertion fails -/

theorem setInCombatWith_succeeds (hi : CombatInv c) (owner who : ObjectGuid) :
    ∃ r, setInCombatWith env can c owner who = some r := by
  unfold setInCombatWith
  split
  next r hr =>
    obtain ⟨ref, href, -⟩ := hi.views.sound true owner who r hr
    exact ⟨_, by simp only [refresh, href, Option.bind_eq_bind, Option.bind_some, Option.map_some]; rfl⟩
  next hpvp =>
  split
  · exact ⟨_, rfl⟩
  next hpve =>
  split
  · exact ⟨_, rfl⟩
  next hbegin =>
  have hne : owner ≠ who := by
    rintro rfl
    simp [canBeginCombat] at hbegin
  have hnone : ∀ pvp, ((c.unit owner).refsOf pvp).find? who = none := by
    intro pvp
    cases pvp with
    | false => exact Option.not_isSome_iff_eq_none.1 hpve
    | true => exact hpvp
  have hnone' : ∀ pvp, ((c.unit who).refsOf pvp).find? owner = none := by
    intro pvp
    refine Option.eq_none_iff_forall_ne_some.2 fun r hr => ?_
    obtain ⟨ref, href, hp, hjoins⟩ := hi.views.sound pvp who owner r hr
    have := hi.views.complete r ref owner who href (by simp) hjoins.symm
    rw [hnone] at this
    cases this
  have hput : ∀ {x : CombatState} {a b : ObjectGuid} {r : RefId} {ref : CombatReference}, x.refs r = some ref →
      (∀ pvp, ((x.unit a).refsOf pvp).find? b = none) → ∃ x', putReference env x a b r = some x' := by
    intro x a b r ref href hno
    have htrue : (x.unit a).pvpRefs.find? b = none := hno true
    have hfalse : (x.unit a).pveRefs.find? b = none := hno false
    simp only [putReference, href, Option.bind_eq_bind, Option.bind_some, htrue, hfalse]
    split
    · exact ⟨_, rfl⟩
    · exact ⟨_, rfl⟩
  obtain ⟨c₁, h₁⟩ := hput (x := { c with
      refs := Function.update c.refs c.nextRef (some (newReference env owner who)), nextRef := c.nextRef + 1 })
    (Function.update_self _ _ _) hnone
  obtain ⟨hr₁, -, -, hm₁⟩ := (@putReference_spec _ _ _ _ _ _ _ (newReference env owner who)) (Function.update_self _ _ _) h₁
  obtain ⟨c₂, h₂⟩ := hput (x := c₁) (r := c.nextRef) (by rw [hr₁]; exact Function.update_self _ _ _) (a := who) (b := owner)
    fun pvp => by rw [hm₁, if_neg fun h => hne h.1.symm]; exact hnone' pvp
  exact ⟨_, by simp only [h₁, h₂, Option.bind_eq_bind, Option.bind_some]; rfl⟩

theorem heapNotify_succeeds {up : Bool} (h : s.refs t = some ref) : ∃ s', heapNotify s t up = some s' :=
  ⟨_, by simp only [heapNotify, h, Option.bind_eq_bind, Option.bind_some]; rfl⟩

theorem refAddThreat_succeeds (h : s.refs t = some ref) (amount : Fl P.fmt) : ∃ s', refAddThreat s t amount = some s' := by
  unfold refAddThreat
  split
  · exact ⟨_, rfl⟩
  obtain ⟨s₁, h₁⟩ : ∃ s₁, (if 0 < amount then
      heapNotifyIncreased (s.setRef t { ref with baseAmount := max (ref.baseAmount + amount) 0 }) t
      else heapNotifyDecreased (s.setRef t { ref with baseAmount := max (ref.baseAmount + amount) 0 }) t) = some s₁ := by
    split
    · exact heapNotify_succeeds (Function.update_self _ _ _)
    · exact heapNotify_succeeds (Function.update_self _ _ _)
  exact ⟨_, by simp only [h, h₁, Option.bind_eq_bind, Option.bind_some]; rfl⟩

theorem addThreatToEntry_succeeds (h : s.refs t = some ref) (amount : Fl P.fmt) :
    ∃ s', addThreatToEntry env s t amount = some s' := by
  obtain ⟨s₁, h₁, ref₁, ht₁⟩ : ∃ s₁, (if ref.isSuppressed && !shouldBeSuppressed env ref then
      heapNotifyIncreased (s.setRef t { ref with online := .online }) t else some s) = some s₁ ∧
      ∃ ref₁, s₁.refs t = some ref₁ := by
    split
    · obtain ⟨s₁, h₁⟩ := (@heapNotify_succeeds P (s.setRef t { ref with online := .online }) t _ true) (Function.update_self _ _ _)
      exact ⟨s₁, h₁, _, by rw [refs_heapNotify h₁]; exact Function.update_self _ _ _⟩
    · exact ⟨s, rfl, ref, h⟩
  simp only [addThreatToEntry, h, h₁, ht₁, Option.bind_eq_bind, Option.bind_some]
  split
  · exact refAddThreat_succeeds ht₁ amount
  · exact ⟨_, rfl⟩

theorem addThreatEntry_succeeds (hi : ThreatInv s) (hno : (s.mgr owner).myThreatListEntries.find? v = none) (amount : Fl P.fmt) :
    ∃ s', addThreatEntry env s owner v amount = some s' := by
  have hbyMe : (s.mgr v).threatenedByMe.find? owner = none := by
    refine Option.eq_none_iff_forall_ne_some.2 fun t ht => ?_
    have := (hi.list _ _ _).2 ((hi.byMe _ _ _).1 ht)
    rw [hno] at this
    cases this
  obtain ⟨s₁, h₁, hm₁⟩ : ∃ s₁, putThreatListRef env (allocated s (newThreatReference env owner v)) owner v s.nextRef = some s₁ ∧
      (s₁.mgr v).threatenedByMe = (s.mgr v).threatenedByMe := by
    refine ⟨_, by simp only [putThreatListRef, hno, allocated, Function.update_self, Option.isSome_none, Bool.false_eq_true,
      if_false, Option.bind_eq_bind, Option.bind_some]; rfl, ?_⟩
    by_cases hv : v = owner
    · subst hv
      simp [ThreatState.setMgr]
    · simp [ThreatState.setMgr, hv]
  obtain ⟨s₂, h₂⟩ : ∃ s₂, putThreatenedByMeRef env s₁ v owner s.nextRef = some s₂ := by
    simp only [putThreatenedByMeRef, hm₁, hbyMe, Option.isSome_none, Bool.false_eq_true, if_false]
    exact ⟨_, rfl⟩
  obtain ⟨hrefs, -⟩ := (@put_eq _ _ _ (newThreatReference env owner v)) h₁ h₂
  have ht₂ : (s₂.refs s.nextRef).isSome = true := by rw [hrefs, Function.update_self]; rfl
  obtain ⟨s₃, h₃⟩ := (@updateOffline_succeeds _ env) ht₂
  obtain ⟨ref₃, ht₃⟩ := Option.isSome_iff_exists.1 (((SamePlaces.updateOffline h₃).live s.nextRef).trans ht₂)
  have h₁' : putThreatListRef env { s with
      refs := Function.update s.refs s.nextRef (some (newThreatReference env owner v)), nextRef := s.nextRef + 1 }
      owner v s.nextRef = some s₁ := h₁
  simp only [addThreatEntry, h₁', h₂, h₃, ht₃, Option.bind_eq_bind, Option.bind_some]
  split
  · exact refAddThreat_succeeds ht₃ amount
  · exact ⟨_, rfl⟩

theorem applyThreat_succeeds (hi : WorldInv w) (owner v : ObjectGuid) (amount : Fl P.fmt) :
    ∃ w', applyThreat env w owner v amount = some w' := by
  obtain ⟨⟨c, b⟩, hc⟩ := (@setInCombatWith_succeeds _ env w.canHaveThreatList _) hi.combat owner v
  have hw : w.setInCombatWith env owner v = some ({ w with combat := c }, b) := by
    rw [World.setInCombatWith, hc, Option.map_some]
  obtain ⟨hi₁, -⟩ := hi.setInCombatWith hw
  simp only [applyThreat, hw, Option.bind_eq_bind, Option.bind_some]
  split
  · exact ⟨_, rfl⟩
  split
  next t ht =>
    obtain ⟨ref, href, -⟩ := (hi.threat.list _ _ _).1 ht
    obtain ⟨s₁, h₁⟩ := (@addThreatToEntry_succeeds _ env _ _ _) href amount
    exact ⟨_, by simp only [h₁, Option.bind_some]; rfl⟩
  next hno =>
  obtain ⟨s₁, h₁⟩ := (@addThreatEntry_succeeds _ env _ _ _) hi.threat hno amount
  obtain ⟨hi₂, -⟩ := addThreatEntry_inv hi.threat hno h₁
  simp only [h₁, Option.bind_some]
  split
  · exact ⟨_, rfl⟩
  · obtain ⟨s₂, h₂⟩ := (@updateVictim_succeeds _ env _ owner) hi₂
    exact ⟨_, by simp only [h₂, Option.bind_some]; rfl⟩

end AtlasWow.Combat
