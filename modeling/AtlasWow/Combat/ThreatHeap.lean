/-
The threat heaps. Every change of a reference tells the heap in the direction
the reference moved (`HeapInv`), with one exception: `UpdateMyTempModifiers`
lets the first reference met decide for all. Where the others move the same
way (`TempModifiersAgree`), every notification is right and every heap keeps
its order.
-/
import AtlasWow.Combat.ThreatRuns

namespace AtlasWow.Combat

open ThreatState (refs_setRef_self refs_setMgr mgr_setMgr_self mgr_setMgr_of_ne mgr_setRef)

variable {P : Platform} {env : Env P} {s s' : ThreatState P} {u victim : ObjectGuid} {m : ThreatManager P}
  {canExpire : Bool}

/-! ## Positions -/

section Position

variable {fmt : FloatFormat} {a b ref : ThreatReference fmt} {x : Fl fmt}

theorem toNat_inj {x y : OnlineState} (h : x.toNat = y.toNat) : x = y := by
  cases x <;> cases y <;> first | rfl | cases h

theorem position_le_iff : a.position ≤ b.position ↔ a.online.toNat < b.online.toNat ∨
    a.online.toNat = b.online.toNat ∧ (a.taunted < b.taunted ∨ a.taunted = b.taunted ∧ a.getThreat ≤ b.getThreat) := by
  simp only [ThreatReference.position, Prod.Lex.toLex_le_toLex]

theorem position_lt_iff : a.position < b.position ↔ a.online.toNat < b.online.toNat ∨
    a.online.toNat = b.online.toNat ∧ (a.taunted < b.taunted ∨ a.taunted = b.taunted ∧ a.getThreat < b.getThreat) := by
  simp only [ThreatReference.position, Prod.Lex.toLex_lt_toLex]

/-- Without a weight the comparison is that of the positions. -/
theorem compareReferencesLT_one : compareReferencesLT a b 1 = true ↔ a.position < b.position := by
  rw [position_lt_iff, compareReferencesLT, Fl.mul_one]
  split
  next h =>
    have : a.online.toNat ≠ b.online.toNat := fun he => h (toNat_inj he)
    simp [this]
  next h =>
  have h : a.online = b.online := by simpa using h
  split
  next h' => simp [h, h']
  next h' =>
  have h' : a.taunted = b.taunted := by simpa using h'
  simp [h, h']

theorem position_le_of_online (h : a.online.toNat < b.online.toNat) : a.position ≤ b.position :=
  position_le_iff.2 (.inl h)

theorem position_le_of_taunted (h : a.online = b.online) (h' : a.taunted < b.taunted) : a.position ≤ b.position :=
  position_le_iff.2 (.inr ⟨by rw [h], .inl h'⟩)

theorem position_le_of_threat (h : a.online = b.online) (h' : a.taunted = b.taunted)
    (h'' : a.getThreat ≤ b.getThreat) : a.position ≤ b.position :=
  position_le_iff.2 (.inr ⟨by rw [h], .inr ⟨h', h''⟩⟩)

theorem getThreat_mono (h : ref.baseAmount ≤ x) : ref.getThreat ≤ { ref with baseAmount := x }.getThreat := by
  exact max_le_max (Fl.add_le_add h (le_refl _)) (le_refl _)

theorem getThreat_anti (h : x ≤ ref.baseAmount) : { ref with baseAmount := x }.getThreat ≤ ref.getThreat := by
  exact max_le_max (Fl.add_le_add h (le_refl _)) (le_refl _)

end Position

/-- Where a reference stands, `⊥` if it is deleted. -/
def posOf (s : ThreatState P) (t : ThreatId) : WithBot (Position P.fmt) := (s.refs t).map (·.position)

theorem compareThreat_iff (a b : ThreatId) : compareThreat s a b = true ↔ posOf s a < posOf s b := by
  unfold compareThreat posOf
  cases ha : s.refs a with
  | none =>
    cases hb : s.refs b with
    | none => exact ⟨fun h => by simp at h, fun h => absurd h (lt_irrefl _)⟩
    | some y => exact ⟨fun _ => WithBot.bot_lt_coe _, fun _ => rfl⟩
  | some x =>
    cases hb : s.refs b with
    | none => exact ⟨fun h => by simp at h, fun h => absurd h not_lt_bot⟩
    | some y => exact compareReferencesLT_one.trans WithBot.coe_lt_coe.symm

theorem strictWeak_compareThreat (s : ThreatState P) : StrictWeak (compareThreat s) := .of_key compareThreat_iff

theorem compareThreat_congr {i j : ThreatId} (hi : s'.refs i = s.refs i) (hj : s'.refs j = s.refs j) :
    compareThreat s' i j = compareThreat s i j := by
  unfold compareThreat
  rw [hi, hj]

/-! ## The invariant -/

/-- The notification has the direction in which the reference moved since the heap last placed it. -/
def HeapNotify.Right {fmt : FloatFormat} (n : HeapNotify fmt) : Prop :=
  ∃ p, n.before = some p ∧ if n.increased then p ≤ n.after else n.after ≤ p

/-- Every reference is where its heap has put it, and has never been moved the wrong way. -/
structure HeapInv (s : ThreatState P) : Prop where
  places : ThreatInv s
  base : ∀ t ref, s.refs t = some ref → 0 ≤ ref.baseAmount
  inPlace : ∀ t ref, s.refs t = some ref → s.inPlace t = some ref.position
  log : ∀ n ∈ s.heapLog, n.Right
  order : ∀ o, P.heap.HeapOrder (compareThreat s) (s.mgr o).sortedThreatList

theorem heapInv_init (can : ObjectGuid → Bool) : HeapInv (.init P can) where
  places := threatInv_init can
  base := fun _ _ h => by cases h
  inPlace := fun _ _ h => by cases h
  log := fun _ h => by cases h
  order := fun _ => P.heap.heapOrder_empty _

/-- A change that neither touches a reference nor a heap. -/
theorem HeapInv.same (hi : HeapInv s) (hp : ThreatInv s') (hr : s'.refs = s.refs) (hpl : s'.inPlace = s.inPlace)
    (hl : s'.heapLog = s.heapLog) (hh : ∀ o, (s'.mgr o).sortedThreatList = (s.mgr o).sortedThreatList) :
    HeapInv s' where
  places := hp
  base := by rw [hr]; exact hi.base
  inPlace := by rw [hr, hpl]; exact hi.inPlace
  log := by rw [hl]; exact hi.log
  order := by
    intro o
    rw [hh]
    exact P.heap.heapOrder_congr _ _ _ (fun a _ b _ => compareThreat_congr (by rw [hr]) (by rw [hr])) (hi.order o)

theorem HeapInv.setMgr (hi : HeapInv s) (hp : ThreatInv (s.setMgr u m))
    (hh : m.sortedThreatList = (s.mgr u).sortedThreatList) : HeapInv (s.setMgr u m) := by
  refine hi.same hp rfl rfl rfl fun o => ?_
  by_cases ho : o = u
  · subst ho; simpa using hh
  · simp [ho]

theorem HeapInv.setNeedClientUpdate (hi : HeapInv s) (u : ObjectGuid) (b : Bool) :
    HeapInv (s.setNeedClientUpdate u b) :=
  hi.setMgr ((SamePlaces.setNeedClientUpdate s u b).inv hi.places) rfl

/-! ## Moving a reference -/

variable {t : ThreatId} {up : Bool} {percent : Int} {owner target me : ObjectGuid} {spellId : Nat}

/-- A reference changes, and its heap is told the direction in which it moved: every heap keeps its order. -/
theorem heapOrder_setRefNotify {ref ref' : ThreatReference P.fmt} {o : ObjectGuid}
    (hi : ThreatInv s) (ht : s.refs t = some ref) (h : heapNotify (s.setRef t ref') t up = some s')
    (ho : ref'.owner = ref.owner) (hd : if up then ref.position ≤ ref'.position else ref'.position ≤ ref.position)
    (hord : P.heap.HeapOrder (compareThreat s) (s.mgr o).sortedThreatList) :
    P.heap.HeapOrder (compareThreat s') (s'.mgr o).sortedThreatList := by
  have hmem : t ∈ P.heap.elems (s.mgr ref.owner).sortedThreatList := (hi.heap _ _).2 ⟨ref, ht, rfl⟩
  simp only [heapNotify, refs_setRef_self, Option.bind_eq_bind, Option.bind_some, Option.some.injEq] at h
  subst h
  have hold : ∀ b, b ≠ t → (s.setRef t ref').refs b = s.refs b := fun b hb => Function.update_of_ne hb _ _
  have hkey : ∀ b, b ≠ t → posOf (s.setRef t ref') b = posOf s b := fun b hb => by rw [posOf, posOf, hold b hb]
  have hpos : posOf s t = (ref.position : WithBot (Position P.fmt)) := by rw [posOf, ht]; rfl
  have hpos' : posOf (s.setRef t ref') t = (ref'.position : WithBot (Position P.fmt)) := by
    rw [posOf, refs_setRef_self]; rfl
  by_cases hoo : o = ref'.owner
  · subst hoo
    simp only [mgr_setMgr_self, mgr_setRef]
    have hnd := hi.nodup ref'.owner
    rw [← ho] at hmem
    cases up
    · refine P.heap.heapOrder_decrease _ _ _ _ (strictWeak_compareThreat (s.setRef t ref')) hnd hmem ?_ hord
      refine .of_key compareThreat_iff compareThreat_iff hkey (le_of_eq_of_le hpos' ?_)
      rw [hpos]
      exact WithBot.coe_le_coe.2 (by simpa using hd)
    · refine P.heap.heapOrder_increase _ _ _ _ (strictWeak_compareThreat (s.setRef t ref')) hnd hmem ?_ hord
      refine .of_key compareThreat_iff compareThreat_iff hkey (le_of_le_of_eq ?_ hpos'.symm)
      rw [hpos]
      exact WithBot.coe_le_coe.2 (by simpa using hd)
  · simp only [mgr_setMgr_of_ne hoo, mgr_setRef]
    refine P.heap.heapOrder_congr _ _ _ (fun a ha b hb => ?_) hord
    -- the reference is on another list
    have hne : ∀ x ∈ P.heap.elems (s.mgr o).sortedThreatList, x ≠ t := by
      rintro x hx rfl
      exact hoo ((owner_of_onList ht ((hi.heap _ _).1 hx)).trans ho.symm)
    exact compareThreat_congr (hold a (hne a ha)) (hold b (hne b hb))

theorem HeapInv.setRefNotify {ref ref' : ThreatReference P.fmt} (hi : HeapInv s)
    (ht : s.refs t = some ref) (h : heapNotify (s.setRef t ref') t up = some s') (ho : ref'.owner = ref.owner)
    (hv : ref'.victim = ref.victim) (hb : 0 ≤ ref'.baseAmount)
    (hd : if up then ref.position ≤ ref'.position else ref'.position ≤ ref.position) : HeapInv s' := by
  have hp := (SamePlaces.setRefNotify ht h ho hv).inv hi.places
  have hord := fun o => heapOrder_setRefNotify hi.places ht h ho hd (hi.order o)
  simp only [heapNotify, refs_setRef_self, Option.bind_eq_bind, Option.bind_some, Option.some.injEq] at h
  subst h
  have hold : ∀ b, b ≠ t → (s.setRef t ref').refs b = s.refs b := fun b hb => Function.update_of_ne hb _ _
  refine ⟨hp, ?_, ?_, ?_, hord⟩
  · intro b x hx
    by_cases hbt : b = t
    · subst hbt; rw [refs_setMgr, refs_setRef_self] at hx; cases hx; exact hb
    · exact hi.base b x ((hold b hbt).symm.trans hx)
  · intro b x hx
    by_cases hbt : b = t
    · subst hbt; rw [refs_setMgr, refs_setRef_self] at hx; cases hx; simp
    · exact (Function.update_of_ne hbt _ _).trans (hi.inPlace b x ((hold b hbt).symm.trans hx))
  · intro n hn
    rcases List.mem_cons.1 hn with rfl | hn
    · exact ⟨ref.position, hi.inPlace t ref ht, hd⟩
    · exact hi.log n hn

theorem refs_heapNotify (h : heapNotify s t up = some s') : s'.refs = s.refs := by
  simp only [heapNotify, Option.bind_eq_bind, Option.bind_eq_some_iff] at h
  obtain ⟨ref, -, h⟩ := h
  cases h
  rfl

/-- The same, where a condition decides the direction. -/
theorem HeapInv.setRefNotifyIf {ref ref' : ThreatReference P.fmt} {c : Prop} [Decidable c]
    (hi : HeapInv s) (ht : s.refs t = some ref)
    (h : (if c then heapNotifyIncreased (s.setRef t ref') t else heapNotifyDecreased (s.setRef t ref') t) = some s')
    (ho : ref'.owner = ref.owner) (hv : ref'.victim = ref.victim) (hb : 0 ≤ ref'.baseAmount)
    (hup : c → ref.position ≤ ref'.position) (hdown : ¬ c → ref'.position ≤ ref.position) : HeapInv s' := by
  split at h
  next hc => exact hi.setRefNotify ht h ho hv hb (by simpa using hup hc)
  next hc => exact hi.setRefNotify ht h ho hv hb (by simpa using hdown hc)

theorem HeapInv.foldlM {α : Type} {f : ThreatState P → α → Option (ThreatState P)} {l : List α}
    (hf : ∀ x {a b}, HeapInv a → f a x = some b → HeapInv b) (hi : HeapInv s) (h : l.foldlM f s = some s') :
    HeapInv s' :=
  foldlM_invariant HeapInv (fun x _ _ ha hab => hf x ha hab) hi h

/-! ## Threat amounts -/

theorem HeapInv.refAddThreat {amount : Fl P.fmt} (hi : HeapInv s)
    (h : refAddThreat s t amount = some s') : HeapInv s' := by
  unfold Combat.refAddThreat at h
  split at h
  · cases h; exact hi
  next hne =>
  simp only [Option.bind_eq_bind, Option.bind_eq_some_iff] at h
  obtain ⟨ref, ht, s₁, h₁, h⟩ := h
  cases h
  refine HeapInv.setNeedClientUpdate ?_ _ _
  have hb := hi.base t ref ht
  refine hi.setRefNotifyIf ht h₁ rfl rfl (le_max_right _ _) (fun hpos => ?_) fun hpos => ?_
  · exact position_le_of_threat rfl rfl
      (getThreat_mono (le_trans (Fl.le_add_of_nonneg (le_of_lt hpos)) (le_max_left _ _)))
  · have hneg : amount ≤ 0 := le_of_not_gt hpos
    exact position_le_of_threat rfl rfl (getThreat_anti (max_le (Fl.add_le_of_nonpos hneg) hb))

theorem HeapInv.refScaleThreat {factor : Fl P.fmt} (hi : HeapInv s) (hf : 0 ≤ factor)
    (h : refScaleThreat s t factor = some s') : HeapInv s' := by
  unfold Combat.refScaleThreat at h
  split at h
  · cases h; exact hi
  simp only [Option.bind_eq_bind, Option.bind_eq_some_iff] at h
  obtain ⟨ref, ht, s₁, h₁, h⟩ := h
  cases h
  refine HeapInv.setNeedClientUpdate ?_ _ _
  have hb := hi.base t ref ht
  refine hi.setRefNotifyIf ht h₁ rfl rfl (Fl.mul_nonneg hb hf) (fun hgt => ?_) fun hgt => ?_
  · exact position_le_of_threat rfl rfl (getThreat_mono (Fl.le_mul_of_one_le hb (le_of_lt hgt)))
  · exact position_le_of_threat rfl rfl (getThreat_anti (Fl.mul_le_of_le_one hb (le_of_not_gt hgt)))

theorem percentFactor_nonneg {fmt : FloatFormat} (h : -100 ≤ percent) : (0 : Fl fmt) ≤ percentFactor percent :=
  Fl.mul_nonneg (Fl.ofRat_nonneg (by norm_num)) (Fl.ofRat_nonneg (by exact_mod_cast (by omega : 0 ≤ 100 + percent)))

theorem HeapInv.refModifyThreatByPercent (hi : HeapInv s) (hp : -100 ≤ percent)
    (h : refModifyThreatByPercent s t percent = some s') : HeapInv s' := by
  unfold Combat.refModifyThreatByPercent at h
  split at h
  · exact hi.refScaleThreat (percentFactor_nonneg hp) h
  · cases h; exact hi

/-- The manager's `ScaleThreat` never passes on a negative factor. -/
theorem HeapInv.scaleThreat {factor : Fl P.fmt} (hi : HeapInv s)
    (h : scaleThreat s owner target factor = some s') : HeapInv s' := by
  unfold Combat.scaleThreat at h
  split at h
  · cases h; exact hi
  · exact hi.refScaleThreat (le_max_right _ _) h

theorem HeapInv.modifyThreatByPercent (hi : HeapInv s)
    (h : modifyThreatByPercent s owner target percent = some s') : HeapInv s' := by
  unfold Combat.modifyThreatByPercent at h
  split at h
  · exact hi.scaleThreat h
  · cases h; exact hi

theorem HeapInv.resetAllThreat (hi : HeapInv s) (h : resetAllThreat s owner = some s') : HeapInv s' :=
  hi.foldlM (fun _ _ _ ha hab => ha.refScaleThreat (le_refl _) hab) h

/-! ## Online and taunt states -/

/-- An update of the online state does nothing, or moves the reference as its heap is told. -/
theorem updateOffline_moves (h : updateOffline env s t = some s') : s' = s ∨
    ∃ ref state up, s.refs t = some ref ∧ heapNotify (s.setRef t { ref with online := state }) t up = some s' ∧
      if up then ref.position ≤ { ref with online := state }.position
      else { ref with online := state }.position ≤ ref.position := by
  simp only [Combat.updateOffline, Option.bind_eq_bind, Option.bind_eq_some_iff] at h
  obtain ⟨ref, ht, h⟩ := h
  split at h
  · cases h; exact .inl rfl
  next hne =>
  split at h
  next hoff =>
    refine .inr ⟨ref, .offline, false, ht, h, ?_⟩
    have : ref.isOffline = false := by simpa [hoff] using hne
    simp only [ThreatReference.isOffline, decide_eq_false_iff_not, not_le] at this
    exact position_le_of_online this
  next hoff =>
  refine .inr ⟨ref, onlineOrSuppressed env ref, true, ht, h, ?_⟩
  have : ref.isOffline = true := by simpa [hoff] using hne
  simp only [ThreatReference.isOffline, decide_eq_true_eq] at this
  refine position_le_of_online (lt_of_le_of_lt this ?_)
  simp only [onlineOrSuppressed]
  split <;> decide

theorem HeapInv.updateOffline (hi : HeapInv s) (h : updateOffline env s t = some s') : HeapInv s' := by
  obtain rfl | ⟨ref, state, up, ht, hn, hd⟩ := updateOffline_moves h
  · exact hi
  · exact hi.setRefNotify ht hn rfl rfl (hi.base t ref ht) hd

theorem HeapInv.updateTauntState {state : Nat} (hi : HeapInv s)
    (h : updateTauntState env s t state = some s') : HeapInv s' := by
  simp only [Combat.updateTauntState, Option.bind_eq_bind, Option.bind_eq_some_iff] at h
  obtain ⟨ref, ht, h⟩ := h
  generalize (if (decide (state < TAUNT_STATE_TAUNT) && env.hasDetauntAuraFrom ref.victim ref.owner) = true
    then TAUNT_STATE_DETAUNT else state) = state at h
  split at h
  · cases h; exact hi
  next hne =>
  simp only [Option.bind_eq_some_iff] at h
  obtain ⟨s₁, h₁, h⟩ := h
  cases h
  refine HeapInv.setNeedClientUpdate ?_ _ _
  split at h₁
  next hlt => exact hi.setRefNotify ht h₁ rfl rfl (hi.base t ref ht) (position_le_of_taunted rfl hlt)
  next hlt =>
  have : ref.taunted < state := by omega
  exact hi.setRefNotify ht h₁ rfl rfl (hi.base t ref ht) (position_le_of_taunted rfl this)

theorem HeapInv.evaluateSuppressedRef (hi : HeapInv s)
    (h : evaluateSuppressedRef env canExpire s t = some s') : HeapInv s' := by
  simp only [Combat.evaluateSuppressedRef, Option.bind_eq_bind, Option.bind_eq_some_iff] at h
  obtain ⟨ref, ht, h⟩ := h
  split at h
  next hc =>
    have : 2 ≤ ref.online.toNat := by
      simp only [Bool.and_eq_true, ThreatReference.isOnline, decide_eq_true_eq] at hc
      exact hc.1
    exact hi.setRefNotify ht h rfl rfl (hi.base t ref ht) (position_le_of_online this)
  split at h
  next hc =>
    have : ref.online = .suppressed := by
      simp only [Bool.and_eq_true, ThreatReference.isSuppressed, decide_eq_true_eq] at hc
      exact hc.1.2
    exact hi.setRefNotify ht h rfl rfl (hi.base t ref ht) (position_le_of_online (by simp [this, OnlineState.toNat]))
  · cases h; exact hi

theorem HeapInv.evaluateSuppressed (hi : HeapInv s)
    (h : evaluateSuppressed env s me canExpire = some s') : HeapInv s' :=
  hi.foldlM (fun _ _ _ ha hab => ha.evaluateSuppressedRef hab) h

theorem HeapInv.tauntUpdate (hi : HeapInv s) (h : tauntUpdate env s owner = some s') : HeapInv s' := by
  simp only [Combat.tauntUpdate, Option.bind_eq_bind, Option.bind_eq_some_iff] at h
  obtain ⟨s₁, h₁, h⟩ := h
  exact (hi.foldlM (fun _ _ _ ha hab => ha.updateTauntState hab) h₁).evaluateSuppressed h

/-! ## Temporary modifiers -/

/-- With the modifier `mod` the threat does not go down (`up`), or not up. -/
def MovesWith {fmt : FloatFormat} (up : Bool) (mod : Int) (ref : ThreatReference fmt) : Prop :=
  if up then ref.getThreat ≤ { ref with tempModifier := mod }.getThreat
  else { ref with tempModifier := mod }.getThreat ≤ ref.getThreat

instance {fmt : FloatFormat} (up : Bool) (mod : Int) (ref : ThreatReference fmt) : Decidable (MovesWith up mod ref) :=
  inferInstanceAs (Decidable (if up then _ else _))

/-- With the new modifier, every reference to `me` moves the way the modifier of the first one met tells. -/
def TempModifiersAgree (env : Env P) (s : ThreatState P) (me : ObjectGuid) : Prop :=
  ∀ e₀ ∈ (s.mgr me).threatenedByMe.entries.head?, ∀ first ∈ s.refs e₀.2,
  ∀ e ∈ (s.mgr me).threatenedByMe.entries, ∀ ref ∈ s.refs e.2,
    MovesWith (first.tempModifier < (env.totalThreatAuras me).sum) (env.totalThreatAuras me).sum ref

instance (env : Env P) (s : ThreatState P) (me : ObjectGuid) : Decidable (TempModifiersAgree env s me) :=
  inferInstanceAs (Decidable (∀ e₀ ∈ (s.mgr me).threatenedByMe.entries.head?, ∀ first ∈ s.refs e₀.2,
    ∀ e ∈ (s.mgr me).threatenedByMe.entries, ∀ ref ∈ s.refs e.2, MovesWith _ _ ref))

theorem ThreatInv.byMe_nodup (hi : ThreatInv s) (me : ObjectGuid) :
    ((s.mgr me).threatenedByMe.entries.map Prod.snd).Nodup := by
  refine List.Nodup.map_on ?_ (s.mgr me).threatenedByMe.nodup.of_map
  rintro ⟨o, t⟩ hx ⟨o', t'⟩ hy rfl
  obtain ⟨ref, ht, rfl, -⟩ := (hi.byMe me o t).1 (UMap.mem_entries.1 hx)
  obtain ⟨ref', ht', rfl, -⟩ := (hi.byMe me o' t).1 (UMap.mem_entries.1 hy)
  rw [ht] at ht'
  cases ht'
  rfl

section

variable (hi : HeapInv s)

include hi

theorem HeapInv.setTempModifier {ref : ThreatReference P.fmt} {mod : Int}
    (hr : s.refs t = some ref) (hd : MovesWith up mod ref) (h : setTempModifier mod up s t = some s') :
    HeapInv s' ∧ ∀ t', t' ≠ t → s'.refs t' = s.refs t' := by
  simp only [Combat.setTempModifier, hr, Option.bind_eq_bind, Option.bind_some] at h
  have hrefs : s'.refs = (s.setRef t { ref with tempModifier := mod }).refs := by
    split at h <;> exact refs_heapNotify h
  refine ⟨?_, fun t' ht' => by rw [hrefs]; exact Function.update_of_ne ht' _ _⟩
  refine hi.setRefNotifyIf hr h rfl rfl (hi.base t ref hr) (fun hc => ?_) fun hc => ?_
  · subst hc
    exact position_le_of_threat rfl rfl hd
  · have hc : up = false := by simpa using hc
    subst hc
    exact position_le_of_threat rfl rfl hd

theorem HeapInv.updateMyTempModifiers (ha : TempModifiersAgree env s me)
    (h : updateMyTempModifiers env s me = some s') : HeapInv s' := by
  simp only [Combat.updateMyTempModifiers] at h
  split at h
  · cases h; exact hi
  next g t rest hent =>
  simp only [Option.bind_eq_bind, Option.bind_eq_some_iff] at h
  obtain ⟨first, hfirst, h⟩ := h
  have hagree := ha (g, t) (by simp [hent]) first hfirst
  have hnd := hi.places.byMe_nodup me
  rw [hent] at hagree hnd
  generalize (env.totalThreatAuras me).sum = mod at h hagree
  generalize decide (first.tempModifier < mod) = up at h hagree
  -- the references still ahead are as they were
  let I : List (ObjectGuid × ThreatId) → ThreatState P → Prop := fun rest s =>
    HeapInv s ∧ (rest.map Prod.snd).Nodup ∧ ∀ e ∈ rest, ∀ ref ∈ s.refs e.2, MovesWith up mod ref
  refine (foldlM_invariant_rest I ?_ ⟨hi, hnd, hagree⟩ h).1
  rintro e rest a b ⟨hia, hnda, hra⟩ hab
  simp only [List.map_cons, List.nodup_cons] at hnda
  obtain ⟨ref, hr⟩ : ∃ ref, a.refs e.2 = some ref := by
    simp only [Combat.setTempModifier, Option.bind_eq_bind, Option.bind_eq_some_iff] at hab
    obtain ⟨ref, hr, -⟩ := hab
    exact ⟨ref, hr⟩
  obtain ⟨hib, hsame⟩ := hia.setTempModifier hr (hra e (by simp) ref hr) hab
  refine ⟨hib, hnda.2, fun e' he' ref' hr' => ?_⟩
  have hne : e'.2 ≠ e.2 := fun he => hnda.1 (he ▸ List.mem_map_of_mem he')
  exact hra e' (by simp [he']) ref' ((hsame _ hne).symm.trans hr')

/-! ## Linking and unlinking -/

theorem HeapInv.unregisterAndFree (h : unregisterAndFree s t = some s') : HeapInv s' := by
  obtain ⟨ref, ht⟩ : ∃ ref, s.refs t = some ref := by
    simp only [Combat.unregisterAndFree, Option.bind_eq_bind, Option.bind_eq_some_iff] at h
    obtain ⟨ref, ht, -⟩ := h
    exact ⟨ref, ht⟩
  obtain ⟨s₁, h₁, hu⟩ := unregisterAndFree_unlinked hi.places ht
  obtain ⟨s₂, h₂, hrefs, -, hmgr, hplace, hlog⟩ := unregisterAndFree_eq hi.places ht
  rw [h] at h₁ h₂
  cases h₁
  cases h₂
  have hold : ∀ b x, s'.refs b = some x → b ≠ t ∧ s.refs b = some x := by
    intro b x hx
    rw [hrefs] at hx
    by_cases hb : b = t
    · subst hb; simp at hx
    · exact ⟨hb, by rwa [Function.update_of_ne hb] at hx⟩
  refine ⟨hu.inv, fun b x hx => hi.base b x (hold b x hx).2, fun b x hx => ?_, by rw [hlog]; exact hi.log, fun o => ?_⟩
  · rw [hplace]; exact hi.inPlace b x (hold b x hx).2
  · have hcongr : ∀ b ∈ P.heap.elems (s'.mgr o).sortedThreatList, s'.refs b = s.refs b := by
      intro b hb
      obtain ⟨x, hx, -⟩ := (hu.inv.heap o b).1 hb
      rw [hx, (hold b x hx).2]
    refine P.heap.heapOrder_congr (compareThreat s) _ _
      (fun a ha b hb => compareThreat_congr (hcongr a ha) (hcongr b hb)) ?_
    rw [hmgr]
    simp only [unregistered]
    split
    · exact P.heap.heapOrder_erase _ _ _ (strictWeak_compareThreat s) (hi.order o)
    · exact hi.order o

theorem HeapInv.put {owner target : ObjectGuid} {ref : ThreatReference P.fmt} {s₁ s₂ : ThreatState P}
    (ho : ref.owner = owner) (hv : ref.victim = target) (hno : (s.mgr owner).myThreatListEntries.find? target = none)
    (hb : 0 ≤ ref.baseAmount)
    (h₁ : putThreatListRef env (allocated s ref) owner target s.nextRef = some s₁)
    (h₂ : putThreatenedByMeRef env s₁ target owner s.nextRef = some s₂) : HeapInv s₂ := by
  subst ho hv
  obtain ⟨hrefs, -, hmgr, hplace, hlog⟩ := put_eq h₁ h₂
  have hp := (put_inv hi.places (fun t ht => by rw [(hi.places.list _ _ _).2 ht] at hno; cases hno) h₁ h₂).1
  have hfresh : ∀ b x, s.refs b = some x → b ≠ s.nextRef := by
    rintro b x hx rfl
    rw [hi.places.fresh _ (Nat.le_refl _)] at hx
    cases hx
  have hnew : ∀ b x, s₂.refs b = some x → (b = s.nextRef ∧ x = ref) ∨ (b ≠ s.nextRef ∧ s.refs b = some x) := by
    intro b x hx
    rw [hrefs] at hx
    by_cases hb : b = s.nextRef
    · subst hb
      rw [Function.update_self] at hx
      exact .inl ⟨rfl, (Option.some.inj hx).symm⟩
    · exact .inr ⟨hb, by rwa [Function.update_of_ne hb] at hx⟩
  have hsame : ∀ o, ∀ b ∈ P.heap.elems (s.mgr o).sortedThreatList, (allocated s ref).refs b = s.refs b := by
    intro o b hb
    obtain ⟨x, hx, -⟩ := (hi.places.heap o b).1 hb
    exact Function.update_of_ne (hfresh b x hx) _ _
  have hord : ∀ o, P.heap.HeapOrder (compareThreat (allocated s ref)) (s.mgr o).sortedThreatList := fun o =>
    P.heap.heapOrder_congr _ _ _ (fun a ha b hb => compareThreat_congr (hsame o a ha) (hsame o b hb)) (hi.order o)
  refine ⟨hp, fun b x hx => ?_, fun b x hx => ?_, by rw [hlog]; exact hi.log, fun o => ?_⟩
  · rcases hnew b x hx with ⟨-, rfl⟩ | ⟨-, hx⟩
    · exact hb
    · exact hi.base b x hx
  · rw [hplace]
    rcases hnew b x hx with ⟨rfl, rfl⟩ | ⟨hne, hx⟩
    · simp
    · rw [Function.update_of_ne hne]; exact hi.inPlace b x hx
  · refine P.heap.heapOrder_congr (compareThreat (allocated s ref)) _ _
      (fun a _ b _ => compareThreat_congr (by rw [hrefs]; rfl) (by rw [hrefs]; rfl)) ?_
    rw [hmgr]
    simp only [linked]
    split
    · refine P.heap.heapOrder_push _ _ _ (strictWeak_compareThreat _) (fun hm => ?_) (hord o)
      obtain ⟨x, hx, -⟩ := (hi.places.heap o _).1 hm
      exact hfresh _ x hx rfl
    · exact hord o

theorem HeapInv.addThreatEntry {amount : Fl P.fmt} (hno : (s.mgr owner).myThreatListEntries.find? target = none)
    (h : addThreatEntry env s owner target amount = some s') : HeapInv s' := by
  simp only [Combat.addThreatEntry, Option.bind_eq_bind, Option.bind_eq_some_iff] at h
  obtain ⟨s₁, h₁, s₂, h₂, s₃, h₃, ref', -, h⟩ := h
  have hi₂ := (@HeapInv.put _ _ _ hi _ _ (newThreatReference env owner target)) rfl rfl hno (le_refl _) h₁ h₂
  have hi₃ := hi₂.updateOffline h₃
  split at h
  · exact hi₃.refAddThreat h
  · cases h; exact hi₃

theorem HeapInv.addThreatToEntry {amount : Fl P.fmt} (h : addThreatToEntry env s t amount = some s') : HeapInv s' := by
  simp only [Combat.addThreatToEntry, Option.bind_eq_bind, Option.bind_eq_some_iff] at h
  obtain ⟨ref, ht, s₁, h₁, ref₁, -, h⟩ := h
  have hi₁ : HeapInv s₁ := by
    split at h₁
    next hc =>
      have : ref.online = .suppressed := by
        simp only [Bool.and_eq_true, ThreatReference.isSuppressed, decide_eq_true_eq] at hc
        exact hc.1
      exact hi.setRefNotify ht h₁ rfl rfl (hi.base t ref ht)
        (position_le_of_online (by simp [this, OnlineState.toNat]))
    next => cases h₁; exact hi
  split at h
  · exact hi₁.refAddThreat h
  · cases h; exact hi₁

/-! ## Target selection and the loops -/

theorem HeapInv.updateVictim (h : updateVictim env s owner = some s') : HeapInv s' := by
  have hp := (updateVictim_inv hi.places h).1
  simp only [Combat.updateVictim, Option.bind_eq_bind, Option.bind_eq_some_iff] at h
  obtain ⟨⟨s₁, v⟩, h₁, h⟩ := h
  cases h
  refine HeapInv.setMgr ?_ hp rfl
  simp only [reselectVictim] at h₁
  split at h₁
  · cases h₁; exact hi
  simp only [Option.bind_eq_bind, Option.bind_eq_some_iff] at h₁
  obtain ⟨s₂, h₂, v', -, h₁⟩ := h₁
  cases h₁
  exact hi.foldlM (fun _ _ _ ha hab => ha.updateOffline hab) h₂

theorem HeapInv.updateThreat {tdiff : Nat} (h : updateThreat env s owner tdiff = some s') : HeapInv s' := by
  have hp := (updateThreat_inv hi.places h).1
  simp only [Combat.updateThreat] at h
  split at h
  · cases h; exact hi
  split at h
  · simp only [Option.bind_eq_bind, Option.bind_eq_some_iff] at h
    obtain ⟨s₁, h₁, h⟩ := h
    cases h
    exact (hi.updateVictim h₁).setMgr hp rfl
  · cases h
    exact hi.setMgr hp rfl

theorem HeapInv.getCurrentVictim (h : getCurrentVictim env s owner = some s') : HeapInv s' := by
  unfold Combat.getCurrentVictim at h
  split at h
  · exact hi.updateVictim h
  simp only [Option.bind_eq_bind, Option.bind_eq_some_iff] at h
  obtain ⟨ref, -, h⟩ := h
  split at h
  · exact hi.updateVictim h
  · cases h; exact hi

theorem HeapInv.clearThreat (h : clearThreat env s owner target = some s') : HeapInv s' := by
  unfold Combat.clearThreat at h
  split at h
  · cases h; exact hi
  simp only [clearThreatRef, Option.bind_eq_bind, Option.bind_eq_some_iff] at h
  obtain ⟨s₁, h₁, h⟩ := h
  split at h
  · exact (hi.unregisterAndFree h₁).updateVictim h
  · cases h; exact hi.unregisterAndFree h₁

theorem HeapInv.clearAllThreat (h : clearAllThreat s owner = some s') : HeapInv s' := by
  refine (whileLoop_invariant HeapInv (fun a b ha _ hab => ?_) hi h).1
  simp only [clearFirstEntry, Option.bind_eq_bind, Option.bind_eq_some_iff] at hab
  obtain ⟨e, -, hab⟩ := hab
  exact ha.unregisterAndFree hab

theorem HeapInv.removeMeFromThreatLists (h : removeMeFromThreatLists env s me = some s') : HeapInv s' := by
  refine (whileLoop_invariant HeapInv (fun a b ha _ hab => ?_) hi h).1
  simp only [leaveFirstThreatList, Option.bind_eq_bind, Option.bind_eq_some_iff] at hab
  obtain ⟨e, -, ref, -, hab⟩ := hab
  exact ha.clearThreat hab

theorem HeapInv.fixateTarget {target : Option ObjectGuid} :
    HeapInv (fixateTarget s owner target) := hi.setMgr (fixateTarget_inv hi.places).1 rfl

/-! ## Modifiers and redirection -/

/-- A change of a manager that concerns neither its lists nor its pointers. -/
theorem HeapInv.setModifiers
    (h₁ : m.myThreatListEntries = (s.mgr u).myThreatListEntries) (h₂ : m.threatenedByMe = (s.mgr u).threatenedByMe)
    (h₃ : m.sortedThreatList = (s.mgr u).sortedThreatList) (h₄ : m.currentVictimRef = (s.mgr u).currentVictimRef)
    (h₅ : m.fixateRef = (s.mgr u).fixateRef) : HeapInv (s.setMgr u m) :=
  hi.setMgr (hi.places.setPointers h₁ h₂ h₃ (by rw [h₄]; exact hi.places.current u)
    (by rw [h₅]; exact hi.places.fixate u)) h₃

theorem HeapInv.modifyAmount {amount : Fl P.fmt} {spell : Option SpellInfo} {im : Bool} : HeapInv (modifyAmount env s amount target spell im).1 := by
  unfold Combat.modifyAmount
  split
  · exact hi
  simp only [calculateModifiedThreat]
  split
  · exact hi
  split
  · exact hi
  · exact hi.setModifiers rfl rfl rfl rfl rfl

theorem HeapInv.updateRedirectInfo (me : ObjectGuid) : HeapInv (updateRedirectInfo s me) :=
  hi.setModifiers rfl rfl rfl rfl rfl

theorem HeapInv.registerRedirectThreat {pct : Nat} : HeapInv (registerRedirectThreat env s me spellId victim pct) :=
  HeapInv.updateRedirectInfo (by exact hi.setModifiers rfl rfl rfl rfl rfl) me

theorem HeapInv.unregisterRedirectThreat : HeapInv (unregisterRedirectThreat s me spellId) := by
  simp only [Combat.unregisterRedirectThreat]
  split
  · exact hi
  · exact HeapInv.updateRedirectInfo (by exact hi.setModifiers rfl rfl rfl rfl rfl) me

theorem HeapInv.unregisterRedirectThreatFor : HeapInv (unregisterRedirectThreatFor env s me spellId victim) := by
  simp only [Combat.unregisterRedirectThreatFor]
  split
  · exact hi
  split
  · exact hi
  · exact HeapInv.updateRedirectInfo (by exact hi.setModifiers rfl rfl rfl rfl rfl) me

end

/-! ## Calls on a world -/

section World

variable {w w' : World P}

variable {owner target : ObjectGuid} {amount : Fl P.fmt} {spell : Option SpellInfo} {im pvp : Bool}
  {e : ObjectGuid × RefId} {range : ℚ}

section

variable (hi : HeapInv w.threat)

include hi

theorem HeapInv.worldSetInCombatWith {who : ObjectGuid} {b : Bool}
    (h : w.setInCombatWith env owner who = some (w', b)) : HeapInv w'.threat := by
  simp only [World.setInCombatWith, Option.map_eq_some_iff, Prod.mk.injEq] at h
  obtain ⟨⟨c, b'⟩, -, rfl, -⟩ := h
  exact hi

theorem HeapInv.addCombatOnly (h : addCombatOnly env w owner target = some w') : HeapInv w'.threat := by
  simp only [Combat.addCombatOnly, Option.bind_eq_bind, Option.bind_eq_some_iff] at h
  obtain ⟨⟨w₁, b⟩, h₁, h⟩ := h
  have hi₁ := hi.worldSetInCombatWith h₁
  split at h
  · cases h; exact hi₁
  refine foldlM_invariant (fun w => HeapInv w.threat) (fun pair a b ha hab => ?_) hi₁ h
  split at hab
  · simp only [Option.map_eq_some_iff] at hab
    obtain ⟨⟨w₂, b₂⟩, hab, rfl⟩ := hab
    exact ha.worldSetInCombatWith hab
  · cases hab; exact ha

theorem HeapInv.applyThreat (h : applyThreat env w owner target amount = some w') : HeapInv w'.threat := by
  simp only [Combat.applyThreat, Option.bind_eq_bind, Option.bind_eq_some_iff] at h
  obtain ⟨⟨w₁, b⟩, h₁, h⟩ := h
  have hi₁ := hi.worldSetInCombatWith h₁
  split at h
  · cases h; exact hi₁
  split at h
  · simp only [Option.bind_eq_some_iff] at h
    obtain ⟨s₁, hs₁, h⟩ := h
    cases h
    exact hi₁.addThreatToEntry hs₁
  next hno =>
  simp only [Option.bind_eq_some_iff] at h
  obtain ⟨s₁, hs₁, h⟩ := h
  have hs := hi₁.addThreatEntry hno hs₁
  split at h
  · cases h; exact hs
  simp only [Option.bind_eq_some_iff] at h
  obtain ⟨s₂, hs₂, h⟩ := h
  cases h
  exact hs.updateVictim hs₂

theorem HeapInv.addThreat {n : Nat} {ir : Bool} (h : addThreat env n w owner target amount spell im ir = some w') :
    HeapInv w'.threat :=
  addThreat_invariant (fun w => HeapInv w.threat) (fun ha h => ha.addCombatOnly h) (fun ha h => ha.applyThreat h)
    (fun ha => ha.modifyAmount) hi h

theorem HeapInv.forwardThreat {assistant : ObjectGuid} {baseAmount : Fl P.fmt}
    (h : forwardThreatForAssistingMe env w me assistant baseAmount spell im = some w') : HeapInv w'.threat := by
  simp only [forwardThreatForAssistingMe] at h
  split at h
  · cases h; exact hi
  simp only [Option.bind_eq_bind, Option.bind_eq_some_iff] at h
  obtain ⟨owners, -, w₁, h₁, h₂⟩ := h
  exact foldlM_invariant (fun w => HeapInv w.threat) (fun _ _ _ ha hab => ha.addThreat hab)
    (foldlM_invariant (fun w => HeapInv w.threat) (fun _ _ _ ha hab => ha.addThreat hab) hi h₁) h₂

theorem HeapInv.endCombat {r : RefId} (h : endCombat env w r = some w') : HeapInv w'.threat := by
  simp only [Combat.endCombat, Option.bind_eq_bind, Option.bind_eq_some_iff] at h
  obtain ⟨ref, -, s₁, h₁, s₂, h₂, h⟩ := h
  cases h
  exact (hi.clearThreat h₁).clearThreat h₂

theorem HeapInv.eraseAndEndCombat (h : eraseAndEndCombat env w owner pvp e = some w') : HeapInv w'.threat :=
  HeapInv.endCombat (w := { w with combat := purgeReference w.combat owner e.1 pvp }) hi h

theorem HeapInv.updateCombat {tdiff : Nat} (h : updateCombat env w owner tdiff = some w') : HeapInv w'.threat := by
  refine foldlM_invariant (fun w => HeapInv w.threat) (fun e a b ha hab => ?_) hi h
  simp only [updateEntry, Option.bind_eq_bind, Option.bind_eq_some_iff] at hab
  obtain ⟨ref, -, hab⟩ := hab
  split at hab
  · split at hab
    · cases hab; exact ha
    · exact HeapInv.eraseAndEndCombat ha hab
  · cases hab; exact ha

theorem HeapInv.endIfBeyondRange (h : endIfBeyondRange env owner range pvp w e = some w') : HeapInv w'.threat := by
  simp only [Combat.endIfBeyondRange, Option.bind_eq_bind, Option.bind_eq_some_iff] at h
  obtain ⟨ref, -, h⟩ := h
  split at h
  · cases h; exact hi
  · exact hi.eraseAndEndCombat h

theorem HeapInv.endCombatBeyondRange {includingPvP : Bool}
    (h : endCombatBeyondRange env w owner range includingPvP = some w') : HeapInv w'.threat := by
  simp only [Combat.endCombatBeyondRange, Option.bind_eq_bind, Option.bind_eq_some_iff] at h
  obtain ⟨w₁, h₁, h⟩ := h
  have hi₁ : HeapInv w₁.threat :=
    foldlM_invariant (fun w => HeapInv w.threat) (fun _ _ _ ha hab => ha.endIfBeyondRange hab) hi h₁
  split at h
  · cases h; exact hi₁
  · exact foldlM_invariant (fun w => HeapInv w.threat) (fun _ _ _ ha hab => ha.endIfBeyondRange hab) hi₁ h

theorem HeapInv.endAllPvPCombat (h : endAllPvPCombat env w owner = some w') : HeapInv w'.threat := by
  refine (whileLoop_invariant (fun w => HeapInv w.threat) (fun a b ha _ hab => ?_) hi h).1
  simp only [endFirstPvP, Option.bind_eq_bind, Option.bind_eq_some_iff] at hab
  obtain ⟨e, -, hab⟩ := hab
  exact ha.endCombat hab

theorem HeapInv.endAllPvECombat (h : endAllPvECombat env w owner = some w') : HeapInv w'.threat := by
  simp only [Combat.endAllPvECombat, Option.bind_eq_bind, Option.bind_eq_some_iff] at h
  obtain ⟨s₁, h₁, s₂, h₂, h⟩ := h
  have hi₂ := (hi.removeMeFromThreatLists h₁).clearAllThreat h₂
  refine (whileLoop_invariant (fun w => HeapInv w.threat) (fun a b ha _ hab => ?_) hi₂ h).1
  simp only [endFirstPvE, Option.bind_eq_bind, Option.bind_eq_some_iff] at hab
  obtain ⟨e, -, hab⟩ := hab
  exact ha.endCombat hab

end

theorem HeapInv.mapThreat {f : ThreatState P → Option (ThreatState P)}
    (hf : ∀ s', f w.threat = some s' → HeapInv s') (h : w.mapThreat f = some w') : HeapInv w'.threat := by
  simp only [World.mapThreat, Option.map_eq_some_iff] at h
  obtain ⟨s', h, rfl⟩ := h
  exact hf s' h

theorem HeapInv.mapCombat {f : CombatState → Option CombatState} (hi : HeapInv w.threat)
    (h : w.mapCombat f = some w') : HeapInv w'.threat := by
  simp only [World.mapCombat, Option.map_eq_some_iff] at h
  obtain ⟨c', -, rfl⟩ := h
  exact hi

end World

/-! ## Runs -/

/-- When a call tells the heaps the truth: `UpdateMyTempModifiers` when the
references move alike, and scaling a reference directly when the factor is not
negative, as all callers see to. Every other call does always. -/
def TellsHeaps (e : Env P × Op P) (w : World P) : Prop :=
  match e.2 with
  | .updateMyTempModifiers me => TempModifiersAgree e.1 w.threat me
  | .refScaleThreat _ factor => 0 ≤ factor
  | .refModifyThreatByPercent _ percent => -100 ≤ percent
  | _ => True

instance (e : Env P × Op P) (w : World P) : Decidable (TellsHeaps e w) := by
  obtain ⟨env, op⟩ := e
  cases op with
  | updateMyTempModifiers me => exact inferInstanceAs (Decidable (TempModifiersAgree env w.threat me))
  | refScaleThreat _ factor => exact inferInstanceAs (Decidable (0 ≤ factor))
  | refModifyThreatByPercent _ percent => exact inferInstanceAs (Decidable (-100 ≤ percent))
  | _ => exact isTrue trivial

theorem step_heapInv {w w' : World P} {e : Env P × Op P} (hi : HeapInv w.threat) (ht : TellsHeaps e w)
    (h : step e w = some w') : HeapInv w'.threat := by
  obtain ⟨env, op⟩ := e
  unfold step at h
  cases op with
  | setInCombatWith owner who =>
    simp only [Option.map_eq_some_iff] at h
    obtain ⟨⟨w₁, b⟩, h, rfl⟩ := h
    exact hi.worldSetInCombatWith h
  | endCombat r => exact hi.endCombat h
  | updateCombat owner tdiff => exact hi.updateCombat h
  | endCombatBeyondRange owner range includingPvP => exact hi.endCombatBeyondRange h
  | suppressPvPCombat owner => exact hi.mapCombat h
  | refresh r =>
    simp only [Option.bind_eq_some_iff] at h
    obtain ⟨ref, -, h⟩ := h
    exact hi.mapCombat h
  | updateReference r tdiff =>
    simp only [Option.map_eq_some_iff] at h
    obtain ⟨ref, -, h⟩ := h
    split at h <;> (subst h; exact hi)
  | suppressFor r who =>
    simp only [Option.bind_eq_some_iff] at h
    obtain ⟨ref, -, h⟩ := h
    split at h
    · exact hi.mapCombat h
    · cases h
  | endAllPvECombat owner => exact hi.endAllPvECombat h
  | endAllPvPCombat owner => exact hi.endAllPvPCombat h
  | inheritCombatStatesFrom owner who => exact hi.mapCombat h
  | addThreat => exact hi.addThreat h
  | forwardThreat => exact hi.forwardThreat h
  | matchUnitThreatToHighestThreat owner target =>
    simp only [matchUnitThreatToHighestThreat] at h
    split at h
    · cases h; exact hi
    · exact hi.addThreat h
  | scaleThreat => exact HeapInv.mapThreat (fun _ hs => hi.scaleThreat hs) h
  | modifyThreatByPercent => exact HeapInv.mapThreat (fun _ hs => hi.modifyThreatByPercent hs) h
  | refScaleThreat => exact HeapInv.mapThreat (fun _ hs => hi.refScaleThreat ht hs) h
  | refModifyThreatByPercent => exact HeapInv.mapThreat (fun _ hs => hi.refModifyThreatByPercent ht hs) h
  | resetAllThreat => exact HeapInv.mapThreat (fun _ hs => hi.resetAllThreat hs) h
  | tauntUpdate => exact HeapInv.mapThreat (fun _ hs => hi.tauntUpdate hs) h
  | evaluateSuppressed => exact HeapInv.mapThreat (fun _ hs => hi.evaluateSuppressed hs) h
  | updateMyTempModifiers => exact HeapInv.mapThreat (fun _ hs => hi.updateMyTempModifiers ht hs) h
  | updateMySpellSchoolModifiers =>
    exact HeapInv.mapThreat (fun _ hs => by cases hs; exact hi.setModifiers rfl rfl rfl rfl rfl) h
  | updateOffline => exact HeapInv.mapThreat (fun _ hs => hi.updateOffline hs) h
  | fixateTarget => exact HeapInv.mapThreat (fun _ hs => by cases hs; exact hi.fixateTarget) h
  | updateThreat => exact HeapInv.mapThreat (fun _ hs => hi.updateThreat hs) h
  | updateVictim => exact HeapInv.mapThreat (fun _ hs => hi.updateVictim hs) h
  | getCurrentVictim => exact HeapInv.mapThreat (fun _ hs => hi.getCurrentVictim hs) h
  | clearThreat => exact HeapInv.mapThreat (fun _ hs => hi.clearThreat hs) h
  | clearAllThreat => exact HeapInv.mapThreat (fun _ hs => hi.clearAllThreat hs) h
  | removeMeFromThreatLists => exact HeapInv.mapThreat (fun _ hs => hi.removeMeFromThreatLists hs) h
  | registerRedirectThreat => exact HeapInv.mapThreat (fun _ hs => by cases hs; exact hi.registerRedirectThreat) h
  | unregisterRedirectThreat => exact HeapInv.mapThreat (fun _ hs => by cases hs; exact hi.unregisterRedirectThreat) h
  | unregisterRedirectThreatFor =>
    exact HeapInv.mapThreat (fun _ hs => by cases hs; exact hi.unregisterRedirectThreatFor) h

/-- Every notification had the direction of the move, every heap is in order,
and its top is a maximum of it. -/
structure HeapsInOrder (s : ThreatState P) : Prop where
  notified : ∀ n ∈ s.heapLog, n.Right
  order : ∀ o, P.heap.HeapOrder (compareThreat s) (s.mgr o).sortedThreatList
  top : ∀ o t, P.heap.top (s.mgr o).sortedThreatList = some t →
    ∀ b ∈ P.heap.elems (s.mgr o).sortedThreatList, compareThreat s t b = false

theorem HeapInv.inOrder (hi : HeapInv s) : HeapsInOrder s where
  notified := hi.log
  order := hi.order
  top := fun o t ht => P.heap.top_max _ _ t (strictWeak_compareThreat s) (hi.order o) ht

/-- **The threat heaps stay well ordered** in every run whose temporary
modifiers move all references of a unit alike. -/
theorem reaches_heaps_in_order {can : ObjectGuid → Bool} {w : World P}
    (h : Reaches step TellsHeaps (World.init P can) w) : HeapsInOrder w.threat :=
  (h.invariant (fun w => HeapInv w.threat) (fun _ _ _ hi ht hs => step_heapInv hi ht hs) (heapInv_init can)).inOrder

/-- `env` with the total threat auras of unit 9. -/
def fading (auras : List Int) : Env .plain := { Env.openField .plain with totalThreatAuras := fun _ => auras }

/-- Unit 9 fades and stands out again while it is on the lists of two creatures. -/
def fadeTogether : List (Env .plain × Op .plain) :=
  [(Env.openField _, .addThreat 1 9 (.ofInt 100) none false false),
    (Env.openField _, .addThreat 2 9 (.ofInt 100) none false false),
    (fading [-5], .updateMyTempModifiers 9), (fading [-3], .updateMyTempModifiers 9)]

theorem reaches_heaps_in_order_fadeTogether : ∃ w : World .plain,
    runSteps (allowed step TellsHeaps) fadeTogether (World.init .plain fun u => u < 5) = some w ∧
    HeapsInOrder w.threat := by
  have h : (runSteps (allowed step TellsHeaps) fadeTogether (World.init .plain fun u => u < 5)).isSome = true := by
    decide +kernel
  obtain ⟨w, hw⟩ := Option.isSome_iff_exists.1 h
  exact ⟨w, hw, reaches_heaps_in_order (Reaches.of_runSteps hw).of_allowed⟩

/-- Unit 9 joins the second fight between two changes of its modifier. -/
def fadeApart : List (Env .plain × Op .plain) :=
  [(Env.openField _, .addThreat 1 9 (.ofInt 100) none false false),
    (Env.openField _, .addThreat 1 8 (.ofInt 96) none false false),
    (fading [-5], .updateMyTempModifiers 9),
    (Env.openField _, .addThreat 2 9 (.ofInt 100) none false false),
    (fading [-3], .updateMyTempModifiers 9)]

/-- The first reference met goes down, the other up, and the heap of the other
is told that it went down: its top is no longer a maximum. -/
theorem heaps_out_of_order_fadeApart : ∃ w : World .plain,
    runSteps step fadeApart (World.init .plain fun u => u < 5) = some w ∧
    (∃ n ∈ w.threat.heapLog, n.increased = false ∧ ∃ p, n.before = some p ∧ p < n.after) ∧
    ∃ t b, Platform.plain.heap.top (w.threat.mgr 1).sortedThreatList = some t ∧
      b ∈ Platform.plain.heap.elems (w.threat.mgr 1).sortedThreatList ∧ compareThreat w.threat t b = true := by
  have h : (runSteps step fadeApart (World.init .plain fun u => u < 5)).any (fun w =>
      (w.threat.heapLog.any fun n => !n.increased && n.before.any fun p => p < n.after) &&
      (Platform.plain.heap.top (w.threat.mgr 1).sortedThreatList).any fun t =>
        (Platform.plain.heap.elems (w.threat.mgr 1).sortedThreatList).any fun b => compareThreat w.threat t b) =
      true := by
    decide +kernel
  obtain ⟨w, hw, hb⟩ := (Option.any_eq_true _ _).1 h
  simp only [Bool.and_eq_true, List.any_eq_true, Bool.not_eq_true', Option.any_eq_true, decide_eq_true_eq] at hb
  obtain ⟨⟨n, hn, hup, p, hp, hlt⟩, t, ht, b, hbm, hlt'⟩ := hb
  exact ⟨w, hw, ⟨n, hn, hup, p, hp, hlt⟩, t, b, ht, hbm, hlt'⟩

end AtlasWow.Combat
