/-
Adding threat (`ThreatManager::AddThreat` and its callers), which starts
combat, and the calls a run of the two systems is made of.
-/
import AtlasWow.Combat.CombatManager

namespace AtlasWow.Combat

variable {P : Platform}

/-- Is the spell one that causes no threat here. -/
def spellCausesNoThreat (w : World P) (owner : ObjectGuid) (spell : Option SpellInfo) : Bool :=
  spell.any fun sp => sp.noThreat || (!(w.combat.unit owner).isEngaged && sp.noInitialAggro)

/-- `SetInCombatWith`, in the world. -/
def World.setInCombatWith (env : Env P) (w : World P) (owner who : ObjectGuid) : Option (World P × Bool) :=
  (Combat.setInCombatWith env w.canHaveThreatList w.combat owner who).map fun (c, b) => ({ w with combat := c }, b)

/-- The branch of `AddThreat` for an owner without threat list: combat only,
also with the redirection targets. -/
def addCombatOnly (env : Env P) (w : World P) (owner target : ObjectGuid) : Option (World P) := do
  let (w, inCombat) ← w.setInCombatWith env owner target
  if !inCombat then some w
  else
    (w.threat.mgr target).redirectInfo.foldlM (fun w pair =>
      if !isInCombatWith w.combat owner pair.1 && env.canFindUnit owner pair.1 then
        (w.setInCombatWith env owner pair.1).map (·.1)
      else some w) w

/-- `AddThreat` on an entry that exists. -/
def addThreatToEntry (env : Env P) (s : ThreatState P) (t : ThreatId) (amount : Fl P.fmt) :
    Option (ThreatState P) := do
  let ref ← s.refs t
  -- suppressed references don't go back online until threat is caused by them
  let s ← (if ref.isSuppressed && !shouldBeSuppressed env ref then
      heapNotifyIncreased (s.setRef t { ref with online := .online }) t
    else some s)
  let ref ← s.refs t
  if ref.isOnline then refAddThreat s t amount else some s

/-- The constructor of `ThreatReference`. -/
def newThreatReference (env : Env P) (owner victim : ObjectGuid) : ThreatReference P.fmt :=
  let ref : ThreatReference P.fmt := ⟨owner, victim, .online, 0, 0, TAUNT_STATE_NONE⟩
  { ref with online := onlineOrSuppressed env ref }

/-- `AddThreat` on a new entry: the reference is put in its three places, its
online state is evaluated, and an online reference gets its threat. -/
def addThreatEntry (env : Env P) (s : ThreatState P) (owner target : ObjectGuid) (amount : Fl P.fmt) :
    Option (ThreatState P) := do
  let t := s.nextRef
  let s := { s with
    refs := Function.update s.refs t (some (newThreatReference env owner target)), nextRef := t + 1 }
  let s ← putThreatListRef env s owner target t
  let s ← putThreatenedByMeRef env s target owner t
  let s ← updateOffline env s t
  let ref ← s.refs t
  if ref.isOnline then refAddThreat s t amount else some s

/-- The end of `AddThreat`: combat first (threat implies combat), then the threat. -/
def applyThreat (env : Env P) (w : World P) (owner target : ObjectGuid) (amount : Fl P.fmt) :
    Option (World P) := do
  let (w, inCombat) ← w.setInCombatWith env owner target
  if !inCombat then some w
  else match (w.threat.mgr owner).myThreatListEntries.find? target with
    | some t => do
      let threat ← addThreatToEntry env w.threat t amount
      some { w with threat := threat }
    | none => do
      let threat ← addThreatEntry env w.threat owner target amount
      let x := w.combat.unit owner
      if x.isEngaged then some { w with threat := threat }
      else
        let threat ← updateVictim env threat owner
        some ⟨w.combat.setUnit owner { x with isEngaged := true }, threat⟩

/-- While riding a vehicle, all threat goes to the vehicle, not the pilot, and
none at all to an accessory. -/
def threatToVehicle (env : Env P) (add : ObjectGuid → Option (World P)) (w : World P) (target : ObjectGuid)
    (amount : Fl P.fmt) : Option (World P × Fl P.fmt × Bool) :=
  match env.vehicleBase target with
  | none => some (w, amount, false)
  | some vehicle => (add vehicle).map fun w => (w, 0, env.isAccessory target)

def modifyAmount (env : Env P) (s : ThreatState P) (amount : Fl P.fmt) (target : ObjectGuid)
    (spell : Option SpellInfo) (ignoreModifiers : Bool) : ThreatState P × Fl P.fmt :=
  if ignoreModifiers then (s, amount) else calculateModifiedThreat env s amount target spell

/-- `CalculatePct`. -/
def calculatePct {fmt : FloatFormat} (base : Fl fmt) (pct : Nat) : Fl fmt := base * .ofInt pct / .ofInt 100

/-- The loop of `AddThreat` over the redirections of the target; it answers what is left of the amount. -/
def threatToRedirects (env : Env P) (add : World P → ObjectGuid → Fl P.fmt → Option (World P)) (w : World P)
    (owner target : ObjectGuid) (amount : Fl P.fmt) : Option (World P × Fl P.fmt) :=
  (w.threat.mgr target).redirectInfo.foldlM (fun (w, left) pair =>
    if ((w.threat.mgr owner).myThreatListEntries.find? pair.1).isSome || env.canFindUnit owner pair.1 then
      (add w pair.1 (calculatePct amount pair.2)).map fun w => (w, left - calculatePct amount pair.2)
    else some (w, left)) (w, amount)

/-- `AddThreat`. `n` bounds how deep its calls of itself may nest: through the
vehicles a target rides, and once into the redirection targets. -/
def addThreat (env : Env P) : Nat → World P → ObjectGuid → ObjectGuid → Fl P.fmt → Option SpellInfo →
    Bool → Bool → Option (World P)
  | 0, _, _, _, _, _, _, _ => none
  | n + 1, w, owner, target, amount, spell, ignoreModifiers, ignoreRedirects =>
    if spellCausesNoThreat w owner spell then some w
    else do
      let (w, amount, done) ← threatToVehicle env
        (fun vehicle => addThreat env n w owner vehicle amount spell ignoreModifiers ignoreRedirects) w target amount
      if done then some w
      else if !w.canHaveThreatList owner then addCombatOnly env w owner target
      else
        let modified := modifyAmount env w.threat amount target spell ignoreModifiers
        let w := { w with threat := modified.1 }
        let (w, amount) ← (if !ignoreRedirects && 0 < modified.2 then
            threatToRedirects env (fun w victim amount => addThreat env n w owner victim amount spell true true)
              w owner target modified.2
          else some (w, modified.2))
        applyThreat env w owner target amount

/-- What `AddThreat` keeps: what its three parts keep that do not call it. -/
theorem addThreat_invariant {env : Env P} {owner : ObjectGuid} (I : World P → Prop)
    (combatOnly : ∀ {w w' : World P} {target}, I w → addCombatOnly env w owner target = some w' → I w')
    (apply : ∀ {w w' : World P} {target amount}, I w → applyThreat env w owner target amount = some w' → I w')
    (modify : ∀ {w : World P} {amount target spell im}, I w →
      I { w with threat := (modifyAmount env w.threat amount target spell im).1 }) :
    ∀ {n : Nat} {w w' : World P} {target : ObjectGuid} {amount : Fl P.fmt} {spell : Option SpellInfo} {im ir : Bool},
    I w → addThreat env n w owner target amount spell im ir = some w' → I w'
  | 0, _, _, _, _, _, _, _, _, h => by simp [addThreat] at h
  | n + 1, w, w', target, amount, spell, im, ir, hi, h => by
    have ih := @addThreat_invariant env owner I combatOnly apply modify n
    simp only [addThreat] at h
    split at h
    · cases h; exact hi
    simp only [Option.bind_eq_bind, Option.bind_eq_some_iff] at h
    obtain ⟨⟨w₁, amount₁, done⟩, hv, h⟩ := h
    have hi₁ : I w₁ := by
      unfold threatToVehicle at hv
      split at hv
      · cases hv; exact hi
      simp only [Option.map_eq_some_iff] at hv
      obtain ⟨w₂, hv, he⟩ := hv
      cases he
      exact ih hi hv
    split at h
    · cases h; exact hi₁
    split at h
    · exact combatOnly hi₁ h
    simp only [Option.bind_eq_some_iff] at h
    obtain ⟨⟨w₂, amount₂⟩, hr, h⟩ := h
    refine apply ?_ h
    split at hr
    · refine foldlM_invariant (fun p : World P × Fl P.fmt => I p.1) (fun pair a b ha hab => ?_) (modify hi₁) hr
      dsimp only at hab
      split at hab
      · simp only [Option.map_eq_some_iff] at hab
        obtain ⟨w₃, hab, he⟩ := hab
        cases he
        exact ih ha hab
      · cases hab; exact ha
    · cases hr; exact modify hi₁

/-- `ThreatManager::GetThreat`. -/
def getThreat (s : ThreatState P) (owner who : ObjectGuid) (includeOffline : Bool) : Fl P.fmt :=
  match (s.mgr owner).myThreatListEntries.find? who with
  | none => 0
  | some t =>
    match s.refs t with
    | none => 0
    | some ref => if includeOffline || ref.isAvailable then ref.getThreat else 0

/-- The reference `MatchUnitThreatToHighestThreat` matches: the first of the
sorted list, or the second where the first is only there by a taunt. -/
def highestThreat (s : ThreatState P) (owner : ObjectGuid) : Option (ThreatReference P.fmt) := do
  let sorted := P.heap.ordered (compareThreat s) (s.mgr owner).sortedThreatList
  let highest ← sorted.head?.bind s.refs
  if !highest.isAvailable then none
  else if highest.isTaunting then
    match sorted.tail.head?.bind s.refs with
    | some a => if a.isAvailable && highest.getThreat < a.getThreat then some a else some highest
    | none => some highest
  else some highest

def matchUnitThreatToHighestThreat (env : Env P) (w : World P) (owner target : ObjectGuid) : Option (World P) :=
  match highestThreat w.threat owner with
  | none => some w
  | some highest => addThreat env env.callDepth w owner target
      (highest.getThreat - getThreat w.threat owner target true) none true true

/-- `ForwardThreatForAssistingMe`: split evenly among those not under control. -/
def forwardThreatForAssistingMe (env : Env P) (w : World P) (me assistant : ObjectGuid) (baseAmount : Fl P.fmt)
    (spell : Option SpellInfo) (ignoreModifiers : Bool) : Option (World P) := do
  if spell.any (·.noThreat) then some w
  else
    let owners ← (w.threat.mgr me).threatenedByMe.entries.mapM fun e => (w.threat.refs e.2).map (·.owner)
    let (cannotBeThreatened, canBeThreatened) := owners.partition env.isUnderControl
    let w ← canBeThreatened.foldlM (fun w threatened => addThreat env env.callDepth w threatened assistant
      (baseAmount / .ofInt canBeThreatened.length) spell ignoreModifiers false) w
    cannotBeThreatened.foldlM (fun w threatened =>
      addThreat env env.callDepth w threatened assistant 0 spell true false) w

/-! ## Runs -/

/-- A call from outside into a combat manager, a threat manager or a reference. -/
inductive Op (P : Platform) where
  -- CombatManager and its references
  | setInCombatWith (owner who : ObjectGuid)
  | endCombat (r : RefId)
  | updateCombat (owner : ObjectGuid) (tdiff : Nat)
  | endCombatBeyondRange (owner : ObjectGuid) (range : ℚ) (includingPvP : Bool)
  | suppressPvPCombat (owner : ObjectGuid)
  | refresh (r : RefId)
  | updateReference (r : RefId) (tdiff : Nat)
  | suppressFor (r : RefId) (who : ObjectGuid)
  | endAllPvECombat (owner : ObjectGuid)
  | endAllPvPCombat (owner : ObjectGuid)
  | inheritCombatStatesFrom (owner who : ObjectGuid)
  -- ThreatManager and its references
  | addThreat (owner target : ObjectGuid) (amount : Fl P.fmt) (spell : Option SpellInfo)
      (ignoreModifiers ignoreRedirects : Bool)
  | forwardThreat (me assistant : ObjectGuid) (baseAmount : Fl P.fmt) (spell : Option SpellInfo)
      (ignoreModifiers : Bool)
  | matchUnitThreatToHighestThreat (owner target : ObjectGuid)
  | scaleThreat (owner target : ObjectGuid) (factor : Fl P.fmt)
  | modifyThreatByPercent (owner target : ObjectGuid) (percent : Int)
  | refScaleThreat (t : ThreatId) (factor : Fl P.fmt)
  | refModifyThreatByPercent (t : ThreatId) (percent : Int)
  | resetAllThreat (owner : ObjectGuid)
  | tauntUpdate (owner : ObjectGuid)
  | evaluateSuppressed (me : ObjectGuid) (canExpire : Bool)
  | updateMyTempModifiers (me : ObjectGuid)
  | updateMySpellSchoolModifiers (me : ObjectGuid)
  | updateOffline (t : ThreatId)
  | fixateTarget (owner : ObjectGuid) (target : Option ObjectGuid)
  | updateThreat (owner : ObjectGuid) (tdiff : Nat)
  | updateVictim (owner : ObjectGuid)
  | getCurrentVictim (owner : ObjectGuid)
  | clearThreat (owner target : ObjectGuid)
  | clearAllThreat (owner : ObjectGuid)
  | removeMeFromThreatLists (me : ObjectGuid)
  | registerRedirectThreat (me : ObjectGuid) (spellId : Nat) (victim : ObjectGuid) (pct : Nat)
  | unregisterRedirectThreat (me : ObjectGuid) (spellId : Nat)
  | unregisterRedirectThreatFor (me : ObjectGuid) (spellId : Nat) (victim : ObjectGuid)

def World.mapThreat (w : World P) (f : ThreatState P → Option (ThreatState P)) : Option (World P) :=
  (f w.threat).map fun s => { w with threat := s }

def World.mapCombat (w : World P) (f : CombatState → Option CombatState) : Option (World P) :=
  (f w.combat).map fun s => { w with combat := s }

/-- Public calls on a PvP reference: it has to be one, and `who` one of its ends. -/
def pvpReference (w : World P) (r : RefId) : Option CombatReference := (w.combat.refs r).filter (·.isPvP)

def step (e : Env P × Op P) (w : World P) : Option (World P) :=
  let env := e.1
  match e.2 with
  | .setInCombatWith owner who => (w.setInCombatWith env owner who).map (·.1)
  | .endCombat r => endCombat env w r
  | .updateCombat owner tdiff => updateCombat env w owner tdiff
  | .endCombatBeyondRange owner range includingPvP => endCombatBeyondRange env w owner range includingPvP
  | .suppressPvPCombat owner => w.mapCombat fun c => suppressPvPCombat env w.canHaveThreatList c owner
  | .refresh r => (pvpReference w r).bind fun _ =>
      w.mapCombat fun c => refresh env w.canHaveThreatList c r
  | .updateReference r tdiff => (pvpReference w r).map fun ref =>
      match ref.update tdiff with
      | some ref => { w with combat := w.combat.setRef r ref }
      | none => w
  | .suppressFor r who => (pvpReference w r).bind fun ref =>
      if who = ref.first ∨ who = ref.second then
        w.mapCombat fun c => suppressFor env w.canHaveThreatList c r who
      else none
  | .endAllPvECombat owner => endAllPvECombat env w owner
  | .endAllPvPCombat owner => endAllPvPCombat env w owner
  | .inheritCombatStatesFrom owner who =>
      w.mapCombat fun c => inheritCombatStatesFrom env w.canHaveThreatList c owner who
  | .addThreat owner target amount spell ignoreModifiers ignoreRedirects =>
      addThreat env env.callDepth w owner target amount spell ignoreModifiers ignoreRedirects
  | .forwardThreat me assistant baseAmount spell ignoreModifiers =>
      forwardThreatForAssistingMe env w me assistant baseAmount spell ignoreModifiers
  | .matchUnitThreatToHighestThreat owner target => matchUnitThreatToHighestThreat env w owner target
  | .scaleThreat owner target factor => w.mapThreat fun s => scaleThreat s owner target factor
  | .modifyThreatByPercent owner target percent => w.mapThreat fun s => modifyThreatByPercent s owner target percent
  | .refScaleThreat t factor => w.mapThreat fun s => refScaleThreat s t factor
  | .refModifyThreatByPercent t percent => w.mapThreat fun s => refModifyThreatByPercent s t percent
  | .resetAllThreat owner => w.mapThreat fun s => resetAllThreat s owner
  | .tauntUpdate owner => w.mapThreat fun s => tauntUpdate env s owner
  | .evaluateSuppressed me canExpire => w.mapThreat fun s => evaluateSuppressed env s me canExpire
  | .updateMyTempModifiers me => w.mapThreat fun s => updateMyTempModifiers env s me
  | .updateMySpellSchoolModifiers me => w.mapThreat fun s => some (updateMySpellSchoolModifiers env s me)
  | .updateOffline t => w.mapThreat fun s => updateOffline env s t
  | .fixateTarget owner target => w.mapThreat fun s => some (fixateTarget s owner target)
  | .updateThreat owner tdiff => w.mapThreat fun s => updateThreat env s owner tdiff
  | .updateVictim owner => w.mapThreat fun s => updateVictim env s owner
  | .getCurrentVictim owner => w.mapThreat fun s => getCurrentVictim env s owner
  | .clearThreat owner target => w.mapThreat fun s => clearThreat env s owner target
  | .clearAllThreat owner => w.mapThreat fun s => clearAllThreat s owner
  | .removeMeFromThreatLists me => w.mapThreat fun s => removeMeFromThreatLists env s me
  | .registerRedirectThreat me spellId victim pct =>
      w.mapThreat fun s => some (registerRedirectThreat env s me spellId victim pct)
  | .unregisterRedirectThreat me spellId => w.mapThreat fun s => some (unregisterRedirectThreat s me spellId)
  | .unregisterRedirectThreatFor me spellId victim =>
      w.mapThreat fun s => some (unregisterRedirectThreatFor env s me spellId victim)

/-- The worlds reached from fresh units by any calls, each in an environment of its own. -/
def Reached (w : World P) : Prop :=
  ∃ canHaveThreatList, Reaches step (fun _ _ => True) (World.init P canHaveThreatList) w

end AtlasWow.Combat
