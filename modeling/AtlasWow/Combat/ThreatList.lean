/-
The threat lists (`ThreatManager.cpp`), as far as they do not start combat:
the references with their heap notifications, target selection, and the ways
an entry is unlinked. `Combat/ThreatManager.lean` has `AddThreat` and what
calls it.

`none` is an assertion that failed or a null pointer that was read.
-/
import AtlasWow.Combat.State
import AtlasWow.Lib.Machine

namespace AtlasWow.Combat

variable {P : Platform}

/-! ## State access -/

namespace ThreatState

def setMgr (s : ThreatState P) (u : ObjectGuid) (m : ThreatManager P) : ThreatState P :=
  { s with mgr := Function.update s.mgr u m }

def setRef (s : ThreatState P) (t : ThreatId) (ref : ThreatReference P.fmt) : ThreatState P :=
  { s with refs := Function.update s.refs t (some ref) }

def setNeedClientUpdate (s : ThreatState P) (u : ObjectGuid) (b : Bool) : ThreatState P :=
  s.setMgr u { s.mgr u with needClientUpdate := b }

variable {s : ThreatState P} {u v : ObjectGuid} {m : ThreatManager P}

@[simp] theorem mgr_setMgr_self : (s.setMgr u m).mgr u = m := Function.update_self _ _ _
@[simp] theorem mgr_setMgr_of_ne (h : v ≠ u) : (s.setMgr u m).mgr v = s.mgr v := Function.update_of_ne h _ _
@[simp] theorem refs_setMgr : (s.setMgr u m).refs = s.refs := rfl
@[simp] theorem nextRef_setMgr : (s.setMgr u m).nextRef = s.nextRef := rfl
@[simp] theorem mgr_setRef (t : ThreatId) (ref : ThreatReference P.fmt) : (s.setRef t ref).mgr = s.mgr := rfl
@[simp] theorem refs_setRef_self (t : ThreatId) (ref : ThreatReference P.fmt) :
    (s.setRef t ref).refs t = some ref := Function.update_self _ _ _

end ThreatState

/-! ## Comparison -/

/-- True if `a` is lower on the threat list than `b`. -/
def compareReferencesLT {fmt : FloatFormat} (a b : ThreatReference fmt) (aWeight : Fl fmt) : Bool :=
  if a.online ≠ b.online then a.online.toNat < b.online.toNat
  else if a.taunted ≠ b.taunted then a.taunted < b.taunted
  else a.getThreat * aWeight < b.getThreat

/-- `CompareThreatLessThan`, on pointers. No heap holds a deleted reference; the order has them last. -/
def compareThreat (s : ThreatState P) (i j : ThreatId) : Bool :=
  match s.refs i, s.refs j with
  | some a, some b => compareReferencesLT a b 1
  | none, some _ => true
  | _, none => false

/-! ## ThreatReference -/

/-- The heap moves `t`, up or down; `_mgr` is the owner's manager. -/
def heapNotify (s : ThreatState P) (t : ThreatId) (increased : Bool) : Option (ThreatState P) := do
  let ref ← s.refs t
  let m := s.mgr ref.owner
  let heap := if increased then P.heap.increase (compareThreat s) m.sortedThreatList t
    else P.heap.decrease (compareThreat s) m.sortedThreatList t
  some { s.setMgr ref.owner { m with sortedThreatList := heap } with
    inPlace := Function.update s.inPlace t (some ref.position)
    heapLog := ⟨t, increased, s.inPlace t, ref.position⟩ :: s.heapLog }

def heapNotifyIncreased (s : ThreatState P) (t : ThreatId) : Option (ThreatState P) := heapNotify s t true
def heapNotifyDecreased (s : ThreatState P) (t : ThreatId) : Option (ThreatState P) := heapNotify s t false

def refAddThreat (s : ThreatState P) (t : ThreatId) (amount : Fl P.fmt) : Option (ThreatState P) :=
  if amount = 0 then some s else do
    let ref ← s.refs t
    let s := s.setRef t { ref with baseAmount := max (ref.baseAmount + amount) 0 }
    let s ← (if 0 < amount then heapNotifyIncreased s t else heapNotifyDecreased s t)
    some (s.setNeedClientUpdate ref.owner true)

def refScaleThreat (s : ThreatState P) (t : ThreatId) (factor : Fl P.fmt) : Option (ThreatState P) :=
  if factor = 1 then some s else do
    let ref ← s.refs t
    let s := s.setRef t { ref with baseAmount := ref.baseAmount * factor }
    let s ← (if 1 < factor then heapNotifyIncreased s t else heapNotifyDecreased s t)
    some (s.setNeedClientUpdate ref.owner true)

/-- The factor of `ModifyThreatByPercent`, in both classes. -/
def percentFactor {fmt : FloatFormat} (percent : Int) : Fl fmt := .ofRat (1 / 100) * .ofInt (100 + percent)

def refModifyThreatByPercent (s : ThreatState P) (t : ThreatId) (percent : Int) : Option (ThreatState P) :=
  if percent ≠ 0 then refScaleThreat s t (percentFactor percent) else some s

def flagsAllowFighting (env : Env P) (a b : ObjectGuid) : Bool :=
  if env.isTrigger a then false
  else if env.isPlayerControlled a then !env.isImmuneToPC b
  else !env.isImmuneToNPC b

def shouldBeOffline (env : Env P) (ref : ThreatReference P.fmt) : Bool :=
  if !env.canSeeOrDetect ref.owner ref.victim then true
  else if !env.isTargetAcceptable ref.owner ref.victim || !env.canCreatureAttack ref.owner ref.victim then true
  else if !flagsAllowFighting env ref.owner ref.victim || !flagsAllowFighting env ref.victim ref.owner then true
  else false

/-- A taunting victim can never be suppressed. -/
def shouldBeSuppressed (env : Env P) (ref : ThreatReference P.fmt) : Bool :=
  if ref.isTaunting then false
  else env.isImmunedToDamage ref.victim ref.owner || env.hasConfuseAura ref.victim ||
    env.hasBreakableStunAura ref.victim

def onlineOrSuppressed (env : Env P) (ref : ThreatReference P.fmt) : OnlineState :=
  if shouldBeSuppressed env ref then .suppressed else .online

def updateOffline (env : Env P) (s : ThreatState P) (t : ThreatId) : Option (ThreatState P) := do
  let ref ← s.refs t
  let shouldBeOffline := shouldBeOffline env ref
  if shouldBeOffline = ref.isOffline then some s
  else if shouldBeOffline then
    heapNotifyDecreased (s.setRef t { ref with online := .offline }) t
  else
    heapNotifyIncreased (s.setRef t { ref with online := onlineOrSuppressed env ref }) t

def updateTauntState (env : Env P) (s : ThreatState P) (t : ThreatId) (state : Nat) :
    Option (ThreatState P) := do
  let ref ← s.refs t
  let state := if state < TAUNT_STATE_TAUNT && env.hasDetauntAuraFrom ref.victim ref.owner
    then TAUNT_STATE_DETAUNT else state
  if state = ref.taunted then some s
  else
    let s := s.setRef t { ref with taunted := state }
    let s ← (if state < ref.taunted then heapNotifyDecreased s t else heapNotifyIncreased s t)
    some (s.setNeedClientUpdate ref.owner true)

/-! ## The three places of a reference -/

/-- The assertion is on a duplicate; `operator[]` has put a null entry otherwise. -/
def putThreatListRef (env : Env P) (s : ThreatState P) (owner guid : ObjectGuid) (t : ThreatId) :
    Option (ThreatState P) := do
  let m := { s.mgr owner with needClientUpdate := true }
  if (m.myThreatListEntries.find? guid).isSome then none
  else
    let ref ← s.refs t
    some { s.setMgr owner { m with
        myThreatListEntries := m.myThreatListEntries.insert env.place guid t
        sortedThreatList := P.heap.push (compareThreat s) m.sortedThreatList t } with
      inPlace := Function.update s.inPlace t (some ref.position) }

def purgeThreatListRef (s : ThreatState P) (owner guid : ObjectGuid) : ThreatState P :=
  let m := s.mgr owner
  match m.myThreatListEntries.find? guid with
  | none => s
  | some t => s.setMgr owner { m with
      myThreatListEntries := m.myThreatListEntries.erase guid
      sortedThreatList := P.heap.erase (compareThreat s) m.sortedThreatList t
      fixateRef := if m.fixateRef = some t then none else m.fixateRef
      currentVictimRef := if m.currentVictimRef = some t then none else m.currentVictimRef }

def putThreatenedByMeRef (env : Env P) (s : ThreatState P) (victim guid : ObjectGuid) (t : ThreatId) :
    Option (ThreatState P) :=
  let m := s.mgr victim
  if (m.threatenedByMe.find? guid).isSome then none
  else some (s.setMgr victim { m with threatenedByMe := m.threatenedByMe.insert env.place guid t })

def purgeThreatenedByMeRef (s : ThreatState P) (victim guid : ObjectGuid) : ThreatState P :=
  s.setMgr victim { s.mgr victim with threatenedByMe := (s.mgr victim).threatenedByMe.erase guid }

def unregisterAndFree (s : ThreatState P) (t : ThreatId) : Option (ThreatState P) := do
  let ref ← s.refs t
  let s := purgeThreatListRef s ref.owner ref.victim
  let s := purgeThreatenedByMeRef s ref.victim ref.owner
  some { s with refs := Function.update s.refs t none }

/-! ## Target selection -/

/-- The walk down the sorted list, past ranged targets. Running off its end is
the failed assertion. -/
def nextMeleeTarget (env : Env P) (s : ThreatState P) (owner : ObjectGuid) (oldVictimRef : ThreatId)
    (old : ThreatReference P.fmt) : List ThreatId → Option ThreatId
  | [] => none
  | next :: rest => do
    if next = oldVictimRef then some next
    else
      let ref ← s.refs next
      if !compareReferencesLT old ref (.ofRat (11 / 10)) then some oldVictimRef
      else if env.isWithinMeleeRange owner ref.victim then some next
      else nextMeleeTarget env s owner oldVictimRef old rest

/-- `ReselectVictim` after the online states have been brought up to date. -/
def selectVictim (env : Env P) (s : ThreatState P) (owner : ObjectGuid) : Option (Option ThreatId) := do
  let m := s.mgr owner
  match m.fixateRef.filter (fun f => (s.refs f).any (·.isAvailable)) with
  | some f => some (some f)
  | none =>
    let oldVictimRef := m.currentVictimRef.filter fun o => (s.refs o).any (!·.isOffline)
    let highest ← P.heap.top m.sortedThreatList
    let ref ← s.refs highest
    if !ref.isAvailable then some none
    else match oldVictimRef with
      | none => some (some highest)
      | some o =>
        if highest = o then some (some highest)
        else
          let old ← s.refs o
          if !compareReferencesLT old ref (.ofRat (11 / 10)) then some (some o)
          else if compareReferencesLT old ref (.ofRat (13 / 10)) then some (some highest)
          else if env.isWithinMeleeRange owner ref.victim then some (some highest)
          else (nextMeleeTarget env s owner o old
            (P.heap.ordered (compareThreat s) m.sortedThreatList)).map some

def reselectVictim (env : Env P) (s : ThreatState P) (owner : ObjectGuid) :
    Option (ThreatState P × Option ThreatId) := do
  let m := s.mgr owner
  if (P.heap.elems m.sortedThreatList).isEmpty then some (s, none)
  else
    let s ← m.myThreatListEntries.entries.foldlM (fun s e => updateOffline env s e.2) s
    let victim ← selectVictim env s owner
    some (s, victim)

/-- The threat list is sent to the clients, which takes the flag down. -/
def updateVictim (env : Env P) (s : ThreatState P) (owner : ObjectGuid) : Option (ThreatState P) := do
  let (s, newVictim) ← reselectVictim env s owner
  let m := s.mgr owner
  let newHighest := newVictim.isSome && newVictim ≠ m.currentVictimRef
  some (s.setMgr owner { m with
    currentVictimRef := newVictim
    needClientUpdate := if newHighest || m.needClientUpdate then false else m.needClientUpdate })

def isThreatListEmpty (s : ThreatState P) (owner : ObjectGuid) (includeOffline : Bool) : Bool :=
  let elems := P.heap.elems (s.mgr owner).sortedThreatList
  if includeOffline then elems.isEmpty
  else !elems.any fun t => (s.refs t).any (·.isAvailable)

/-- `ThreatManager::Update`. -/
def updateThreat (env : Env P) (s : ThreatState P) (owner : ObjectGuid) (tdiff : Nat) :
    Option (ThreatState P) := do
  let m := s.mgr owner
  if !m.ownerCanHaveThreatList || isThreatListEmpty s owner false then some s
  else if m.updateTimer ≤ tdiff then
    let s ← updateVictim env s owner
    some (s.setMgr owner { s.mgr owner with updateTimer := THREAT_UPDATE_INTERVAL })
  else some (s.setMgr owner { m with updateTimer := m.updateTimer - tdiff })

/-- The non-const `GetCurrentVictim`, as far as it changes anything. -/
def getCurrentVictim (env : Env P) (s : ThreatState P) (owner : ObjectGuid) : Option (ThreatState P) :=
  match (s.mgr owner).currentVictimRef with
  | none => updateVictim env s owner
  | some t => do
    let ref ← s.refs t
    if shouldBeOffline env ref then updateVictim env s owner else some s

/-! ## Clearing -/

/-- `ClearThreat(ThreatReference*)`. -/
def clearThreatRef (env : Env P) (s : ThreatState P) (owner : ObjectGuid) (t : ThreatId) :
    Option (ThreatState P) := do
  let s ← unregisterAndFree s t
  if (s.mgr owner).currentVictimRef.isNone then updateVictim env s owner else some s

/-- `ClearThreat(Unit*)`. -/
def clearThreat (env : Env P) (s : ThreatState P) (owner target : ObjectGuid) : Option (ThreatState P) :=
  match (s.mgr owner).myThreatListEntries.find? target with
  | none => some s
  | some t => clearThreatRef env s owner t

/-- One round of the loop of `ClearAllThreat`. -/
def clearFirstEntry (owner : ObjectGuid) (s : ThreatState P) : Option (ThreatState P) := do
  let (_, t) ← (s.mgr owner).myThreatListEntries.entries.head?
  unregisterAndFree s t

/-- Cut off after as many rounds as there are entries. -/
def clearAllThreat (s : ThreatState P) (owner : ObjectGuid) : Option (ThreatState P) :=
  whileLoop (fun s => !(s.mgr owner).myThreatListEntries.isEmpty) (clearFirstEntry owner)
    (s.mgr owner).myThreatListEntries.size s

/-- One round of the loop of `RemoveMeFromThreatLists`; `ref->_mgr` is the owner's manager. -/
def leaveFirstThreatList (env : Env P) (me : ObjectGuid) (s : ThreatState P) : Option (ThreatState P) := do
  let (_, t) ← (s.mgr me).threatenedByMe.entries.head?
  let ref ← s.refs t
  clearThreat env s ref.owner me

/-- Cut off after as many rounds as there are entries. -/
def removeMeFromThreatLists (env : Env P) (s : ThreatState P) (me : ObjectGuid) : Option (ThreatState P) :=
  whileLoop (fun s => !(s.mgr me).threatenedByMe.isEmpty) (leaveFirstThreatList env me)
    (s.mgr me).threatenedByMe.size s

/-! ## Changing the references of a list -/

def fixateTarget (s : ThreatState P) (owner : ObjectGuid) (target : Option ObjectGuid) : ThreatState P :=
  let m := s.mgr owner
  s.setMgr owner { m with fixateRef := target.bind m.myThreatListEntries.find? }

/-- One round of the loop of `EvaluateSuppressed`. -/
def evaluateSuppressedRef (env : Env P) (canExpire : Bool) (s : ThreatState P) (t : ThreatId) :
    Option (ThreatState P) := do
  let ref ← s.refs t
  let shouldBeSuppressed := shouldBeSuppressed env ref
  if ref.isOnline && shouldBeSuppressed then
    heapNotifyDecreased (s.setRef t { ref with online := .suppressed }) t
  else if canExpire && ref.isSuppressed && !shouldBeSuppressed then
    heapNotifyIncreased (s.setRef t { ref with online := .online }) t
  else some s

def evaluateSuppressed (env : Env P) (s : ThreatState P) (me : ObjectGuid) (canExpire : Bool) :
    Option (ThreatState P) :=
  (s.mgr me).threatenedByMe.entries.foldlM (fun s e => evaluateSuppressedRef env canExpire s e.2) s

/-- The taunt state each caster's aura gives: the later the aura, the higher,
and a caster's last one counts. -/
def tauntStates (casters : List ObjectGuid) : List (ObjectGuid × Nat) :=
  (casters.zipIdx TAUNT_STATE_TAUNT).reverse

def tauntUpdate (env : Env P) (s : ThreatState P) (owner : ObjectGuid) : Option (ThreatState P) := do
  let states := tauntStates (env.tauntCasters owner)
  let s ← (s.mgr owner).myThreatListEntries.entries.foldlM
    (fun s e => updateTauntState env s e.2 ((states.lookup e.1).getD TAUNT_STATE_NONE)) s
  -- a taunt aura update also re-evaluates all suppressed states
  evaluateSuppressed env s owner true

/-- `ThreatManager::ScaleThreat`. -/
def scaleThreat (s : ThreatState P) (owner target : ObjectGuid) (factor : Fl P.fmt) : Option (ThreatState P) :=
  match (s.mgr owner).myThreatListEntries.find? target with
  | none => some s
  | some t => refScaleThreat s t (max factor 0)

def modifyThreatByPercent (s : ThreatState P) (owner target : ObjectGuid) (percent : Int) :
    Option (ThreatState P) :=
  if percent ≠ 0 then scaleThreat s owner target (percentFactor percent) else some s

def resetThreat (s : ThreatState P) (owner target : ObjectGuid) : Option (ThreatState P) :=
  scaleThreat s owner target 0

def resetAllThreat (s : ThreatState P) (owner : ObjectGuid) : Option (ThreatState P) :=
  (s.mgr owner).myThreatListEntries.entries.foldlM (fun s e => refScaleThreat s e.2 0) s

/-- One round of the loop of `UpdateMyTempModifiers`. -/
def setTempModifier (mod : Int) (isIncrease : Bool) (s : ThreatState P) (t : ThreatId) :
    Option (ThreatState P) := do
  let ref ← s.refs t
  let s := s.setRef t { ref with tempModifier := mod }
  if isIncrease then heapNotifyIncreased s t else heapNotifyDecreased s t

/-- Which way all references move is decided by the first one met. -/
def updateMyTempModifiers (env : Env P) (s : ThreatState P) (me : ObjectGuid) : Option (ThreatState P) :=
  let mod := (env.totalThreatAuras me).sum
  match (s.mgr me).threatenedByMe.entries with
  | [] => some s
  | (g, t) :: rest => do
    let first ← s.refs t
    let isIncrease := first.tempModifier < mod
    ((g, t) :: rest).foldlM (fun s e => setTempModifier mod isIncrease s e.2) s

/-! ## Threat modifiers and redirection -/

def MAX_SPELL_SCHOOL : Nat := 7

/-- `CalculateModifiedThreat`; the multiplier of several schools is kept by the
victim's manager once computed. -/
def calculateModifiedThreat (env : Env P) (s : ThreatState P) (threat : Fl P.fmt) (victim : ObjectGuid)
    (spell : Option SpellInfo) : ThreatState P × Fl P.fmt :=
  let threat := match spell with
    | none => threat
    | some sp =>
      let threat := match env.spellThreatPct sp.id with
        | some pctMod => if pctMod ≠ 1 then threat * pctMod else threat
        | none => threat
      env.applySpellMod victim sp.id threat
  let m := s.mgr victim
  let mask := (spell.map (·.schoolMask)).getD 1
  match (List.range MAX_SPELL_SCHOOL).find? fun school => mask = 2 ^ school with
  | some school => (s, threat * m.singleSchoolModifiers school)
  | none =>
    match m.multiSchoolModifiers.find? mask with
    | some mod => (s, threat * mod)
    | none =>
      let mod := env.auraThreatMultiplier victim mask
      (s.setMgr victim { m with
        multiSchoolModifiers := m.multiSchoolModifiers.insert env.placeSchool mask mod }, threat * mod)

def updateMySpellSchoolModifiers (env : Env P) (s : ThreatState P) (me : ObjectGuid) : ThreatState P :=
  s.setMgr me { s.mgr me with
    singleSchoolModifiers := fun school => env.auraThreatMultiplier me (2 ^ school)
    multiSchoolModifiers := .empty }

/-- The loop of `UpdateRedirectInfo` over the (victim, percentage) pairs met:
each gets what is left of 100%. -/
def redirectShares (totalPct : Nat) : List (ObjectGuid × Nat) → List (ObjectGuid × Nat)
  | [] => []
  | (victim, pct) :: rest =>
    let thisPct := min (100 - totalPct) pct
    if 0 < thisPct then
      (victim, thisPct) :: if totalPct + thisPct = 100 then [] else redirectShares (totalPct + thisPct) rest
    else redirectShares totalPct rest

def updateRedirectInfo (s : ThreatState P) (me : ObjectGuid) : ThreatState P :=
  let m := s.mgr me
  let pairs := m.redirectRegistry.entries.flatMap fun e => e.2.entries
  s.setMgr me { m with redirectInfo := redirectShares 0 pairs }

def registerRedirectThreat (env : Env P) (s : ThreatState P) (me : ObjectGuid) (spellId : Nat)
    (victim : ObjectGuid) (pct : Nat) : ThreatState P :=
  let m := s.mgr me
  let victims := ((m.redirectRegistry.find? spellId).getD .empty).insert env.place victim pct
  updateRedirectInfo (s.setMgr me { m with
    redirectRegistry := m.redirectRegistry.insert env.placeSpell spellId victims }) me

/-- `UnregisterRedirectThreat(spellId)`. -/
def unregisterRedirectThreat (s : ThreatState P) (me : ObjectGuid) (spellId : Nat) : ThreatState P :=
  let m := s.mgr me
  match m.redirectRegistry.find? spellId with
  | none => s
  | some _ =>
    updateRedirectInfo (s.setMgr me { m with redirectRegistry := m.redirectRegistry.erase spellId }) me

/-- `UnregisterRedirectThreat(spellId, victim)`. -/
def unregisterRedirectThreatFor (env : Env P) (s : ThreatState P) (me : ObjectGuid) (spellId : Nat)
    (victim : ObjectGuid) : ThreatState P :=
  let m := s.mgr me
  match m.redirectRegistry.find? spellId with
  | none => s
  | some victims =>
    match victims.find? victim with
    | none => s
    | some _ => updateRedirectInfo (s.setMgr me { m with
        redirectRegistry := m.redirectRegistry.insert env.placeSpell spellId (victims.erase victim) }) me

end AtlasWow.Combat
