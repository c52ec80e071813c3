/-
The combat manager (`CombatManager.cpp`). What an AI or an aura does in the
notifications is outside; the order of the state changes is the source's.

`none` is an assertion that failed, a null pointer that was read, or a loop
that has not ended.
-/
import AtlasWow.Combat.ThreatList

namespace AtlasWow.Combat

variable {P : Platform}

/-! ## State access -/

namespace CombatState

def setUnit (s : CombatState) (u : ObjectGuid) (x : Unit) : CombatState :=
  { s with unit := Function.update s.unit u x }

def setRef (s : CombatState) (r : RefId) (ref : CombatReference) : CombatState :=
  { s with refs := Function.update s.refs r (some ref) }

end CombatState

/-! ## Queries -/

/-- Checks combat validity before initial reference creation. -/
def canBeginCombat (env : Env P) (a b : ObjectGuid) : Bool :=
  let gm := fun u => (env.charmerOrOwnerPlayerOrPlayerItself u).any env.isGameMaster
  if a = b then false
  else if !env.isInWorld a || !env.isInWorld b then false
  else if !env.isAlive a || !env.isAlive b then false
  else if env.getMap a ≠ env.getMap b then false
  else if !env.inSamePhase a b then false
  else if env.isEvading a || env.isEvading b then false
  else if env.isInFlight a || env.isInFlight b then false
  else if env.isFriendlyTo a b || env.isFriendlyTo b a then false
  else if gm a || gm b then false
  else true

def hasPvECombat (s : CombatState) (owner : ObjectGuid) : Bool := !(s.unit owner).pveRefs.isEmpty

/-- A reference that is not suppressed on the owner's side. -/
def countsFor (s : CombatState) (owner : ObjectGuid) (r : RefId) : Bool :=
  (s.refs r).any (!·.isSuppressedFor owner)

def hasPvPCombat (s : CombatState) (owner : ObjectGuid) : Bool :=
  (s.unit owner).pvpRefs.entries.any fun e => countsFor s owner e.2

def hasCombat (s : CombatState) (owner : ObjectGuid) : Bool := hasPvECombat s owner || hasPvPCombat s owner

def isInCombatWith (s : CombatState) (owner guid : ObjectGuid) : Bool :=
  ((s.unit owner).pveRefs.find? guid).isSome || ((s.unit owner).pvpRefs.find? guid).isSome

/-! ## Bookkeeping -/

/-- `UpdatePetCombatState`: the flag tells whether a controlled unit is in combat. -/
def updatePetCombatState (env : Env P) (s : CombatState) (master : ObjectGuid) : CombatState :=
  s.setUnit master { s.unit master with petInCombat := (env.controlled master).any fun m => (s.unit m).inCombat }

/-- The unit takes the flag, with `AtEngage` or `AtDisengage` where they apply. -/
def setCombatFlag (env : Env P) (canHaveThreatList : ObjectGuid → Bool) (s : CombatState)
    (owner : ObjectGuid) (combatState : Bool) : CombatState :=
  let x := s.unit owner
  s.setUnit owner { x with
    inCombat := combatState
    isEngaged :=
      if combatState then
        if !canHaveThreatList owner && !x.isEngaged then true else x.isEngaged
      else if x.isEngaged && !env.isCreatureWithAI owner then false else x.isEngaged }

def updateMaster (env : Env P) (s : CombatState) (owner : ObjectGuid) : CombatState :=
  match env.charmerOrOwner owner with
  | some master => updatePetCombatState env s master
  | none => s

/-- Also answers whether the in-combat flag changed. -/
def updateOwnerCombatState (env : Env P) (canHaveThreatList : ObjectGuid → Bool) (s : CombatState)
    (owner : ObjectGuid) : CombatState × Bool :=
  let combatState := hasCombat s owner
  if combatState = (s.unit owner).inCombat then (s, false)
  else (updateMaster env (setCombatFlag env canHaveThreatList s owner combatState) owner, true)

/-- The assertion is on a duplicate; `operator[]` has put a null entry otherwise. -/
def putReference (env : Env P) (s : CombatState) (owner guid : ObjectGuid) (r : RefId) : Option CombatState := do
  let ref ← s.refs r
  let x := s.unit owner
  if ref.isPvP then
    if (x.pvpRefs.find? guid).isSome then none
    else some (s.setUnit owner { x with pvpRefs := x.pvpRefs.insert env.place guid r })
  else
    if (x.pveRefs.find? guid).isSome then none
    else some (s.setUnit owner { x with pveRefs := x.pveRefs.insert env.place guid r })

def purgeReference (s : CombatState) (owner guid : ObjectGuid) (pvp : Bool) : CombatState :=
  let x := s.unit owner
  if pvp then s.setUnit owner { x with pvpRefs := x.pvpRefs.erase guid }
  else s.setUnit owner { x with pveRefs := x.pveRefs.erase guid }

/-! ## References -/

/-- `PvPCombatReference::Update`: `none` when the timer has run out. -/
def CombatReference.update (ref : CombatReference) (tdiff : Nat) : Option CombatReference :=
  if ref.combatTimer ≤ tdiff then none else some { ref with combatTimer := ref.combatTimer - tdiff }

section Flags

variable (env : Env P) (canHaveThreatList : ObjectGuid → Bool)

/-- The half of `PvPCombatReference::Refresh` for the first unit. -/
def unsuppressFirst (s : CombatState) (r : RefId) (ref : CombatReference) : CombatState :=
  if ref.suppressFirst then
    (updateOwnerCombatState env canHaveThreatList (s.setRef r { ref with suppressFirst := false }) ref.first).1
  else s

/-- The half of `PvPCombatReference::Refresh` for the second unit. -/
def unsuppressSecond (s : CombatState) (r : RefId) (ref : CombatReference) : CombatState :=
  if ref.suppressSecond then
    (updateOwnerCombatState env canHaveThreatList (s.setRef r { ref with suppressSecond := false }) ref.second).1
  else s

/-- `PvPCombatReference::Refresh`. -/
def refresh (s : CombatState) (r : RefId) : Option CombatState := do
  let ref ← s.refs r
  let ref := { ref with combatTimer := PVP_COMBAT_TIMEOUT }
  let s := unsuppressFirst env canHaveThreatList (s.setRef r ref) r ref
  some (unsuppressSecond env canHaveThreatList s r { ref with suppressFirst := false })

/-- `PvPCombatReference::SuppressFor`. -/
def suppressFor (s : CombatState) (r : RefId) (who : ObjectGuid) : Option CombatState := do
  let ref ← s.refs r
  some (updateOwnerCombatState env canHaveThreatList (s.setRef r (ref.suppress who)) who).1

/-- `CombatManager::SuppressPvPCombat`. -/
def suppressPvPCombat (s : CombatState) (owner : ObjectGuid) : Option CombatState := do
  let s ← (s.unit owner).pvpRefs.entries.foldlM (fun s e => do
    let ref ← s.refs e.2
    some (s.setRef e.2 (ref.suppress owner))) s
  some (updateOwnerCombatState env canHaveThreatList s owner).1

/-- The reference that `SetInCombatWith` allocates. -/
def newReference (owner who : ObjectGuid) : CombatReference where
  first := owner
  second := who
  isPvP := env.isControlledByPlayer owner && env.isControlledByPlayer who
  combatTimer := PVP_COMBAT_TIMEOUT
  suppressFirst := false
  suppressSecond := false

/-- `SetInCombatWith`; it answers whether the two are in combat now. -/
def setInCombatWith (s : CombatState) (owner who : ObjectGuid) : Option (CombatState × Bool) :=
  match (s.unit owner).pvpRefs.find? who with
  | some r => (refresh env canHaveThreatList s r).map (·, true)
  | none =>
    if ((s.unit owner).pveRefs.find? who).isSome then some (s, true)
    else if !canBeginCombat env owner who then some (s, false)
    else do
      -- create the reference and insert it into both managers
      let r := s.nextRef
      let s := { s with refs := Function.update s.refs r (some (newReference env owner who)), nextRef := r + 1 }
      let s ← putReference env s owner who r
      let s ← putReference env s who owner r
      let (s, _needSelfAI) := updateOwnerCombatState env canHaveThreatList s owner
      let (s, _needOtherAI) := updateOwnerCombatState env canHaveThreatList s who
      some (s, isInCombatWith s owner who)

/-- One round of the loops of `InheritCombatStatesFrom`: `e` is an entry of `who`'s map. -/
def inheritCombatState (owner who : ObjectGuid) (s : CombatState) (e : ObjectGuid × RefId) :
    Option CombatState :=
  if isInCombatWith s owner e.1 then some s
  else do
    let ref ← s.refs e.2
    let target := ref.getOther who
    if (env.isImmuneToPC owner && env.isPlayerControlled target) ||
        (env.isImmuneToNPC owner && !env.isPlayerControlled target) then some s
    else (setInCombatWith env canHaveThreatList s owner target).map (·.1)

/-- The rounds change the maps of the owner and of its new targets, never the map they walk over. -/
def inheritCombatStatesFrom (s : CombatState) (owner who : ObjectGuid) : Option CombatState := do
  let s ← (s.unit who).pveRefs.entries.foldlM (inheritCombatState env canHaveThreatList owner who) s
  (s.unit who).pvpRefs.entries.foldlM (inheritCombatState env canHaveThreatList owner who) s

end Flags

/-! ## Ending combat -/

namespace World

def canHaveThreatList (w : World P) (u : ObjectGuid) : Bool := (w.threat.mgr u).ownerCanHaveThreatList

end World

/-- The combat half of `CombatReference::EndCombat`. -/
def endReference (env : Env P) (canHaveThreatList : ObjectGuid → Bool) (s : CombatState) (r : RefId)
    (ref : CombatReference) : CombatState :=
  let s := purgeReference s ref.first ref.second ref.isPvP
  let s := purgeReference s ref.second ref.first ref.isPvP
  let (s, _needFirstAI) := updateOwnerCombatState env canHaveThreatList s ref.first
  let (s, _needSecondAI) := updateOwnerCombatState env canHaveThreatList s ref.second
  { s with refs := Function.update s.refs r none }

/-- `CombatReference::EndCombat`. -/
def endCombat (env : Env P) (w : World P) (r : RefId) : Option (World P) := do
  let ref ← w.combat.refs r
  -- first, get rid of any threat that still exists
  let threat ← clearThreat env w.threat ref.first ref.second
  let threat ← clearThreat env threat ref.second ref.first
  some ⟨endReference env w.canHaveThreatList w.combat r ref, threat⟩

/-- The owner's entry is erased by hand before the reference ends, as the loops do. -/
def eraseAndEndCombat (env : Env P) (w : World P) (owner : ObjectGuid) (pvp : Bool)
    (e : ObjectGuid × RefId) : Option (World P) :=
  endCombat env { w with combat := purgeReference w.combat owner e.1 pvp } e.2

/-- One round of `CombatManager::Update`: only the first unit involved counts the timer down. -/
def updateEntry (env : Env P) (owner : ObjectGuid) (tdiff : Nat) (w : World P) (e : ObjectGuid × RefId) :
    Option (World P) := do
  let ref ← w.combat.refs e.2
  if ref.first = owner then
    match ref.update tdiff with
    | some ref => some { w with combat := w.combat.setRef e.2 ref }
    | none => eraseAndEndCombat env w owner true e
  else some w

/-- `CombatManager::Update`. A round erases the entry it visits and no other of
this map, so the iterator meets the entries the map had. -/
def updateCombat (env : Env P) (w : World P) (owner : ObjectGuid) (tdiff : Nat) : Option (World P) :=
  (w.combat.unit owner).pvpRefs.entries.foldlM (updateEntry env owner tdiff) w

/-- One round of the loops of `EndCombatBeyondRange`. -/
def endIfBeyondRange (env : Env P) (owner : ObjectGuid) (range : ℚ) (pvp : Bool) (w : World P)
    (e : ObjectGuid × RefId) : Option (World P) := do
  let ref ← w.combat.refs e.2
  if env.isWithinDistInMap ref.first ref.second range then some w
  else eraseAndEndCombat env w owner pvp e

def endCombatBeyondRange (env : Env P) (w : World P) (owner : ObjectGuid) (range : ℚ) (includingPvP : Bool) :
    Option (World P) := do
  let w ← (w.combat.unit owner).pveRefs.entries.foldlM (endIfBeyondRange env owner range false) w
  if !includingPvP then some w
  else (w.combat.unit owner).pvpRefs.entries.foldlM (endIfBeyondRange env owner range true) w

/-- One round of the loop of `EndAllPvECombat`. -/
def endFirstPvE (env : Env P) (owner : ObjectGuid) (w : World P) : Option (World P) := do
  let (_, r) ← (w.combat.unit owner).pveRefs.entries.head?
  endCombat env w r

/-- One round of the loop of `EndAllPvPCombat`. -/
def endFirstPvP (env : Env P) (owner : ObjectGuid) (w : World P) : Option (World P) := do
  let (_, r) ← (w.combat.unit owner).pvpRefs.entries.head?
  endCombat env w r

/-- The loop is cut off after as many rounds as there are entries. -/
def endAllPvECombat (env : Env P) (w : World P) (owner : ObjectGuid) : Option (World P) := do
  -- cannot have threat without combat
  let threat ← removeMeFromThreatLists env w.threat owner
  let threat ← clearAllThreat threat owner
  let w := { w with threat := threat }
  whileLoop (fun w => !(w.combat.unit owner).pveRefs.isEmpty) (endFirstPvE env owner)
    (w.combat.unit owner).pveRefs.size w

/-- The loop is cut off after as many rounds as there are entries. -/
def endAllPvPCombat (env : Env P) (w : World P) (owner : ObjectGuid) : Option (World P) :=
  whileLoop (fun w => !(w.combat.unit owner).pvpRefs.isEmpty) (endFirstPvP env owner)
    (w.combat.unit owner).pvpRefs.size w

def endAllCombat (env : Env P) (w : World P) (owner : ObjectGuid) : Option (World P) := do
  let w ← endAllPvECombat env w owner
  endAllPvPCombat env w owner

end AtlasWow.Combat
