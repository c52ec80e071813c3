/-
The reputation of a character: `ReputationMgr`. A state for each faction of
the client's list, its standing kept relative to what race and class start
with, and counters of the visible, honored, revered and exalted ones. The
rounding of single precision numbers is a parameter (`Env.round`); packets,
forced reactions and achievements are left out.
-/
import Mathlib.Data.Rat.Floor
import AtlasWow.Lib.MachineInt
import AtlasWow.Lib.OrderedMap

namespace AtlasWow.Reputation

/-- The bits of `FactionFlags`. -/
structure FactionFlags where
  visible : Bool
  atWar : Bool
  hidden : Bool
  invisibleForced : Bool
  peaceForced : Bool
  inactive : Bool
  rival : Bool
  special : Bool
deriving DecidableEq

/-- FACTION_FLAG_NONE. -/
def FactionFlags.none : FactionFlags := ⟨false, false, false, false, false, false, false, false⟩

inductive ReputationRank where
  | hated
  | hostile
  | unfriendly
  | neutral
  | friendly
  | honored
  | revered
  | exalted
deriving DecidableEq

def ReputationRank.toNat : ReputationRank → Nat
  | hated => 0
  | hostile => 1
  | unfriendly => 2
  | neutral => 3
  | friendly => 4
  | honored => 5
  | revered => 6
  | exalted => 7

instance : LE ReputationRank := ⟨fun r s => r.toNat ≤ s.toNat⟩
instance (r s : ReputationRank) : Decidable (r ≤ s) := inferInstanceAs (Decidable (r.toNat ≤ s.toNat))

def pointsInRank : ReputationRank → Int
  | .hated => 36000
  | .hostile => 3000
  | .unfriendly => 3000
  | .neutral => 3000
  | .friendly => 6000
  | .honored => 12000
  | .revered => 21000
  | .exalted => 1000

def reputationCap : Int := 42999
def reputationBottom : Int := -42000

/-- The loop of `ReputationToRank`, from the highest rank down. -/
def rankBelow (standing : Int) : Int → List ReputationRank → ReputationRank
  | _, [] => .hated
  | limit, i :: ranks => if limit - pointsInRank i ≤ standing then i else rankBelow standing (limit - pointsInRank i) ranks

def reputationToRank (standing : Int) : ReputationRank :=
  rankBelow standing (reputationCap + 1) [.exalted, .revered, .honored, .friendly, .neutral, .unfriendly, .hostile, .hated]

/-! ## What the server knows of the factions -/

structure FactionEntry where
  id : Nat
  reputationListID : Int
  baseRepRaceMask : Fin 4 → Nat
  baseRepClassMask : Fin 4 → Nat
  baseRepValue : Fin 4 → Int
  reputationFlags : Fin 4 → FactionFlags
  team : Nat
  spilloverRateIn : ℚ
  spilloverRateOut : ℚ
  spilloverMaxRankIn : Nat

def FactionEntry.canHaveReputation (e : FactionEntry) : Bool := 0 ≤ e.reputationListID

/-- Faction.dbc, indexed from 1; the tables of the database have 16 bits for an id. -/
structure FactionStore where
  entries : List FactionEntry
  sorted : entries.Pairwise (·.id < ·.id)
  ids : ∀ e ∈ entries, 0 < e.id ∧ e.id < 2 ^ 16
  /-- BaseRepValue is an `int32`. -/
  values : ∀ e ∈ entries, ∀ i, -2 ^ 31 ≤ e.baseRepValue i ∧ e.baseRepValue i < 2 ^ 31

def FactionStore.lookupEntry (s : FactionStore) (id : Nat) : Option FactionEntry := s.entries.find? (·.id = id)

/-- One of the places of a `RepSpilloverTemplate`. -/
structure RepSpillover where
  faction : Nat
  rate : ℚ
  rank : Nat

/-- What a manager reads of the server and of its player. -/
structure Env where
  store : FactionStore
  getRepSpilloverTemplate : Nat → Option (List RepSpillover)
  /-- RATE_REPUTATION_GAIN -/
  gainRate : ℚ
  /-- To the nearest single precision number. -/
  round : ℚ → ℚ
  raceMask : Nat
  classMask : Nat

/-- `int32(x)`: towards zero. -/
def truncate (x : ℚ) : Int := int32 (if 0 ≤ x then ⌊x⌋ else ⌈x⌉)

namespace Env

variable (E : Env)

/-- `sFactionTeamMap`: the factions of a team. -/
def getFactionTeamList (faction : Nat) : Option (List Nat) :=
  let flist := E.store.entries.filter fun e => e.team ≠ 0 && e.team = faction
  if flist.isEmpty then none else some (flist.map (·.id))

/-- The base row that fits race and class. -/
def baseRow (e : FactionEntry) : Option (Fin 4) :=
  (List.finRange 4).find? fun i =>
    (e.baseRepRaceMask i &&& E.raceMask ≠ 0 || (e.baseRepRaceMask i = 0 && e.baseRepClassMask i ≠ 0)) &&
      (e.baseRepClassMask i &&& E.classMask ≠ 0 || e.baseRepClassMask i = 0)

def getBaseReputation (e : FactionEntry) : Int :=
  match E.baseRow e with
  | some i => e.baseRepValue i
  | none => 0

def getDefaultStateFlags (e : FactionEntry) : FactionFlags :=
  match E.baseRow e with
  | some i => e.reputationFlags i
  | none => .none

def getBaseRank (e : FactionEntry) : ReputationRank := reputationToRank (E.getBaseReputation e)

/-- `floor((float)standing * rate + 0.5f)`. -/
def gain (standing : Int) : Int := int32 ⌊E.round (E.round (E.round standing * E.gainRate) + 1 / 2)⌋

end Env

/-! ## The manager -/

structure FactionState where
  id : Nat
  reputationListID : Int
  standing : Int
  flags : FactionFlags
  needSave : Bool

namespace FactionState

/-- What `SetVisible` refuses. -/
def staysHidden (f : FactionState) : Bool := (f.flags.invisibleForced || f.flags.hidden) && !f.flags.special

def setAtWar (atWar : Bool) (f : FactionState) : FactionState :=
  if atWar && f.flags.peaceForced && !f.flags.rival then f
  else if f.flags.atWar = atWar then f
  else { f with flags := { f.flags with atWar := atWar }, needSave := true }

def setInactive (inactive : Bool) (f : FactionState) : FactionState :=
  if inactive && (f.flags.invisibleForced || f.flags.hidden || !f.flags.visible) then f
  else if f.flags.inactive = inactive then f
  else { f with flags := { f.flags with inactive := inactive }, needSave := true }

end FactionState

/-- The counters have 8 bits; a negative list id is no key of the map. -/
structure ReputationMgr where
  factions : OMap Int FactionState
  visibleFactionCount : UInt8
  honoredFactionCount : UInt8
  reveredFactionCount : UInt8
  exaltedFactionCount : UInt8

/-- A row of `character_reputation`. -/
structure ReputationRow where
  standing : Int
  flags : FactionFlags

/-- The counter of those at a rank or above, when one goes from a rank to another. -/
def recount (rank oldRank newRank : ReputationRank) (count : UInt8) : UInt8 :=
  let count := if rank ≤ oldRank then count - 1 else count
  if rank ≤ newRank then count + 1 else count

namespace ReputationMgr

def updateRankCounters (oldRank newRank : ReputationRank) (m : ReputationMgr) : ReputationMgr :=
  { m with
    exaltedFactionCount := recount .exalted oldRank newRank m.exaltedFactionCount
    reveredFactionCount := recount .revered oldRank newRank m.reveredFactionCount
    honoredFactionCount := recount .honored oldRank newRank m.honoredFactionCount }

/-- A write through a pointer to the state at a list id. -/
def modify (k : Int) (g : FactionState → FactionState) (m : ReputationMgr) : ReputationMgr :=
  match m.factions.find? k with
  | none => m
  | some f => { m with factions := m.factions.insert k (g f) }

def getState (e : FactionEntry) (m : ReputationMgr) : Option FactionState :=
  if e.canHaveReputation then m.factions.find? e.reputationListID else none

def getReputation (E : Env) (e : FactionEntry) (m : ReputationMgr) : Int :=
  match m.getState e with
  | some state => int32 (E.getBaseReputation e + state.standing)
  | none => 0

def getRank (E : Env) (e : FactionEntry) (m : ReputationMgr) : ReputationRank := reputationToRank (m.getReputation E e)

/-- `Player::GetReputationRank`. -/
def getReputationRank (E : Env) (faction : Nat) (m : ReputationMgr) : ReputationRank :=
  match E.store.lookupEntry faction with
  | some e => m.getRank E e
  | none => reputationToRank 0

/-! ### Initialize -/

def initializeFaction (E : Env) (m : ReputationMgr) (e : FactionEntry) : ReputationMgr :=
  if 0 ≤ e.reputationListID then
    let flags := E.getDefaultStateFlags e
    let m := if flags.visible then { m with visibleFactionCount := m.visibleFactionCount + 1 } else m
    let m := m.updateRankCounters .hostile (E.getBaseRank e)
    { m with factions := m.factions.insert e.reputationListID ⟨e.id, e.reputationListID, 0, flags, true⟩ }
  else m

/-- `Initialize`. -/
def initializeFactions (E : Env) : ReputationMgr := E.store.entries.foldl (initializeFaction E) ⟨.empty, 0, 0, 0, 0⟩

/-! ### Flags -/

/-- `SetVisible(FactionState*)`. -/
def setVisibleState (k : Int) (m : ReputationMgr) : ReputationMgr :=
  match m.factions.find? k with
  | none => m
  | some f =>
    if f.staysHidden then m
    else if f.flags.visible then m
    else { m with
      factions := m.factions.insert k { f with flags := { f.flags with visible := true }, needSave := true }
      visibleFactionCount := m.visibleFactionCount + 1 }

/-- `SetVisible(FactionEntry const*)`. -/
def setVisible (e : FactionEntry) (m : ReputationMgr) : ReputationMgr :=
  if e.reputationListID < 0 then m else m.setVisibleState e.reputationListID

/-- `SetVisible(FactionTemplateEntry const*)`, given the faction of the template. -/
def setTemplateVisible (E : Env) (faction : Nat) (m : ReputationMgr) : ReputationMgr :=
  if faction = 0 then m
  else match E.store.lookupEntry faction with
  | none => m
  | some e =>
    -- never show factions of the opposing team
    if e.baseRepRaceMask 1 &&& E.raceMask ≠ 0 && e.baseRepValue 1 = reputationBottom then m else m.setVisible e

/-- CMSG_SET_FACTION_ATWAR. -/
def setAtWar (repListID : Nat) (on : Bool) (m : ReputationMgr) : ReputationMgr :=
  match m.factions.find? repListID with
  | none => m
  | some f => if f.flags.invisibleForced || f.flags.hidden then m else m.modify repListID (·.setAtWar on)

/-- CMSG_SET_FACTION_INACTIVE. -/
def setInactive (repListID : Nat) (on : Bool) (m : ReputationMgr) : ReputationMgr := m.modify repListID (·.setInactive on)

/-! ### Standings -/

def setOneFactionReputation (E : Env) (e : FactionEntry) (standing : Int) (incremental : Bool) (m : ReputationMgr) :
    Bool × ReputationMgr :=
  match m.factions.find? e.reputationListID with
  | none => (false, m)
  | some state =>
    let baseRep := E.getBaseReputation e
    let standing := if incremental then int32 (E.gain standing + (state.standing + baseRep)) else standing
    let standing :=
      if reputationCap < standing then reputationCap else if standing < reputationBottom then reputationBottom else standing
    let oldRank := reputationToRank (int32 (state.standing + baseRep))
    let newRank := reputationToRank standing
    let m := m.modify e.reputationListID fun f => { f with standing := int32 (standing - baseRep), needSave := true }
    let m := m.setVisibleState e.reputationListID
    let m := if newRank ≤ .hostile then m.modify e.reputationListID (·.setAtWar true) else m
    (true, m.updateRankCounters oldRank newRank)

/-- Spillover by the database: `none` where `AssertEntry` stops the server. -/
def templateSpillover (E : Env) (standing : Int) (incremental : Bool) :
    List RepSpillover → ReputationMgr → Option ReputationMgr
  | [], m => some m
  | spill :: rest, m =>
    if spill.faction = 0 then templateSpillover E standing incremental rest m
    else if (m.getReputationRank E spill.faction).toNat ≤ spill.rank then
      match E.store.lookupEntry spill.faction with
      | none => none
      | some e =>
        -- bonuses are already given, so the standing is only multiplied by the rate
        let spilloverRep := truncate (E.round (E.round standing * spill.rate))
        templateSpillover E standing incremental rest (m.setOneFactionReputation E e spilloverRep incremental).2
    else templateSpillover E standing incremental rest m

/-- Spillover to the factions of a team. -/
def listSpillover (E : Env) (e : FactionEntry) (spillOverRepOut : ℚ) (incremental : Bool) :
    List Nat → Bool → ReputationMgr → Bool × ReputationMgr
  | [], res, m => (res, m)
  | faction :: flist, res, m =>
    match E.store.lookupEntry faction with
    | none => listSpillover E e spillOverRepOut incremental flist res m
    | some factionEntryCalc =>
      if factionEntryCalc.id = e.id || factionEntryCalc.spilloverMaxRankIn < (m.getRank E factionEntryCalc).toNat then
        listSpillover E e spillOverRepOut incremental flist res m
      else
        let spilloverRep := truncate (E.round (spillOverRepOut * factionEntryCalc.spilloverRateIn))
        if spilloverRep ≠ 0 || !incremental then
          let (res, m) := m.setOneFactionReputation E factionEntryCalc spilloverRep incremental
          listSpillover E e spillOverRepOut incremental flist res m
        else listSpillover E e spillOverRepOut incremental flist res m

/-- Spillover by Faction.dbc: to its own factions, to its parent, or to the others of its parent. -/
def teamSpillover (E : Env) (e : FactionEntry) (standing : Int) (incremental : Bool) (m : ReputationMgr) :
    Bool × ReputationMgr :=
  match E.getFactionTeamList e.id with
  | some flist => listSpillover E e (E.round standing) incremental flist false m
  | none =>
    if e.team ≠ 0 && e.spilloverRateOut ≠ 0 then
      let spillOverRepOut := E.round (E.round standing * e.spilloverRateOut)
      match E.store.lookupEntry e.team with
      | none => (false, m)
      | some parent =>
        if (m.factions.find? parent.reputationListID).any (·.flags.special) then
          (false, (m.setOneFactionReputation E parent (truncate spillOverRepOut) incremental).2)
        else
          match E.getFactionTeamList e.team with
          | some flist => listSpillover E e spillOverRepOut incremental flist false m
          | none => (false, m)
    else (false, m)

def setReputation (E : Env) (e : FactionEntry) (standing : Int) (incremental spillOverOnly : Bool) (m : ReputationMgr) :
    Option (Bool × ReputationMgr) :=
  let spilled :=
    match E.getRepSpilloverTemplate e.id with
    | some repTemplate => (templateSpillover E standing incremental repTemplate m).map (false, ·)
    | none => some (teamSpillover E e standing incremental m)
  spilled.map fun (res, m) =>
    match m.factions.find? e.reputationListID with
    | some _ => if spillOverOnly then (res, m) else m.setOneFactionReputation E e standing incremental
    | none => (res, m)

/-! ### The database -/

/-- What a row of the table does to its state. -/
def loadRow (E : Env) (m : ReputationMgr) (row : Nat × ReputationRow) : ReputationMgr :=
  match E.store.lookupEntry row.1 with
  | none => m
  | some e =>
    -- `Initialize` has made a state for each faction that is listed
    match m.getState e with
    | none => m
    | some _ =>
      let k := e.reputationListID
      let baseRep := E.getBaseReputation e
      let m := m.modify k fun f => { f with standing := row.2.standing }
      let m := m.updateRankCounters (reputationToRank baseRep) (reputationToRank (int32 (baseRep + row.2.standing)))
      let m := if row.2.flags.visible then m.setVisibleState k else m
      let m := if row.2.flags.inactive then m.modify k (·.setInactive true) else m
      let m :=
        if row.2.flags.atWar then m.modify k (·.setAtWar true)
        else m.modify k fun f => if f.flags.visible then f.setAtWar false else f
      -- at war with hostile ones
      let m := if m.getRank E e ≤ .hostile then m.modify k (·.setAtWar true) else m
      m.modify k fun f => if f.flags = row.2.flags then { f with needSave := false } else f

def loadFromDB (E : Env) (rows : List (Nat × ReputationRow)) : ReputationMgr := rows.foldl (loadRow E) (initializeFactions E)

/-- The manager and the table after it: the rows of the states that changed are replaced. -/
def saveToDB (m : ReputationMgr) (table : OMap Nat ReputationRow) : ReputationMgr × OMap Nat ReputationRow :=
  ({ m with factions := m.factions.mapValues fun _ f => { f with needSave := false } },
    (m.factions.entries.filter (·.2.needSave)).foldl (fun table f => table.insert f.2.id ⟨f.2.standing, f.2.flags⟩) table)

end ReputationMgr

/-! ## What the operations do to the states -/

section

open ReputationMgr

variable {E : Env} {e : FactionEntry} {m m' : ReputationMgr} {k : Int} {f : FactionState} {standing : Int}
  {incremental spillOverOnly res : Bool}

variable {s : FactionStore}

theorem FactionStore.mem_of_lookupEntry {id : Nat} (h : s.lookupEntry id = some e) : e ∈ s.entries ∧ e.id = id :=
  ⟨List.mem_of_find?_eq_some h, of_decide_eq_true (List.find?_some h :)⟩

theorem FactionStore.eq_of_id {e' : FactionEntry} (he : e ∈ s.entries) (he' : e' ∈ s.entries)
    (h : e.id = e'.id) : e = e' := by
  by_contra hne
  rcases List.pairwise_iff_getElem.1 s.sorted with hlt
  obtain ⟨i, hi, rfl⟩ := List.getElem_of_mem he
  obtain ⟨j, hj, rfl⟩ := List.getElem_of_mem he'
  rcases Nat.lt_trichotomy i j with hij | rfl | hij
  · exact absurd h (Nat.ne_of_lt (hlt i j hi hj hij))
  · exact hne rfl
  · exact absurd h.symm (Nat.ne_of_lt (hlt j i hj hi hij))

theorem FactionStore.lookupEntry_id (he : e ∈ s.entries) : s.lookupEntry e.id = some e := by
  cases h : s.lookupEntry e.id with
  | none => exact absurd (List.find?_eq_none.1 h e he) (by simp)
  | some e' =>
    obtain ⟨he', hid⟩ := mem_of_lookupEntry h
    rw [eq_of_id he' he hid]

@[simp] theorem find?_modify (k k' : Int) (g : FactionState → FactionState) (m : ReputationMgr) :
    (m.modify k g).factions.find? k' = if k' = k then (m.factions.find? k).map g else m.factions.find? k' := by
  unfold ReputationMgr.modify
  split
  next hk =>
    rw [hk, Option.map_none]
    split
    next heq => rw [heq, hk]
    next => rfl
  next f hk => rw [hk, OMap.find?_insert, Option.map_some]

@[simp] theorem updateRankCounters_factions (oldRank newRank : ReputationRank) (m : ReputationMgr) :
    (m.updateRankCounters oldRank newRank).factions = m.factions := rfl

/-- The states of `Initialize`. -/
def Env.freshState (E : Env) (e : FactionEntry) : FactionState :=
  ⟨e.id, e.reputationListID, 0, E.getDefaultStateFlags e, true⟩

/-- The factions that have a state. -/
def Env.listed (E : Env) : List FactionEntry := E.store.entries.filter (·.canHaveReputation)

theorem Env.mem_listed : e ∈ E.listed ↔ e ∈ E.store.entries ∧ 0 ≤ e.reputationListID := by
  unfold Env.listed FactionEntry.canHaveReputation
  rw [List.mem_filter, decide_eq_true_iff]

/-- The faction whose state is at a list id: the last one with it. -/
def Env.owner (E : Env) (k : Int) : Option FactionEntry := E.listed.reverse.find? (·.reputationListID = k)

theorem Env.owner_some (h : E.owner k = some e) : e ∈ E.listed ∧ e.reputationListID = k :=
  ⟨List.mem_reverse.1 (List.mem_of_find?_eq_some h), of_decide_eq_true (List.find?_some h :)⟩

theorem initializeFaction_factions (m : ReputationMgr) (e : FactionEntry) :
    (initializeFaction E m e).factions =
      if 0 ≤ e.reputationListID then m.factions.insert e.reputationListID (E.freshState e) else m.factions := by
  unfold initializeFaction
  split
  · simp only [updateRankCounters_factions]
    split <;> rfl
  · rfl

theorem find?_initializeFactions (E : Env) (k : Int) :
    (initializeFactions E).factions.find? k = (E.owner k).map E.freshState := by
  have hfold : ∀ (l : List FactionEntry) (m : ReputationMgr), (l.foldl (initializeFaction E) m).factions.find? k =
      (((l.filter (·.canHaveReputation)).reverse.find? (·.reputationListID = k)).map E.freshState).or
        (m.factions.find? k) := by
    intro l
    induction l with
    | nil => exact fun m => rfl
    | cons e l ih =>
      intro m
      rw [List.foldl_cons, ih, initializeFaction_factions, List.filter_cons]
      by_cases he : 0 ≤ e.reputationListID
      · have hlisted : e.canHaveReputation = true := decide_eq_true he
        rw [if_pos he, if_pos hlisted, List.reverse_cons, List.find?_append, OMap.find?_insert]
        cases (l.filter (·.canHaveReputation)).reverse.find? (·.reputationListID = k) with
        | some e' => rfl
        | none =>
          by_cases hk : e.reputationListID = k
          · simp [hk]
          · simp [hk, Ne.symm hk]
      · rw [if_neg he, if_neg (by simpa [FactionEntry.canHaveReputation] using he)]
  exact (hfold ..).trans Option.or_none

/-! What every change of one standing keeps, `SetReputation` keeps. -/

section Keeping

variable {P : ReputationMgr → Prop}
  (hP : ∀ e ∈ E.store.entries, ∀ standing m, P m → P (m.setOneFactionReputation E e standing incremental).2)

include hP

theorem templateSpillover_keeps :
    ∀ {spills : List RepSpillover} {m : ReputationMgr}, P m →
      templateSpillover E standing incremental spills m = some m' → P m'
  | [], m, hm, h => by
    cases h
    exact hm
  | spill :: rest, m, hm, h => by
    unfold templateSpillover at h
    split at h
    · exact templateSpillover_keeps hm h
    split at h
    · split at h
      · cases h
      next e he => exact templateSpillover_keeps (hP e (FactionStore.mem_of_lookupEntry he).1 _ _ hm) h
    · exact templateSpillover_keeps hm h

theorem listSpillover_keeps {out : ℚ} :
    ∀ {flist : List Nat} {res : Bool} {m : ReputationMgr}, P m → P (listSpillover E e out incremental flist res m).2
  | [], _, _, hm => hm
  | faction :: flist, res, m, hm => by
    unfold listSpillover
    split
    · exact listSpillover_keeps hm
    next factionEntryCalc hcalc =>
    have hmem := (FactionStore.mem_of_lookupEntry hcalc).1
    split
    · exact listSpillover_keeps hm
    dsimp only
    split
    · exact listSpillover_keeps (hP _ hmem _ _ hm)
    · exact listSpillover_keeps hm

theorem teamSpillover_keeps (hm : P m) : P (teamSpillover E e standing incremental m).2 := by
  unfold teamSpillover
  split
  · exact listSpillover_keeps hP hm
  split
  · split
    · exact hm
    next parent hparent =>
    split
    · exact hP _ (FactionStore.mem_of_lookupEntry hparent).1 _ _ hm
    split
    · exact listSpillover_keeps hP hm
    · exact hm
  · exact hm

theorem setReputation_keeps (he : e ∈ E.store.entries) (h : m.setReputation E e standing incremental spillOverOnly = some (res, m'))
    (hm : P m) : P m' := by
  obtain ⟨⟨spilled, m₁⟩, hspill, hrest⟩ := Option.map_eq_some_iff.1 h
  have hm₁ : P m₁ := by
    split at hspill
    · obtain ⟨m₂, hm₂, heq⟩ := Option.map_eq_some_iff.1 hspill
      cases heq
      exact templateSpillover_keeps hP hm hm₂
    have hkeeps := @teamSpillover_keeps E e m standing incremental P hP hm
    rw [Option.some.inj hspill] at hkeeps
    exact hkeeps
  dsimp only at hrest
  split at hrest
  · split at hrest
    · cases hrest
      exact hm₁
    · have hone := hP e he standing m₁ hm₁
      rw [hrest] at hone
      exact hone
  · cases hrest
    exact hm₁

end Keeping

end

end AtlasWow.Reputation
