/-
The best combination of each queue entry (`LFGQueue::UpdateBestCompatibleInQueue`,
`FindBestCompatibleInQueue`), and the calls that a queue gets: entries join and
leave, `FindGroups` looks for matches, and the timer looks for best combinations.

`FindBestCompatibleInQueue` takes the first of the longest keys that mention the
entry's guid (`findBestCompatible_spec`); a key may mention it inside another
number.
-/
import AtlasWow.Lfg.Compatible
import AtlasWow.Lib.Decimal

namespace AtlasWow.Lfg

/-! ## What is meant -/

/-- The numbers that a key is made of. -/
def Key.elements (key : Key) : List Key := key.splitOn '|'

/-- Whether a guid is one of those in a key. -/
def Key.Has (key : Key) (guid : ObjectGuid) : Prop := guidString guid ∈ key.elements

instance (key : Key) (guid : ObjectGuid) : Decidable (key.Has guid) := inferInstanceAs (Decidable (_ ∈ _))

/-- The role a player counts for. -/
inductive CountedRole where
  | tank | healer | dps
deriving DecidableEq

def countedRole (role : UInt8) : CountedRole :=
  if role &&& PLAYER_ROLE_TANK ≠ 0 then .tank else if role &&& PLAYER_ROLE_HEALER ≠ 0 then .healer else .dps

/-- Tanks, healers and damage. -/
structure Counters where
  tanks : UInt8
  healers : UInt8
  dps : UInt8
deriving DecidableEq

def LfgQueueData.counters (data : LfgQueueData) : Counters := ⟨data.tanks, data.healers, data.dps⟩

/-- The roles that are needed, less those of some players. -/
def neededLess (roles : LfgRolesMap) : Counters where
  tanks := UInt8.ofNat LFG_TANKS_NEEDED - UInt8.ofNat (roles.entries.countP fun e => countedRole e.2 = .tank)
  healers := UInt8.ofNat LFG_HEALERS_NEEDED - UInt8.ofNat (roles.entries.countP fun e => countedRole e.2 = .healer)
  dps := UInt8.ofNat LFG_DPS_NEEDED - UInt8.ofNat (roles.entries.countP fun e => countedRole e.2 = .dps)

namespace LFGQueue

/-- The queued entries that are in a key. -/
def members (q : LFGQueue) (key : Key) : GuidList := (q.queueDataStore.filter (key.Has ·)).keys

/-- The roles that the players of a combination are given. -/
def rolesIn (q : LFGQueue) (key : Key) : LfgRolesMap := (checkGroupRoles (Matching.rolesOf q (q.members key))).2

/-- The keys that can become the best of an entry. -/
def candidates (q : LFGQueue) (guid : ObjectGuid) : List (Key × LfgCompatibilityData) :=
  q.compatibleMapStore.entries.filter fun e => e.2.compatibility = .withLessPlayers && e.1.mentions guid

/-- An entry knows its best combination: it is in the cache, the entry is in it, and the counters are what it leaves to find. -/
def KnowsBest (q : LFGQueue) (guid : ObjectGuid) (data : LfgQueueData) : Prop :=
  data.bestCompatible ∈ q.compatibleMapStore.keys ∧ data.bestCompatible.Has guid ∧
    data.counters = neededLess (q.rolesIn data.bestCompatible)

end LFGQueue

/-! ## Keys -/

theorem guidString_ne_nil (guid : ObjectGuid) : guidString guid ≠ [] := by
  obtain ⟨c, cs, hcs, -⟩ := toDigits_cons guid
  rw [guidString, hcs]
  exact List.cons_ne_nil _ _

theorem guidString_injective : Function.Injective guidString := fun a b h => by
  rw [← digitsValue_toDigits a, ← digitsValue_toDigits b]
  exact congrArg digitsValue h

theorem bar_notMem_guidString (guid : ObjectGuid) : '|' ∉ guidString guid := fun h =>
  absurd (Nat.isDigit_of_mem_toDigits (by decide) (by decide) h) (by decide)

theorem infix_intercalate {sep l : List Char} {ls : List (List Char)} (h : l ∈ ls) : l <:+: sep.intercalate ls := by
  induction ls with
  | nil => exact nomatch h
  | cons l' ls ih =>
    cases ls with
    | nil => rw [List.mem_singleton.1 h, List.intercalate_singleton]
    | cons l'' ls =>
      rw [List.intercalate_cons_cons]
      rcases List.mem_cons.1 h with rfl | h
      · rw [List.append_assoc]
        exact (List.prefix_append _ _).isInfix
      · exact (ih h).trans (List.suffix_append _ _).isInfix

variable {guid : ObjectGuid} {check : GuidList} {e : Key × LfgCompatibilityData} {l : List (Key × LfgCompatibilityData)}
  {key : Key} {q : LFGQueue} {data : LfgQueueData}

/-- A guid in a key is mentioned in it. -/
theorem Key.Has.mentions (h : key.Has guid) : key.mentions guid = true := by
  have hkey : ['|'].intercalate key.elements = key := List.intercalate_splitOn '|'
  rw [Key.mentions, decide_eq_true_eq, ← hkey]
  exact infix_intercalate h

/-- Nothing is mentioned in an empty key. -/
theorem ne_nil_of_mentions (h : key.mentions guid = true) : key ≠ [] := by
  rintro rfl
  rw [Key.mentions, decide_eq_true_eq, List.infix_nil] at h
  exact guidString_ne_nil guid h

theorem mem_guidSet : guid ∈ guidSet check ↔ guid ∈ check := by
  have hall : guidSet check = (OMap.empty.insertAll (check.map fun guid => (guid, ()))).keys := by
    rw [guidSet, OMap.insertAll, List.foldl_map]
  rw [hall, OMap.mem_keys_insertAll, List.map_map]
  simp [OMap.keys, OMap.empty]

theorem guidSet_ne_nil (h : check ≠ []) : guidSet check ≠ [] := by
  obtain ⟨guid, hguid⟩ := List.exists_mem_of_ne_nil _ h
  exact List.ne_nil_of_mem (mem_guidSet.2 hguid)

/-- The guids in the key of some entries are theirs. -/
theorem has_concatenateGuids (h : check ≠ []) : (concatenateGuids check).Has guid ↔ guid ∈ check := by
  have hsplit : (concatenateGuids check).elements = (guidSet check).map guidString := by
    refine List.splitOn_intercalate '|' (fun l hl => ?_) (fun hnil => guidSet_ne_nil h (List.map_eq_nil_iff.1 hnil))
    obtain ⟨guid, -, rfl⟩ := List.mem_map.1 hl
    exact bar_notMem_guidString guid
  rw [Key.Has, hsplit, List.mem_map_of_injective guidString_injective, mem_guidSet]

theorem members_concatenateGuids (h : check ≠ [])
    (hknown : ∀ guid ∈ check, guid ∈ q.queueDataStore.keys) : q.members (concatenateGuids check) = guidSet check := by
  refine OMap.keys_eq fun guid => ?_
  rw [OMap.mem_keys_filter, decide_eq_true_eq, has_concatenateGuids h, ← guidSet, mem_guidSet]
  exact and_iff_left_of_imp (hknown guid)

/-! ## Updates -/

theorem sub_one_sub (a : UInt8) (n : Nat) : a - 1 - UInt8.ofNat n = a - UInt8.ofNat (n + 1) := by
  have hone : UInt8.ofNat 1 = 1 := rfl
  rw [UInt8.ofNat_add, hone]
  grind

/-- One player after the other is what they come to. -/
theorem foldl_counters (l : List (ObjectGuid × UInt8)) : ∀ data : LfgQueueData,
    (l.foldl (fun data e =>
      if e.2 &&& PLAYER_ROLE_TANK ≠ 0 then { data with tanks := data.tanks - 1 }
      else if e.2 &&& PLAYER_ROLE_HEALER ≠ 0 then { data with healers := data.healers - 1 }
      else { data with dps := data.dps - 1 }) data) =
    { data with
      tanks := data.tanks - UInt8.ofNat (l.countP fun e => countedRole e.2 = .tank)
      healers := data.healers - UInt8.ofNat (l.countP fun e => countedRole e.2 = .healer)
      dps := data.dps - UInt8.ofNat (l.countP fun e => countedRole e.2 = .dps) } := by
  induction l with
  | nil => simp
  | cons e l ih =>
    intro data
    rw [List.foldl_cons, ih, List.countP_cons, List.countP_cons, List.countP_cons, countedRole]
    split
    · simp [sub_one_sub]
    split <;> simp [sub_one_sub]

/-- The data with a new best combination. -/
def LfgQueueData.setBest (data : LfgQueueData) (key : Key) (roles : LfgRolesMap) : LfgQueueData :=
  { data with
    bestCompatible := key
    tanks := (neededLess roles).tanks
    healers := (neededLess roles).healers
    dps := (neededLess roles).dps }

@[simp] theorem bestCompatible_setBest (data : LfgQueueData) (key : Key) (roles : LfgRolesMap) :
    (data.setBest key roles).bestCompatible = key := rfl

@[simp] theorem counters_setBest (data : LfgQueueData) (key : Key) (roles : LfgRolesMap) :
    (data.setBest key roles).counters = neededLess roles := rfl

/-- How many guids are in the best combination. -/
def LfgQueueData.storedSize (data : LfgQueueData) : Nat :=
  if data.bestCompatible.isEmpty then 0 else data.bestCompatible.guids

/-- The best combination changes to a longer one only. -/
theorem updateBestCompatible_eq (data : LfgQueueData) (key : Key) (roles : LfgRolesMap) :
    data.updateBestCompatible key roles = if key.guids ≤ data.storedSize then data else data.setBest key roles := by
  simp only [LfgQueueData.updateBestCompatible]
  rw [foldl_counters]
  rfl

/-- The first of the longest of some keys. -/
def IsLongest (l : List (Key × LfgCompatibilityData)) (e : Key × LfgCompatibilityData) : Prop :=
  ∃ l₁ l₂, l = l₁ ++ e :: l₂ ∧ (∀ e' ∈ l₁, e'.1.guids < e.1.guids) ∧ ∀ e' ∈ l₂, e'.1.guids ≤ e.1.guids

theorem IsLongest.mem (h : IsLongest l e) : e ∈ l := by
  obtain ⟨l₁, l₂, rfl, -⟩ := h
  simp

theorem IsLongest.le {e' : Key × LfgCompatibilityData} (h : IsLongest l e) (he' : e' ∈ l) : e'.1.guids ≤ e.1.guids := by
  obtain ⟨l₁, l₂, rfl, hbefore, hafter⟩ := h
  rcases List.mem_append.1 he' with hmem | hmem
  · exact Nat.le_of_lt (hbefore e' hmem)
  rcases List.mem_cons.1 hmem with rfl | hmem
  · exact Nat.le_refl _
  · exact hafter e' hmem

/-- From no best combination, the updates with some keys come to the first of the longest. -/
theorem foldl_updateBest (hbest : data.bestCompatible = []) (l : List (Key × LfgCompatibilityData))
    (hl : ∀ e ∈ l, e.1 ≠ []) :
    (∀ e ∈ l, e.1.guids = 0) ∧ l.foldl (fun data e => data.updateBestCompatible e.1 e.2.roles) data = data ∨
      ∃ e, IsLongest l e ∧ l.foldl (fun data e => data.updateBestCompatible e.1 e.2.roles) data = data.setBest e.1 e.2.roles := by
  induction l using List.reverseRecOn with
  | nil => exact .inl ⟨fun _ he => (nomatch he), rfl⟩
  | append_singleton l e ih =>
    have hl' : ∀ e ∈ l, e.1 ≠ [] := fun e' he' => hl e' (List.mem_append_left _ he')
    rw [List.foldl_append, List.foldl_cons, List.foldl_nil, updateBestCompatible_eq]
    rcases ih hl' with ⟨hnone, hsame⟩ | ⟨e₀, hlongest, hset⟩
    · have hstored : data.storedSize = 0 := by rw [LfgQueueData.storedSize, hbest]; rfl
      rw [hsame, hstored]
      split
      next hle =>
        refine .inl ⟨fun e' he' => ?_, rfl⟩
        rcases List.mem_append.1 he' with hmem | hmem
        · exact hnone e' hmem
        · rw [List.mem_singleton.1 hmem]
          exact Nat.le_zero.1 hle
      next hlt =>
      refine .inr ⟨e, ⟨l, [], rfl, fun e' he' => ?_, fun _ he => nomatch he⟩, rfl⟩
      rw [hnone e' he']
      omega
    · have hne : e₀.1.isEmpty = false := by simpa using hl' e₀ hlongest.mem
      have hstored : (data.setBest e₀.1 e₀.2.roles).storedSize = e₀.1.guids := by
        rw [LfgQueueData.storedSize, bestCompatible_setBest, hne]
        rfl
      rw [hset, hstored]
      right
      split
      next hle =>
        obtain ⟨l₁, l₂, rfl, hbefore, hafter⟩ := hlongest
        refine ⟨e₀, ⟨l₁, l₂ ++ [e], by simp, hbefore, fun e' he' => ?_⟩, rfl⟩
        rcases List.mem_append.1 he' with hmem | hmem
        · exact hafter e' hmem
        · rw [List.mem_singleton.1 hmem]
          exact hle
      next hlt =>
      refine ⟨e, ⟨l, [], rfl, fun e' he' => ?_, fun _ he => nomatch he⟩, rfl⟩
      have hle := hlongest.le he'
      omega

theorem ne_nil_of_candidate (h : e ∈ q.candidates guid) : e.1 ≠ [] :=
  ne_nil_of_mentions (Bool.and_eq_true_iff.1 (List.mem_filter.1 h).2).2

/-- The best combination that is found is the first of the longest that mention the guid. -/
theorem findBestCompatible_spec (q : LFGQueue) (guid : ObjectGuid) (hbest : data.bestCompatible = []) :
    (∀ e ∈ q.candidates guid, e.1.guids = 0) ∧ q.findBestCompatible guid data = data ∨
      ∃ e, IsLongest (q.candidates guid) e ∧ q.findBestCompatible guid data = data.setBest e.1 e.2.roles := by
  have hfold : q.findBestCompatible guid data =
      (q.candidates guid).foldl (fun data e => data.updateBestCompatible e.1 e.2.roles) data := by
    rw [LFGQueue.candidates, List.foldl_filter]
    rfl
  rw [hfold]
  exact foldl_updateBest hbest _ fun e he => ne_nil_of_candidate he

end AtlasWow.Lfg
