/-
The queue of resets: every map difficulty with a reset time has one event in
it, and the other events are each for one instance (`Settled`). An event that
is due goes, and comes back with its next time (`Settled.drop`,
`Settled.add`), so the resets of a map follow their warnings (`Timeline`).
-/
import AtlasWow.Instances.InstanceSaveMgr

namespace AtlasWow.Instances

variable {data : Data} {key : Nat} {t : Int} {log l : List Happening}

/-! Keys -/

theorem MAKE_PAIR32_parts (h : key < MAX_RAID_DIFFICULTY * 2 ^ 16) :
    MAKE_PAIR32 (PAIR32_LOPART key) (PAIR32_HIPART key) = key := by
  unfold MAKE_PAIR32 PAIR32_LOPART PAIR32_HIPART
  unfold MAX_RAID_DIFFICULTY at h
  omega

/-- The event of a map difficulty. -/
def globalEvent (key type : Nat) : InstResetEvent :=
  { type := type, difficulty := PAIR32_HIPART key, mapid := PAIR32_LOPART key, instanceId := 0 }

theorem new_globalEvent (h : key < MAX_RAID_DIFFICULTY * 2 ^ 16) {type : Nat} (htype : type ≤ 4) :
    InstResetEvent.new type (PAIR32_LOPART key) (PAIR32_HIPART key) 0 = globalEvent key type := by
  unfold InstResetEvent.new globalEvent PAIR32_LOPART PAIR32_HIPART
  unfold MAX_RAID_DIFFICULTY at h
  congr 1 <;> omega

theorem resetTimeDelay_one : resetTimeDelay 1 = 3600 := rfl
theorem resetTimeDelay_four : resetTimeDelay 4 = 60 := rfl

/-- The map difficulties of a list that have a reset time. -/
def resetKeysOf (l : List (Nat × Nat)) : List Nat := (l.filter (·.2 ≠ 0)).map Prod.fst

def Data.resetKeys (data : Data) : List Nat := resetKeysOf data.mapDifficulties.entries

theorem Data.mem_resetKeys : key ∈ data.resetKeys ↔ ∃ delay, data.mapDifficulties.find? key = some delay ∧ delay ≠ 0 := by
  rw [resetKeys, resetKeysOf, List.mem_map]
  constructor
  · intro h
    obtain ⟨e, he, rfl⟩ := h
    obtain ⟨hmem, hdelay⟩ := List.mem_filter.1 he
    exact ⟨e.2, OMap.mem_entries.1 hmem, by simpa using hdelay⟩
  · intro h
    obtain ⟨delay, hfind, hdelay⟩ := h
    exact ⟨(key, delay), List.mem_filter.2 ⟨OMap.mem_entries.2 hfind, by simpa using hdelay⟩, rfl⟩

theorem Data.nodup_resetKeys (data : Data) : data.resetKeys.Nodup :=
  ((List.filter_sublist (l := data.mapDifficulties.entries)).map Prod.fst).nodup data.mapDifficulties.nodup_keys

theorem Data.resetKeys_lt (h : key ∈ data.resetKeys) : key < MAX_RAID_DIFFICULTY * 2 ^ 16 := by
  obtain ⟨delay, hfind, -⟩ := mem_resetKeys.1 h
  exact data.difficulties key (OMap.mem_keys.2 ⟨delay, hfind⟩)

theorem Data.resetKeys_instanceable (h : key ∈ data.resetKeys) :
    (data.maps (PAIR32_LOPART key)).any MapType.instanceable = true := by
  obtain ⟨delay, hfind, hdelay⟩ := mem_resetKeys.1 h
  exact data.instances key delay hfind hdelay

/-! Times -/

/-- The configuration: an hour of the day, and whole days between resets. -/
structure Data.WholeDays (data : Data) : Prop where
  hour : data.hour < 24
  scaled : ∀ key ∈ data.resetKeys, ∀ delay, data.mapDifficulty key = some delay → data.period delay % DAY = 0

theorem Data.DAY_le_period (data : Data) (delay : Nat) : DAY ≤ data.period delay := by
  unfold period
  split <;> omega

theorem Data.WholeDays.diff_mod (h : data.WholeDays) : data.diff % DAY = data.diff := by
  have hhour := h.hour
  unfold Data.diff DAY HOUR
  omega

/-- The period of a map difficulty. -/
def Data.periodOf (data : Data) (key : Nat) : Int := data.period ((data.mapDifficulty key).getD 0)

theorem Data.WholeDays.periodOf_mod (h : data.WholeDays) (hkey : key ∈ data.resetKeys) : data.periodOf key % DAY = 0 := by
  obtain ⟨delay, hfind, -⟩ := mem_resetKeys.1 hkey
  unfold periodOf
  rw [show data.mapDifficulty key = some delay from hfind]
  exact h.scaled key hkey delay hfind

theorem Data.getSubsequentResetTime_eq (hkey : key ∈ data.resetKeys) (t : Int) :
    data.getSubsequentResetTime key t = (t + MINUTE) / DAY * DAY + data.periodOf key + data.diff := by
  obtain ⟨delay, hfind, hdelay⟩ := mem_resetKeys.1 hkey
  have hfind : data.mapDifficulty key = some delay := hfind
  unfold getSubsequentResetTime periodOf
  rw [hfind]
  exact if_neg hdelay

/-- One minute before a reset, the next one is a period away. -/
theorem Data.WholeDays.next_eq (h : data.WholeDays) (hkey : key ∈ data.resetKeys) (ht : t % DAY = data.diff) :
    data.getSubsequentResetTime key t = t + data.periodOf key := by
  rw [data.getSubsequentResetTime_eq hkey]
  have hhour := h.hour
  have hdiff : data.diff ≤ 23 * 3600 := by
    unfold Data.diff HOUR
    omega
  unfold DAY MINUTE at *
  omega

theorem Data.WholeDays.next_mod (h : data.WholeDays) (hkey : key ∈ data.resetKeys) (t : Int) :
    data.getSubsequentResetTime key t % DAY = data.diff := by
  rw [data.getSubsequentResetTime_eq hkey]
  have hperiod := h.periodOf_mod hkey
  have hdiff := h.diff_mod
  unfold DAY at *
  omega

/-! What happens to a map -/

/-- A happening is about a map difficulty. -/
def Happening.isAbout (key : Nat) : Happening → Bool
  | .warned mapid difficulty _ _ => MAKE_PAIR32 mapid difficulty = key
  | .reset mapid difficulty _ _ => MAKE_PAIR32 mapid difficulty = key
  | .forced mapid difficulty _ => MAKE_PAIR32 mapid difficulty = key
  | _ => false

def historyOf (key : Nat) (log : List Happening) : List Happening := log.filter (·.isAbout key)

theorem historyOf_append (h : ∀ x ∈ l, x.isAbout key = true) : historyOf key (log ++ l) = historyOf key log ++ l := by
  rw [historyOf, List.filter_append, List.filter_eq_self.2 h, historyOf]

/-- A happening is about one map difficulty at most. -/
theorem historyOf_other (h : ∀ x ∈ l, x.isAbout key = true) {other : Nat} (hother : other ≠ key) :
    historyOf other l = [] := by
  rw [historyOf, List.filter_eq_nil_iff]
  intro x hx habout
  have hkey := h x hx
  cases x <;> simp only [Happening.isAbout, decide_eq_true_eq, Bool.false_eq_true] at hkey habout <;>
    exact hother (habout.symm.trans hkey)

/-- What has happened, from one type of the next event and one reset time to another: three warnings, each after its time, and then
the reset, a minute before its time; the next one is a period later. A forced reset begins a new period. -/
inductive Timeline (data : Data) (key : Nat) (start : Nat × Int) : List Happening → Nat × Int → Prop
  | nil : Timeline data key start [] start
  | warned {l : List Happening} {type : Nat} {t : Int} (h : Timeline data key start l (type, t)) (mapid difficulty : Nat)
      {now : Int} (hpos : 1 ≤ type) (htype : type < 4) (hnow : t - resetTimeDelay type < now) :
      Timeline data key start (l ++ [.warned mapid difficulty t now]) (type + 1, t)
  | reset {l : List Happening} {t : Int} (h : Timeline data key start l (4, t)) (mapid difficulty : Nat) {now : Int}
      (hnow : t - resetTimeDelay 4 < now) :
      Timeline data key start (l ++ [.reset mapid difficulty (t + data.periodOf key) now]) (1, t + data.periodOf key)
  | forced {l : List Happening} {type : Nat} {t : Int} (h : Timeline data key start l (type, t)) (mapid difficulty : Nat)
      {now next : Int} (hlt : t < next) (hhour : next % DAY = data.diff) :
      Timeline data key start (l ++ [.forced mapid difficulty now, .reset mapid difficulty next now]) (1, next)

/-- The reset times that come after the resets of a list. -/
def nextResets (l : List Happening) : List Int :=
  l.filterMap fun
    | .reset _ _ nextReset _ => some nextReset
    | _ => none

theorem DAY_le_periodOf (data : Data) (key : Nat) : DAY ≤ data.periodOf key := data.DAY_le_period _

/-- The first warning of the next period comes after the reset. -/
theorem Data.next_period (data : Data) (key : Nat) (hpos : 0 ≤ t) :
    0 < t + data.periodOf key ∧ t - resetTimeDelay 4 < t + data.periodOf key - resetTimeDelay 1 := by
  have hday := DAY_le_periodOf data key
  rw [resetTimeDelay_one, resetTimeDelay_four]
  unfold DAY at hday
  omega

/-- The reset times of a map strictly increase, and stay at the hour. -/
theorem Timeline.increases {start state : Nat × Int} (h : Timeline data key start l state)
    (hdays : data.WholeDays) (hkey : key ∈ data.resetKeys) (hstart : start.2 % DAY = data.diff) :
    (nextResets l).Pairwise (· < ·) ∧ (∀ t ∈ nextResets l, start.2 < t ∧ t ≤ state.2 ∧ t % DAY = data.diff) ∧
      start.2 ≤ state.2 ∧ state.2 % DAY = data.diff := by
  have hperiod := hdays.periodOf_mod hkey
  have hpos := DAY_le_periodOf data key
  have hone {l : List Happening} {old next : Int} (hnext : old < next) (hhour : next % DAY = data.diff)
      (ih : (nextResets l).Pairwise (· < ·) ∧ (∀ t ∈ nextResets l, start.2 < t ∧ t ≤ old ∧ t % DAY = data.diff) ∧
        start.2 ≤ old ∧ old % DAY = data.diff) :
      (nextResets l ++ [next]).Pairwise (· < ·) ∧
        (∀ t ∈ nextResets l ++ [next], start.2 < t ∧ t ≤ next ∧ t % DAY = data.diff) ∧
        start.2 ≤ next ∧ next % DAY = data.diff := by
    obtain ⟨hpairs, hall, hle, -⟩ := ih
    refine ⟨List.pairwise_append.2 ⟨hpairs, List.pairwise_singleton .., fun t ht t' ht' => ?_⟩, fun t ht => ?_, by omega, hhour⟩
    · rw [List.mem_singleton.1 ht']
      exact Int.lt_of_le_of_lt (hall t ht).2.1 hnext
    · rcases List.mem_append.1 ht with ht | ht
      · obtain ⟨hlt, hle, hmod⟩ := hall t ht
        exact ⟨hlt, by omega, hmod⟩
      · rw [List.mem_singleton.1 ht]
        exact ⟨by omega, Int.le_refl _, hhour⟩
  induction h with
  | nil => exact ⟨.nil, nofun, Int.le_refl _, hstart⟩
  | @warned l type t h mapid difficulty now hpos htype hnow ih =>
    have hsame : nextResets (l ++ [.warned mapid difficulty t now]) = nextResets l := by simp [nextResets]
    rw [hsame]
    exact ih
  | @reset l t h mapid difficulty now hnow ih =>
    rw [nextResets, List.filterMap_append]
    refine hone ?_ ?_ ih
    · unfold DAY at hpos
      omega
    · have hold : t % DAY = data.diff := ih.2.2.2
      rw [Int.add_emod, hperiod, Int.add_zero, Int.emod_emod]
      exact hold
  | forced h mapid difficulty hlt hhour ih =>
    rw [nextResets, List.filterMap_append]
    exact hone hlt hhour ih

/-! The queue -/

/-- An event for the instance it was scheduled for. -/
def IsIndividual (log : List Happening) (e : Int × InstResetEvent) : Prop :=
  e.2.type = 0 ∧ e.2.instanceId ≠ 0 ∧ ∃ mapid difficulty, .scheduled e.1 mapid difficulty e.2.instanceId ∈ log ∧
    e.2 = .new 0 mapid difficulty e.2.instanceId

theorem IsIndividual.mono {log' : List Happening} {e : Int × InstResetEvent} (h : IsIndividual log e)
    (hsub : ∀ x ∈ log, x ∈ log') : IsIndividual log' e := by
  obtain ⟨htype, hid, mapid, difficulty, hmem, heq⟩ := h
  exact ⟨htype, hid, mapid, difficulty, hsub _ hmem, heq⟩

namespace InstanceSaveManager

variable {s s' : InstanceSaveManager} {keys : List Nat} {types : Nat → Nat} {individual : List (Int × InstResetEvent)}

/-- The event of a map difficulty, and when it is due. -/
def globalEntry (s : InstanceSaveManager) (types : Nat → Nat) (key : Nat) : Int × InstResetEvent :=
  (s.getResetTimeFor key - resetTimeDelay (types key), globalEvent key (types key))

/-- Each of some map difficulties has an event in the queue, of a type; the other events are each for one instance. -/
structure Settled (data : Data) (keys : List Nat) (types : Nat → Nat) (individual : List (Int × InstResetEvent))
    (s : InstanceSaveManager) : Prop where
  queue : s.resetTimeQueue.entries.Perm (individual ++ keys.map (s.globalEntry types))
  individual : ∀ e ∈ individual, IsIndividual s.log e
  typed : ∀ key ∈ keys, 1 ≤ types key ∧ types key ≤ 4
  times : ∀ key ∈ keys, ∃ t, s.resetTimes.find? key = some t ∧ 0 ≤ t ∧ t % DAY = data.diff
  timeline : ∀ key ∈ keys, ∃ start, start.2 % DAY = data.diff ∧
    Timeline data key start (historyOf key s.log) (types key, s.getResetTimeFor key)

theorem Settled.perm {keys' : List Nat} (h : s.Settled data keys types individual) (hperm : keys.Perm keys') :
    s.Settled data keys' types individual where
  queue := h.queue.trans ((hperm.map _).append_left _)
  individual := h.individual
  typed key hkey := h.typed key (hperm.mem_iff.2 hkey)
  times key hkey := h.times key (hperm.mem_iff.2 hkey)
  timeline key hkey := h.timeline key (hperm.mem_iff.2 hkey)

/-- The event of a map difficulty goes. -/
theorem Settled.drop {l : List (Int × InstResetEvent)} (h : s.Settled data (key :: keys) types individual)
    (hentries : s.resetTimeQueue.entries.Perm (s.globalEntry types key :: l)) {q : OMultimap Int InstResetEvent}
    (hqueue : q.entries.Perm l) : Settled data keys types individual { s with resetTimeQueue := q } where
  queue := by
    have hperm := hentries.symm.trans h.queue
    rw [List.map_cons] at hperm
    exact hqueue.trans ((List.perm_cons _).1 (hperm.trans List.perm_middle))
  individual := h.individual
  typed key hkey := h.typed key (List.mem_cons_of_mem _ hkey)
  times key hkey := h.times key (List.mem_cons_of_mem _ hkey)
  timeline key hkey := h.timeline key (List.mem_cons_of_mem _ hkey)

theorem getResetTimeFor_insert (s : InstanceSaveManager) (key key' : Nat) (t : Int) :
    (s.initializeResetTimeFor key t).getResetTimeFor key' = if key' = key then t else s.getResetTimeFor key' := by
  unfold getResetTimeFor initializeResetTimeFor
  dsimp only
  rw [OMap.find?_insert]
  split <;> rfl

/-- The event of one more map difficulty. -/
theorem Settled.add {type : Nat} {t : Int} (h : s.Settled data keys types individual) (hkey : key ∉ keys)
    (htimes : s'.resetTimes = s.resetTimes.insert key t)
    (hqueue : s'.resetTimeQueue.entries.Perm ((t - resetTimeDelay type, globalEvent key type) :: s.resetTimeQueue.entries))
    (hlog : ∃ l, s'.log = s.log ++ l ∧ ∀ other ≠ key, historyOf other l = [])
    (htype : 1 ≤ type ∧ type ≤ 4) (hpos : 0 ≤ t) (hhour : t % DAY = data.diff)
    (htimeline : ∃ start, start.2 % DAY = data.diff ∧ Timeline data key start (historyOf key s'.log) (type, t)) :
    s'.Settled data (key :: keys) (Function.update types key type) individual := by
  obtain ⟨l, hl, hothers⟩ := hlog
  have hne {other : Nat} (hother : other ∈ keys) : other ≠ key := fun heq => hkey (heq ▸ hother)
  have hget (other : Nat) : s'.getResetTimeFor other = if other = key then t else s.getResetTimeFor other := by
    rw [← getResetTimeFor_insert]
    unfold getResetTimeFor
    rw [htimes]
    rfl
  have hself : s'.globalEntry (Function.update types key type) key = (t - resetTimeDelay type, globalEvent key type) := by
    rw [globalEntry, hget, if_pos rfl, Function.update_self]
  have hsame : keys.map (s'.globalEntry (Function.update types key type)) = keys.map (s.globalEntry types) :=
    List.map_congr_left fun other hother => by
      rw [globalEntry, hget, if_neg (hne hother), Function.update_of_ne (hne hother)]
      rfl
  refine ⟨?_, fun e he => ?_, fun other hother => ?_, fun other hother => ?_, fun other hother => ?_⟩
  · rw [List.map_cons, hself, hsame]
    exact hqueue.trans ((h.queue.cons _).trans List.perm_middle.symm)
  · exact (h.individual e he).mono fun _ hx => hl ▸ List.mem_append_left l hx
  · rcases List.mem_cons.1 hother with rfl | hother
    · rwa [Function.update_self]
    · rw [Function.update_of_ne (hne hother)]
      exact h.typed other hother
  · rw [htimes, OMap.find?_insert]
    rcases List.mem_cons.1 hother with rfl | hother
    · exact ⟨t, if_pos rfl, hpos, hhour⟩
    · rw [if_neg (hne hother)]
      exact h.times other hother
  · rw [hget]
    rcases List.mem_cons.1 hother with rfl | hother
    · rw [if_pos rfl, Function.update_self]
      exact htimeline
    rw [if_neg (hne hother), Function.update_of_ne (hne hother), hl, historyOf, List.filter_append]
    have hnil : l.filter (·.isAbout other) = [] := hothers other (hne hother)
    rw [hnil, List.append_nil]
    exact h.timeline other hother

end InstanceSaveManager

end AtlasWow.Instances
