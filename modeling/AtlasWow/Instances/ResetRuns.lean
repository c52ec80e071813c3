/-
Runs of the instance save manager: `LoadResetTimes`, then updates, forced
resets and new instances in any order. In every state reached each map has its
one event, and its resets follow one another (`reaches_oneEventEach`), as long
as no reset is forced while another map waits for its own (`Event.allowed`).
-/
import AtlasWow.Instances.ResetSteps

namespace AtlasWow.Instances.InstanceSaveManager

variable {data : Data} {s s' : InstanceSaveManager} {keys : List Nat} {types : Nat → Nat} {key : Nat} {now : Int}
  {individual individual' : List (Int × InstResetEvent)}

/-! From `LoadResetTimes` on -/

/-- What is loaded: instances have ids that an event can name, and those with a reset time of their own are of no map difficulty
that has one. -/
structure Loadable (data : Data) (now : Int) (rows : OMap Nat InstanceRow) : Prop where
  now : 0 ≤ now
  ids : (rows.entries.all fun row => row.2.resettime = 0 || (row.1 ≠ 0 && row.1 < 2 ^ 16)) = true
  normal : (rows.entries.all fun row => row.2.resettime = 0 ||
    !data.resetKeys.contains (MAKE_PAIR32 row.2.map row.2.difficulty)) = true

theorem settled_nil : s.Settled data [] types individual ↔
    s.resetTimeQueue.entries.Perm individual ∧ ∀ e ∈ individual, IsIndividual s.log e := by
  constructor
  · intro h
    exact ⟨by simpa using h.queue, h.individual⟩
  · intro h
    exact ⟨by simpa using h.1, h.2, nofun, nofun, nofun⟩

/-- While the map difficulties are loaded: nothing has happened to a map yet, and the reset times are at the hour. -/
structure Loading (data : Data) (keys : List Nat) (s : InstanceSaveManager) : Prop where
  settled : ∃ types individual, s.Settled data keys types individual
  log : ∀ key, historyOf key s.log = []
  times : ∀ key t, s.resetTimes.find? key = some t → 0 ≤ t ∧ t % DAY = data.diff

variable {rows : OMap Nat InstanceRow}

theorem loading_instances (h : Loadable data now rows) (s : InstanceSaveManager)
    (hs : s.Loading data []) : (s.loadInstances now rows).Loading data [] := by
  have hids := h.ids
  rw [List.all_eq_true] at hids
  unfold loadInstances
  generalize rows.entries = l at hids
  induction l generalizing s with
  | nil => exact hs
  | cons row l ih =>
    refine ih _ ?_ fun x hx => hids x (List.mem_cons_of_mem _ hx)
    dsimp only
    split
    next hdue =>
      have hid := hids row List.mem_cons_self
      simp only [hdue.1, decide_false, Bool.false_or, Bool.and_eq_true, decide_eq_true_eq] at hid
      obtain ⟨types, individual, hsettled⟩ := hs.settled
      refine ⟨⟨types, _, hsettled.scheduleInstance _ _ _ hid.1 hid.2⟩, fun key => ?_, hs.times⟩
      show historyOf key (s.log ++ _) = []
      rw [historyOf, List.filter_append, ← historyOf, hs.log key]
      rfl
    next => exact hs

theorem WholeDays.diff_nonneg (data : Data) : 0 ≤ data.diff := by
  unfold Data.diff HOUR
  omega

theorem loading_resetTimes (hdays : data.WholeDays) (resets : List ResetRow) (s : InstanceSaveManager) (hs : s.Loading data []) :
    (resets.foldl (fun s row => s.loadResetTime data row) s).Loading data [] := by
  have hdiff := hdays.diff_mod
  have hnonneg := WholeDays.diff_nonneg data
  induction resets generalizing s with
  | nil => exact hs
  | cons row resets ih =>
    refine ih _ ?_
    unfold loadResetTime
    beta_reduce
    extract_lets key
    split
    next =>
      obtain ⟨types, individual, hsettled⟩ := hs.settled
      have hnil := settled_nil.1 hsettled
      refine ⟨⟨types, individual, settled_nil.2 hnil⟩, hs.log, fun other t ht => ?_⟩
      have ht : (s.resetTimes.insert key _).find? other = some t := ht
      rw [OMap.find?_insert] at ht
      split at ht
      next =>
        cases ht
        unfold DAY at *
        omega
      next => exact hs.times other t ht
    next => exact hs

/-- A reset time is loaded at the hour. -/
theorem loadedResetTime_mod (hdays : data.WholeDays) (hnow : 0 ≤ now) {delay : Nat} (hperiod : data.period delay % DAY = 0)
    {old : Int} (hold : old = 0 ∨ old % DAY = data.diff) (hpos : 0 ≤ old) :
    0 ≤ loadedResetTime data now delay old ∧ loadedResetTime data now delay old % DAY = data.diff := by
  have hdiff := hdays.diff_mod
  have hnonneg := WholeDays.diff_nonneg data
  have hday := data.DAY_le_period delay
  obtain ⟨days, hdays⟩ := Int.dvd_of_emod_eq_zero hperiod
  unfold loadedResetTime
  extract_lets today period t
  have ht : 0 ≤ t ∧ t % DAY = data.diff := by
    unfold t today period
    unfold DAY at *
    split <;> omega
  split
  next hexpired =>
    have htoday : t / DAY * DAY ≤ today := by
      unfold today
      unfold DAY
      omega
    have hrounds : 0 ≤ (today - t / DAY * DAY) / period := Int.ediv_nonneg (by omega) (by unfold DAY at hday; omega)
    have hmul : 0 ≤ ((today - t / DAY * DAY) / period + 1) * period :=
      Int.mul_nonneg (by omega) (by unfold DAY at hday; omega)
    refine ⟨?_, ?_⟩
    · unfold DAY at *
      omega
    · have hwhole : ((today - t / DAY * DAY) / period + 1) * period =
          DAY * (((today - t / DAY * DAY) / period + 1) * days) := by
        rw [show period = DAY * days from hdays]
        exact Int.mul_left_comm ..
      rw [hwhole]
      generalize ((today - t / DAY * DAY) / period + 1) * days = n
      unfold DAY at *
      omega
  next => exact ht

theorem nextType_le (t now : Int) : 1 ≤ nextType t now ∧ nextType t now ≤ 4 := by
  unfold nextType
  split
  · decide
  split
  · decide
  · split <;> decide

theorem loading_mapDifficulty (h : Loadable data now rows) (hdays : data.WholeDays)
    {mapDiff : Nat × Nat} (hmem : mapDiff ∈ data.mapDifficulties.entries) (hdelay : mapDiff.2 ≠ 0) (hkey : mapDiff.1 ∉ keys)
    (hs : s.Loading data keys) : (s.loadMapDifficulty data now rows mapDiff).Loading data (mapDiff.1 :: keys) := by
  have hfind := OMap.mem_entries.1 hmem
  have hreset : mapDiff.1 ∈ data.resetKeys := Data.mem_resetKeys.2 ⟨mapDiff.2, hfind, hdelay⟩
  have hlt := Data.resetKeys_lt hreset
  obtain ⟨types, individual, hsettled⟩ := hs.settled
  unfold loadMapDifficulty
  rw [if_neg hdelay]
  extract_lets t s₁ mapid difficulty type s₂
  -- no instance of the map difficulty has a reset time of its own
  have hnone : ∀ (l : List (Nat × InstanceRow)) (s : InstanceSaveManager), (∀ row ∈ l, row ∈ rows.entries) →
      l.foldl (fun s row => if row.2.resettime ≠ 0 ∧ MAKE_PAIR32 row.2.map row.2.difficulty = mapDiff.1
        then s.scheduleInstance (t - resetTimeDelay type) type mapid difficulty row.1 else s) s = s := by
    intro l s hl
    induction l with
    | nil => rfl
    | cons row l ih =>
      have hnormal := List.all_eq_true.1 h.normal row (hl row List.mem_cons_self)
      rw [List.foldl_cons, if_neg, ih fun x hx => hl x (List.mem_cons_of_mem _ hx)]
      intro hrow
      rw [hrow.2] at hnormal
      simp [hrow.1, hreset] at hnormal
  rw [hnone _ _ fun _ hrow => hrow]
  have hloaded : 0 ≤ t ∧ t % DAY = data.diff := by
    refine loadedResetTime_mod hdays h.now (hdays.scaled _ hreset _ hfind) ?_ ?_
    · cases hold : s.resetTimes.find? mapDiff.1 with
      | none => exact .inl (by rw [getResetTimeFor, hold]; rfl)
      | some old => exact .inr (by rw [getResetTimeFor, hold]; exact (hs.times _ _ hold).2)
    · cases hold : s.resetTimes.find? mapDiff.1 with
      | none => rw [getResetTimeFor, hold]; exact Int.le_refl 0
      | some old => rw [getResetTimeFor, hold]; exact (hs.times _ _ hold).1
  have hs₂ : s₂ = { s with
      resetTimes := s.resetTimes.insert mapDiff.1 t
      resetTimeQueue := s.resetTimeQueue.insert (t - resetTimeDelay type) (globalEvent mapDiff.1 type) } := by
    have hevent : InstResetEvent.new type mapid difficulty 0 = globalEvent mapDiff.1 type :=
      new_globalEvent hlt (nextType_le t now).2
    unfold s₂ scheduleReset
    rw [hevent]
    rfl
  rw [hs₂]
  refine ⟨⟨_, individual, hsettled.add (t := t) hkey rfl (OMultimap.perm_insert ..) ⟨[], (List.append_nil _).symm, fun _ _ => rfl⟩
    (nextType_le t now) hloaded.1 hloaded.2 ⟨(type, t), hloaded.2, ?_⟩⟩, hs.log, fun other t' ht' => ?_⟩
  · show Timeline data mapDiff.1 (type, t) (historyOf mapDiff.1 s.log) _
    rw [hs.log]
    exact .nil
  · have ht' : (s.resetTimes.insert mapDiff.1 t).find? other = some t' := ht'
    rw [OMap.find?_insert] at ht'
    split at ht'
    next =>
      cases ht'
      exact hloaded
    next => exact hs.times other t' ht'

theorem loading_mapDifficulties {rows : OMap Nat InstanceRow} (h : Loadable data now rows) (hdays : data.WholeDays) :
    ∀ (l : List (Nat × Nat)) (keys : List Nat) (s : InstanceSaveManager), (∀ e ∈ l, e ∈ data.mapDifficulties.entries) →
      (l.map Prod.fst).Nodup → (∀ e ∈ l, e.1 ∉ keys) → s.Loading data keys →
      (l.foldl (loadMapDifficulty data now rows) s).Loading data ((resetKeysOf l).reverse ++ keys)
  | [], _, _, _, _, _, hs => hs
  | e :: l, keys, s, hmem, hnodup, hkeys, hs => by
    obtain ⟨hfirst, hrest⟩ := List.nodup_cons.1 hnodup
    have hmem' : ∀ x ∈ l, x ∈ data.mapDifficulties.entries := fun x hx => hmem x (List.mem_cons_of_mem _ hx)
    rw [List.foldl_cons]
    by_cases hdelay : e.2 = 0
    · have hskip : resetKeysOf (e :: l) = resetKeysOf l := by
        rw [resetKeysOf, List.filter_cons_of_neg (by simpa using hdelay), resetKeysOf]
      have hsame : s.loadMapDifficulty data now rows e = s := by
        rw [loadMapDifficulty, if_pos hdelay]
      rw [hskip, hsame]
      exact loading_mapDifficulties h hdays l keys s hmem' hrest (fun x hx => hkeys x (List.mem_cons_of_mem _ hx)) hs
    have hcons : resetKeysOf (e :: l) = e.1 :: resetKeysOf l := by
      rw [resetKeysOf, List.filter_cons_of_pos (by simpa using hdelay), List.map_cons, resetKeysOf]
    rw [hcons, List.reverse_cons, List.append_assoc]
    refine loading_mapDifficulties h hdays l (e.1 :: keys) _ hmem' hrest (fun x hx hx' => ?_)
      (loading_mapDifficulty h hdays (hmem e List.mem_cons_self) hdelay (hkeys e List.mem_cons_self) hs)
    rcases List.mem_cons.1 hx' with heq | hx'
    · exact hfirst (heq ▸ List.mem_map_of_mem hx)
    · exact hkeys x (List.mem_cons_of_mem _ hx) hx'

theorem isSettled_loadResetTimes (h : Loadable data now rows) (hdays : data.WholeDays)
    (resets : List ResetRow) : (loadResetTimes data now rows resets).IsSettled data := by
  have hempty : Loading data [] { resetTimes := .empty, resetTimeQueue := .empty, log := [] } :=
    ⟨⟨fun _ => 0, [], settled_nil.2 ⟨.refl _, nofun⟩⟩, fun _ => rfl, nofun⟩
  have hloaded := loading_mapDifficulties h hdays data.mapDifficulties.entries [] _ (fun _ he => he)
    data.mapDifficulties.nodup_keys nofun (loading_resetTimes hdays resets _ (loading_instances h _ hempty))
  rw [List.append_nil] at hloaded
  obtain ⟨types, individual, hsettled⟩ := hloaded.settled
  exact ⟨types, individual, hsettled.perm (List.reverse_perm _)⟩

/-- The steps after which every map has its event: a reset is forced of a map that there is none of, or of the only one with a reset
time, to a later time than it had; and an instance has an id that an event can name. -/
def Event.allowed (data : Data) (s : InstanceSaveManager) : Event → Bool
  | .update _ _ => true
  | .forceGlobalReset mapId difficulty now =>
    match data.downscaled mapId difficulty with
    | none => true
    | some difficulty =>
      match data.resetKeys with
      | [] => true
      | [key] => mapId = PAIR32_LOPART key && difficulty = PAIR32_HIPART key &&
          s.getResetTimeFor key < data.getSubsequentResetTime key now
      | _ => false
  | .addInstanceSave _ instanceId _ _ _ _ => instanceId < 2 ^ 16

theorem IsSettled.step {event : Event} (h : s.IsSettled data) (hdays : data.WholeDays) (hok : event.allowed data s = true)
    (hstep : s.step data event = some s') : s'.IsSettled data := by
  cases event with
  | update rounds now => exact h.update hdays hstep
  | forceGlobalReset mapId difficulty now =>
    have hforce : s.forceGlobalReset data mapId difficulty now = some s' := hstep
    cases hdownscaled : data.downscaled mapId difficulty with
    | none =>
      rw [InstanceSaveManager.forceGlobalReset, hdownscaled] at hforce
      cases hforce
      exact h
    | some d =>
      simp only [Event.allowed, hdownscaled] at hok
      split at hok
      next hkeys => exact h.forceNothing hkeys mapId difficulty now hforce
      next key hkeys =>
        simp only [Bool.and_eq_true, decide_eq_true_eq] at hok
        obtain ⟨⟨rfl, rfl⟩, hlater⟩ := hok
        exact h.forceOnly hdays hkeys hdownscaled hlater hforce
      next => cases hok
  | addInstanceSave mapId instanceId difficulty resetTime now known =>
    cases hstep
    exact h.addInstanceSave mapId difficulty resetTime now known (of_decide_eq_true hok)

/-- An event of a map difficulty: for no instance. -/
def isGlobal (key : Nat) (e : Int × InstResetEvent) : Bool := e.2.instanceId = 0 && e.2.key = key

/-- What the queue says, and what has happened. -/
structure OneEventEach (data : Data) (s : InstanceSaveManager) : Prop where
  /-- Each map difficulty has one event, of a type and at the time for it, and its resets follow their warnings. -/
  global : ∀ key ∈ data.resetKeys, ∃ type start, 1 ≤ type ∧ type ≤ 4 ∧
    s.resetTimeQueue.entries.filter (isGlobal key) = [(s.getResetTimeFor key - resetTimeDelay type, globalEvent key type)] ∧
    Timeline data key start (historyOf key s.log) (type, s.getResetTimeFor key)
  /-- The reset times increase, and stay at the hour. -/
  hour : ∀ key ∈ data.resetKeys, s.getResetTimeFor key % DAY = data.diff ∧
    (nextResets (historyOf key s.log)).Pairwise (· < ·) ∧
    ∀ t ∈ nextResets (historyOf key s.log), t ≤ s.getResetTimeFor key ∧ t % DAY = data.diff
  /-- The other events are for the instances they were scheduled for. -/
  individual : ∀ e ∈ s.resetTimeQueue.entries, IsIndividual s.log e ∨ e.2.instanceId = 0 ∧ e.2.key ∈ data.resetKeys
  /-- An update comes to an end. -/
  updates : ∀ now, ∃ rounds s', s.update data rounds now = some s' ∧ s'.isDue now = false

theorem Settled.filter_global (h : s.Settled data data.resetKeys types individual) (hkey : key ∈ data.resetKeys) :
    s.resetTimeQueue.entries.filter (isGlobal key) = [s.globalEntry types key] := by
  have hothers : individual.filter (isGlobal key) = [] := List.filter_eq_nil_iff.2 fun e he => by
    simp [isGlobal, (h.individual e he).2.1]
  have hone : (data.resetKeys.map (s.globalEntry types)).filter (isGlobal key) = [s.globalEntry types key] := by
    rw [List.filter_map]
    have hsame : data.resetKeys.filter (isGlobal key ∘ s.globalEntry types) = data.resetKeys.filter (· = key) :=
      List.filter_congr fun other hother => by
        rw [Function.comp, isGlobal, globalEntry, key_globalEvent (Data.resetKeys_lt hother)]
        rfl
    rw [hsame, List.filter_eq, List.count_eq_one_of_mem data.nodup_resetKeys hkey]
    rfl
  have hperm := h.queue.filter (isGlobal key)
  rw [List.filter_append, hothers, hone, List.nil_append] at hperm
  exact List.perm_singleton.1 hperm

theorem IsSettled.oneEventEach (h : s.IsSettled data) (hdays : data.WholeDays) : s.OneEventEach data := by
  have hends (now : Int) := h.update_ends hdays now
  obtain ⟨types, individual, hsettled⟩ := h
  refine ⟨fun key hkey => ?_, fun key hkey => ?_, fun e he => ?_, fun now => ?_⟩
  · obtain ⟨hone, hfour⟩ := hsettled.typed key hkey
    obtain ⟨start, -, htimeline⟩ := hsettled.timeline key hkey
    exact ⟨types key, start, hone, hfour, hsettled.filter_global hkey, htimeline⟩
  · obtain ⟨start, hstart, htimeline⟩ := hsettled.timeline key hkey
    obtain ⟨hpairs, hall, -, hmod⟩ := htimeline.increases hdays hkey hstart
    exact ⟨hmod, hpairs, fun t ht => (hall t ht).2⟩
  · rcases List.mem_append.1 (hsettled.queue.mem_iff.1 he) with he | he
    · exact .inl (hsettled.individual e he)
    · obtain ⟨key, hkey, rfl⟩ := List.mem_map.1 he
      refine .inr ⟨rfl, ?_⟩
      rw [globalEntry, key_globalEvent (Data.resetKeys_lt hkey)]
      exact hkey
  · obtain ⟨rounds, s', hs', -, hdue⟩ := hends now
    exact ⟨rounds, s', hs', hdue⟩

/-- Every map that is reset at fixed times waits for one event, in every state of a run. -/
theorem reaches_oneEventEach {rows : OMap Nat InstanceRow} {resets : List ResetRow} (hdays : data.WholeDays)
    (hload : Loadable data now rows)
    (h : Reaches (fun event s => s.step data event) (fun event s => event.allowed data s = true)
      (loadResetTimes data now rows resets) s) : s.OneEventEach data :=
  (h.invariant (IsSettled data) (fun _ _ _ hs hok hstep => hs.step hdays hok hstep)
    (isSettled_loadResetTimes hload hdays resets)).oneEventEach hdays

/-! Raids that are reset every seven days at four o'clock -/

/-- Raids with the numbers of a list, all on normal difficulty. -/
def raidData (raids : OMap Nat Nat) (hraids : ∀ e ∈ raids.entries, e.1 < 2 ^ 16) : Data where
  maps mapid := if (raids.find? mapid).isSome then some .mapRaid else some .mapCommon
  mapDifficulties := raids
  difficulties key hkey := by
    obtain ⟨delay, hfind⟩ := OMap.mem_keys.1 hkey
    have hlt := hraids _ (OMap.mem_entries.2 hfind)
    unfold MAX_RAID_DIFFICULTY
    dsimp only at hlt
    omega
  instances key delay hfind _ := by
    have hlt := hraids _ (OMap.mem_entries.2 hfind)
    rw [PAIR32_LOPART, Nat.mod_eq_of_lt hlt, hfind]
    rfl
  hour := 4
  scaled := id

theorem wholeDays_raidData {raids : OMap Nat Nat} (hraids : ∀ e ∈ raids.entries, e.1 < 2 ^ 16)
    (hweeks : ∀ e ∈ raids.entries, e.2 = 604800) : (raidData raids hraids).WholeDays where
  hour := by
    show 4 < 24
    decide
  scaled key _ delay hfind := by
    have hdelay : delay = 604800 := hweeks _ (OMap.mem_entries.2 hfind)
    rw [hdelay]
    show (if ((604800 : Nat) : Int) < DAY then DAY else ((604800 : Nat) : Int)) % DAY = 0
    decide

def oneRaid : Data := raidData (OMap.empty.insert 249 604800) (by decide)

/-- A dungeon instance is created, the raid is reset, first by force and then, after its warnings, twice in its time. -/
def raidRun : List Event :=
  [.update 9 1000000, .addInstanceSave 36 7 0 0 1000001 false, .forceGlobalReset 249 0 1600000, .update 9 2999999]

def raidStart (data : Data) : InstanceSaveManager := loadResetTimes data 1000000 .empty [⟨249, 0, 1300000⟩]

theorem reaches_oneEventEach_raid :
    ∃ s, runSteps (allowed (fun event s => s.step oneRaid event) fun event s => event.allowed oneRaid s = true) raidRun
      (raidStart oneRaid) = some s ∧ s.OneEventEach oneRaid := by
  obtain ⟨s, hs⟩ := Option.isSome_iff_exists.1 (by decide : (runSteps (allowed (fun event s => s.step oneRaid event)
    fun event s => event.allowed oneRaid s = true) raidRun (raidStart oneRaid)).isSome = true)
  exact ⟨s, hs, reaches_oneEventEach (wholeDays_raidData _ (by decide)) ⟨by decide, by decide, by decide⟩
    (Reaches.of_allowed (Reaches.of_runSteps hs))⟩

def twoRaids : Data := raidData ((OMap.empty.insert 249 604800).insert 309 604800) (by decide)

/-- A raid is reset by force: the other is never reset again. -/
theorem forced_reset_cancels_other : ¬ ∀ (data : Data) (now : Int) (rows : OMap Nat InstanceRow) (resets : List ResetRow)
    (s : InstanceSaveManager), data.WholeDays → Loadable data now rows →
    Reaches (fun event s => InstanceSaveManager.step data event s) (fun _ _ => True) (loadResetTimes data now rows resets) s →
    s.OneEventEach data := by
  intro h
  obtain ⟨s, hs⟩ := Option.isSome_iff_exists.1
    (by decide : ((raidStart twoRaids).step twoRaids (.forceGlobalReset 249 0 1000000)).isSome = true)
  have heach := h twoRaids 1000000 .empty _ s (wholeDays_raidData _ (by decide)) ⟨by decide, by decide, by decide⟩
    (.tail (.forceGlobalReset 249 0 1000000) .refl trivial hs)
  obtain ⟨type, start, -, -, hevent, -⟩ := heach.global 309 (by decide)
  have hnone : ((raidStart twoRaids).step twoRaids (.forceGlobalReset 249 0 1000000)).map
      (fun s => (s.resetTimeQueue.entries.filter (isGlobal 309)).length) = some 0 := by decide
  rw [hs, Option.map_some, hevent] at hnone
  cases hnone

end AtlasWow.Instances.InstanceSaveManager
