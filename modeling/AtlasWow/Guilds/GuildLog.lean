/-
The logs of a guild (`Guild::LogHolder`): the last events in memory, and a ring
of rows, each event under a guid that counts up to the configured number of
records and starts over. A restart reads the ring back, sorted by time and then
by guid.

Within one second the guids alone tell the order, and where they start over
they tell it wrong. A log survives a restart if its events are never in one
second there (`Ring.load`).
-/
import Mathlib.Data.List.Nodup
import Mathlib.Data.List.Perm.Basic
import Mathlib.Data.Nat.ModEq

namespace AtlasWow.Guilds

def GUILD_EVENT_LOG_GUID_UNDEFINED : Nat := 0xFFFFFFFF

/-- An entry of a log, and its row. -/
structure LogEntry (ε : Type) where
  guid : Nat
  timestamp : Nat
  event : ε
deriving DecidableEq

structure LogHolder (ε : Type) where
  maxRecords : Nat
  log : List (LogEntry ε)
  nextGUID : Nat

variable {ε : Type}

namespace LogHolder

def new (maxRecords : Nat) : LogHolder ε := ⟨maxRecords, [], GUILD_EVENT_LOG_GUID_UNDEFINED⟩

def canInsert (h : LogHolder ε) : Bool := h.log.length < h.maxRecords

/-- An entry from the table, which is older than those that were loaded. -/
def loadEvent (h : LogHolder ε) (entry : LogEntry ε) : LogHolder ε :=
  { h with
    nextGUID := if h.nextGUID = GUILD_EVENT_LOG_GUID_UNDEFINED then entry.guid else h.nextGUID
    log := entry :: h.log }

/-- `none` if the remainder by zero is asked for. -/
def getNextGUID (h : LogHolder ε) : Option Nat :=
  if h.nextGUID = GUILD_EVENT_LOG_GUID_UNDEFINED then some 0
  else if h.maxRecords = 0 then none
  else some ((h.nextGUID + 1) % h.maxRecords)

/-- A full log loses its oldest event; `none` if there is none to lose. -/
def addEvent (h : LogHolder ε) (entry : LogEntry ε) : Option (LogHolder ε) :=
  if h.maxRecords ≤ h.log.length then
    match h.log with
    | [] => none
    | _ :: log => some { h with log := log ++ [entry] }
  else some { h with log := h.log ++ [entry] }

/-- A new event gets the next guid: the log with it, and its entry, which is saved. -/
def logEvent (h : LogHolder ε) (timestamp : Nat) (event : ε) : Option (LogHolder ε × LogEntry ε) :=
  match h.getNextGUID with
  | none => none
  | some guid =>
    match { h with nextGUID := guid }.addEvent ⟨guid, timestamp, event⟩ with
    | none => none
    | some h => some (h, ⟨guid, timestamp, event⟩)

/-- An entry is loaded if there is room. -/
def loadEventFromDB (h : LogHolder ε) (entry : LogEntry ε) : LogHolder ε := if h.canInsert then h.loadEvent entry else h

end LogHolder

/-- `ORDER BY TimeStamp DESC, LogGuid DESC` -/
def LogEntry.before (a b : LogEntry ε) : Bool := b.timestamp < a.timestamp || (a.timestamp = b.timestamp && b.guid ≤ a.guid)

/-! ## The ring -/

/-- The entries of all events that were logged: the guids count up to the number of records. -/
def records (max : Nat) (logged : List (Nat × ε)) : List (LogEntry ε) := logged.zipIdx.map fun (e, i) => ⟨i % max, e.1, e.2⟩

/-- Those of the last events, as many as are kept. -/
def lastRecords (max : Nat) (logged : List (Nat × ε)) : List (LogEntry ε) := (records max logged).drop (logged.length - max)

/-- A log and its rows hold the last events, and the next guid follows. -/
structure Ring (max : Nat) (logged : List (Nat × ε)) (h : LogHolder ε) (rows : List (LogEntry ε)) : Prop where
  maxRecords : h.maxRecords = max
  log : h.log = lastRecords max logged
  next : h.nextGUID = if logged = [] then GUILD_EVENT_LOG_GUID_UNDEFINED else (logged.length - 1) % max
  rows : rows.Perm h.log

variable {max : Nat} {logged : List (Nat × ε)} {e a b : LogEntry ε} {entries : List (LogEntry ε)}

@[simp] theorem length_records : (records max logged).length = logged.length := by simp [records]

theorem length_lastRecords (max : Nat) (logged : List (Nat × ε)) : (lastRecords max logged).length = min max logged.length := by
  rw [lastRecords, List.length_drop, length_records]
  omega

theorem records_snoc (timestamp : Nat) (event : ε) :
    records max (logged ++ [(timestamp, event)]) = records max logged ++ [⟨logged.length % max, timestamp, event⟩] := by
  simp [records, List.zipIdx_append]

/-- Of what is in the log, the event at each place. -/
theorem mem_lastRecords (h : e ∈ lastRecords max logged) :
    ∃ i, logged.length - max ≤ i ∧ i < logged.length ∧ e.guid = i % max ∧ (lastRecords max logged)[i - (logged.length - max)]? = some e := by
  obtain ⟨j, hj, rfl⟩ := List.getElem_of_mem h
  have hlen := length_lastRecords max logged
  refine ⟨logged.length - max + j, Nat.le_add_right _ _, by omega, ?_, ?_⟩
  · simp [lastRecords, records]
  · rw [Nat.add_sub_cancel_left, List.getElem?_eq_getElem hj]

/-- Guids of events that are less than a ring apart are different. -/
theorem mod_ne_mod {a b : Nat} (hlt : a < b) (hnear : b < a + max) : a % max ≠ b % max := fun h => by
  have hle := Nat.le_of_dvd (Nat.sub_pos_of_lt hlt) ((Nat.modEq_iff_dvd' hlt.le).1 h)
  omega

theorem nodup_guids (max : Nat) (logged : List (Nat × ε)) : ((lastRecords max logged).map (·.guid)).Nodup := by
  rw [List.Nodup, List.pairwise_map, List.pairwise_iff_getElem]
  intro i j hi hj hij
  have hlen := length_lastRecords max logged
  have hguid : ∀ k (hk : k < (lastRecords max logged).length), (lastRecords max logged)[k].guid = (logged.length - max + k) % max := by
    intro k hk
    simp [lastRecords, records]
  rw [hguid, hguid]
  exact mod_ne_mod (by omega) (by omega)

/-- Only the oldest event of a full log has the guid that comes next. -/
theorem oldest_of_next (h : e ∈ lastRecords max logged) (hguid : e.guid = logged.length % max) :
    max ≤ logged.length ∧ (lastRecords max logged).head? = some e := by
  obtain ⟨i, hlow, hhigh, hi, hplace⟩ := mem_lastRecords h
  have hfar : ¬logged.length < i + max := fun hnear => mod_ne_mod hhigh hnear (hi.symm.trans hguid)
  have hzero : i - (logged.length - max) = 0 := by omega
  rw [hzero, ← List.head?_eq_getElem?] at hplace
  exact ⟨by omega, hplace⟩

/-- A full log loses its oldest event to a new one. -/
theorem lastRecords_snoc (hmax : 1 ≤ max) (logged : List (Nat × ε)) (timestamp : Nat) (event : ε) :
    lastRecords max (logged ++ [(timestamp, event)]) =
      (if max ≤ logged.length then (lastRecords max logged).tail else lastRecords max logged) ++
        [⟨logged.length % max, timestamp, event⟩] := by
  have hle := Nat.sub_le logged.length max
  rw [lastRecords, records_snoc, List.length_append, List.length_singleton]
  split
  next hfull =>
    rw [show logged.length + 1 - max = logged.length - max + 1 by omega,
      List.drop_append_of_le_length (by rw [length_records]; omega), ← List.tail_drop, lastRecords]
  next hroom =>
  rw [show logged.length + 1 - max = logged.length - max by omega,
    List.drop_append_of_le_length (by rw [length_records]; omega), lastRecords]

theorem getLast?_lastRecords (hmax : 1 ≤ max) (logged : List (Nat × ε)) :
    ((lastRecords max logged).getLast?.map (·.guid)).getD GUILD_EVENT_LOG_GUID_UNDEFINED =
      if logged = [] then GUILD_EVENT_LOG_GUID_UNDEFINED else (logged.length - 1) % max := by
  rcases List.eq_nil_or_concat logged with rfl | ⟨logged, e, rfl⟩
  · simp [lastRecords, records]
  have hne : logged ++ [e] ≠ [] := List.append_ne_nil_of_right_ne_nil logged (List.cons_ne_nil e [])
  rw [List.concat_eq_append, lastRecords_snoc hmax, List.getLast?_append, if_neg hne, List.length_append,
    List.length_singleton, Nat.add_sub_cancel]
  rfl

/-- In the log are the last events, in the order in which they were logged. -/
theorem map_lastRecords (max : Nat) (logged : List (Nat × ε)) :
    (lastRecords max logged).map (fun e => (e.timestamp, e.event)) = logged.drop (logged.length - max) := by
  have hall : (records max logged).map (fun e => (e.timestamp, e.event)) = logged := by
    rw [records, List.map_map]
    exact List.zipIdx_map_fst 0 logged
  rw [lastRecords, List.map_drop, hall]

/-- The oldest event of a full log has the guid that comes next. -/
theorem head?_lastRecords (hmax : 1 ≤ max) (hfull : max ≤ logged.length) :
    (lastRecords max logged).head?.map (·.guid) = some (logged.length % max) := by
  have hlen := length_lastRecords max logged
  have hmod : (logged.length - max) % max = logged.length % max := by
    rw [← Nat.add_mod_right (logged.length - max) max, Nat.sub_add_cancel hfull]
  rw [List.head?_eq_getElem?, List.getElem?_eq_getElem (by omega)]
  simp [lastRecords, records, hmod]

/-- The entries without the guid that comes next are those without the one that a new event replaces. -/
theorem filter_next (hmax : 1 ≤ max) (logged : List (Nat × ε)) :
    (lastRecords max logged).filter (·.guid ≠ logged.length % max) =
      if max ≤ logged.length then (lastRecords max logged).tail else lastRecords max logged := by
  have hnodup := nodup_guids max logged
  split
  next hfull =>
    have hhead := head?_lastRecords hmax hfull
    cases hlog : lastRecords max logged with
    | nil => rfl
    | cons e log =>
      rw [hlog] at hhead hnodup
      have he : e.guid = logged.length % max := Option.some.inj hhead
      rw [List.map_cons, List.nodup_cons] at hnodup
      rw [List.filter_cons_of_neg (by simp [he]), List.tail_cons, List.filter_eq_self]
      intro e' he'
      rw [decide_eq_true_iff]
      exact fun hsame => hnodup.1 (List.mem_map.2 ⟨e', he', hsame.trans he.symm⟩)
  next hroom =>
  rw [List.filter_eq_self]
  intro e he
  rw [decide_eq_true_iff]
  exact fun hnext => hroom (oldest_of_next he hnext).1

namespace Ring

variable {h : LogHolder ε} {rows : List (LogEntry ε)}

theorem getNextGUID (hr : Ring max logged h rows) (hmax : 1 ≤ max) (hundefined : max ≤ GUILD_EVENT_LOG_GUID_UNDEFINED) :
    h.getNextGUID = some (logged.length % max) := by
  rw [LogHolder.getNextGUID, hr.next, hr.maxRecords]
  cases logged with
  | nil => rfl
  | cons e logged =>
    have hlt : ((e :: logged).length - 1) % max < max := Nat.mod_lt _ hmax
    rw [if_neg (List.cons_ne_nil e logged), if_neg (by omega), if_neg (by omega), Nat.mod_add_mod, List.length_cons,
      Nat.add_sub_cancel]

/-- A new event takes the place of the oldest one, in memory and in the table. -/
theorem logEvent (hr : Ring max logged h rows) (hmax : 1 ≤ max) (hundefined : max ≤ GUILD_EVENT_LOG_GUID_UNDEFINED)
    (timestamp : Nat) (event : ε) : ∃ h' entry, h.logEvent timestamp event = some (h', entry) ∧ entry.event = event ∧
      Ring max (logged ++ [(timestamp, event)]) h' (rows.filter (·.guid ≠ entry.guid) ++ [entry]) := by
  refine ⟨⟨max, lastRecords max (logged ++ [(timestamp, event)]), logged.length % max⟩, ⟨logged.length % max, timestamp, event⟩,
    ?_, rfl, rfl, rfl, ?_, ?_⟩
  · have hadd : LogHolder.addEvent { h with nextGUID := logged.length % max } ⟨logged.length % max, timestamp, event⟩ =
        some ⟨max, lastRecords max (logged ++ [(timestamp, event)]), logged.length % max⟩ := by
      have hlen := length_lastRecords max logged
      rw [LogHolder.addEvent, lastRecords_snoc hmax]
      simp only [hr.maxRecords, hr.log]
      by_cases hfull : max ≤ logged.length
      · rw [if_pos (by omega), if_pos hfull]
        cases hlog : lastRecords max logged with
        | nil =>
          rw [hlog, List.length_nil] at hlen
          omega
        | cons e log => rfl
      · rw [if_neg (by omega), if_neg hfull]
    rw [LogHolder.logEvent, hr.getNextGUID hmax hundefined]
    simp only
    rw [hadd]
  · rw [if_neg (by simp), List.length_append, List.length_singleton, Nat.add_sub_cancel]
  · rw [lastRecords_snoc hmax, ← filter_next hmax, ← hr.log]
    exact (hr.rows.filter _).append_right _

end Ring

/-! ## Loading -/

/-- As long as there is room, what is loaded comes in front, and the first entry has the last guid. -/
theorem foldl_loadEventFromDB (entries : List (LogEntry ε)) : ∀ {h : LogHolder ε}, h.log.length + entries.length ≤ h.maxRecords →
    (∀ e ∈ entries, e.guid ≠ GUILD_EVENT_LOG_GUID_UNDEFINED) →
    entries.foldl LogHolder.loadEventFromDB h = ⟨h.maxRecords, entries.reverse ++ h.log,
      if h.nextGUID = GUILD_EVENT_LOG_GUID_UNDEFINED then (entries.head?.map (·.guid)).getD GUILD_EVENT_LOG_GUID_UNDEFINED
      else h.nextGUID⟩ := by
  induction entries with
  | nil =>
    intro h _ _
    rw [List.foldl_nil]
    split
    next hnext =>
      cases h
      simpa using hnext
    next => rfl
  | cons e entries ih =>
    intro h hroom hguid
    rw [List.length_cons] at hroom
    have hinsert : h.loadEventFromDB e = h.loadEvent e := by
      rw [LogHolder.loadEventFromDB, if_pos]
      rw [LogHolder.canInsert, decide_eq_true_iff]
      omega
    rw [List.foldl_cons, hinsert, ih (by simp only [LogHolder.loadEvent, List.length_cons]; omega)
      (fun e' he' => hguid e' (List.mem_cons_of_mem _ he'))]
    have he := hguid e List.mem_cons_self
    simp only [LogHolder.loadEvent, List.reverse_cons, List.append_assoc, List.singleton_append, List.head?_cons, Option.map_some,
      Option.getD_some]
    by_cases hnext : h.nextGUID = GUILD_EVENT_LOG_GUID_UNDEFINED
    · simp [hnext, he]
    · simp [hnext]

/-- Where the guids start over, the next event is in a later second. -/
def InOrder (log : List (LogEntry ε)) : Prop := log.IsChain fun a b => b.guid < a.guid → a.timestamp < b.timestamp

theorem before_iff : a.before b = true ↔ b.timestamp < a.timestamp ∨ a.timestamp = b.timestamp ∧ b.guid ≤ a.guid := by
  rw [LogEntry.before, Bool.or_eq_true, Bool.and_eq_true, decide_eq_true_iff, decide_eq_true_iff, decide_eq_true_iff]

theorem before_trans {c : LogEntry ε} (hab : a.before b = true) (hbc : b.before c = true) : a.before c = true := by
  rw [before_iff] at hab hbc ⊢
  omega

/-- A log whose events are in order is what a sorted reading of its rows, backwards, comes to. -/
theorem eq_reverse_of_sorted {log : List (LogEntry ε)} (hguids : (log.map (·.guid)).Nodup)
    (htimes : (log.map (·.timestamp)).Pairwise (· ≤ ·)) (horder : InOrder log)
    (hsorted : entries.Pairwise (LogEntry.before · ·)) (hperm : entries.Perm log) : entries = log.reverse := by
  have hlog : log.Pairwise fun a b => b.before a = true := by
    have htrans : Trans (fun a b : LogEntry ε => b.before a = true) (fun a b : LogEntry ε => b.before a = true)
        (fun a b : LogEntry ε => b.before a = true) :=
      ⟨fun hab hbc => before_trans hbc hab⟩
    rw [← List.isChain_iff_pairwise, List.isChain_iff_getElem]
    intro i hi
    have hguid := List.pairwise_iff_getElem.1 (List.pairwise_map.1 hguids) i (i + 1) (Nat.lt_of_succ_lt hi) hi (Nat.lt_succ_self i)
    have htime := List.pairwise_iff_getElem.1 (List.pairwise_map.1 htimes) i (i + 1) (Nat.lt_of_succ_lt hi) hi (Nat.lt_succ_self i)
    have hwrap := List.isChain_iff_getElem.1 horder i hi
    rw [before_iff]
    omega
  refine hperm.trans (List.reverse_perm log).symm |>.eq_of_pairwise (fun a b ha hb hab hba => ?_) hsorted (List.pairwise_reverse.2 hlog)
  rw [before_iff] at hab hba
  exact List.inj_on_of_nodup_map hguids (hperm.subset ha) (List.mem_reverse.1 hb) (by omega)

/-- The sorted rows of a log that is in order bring it back as it was. -/
theorem Ring.load {h : LogHolder ε} {rows : List (LogEntry ε)} (hr : Ring max logged h rows) (hmax : 1 ≤ max) (hundefined : max ≤ GUILD_EVENT_LOG_GUID_UNDEFINED)
    (htimes : (logged.map (·.1)).Pairwise (· ≤ ·)) (horder : InOrder h.log)
    (hsorted : entries.Pairwise (LogEntry.before · ·)) (hperm : entries.Perm rows) :
    Ring max logged (entries.foldl LogHolder.loadEventFromDB (.new max)) rows := by
  have hlog := hr.log
  have htimes' : (h.log.map (·.timestamp)).Pairwise (· ≤ ·) := by
    have hmap : h.log.map (·.timestamp) = (logged.drop (logged.length - max)).map (·.1) := by
      rw [← map_lastRecords, List.map_map, hlog]
      rfl
    rw [hmap, List.map_drop]
    exact htimes.sublist (List.drop_sublist _ _)
  have hentries := eq_reverse_of_sorted (by rw [hlog]; exact nodup_guids max logged) htimes' horder hsorted (hperm.trans hr.rows)
  have hguid : ∀ e ∈ entries, e.guid ≠ GUILD_EVENT_LOG_GUID_UNDEFINED := by
    intro e he
    rw [hentries, List.mem_reverse, hlog] at he
    obtain ⟨i, _, _, hi, _⟩ := mem_lastRecords he
    have hlt := Nat.mod_lt i hmax
    omega
  have hlen := length_lastRecords max logged
  rw [foldl_loadEventFromDB entries (by
    rw [hentries, List.length_reverse, hlog, hlen]
    simp only [LogHolder.new, List.length_nil]
    omega) hguid]
  refine ⟨rfl, ?_, ?_, ?_⟩
  · rw [hentries, List.reverse_reverse, hlog]
    exact List.append_nil _
  · rw [hentries, List.head?_reverse, hlog, getLast?_lastRecords hmax]
    rfl
  · rw [hentries, List.reverse_reverse]
    exact hr.rows.trans (List.Perm.of_eq (List.append_nil _).symm)

/-! ## What a log is for -/

/-- A log and its rows are what they should be after some events were logged. -/
structure Survives (max : Nat) (logged : List (Nat × ε)) (h : LogHolder ε) (rows : List (LogEntry ε)) : Prop where
  memory : h.log.map (fun e => (e.timestamp, e.event)) = logged.drop (logged.length - max)
  table : rows.Perm h.log
  distinct : (rows.map (·.guid)).Nodup
  /-- The next event takes a new guid, or, where the log is full, that of the oldest one. -/
  next : ∃ guid, h.getNextGUID = some guid ∧ (max ≤ logged.length → h.log.head?.map (·.guid) = some guid) ∧
    ∀ row ∈ rows, row.guid = guid → max ≤ logged.length ∧ h.log.head? = some row

theorem Ring.survives {h : LogHolder ε} {rows : List (LogEntry ε)}
    (hr : Ring max logged h rows) (hmax : 1 ≤ max) (hundefined : max ≤ GUILD_EVENT_LOG_GUID_UNDEFINED) :
    Survives max logged h rows where
  memory := hr.log ▸ map_lastRecords max logged
  table := hr.rows
  distinct := by
    rw [(hr.rows.map (·.guid)).nodup_iff, hr.log]
    exact nodup_guids max logged
  next := by
    refine ⟨_, hr.getNextGUID hmax hundefined, fun hfull => ?_, fun row hrow hguid => ?_⟩
    · rw [hr.log]
      exact head?_lastRecords hmax hfull
    · rw [hr.log]
      exact oldest_of_next (hr.log ▸ hr.rows.subset hrow) hguid

end AtlasWow.Guilds
