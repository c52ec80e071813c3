/-
The event log and the bank logs of a guild over whole runs: events, bought
tabs, and restarts of the server, which read all logs back from two tables
(`GuildMgr::LoadGuilds`). Each bank tab has a log of its own, and so has money,
under the number of a tab that there is not.

Deleted characters, whose rows go, are left out.
-/
import Mathlib.Data.List.Sort
import AtlasWow.Guilds.Guild
import AtlasWow.Guilds.GuildLog
import AtlasWow.Lib.Machine

namespace AtlasWow.Guilds

def GUILD_EVENTLOG_MAX_RECORDS : Nat := 100
def GUILD_BANKLOG_MAX_RECORDS : Nat := 25
def GUILD_BANK_MONEY_LOGS_TAB : Nat := 100
def GUILD_BANK_LOG_MOVE_ITEM : Nat := 3
def GUILD_BANK_LOG_DEPOSIT_MONEY : Nat := 4
def GUILD_BANK_LOG_WITHDRAW_MONEY : Nat := 5
def GUILD_BANK_LOG_REPAIR_MONEY : Nat := 6

/-- `EventLogEntry`, without what all entries have. -/
structure GuildEvent where
  eventType : Nat
  playerGuid1 : Nat
  playerGuid2 : Nat
  newRank : Nat
deriving DecidableEq

/-- `BankEventLogEntry`. -/
structure BankEvent where
  eventType : Nat
  bankTabId : Nat
  playerGuid : Nat
  itemOrMoney : Nat
  itemStackCount : Nat
  destTabId : Nat
deriving DecidableEq

def isMoneyEvent (eventType : Nat) : Bool :=
  eventType = GUILD_BANK_LOG_DEPOSIT_MONEY || eventType = GUILD_BANK_LOG_WITHDRAW_MONEY || eventType = GUILD_BANK_LOG_REPAIR_MONEY

/-- The numbers of records, as `World::LoadConfigSettings` bounds them. -/
structure LogConfig where
  eventLogCount : Nat
  bankEventLogCount : Nat

def LogConfig.load (eventLogCount bankEventLogCount : UInt32) : LogConfig where
  eventLogCount := if GUILD_EVENTLOG_MAX_RECORDS < eventLogCount.toNat then GUILD_EVENTLOG_MAX_RECORDS else eventLogCount.toNat
  bankEventLogCount := if GUILD_BANKLOG_MAX_RECORDS < bankEventLogCount.toNat then GUILD_BANKLOG_MAX_RECORDS
    else bankEventLogCount.toNat

/-- The logs of a guild, and its rows in `guild_eventlog` and `guild_bank_eventlog`. -/
structure GuildLogs where
  eventLog : LogHolder GuildEvent
  bankEventLog : Nat → LogHolder BankEvent
  purchasedTabs : Nat
  eventRows : List (LogEntry GuildEvent)
  bankRows : List (LogEntry BankEvent)

namespace GuildLogs

/-- A new guild. -/
def create (cfg : LogConfig) : GuildLogs where
  eventLog := .new cfg.eventLogCount
  bankEventLog _ := .new cfg.bankEventLogCount
  purchasedTabs := 0
  eventRows := []
  bankRows := []

/-- `_LogEvent`. -/
def logEvent (timestamp : Nat) (event : GuildEvent) (g : GuildLogs) : Option GuildLogs :=
  match g.eventLog.logEvent timestamp event with
  | none => none
  | some (eventLog, entry) =>
    some { g with eventLog := eventLog, eventRows := g.eventRows.filter (·.guid ≠ entry.guid) ++ [entry] }

/-- The log and the tab number in the table that an event is for; money has a log of its own. -/
def logOf (eventType tabId : Nat) : Nat × Nat :=
  if isMoneyEvent eventType then (GUILD_BANK_MAX_TABS, GUILD_BANK_MONEY_LOGS_TAB) else (tabId, tabId)

/-- Moves within a tab are not logged. -/
def isLogged (event : BankEvent) (tabId : Nat) : Bool :=
  tabId ≤ GUILD_BANK_MAX_TABS && !(event.eventType = GUILD_BANK_LOG_MOVE_ITEM && tabId = event.destTabId)

/-- `_LogBankEvent`; the tab of the event is set here. -/
def logBankEvent (timestamp tabId : Nat) (event : BankEvent) (g : GuildLogs) : Option GuildLogs :=
  if isLogged event tabId then
    let log := (logOf event.eventType tabId).1
    match (g.bankEventLog log).logEvent timestamp { event with bankTabId := (logOf event.eventType tabId).2 } with
    | none => none
    | some (bankEventLog, entry) =>
      some { g with
        bankEventLog := Function.update g.bankEventLog log bankEventLog
        bankRows := g.bankRows.filter (fun row => ¬(row.guid = entry.guid ∧ row.event.bankTabId = entry.event.bankTabId)) ++ [entry] }
  else some g

/-- `HandleBuyBankTab`. -/
def buyBankTab (g : GuildLogs) : GuildLogs :=
  if g.purchasedTabs < GUILD_BANK_MAX_TABS then { g with purchasedTabs := g.purchasedTabs + 1 } else g

/-- `LoadBankEventLogFromDB`: rows of unknown tabs are skipped, and rows that are in the wrong log. -/
def loadBankEventLogFromDB (purchasedTabs : Nat) (logs : Nat → LogHolder BankEvent) (row : LogEntry BankEvent) :
    Nat → LogHolder BankEvent :=
  let isMoneyTab : Bool := row.event.bankTabId = GUILD_BANK_MONEY_LOGS_TAB
  if row.event.bankTabId < purchasedTabs || isMoneyTab then
    let tabId := if isMoneyTab then GUILD_BANK_MAX_TABS else row.event.bankTabId
    if (logs tabId).canInsert then
      if isMoneyEvent row.event.eventType ≠ isMoneyTab then logs
      else Function.update logs tabId ((logs tabId).loadEvent row)
    else logs
  else logs

/-- `ORDER BY TimeStamp DESC, LogGuid DESC` -/
def ordered {ε : Type} (rows : List (LogEntry ε)) : List (LogEntry ε) := rows.insertionSort fun a b => a.before b = true

/-- The server restarts: rows with too high a guid are deleted, and all others loaded. -/
def restart (cfg : LogConfig) (g : GuildLogs) : GuildLogs :=
  let eventRows := g.eventRows.filter (·.guid ≤ cfg.eventLogCount)
  let bankRows := g.bankRows.filter (·.guid ≤ cfg.bankEventLogCount)
  { g with
    eventLog := (ordered eventRows).foldl LogHolder.loadEventFromDB (.new cfg.eventLogCount)
    bankEventLog := (ordered bankRows).foldl (loadBankEventLogFromDB g.purchasedTabs) fun _ => .new cfg.bankEventLogCount
    eventRows := eventRows
    bankRows := bankRows }

/-- What happens to the logs. -/
inductive LogStep where
  | event (timestamp : Nat) (event : GuildEvent)
  | bankEvent (timestamp tabId : Nat) (event : BankEvent)
  | buyBankTab
  | restart

def step (cfg : LogConfig) : LogStep → GuildLogs → Option GuildLogs
  | .event timestamp event, g => g.logEvent timestamp event
  | .bankEvent timestamp tabId event, g => g.logBankEvent timestamp tabId event
  | .buyBankTab, g => some g.buyBankTab
  | .restart, g => some (g.restart cfg)

/-! ## What was logged -/

def time : LogStep → Option Nat
  | .event timestamp _ => some timestamp
  | .bankEvent timestamp _ _ => some timestamp
  | _ => none

def eventLogged : LogStep → Option (Nat × GuildEvent)
  | .event timestamp event => some (timestamp, event)
  | _ => none

/-- What is logged in one of the bank logs. -/
def bankLogged (log : Nat) : LogStep → Option (Nat × BankEvent)
  | .bankEvent timestamp tabId event =>
    if isLogged event tabId && (logOf event.eventType tabId).1 = log then
      some (timestamp, { event with bankTabId := (logOf event.eventType tabId).2 })
    else none
  | _ => none

/-- The number in the table of the tab that a log is for. -/
def tabOf (log : Nat) : Nat := if log = GUILD_BANK_MAX_TABS then GUILD_BANK_MONEY_LOGS_TAB else log

/-- The rows of one bank log. -/
def tabRows (log : Nat) (rows : List (LogEntry BankEvent)) : List (LogEntry BankEvent) :=
  rows.filter (·.event.bankTabId = tabOf log)

/-- A row is of a tab that was bought, or of the money log. -/
def Known (purchasedTabs : Nat) (event : BankEvent) : Prop :=
  if isMoneyEvent event.eventType then event.bankTabId = GUILD_BANK_MONEY_LOGS_TAB else event.bankTabId < purchasedTabs

/-- The logs and their rows after some steps. -/
structure Kept (cfg : LogConfig) (done : List LogStep) (g : GuildLogs) : Prop where
  event : Ring cfg.eventLogCount (done.filterMap eventLogged) g.eventLog g.eventRows
  bank : ∀ log ≤ GUILD_BANK_MAX_TABS, Ring cfg.bankEventLogCount (done.filterMap (bankLogged log)) (g.bankEventLog log)
    (tabRows log g.bankRows)
  known : ∀ row ∈ g.bankRows, Known g.purchasedTabs row.event
  tabs : g.purchasedTabs ≤ GUILD_BANK_MAX_TABS

/-- An item event is of a tab that was bought, as its callers check; at a restart no log has two events in one second where its
guids start over. -/
def Fits : LogStep → GuildLogs → Prop
  | .bankEvent _ tabId event, g => isLogged event tabId = true → isMoneyEvent event.eventType = false → tabId < g.purchasedTabs
  | .restart, g => InOrder g.eventLog.log ∧ ∀ log ≤ GUILD_BANK_MAX_TABS, InOrder (g.bankEventLog log).log
  | _, _ => True

variable {cfg : LogConfig} {done : List LogStep} {g : GuildLogs}

theorem tabOf_inj {a b : Nat} (ha : a ≤ GUILD_BANK_MAX_TABS) (hb : b ≤ GUILD_BANK_MAX_TABS) : tabOf a = tabOf b ↔ a = b := by
  unfold tabOf GUILD_BANK_MAX_TABS GUILD_BANK_MONEY_LOGS_TAB at *
  split <;> split <;> omega

variable {event : BankEvent} {purchasedTabs log tabs : Nat} {ε β : Type} {entry : LogEntry BankEvent} {i : LogStep}

/-- The log that an event goes to, and its tab in the table. -/
theorem logOf_spec {tabId : Nat}
    (hfits : isMoneyEvent event.eventType = false → tabId < purchasedTabs) (htabs : purchasedTabs ≤ GUILD_BANK_MAX_TABS) :
    (logOf event.eventType tabId).1 ≤ GUILD_BANK_MAX_TABS ∧ (logOf event.eventType tabId).2 = tabOf (logOf event.eventType tabId).1 ∧
      Known purchasedTabs { event with bankTabId := (logOf event.eventType tabId).2 } := by
  rw [logOf, Known]
  split
  next hmoney => exact ⟨Nat.le_refl _, rfl, rfl⟩
  next hitem =>
  have htab := hfits (Bool.eq_false_iff.2 hitem)
  have hlt := htab.trans_le htabs
  refine ⟨hlt.le, ?_, htab⟩
  rw [tabOf, if_neg hlt.ne]

/-- Saving a row changes those of its own log. -/
theorem tabRows_save_self (htab : entry.event.bankTabId = tabOf log) (rows : List (LogEntry BankEvent)) :
    tabRows log (rows.filter (fun row => ¬(row.guid = entry.guid ∧ row.event.bankTabId = entry.event.bankTabId)) ++ [entry]) =
      (tabRows log rows).filter (·.guid ≠ entry.guid) ++ [entry] := by
  rw [tabRows, tabRows, List.filter_append, List.filter_filter, List.filter_filter, List.filter_singleton, htab]
  congr 1
  · refine List.filter_congr fun row _ => ?_
    rw [← Bool.decide_and, ← Bool.decide_and, decide_eq_decide]
    exact ⟨fun h => ⟨fun hguid => h.2 ⟨hguid, h.1⟩, h.1⟩, fun h => ⟨h.2, fun hboth => h.1 hboth.1⟩⟩
  · simp

theorem tabRows_save_other (htab : entry.event.bankTabId ≠ tabOf log) (rows : List (LogEntry BankEvent)) :
    tabRows log (rows.filter (fun row => ¬(row.guid = entry.guid ∧ row.event.bankTabId = entry.event.bankTabId)) ++ [entry]) =
      tabRows log rows := by
  rw [tabRows, tabRows, List.filter_append, List.filter_filter, List.filter_singleton, decide_eq_false htab]
  refine (List.append_nil _).trans (List.filter_congr fun row _ => ?_)
  rw [← Bool.decide_and, decide_eq_decide]
  exact ⟨And.left, fun h => ⟨h, fun hboth => htab (hboth.2.symm.trans h)⟩⟩

/-! ## What each step keeps -/

/-- Both logs have room for an event, and a guid is never the undefined one. -/
structure LogConfig.Sound (cfg : LogConfig) : Prop where
  event : 1 ≤ cfg.eventLogCount ∧ cfg.eventLogCount ≤ GUILD_EVENT_LOG_GUID_UNDEFINED
  bank : 1 ≤ cfg.bankEventLogCount ∧ cfg.bankEventLogCount ≤ GUILD_EVENT_LOG_GUID_UNDEFINED

theorem Kept.logEvent (h : Kept cfg done g) (hcfg : LogConfig.Sound cfg) (timestamp : Nat) (event : GuildEvent) :
    ∃ g', g.logEvent timestamp event = some g' ∧ Kept cfg (done ++ [.event timestamp event]) g' := by
  obtain ⟨eventLog, entry, hlog, _, hring⟩ := h.event.logEvent hcfg.event.1 hcfg.event.2 timestamp event
  rw [GuildLogs.logEvent, hlog]
  refine ⟨_, rfl, ?_, fun log hle => ?_, h.known, h.tabs⟩
  · rw [List.filterMap_append]
    exact hring
  · rw [List.filterMap_append]
    exact (List.append_nil _).symm ▸ h.bank log hle

theorem Kept.logBankEvent (h : Kept cfg done g) (hcfg : LogConfig.Sound cfg) (timestamp tabId : Nat) (event : BankEvent)
    (hfits : Fits (.bankEvent timestamp tabId event) g) :
    ∃ g', g.logBankEvent timestamp tabId event = some g' ∧ Kept cfg (done ++ [.bankEvent timestamp tabId event]) g' := by
  rw [GuildLogs.logBankEvent]
  split
  next hlogged =>
    obtain ⟨hle, htab, hknown⟩ := logOf_spec (hfits hlogged) h.tabs
    have hring := h.bank _ hle
    obtain ⟨bankEventLog, entry, hlog, hentry, hring'⟩ := hring.logEvent hcfg.bank.1 hcfg.bank.2 timestamp
      { event with bankTabId := (logOf event.eventType tabId).2 }
    have htab' : entry.event.bankTabId = tabOf (logOf event.eventType tabId).1 := by rw [hentry, ← htab]
    simp only
    rw [hlog]
    refine ⟨_, rfl, ?_, fun log hle' => ?_, ?_, h.tabs⟩
    · rw [List.filterMap_append]
      exact (List.append_nil _).symm ▸ h.event
    · rw [List.filterMap_append]
      dsimp only
      by_cases he : log = (logOf event.eventType tabId).1
      · rw [he, Function.update_self, tabRows_save_self htab']
        have hstep : [LogStep.bankEvent timestamp tabId event].filterMap (bankLogged (logOf event.eventType tabId).1) =
            [(timestamp, { event with bankTabId := (logOf event.eventType tabId).2 })] := by
          simp [bankLogged, hlogged]
        rw [hstep]
        exact hring'
      have hother : entry.event.bankTabId ≠ tabOf log := fun hsame =>
        he ((tabOf_inj hle hle').1 (htab'.symm.trans hsame)).symm
      rw [Function.update_of_ne he, tabRows_save_other hother]
      have hstep : [LogStep.bankEvent timestamp tabId event].filterMap (bankLogged log) = [] := by
        simp [bankLogged, Ne.symm he]
      rw [hstep, List.append_nil]
      exact h.bank log hle'
    · intro row hrow
      rcases List.mem_append.1 hrow with hrow | hrow
      · exact h.known row (List.mem_of_mem_filter hrow)
      · rw [List.mem_singleton.1 hrow, hentry]
        exact hknown
  next hskipped =>
  refine ⟨g, rfl, ?_, fun log hle => ?_, h.known, h.tabs⟩
  · rw [List.filterMap_append]
    exact (List.append_nil _).symm ▸ h.event
  · have hstep : [LogStep.bankEvent timestamp tabId event].filterMap (bankLogged log) = [] := by
      simp [bankLogged, hskipped]
    rw [List.filterMap_append, hstep, List.append_nil]
    exact h.bank log hle

theorem filterMap_silent {f : LogStep → Option β} (h : f i = none) (done : List LogStep) :
    (done ++ [i]).filterMap f = done.filterMap f := by
  rw [List.filterMap_append, List.filterMap_cons_none h, List.filterMap_nil, List.append_nil]

theorem Known.mono {tabs' : Nat} (hle : tabs ≤ tabs') (h : Known tabs event) : Known tabs' event := by
  unfold Known at h ⊢
  split at h
  next hmoney => rwa [if_pos hmoney]
  next hitem =>
  rw [if_neg hitem]
  exact h.trans_le hle

theorem Kept.buyBankTab (h : Kept cfg done g) : Kept cfg (done ++ [.buyBankTab]) g.buyBankTab := by
  have hevent := h.event
  have hbank := h.bank
  rw [← filterMap_silent (i := .buyBankTab) rfl done] at hevent
  simp only [← fun log => filterMap_silent (f := bankLogged log) (i := .buyBankTab) rfl done] at hbank
  rw [GuildLogs.buyBankTab]
  split
  next hroom => exact ⟨hevent, hbank, fun row hrow => (h.known row hrow).mono (Nat.le_succ _), hroom⟩
  next => exact ⟨hevent, hbank, h.known, h.tabs⟩

theorem ordered_perm (rows : List (LogEntry ε)) : (ordered rows).Perm rows := List.perm_insertionSort _ _

theorem pairwise_ordered (rows : List (LogEntry ε)) : (ordered rows).Pairwise (LogEntry.before · ·) := by
  have htotal : Std.Total fun a b : LogEntry ε => a.before b = true := ⟨fun a b => by
    rw [before_iff, before_iff]
    omega⟩
  have htrans : IsTrans (LogEntry ε) fun a b => a.before b = true := ⟨fun _ _ _ => before_trans⟩
  exact List.pairwise_insertionSort _ rows

/-- One row is loaded into its own log. -/
theorem loadBankEventLogFromDB_apply (htabs : purchasedTabs ≤ GUILD_BANK_MAX_TABS) {row : LogEntry BankEvent}
    (hknown : Known purchasedTabs row.event) (logs : Nat → LogHolder BankEvent) (hlog : log ≤ GUILD_BANK_MAX_TABS) :
    loadBankEventLogFromDB purchasedTabs logs row log =
      if row.event.bankTabId = tabOf log then (logs log).loadEventFromDB row else logs log := by
  obtain ⟨own, hown, htab, hmoney, hindex, hread⟩ : ∃ own ≤ GUILD_BANK_MAX_TABS, row.event.bankTabId = tabOf own ∧
      isMoneyEvent row.event.eventType = decide (row.event.bankTabId = GUILD_BANK_MONEY_LOGS_TAB) ∧
      (if decide (row.event.bankTabId = GUILD_BANK_MONEY_LOGS_TAB) = true then GUILD_BANK_MAX_TABS else row.event.bankTabId) = own ∧
      (decide (row.event.bankTabId < purchasedTabs) || decide (row.event.bankTabId = GUILD_BANK_MONEY_LOGS_TAB)) = true := by
    unfold Known at hknown
    split at hknown
    next hmoney => exact ⟨GUILD_BANK_MAX_TABS, Nat.le_refl _, hknown, by simp [hmoney, hknown], by simp [hknown], by simp [hknown]⟩
    next hitem =>
    have hlt := hknown.trans_le htabs
    have hne : row.event.bankTabId ≠ GUILD_BANK_MONEY_LOGS_TAB := by
      unfold GUILD_BANK_MAX_TABS at hlt
      unfold GUILD_BANK_MONEY_LOGS_TAB
      omega
    exact ⟨row.event.bankTabId, hlt.le, by rw [tabOf, if_neg hlt.ne], by simp [hne, hitem], by simp [hne], by simp [hknown]⟩
  rw [loadBankEventLogFromDB]
  simp only [hread, hindex, hmoney, ne_eq, not_true, if_true, if_false]
  simp only [htab, tabOf_inj hown hlog]
  by_cases he : own = log
  · subst he
    rw [if_pos rfl, LogHolder.loadEventFromDB]
    split
    next => rw [Function.update_self]
    next => rfl
  rw [if_neg he]
  split
  next => rw [Function.update_of_ne (Ne.symm he)]
  next => rfl

/-- Each bank log is loaded from its own rows. -/
theorem foldl_loadBankEventLogFromDB (htabs : purchasedTabs ≤ GUILD_BANK_MAX_TABS)
    (hlog : log ≤ GUILD_BANK_MAX_TABS) : ∀ (rows : List (LogEntry BankEvent)) (logs : Nat → LogHolder BankEvent),
    (∀ row ∈ rows, Known purchasedTabs row.event) →
      rows.foldl (loadBankEventLogFromDB purchasedTabs) logs log = (tabRows log rows).foldl LogHolder.loadEventFromDB (logs log) := by
  intro rows
  induction rows with
  | nil => exact fun _ _ => rfl
  | cons row rows ih =>
    intro logs hknown
    rw [List.forall_mem_cons] at hknown
    rw [List.foldl_cons, ih _ hknown.2, loadBankEventLogFromDB_apply htabs hknown.1 logs hlog, tabRows, tabRows]
    by_cases he : row.event.bankTabId = tabOf log
    · rw [if_pos he, List.filter_cons_of_pos (by simpa using he), List.foldl_cons]
    · rw [if_neg he, List.filter_cons_of_neg (by simpa using he)]

/-- What is logged of steps in the order of their times is in the order of its times. -/
theorem pairwise_times {f : LogStep → Option (Nat × β)} (hf : ∀ i e, f i = some e → time i = some e.1)
    (h : (done.filterMap time).Pairwise (· ≤ ·)) : ((done.filterMap f).map (·.1)).Pairwise (· ≤ ·) := by
  rw [List.pairwise_filterMap] at h
  rw [List.pairwise_map, List.pairwise_filterMap]
  exact h.imp fun hle a ha b hb => hle a.1 (hf _ a ha) b.1 (hf _ b hb)

theorem time_of_eventLogged (i : LogStep) (e : Nat × GuildEvent) (h : eventLogged i = some e) : time i = some e.1 := by
  cases i with
  | event timestamp event =>
    cases h
    rfl
  | _ => cases h

theorem time_of_bankLogged (log : Nat) (i : LogStep) (e : Nat × BankEvent) (h : bankLogged log i = some e) :
    time i = some e.1 := by
  cases i with
  | bankEvent timestamp tabId event =>
    simp only [bankLogged] at h
    split at h
    · cases h
      rfl
    · cases h
  | _ => cases h

theorem Known.own (htabs : tabs ≤ GUILD_BANK_MAX_TABS) (h : Known tabs event) :
    ∃ own ≤ GUILD_BANK_MAX_TABS, event.bankTabId = tabOf own := by
  unfold Known at h
  split at h
  next => exact ⟨GUILD_BANK_MAX_TABS, Nat.le_refl _, h⟩
  next =>
  have hlt := h.trans_le htabs
  exact ⟨event.bankTabId, hlt.le, by rw [tabOf, if_neg hlt.ne]⟩

/-- No row of a ring has too high a guid. -/
theorem guid_le_of_mem {max : Nat} {logged : List (Nat × ε)} {h : LogHolder ε} {rows : List (LogEntry ε)}
    (hr : Ring max logged h rows) (hmax : 1 ≤ max) {row : LogEntry ε} (hrow : row ∈ rows) : row.guid ≤ max := by
  have hmem := hr.rows.subset hrow
  rw [hr.log] at hmem
  obtain ⟨i, _, _, hi, _⟩ := mem_lastRecords hmem
  exact hi ▸ (Nat.mod_lt i hmax).le

theorem Kept.restart (h : Kept cfg done g) (hcfg : LogConfig.Sound cfg) (htimes : (done.filterMap time).Pairwise (· ≤ ·))
    (hfits : Fits .restart g) : Kept cfg (done ++ [.restart]) (g.restart cfg) := by
  have heventRows : g.eventRows.filter (·.guid ≤ cfg.eventLogCount) = g.eventRows := by
    rw [List.filter_eq_self]
    exact fun row hrow => decide_eq_true (guid_le_of_mem h.event hcfg.event.1 hrow)
  have hbankRows : g.bankRows.filter (·.guid ≤ cfg.bankEventLogCount) = g.bankRows := by
    rw [List.filter_eq_self]
    intro row hrow
    obtain ⟨own, hown, htab⟩ := (h.known row hrow).own h.tabs
    exact decide_eq_true (guid_le_of_mem (h.bank own hown) hcfg.bank.1 (List.mem_filter.2 ⟨hrow, decide_eq_true htab⟩))
  rw [GuildLogs.restart, heventRows, hbankRows]
  refine ⟨?_, fun log hlog => ?_, h.known, h.tabs⟩
  · rw [filterMap_silent (i := .restart) rfl]
    exact h.event.load hcfg.event.1 hcfg.event.2 (pairwise_times time_of_eventLogged htimes) hfits.1
      (pairwise_ordered g.eventRows) (ordered_perm g.eventRows)
  · rw [filterMap_silent (i := .restart) rfl]
    have hknown : ∀ row ∈ ordered g.bankRows, Known g.purchasedTabs row.event := fun row hrow =>
      h.known row ((ordered_perm g.bankRows).subset hrow)
    have hsorted : (tabRows log (ordered g.bankRows)).Pairwise (LogEntry.before · ·) := (pairwise_ordered g.bankRows).filter _
    dsimp only
    rw [foldl_loadBankEventLogFromDB h.tabs hlog (ordered g.bankRows) _ hknown]
    exact (h.bank log hlog).load hcfg.bank.1 hcfg.bank.2 (pairwise_times (time_of_bankLogged log) htimes) (hfits.2 log hlog)
      hsorted ((ordered_perm g.bankRows).filter _)

theorem Kept.step (h : Kept cfg done g) (hcfg : LogConfig.Sound cfg)
    (htimes : (done.filterMap time).Pairwise (· ≤ ·)) (hfits : Fits i g) :
    ∃ g', step cfg i g = some g' ∧ Kept cfg (done ++ [i]) g' := by
  cases i with
  | event timestamp event => exact h.logEvent hcfg timestamp event
  | bankEvent timestamp tabId event => exact h.logBankEvent hcfg timestamp tabId event hfits
  | buyBankTab => exact ⟨_, rfl, h.buyBankTab⟩
  | restart => exact ⟨_, rfl, h.restart hcfg htimes hfits⟩

theorem Kept.run (hcfg : LogConfig.Sound cfg) : ∀ (rest done : List LogStep) {g : GuildLogs}, Kept cfg done g →
    AllSteps (GuildLogs.step cfg) Fits rest g → ((done ++ rest).filterMap time).Pairwise (· ≤ ·) →
      ∃ g', runSteps (GuildLogs.step cfg) rest g = some g' ∧ Kept cfg (done ++ rest) g' := by
  intro rest
  induction rest with
  | nil => exact fun done g h _ _ => ⟨g, rfl, (List.append_nil done).symm ▸ h⟩
  | cons i rest ih =>
    intro done g h hfits htimes
    have hsofar : (done.filterMap time).Pairwise (· ≤ ·) := by
      rw [List.filterMap_append] at htimes
      exact (List.pairwise_append.1 htimes).1
    obtain ⟨g', hstep, h'⟩ := h.step hcfg hsofar hfits.1
    rw [List.append_cons] at htimes ⊢
    obtain ⟨g'', hrun, h''⟩ := ih (done ++ [i]) h' (hfits.2 g' hstep) htimes
    exact ⟨g'', by rw [runSteps, hstep, Option.bind_some, hrun], h''⟩

theorem Kept.create (cfg : LogConfig) : Kept cfg [] (GuildLogs.create cfg) where
  event := ⟨rfl, by simp [lastRecords, records, GuildLogs.create, LogHolder.new], rfl, List.Perm.refl _⟩
  bank log _ := ⟨rfl, by simp [lastRecords, records, GuildLogs.create, LogHolder.new], rfl, List.Perm.refl _⟩
  known row hrow := nomatch hrow
  tabs := Nat.zero_le _

/-- Counts that were loaded are low enough; the logs have room if they are not 0. -/
theorem LogConfig.sound_load {eventLogCount bankEventLogCount : UInt32} (hevent : eventLogCount ≠ 0) (hbank : bankEventLogCount ≠ 0) :
    LogConfig.Sound (.load eventLogCount bankEventLogCount) := by
  have hevent' : eventLogCount.toNat ≠ 0 := fun h => hevent (UInt32.toNat_inj.1 h)
  have hbank' : bankEventLogCount.toNat ≠ 0 := fun h => hbank (UInt32.toNat_inj.1 h)
  unfold LogConfig.load GUILD_EVENTLOG_MAX_RECORDS GUILD_BANKLOG_MAX_RECORDS
  constructor
  · unfold GUILD_EVENT_LOG_GUID_UNDEFINED
    dsimp only
    split <;> omega
  · unfold GUILD_EVENT_LOG_GUID_UNDEFINED
    dsimp only
    split <;> omega

/-! ## Whole runs -/

/-- The logs of a guild are kept over any events and restarts, if no restart comes while a log has two events in one second
where its guids start over. -/
theorem run_survives (eventLogCount bankEventLogCount : UInt32) (hevent : eventLogCount ≠ 0) (hbank : bankEventLogCount ≠ 0)
    (steps : List LogStep) (htimes : (steps.filterMap time).Pairwise (· ≤ ·))
    (hfits : AllSteps (step (.load eventLogCount bankEventLogCount)) Fits steps (create (.load eventLogCount bankEventLogCount))) :
    ∃ g, runSteps (step (.load eventLogCount bankEventLogCount)) steps (create (.load eventLogCount bankEventLogCount)) = some g ∧
      Survives (LogConfig.load eventLogCount bankEventLogCount).eventLogCount (steps.filterMap eventLogged) g.eventLog g.eventRows ∧
      ∀ log ≤ GUILD_BANK_MAX_TABS, Survives (LogConfig.load eventLogCount bankEventLogCount).bankEventLogCount
        (steps.filterMap (bankLogged log)) (g.bankEventLog log) (tabRows log g.bankRows) := by
  have hcfg := LogConfig.sound_load hevent hbank
  obtain ⟨g, hrun, hkept⟩ := Kept.run hcfg steps [] (.create _) hfits htimes
  exact ⟨g, hrun, hkept.event.survives hcfg.event.1 hcfg.event.2,
    fun log hlog => (hkept.bank log hlog).survives hcfg.bank.1 hcfg.bank.2⟩

/-- Two records are kept, and the guids start over with the third event, in a later second. -/
theorem run_survives_two :
    ∃ g, runSteps (step (.load 2 25)) [.event 1 ⟨1, 1, 2, 0⟩, .event 1 ⟨1, 1, 3, 0⟩, .event 2 ⟨1, 1, 4, 0⟩, .restart]
        (create (.load 2 25)) = some g ∧
      Survives 2 [(1, ⟨1, 1, 2, 0⟩), (1, ⟨1, 1, 3, 0⟩), (2, ⟨1, 1, 4, 0⟩)] g.eventLog g.eventRows := by
  obtain ⟨g, hrun, hevent, _⟩ := run_survives 2 25 (by decide) (by decide)
    [.event 1 ⟨1, 1, 2, 0⟩, .event 1 ⟨1, 1, 3, 0⟩, .event 2 ⟨1, 1, 4, 0⟩, .restart] (by decide) (by
      refine ⟨trivial, fun _ h => ?_⟩
      cases h
      refine ⟨trivial, fun _ h => ?_⟩
      cases h
      refine ⟨trivial, fun _ h => ?_⟩
      cases h
      exact ⟨⟨by unfold InOrder; decide, fun _ _ => .nil⟩, fun _ _ => trivial⟩)
  exact ⟨g, hrun, hevent⟩

/-- Three events in one second: the restart reads the last two in the wrong order, and the next event takes the guid of the
newest one. -/
theorem restart_in_one_second :
    ∃ g, runSteps (step (.load 2 25)) [.event 1 ⟨1, 1, 2, 0⟩, .event 1 ⟨1, 1, 3, 0⟩, .event 1 ⟨1, 1, 4, 0⟩, .restart]
        (create (.load 2 25)) = some g ∧
      g.eventLog.log.map (·.event.playerGuid2) = [4, 3] ∧ g.eventLog.getNextGUID = some 0 ∧
      ⟨0, 1, ⟨1, 1, 4, 0⟩⟩ ∈ g.eventRows ∧
      ¬Survives 2 [(1, ⟨1, 1, 2, 0⟩), (1, ⟨1, 1, 3, 0⟩), (1, ⟨1, 1, 4, 0⟩)] g.eventLog g.eventRows := by
  refine ⟨_, rfl, by decide, by decide, by decide, fun h => ?_⟩
  exact absurd h.memory (by decide)


end GuildLogs

end AtlasWow.Guilds
