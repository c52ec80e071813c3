/-
The calendar: the events and invites of `CalendarMgr.cpp`, their ids, and the
packets of `CalendarHandler.cpp` that write to it.

A destroyed `CalendarInvite` or `CalendarEvent` returns its id to the pool it
came from, also one that lived on a handler's stack. `_events` is a set
ordered by address; event ids are unique, so the order does not matter. Mails,
result packets, alerts and the database are left out. Times are as the server
has them, packed times already unpacked and in UTC.
-/
import AtlasWow.Entities.ObjectGuid
import AtlasWow.Lib.IdPool
import AtlasWow.Lib.Machine
import AtlasWow.Lib.OrderedMap

namespace AtlasWow.Calendar

/-! ## Events and invites -/

def FlagInvitesLocked : Nat := 0x010
def FlagWithoutInvites : Nat := 0x040
def FlagGuildEvent : Nat := 0x400

def RankPlayer : Nat := 0
def RankModerator : Nat := 1
def RankOwner : Nat := 2

def StatusInvited : Nat := 0
def StatusSignedUp : Nat := 6
def StatusNotSignedUp : Nat := 7
def StatusTentative : Nat := 8
def StatusRemoved : Nat := 9

/-- 01/01/2000 00:00:00, the default response time. -/
def DefaultStatusTime : Int := 946684800

/-- The client limits the amount of players to be invited. -/
def MaxPlayerInvites : Nat := 100

structure CalendarInvite where
  inviteId : Nat
  eventId : Nat
  invitee : ObjectGuid
  senderGUID : ObjectGuid
  statusTime : Int
  status : Nat
  rank : Nat
  text : String := ""
  deriving DecidableEq, Repr

/-- What a player enters of an event. -/
structure Details where
  type : Nat
  dungeonId : Int
  eventTime : Int
  flags : Nat
  timezoneTime : Int
  title : String
  description : String
  deriving DecidableEq, Repr

structure CalendarEvent where
  eventId : Nat
  creatorGUID : ObjectGuid
  guildId : Nat
  details : Details
  deriving DecidableEq, Repr

namespace CalendarEvent

def flags (event : CalendarEvent) : Nat := event.details.flags
def isGuildEvent (event : CalendarEvent) : Bool := event.flags &&& FlagGuildEvent ≠ 0
def isGuildAnnouncement (event : CalendarEvent) : Bool := event.flags &&& FlagWithoutInvites ≠ 0
def isLocked (event : CalendarEvent) : Bool := event.flags &&& FlagInvitesLocked ≠ 0

end CalendarEvent

/-! ## The manager -/

/-- The counters are `uint64`. -/
def Limit : Nat := 2 ^ 64

structure CalendarMgr where
  events : List CalendarEvent := []
  invites : OMap Nat (List CalendarInvite) := .empty
  /-- `_freeEventIds` and `_maxEventId`. -/
  eventIds : IdPool := {}
  /-- `_freeInviteIds` and `_maxInviteId`. -/
  inviteIds : IdPool := {}

/-- Writes to the first element of a kind. -/
def modifyFirst {α : Type} (p : α → Bool) (f : α → α) : List α → List α
  | [] => []
  | a :: l => if p a then f a :: l else a :: modifyFirst p f l

namespace CalendarMgr

/-- All invites, event by event. -/
def storedInvites (s : CalendarMgr) : List CalendarInvite := s.invites.entries.flatMap (·.2)

def getEvent (s : CalendarMgr) (eventId : Nat) : Option CalendarEvent := s.events.find? (·.eventId = eventId)
def getEventInvites (s : CalendarMgr) (eventId : Nat) : List CalendarInvite := (s.invites.find? eventId).getD []

def getInvite (s : CalendarMgr) (inviteId : Nat) : Option CalendarInvite := s.storedInvites.find? (·.inviteId = inviteId)

def freeEventId (s : CalendarMgr) (id : Nat) : CalendarMgr := { s with eventIds := s.eventIds.release Limit id }
def freeInviteId (s : CalendarMgr) (id : Nat) : CalendarMgr := { s with inviteIds := s.inviteIds.release Limit id }

def getFreeEventId (s : CalendarMgr) : Nat × CalendarMgr :=
  ((s.eventIds.take Limit).1, { s with eventIds := (s.eventIds.take Limit).2 })
def getFreeInviteId (s : CalendarMgr) : Nat × CalendarMgr :=
  ((s.inviteIds.take Limit).1, { s with inviteIds := (s.inviteIds.take Limit).2 })

/-- `AddEvent`. -/
def addEvent (s : CalendarMgr) (event : CalendarEvent) : CalendarMgr := { s with events := s.events ++ [event] }

/-- `AddInvite`: a guild announcement keeps no invites. -/
def addInvite (s : CalendarMgr) (event : CalendarEvent) (invite : CalendarInvite) : CalendarMgr :=
  if !event.isGuildAnnouncement then
    { s with invites := s.invites.insert invite.eventId (s.getEventInvites invite.eventId ++ [invite]) }
  else s

/-- `new CalendarInvite(GetFreeInviteId(), …)`, given to `AddInvite`. -/
def newInvite (s : CalendarMgr) (event : CalendarEvent) (invite : Nat → CalendarInvite) : CalendarMgr :=
  s.getFreeInviteId.2.addInvite event (invite s.getFreeInviteId.1)

/-- `RemoveEvent`. -/
def removeEvent (s : CalendarMgr) (eventId : Nat) : CalendarMgr :=
  match s.getEvent eventId with
  | none => s
  | some event =>
    let s := (s.getEventInvites eventId).foldl (fun s invite => s.freeInviteId invite.inviteId) s
    let s := { s with invites := s.invites.erase eventId, events := s.events.erase event }
    s.freeEventId event.eventId

/-- `RemoveInvite`. -/
def removeInvite (s : CalendarMgr) (inviteId eventId : Nat) : CalendarMgr :=
  match s.getEvent eventId with
  | none => s
  | some _ =>
    match (s.getEventInvites eventId).find? (·.inviteId = inviteId) with
    | none => s
    | some invite =>
      let s := { s with invites := s.invites.insert eventId ((s.getEventInvites eventId).eraseP (·.inviteId = inviteId)) }
      s.freeInviteId invite.inviteId

/-- Writes to the event `GetEvent` finds. -/
def modifyEvent (s : CalendarMgr) (eventId : Nat) (f : CalendarEvent → CalendarEvent) : CalendarMgr :=
  { s with events := modifyFirst (·.eventId = eventId) f s.events }

/-- Writes to the invite `GetInvite` finds. -/
def modifyInvite (s : CalendarMgr) (inviteId : Nat) (f : CalendarInvite → CalendarInvite) : CalendarMgr :=
  match s.invites.entries.find? fun e => e.2.any (·.inviteId = inviteId) with
  | none => s
  | some e => { s with invites := s.invites.insert e.1 (modifyFirst (·.inviteId = inviteId) f e.2) }

/-- `LoadFromDB`, the rows in the order of the invites. -/
def loadFromDB (events : List CalendarEvent) (invites : List CalendarInvite) : CalendarMgr :=
  let s : CalendarMgr :=
    { events := events
      invites := invites.foldl (fun m invite => m.insert invite.eventId ((m.find? invite.eventId).getD [] ++ [invite])) .empty }
  let maxEventId := (events.map (·.eventId)).foldl max 0
  let maxInviteId := (invites.map (·.inviteId)).foldl max 0
  { s with
    eventIds := ⟨(List.range' 1 (maxEventId - 1)).filter fun id => (s.getEvent id).isNone, maxEventId⟩
    inviteIds := ⟨(List.range' 1 (maxInviteId - 1)).filter fun id => (s.getInvite id).isNone, maxInviteId⟩ }

end CalendarMgr

/-! ## Packets -/

/-- The player of a session, or one that a name is of. -/
structure Character where
  guid : ObjectGuid
  team : Nat
  guildId : Nat
  deriving DecidableEq, Repr

inductive Packet
  /-- `CMSG_CALENDAR_ADD_EVENT`; `none` if the list of invitees, with status and rank, breaks off. -/
  | addEvent (details : Details) (invitees : Option (List (ObjectGuid × Nat × Nat)))
  | updateEvent (eventId : Nat) (details : Details)
  | removeEvent (eventId : Nat)
  | copyEvent (eventId : Nat) (eventTime : Int)
  /-- `CMSG_CALENDAR_EVENT_INVITE`, with the character the name is of and whether he ignores the sender. -/
  | eventInvite (eventId inviteId : Nat) (invitee : Option Character) (ignored isPreInvite isGuildEvent : Bool)
  | eventSignup (eventId : Nat) (tentative : Bool)
  | eventRsvp (eventId inviteId status : Nat)
  | eventRemoveInvite (invitee : ObjectGuid) (inviteId eventId : Nat)
  | eventStatus (eventId inviteId status : Nat)
  | eventModeratorStatus (eventId inviteId rank : Nat)

/-- A packet, with who sends it and the server's time and configuration. -/
structure Sent where
  player : Character
  gameTime : Int
  /-- `CONFIG_ALLOW_TWO_SIDE_INTERACTION_CALENDAR`. -/
  allowTwoSideInteraction : Bool := false
  packet : Packet

open CalendarMgr

/-- Events in the past are refused. -/
def inThePast (eventTime gameTime : Int) : Bool := eventTime < gameTime - 86400

/-- The event that `HandleCalendarAddEvent` makes. -/
def newEvent (e : Sent) (eventId : Nat) (details : Details) : CalendarEvent :=
  let event : CalendarEvent := ⟨eventId, e.player.guid, 0, details⟩
  if event.isGuildEvent || event.isGuildAnnouncement then { event with guildId := e.player.guildId } else event

/-- `HandleCalendarAddEvent`. -/
def handleCalendarAddEvent (e : Sent) (s : CalendarMgr) (details : Details)
    (invitees : Option (List (ObjectGuid × Nat × Nat))) : CalendarMgr :=
  if inThePast details.eventTime e.gameTime then s
  else
    let event := newEvent e s.getFreeEventId.1 details
    let s := s.getFreeEventId.2
    if event.isGuildAnnouncement then
      -- the invite on the stack has id 0
      ((s.addInvite event ⟨0, event.eventId, ObjectGuid.Empty, e.player.guid, DefaultStatusTime, StatusNotSignedUp,
        RankPlayer, ""⟩).freeInviteId 0).addEvent event
    else
      match invitees with
      | none => s.freeEventId event.eventId
      | some invitees =>
        let s := (invitees.take MaxPlayerInvites).foldl (fun s i =>
          s.newInvite event fun id => ⟨id, event.eventId, i.1, e.player.guid, DefaultStatusTime, i.2.1, i.2.2, ""⟩) s
        s.addEvent event

/-- `HandleCalendarUpdateEvent`. -/
def handleCalendarUpdateEvent (e : Sent) (s : CalendarMgr) (eventId : Nat) (details : Details) : CalendarMgr :=
  if inThePast details.eventTime e.gameTime then s
  else s.modifyEvent eventId fun event => { event with details := details }

/-- `HandleCalendarCopyEvent`. -/
def handleCalendarCopyEvent (e : Sent) (s : CalendarMgr) (eventId : Nat) (eventTime : Int) : CalendarMgr :=
  if inThePast eventTime e.gameTime then s
  else
    match s.getEvent eventId with
    | none => s
    | some oldEvent =>
      let event : CalendarEvent :=
        { oldEvent with eventId := s.getFreeEventId.1, details := { oldEvent.details with eventTime := eventTime } }
      let s := s.getFreeEventId.2.addEvent event
      (s.getEventInvites eventId).foldl (fun s invite =>
        s.newInvite event fun id => { invite with inviteId := id, eventId := event.eventId }) s

/-- The checks of `HandleCalendarEventInvite` before it looks at the event. -/
def mayInvite (e : Sent) (invitee : Character) (ignored : Bool) : Bool :=
  (e.player.team = invitee.team || e.allowTwoSideInteraction) && !ignored

/-- `HandleCalendarEventInvite`. -/
def handleCalendarEventInvite (e : Sent) (s : CalendarMgr) (eventId inviteId : Nat) (invitee : Option Character)
    (ignored isPreInvite isGuildEvent : Bool) : CalendarMgr :=
  match invitee with
  | none => s
  | some invitee =>
    if !mayInvite e invitee ignored then s
    else if !isPreInvite then
      match s.getEvent eventId with
      | none => s
      | some event =>
        if event.isGuildEvent && event.guildId = invitee.guildId then s
        else
          s.newInvite event fun id =>
            ⟨id, eventId, invitee.guid, e.player.guid, DefaultStatusTime, StatusInvited, RankPlayer, ""⟩
    else if isGuildEvent && invitee.guildId = e.player.guildId then s
    -- the invite on the stack has the id of the packet
    else s.freeInviteId inviteId

/-- `HandleCalendarEventSignup`. -/
def handleCalendarEventSignup (e : Sent) (s : CalendarMgr) (eventId : Nat) (tentative : Bool) : CalendarMgr :=
  match s.getEvent eventId with
  | none => s
  | some event =>
    if event.isGuildEvent && event.guildId ≠ e.player.guildId then s
    else
      s.newInvite event fun id =>
        ⟨id, eventId, e.player.guid, e.player.guid, e.gameTime, if tentative then StatusTentative else StatusSignedUp,
          RankPlayer, ""⟩

/-- `HandleCalendarEventRsvp`. -/
def handleCalendarEventRsvp (e : Sent) (s : CalendarMgr) (eventId inviteId status : Nat) : CalendarMgr :=
  match s.getEvent eventId with
  | none => s
  | some event =>
    -- i think we still should be able to remove self from locked events
    if status ≠ StatusRemoved && event.isLocked then s
    else s.modifyInvite inviteId fun invite => { invite with status := status, statusTime := e.gameTime }

/-- `HandleCalendarEventRemoveInvite`. -/
def handleCalendarEventRemoveInvite (s : CalendarMgr) (invitee : ObjectGuid) (inviteId eventId : Nat) : CalendarMgr :=
  match s.getEvent eventId with
  | none => s
  | some event => if event.creatorGUID = invitee then s else s.removeInvite inviteId eventId

/-- `HandleCalendarEventStatus`. -/
def handleCalendarEventStatus (s : CalendarMgr) (eventId inviteId status : Nat) : CalendarMgr :=
  match s.getEvent eventId with
  | none => s
  | some _ => s.modifyInvite inviteId fun invite => { invite with status := status }

/-- `HandleCalendarEventModeratorStatus`. -/
def handleCalendarEventModeratorStatus (s : CalendarMgr) (eventId inviteId rank : Nat) : CalendarMgr :=
  match s.getEvent eventId with
  | none => s
  | some _ => s.modifyInvite inviteId fun invite => { invite with rank := rank }

def handle (e : Sent) (s : CalendarMgr) : CalendarMgr :=
  match e.packet with
  | .addEvent details invitees => handleCalendarAddEvent e s details invitees
  | .updateEvent eventId details => handleCalendarUpdateEvent e s eventId details
  | .removeEvent eventId => s.removeEvent eventId
  | .copyEvent eventId eventTime => handleCalendarCopyEvent e s eventId eventTime
  | .eventInvite eventId inviteId invitee ignored isPreInvite isGuildEvent =>
    handleCalendarEventInvite e s eventId inviteId invitee ignored isPreInvite isGuildEvent
  | .eventSignup eventId tentative => handleCalendarEventSignup e s eventId tentative
  | .eventRsvp eventId inviteId status => handleCalendarEventRsvp e s eventId inviteId status
  | .eventRemoveInvite invitee inviteId eventId => handleCalendarEventRemoveInvite s invitee inviteId eventId
  | .eventStatus eventId inviteId status => handleCalendarEventStatus s eventId inviteId status
  | .eventModeratorStatus eventId inviteId rank => handleCalendarEventModeratorStatus s eventId inviteId rank

def step (e : Sent) (s : CalendarMgr) : Option CalendarMgr := some (handle e s)

end AtlasWow.Calendar
