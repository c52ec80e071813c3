/-
Runs of calendar packets, from what is loaded, and the ids of what is stored.
-/
import AtlasWow.Calendar.CalendarIds

namespace AtlasWow.Calendar

open CalendarMgr

variable {s s' : CalendarMgr} {e : Sent} {details : Details} {invitees : Option (List (ObjectGuid × Nat × Nat))}
  {eventId : Nat} {eventTime : Int}

/-- The ids of stored events and of stored invites are distinct and not zero, none of them is free, and no counter is
below one or has wrapped below zero. -/
structure UniqueIds (s : CalendarMgr) : Prop where
  events : (s.events.map (·.eventId)).Nodup
  invites : (s.storedInvites.map (·.inviteId)).Nodup
  eventRange : ∀ event ∈ s.events, event.eventId ≠ 0 ∧ event.eventId ≤ s.eventIds.max
  inviteRange : ∀ invite ∈ s.storedInvites, invite.inviteId ≠ 0 ∧ invite.inviteId ≤ s.inviteIds.max
  eventFree : ∀ event ∈ s.events, event.eventId ∉ s.eventIds.free
  inviteFree : ∀ invite ∈ s.storedInvites, invite.inviteId ∉ s.inviteIds.free
  counters : s.eventIds.max < Limit - 1 ∧ s.inviteIds.max < Limit - 1

theorem uniqueIds (he : EventsPooled s) (hi : InvitesPooled s) : UniqueIds s := by
  have hev := Multiset.nodup_add.1 he.nodup
  have hinv := Multiset.nodup_add.1 hi.nodup
  have hmemEvent : ∀ event ∈ s.events, event.eventId ∈ usedEventIds s := fun event hm => List.mem_map_of_mem hm
  have hmemInvite : ∀ invite ∈ s.storedInvites, invite.inviteId ∈ usedInviteIds s := fun invite hm => List.mem_map_of_mem hm
  refine ⟨Multiset.coe_nodup.1 hev.1, Multiset.coe_nodup.1 hinv.1, fun event hm => ?_, fun invite hm => ?_,
    fun event hm hfree => ?_, fun invite hm hfree => ?_, ?_, ?_⟩
  · have := he.range event.eventId (Multiset.mem_add.2 (.inl (hmemEvent event hm)))
    omega
  · have := hi.range invite.inviteId (Multiset.mem_add.2 (.inl (hmemInvite invite hm)))
    omega
  · exact Multiset.disjoint_left.1 hev.2.2 (hmemEvent event hm) (Multiset.mem_coe.2 hfree)
  · exact Multiset.disjoint_left.1 hinv.2.2 (hmemInvite invite hm) (Multiset.mem_coe.2 hfree)
  · have := he.room
    omega
  · have := hi.room
    omega

/-! ## What is loaded -/

/-- Rows as the tables hold them: their ids are primary keys, counted up from 1. -/
structure RowsOk (events : List CalendarEvent) (invites : List CalendarInvite) : Prop where
  distinctEvents : (events.map (·.eventId)).Nodup
  distinctInvites : (invites.map (·.inviteId)).Nodup
  eventRange : ∀ event ∈ events, 1 ≤ event.eventId ∧ event.eventId + 1 < Limit
  inviteRange : ∀ invite ∈ invites, 1 ≤ invite.inviteId ∧ invite.inviteId + 1 < Limit

theorem foldl_max_le {n : Nat} : ∀ {l : List Nat} {m : Nat}, m ≤ n → (∀ id ∈ l, id ≤ n) → l.foldl max m ≤ n
  | [], _, hm, _ => hm
  | id :: l, m, hm, hl => by
    rw [List.foldl_cons]
    exact foldl_max_le (max_le hm (hl id List.mem_cons_self)) fun id' h' => hl id' (List.mem_cons_of_mem _ h')

theorem le_foldl_max : ∀ (l : List Nat) (m : Nat), m ≤ l.foldl max m ∧ ∀ id ∈ l, id ≤ l.foldl max m
  | [], m => ⟨le_refl m, nofun⟩
  | id :: l, m => by
    obtain ⟨hm, hl⟩ := le_foldl_max l (max m id)
    refine ⟨(le_max_left m id).trans hm, fun id' h' => ?_⟩
    rcases List.mem_cons.1 h' with rfl | h'
    · exact (le_max_right m id').trans hm
    · exact hl id' h'

/-- The pool that loading sets up. -/
theorem holds_load {ids : List Nat} {isFree : Nat → Bool} (hnodup : ids.Nodup) (hrange : ∀ id ∈ ids, 1 ≤ id ∧ id + 1 < Limit)
    (hfree : ∀ id, isFree id = true ↔ id ∉ ids) :
    IdPool.Holds Limit ⟨(List.range' 1 (ids.foldl max 0 - 1)).filter isFree, ids.foldl max 0⟩ ↑ids := by
  have hroom : ids.foldl max 0 + 1 < Limit := by
    have hle : ids.foldl max 0 ≤ Limit - 2 := by
      refine foldl_max_le (Nat.zero_le _) fun id hid => ?_
      have := (hrange id hid).2
      omega
    have : Limit = 2 ^ 64 := rfl
    omega
  have h := IdPool.Holds.ofUsed (Multiset.coe_nodup.2 hnodup) (fun id hid => (hrange id hid).1) (le_foldl_max ids 0).2 hroom
  have hsame : (fun id => decide (id ∉ (ids : Multiset Nat))) = isFree := by
    funext id
    rw [Bool.eq_iff_iff, decide_eq_true_eq, Multiset.mem_coe, hfree]
  rwa [hsame] at h

theorem usedInviteIds_load (invites : List CalendarInvite) : ∀ s : CalendarMgr,
    usedInviteIds { s with
      invites := invites.foldl (fun m invite => m.insert invite.eventId ((m.find? invite.eventId).getD [] ++ [invite]))
        s.invites } = idsOf invites + usedInviteIds s := by
  induction invites with
  | nil => exact fun s => (zero_add _).symm
  | cons invite invites ih =>
    intro s
    have hone := @usedInviteIds_addInvite ⟨0, 0, 0, ⟨0, 0, 0, 0, 0, "", ""⟩⟩ rfl s invite
    have hrest := ih { s with
      invites := s.invites.insert invite.eventId ((s.invites.find? invite.eventId).getD [] ++ [invite]) }
    rw [List.foldl_cons]
    refine hrest.trans ?_
    have hone : usedInviteIds { s with
        invites := s.invites.insert invite.eventId ((s.invites.find? invite.eventId).getD [] ++ [invite]) } =
        invite.inviteId ::ₘ usedInviteIds s := hone
    rw [hone, Multiset.add_cons, ← Multiset.cons_add]
    rfl

theorem loadFromDB_pooled {events : List CalendarEvent} {invites : List CalendarInvite} (h : RowsOk events invites) :
    EventsPooled (loadFromDB events invites) ∧ InvitesPooled (loadFromDB events invites) := by
  have hused : usedInviteIds (loadFromDB events invites) = idsOf invites :=
    (usedInviteIds_load invites {}).trans (add_zero _)
  constructor
  · refine holds_load h.distinctEvents ?_ fun id => ?_
    · intro id hid
      obtain ⟨event, hev, rfl⟩ := List.mem_map.1 hid
      exact h.eventRange event hev
    · rw [Option.isNone_iff_eq_none, getEvent, List.find?_eq_none, List.mem_map]
      simp only [decide_eq_true_eq, not_exists, not_and]
  · rw [InvitesPooled, hused]
    refine holds_load h.distinctInvites ?_ fun id => ?_
    · intro id hid
      obtain ⟨invite, hinv, rfl⟩ := List.mem_map.1 hid
      exact h.inviteRange invite hinv
    · have hmem : id ∈ invites.map (·.inviteId) ↔ id ∈ usedInviteIds (loadFromDB events invites) := by
        rw [hused]; rfl
      rw [hmem, Option.isNone_iff_eq_none, getInvite, List.find?_eq_none, usedInviteIds, Multiset.mem_coe, List.mem_map]
      simp only [decide_eq_true_eq, not_exists, not_and]
      rfl

/-! ## Packets -/

/-- How many invites a packet makes, at most. -/
def newInvites (e : Sent) (s : CalendarMgr) : Nat :=
  match e.packet with
  | .addEvent _ (some invitees) => (invitees.take MaxPlayerInvites).length
  | .copyEvent eventId _ => (s.getEventInvites eventId).length
  | _ => 1

/-- The counters do not come to the end of their range. -/
def Room (e : Sent) (s : CalendarMgr) : Prop :=
  s.eventIds.max + 2 < Limit ∧ s.inviteIds.max + newInvites e s + 1 < Limit

/-- An invite id that nobody has, of those handed out. -/
structure Spare (s : CalendarMgr) (id : Nat) : Prop where
  stored : id ∉ s.storedInvites.map (·.inviteId)
  free : id ∉ s.inviteIds.free
  range : 1 ≤ id ∧ id ≤ s.inviteIds.max

/-- No guild announcement is made, and a pre-invite's id is spare. -/
def Sound (e : Sent) (s : CalendarMgr) : Prop :=
  match e.packet with
  | .addEvent details _ => inThePast details.eventTime e.gameTime = false → details.flags &&& FlagWithoutInvites = 0
  | .eventInvite _ inviteId (some invitee) ignored true isGuildEvent =>
    mayInvite e invitee ignored = true → (isGuildEvent && invitee.guildId = e.player.guildId) = false → Spare s inviteId
  | _ => True

theorem newEvent_eventId (e : Sent) (id : Nat) (details : Details) : (newEvent e id details).eventId = id := by
  unfold newEvent
  dsimp only
  split <;> rfl

theorem newEvent_isGuildAnnouncement (e : Sent) (id : Nat) (details : Details) :
    (newEvent e id details).isGuildAnnouncement = decide (details.flags &&& FlagWithoutInvites ≠ 0) := by
  unfold newEvent
  dsimp only
  split <;> rfl

theorem usedEventIds_addEvent (s : CalendarMgr) (event : CalendarEvent) :
    usedEventIds (s.addEvent event) = event.eventId ::ₘ usedEventIds s := by
  rw [usedEventIds, usedEventIds, addEvent, List.map_append, ← Multiset.coe_add, Multiset.add_comm]
  rfl

/-! ### Events -/

theorem handleCalendarAddEvent_events (h : EventsPooled s) (hroom : s.eventIds.max + 2 < Limit) :
    EventsPooled (handleCalendarAddEvent e s details invitees) := by
  obtain ⟨htake, -⟩ := IdPool.Holds.take h hroom
  unfold handleCalendarAddEvent
  split
  · exact h
  extract_lets event s₁
  have hadd : ∀ s₂, SameEvents s₁ s₂ → EventsPooled (s₂.addEvent event) := by
    intro s₂ hs
    have hid : event.eventId = s.getFreeEventId.1 := newEvent_eventId _ _ _
    rw [EventsPooled, usedEventIds_addEvent, usedEventIds, hs.events, hid]
    show IdPool.Holds Limit s₂.eventIds _
    rw [hs.pool]
    exact htake
  split
  · refine hadd _ ?_
    obtain ⟨hp, -, hev⟩ := addInvite_pools s₁ event ⟨0, event.eventId, ObjectGuid.Empty, e.player.guid, DefaultStatusTime,
      StatusNotSignedUp, RankPlayer, ""⟩
    exact ⟨hev, hp⟩
  split
  · show EventsPooled (s₁.freeEventId (newEvent e s.getFreeEventId.1 details).eventId)
    rw [newEvent_eventId]
    exact htake.release
  · exact hadd _ (newInvites_sameEvents _ _ _ _)

theorem handleCalendarCopyEvent_events (h : EventsPooled s)
    (hroom : s.eventIds.max + 2 < Limit) : EventsPooled (handleCalendarCopyEvent e s eventId eventTime) := by
  obtain ⟨htake, -⟩ := IdPool.Holds.take h hroom
  unfold handleCalendarCopyEvent
  split
  · exact h
  split
  · exact h
  next oldEvent _ =>
  extract_lets details event s₁
  have hs₁ : EventsPooled s₁ := by
    show IdPool.Holds Limit s.getFreeEventId.2.eventIds (usedEventIds (s.getFreeEventId.2.addEvent event))
    rw [usedEventIds_addEvent]
    exact htake
  exact (newInvites_sameEvents event (fun (invite : CalendarInvite) id =>
    { invite with inviteId := id, eventId := event.eventId }) (s₁.getEventInvites eventId) s₁).pooled hs₁

theorem handleCalendarEventInvite_sameEvents (e : Sent) (s : CalendarMgr) (eventId inviteId : Nat)
    (invitee : Option Character) (ignored isPreInvite isGuildEvent : Bool) :
    SameEvents s (handleCalendarEventInvite e s eventId inviteId invitee ignored isPreInvite isGuildEvent) := by
  unfold handleCalendarEventInvite
  split
  · exact ⟨rfl, rfl⟩
  split
  · exact ⟨rfl, rfl⟩
  split
  · split
    · exact ⟨rfl, rfl⟩
    split
    · exact ⟨rfl, rfl⟩
    · exact newInvite_sameEvents _ _ _
  split
  · exact ⟨rfl, rfl⟩
  · exact ⟨rfl, rfl⟩

theorem handleCalendarEventSignup_sameEvents (e : Sent) (s : CalendarMgr) (eventId : Nat) (tentative : Bool) :
    SameEvents s (handleCalendarEventSignup e s eventId tentative) := by
  unfold handleCalendarEventSignup
  split
  · exact ⟨rfl, rfl⟩
  split
  · exact ⟨rfl, rfl⟩
  · exact newInvite_sameEvents _ _ _

/-- Event ids stay in order whatever is sent. -/
theorem handle_events (h : EventsPooled s) (hroom : s.eventIds.max + 2 < Limit) : EventsPooled (handle e s) := by
  unfold handle
  split
  · exact handleCalendarAddEvent_events h hroom
  · unfold handleCalendarUpdateEvent
    split
    · exact h
    · exact h.modifyEvent fun _ => rfl
  · exact h.removeEvent _
  · exact handleCalendarCopyEvent_events h hroom
  · exact (handleCalendarEventInvite_sameEvents _ _ _ _ _ _ _ _).pooled h
  · exact (handleCalendarEventSignup_sameEvents _ _ _ _).pooled h
  · unfold handleCalendarEventRsvp
    split
    · exact h
    split
    · exact h
    · exact (modifyInvite_sameEvents _ _ _).pooled h
  · unfold handleCalendarEventRemoveInvite
    split
    · exact h
    split
    · exact h
    · exact (removeInvite_sameEvents _ _ _).pooled h
  · unfold handleCalendarEventStatus
    split
    · exact h
    · exact (modifyInvite_sameEvents _ _ _).pooled h
  · unfold handleCalendarEventModeratorStatus
    split
    · exact h
    · exact (modifyInvite_sameEvents _ _ _).pooled h

/-! ### Invites -/

theorem handleCalendarAddEvent_invites (h : InvitesPooled s)
    (hroom : ∀ l, invitees = some l → s.inviteIds.max + (l.take MaxPlayerInvites).length + 1 < Limit)
    (hok : inThePast details.eventTime e.gameTime = false → details.flags &&& FlagWithoutInvites = 0) :
    InvitesPooled (handleCalendarAddEvent e s details invitees) := by
  unfold handleCalendarAddEvent
  split
  · exact h
  next hpast =>
  have hann := newEvent_isGuildAnnouncement e s.getFreeEventId.1 details
  rw [hok (by simpa using hpast)] at hann
  extract_lets event s₁
  rw [if_neg (show ¬ event.isGuildAnnouncement = true by rw [hann]; simp)]
  split
  · exact h
  next l =>
  exact @InvitesPooled.newInvites event _ (fun (i : ObjectGuid × Nat × Nat) id => ⟨id, event.eventId, i.1,
    e.player.guid, DefaultStatusTime, i.2.1, i.2.2, ""⟩) (fun _ _ => rfl) (l.take MaxPlayerInvites) s₁ h (hroom l rfl)

theorem handleCalendarCopyEvent_invites (h : InvitesPooled s)
    (hroom : s.inviteIds.max + (s.getEventInvites eventId).length + 1 < Limit) :
    InvitesPooled (handleCalendarCopyEvent e s eventId eventTime) := by
  unfold handleCalendarCopyEvent
  split
  · exact h
  split
  · exact h
  next oldEvent _ =>
  extract_lets details event s₁
  exact @InvitesPooled.newInvites event _ (fun (invite : CalendarInvite) id =>
    { invite with inviteId := id, eventId := event.eventId }) (fun _ _ => rfl) (s₁.getEventInvites eventId) s₁ h hroom

theorem handle_invites (h : InvitesPooled s) (hroom : s.inviteIds.max + newInvites e s + 1 < Limit) (hs : Sound e s) :
    InvitesPooled (handle e s) := by
  obtain ⟨player, gameTime, twoSide, packet⟩ := e
  unfold handle
  cases packet with
  | addEvent details invitees =>
    refine handleCalendarAddEvent_invites h (fun l hl => ?_) hs
    subst hl
    exact hroom
  | updateEvent eventId details =>
    show InvitesPooled (handleCalendarUpdateEvent _ _ _ _)
    unfold handleCalendarUpdateEvent
    split
    · exact h
    · exact h
  | removeEvent eventId => exact h.removeEvent eventId
  | copyEvent eventId eventTime => exact handleCalendarCopyEvent_invites h hroom
  | eventInvite eventId inviteId invitee ignored isPreInvite isGuildEvent =>
    show InvitesPooled (handleCalendarEventInvite _ _ _ _ _ _ _ _)
    unfold handleCalendarEventInvite
    cases invitee with
    | none => exact h
    | some invitee =>
      dsimp only
      split
      · exact h
      next hmay =>
      cases isPreInvite with
      | false =>
        rw [if_pos Bool.not_false]
        split
        · exact h
        split
        · exact h
        · exact (h.newInvite (fun _ => rfl) hroom).1
      | true =>
        rw [if_neg (by simp)]
        split
        · exact h
        next hguild =>
        have hspare := hs (by simpa using hmay) (by simpa using hguild)
        exact (IdPool.Holds.adopt h hspare.stored hspare.free hspare.range.1 hspare.range.2).release
  | eventSignup eventId tentative =>
    show InvitesPooled (handleCalendarEventSignup _ _ _ _)
    unfold handleCalendarEventSignup
    split
    · exact h
    split
    · exact h
    · exact (h.newInvite (fun _ => rfl) hroom).1
  | eventRsvp eventId inviteId status =>
    show InvitesPooled (handleCalendarEventRsvp _ _ _ _ _)
    unfold handleCalendarEventRsvp
    split
    · exact h
    split
    · exact h
    · exact h.modifyInvite fun _ => rfl
  | eventRemoveInvite invitee inviteId eventId =>
    show InvitesPooled (handleCalendarEventRemoveInvite _ _ _ _)
    unfold handleCalendarEventRemoveInvite
    split
    · exact h
    split
    · exact h
    · exact h.removeInvite inviteId eventId
  | eventStatus eventId inviteId status =>
    show InvitesPooled (handleCalendarEventStatus _ _ _ _)
    unfold handleCalendarEventStatus
    split
    · exact h
    · exact h.modifyInvite fun _ => rfl
  | eventModeratorStatus eventId inviteId rank =>
    show InvitesPooled (handleCalendarEventModeratorStatus _ _ _ _)
    unfold handleCalendarEventModeratorStatus
    split
    · exact h
    · exact h.modifyInvite fun _ => rfl

/-! ## Runs -/

/-- In every run in which no guild announcement is made and pre-invites name spare ids, the ids of what is stored are
unique, as long as the counters have room. -/
theorem calendar_ids_unique {events : List CalendarEvent} {invites : List CalendarInvite} (hrows : RowsOk events invites)
    (h : Reaches step (fun e s => Room e s ∧ Sound e s) (loadFromDB events invites) s) : UniqueIds s := by
  have hpooled : EventsPooled s ∧ InvitesPooled s := by
    refine h.invariant (fun s => EventsPooled s ∧ InvitesPooled s) ?_ (loadFromDB_pooled hrows)
    intro e a b ha hok hstep
    cases hstep
    exact ⟨handle_events ha.1 hok.1.1, handle_invites ha.2 hok.1.2 hok.2⟩
  exact uniqueIds hpooled.1 hpooled.2

def master : Character := { guid := 1, team := 469, guildId := 7 }
def friend : Character := { guid := 2, team := 469, guildId := 0 }

/-- An event with an invitee. -/
def addRaid : Sent := ⟨master, 0, false, .addEvent ⟨0, 0, 86400, 0, 0, "", ""⟩ (some [(1, 0, 2)])⟩
/-- A guild announcement. -/
def announce : Sent := ⟨master, 0, false, .addEvent ⟨4, 0, 86400, FlagWithoutInvites, 0, "", ""⟩ none⟩
/-- A pre-invite with an id of the client's choice. -/
def preInvite (inviteId : Nat) : Sent := ⟨master, 0, false, .eventInvite 0 inviteId (some friend) false true false⟩

/-- A raid with one invite is added to an empty calendar. -/
theorem calendar_ids_unique_raid : ∃ s, runSteps step [addRaid] (loadFromDB [] []) = some s ∧ UniqueIds s := by
  refine ⟨_, rfl, @calendar_ids_unique _ [] [] ⟨.nil, .nil, nofun, nofun⟩
    (.tail addRaid .refl ⟨?_, fun _ => rfl⟩ rfl)⟩
  constructor <;> decide

/-- The first guild announcement makes the counter of invites wrap below zero. A pre-invite that names the id of a
stored invite frees it, and the next invite gets the same id. -/
theorem calendar_ids_clash : (∃ s, runSteps step [announce] (loadFromDB [] []) = some s ∧ s.inviteIds.max = 2 ^ 64 - 1) ∧
    ∃ s, runSteps step [addRaid, addRaid, preInvite 1, addRaid] (loadFromDB [] []) = some s ∧
      ¬ (s.storedInvites.map (·.inviteId)).Nodup := by
  refine ⟨⟨_, rfl, rfl⟩, ⟨_, rfl, ?_⟩⟩
  decide

end AtlasWow.Calendar
