/-
What a player's packets do to an event he need have no part in: its data, the
invites of others and their status and rank (`view`). The handlers look up the
event and the invite they are given independently of each other and of the
sender; `Harmless` says of each packet when that leaves the view alone.
-/
import AtlasWow.Calendar.CalendarRuns

namespace AtlasWow.Calendar

open CalendarMgr

variable {s s' first : CalendarMgr} {e : Sent} {event : CalendarEvent} {invite : CalendarInvite}
  {k id inviteId eventId : Nat} {player : ObjectGuid} {packets : List Sent}

/-! ## Lists with one element changed -/

section Lists

variable {α β : Type} {p q : α → Bool} {f : α → α} {g : α → β} {l : List α} {a : α}

/-- What is seen of a list stays as it is exactly if the changed element is not seen or looks the same. -/
theorem map_filter_modifyFirst (hq : ∀ a, q (f a) = q a) (l : List α) :
    ((modifyFirst p f l).filter q).map g = (l.filter q).map g ↔
      ∀ a, l.find? p = some a → q a = true → g (f a) = g a := by
  induction l with
  | nil => simp [modifyFirst]
  | cons a l ih =>
    rw [modifyFirst, List.find?_cons]
    by_cases hp : p a = true
    · rw [if_pos hp, hp, List.filter_cons, List.filter_cons, hq]
      by_cases hqa : q a = true
      · simp [hqa]
      · simp [hqa]
    rw [if_neg hp, eq_false_of_ne_true hp, List.filter_cons, List.filter_cons]
    by_cases hqa : q a = true
    · simp only [hqa, if_true, List.map_cons, List.cons.injEq, true_and]
      exact ih
    · simp only [hqa]
      exact ih

theorem map_filter_eraseP (l : List α) : ((l.eraseP p).filter q).map g = (l.filter q).map g ↔
    ∀ a, l.find? p = some a → q a = false := by
  induction l with
  | nil => simp
  | cons a l ih =>
    rw [List.find?_cons]
    by_cases hp : p a = true
    · rw [List.eraseP_cons_of_pos hp, hp, List.filter_cons]
      by_cases hqa : q a = true
      · simp only [hqa, if_true, List.map_cons, Option.some.injEq, forall_eq']
        refine ⟨fun he => ?_, nofun⟩
        have hlen := congrArg List.length he
        simp at hlen
      · simp [hqa]
    rw [List.eraseP_cons_of_neg hp, eq_false_of_ne_true hp, List.filter_cons, List.filter_cons]
    by_cases hqa : q a = true
    · simp only [hqa, if_true, List.map_cons, List.cons.injEq, true_and]
      exact ih
    · simp only [hqa]
      exact ih

theorem map_filter_concat (l : List α) (a : α) : ((l ++ [a]).filter q).map g = (l.filter q).map g ↔ q a = false := by
  rw [List.filter_append, List.map_append, List.append_right_eq_self, List.map_eq_nil_iff, List.filter_eq_nil_iff]
  simp

/-- The element that is changed, and the others. -/
theorem getElem?_modifyFirst (ha : l.find? p = some a) : ∃ i : Nat, l[i]? = some a ∧ (modifyFirst p f l)[i]? = some (f a) ∧
    ∀ j : Nat, j ≠ i → (modifyFirst p f l)[j]? = l[j]? := by
  induction l with
  | nil => cases ha
  | cons b l ih =>
    rw [List.find?_cons] at ha
    rw [modifyFirst]
    by_cases hp : p b = true
    · rw [hp] at ha
      cases ha
      refine ⟨0, rfl, by rw [if_pos hp]; rfl, fun j hj => ?_⟩
      obtain ⟨j, rfl⟩ := Nat.exists_eq_succ_of_ne_zero hj
      rw [if_pos hp, List.getElem?_cons_succ, List.getElem?_cons_succ]
    rw [eq_false_of_ne_true hp] at ha
    obtain ⟨i, hi, hi', hrest⟩ := ih ha
    refine ⟨i + 1, by rwa [List.getElem?_cons_succ], by rwa [if_neg hp, List.getElem?_cons_succ], fun j hj => ?_⟩
    rw [if_neg hp]
    cases j with
    | zero => rfl
    | succ j => rw [List.getElem?_cons_succ, List.getElem?_cons_succ, hrest j (by omega)]

theorem find?_modifyFirst (hp : ∀ a, p (f a) = p a) (l : List α) : (modifyFirst p f l).find? p = (l.find? p).map f := by
  induction l with
  | nil => rfl
  | cons a l ih =>
    rw [modifyFirst, List.find?_cons]
    by_cases h : p a = true
    · rw [if_pos h, List.find?_cons, hp, h, Option.map_some]
    · rw [if_neg h, List.find?_cons, eq_false_of_ne_true h, ih]

theorem find?_modifyFirst_of_disjoint (hq : ∀ a, p a = true → q a = false ∧ q (f a) = false) (l : List α) :
    (modifyFirst p f l).find? q = l.find? q := by
  induction l with
  | nil => rfl
  | cons a l ih =>
    rw [modifyFirst, List.find?_cons]
    by_cases h : p a = true
    · rw [if_pos h, List.find?_cons, (hq a h).1, (hq a h).2]
    · rw [if_neg h, List.find?_cons, ih]

theorem find?_erase_of_disjoint [DecidableEq α] (hq : q a = false) (l : List α) : (l.erase a).find? q = l.find? q := by
  induction l with
  | nil => rfl
  | cons b l ih =>
    rw [List.erase_cons, List.find?_cons]
    split
    next he => rw [beq_iff_eq.1 he, hq]
    next => rw [List.find?_cons, ih]

end Lists

/-! ## What is seen of an event -/

/-- Of others' invites: whose they are, with their ids, status and rank. -/
def seen (player : ObjectGuid) (l : List CalendarInvite) : List (Nat × ObjectGuid × Nat × Nat) :=
  (l.filter (·.invitee ≠ player)).map fun i => (i.inviteId, i.invitee, i.status, i.rank)

/-- An event's data and the invites to it of others than the player. -/
def view (player : ObjectGuid) (eventId : Nat) (s : CalendarMgr) :
    Option CalendarEvent × List (Nat × ObjectGuid × Nat × Nat) :=
  (s.getEvent eventId, seen player (s.getEventInvites eventId))

/-- An answer changes only invites that are the player's own, and of a locked event only to remove him. -/
def Answers (player : ObjectGuid) (e : Sent) (s : CalendarMgr) : Prop :=
  ∀ eventId inviteId status, e.packet = .eventRsvp eventId inviteId status →
    ∀ (k i : Nat) (a b : CalendarInvite), (s.getEventInvites k)[i]? = some a → ((handle e s).getEventInvites k)[i]? = some b → a ≠ b →
      a.invitee = player ∧ (b.status = StatusRemoved ∨ ∀ event, s.getEvent k = some event → event.isLocked = false)

/-- Where `GetInvite` finds an invite, and which. -/
def located (s : CalendarMgr) (inviteId : Nat) : Option (Nat × CalendarInvite) :=
  (s.invites.entries.find? fun e => e.2.any (·.inviteId = inviteId)).bind fun e =>
    (e.2.find? (·.inviteId = inviteId)).map fun invite => (e.1, invite)

/-- When a packet of a player leaves an event and the invites of others to it alone, and changes by an answer only what
he may. -/
def Harmless (player : ObjectGuid) (eventId : Nat) (e : Sent) (s : CalendarMgr) : Prop :=
  match e.packet with
  | .addEvent _ _ | .copyEvent _ _ | .eventSignup _ _ => True
  | .updateEvent id details => inThePast details.eventTime e.gameTime = false → id = eventId →
      ∀ event, s.getEvent eventId = some event → event.details = details
  | .removeEvent id => id ≠ eventId
  | .eventInvite id _ invitee ignored isPreInvite _ => isPreInvite = false → id = eventId →
      ∀ c event, invitee = some c → mayInvite e c ignored = true → s.getEvent eventId = some event →
        (event.isGuildEvent && event.guildId = c.guildId) = false → event.isGuildAnnouncement = false → c.guid = player
  | .eventRsvp id inviteId status => ∀ event k invite, s.getEvent id = some event →
      (status = StatusRemoved ∨ event.isLocked = false) → located s inviteId = some (k, invite) →
        invite.status = status ∧ invite.statusTime = e.gameTime ∨
          invite.invitee = player ∧ (status = StatusRemoved ∨ ∀ event, s.getEvent k = some event → event.isLocked = false)
  | .eventRemoveInvite invitee inviteId id => id = eventId → ∀ event invite, s.getEvent eventId = some event →
      event.creatorGUID ≠ invitee → (s.getEventInvites eventId).find? (·.inviteId = inviteId) = some invite →
        invite.invitee = player
  | .eventStatus id inviteId status => ∀ event invite, s.getEvent id = some event →
      located s inviteId = some (eventId, invite) → invite.invitee = player ∨ invite.status = status
  | .eventModeratorStatus id inviteId rank => ∀ event invite, s.getEvent id = some event →
      located s inviteId = some (eventId, invite) → invite.invitee = player ∨ invite.rank = rank

/-! ## Lookups -/

theorem getEventInvites_insert (s : CalendarMgr) (k k' : Nat) (l : List CalendarInvite) :
    ({ s with invites := s.invites.insert k l } : CalendarMgr).getEventInvites k' =
      if k' = k then l else s.getEventInvites k' := by
  rw [getEventInvites, OMap.find?_insert]
  split
  · rfl
  · rfl

/-- An event that is found is still found when another one is added. -/
theorem getEvent_addEvent (h : s.getEvent k = some event) (event' : CalendarEvent) :
    (s.addEvent event').getEvent k = some event := by
  rw [getEvent, addEvent, List.find?_append]
  exact (congrArg (Option.or · _) h).trans rfl

theorem SameEvents.getEvent (h : SameEvents s s') (k : Nat) : s'.getEvent k = s.getEvent k := by
  rw [CalendarMgr.getEvent, h.events, CalendarMgr.getEvent]

theorem getEventInvites_addInvite (s : CalendarMgr) (event : CalendarEvent) (invite : CalendarInvite) (k : Nat) :
    (s.addInvite event invite).getEventInvites k =
      if event.isGuildAnnouncement = false ∧ k = invite.eventId then s.getEventInvites k ++ [invite]
      else s.getEventInvites k := by
  rw [addInvite]
  cases event.isGuildAnnouncement with
  | true => simp
  | false =>
    rw [Bool.not_false, if_pos rfl, getEventInvites_insert]
    by_cases hk : k = invite.eventId
    · simp [hk]
    · simp [hk]

theorem getEventInvites_newInvite (s : CalendarMgr) (event : CalendarEvent) (invite : Nat → CalendarInvite) (k : Nat) :
    ∃ id, (s.newInvite event invite).getEventInvites k =
      if event.isGuildAnnouncement = false ∧ k = (invite id).eventId then s.getEventInvites k ++ [invite id]
      else s.getEventInvites k :=
  ⟨s.getFreeInviteId.1, getEventInvites_addInvite s.getFreeInviteId.2 event (invite s.getFreeInviteId.1) k⟩

theorem getEventInvites_newInvites {α : Type} (event : CalendarEvent) {invite : α → Nat → CalendarInvite}
    (hk : ∀ a id, (invite a id).eventId ≠ k) (l : List α) : ∀ s : CalendarMgr,
      (l.foldl (fun s a => s.newInvite event (invite a)) s).getEventInvites k = s.getEventInvites k := by
  induction l with
  | nil => exact fun s => rfl
  | cons a l ih =>
    intro s
    obtain ⟨id, h⟩ := getEventInvites_newInvite s event (invite a) k
    rw [if_neg fun h => hk a id h.2.symm] at h
    exact (ih _).trans h

/-- A write to the invite that `GetInvite` finds. -/
theorem modifyInvite_eq (s : CalendarMgr) (inviteId : Nat) (f : CalendarInvite → CalendarInvite) :
    located s inviteId = none ∧ s.modifyInvite inviteId f = s ∨
      ∃ k invite, located s inviteId = some (k, invite) ∧
        (s.getEventInvites k).find? (·.inviteId = inviteId) = some invite ∧
        ∀ k', (s.modifyInvite inviteId f).getEventInvites k' =
          if k' = k then modifyFirst (·.inviteId = inviteId) f (s.getEventInvites k) else s.getEventInvites k' := by
  unfold modifyInvite located
  cases hfind : s.invites.entries.find? fun e => e.2.any (·.inviteId = inviteId) with
  | none => exact .inl ⟨rfl, rfl⟩
  | some entry =>
    have hget : s.getEventInvites entry.1 = entry.2 := by
      rw [getEventInvites, OMap.mem_entries.1 (List.mem_of_find?_eq_some hfind), Option.getD_some]
    have hany := List.find?_some hfind
    obtain ⟨invite, hinv⟩ : ∃ invite, entry.2.find? (·.inviteId = inviteId) = some invite := by
      rw [← Option.isSome_iff_exists, List.find?_isSome]
      simpa using hany
    refine .inr ⟨entry.1, invite, by rw [Option.bind_some, hinv, Option.map_some], by rw [hget, hinv], fun k' => ?_⟩
    rw [hget]
    exact getEventInvites_insert s entry.1 k' _

/-! ## Packets -/

theorem view_eq_iff (hev : s'.getEvent eventId = s.getEvent eventId) : view player eventId s' = view player eventId s ↔
    seen player (s'.getEventInvites eventId) = seen player (s.getEventInvites eventId) := by
  rw [view, view, hev, Prod.mk.injEq, and_iff_right rfl]

/-- A new event has an id of its own. -/
theorem getFreeEventId_ne (h : EventsPooled s) (hroom : s.eventIds.max + 2 < Limit)
    (hev : s.getEvent eventId = some event) : s.getFreeEventId.1 ≠ eventId := by
  obtain ⟨htake, -⟩ := IdPool.Holds.take h hroom
  have hnodup := htake.nodup
  rw [Multiset.cons_add, Multiset.nodup_cons] at hnodup
  rintro rfl
  obtain ⟨hmem, hid⟩ := getEvent_mem hev
  refine hnodup.1 (Multiset.mem_add.2 (.inl (Multiset.mem_coe.2 ?_)))
  show s.getFreeEventId.1 ∈ s.events.map (·.eventId)
  rw [← hid]
  exact List.mem_map_of_mem hmem

theorem view_handleCalendarAddEvent (h : EventsPooled s) (hroom : s.eventIds.max + 2 < Limit)
    (hev : s.getEvent eventId = some event) (details : Details) (invitees : Option (List (ObjectGuid × Nat × Nat))) :
    view player eventId (handleCalendarAddEvent e s details invitees) = view player eventId s := by
  unfold handleCalendarAddEvent
  split
  · rfl
  extract_lets new s₁
  have hnew : new.eventId ≠ eventId := by
    have hid : new.eventId = s.getFreeEventId.1 := newEvent_eventId _ _ _
    rw [hid]
    exact getFreeEventId_ne h hroom hev
  have hview : ∀ s₂, SameEvents s₁ s₂ → s₂.getEventInvites eventId = s.getEventInvites eventId →
      view player eventId (s₂.addEvent new) = view player eventId s := by
    intro s₂ hs hinv
    have hadd := getEvent_addEvent ((hs.getEvent eventId).trans hev) new
    rw [view_eq_iff (hadd.trans hev.symm)]
    exact congrArg _ hinv
  split
  next hann =>
    refine hview _ ?_ ?_
    · obtain ⟨hp, -, hevents⟩ := addInvite_pools s₁ new ⟨0, new.eventId, ObjectGuid.Empty, e.player.guid,
        DefaultStatusTime, StatusNotSignedUp, RankPlayer, ""⟩
      exact ⟨hevents, hp⟩
    · show (s₁.addInvite new _).getEventInvites eventId = _
      rw [getEventInvites_addInvite, if_neg (by rw [hann]; simp)]
      rfl
  split
  · rfl
  · exact hview _ (newInvites_sameEvents _ _ _ _) (getEventInvites_newInvites new (fun _ _ => hnew) _ s₁)

theorem view_handleCalendarCopyEvent (h : EventsPooled s) (hroom : s.eventIds.max + 2 < Limit)
    (hev : s.getEvent eventId = some event) (id : Nat) (eventTime : Int) :
    view player eventId (handleCalendarCopyEvent e s id eventTime) = view player eventId s := by
  unfold handleCalendarCopyEvent
  split
  · rfl
  split
  · rfl
  next oldEvent _ =>
  extract_lets details new s₁
  have hnew : new.eventId ≠ eventId := getFreeEventId_ne h hroom hev
  have hsame := newInvites_sameEvents new (fun (invite : CalendarInvite) id =>
    { invite with inviteId := id, eventId := new.eventId }) (s₁.getEventInvites id) s₁
  have hadd : s₁.getEvent eventId = some event := getEvent_addEvent (s := s.getFreeEventId.2) hev new
  rw [view_eq_iff ((hsame.getEvent eventId).trans (hadd.trans hev.symm))]
  exact congrArg _ (getEventInvites_newInvites new (fun _ _ => hnew) _ s₁)

theorem view_handleCalendarUpdateEvent (hev : s.getEvent eventId = some event) (id : Nat) (details : Details) :
    view player eventId (handleCalendarUpdateEvent e s id details) = view player eventId s ↔
      (inThePast details.eventTime e.gameTime = false → id = eventId →
        ∀ event, s.getEvent eventId = some event → event.details = details) := by
  unfold handleCalendarUpdateEvent
  split
  next hpast => exact ⟨fun _ hn => absurd hpast (by rw [hn]; exact Bool.false_ne_true), fun _ => rfl⟩
  next hpast =>
  by_cases hid : id = eventId
  · subst hid
    have hfind : (s.modifyEvent id fun event => { event with details := details }).getEvent id =
        some { event with details := details } :=
      (find?_modifyFirst (f := fun event : CalendarEvent => { event with details := details }) (fun _ => rfl)
        s.events).trans (congrArg (Option.map _) hev)
    rw [view, view, hfind, hev, Prod.mk.injEq, Option.some.injEq]
    constructor
    · rintro ⟨he, -⟩ - - _ ⟨⟩
      exact (congrArg CalendarEvent.details he).symm
    · intro h
      have hd := h (by simpa using hpast) rfl event rfl
      exact ⟨by rw [← hd], rfl⟩
  · refine ⟨fun _ _ he => absurd he hid, fun _ => ?_⟩
    have hfind : (s.modifyEvent id fun event => { event with details := details }).getEvent eventId =
        s.getEvent eventId := by
      refine find?_modifyFirst_of_disjoint (fun a ha => ?_) _
      have ha : a.eventId = id := of_decide_eq_true ha
      exact ⟨decide_eq_false (ha ▸ hid), decide_eq_false (ha ▸ hid)⟩
    rw [view_eq_iff hfind]
    rfl

theorem view_removeEvent (h : EventsPooled s) (hev : s.getEvent eventId = some event) (id : Nat) :
    view player eventId (s.removeEvent id) = view player eventId s ↔ id ≠ eventId := by
  unfold removeEvent
  cases hid : s.getEvent id with
  | none =>
    refine ⟨fun _ he => ?_, fun _ => rfl⟩
    rw [he, hev] at hid
    cases hid
  | some removed =>
    dsimp only
    rw [foldl_freeInviteId]
    obtain ⟨hmem, hrid⟩ := getEvent_mem hid
    have hnodup : (s.events.map (·.eventId)).Nodup := Multiset.coe_nodup.1 (Multiset.nodup_add.1 h.nodup).1
    constructor
    · rintro hview rfl
      rw [hev] at hid
      cases hid
      have hgone : (s.events.erase event).find? (·.eventId = id) = some event :=
        (congrArg Prod.fst hview).trans hev
      -- the id is the event's alone
      have hleft : event ∈ s.events.erase event := List.mem_of_find?_eq_some hgone
      exact (List.Nodup.not_mem_erase (List.Nodup.of_map _ hnodup)) hleft
    · intro hne
      have hfind : (s.events.erase removed).find? (·.eventId = eventId) = s.events.find? (·.eventId = eventId) :=
        find?_erase_of_disjoint (q := (·.eventId = eventId)) (decide_eq_false (hrid ▸ hne)) s.events
      refine Prod.ext hfind (congrArg (fun l => seen player (Option.getD l [])) ?_)
      exact OMap.find?_erase_of_ne (Ne.symm hne)

/-- A new invite of an event. -/
theorem view_newInvite (s : CalendarMgr) (event : CalendarEvent) {invite : Nat → CalendarInvite} {id : Nat}
    {invitee : ObjectGuid} (hi : ∀ i, (invite i).eventId = id ∧ (invite i).invitee = invitee) :
    view player eventId (s.newInvite event invite) = view player eventId s ↔
      (id = eventId → event.isGuildAnnouncement = false → invitee = player) := by
  obtain ⟨i, hget⟩ := getEventInvites_newInvite s event invite eventId
  rw [view_eq_iff ((newInvite_sameEvents s event invite).getEvent eventId), hget, (hi i).1]
  split
  next hk =>
    rw [seen, seen, map_filter_concat, (hi i).2]
    simp [hk]
  next hk =>
    refine ⟨fun _ he hann => absurd ⟨hann, he.symm⟩ hk, fun _ => rfl⟩

theorem view_handleCalendarEventInvite (hev : s.getEvent eventId = some event) (id inviteId : Nat)
    (invitee : Option Character) (ignored isPreInvite isGuildEvent : Bool) :
    view player eventId (handleCalendarEventInvite e s id inviteId invitee ignored isPreInvite isGuildEvent) =
        view player eventId s ↔
      (isPreInvite = false → id = eventId → ∀ c event, invitee = some c → mayInvite e c ignored = true →
        s.getEvent eventId = some event → (event.isGuildEvent && event.guildId = c.guildId) = false →
          event.isGuildAnnouncement = false → c.guid = player) := by
  unfold handleCalendarEventInvite
  cases invitee with
  | none => exact ⟨fun _ _ _ c event hc => (nomatch hc), fun _ => rfl⟩
  | some c =>
    dsimp only
    split
    next hmay =>
      refine ⟨fun _ _ _ c' event hc hm => ?_, fun _ => rfl⟩
      cases hc
      rw [hm] at hmay
      cases hmay
    next hmay =>
    have hmay : mayInvite e c ignored = true := by simpa using hmay
    cases isPreInvite with
    | true =>
      rw [if_neg (by simp)]
      refine ⟨fun _ hp => (nomatch hp), fun _ => ?_⟩
      split
      · rfl
      · rfl
    | false =>
      rw [if_pos Bool.not_false]
      cases hid : s.getEvent id with
      | none =>
        refine ⟨fun _ _ he => ?_, fun _ => rfl⟩
        rw [he, hev] at hid
        cases hid
      | some event' =>
        dsimp only
        split
        next hguild =>
          refine ⟨fun _ _ he c' event'' hc _ hget hg => ?_, fun _ => rfl⟩
          cases hc
          rw [← he, hid] at hget
          cases hget
          rw [hg] at hguild
          cases hguild
        next hguild =>
        rw [@view_newInvite _ _ s event' _ id c.guid fun _ => ⟨rfl, rfl⟩]
        constructor
        · rintro h - he c' event'' ⟨⟩ - hget - hann
          rw [← he, hid] at hget
          cases hget
          exact h he hann
        · intro h he hann
          exact h rfl he c event' rfl hmay (he ▸ hid) (by simpa using hguild) hann

theorem view_handleCalendarEventSignup (hby : e.player.guid = player) (id : Nat) (tentative : Bool) :
    view player eventId (handleCalendarEventSignup e s id tentative) = view player eventId s := by
  unfold handleCalendarEventSignup
  split
  · rfl
  split
  · rfl
  next event _ _ =>
  rw [@view_newInvite _ _ s event _ id e.player.guid fun _ => ⟨rfl, rfl⟩]
  exact fun _ _ => hby

theorem view_removeInvite (hev : s.getEvent eventId = some event) (inviteId id : Nat) :
    view player eventId (s.removeInvite inviteId id) = view player eventId s ↔
      (id = eventId → ∀ invite, (s.getEventInvites eventId).find? (·.inviteId = inviteId) = some invite →
        invite.invitee = player) := by
  unfold removeInvite
  cases hid : s.getEvent id with
  | none =>
    refine ⟨fun _ he => ?_, fun _ => rfl⟩
    rw [he, hev] at hid
    cases hid
  | some event' =>
    dsimp only
    cases hinv : (s.getEventInvites id).find? (·.inviteId = inviteId) with
    | none =>
      refine ⟨fun _ he invite hi => ?_, fun _ => rfl⟩
      rw [← he, hinv] at hi
      cases hi
    | some invite =>
      dsimp only
      let s₁ : CalendarMgr :=
        { s with invites := s.invites.insert id ((s.getEventInvites id).eraseP (·.inviteId = inviteId)) }
      show view player eventId (s₁.freeInviteId invite.inviteId) = view player eventId s ↔ _
      rw [view_eq_iff (show (s₁.freeInviteId invite.inviteId).getEvent eventId = s.getEvent eventId from rfl)]
      have hget := getEventInvites_insert s id eventId ((s.getEventInvites id).eraseP (·.inviteId = inviteId))
      by_cases hne : eventId = id
      · subst hne
        rw [if_pos rfl] at hget
        refine Iff.trans (by rw [← hget]; exact Iff.rfl) ((map_filter_eraseP _).trans ?_)
        constructor
        · intro h _ invite' hi
          simpa using h invite' hi
        · intro h invite' hi
          simpa using h rfl invite' hi
      · rw [if_neg hne] at hget
        exact ⟨fun _ he => absurd he.symm hne, fun _ => congrArg _ hget⟩

/-- A write to the invite that `GetInvite` finds, of its status or rank. -/
theorem view_modifyInvite {f : CalendarInvite → CalendarInvite}
    (hf : ∀ i, (f i).invitee = i.invitee ∧ (f i).inviteId = i.inviteId) (s : CalendarMgr) (inviteId : Nat) :
    view player eventId (s.modifyInvite inviteId f) = view player eventId s ↔
      ∀ invite, located s inviteId = some (eventId, invite) →
        invite.invitee = player ∨ (f invite).status = invite.status ∧ (f invite).rank = invite.rank := by
  rw [view_eq_iff ((modifyInvite_sameEvents s inviteId f).getEvent eventId)]
  rcases modifyInvite_eq s inviteId f with ⟨hnone, hs⟩ | ⟨k, invite, hloc, hfind, hget⟩
  · rw [hs, hnone]
    exact ⟨fun _ invite hi => (nomatch hi), fun _ => rfl⟩
  rw [hget eventId, hloc]
  by_cases hk : eventId = k
  · subst hk
    rw [if_pos rfl, seen, seen, map_filter_modifyFirst (fun a => by rw [(hf a).1]), hfind]
    constructor
    · rintro h _ ⟨⟩
      rw [or_iff_not_imp_left]
      intro hne
      have := h invite rfl (by simpa using hne)
      simp only [Prod.mk.injEq] at this
      exact this.2.2
    · rintro h _ ⟨⟩ hne
      have := (h invite rfl).resolve_left (by simpa using hne)
      simp only [(hf invite).1, (hf invite).2, this]
  · rw [if_neg hk]
    refine ⟨fun _ invite' hi => ?_, fun _ => rfl⟩
    cases hi
    exact absurd rfl hk

/-- An answer that is written changes only what it may exactly if it is the player's own, of an event that is not
locked, or nothing new. -/
theorem answers_iff {id inviteId status : Nat} (hp : e.packet = .eventRsvp id inviteId status) :
    Answers player e s ↔ ∀ event k invite, s.getEvent id = some event →
      (status = StatusRemoved ∨ event.isLocked = false) → located s inviteId = some (k, invite) →
        invite.status = status ∧ invite.statusTime = e.gameTime ∨
          invite.invitee = player ∧ (status = StatusRemoved ∨ ∀ event, s.getEvent k = some event → event.isLocked = false) := by
  have hhandle : handle e s = handleCalendarEventRsvp e s id inviteId status := by rw [handle, hp]
  have hanswers : Answers player e s ↔ ∀ (k i : Nat) (a b : CalendarInvite), (s.getEventInvites k)[i]? = some a →
      ((handleCalendarEventRsvp e s id inviteId status).getEventInvites k)[i]? = some b → a ≠ b →
        a.invitee = player ∧ (b.status = StatusRemoved ∨ ∀ event, s.getEvent k = some event → event.isLocked = false) := by
    rw [Answers, hhandle]
    exact ⟨fun h => h id inviteId status hp, fun h _ _ _ _ => h⟩
  rw [hanswers, handleCalendarEventRsvp]
  -- where nothing is written
  have hsame : ∀ (k i : Nat) (a b : CalendarInvite), (s.getEventInvites k)[i]? = some a →
      (s.getEventInvites k)[i]? = some b → a ≠ b →
        a.invitee = player ∧ (b.status = StatusRemoved ∨ ∀ event, s.getEvent k = some event → event.isLocked = false) := by
    intro k i a b ha hb hne
    rw [ha] at hb
    exact absurd (Option.some.inj hb) hne
  cases hev : s.getEvent id with
  | none => exact ⟨fun _ event _ _ he => (nomatch he), fun _ => hsame⟩
  | some event =>
    dsimp only
    split
    next hlock =>
      refine ⟨fun _ event' k invite he hor _ => ?_, fun _ => hsame⟩
      cases he
      rw [Bool.and_eq_true, decide_eq_true_eq] at hlock
      rcases hor with h | h
      · exact absurd h hlock.1
      · rw [h] at hlock
        cases hlock.2
    next hlock =>
    have hor : status = StatusRemoved ∨ event.isLocked = false := by
      rw [Bool.and_eq_true, decide_eq_true_eq, not_and, Bool.not_eq_true] at hlock
      exact or_iff_not_imp_left.2 hlock
    let f : CalendarInvite → CalendarInvite := fun invite => { invite with status := status, statusTime := e.gameTime }
    rcases modifyInvite_eq s inviteId f with ⟨hnone, hs⟩ | ⟨k, invite, hloc, hfind, hget⟩
    · rw [show (s.modifyInvite inviteId fun invite => { invite with status := status, statusTime := e.gameTime }) = s from hs,
        hnone]
      exact ⟨fun _ _ _ _ _ _ hl => (nomatch hl), fun _ => hsame⟩
    obtain ⟨i, hi, hi', hrest⟩ := getElem?_modifyFirst (f := f) hfind
    constructor
    · rintro h event' k' invite' ⟨⟩ - hloc'
      rw [hloc] at hloc'
      cases hloc'
      by_cases heq : invite = f invite
      · exact .inl ⟨congrArg CalendarInvite.status heq, congrArg CalendarInvite.statusTime heq⟩
      · have hb : ((s.modifyInvite inviteId f).getEventInvites k)[i]? = some (f invite) := by rw [hget, if_pos rfl, hi']
        exact .inr (h k i invite (f invite) hi hb heq)
    · intro h k' j a b ha hb hne
      have hb : ((s.modifyInvite inviteId f).getEventInvites k')[j]? = some b := hb
      rw [hget] at hb
      split at hb
      next hk =>
        by_cases hj : j = i
        · rw [hk, hj, hi] at ha
          rw [hj, hi'] at hb
          cases ha
          cases hb
          rcases h event k invite rfl hor hloc with ⟨h₁, h₂⟩ | h
          · refine absurd ?_ hne
            rw [show f invite = { invite with status := status, statusTime := e.gameTime } from rfl, ← h₁, ← h₂]
          · rw [hk]
            exact h
        · rw [hrest j hj, ← hk, ha] at hb
          exact absurd (Option.some.inj hb) hne
      next =>
      rw [ha] at hb
      exact absurd (Option.some.inj hb) hne

/-- What is asked of a packet: the view of the event stays, and an answer changes only what it may. -/
def Preserved (player : ObjectGuid) (eventId : Nat) (e : Sent) (s : CalendarMgr) : Prop :=
  view player eventId (handle e s) = view player eventId s ∧ Answers player e s

theorem preserved_iff_view (hp : ∀ id inviteId status, e.packet ≠ .eventRsvp id inviteId status) :
    Preserved player eventId e s ↔ view player eventId (handle e s) = view player eventId s :=
  and_iff_left fun id inviteId status he => absurd he (hp id inviteId status)

/-- A packet of the player keeps the event as it is seen exactly if it is harmless. -/
theorem preserved_iff_harmless (h : EventsPooled s) (hroom : s.eventIds.max + 2 < Limit)
    (hev : s.getEvent eventId = some event) (hby : e.player.guid = player) :
    Preserved player eventId e s ↔ Harmless player eventId e s := by
  obtain ⟨sender, gameTime, twoSide, packet⟩ := e
  cases packet with
  | addEvent details invitees =>
    rw [preserved_iff_view (by rintro _ _ _ ⟨⟩)]
    exact ⟨fun _ => trivial, fun _ => view_handleCalendarAddEvent h hroom hev details invitees⟩
  | updateEvent id details =>
    rw [preserved_iff_view (by rintro _ _ _ ⟨⟩)]
    exact view_handleCalendarUpdateEvent hev id details
  | removeEvent id =>
    rw [preserved_iff_view (by rintro _ _ _ ⟨⟩)]
    exact view_removeEvent h hev id
  | copyEvent id eventTime =>
    rw [preserved_iff_view (by rintro _ _ _ ⟨⟩)]
    exact ⟨fun _ => trivial, fun _ => view_handleCalendarCopyEvent h hroom hev id eventTime⟩
  | eventInvite id inviteId invitee ignored isPreInvite isGuildEvent =>
    rw [preserved_iff_view (by rintro _ _ _ ⟨⟩)]
    exact view_handleCalendarEventInvite hev id inviteId invitee ignored isPreInvite isGuildEvent
  | eventSignup id tentative =>
    rw [preserved_iff_view (by rintro _ _ _ ⟨⟩)]
    exact ⟨fun _ => trivial, fun _ => view_handleCalendarEventSignup hby id tentative⟩
  | eventRsvp id inviteId status =>
    have hans := @answers_iff s ⟨sender, gameTime, twoSide, .eventRsvp id inviteId status⟩ player id inviteId status rfl
    refine (and_iff_right_of_imp fun ha => ?_).trans hans
    have hok := hans.1 ha
    show view player eventId (handleCalendarEventRsvp _ _ _ _ _) = _
    unfold handleCalendarEventRsvp
    cases hid : s.getEvent id with
    | none => rfl
    | some event' =>
      dsimp only
      split
      · rfl
      next hlock =>
      refine (view_modifyInvite (f := fun invite => { invite with status := status, statusTime := gameTime })
        (fun _ => ⟨rfl, rfl⟩) s inviteId).2 fun invite hloc => ?_
      have hor : status = StatusRemoved ∨ event'.isLocked = false := by
        rw [Bool.and_eq_true, decide_eq_true_eq, not_and, Bool.not_eq_true] at hlock
        exact or_iff_not_imp_left.2 hlock
      rcases hok event' eventId invite hid hor hloc with hsame | hown
      · exact .inr ⟨hsame.1.symm, rfl⟩
      · exact .inl hown.1
  | eventRemoveInvite invitee inviteId id =>
    rw [preserved_iff_view (by rintro _ _ _ ⟨⟩)]
    show view player eventId (handleCalendarEventRemoveInvite _ _ _ _) = _ ↔ _
    unfold handleCalendarEventRemoveInvite
    cases hid : s.getEvent id with
    | none =>
      refine ⟨fun _ he => ?_, fun _ => rfl⟩
      rw [he, hev] at hid
      cases hid
    | some event' =>
      dsimp only
      split
      next hc =>
        refine ⟨fun _ he event'' invite hget hne => ?_, fun _ => rfl⟩
        rw [← he, hid] at hget
        cases hget
        exact absurd hc hne
      next hc =>
      rw [view_removeInvite hev]
      constructor
      · intro h he event'' invite _ _ hi
        exact h he invite hi
      · intro h he invite hi
        exact h he event' invite (he ▸ hid) hc hi
  | eventStatus id inviteId status =>
    rw [preserved_iff_view (by rintro _ _ _ ⟨⟩)]
    show view player eventId (handleCalendarEventStatus _ _ _ _) = _ ↔ _
    unfold handleCalendarEventStatus
    cases hid : s.getEvent id with
    | none => exact ⟨fun _ event' _ he => (nomatch hid.symm.trans he), fun _ => rfl⟩
    | some event' =>
      dsimp only
      refine (view_modifyInvite (f := fun invite => { invite with status := status }) (fun _ => ⟨rfl, rfl⟩) s inviteId).trans ?_
      constructor
      · intro h event'' invite _ hloc
        exact (h invite hloc).imp_right fun hs => hs.1.symm
      · intro h invite hloc
        exact (h event' invite hid hloc).imp_right fun hs => ⟨hs.symm, rfl⟩
  | eventModeratorStatus id inviteId rank =>
    rw [preserved_iff_view (by rintro _ _ _ ⟨⟩)]
    show view player eventId (handleCalendarEventModeratorStatus _ _ _ _) = _ ↔ _
    unfold handleCalendarEventModeratorStatus
    cases hid : s.getEvent id with
    | none => exact ⟨fun _ event' _ he => (nomatch hid.symm.trans he), fun _ => rfl⟩
    | some event' =>
      dsimp only
      refine (view_modifyInvite (f := fun invite => { invite with rank := rank }) (fun _ => ⟨rfl, rfl⟩) s inviteId).trans ?_
      constructor
      · intro h event'' invite _ hloc
        exact (h invite hloc).imp_right fun hs => hs.2.symm
      · intro h invite hloc
        exact (h event' invite hid hloc).imp_right fun hs => ⟨rfl, hs.symm⟩

/-! ## Runs -/

theorem max_addEvent (h : EventsPooled s) (hroom : s.eventIds.max + 2 < Limit) (details : Details)
    (invitees : Option (List (ObjectGuid × Nat × Nat))) :
    (handleCalendarAddEvent e s details invitees).eventIds.max ≤ s.eventIds.max + 1 := by
  obtain ⟨htake, hmax⟩ := IdPool.Holds.take h hroom
  unfold handleCalendarAddEvent
  split
  · exact Nat.le_succ _
  extract_lets event s₁
  have hs₁ : s₁.eventIds.max ≤ s.eventIds.max + 1 := hmax
  split
  · show (s₁.addInvite event _).eventIds.max ≤ _
    rw [(addInvite_pools s₁ event _).1]
    exact hs₁
  split
  · refine le_trans ?_ hs₁
    have hid : event.eventId = s.getFreeEventId.1 := newEvent_eventId _ _ _
    show (s₁.eventIds.release Limit event.eventId).max ≤ _
    rw [hid]
    exact htake.max_release
  show (CalendarMgr.eventIds (List.foldl _ _ _)).max ≤ _
  rw [(newInvites_sameEvents event _ _ s₁).pool]
  exact hs₁

theorem max_copyEvent (h : EventsPooled s) (hroom : s.eventIds.max + 2 < Limit) (id : Nat) (eventTime : Int) :
    (handleCalendarCopyEvent e s id eventTime).eventIds.max ≤ s.eventIds.max + 1 := by
  obtain ⟨-, hmax⟩ := IdPool.Holds.take h hroom
  unfold handleCalendarCopyEvent
  split
  · exact Nat.le_succ _
  split
  · exact Nat.le_succ _
  next oldEvent _ =>
  extract_lets details event s₁
  rw [(newInvites_sameEvents event (fun (invite : CalendarInvite) id =>
    { invite with inviteId := id, eventId := event.eventId }) _ s₁).pool]
  exact hmax

theorem max_removeEvent (h : EventsPooled s) (id : Nat) : (s.removeEvent id).eventIds.max ≤ s.eventIds.max := by
  unfold removeEvent
  cases hev : s.getEvent id with
  | none => exact le_refl _
  | some event =>
    dsimp only
    rw [foldl_freeInviteId]
    rw [EventsPooled, usedEventIds_erase (getEvent_mem hev).1] at h
    exact h.max_release

/-- One packet takes one event id at most. -/
theorem handle_max (h : EventsPooled s) (hroom : s.eventIds.max + 2 < Limit) :
    (handle e s).eventIds.max ≤ s.eventIds.max + 1 := by
  have hsame : ∀ {s'}, SameEvents s s' → s'.eventIds.max ≤ s.eventIds.max + 1 := by
    intro s' hs
    rw [hs.pool]
    exact Nat.le_succ _
  unfold handle
  split
  · exact max_addEvent h hroom _ _
  · unfold handleCalendarUpdateEvent
    split
    · exact Nat.le_succ _
    · exact Nat.le_succ _
  · exact (max_removeEvent h _).trans (Nat.le_succ _)
  · exact max_copyEvent h hroom _ _
  · exact hsame (handleCalendarEventInvite_sameEvents _ _ _ _ _ _ _ _)
  · exact hsame (handleCalendarEventSignup_sameEvents _ _ _ _)
  · unfold handleCalendarEventRsvp
    split
    · exact Nat.le_succ _
    split
    · exact Nat.le_succ _
    · exact hsame (modifyInvite_sameEvents _ _ _)
  · unfold handleCalendarEventRemoveInvite
    split
    · exact Nat.le_succ _
    split
    · exact Nat.le_succ _
    · exact hsame (removeInvite_sameEvents _ _ _)
  · unfold handleCalendarEventStatus
    split
    · exact Nat.le_succ _
    · exact hsame (modifyInvite_sameEvents _ _ _)
  · unfold handleCalendarEventModeratorStatus
    split
    · exact Nat.le_succ _
    · exact hsame (modifyInvite_sameEvents _ _ _)

/-- Where a run of the player's packets is, as long as the view of the event is the first one. -/
structure Viewed (player : ObjectGuid) (eventId : Nat) (first : CalendarMgr) (packets : List Sent) (s : CalendarMgr) : Prop where
  pooled : EventsPooled s
  room : s.eventIds.max + packets.length + 1 < Limit
  own : ∀ e ∈ packets, e.player.guid = player
  found : (s.getEvent eventId).isSome
  same : view player eventId s = view player eventId first

/-- What is asked of a packet, said of the first view. -/
theorem Viewed.preserved_iff (h : Viewed player eventId first (e :: packets) s) :
    view player eventId (handle e s) = view player eventId first ∧ Answers player e s ↔ Harmless player eventId e s := by
  have hroom := h.room
  rw [List.length_cons] at hroom
  obtain ⟨event, hev⟩ := Option.isSome_iff_exists.1 h.found
  have hiff := preserved_iff_harmless h.pooled (by omega) hev (h.own e List.mem_cons_self)
  rwa [Preserved, h.same] at hiff

theorem Viewed.next (h : Viewed player eventId first (e :: packets) s)
    (hharm : Harmless player eventId e s) : Viewed player eventId first packets (handle e s) := by
  have hroom := h.room
  rw [List.length_cons] at hroom
  have hroom' : s.eventIds.max + 2 < Limit := by omega
  have hnext := (h.preserved_iff.2 hharm).1
  have hmax := handle_max (e := e) h.pooled hroom'
  refine ⟨handle_events h.pooled hroom', by omega, fun e' he' => h.own e' (List.mem_cons_of_mem _ he'), ?_, hnext⟩
  have hget : (handle e s).getEvent eventId = s.getEvent eventId := congrArg Prod.fst (hnext.trans h.same.symm)
  rw [hget]
  exact h.found

/-- In every sequence of packets a player sends to a calendar that was reached, the event and the invites of others to
it stay as they were, and answers change only what they may, exactly if every packet is harmless where it arrives. -/
theorem calendar_untampered {events : List CalendarEvent} {invites : List CalendarInvite} (hrows : RowsOk events invites)
    (hreach : Reaches step (fun _ s => s.eventIds.max + 2 < Limit) (loadFromDB events invites) s)
    (hev : s.getEvent eventId = some event) (packets : List Sent) (hby : ∀ e ∈ packets, e.player.guid = player)
    (hroom : s.eventIds.max + packets.length + 1 < Limit) :
    Along handle (fun e s' => view player eventId (handle e s') = view player eventId s ∧ Answers player e s') packets s ↔
      Along handle (Harmless player eventId) packets s := by
  have hpooled : EventsPooled s := by
    refine hreach.invariant EventsPooled ?_ (loadFromDB_pooled hrows).1
    intro e a b ha hok hstep
    cases hstep
    exact handle_events ha hok
  exact along_congr (Viewed player eventId s) (fun _ _ _ h => h.preserved_iff) (fun _ _ _ h => h.next) packets
    ⟨hpooled, hroom, hby, by rw [hev]; rfl, rfl⟩

def raid : CalendarEvent := ⟨1, 1, 0, ⟨0, 0, 86400, 0, 0, "Raid", ""⟩⟩
def mastersInvite : CalendarInvite := ⟨1, 1, 1, 1, DefaultStatusTime, StatusSignedUp, RankOwner, ""⟩

def signUp : Sent := ⟨friend, 0, false, .eventSignup 1 false⟩
def tamper (packet : Packet) : Sent := ⟨friend, 0, false, packet⟩

theorem raid_rows : RowsOk [raid] [mastersInvite] := by
  constructor <;> decide

/-- A friend signs up to the master's raid. -/
theorem calendar_untampered_signUp :
    Along handle (fun e s' => view 2 1 (handle e s') = view 2 1 (loadFromDB [raid] [mastersInvite]) ∧ Answers 2 e s') [signUp]
        (loadFromDB [raid] [mastersInvite]) ↔
      Along handle (Harmless 2 1) [signUp] (loadFromDB [raid] [mastersInvite]) :=
  calendar_untampered raid_rows .refl (show _ = some raid from rfl) [signUp] (by decide) (by decide)

/-- Somebody who neither made the raid nor is invited to it changes it, has it removed, removes its maker's invite by
naming another invitee, changes its maker's answer, and takes his rank. -/
theorem calendar_tampered : (loadFromDB [raid] [mastersInvite]).getEvent 1 = some raid ∧ raid.creatorGUID ≠ 2 ∧
    (∀ invite ∈ (loadFromDB [raid] [mastersInvite]).getEventInvites 1, invite.invitee ≠ 2) ∧
    ∀ packet ∈ [Packet.updateEvent 1 ⟨0, 0, 86400, 0, 0, "No raid", ""⟩, .removeEvent 1, .eventRemoveInvite 9 1 1,
      .eventRsvp 1 1 StatusRemoved, .eventStatus 1 1 StatusRemoved, .eventModeratorStatus 1 1 RankPlayer],
      view 2 1 (handle (tamper packet) (loadFromDB [raid] [mastersInvite])) ≠ view 2 1 (loadFromDB [raid] [mastersInvite]) := by
  refine ⟨rfl, by decide, by decide, ?_⟩
  simp only [List.forall_mem_cons]
  refine ⟨?_, ?_, ?_, ?_, ?_, ?_, nofun⟩ <;> decide

end AtlasWow.Calendar
