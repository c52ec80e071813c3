/-
Calendar ids are unique in every run in which no invite on a handler's stack
is destroyed with an id that is not spare: no guild announcement is made, and
a pre-invite names only an id that nobody has.
-/
import AtlasWow.Calendar.CalendarMgr
import AtlasWow.Lib.Totals
import Mathlib.Algebra.Order.Group.Multiset

namespace AtlasWow.Calendar

open CalendarMgr

variable {s s' : CalendarMgr} {e : Sent} {event : CalendarEvent} {invite : CalendarInvite} {k id inviteId eventId : Nat}

/-! ## Ids in use -/

def usedEventIds (s : CalendarMgr) : Multiset Nat := ↑(s.events.map (·.eventId))
def usedInviteIds (s : CalendarMgr) : Multiset Nat := ↑(s.storedInvites.map (·.inviteId))

/-- A pool holds the ids of what is stored. -/
def EventsPooled (s : CalendarMgr) : Prop := s.eventIds.Holds Limit (usedEventIds s)
def InvitesPooled (s : CalendarMgr) : Prop := s.inviteIds.Holds Limit (usedInviteIds s)

/-- The ids of a list of invites. -/
def idsOf (l : List CalendarInvite) : Multiset Nat := ↑(l.map (·.inviteId))

theorem usedInviteIds_eq (s : CalendarMgr) : usedInviteIds s = s.invites.total fun _ l => idsOf l := by
  unfold usedInviteIds storedInvites OMap.total
  induction s.invites.entries with
  | nil => rfl
  | cons entry entries ih =>
    rw [List.flatMap_cons, List.map_append, ← Multiset.coe_add, ih, List.map_cons, List.sum_cons]
    rfl

/-- What an event's invites and the others use. -/
theorem usedInviteIds_erase (s : CalendarMgr) (k : Nat) : usedInviteIds s =
    idsOf (s.getEventInvites k) + usedInviteIds { s with invites := s.invites.erase k } := by
  rw [usedInviteIds_eq, usedInviteIds_eq, getEventInvites]
  cases hk : s.invites.find? k with
  | none => rw [OMap.erase_of_none hk]; exact (zero_add _).symm
  | some l => exact OMap.total_erase hk _

theorem usedInviteIds_insert (s : CalendarMgr) (k : Nat) (l : List CalendarInvite) :
    usedInviteIds { s with invites := s.invites.insert k l } =
      idsOf l + usedInviteIds { s with invites := s.invites.erase k } := by
  rw [usedInviteIds_eq, usedInviteIds_eq]
  exact OMap.total_insert _ _ _ _

/-- Another list of invites of an event, with the same ids. -/
theorem usedInviteIds_replace {l : List CalendarInvite} (h : idsOf l = idsOf (s.getEventInvites k)) :
    usedInviteIds { s with invites := s.invites.insert k l } = usedInviteIds s := by
  rw [usedInviteIds_insert, usedInviteIds_erase s k, h]

theorem usedInviteIds_addInvite (hann : event.isGuildAnnouncement = false) (s : CalendarMgr) (invite : CalendarInvite) :
    usedInviteIds (s.addInvite event invite) = invite.inviteId ::ₘ usedInviteIds s := by
  have hids : idsOf (s.getEventInvites invite.eventId ++ [invite]) =
      invite.inviteId ::ₘ idsOf (s.getEventInvites invite.eventId) := by
    rw [idsOf, idsOf, List.map_append, ← Multiset.coe_add, Multiset.add_comm]
    rfl
  rw [addInvite, hann, Bool.not_false, if_pos rfl, usedInviteIds_insert, hids, Multiset.cons_add,
    ← usedInviteIds_erase s invite.eventId]

theorem addInvite_pools (s : CalendarMgr) (event : CalendarEvent) (invite : CalendarInvite) :
    (s.addInvite event invite).eventIds = s.eventIds ∧ (s.addInvite event invite).inviteIds = s.inviteIds ∧
      (s.addInvite event invite).events = s.events := by
  unfold addInvite
  split
  · exact ⟨rfl, rfl, rfl⟩
  · exact ⟨rfl, rfl, rfl⟩

/-- A new invite has an id of the pool. -/
theorem InvitesPooled.newInvite (h : InvitesPooled s) {invite : Nat → CalendarInvite}
    (hid : ∀ id, (invite id).inviteId = id) (hroom : s.inviteIds.max + 2 < Limit) :
    InvitesPooled (s.newInvite event invite) ∧ (s.newInvite event invite).inviteIds.max ≤ s.inviteIds.max + 1 := by
  obtain ⟨htake, hmax⟩ := IdPool.Holds.take h hroom
  obtain ⟨-, hi, -⟩ := addInvite_pools s.getFreeInviteId.2 event (invite s.getFreeInviteId.1)
  rw [InvitesPooled, CalendarMgr.newInvite, hi]
  refine ⟨?_, hmax⟩
  cases hann : event.isGuildAnnouncement with
  | false =>
    rw [usedInviteIds_addInvite hann, hid]
    exact htake
  | true =>
    -- not stored: the id is lost
    rw [addInvite, hann, Bool.not_true, if_neg Bool.false_ne_true]
    exact htake.forget

theorem InvitesPooled.newInvites {α : Type} (invite : α → Nat → CalendarInvite)
    (hid : ∀ a id, (invite a id).inviteId = id) :
    ∀ (l : List α) {s : CalendarMgr}, InvitesPooled s → s.inviteIds.max + l.length + 1 < Limit →
      InvitesPooled (l.foldl (fun s a => s.newInvite event (invite a)) s)
  | [], _, h, _ => h
  | a :: l, s, h, hroom => by
    rw [List.length_cons] at hroom
    obtain ⟨h', hmax⟩ := @InvitesPooled.newInvite s event h (invite a) (hid a) (by omega)
    exact InvitesPooled.newInvites invite hid l h' (by dsimp only; omega)

/-! ## What leaves the events alone -/

structure SameEvents (s s' : CalendarMgr) : Prop where
  events : s'.events = s.events
  pool : s'.eventIds = s.eventIds

theorem SameEvents.pooled (hs : SameEvents s s') (h : EventsPooled s) : EventsPooled s' := by
  rw [EventsPooled, usedEventIds, hs.events, hs.pool]
  exact h

theorem newInvite_sameEvents (s : CalendarMgr) (event : CalendarEvent) (invite : Nat → CalendarInvite) :
    SameEvents s (s.newInvite event invite) := by
  obtain ⟨he, -, hevents⟩ := addInvite_pools s.getFreeInviteId.2 event (invite s.getFreeInviteId.1)
  exact ⟨hevents, he⟩

theorem newInvites_sameEvents {α : Type} (event : CalendarEvent) (invite : α → Nat → CalendarInvite) (l : List α) :
    ∀ s : CalendarMgr, SameEvents s (l.foldl (fun s a => s.newInvite event (invite a)) s) := by
  induction l with
  | nil => exact fun s => ⟨rfl, rfl⟩
  | cons a l ih =>
    intro s
    obtain ⟨he, hp⟩ := newInvite_sameEvents s event (invite a)
    obtain ⟨he', hp'⟩ := ih (s.newInvite event (invite a))
    exact ⟨he'.trans he, hp'.trans hp⟩

theorem removeInvite_sameEvents (s : CalendarMgr) (inviteId eventId : Nat) : SameEvents s (s.removeInvite inviteId eventId) := by
  unfold removeInvite
  split
  · exact ⟨rfl, rfl⟩
  split
  · exact ⟨rfl, rfl⟩
  · exact ⟨rfl, rfl⟩

theorem modifyInvite_sameEvents (s : CalendarMgr) (inviteId : Nat) (f : CalendarInvite → CalendarInvite) :
    SameEvents s (s.modifyInvite inviteId f) := by
  unfold modifyInvite
  split
  · exact ⟨rfl, rfl⟩
  · exact ⟨rfl, rfl⟩

/-! ## What is removed -/

theorem foldl_freeInviteId (l : List CalendarInvite) (s : CalendarMgr) :
    l.foldl (fun s invite => s.freeInviteId invite.inviteId) s =
      { s with inviteIds := l.foldl (fun pool invite => pool.release Limit invite.inviteId) s.inviteIds } := by
  induction l generalizing s with
  | nil => rfl
  | cons invite l ih => rw [List.foldl_cons, ih, List.foldl_cons]; rfl

theorem holds_releases {used : Multiset Nat} : ∀ {l : List CalendarInvite} {pool : IdPool},
    pool.Holds Limit (idsOf l + used) →
      (l.foldl (fun pool invite => pool.release Limit invite.inviteId) pool).Holds Limit used
  | [], _, h => by simpa [idsOf] using h
  | invite :: l, pool, h => by
    have hcons : idsOf (invite :: l) + used = invite.inviteId ::ₘ (idsOf l + used) := by
      rw [idsOf, List.map_cons, ← Multiset.cons_coe, Multiset.cons_add, idsOf]
    rw [hcons] at h
    rw [List.foldl_cons]
    exact holds_releases h.release

theorem getEvent_mem (h : s.getEvent eventId = some event) : event ∈ s.events ∧ event.eventId = eventId :=
  ⟨List.mem_of_find?_eq_some h, by simpa using List.find?_some h⟩

theorem usedEventIds_erase (hev : event ∈ s.events) :
    usedEventIds s = event.eventId ::ₘ ↑((s.events.erase event).map (·.eventId)) := by
  rw [usedEventIds, Multiset.cons_coe, Multiset.coe_eq_coe]
  exact (List.perm_cons_erase hev).map _

theorem EventsPooled.removeEvent (h : EventsPooled s) (eventId : Nat) : EventsPooled (s.removeEvent eventId) := by
  unfold CalendarMgr.removeEvent
  cases hev : s.getEvent eventId with
  | none => exact h
  | some event =>
    rw [EventsPooled, usedEventIds_erase (getEvent_mem hev).1] at h
    dsimp only
    rw [foldl_freeInviteId]
    exact h.release

theorem InvitesPooled.removeEvent (h : InvitesPooled s) (eventId : Nat) : InvitesPooled (s.removeEvent eventId) := by
  unfold CalendarMgr.removeEvent
  cases hev : s.getEvent eventId with
  | none => exact h
  | some event =>
    rw [InvitesPooled, usedInviteIds_erase s eventId] at h
    dsimp only
    rw [foldl_freeInviteId]
    exact holds_releases h

theorem InvitesPooled.removeInvite (h : InvitesPooled s) (inviteId eventId : Nat) :
    InvitesPooled (s.removeInvite inviteId eventId) := by
  unfold CalendarMgr.removeInvite
  cases s.getEvent eventId with
  | none => exact h
  | some event =>
    dsimp only
    cases hinv : (s.getEventInvites eventId).find? (·.inviteId = inviteId) with
    | none => exact h
    | some invite =>
      have hmem := List.mem_of_find?_eq_some hinv
      have hid : invite.inviteId = inviteId := by simpa using List.find?_some hinv
      have hperm : idsOf (s.getEventInvites eventId) =
          invite.inviteId ::ₘ idsOf ((s.getEventInvites eventId).eraseP (·.inviteId = inviteId)) := by
        obtain ⟨a, l₁, l₂, -, ha, hl, he⟩ := List.exists_of_eraseP (p := (·.inviteId = inviteId)) hmem (by simpa using hid)
        have ha : a.inviteId = invite.inviteId := by rw [hid]; simpa using ha
        rw [he, hl, idsOf, idsOf, List.map_append, List.map_cons, List.map_append, ha, Multiset.cons_coe,
          Multiset.coe_eq_coe]
        exact List.perm_middle
      rw [InvitesPooled, usedInviteIds_erase s eventId, hperm, Multiset.cons_add, ← usedInviteIds_insert] at h
      exact h.release

/-! ## What is changed -/

theorem map_modifyFirst {α β : Type} {p : α → Bool} {f : α → α} {g : α → β} (hg : ∀ a, g (f a) = g a) (l : List α) :
    (modifyFirst p f l).map g = l.map g := by
  induction l with
  | nil => rfl
  | cons a l ih =>
    unfold modifyFirst
    split
    · rw [List.map_cons, List.map_cons, hg]
    · rw [List.map_cons, List.map_cons, ih]

theorem EventsPooled.modifyEvent (h : EventsPooled s) {f : CalendarEvent → CalendarEvent}
    (hf : ∀ event, (f event).eventId = event.eventId) : EventsPooled (s.modifyEvent eventId f) := by
  rw [EventsPooled, usedEventIds, CalendarMgr.modifyEvent, map_modifyFirst hf]
  exact h

theorem InvitesPooled.modifyInvite (h : InvitesPooled s) {f : CalendarInvite → CalendarInvite}
    (hf : ∀ invite, (f invite).inviteId = invite.inviteId) : InvitesPooled (s.modifyInvite inviteId f) := by
  unfold CalendarMgr.modifyInvite
  split
  · exact h
  next entry hfind =>
  have hget : s.getEventInvites entry.1 = entry.2 := by
    rw [getEventInvites, OMap.mem_entries.1 (List.mem_of_find?_eq_some hfind), Option.getD_some]
  rw [InvitesPooled, usedInviteIds_replace (by rw [hget, idsOf, map_modifyFirst hf, idsOf])]
  exact h

end AtlasWow.Calendar
