/-
What is removed with a character: `RemoveAllPlayerEventsAndInvites`, and
`RemovePlayerGuildEventsAndSignups` for one who leaves his guild. Both walk
the set of events with an iterator while `RemoveEvent` erases from the set, so
they go wrong at the first event of the player (`removeEventsOf_mine`); without
one, they remove his invites (`removals_exact_iff`).
-/
import AtlasWow.Calendar.CalendarRights

namespace AtlasWow.Calendar

namespace CalendarMgr

/-- The loop over the events: `none` where `++itr` reads the element that `RemoveEvent` has erased. -/
def removeEventsOf (mine : CalendarEvent → Bool) : List CalendarEvent → CalendarMgr → Option CalendarMgr
  | [], s => some s
  | event :: rest, s =>
    if mine event then
      if s.getEvent event.eventId = some event then none
      -- another event of the same id is erased, before the iterator
      else removeEventsOf mine rest (s.removeEvent event.eventId)
    else removeEventsOf mine rest s

def getPlayerInvites (s : CalendarMgr) (guid : ObjectGuid) : List CalendarInvite :=
  s.storedInvites.filter (·.invitee = guid)

def removeAllPlayerEventsAndInvites (guid : ObjectGuid) (s : CalendarMgr) : Option CalendarMgr :=
  (removeEventsOf (·.creatorGUID = guid) s.events s).map fun s =>
    (s.getPlayerInvites guid).foldl (fun s invite => s.removeInvite invite.inviteId invite.eventId) s

/-- An event that goes when its creator leaves a guild. -/
def isGuildEventOf (guid : ObjectGuid) (event : CalendarEvent) : Bool :=
  event.creatorGUID = guid && (event.isGuildEvent || event.isGuildAnnouncement)

def removePlayerGuildEventsAndSignups (guid : ObjectGuid) (guildId : Nat) (s : CalendarMgr) : Option CalendarMgr :=
  (removeEventsOf (isGuildEventOf guid) s.events s).map fun s =>
    (s.getPlayerInvites guid).foldl (fun s invite =>
      match s.getEvent invite.eventId with
      | some calendarEvent =>
        if calendarEvent.isGuildEvent && calendarEvent.guildId = guildId then s.removeInvite invite.inviteId invite.eventId
        else s
      | none => s) s

end CalendarMgr

open CalendarMgr

variable {s s' : CalendarMgr} {guid : ObjectGuid} {guildId : Nat}

/-! ## Lists of which some elements are mine -/

section Lists

variable {α κ : Type} [DecidableEq κ] {id : α → κ} {p : α → Bool} {l calls : List α} {a : α}

/-- Calls that each erase the first element with their id. -/
def eraseCalls (id : α → κ) (calls l : List α) : List α := calls.foldl (fun l c => l.eraseP fun a => id a = id c) l

theorem countP_eraseCalls_le (calls : List α) : ∀ l, (eraseCalls id calls l).countP p ≤ l.countP p := by
  induction calls with
  | nil => exact fun l => Nat.le_refl _
  | cons c calls ih => exact fun l => (ih _).trans ((List.eraseP_sublist).countP_le)

/-- An element that no call names stays. -/
theorem eraseCalls_cons (h : ∀ c ∈ calls, id c ≠ id a) :
    ∀ l, eraseCalls id calls (a :: l) = a :: eraseCalls id calls l := by
  induction calls with
  | nil => exact fun l => rfl
  | cons c calls ih =>
    intro l
    have hc : id a ≠ id c := fun heq => h c List.mem_cons_self heq.symm
    have hstep : (a :: l).eraseP (fun a => id a = id c) = a :: l.eraseP fun a => id a = id c :=
      List.eraseP_cons_of_neg (by simpa using hc)
    show eraseCalls id calls ((a :: l).eraseP _) = a :: eraseCalls id calls (l.eraseP _)
    rw [hstep]
    exact ih (fun c hc => h c (List.mem_cons_of_mem _ hc)) _

/-- An element that a call names goes, unless another goes in its place. -/
theorem countP_eraseCalls_cons {c : α} (hc : c ∈ calls) (heq : id c = id a) :
    ∀ l, (eraseCalls id calls (a :: l)).countP p ≤ l.countP p := by
  induction calls with
  | nil => cases hc
  | cons c' calls ih =>
    intro l
    show (eraseCalls id calls ((a :: l).eraseP _)).countP p ≤ _
    by_cases hc' : id a = id c'
    · rw [List.eraseP_cons_of_pos (by simpa using hc')]
      exact countP_eraseCalls_le calls l
    rw [List.eraseP_cons_of_neg (by simpa using hc')]
    have hmem : c ∈ calls := (List.mem_cons.1 hc).resolve_left fun h => hc' (by rw [← heq, h])
    exact (ih hmem _).trans ((List.eraseP_sublist).countP_le)

/-- None of mine has the id of one of somebody else's before it. -/
def FirstAreMine (id : α → κ) (p : α → Bool) (l : List α) : Prop :=
  l.Pairwise fun b a => p a = true → id b = id a → p b = true

/-- That is exactly when calls for my elements remove them, and no others. -/
theorem eraseCalls_mine_iff : ∀ l : List α, eraseCalls id (l.filter p) l = l.filter (!p ·) ↔ FirstAreMine id p l
  | [] => ⟨fun _ => .nil, fun _ => rfl⟩
  | a :: l => by
    have ih := eraseCalls_mine_iff l
    rw [FirstAreMine, List.pairwise_cons]
    cases ha : p a with
    | true =>
      -- the first call is for the first element
      have hstep : eraseCalls id (a :: l.filter p) (a :: l) = eraseCalls id (l.filter p) l := by
        show eraseCalls id (l.filter p) ((a :: l).eraseP _) = _
        rw [List.eraseP_cons_of_pos (by simp)]
      rw [List.filter_cons_of_pos ha, hstep, List.filter_cons_of_neg (by simp [ha]), ih]
      exact ⟨fun h => ⟨fun b _ _ _ => rfl, h⟩, fun h => h.2⟩
    | false =>
      rw [List.filter_cons_of_neg (by simp [ha]), List.filter_cons_of_pos (by simp [ha])]
      constructor
      · intro h
        have hids : ∀ c ∈ l.filter p, id c ≠ id a := by
          intro c hc heq
          have hle := countP_eraseCalls_cons (p := (!p ·)) hc heq l
          rw [h, List.countP_cons_of_pos (by simp [ha]), List.countP_filter] at hle
          simp only [Bool.and_self] at hle
          omega
        rw [eraseCalls_cons hids, List.cons.injEq] at h
        refine ⟨fun b hb hp heq => absurd heq.symm (hids b (List.mem_filter.2 ⟨hb, hp⟩)), ih.1 h.2⟩
      · intro h
        obtain ⟨hfirst, hrest⟩ := h
        have hids : ∀ c ∈ l.filter p, id c ≠ id a := by
          intro c hc heq
          obtain ⟨hmem, hp⟩ := List.mem_filter.1 hc
          exact absurd (hfirst c hmem hp heq.symm) (by simp)
        rw [eraseCalls_cons hids, ih.2 hrest]

end Lists

/-! ## The loop over the events -/

theorem removeEvent_sublist (eventId : Nat) : (s.removeEvent eventId).events.Sublist s.events := by
  unfold CalendarMgr.removeEvent
  split
  next => exact List.Sublist.refl _
  next event _ =>
  dsimp only
  rw [foldl_freeInviteId]
  exact List.erase_sublist

theorem removeEventsOf_sublist {mine : CalendarEvent → Bool} : ∀ {l : List CalendarEvent} {s : CalendarMgr},
    removeEventsOf mine l s = some s' → s'.events.Sublist s.events
  | [], s, h => by
    cases h
    exact List.Sublist.refl _
  | event :: rest, s, h => by
    unfold removeEventsOf at h
    split at h
    next =>
      split at h
      next => cases h
      next => exact (removeEventsOf_sublist h).trans (removeEvent_sublist _)
    next => exact removeEventsOf_sublist h

variable {mine : CalendarEvent → Bool}

/-- Events of others are passed over. -/
theorem removeEventsOf_append {l₁ l₂ : List CalendarEvent}
    (h : ∀ event ∈ l₁, mine event = false) : removeEventsOf mine (l₁ ++ l₂) s = removeEventsOf mine l₂ s := by
  induction l₁ with
  | nil => rfl
  | cons event l₁ ih =>
    rw [List.cons_append, removeEventsOf, if_neg (by simp [h event List.mem_cons_self])]
    exact ih fun event hevent => h event (List.mem_cons_of_mem _ hevent)

theorem removeEventsOf_none (h : ∀ event ∈ s.events, mine event = false) : removeEventsOf mine s.events s = some s := by
  rw [← List.append_nil s.events, removeEventsOf_append h]
  rfl

/-- With an event of the player, the loop does not return, or it has removed one of somebody else. -/
theorem removeEventsOf_mine (hmine : ∃ event ∈ s.events, mine event = true)
    (h : removeEventsOf mine s.events s = some s') : s'.events.countP (!mine ·) < s.events.countP (!mine ·) := by
  obtain ⟨event, hevent⟩ := Option.isSome_iff_exists.1 (List.find?_isSome.2 hmine)
  obtain ⟨hfirst, l₁, l₂, hsplit, hothers⟩ := List.find?_eq_some_iff_append.1 hevent
  have hothers : ∀ event ∈ l₁, mine event = false := fun event hevent => by simpa using hothers event hevent
  rw [hsplit, removeEventsOf_append hothers, removeEventsOf, if_pos hfirst] at h
  have hget : s.getEvent event.eventId = (l₁.find? (·.eventId = event.eventId)).or (some event) := by
    rw [getEvent, hsplit, List.find?_append, List.find?_cons_of_pos (by simp)]
  split at h
  next => cases h
  next hother =>
  cases hfound : l₁.find? (·.eventId = event.eventId) with
  | none =>
    rw [hfound] at hget
    exact absurd hget hother
  | some other =>
    -- the other event has the id, and comes first
    have hmem := List.mem_of_find?_eq_some hfound
    have hget' : s.getEvent event.eventId = some other := by rw [hget, hfound, Option.some_or]
    have hremoved : (s.removeEvent event.eventId).events = s.events.erase other := by
      unfold CalendarMgr.removeEvent
      rw [hget']
      dsimp only
      rw [foldl_freeInviteId]
      rfl
    have hperm := List.perm_cons_erase (show other ∈ s.events from hsplit ▸ List.mem_append_left _ hmem)
    have hle := (removeEventsOf_sublist h).countP_le (p := (!mine ·))
    rw [hperm.countP_eq, List.countP_cons_of_pos (by simp [hothers other hmem])]
    rw [hremoved] at hle
    omega

/-! ## The invites -/

/-- Every invite is kept under the id of its event. -/
def Keyed (s : CalendarMgr) : Prop := ∀ k, ∀ invite ∈ s.getEventInvites k, invite.eventId = k

theorem flatMap_key {α : Type} (k : Nat) : ∀ {l : List (Nat × List α)}, (l.Pairwise fun p q => p.1 < q.1) →
    (l.flatMap fun e => if e.1 = k then e.2 else []) = (l.lookup k).getD []
  | [], _ => rfl
  | e :: l, h => by
    obtain ⟨hfirst, hrest⟩ := List.pairwise_cons.1 h
    rw [List.flatMap_cons, List.lookup_cons, flatMap_key k hrest]
    by_cases hk : e.1 = k
    · subst hk
      have hnone : l.lookup e.1 = none := by
        rw [List.lookup_eq_none_iff]
        intro q hq
        simpa using (hfirst q hq).ne
      rw [hnone, if_pos rfl]
      simp
    have hk' : (k == e.1) = false := by simpa using Ne.symm hk
    rw [if_neg hk, List.nil_append]
    simp [hk']

/-- The invites of a player for one event, in their order. -/
theorem getPlayerInvites_filter (h : Keyed s) (guid : ObjectGuid) (k : Nat) :
    (s.getPlayerInvites guid).filter (·.eventId = k) = (s.getEventInvites k).filter (·.invitee = guid) := by
  have hentries : (s.storedInvites.filter (·.eventId = k)) = s.getEventInvites k := by
    rw [storedInvites, List.filter_flatMap, getEventInvites, OMap.find?, ← flatMap_key k s.invites.sorted]
    refine List.flatMap_congr fun e he => ?_
    have hkey : ∀ invite ∈ e.2, invite.eventId = e.1 := by
      intro invite hinvite
      refine h e.1 invite ?_
      rwa [getEventInvites, OMap.mem_entries.1 he, Option.getD_some]
    split
    next hk => exact List.filter_eq_self.2 fun invite hinvite => by simpa using (hkey invite hinvite).trans hk
    next hk => exact List.filter_eq_nil_iff.2 fun invite hinvite => by simpa [hkey invite hinvite] using hk
  rw [getPlayerInvites, List.filter_filter, ← hentries, List.filter_filter]
  exact List.filter_congr fun invite _ => Bool.and_comm _ _

theorem getEventInvites_removeInvite (s : CalendarMgr) (inviteId eventId k : Nat) :
    (s.removeInvite inviteId eventId).getEventInvites k =
      if k = eventId ∧ (s.getEvent k).isSome then (s.getEventInvites k).eraseP (·.inviteId = inviteId)
      else s.getEventInvites k := by
  unfold CalendarMgr.removeInvite
  split
  next hnone =>
    rw [if_neg fun h => ?_]
    rw [h.1, hnone] at h
    cases h.2
  next event hevent =>
  split
  next hnone =>
    split
    next h =>
      rw [h.1, List.eraseP_of_forall_not fun invite hinvite => ?_]
      exact List.find?_eq_none.1 hnone invite hinvite
    next => rfl
  next invite hinvite =>
  refine (getEventInvites_insert s eventId k ((s.getEventInvites eventId).eraseP (·.inviteId = inviteId))).trans ?_
  by_cases hk : k = eventId
  · rw [hk, if_pos rfl, if_pos ⟨rfl, by rw [hevent]; rfl⟩]
  · rw [if_neg hk, if_neg fun h => hk h.1]

/-- Calls of `RemoveInvite`. -/
def removeInvites (calls : List CalendarInvite) (s : CalendarMgr) : CalendarMgr :=
  calls.foldl (fun s invite => s.removeInvite invite.inviteId invite.eventId) s

theorem removeInvites_spec (calls : List CalendarInvite) : ∀ s : CalendarMgr, SameEvents s (removeInvites calls s) ∧
    ∀ k, (removeInvites calls s).getEventInvites k =
      if (s.getEvent k).isSome then eraseCalls (·.inviteId) (calls.filter (·.eventId = k)) (s.getEventInvites k)
      else s.getEventInvites k := by
  induction calls with
  | nil => exact fun s => ⟨⟨rfl, rfl⟩, fun k => by split <;> rfl⟩
  | cons invite calls ih =>
    intro s
    have hone := removeInvite_sameEvents s invite.inviteId invite.eventId
    obtain ⟨hsame, hget⟩ := ih (s.removeInvite invite.inviteId invite.eventId)
    refine ⟨⟨hsame.events.trans hone.events, hsame.pool.trans hone.pool⟩, fun k => ?_⟩
    show (removeInvites calls (s.removeInvite invite.inviteId invite.eventId)).getEventInvites k = _
    rw [hget, hone.getEvent, getEventInvites_removeInvite]
    cases hevent : (s.getEvent k).isSome with
    | false => simp
    | true =>
      by_cases hk : k = invite.eventId
      · rw [if_pos rfl, if_pos rfl, if_pos ⟨hk, rfl⟩, List.filter_cons_of_pos (by simp [hk])]
        rfl
      · rw [if_pos rfl, if_pos rfl, if_neg fun h => hk h.1, List.filter_cons_of_neg (by simp [Ne.symm hk])]

/-- An event of the guild, to which members sign up. -/
def isEventOf (guildId : Nat) (event : CalendarEvent) : Bool := event.isGuildEvent && event.guildId = guildId

/-- The guild function passes over the invites for events that are not the guild's. -/
theorem foldl_guild_signups (calls : List CalendarInvite) : ∀ s : CalendarMgr,
    calls.foldl (fun s invite =>
      match s.getEvent invite.eventId with
      | some calendarEvent =>
        if calendarEvent.isGuildEvent && calendarEvent.guildId = guildId then s.removeInvite invite.inviteId invite.eventId
        else s
      | none => s) s =
    removeInvites (calls.filter fun invite => (s.getEvent invite.eventId).any (isEventOf guildId)) s := by
  induction calls with
  | nil => exact fun s => rfl
  | cons invite calls ih =>
    intro s
    rw [List.foldl_cons, List.filter_cons]
    cases hevent : s.getEvent invite.eventId with
    | none => exact ih s
    | some calendarEvent =>
      dsimp only
      rw [Option.any_some, isEventOf]
      split
      next =>
        rw [ih]
        simp only [(removeInvite_sameEvents s invite.inviteId invite.eventId).getEvent]
        rfl
      next => exact ih s

/-! ## What is removed -/

/-- All that is of the player is removed, with the invites for his events, and nothing else. -/
def RemovesExactly (guid : ObjectGuid) (s : CalendarMgr) : Prop :=
  ∃ s', s.removeAllPlayerEventsAndInvites guid = some s' ∧ s'.events = s.events.filter (·.creatorGUID ≠ guid) ∧
    ∀ k, s'.getEventInvites k =
      if s.events.any fun event => event.eventId = k && event.creatorGUID = guid then []
      else (s.getEventInvites k).filter (·.invitee ≠ guid)

/-- The same, for what is of the guild. -/
def RemovesGuildExactly (guid : ObjectGuid) (guildId : Nat) (s : CalendarMgr) : Prop :=
  ∃ s', s.removePlayerGuildEventsAndSignups guid guildId = some s' ∧
    s'.events = s.events.filter (fun event => !(isGuildEventOf guid event && event.guildId = guildId)) ∧
    ∀ k, s'.getEventInvites k =
      if s.events.any fun event => event.eventId = k && (isGuildEventOf guid event && event.guildId = guildId) then []
      else if (s.getEvent k).any (isEventOf guildId) then (s.getEventInvites k).filter (·.invitee ≠ guid)
      else s.getEventInvites k

/-- The player has created no event, and each of his invites is for an event that is there, with no invite of another player
and the same id before it. -/
structure Removable (guid : ObjectGuid) (s : CalendarMgr) : Prop where
  created : ∀ event ∈ s.events, event.creatorGUID ≠ guid
  known : ∀ k, ∀ invite ∈ s.getEventInvites k, invite.invitee = guid → (s.getEvent k).isSome = true
  ids : ∀ k, FirstAreMine (·.inviteId) (fun invite : CalendarInvite => invite.invitee = guid) (s.getEventInvites k)

/-- The player has created no guild event, and his invites for those of the guild have such ids. -/
structure GuildRemovable (guid : ObjectGuid) (guildId : Nat) (s : CalendarMgr) : Prop where
  created : ∀ event ∈ s.events, isGuildEventOf guid event = false
  ids : ∀ k event, s.getEvent k = some event → isEventOf guildId event = true →
    FirstAreMine (·.inviteId) (fun invite : CalendarInvite => invite.invitee = guid) (s.getEventInvites k)

/-- A player whose own events are gone in the end had none: the loop would not have come back. -/
theorem created_of {keep : CalendarEvent → Bool} (hkeep : ∀ event, mine event = false → keep event = true)
    (h : removeEventsOf mine s.events s = some s') (hevents : s'.events = s.events.filter keep) :
    ∀ event ∈ s.events, mine event = false := by
  by_contra hmine
  push Not at hmine
  obtain ⟨event, hevent, hmine⟩ := hmine
  have hlt := removeEventsOf_mine ⟨event, hevent, by simpa using hmine⟩ h
  rw [hevents, List.countP_filter] at hlt
  refine absurd hlt (Nat.not_lt.2 (List.countP_mono_left fun event _ hnot => ?_))
  have hfalse : mine event = false := by simpa using hnot
  simp [hfalse, hkeep event hfalse]

/-- A list of invites of which my own are called for. -/
theorem eraseCalls_player_iff (l : List CalendarInvite) :
    eraseCalls (·.inviteId) (l.filter (·.invitee = guid)) l = l.filter (·.invitee ≠ guid) ↔
      FirstAreMine (·.inviteId) (fun invite : CalendarInvite => invite.invitee = guid) l := by
  have hnot : (fun invite : CalendarInvite => decide (invite.invitee ≠ guid)) =
      fun invite => !decide (invite.invitee = guid) := funext fun invite => by simp
  rw [hnot]
  exact eraseCalls_mine_iff l

theorem removesExactly_iff (h : Keyed s) : RemovesExactly guid s ↔ Removable guid s := by
  have hstart (hcreated : ∀ event ∈ s.events, event.creatorGUID ≠ guid) :
      s.removeAllPlayerEventsAndInvites guid = some (removeInvites (s.getPlayerInvites guid) s) := by
    unfold removeAllPlayerEventsAndInvites
    rw [removeEventsOf_none fun event hevent => by simpa using hcreated event hevent]
    rfl
  have hnone (hcreated : ∀ event ∈ s.events, event.creatorGUID ≠ guid) (k : Nat) :
      (s.events.any fun event => event.eventId = k && event.creatorGUID = guid) = false := by
    rw [List.any_eq_false]
    intro event hevent
    simp [hcreated event hevent]
  obtain ⟨hsame, hget⟩ := removeInvites_spec (s.getPlayerInvites guid) s
  constructor
  · intro hexact
    obtain ⟨s', hs', hevents, hinvites⟩ := hexact
    have hcreated : ∀ event ∈ s.events, event.creatorGUID ≠ guid := by
      obtain ⟨s₁, hs₁, rfl⟩ := Option.map_eq_some_iff.1 hs'
      have hevents' : s₁.events = s.events.filter (·.creatorGUID ≠ guid) :=
        (removeInvites_spec (s₁.getPlayerInvites guid) s₁).1.events.symm.trans hevents
      intro event hevent
      simpa using created_of (fun event hfalse => by simpa using hfalse) hs₁ hevents' event hevent
    rw [hstart hcreated] at hs'
    cases hs'
    have hlist (k : Nat) : (if (s.getEvent k).isSome then
        eraseCalls (·.inviteId) ((s.getEventInvites k).filter (·.invitee = guid)) (s.getEventInvites k)
        else s.getEventInvites k) = (s.getEventInvites k).filter (·.invitee ≠ guid) := by
      rw [← getPlayerInvites_filter h, ← hget, hinvites, hnone hcreated, if_neg Bool.false_ne_true]
    refine ⟨hcreated, fun k invite hinvite hmine => ?_, fun k => ?_⟩
    · by_contra hunknown
      have hk := hlist k
      rw [if_neg hunknown] at hk
      rw [hk] at hinvite
      simpa [hmine] using (List.mem_filter.1 hinvite).2
    · have hk := hlist k
      split at hk
      next => exact (eraseCalls_player_iff _).1 hk
      next =>
      -- without an event, none of the list is his
      refine List.pairwise_of_forall_mem_list fun b _ a ha hmine => ?_
      rw [hk] at ha
      have hother := (List.mem_filter.1 ha).2
      simp only [decide_eq_true_eq] at hmine hother
      exact absurd hmine hother
  · intro hok
    refine ⟨_, hstart hok.created, ?_, fun k => ?_⟩
    · rw [hsame.events]
      exact (List.filter_eq_self.2 fun event hevent => by simpa using hok.created event hevent).symm
    · rw [hget, getPlayerInvites_filter h, hnone hok.created, if_neg Bool.false_ne_true]
      split
      next => exact (eraseCalls_player_iff _).2 (hok.ids k)
      next hunknown =>
      refine (List.filter_eq_self.2 fun invite hinvite => ?_).symm
      exact decide_eq_true fun hmine => hunknown (hok.known k invite hinvite hmine)

theorem removesGuildExactly_iff (h : Keyed s) : RemovesGuildExactly guid guildId s ↔ GuildRemovable guid guildId s := by
  have hstart (hcreated : ∀ event ∈ s.events, isGuildEventOf guid event = false) :
      s.removePlayerGuildEventsAndSignups guid guildId = some (removeInvites ((s.getPlayerInvites guid).filter
        fun invite => (s.getEvent invite.eventId).any (isEventOf guildId)) s) := by
    unfold removePlayerGuildEventsAndSignups
    rw [removeEventsOf_none hcreated, Option.map_some, foldl_guild_signups]
  have hnone (hcreated : ∀ event ∈ s.events, isGuildEventOf guid event = false) (k : Nat) :
      (s.events.any fun event => event.eventId = k && (isGuildEventOf guid event && event.guildId = guildId)) = false := by
    rw [List.any_eq_false]
    intro event hevent
    simp [hcreated event hevent]
  obtain ⟨hsame, hget⟩ := removeInvites_spec ((s.getPlayerInvites guid).filter
    fun invite => (s.getEvent invite.eventId).any (isEventOf guildId)) s
  -- the calls for one event are those for all of his invites, or none
  have hcalls (k : Nat) : ((s.getPlayerInvites guid).filter
      fun invite => (s.getEvent invite.eventId).any (isEventOf guildId)).filter (·.eventId = k) =
      if (s.getEvent k).any (isEventOf guildId) then (s.getEventInvites k).filter (·.invitee = guid) else [] := by
    rw [← getPlayerInvites_filter h, List.filter_filter]
    split
    next hguild =>
      refine List.filter_congr fun invite _ => ?_
      by_cases hk : invite.eventId = k <;> simp [hk, hguild]
    next hguild =>
    refine List.filter_eq_nil_iff.2 fun invite _ => ?_
    by_cases hk : invite.eventId = k <;> simp [hk, hguild]
  have hlist (k : Nat) : (removeInvites ((s.getPlayerInvites guid).filter
      fun invite => (s.getEvent invite.eventId).any (isEventOf guildId)) s).getEventInvites k =
      if (s.getEvent k).any (isEventOf guildId) then
        eraseCalls (·.inviteId) ((s.getEventInvites k).filter (·.invitee = guid)) (s.getEventInvites k)
      else s.getEventInvites k := by
    rw [hget, hcalls]
    cases hevent : s.getEvent k with
    | none => simp
    | some event =>
      rw [Option.isSome_some, if_pos rfl]
      split <;> rfl
  constructor
  · intro hexact
    obtain ⟨s', hs', hevents, hinvites⟩ := hexact
    have hcreated : ∀ event ∈ s.events, isGuildEventOf guid event = false := by
      obtain ⟨s₁, hs₁, rfl⟩ := Option.map_eq_some_iff.1 hs'
      rw [foldl_guild_signups] at hevents
      have hevents' := (removeInvites_spec _ s₁).1.events.symm.trans hevents
      exact created_of (fun event hfalse => by simp [hfalse]) hs₁ hevents'
    rw [hstart hcreated] at hs'
    cases hs'
    refine ⟨hcreated, fun k event hevent hguild => ?_⟩
    have hk := hinvites k
    rw [hlist, hnone hcreated, if_neg Bool.false_ne_true, hevent, Option.any_some, if_pos hguild, if_pos hguild] at hk
    exact (eraseCalls_player_iff _).1 hk
  · intro hok
    refine ⟨_, hstart hok.created, ?_, fun k => ?_⟩
    · rw [hsame.events]
      exact (List.filter_eq_self.2 fun event hevent => by simp [hok.created event hevent]).symm
    · rw [hlist, hnone hok.created, if_neg Bool.false_ne_true]
      split
      next hguild =>
        obtain ⟨event, hevent, hguild⟩ := Option.any_eq_true _ _ |>.1 hguild
        exact (eraseCalls_player_iff _).2 (hok.ids k event hevent hguild)
      next => rfl

/-! ## Every calendar is keyed -/

theorem Keyed.of_subset (h : Keyed s) (hsub : ∀ k, ∀ invite ∈ s'.getEventInvites k, invite.eventId = k ∨
    invite ∈ s.getEventInvites k) : Keyed s' := fun k invite hinvite =>
  (hsub k invite hinvite).elim id fun hmem => h k invite hmem

theorem Keyed.newInvite (h : Keyed s) (event : CalendarEvent) (invite : Nat → CalendarInvite) :
    Keyed (s.newInvite event invite) := by
  refine h.of_subset fun k i hi => ?_
  obtain ⟨id, hget⟩ := getEventInvites_newInvite s event invite k
  rw [hget] at hi
  split at hi
  next hk =>
    rcases List.mem_append.1 hi with hi | hi
    · exact .inr hi
    · exact .inl ((List.mem_singleton.1 hi) ▸ hk.2.symm)
  next => exact .inr hi

theorem Keyed.newInvites {α : Type} (event : CalendarEvent) (invite : α → Nat → CalendarInvite) (l : List α) :
    ∀ {s : CalendarMgr}, Keyed s → Keyed (l.foldl (fun s a => s.newInvite event (invite a)) s) := by
  induction l with
  | nil => exact fun h => h
  | cons a l ih => exact fun h => ih (h.newInvite event (invite a))

theorem Keyed.removeInvite (h : Keyed s) (inviteId eventId : Nat) : Keyed (s.removeInvite inviteId eventId) := by
  refine h.of_subset fun k i hi => .inr ?_
  rw [getEventInvites_removeInvite] at hi
  split at hi
  next => exact List.mem_of_mem_eraseP hi
  next => exact hi

theorem Keyed.removeEvent (h : Keyed s) (eventId : Nat) : Keyed (s.removeEvent eventId) := by
  unfold CalendarMgr.removeEvent
  split
  next => exact h
  next event _ =>
  dsimp only
  rw [foldl_freeInviteId]
  refine h.of_subset fun k i hi => .inr ?_
  change i ∈ ((s.invites.erase eventId).find? k).getD [] at hi
  rw [OMap.find?_erase] at hi
  split at hi
  next => exact absurd hi List.not_mem_nil
  next => exact hi

theorem mem_modifyFirst {α : Type} {p : α → Bool} {f : α → α} {a : α} : ∀ {l : List α}, a ∈ modifyFirst p f l →
    a ∈ l ∨ ∃ b ∈ l, a = f b
  | [], h => .inl h
  | b :: l, h => by
    unfold modifyFirst at h
    split at h
    next =>
      rcases List.mem_cons.1 h with rfl | h
      · exact .inr ⟨b, List.mem_cons_self, rfl⟩
      · exact .inl (List.mem_cons_of_mem _ h)
    next =>
    rcases List.mem_cons.1 h with rfl | h
    · exact .inl List.mem_cons_self
    refine (mem_modifyFirst h).imp (List.mem_cons_of_mem _) fun hb => ?_
    obtain ⟨c, hc, rfl⟩ := hb
    exact ⟨c, List.mem_cons_of_mem _ hc, rfl⟩

theorem Keyed.modifyInvite (h : Keyed s) (inviteId : Nat) {f : CalendarInvite → CalendarInvite}
    (hf : ∀ invite, (f invite).eventId = invite.eventId) : Keyed (s.modifyInvite inviteId f) := by
  rcases modifyInvite_eq s inviteId f with ⟨-, hsame⟩ | ⟨k, invite, -, -, hget⟩
  · rw [hsame]
    exact h
  intro k' i hi
  rw [hget] at hi
  split at hi
  next hk =>
    rcases mem_modifyFirst hi with hmem | ⟨b, hb, rfl⟩
    · rw [h k i hmem, hk]
    · rw [hf, h k b hb, hk]
  next => exact h k' i hi

theorem Keyed.addInvite (h : Keyed s) (event : CalendarEvent) (invite : CalendarInvite) :
    Keyed (s.addInvite event invite) := by
  refine h.of_subset fun k i hi => ?_
  rw [getEventInvites_addInvite] at hi
  split at hi
  next hk =>
    rcases List.mem_append.1 hi with hi | hi
    · exact .inr hi
    · exact .inl ((List.mem_singleton.1 hi) ▸ hk.2.symm)
  next => exact .inr hi

theorem Keyed.handle (h : Keyed s) (e : Sent) : Keyed (handle e s) := by
  unfold AtlasWow.Calendar.handle
  split
  next details invitees _ =>
    unfold handleCalendarAddEvent
    split
    next => exact h
    next =>
    extract_lets event s₁
    have h₁ : Keyed s₁ := h
    split
    next => exact h₁.addInvite event _
    next =>
    split
    next => exact h
    next invitees => exact Keyed.newInvites event _ _ h₁
  next eventId details _ =>
    unfold handleCalendarUpdateEvent
    split
    next => exact h
    next => exact h
  next eventId _ => exact h.removeEvent eventId
  next eventId eventTime _ =>
    unfold handleCalendarCopyEvent
    split
    next => exact h
    next =>
    split
    next => exact h
    next oldEvent _ =>
    extract_lets details event s₁
    have h₁ : Keyed s₁ := h
    exact Keyed.newInvites event _ _ h₁
  next eventId inviteId invitee ignored isPreInvite isGuildEvent _ =>
    unfold handleCalendarEventInvite
    split
    next => exact h
    next =>
    split
    next => exact h
    next =>
    split
    next =>
      split
      next => exact h
      next =>
      split
      next => exact h
      next => exact h.newInvite _ _
    next =>
    split
    next => exact h
    next => exact h
  next eventId tentative _ =>
    unfold handleCalendarEventSignup
    split
    next => exact h
    next =>
    split
    next => exact h
    next => exact h.newInvite _ _
  next eventId inviteId status _ =>
    unfold handleCalendarEventRsvp
    split
    next => exact h
    next =>
    split
    next => exact h
    next => exact h.modifyInvite inviteId fun _ => rfl
  next invitee inviteId eventId _ =>
    unfold handleCalendarEventRemoveInvite
    split
    next => exact h
    next =>
    split
    next => exact h
    next => exact h.removeInvite inviteId eventId
  next eventId inviteId status _ =>
    unfold handleCalendarEventStatus
    split
    next => exact h
    next => exact h.modifyInvite inviteId fun _ => rfl
  next eventId inviteId rank _ =>
  unfold handleCalendarEventModeratorStatus
  split
  next => exact h
  next => exact h.modifyInvite inviteId fun _ => rfl

theorem keyed_loadFromDB (events : List CalendarEvent) (invites : List CalendarInvite) : Keyed (loadFromDB events invites) := by
  have hload : ∀ (l : List CalendarInvite) (s : CalendarMgr), Keyed s → Keyed { s with
      invites := l.foldl (fun m invite => m.insert invite.eventId ((m.find? invite.eventId).getD [] ++ [invite]))
        s.invites } := by
    intro l
    induction l with
    | nil => exact fun s h => h
    | cons invite l ih =>
      intro s h
      exact ih _ (h.addInvite ⟨0, 0, 0, ⟨0, 0, 0, 0, 0, "", ""⟩⟩ invite)
  exact hload invites {} fun k invite hinvite => absurd hinvite List.not_mem_nil

/-- Whatever packets come, an invite stays under the id of its event. -/
theorem keyed_reached {events : List CalendarEvent} {invites : List CalendarInvite}
    (h : Reaches step (fun _ _ => True) (loadFromDB events invites) s) : Keyed s := by
  refine h.invariant Keyed (fun e a b ha _ hstep => ?_) (keyed_loadFromDB events invites)
  cases hstep
  exact ha.handle e

theorem keyed_reached_raids : ∃ s, runSteps step [signUp, addRaid] (loadFromDB [raid] [mastersInvite]) = some s ∧
    s.storedInvites.length = 3 ∧ Keyed s :=
  ⟨_, rfl, by decide, keyed_reached (@Reaches.of_runSteps _ _ step _ [signUp, addRaid] _ rfl)⟩

/-! ## A character is deleted -/

/-- Both functions remove exactly what they are to remove when the player has created nothing of the kind, and his invites
are found by their ids. -/
theorem removals_exact_iff (h : Keyed s) (guid : ObjectGuid) (guildId : Nat) :
    (RemovesExactly guid s ↔ Removable guid s) ∧ (RemovesGuildExactly guid guildId s ↔ GuildRemovable guid guildId s) :=
  ⟨removesExactly_iff h, removesGuildExactly_iff h⟩

/-- The raid of player 1, to which player 2 is invited. -/
def raidInvites : List CalendarInvite := [mastersInvite, ⟨2, 1, 2, 1, DefaultStatusTime, StatusInvited, RankPlayer, ""⟩]

theorem removals_exact_guest :
    (RemovesExactly 2 (loadFromDB [raid] raidInvites) ↔ Removable 2 (loadFromDB [raid] raidInvites)) ∧
    (RemovesGuildExactly 2 7 (loadFromDB [raid] raidInvites) ↔ GuildRemovable 2 7 (loadFromDB [raid] raidInvites)) :=
  removals_exact_iff (keyed_loadFromDB [raid] raidInvites) 2 7

/-- The player 1 is deleted: the iterator stands on his raid when that is erased. -/
theorem removal_of_creator : (loadFromDB [raid] raidInvites).removeAllPlayerEventsAndInvites 1 = none ∧
    ¬ ∀ (s : CalendarMgr) (guid : ObjectGuid), Keyed s → RemovesExactly guid s := by
  have hnone : (loadFromDB [raid] raidInvites).removeAllPlayerEventsAndInvites 1 = none := by decide
  refine ⟨hnone, fun h => ?_⟩
  obtain ⟨s', hs', -⟩ := h _ 1 (keyed_loadFromDB [raid] raidInvites)
  rw [hnone] at hs'
  cases hs'

end AtlasWow.Calendar
