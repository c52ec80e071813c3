/-
Runs of requests to one custom channel, from before it is made: in which of
them its owner is a proper one and members are safe from those without a right.
-/
import AtlasWow.Chat.ChannelOwner

namespace AtlasWow.Chat

open Channel

variable {c c' : Channel} {channel channel' : Option Channel} {connected : Connected} {player : Player} {e : Event}

/-- Ownership is enabled, also by the row that is loaded. -/
def Owned (e : Event) : Prop := ∀ pass saved, e.request = .join pass (some saved) → saved.ownership = true

/-- No owner kicks or bans himself, and no visible player comes in while the channel takes a visible owner for an
invisible one. -/
def Sound (e : Event) (channel : Option Channel) : Prop :=
  ∀ c player, channel = some c → e.connected.findConnectedPlayer e.guid = some player →
    match e.request with
    | .kickOrBan badname _ => ∀ bad, e.connected.findConnectedPlayerByName badname = some bad →
        bad.guid = player.guid → player.guid ≠ c.ownerGuid
    | .join pass _ => admits c player.guid pass = true → player.gmVisible = true → c.isOwnerInvisible = true →
        ∀ info, c.playersStore.find? c.ownerGuid = some info → info.isInvisible = true
    | _ => True

/-- A request takes members from the channel, or flags from members, only with a right to it. -/
def Guarded (e : Event) (channel channel' : Option Channel) : Prop :=
  ∀ c player v info, channel = some c → e.connected.findConnectedPlayer e.guid = some player →
    c.playersStore.find? v = some info →
      (∃ c', channel' = some c' ∧ Unharmed c' v info) ∨ Entitled c player v ∨ GivesWay e.request info

/-! ## One request -/

theorem create_invariant {pass : String} {saved : Option Saved} (h : Owned e) (hr : e.request = .join pass saved) :
    Invariant (Channel.create saved) := by
  cases saved with
  | none => exact ⟨⟨rfl, nofun, nofun, nofun⟩, fun _ => rfl, nofun⟩
  | some row => exact ⟨⟨h pass row hr, nofun, nofun, nofun⟩, fun _ => rfl, nofun⟩

/-- A request to a channel that is there. -/
theorem serve_invariant (h : Invariant c) (hp : player ∈ e.connected.players) (hs : Sound e (some c))
    (hfind : e.connected.findConnectedPlayer e.guid = some player) :
    ∃ channel', serve e.connected player c e.request = some channel' ∧ (∀ c', channel' = some c' → Invariant c') := by
  have hpresent : player.guid ≠ ObjectGuid.Empty := e.connected.present player hp
  have hs := hs c player rfl hfind
  cases hr : e.request with
  | join pass saved =>
    refine ⟨_, rfl, ?_⟩
    rintro _ ⟨⟩
    exact h.joinChannel hpresent pass
  | leave =>
    refine ⟨_, rfl, ?_⟩
    intro c' hc
    split at hc
    · cases hc
    next hne =>
    cases hc
    exact h.leaveChannel player.guid (by simpa using hne)
  | kickOrBan badname ban =>
    rw [hr] at hs
    obtain ⟨c', hc, hinv⟩ := h.kickOrBan ban hs
    refine ⟨some c', by rw [serve, hc, Option.map_some], ?_⟩
    rintro _ ⟨⟩
    exact hinv
  | unBan badname =>
    refine ⟨_, rfl, ?_⟩
    rintro _ ⟨⟩
    exact h.unBan e.connected player badname
  | password pass =>
    refine ⟨_, rfl, ?_⟩
    rintro _ ⟨⟩
    exact h.password player pass
  | announce =>
    refine ⟨_, rfl, ?_⟩
    rintro _ ⟨⟩
    exact h.announce player
  | setMode p2n mod set =>
    refine ⟨_, rfl, ?_⟩
    rintro _ ⟨⟩
    exact h.setMode hp p2n mod set
  | setInvisible on =>
    refine ⟨_, rfl, ?_⟩
    rintro _ ⟨⟩
    exact h.setInvisible player.guid on
  | setOwner newname =>
    refine ⟨_, rfl, ?_⟩
    rintro _ ⟨⟩
    exact h.setOwnerByName e.connected player newname

theorem playersStore_unBan (c : Channel) (connected : Connected) (player : Player) (badname : String) :
    (c.unBan connected player badname).playersStore = c.playersStore := by
  unfold Channel.unBan
  split
  · rfl
  split
  · rfl
  split
  · rfl
  split <;> rfl

theorem playersStore_password (c : Channel) (player : Player) (pass : String) :
    (c.password player pass).playersStore = c.playersStore := by
  unfold Channel.password
  split
  · rfl
  split <;> rfl

theorem playersStore_announce (c : Channel) (player : Player) : (c.announce player).playersStore = c.playersStore := by
  unfold Channel.announce
  split
  · rfl
  split <;> rfl

theorem serve_guarded (h : Invariant c) (hp : player ∈ e.connected.players) (hs : Sound e (some c))
    (hfind : e.connected.findConnectedPlayer e.guid = some player)
    (hstep : serve e.connected player c e.request = some channel') : Guarded e (some c) channel' := by
  rintro _ _ v info ⟨⟩ hfind' hi
  rw [hfind] at hfind'
  cases hfind'
  have hpresent : player.guid ≠ ObjectGuid.Empty := e.connected.present player hp
  have hs := hs c player rfl hfind
  cases hr : e.request with
  | join pass saved =>
    rw [hr] at hs hstep
    cases hstep
    have hstale : admits c player.guid pass = true → player.gmVisible = true → c.isOwnerInvisible = true →
        v = c.ownerGuid → info.isInvisible = true := fun ha hv ho he => hs ha hv ho info (he ▸ hi)
    rcases joinChannel_guarded h hpresent hi hstale with hu | hinv
    · exact .inl ⟨_, rfl, hu⟩
    · exact .inr (.inr ⟨⟨pass, saved, rfl⟩, hinv⟩)
  | leave =>
    rw [hr] at hstep
    cases hstep
    by_cases hv : player.guid = v
    · exact .inr (.inl (.inl hv))
    have hu := leaveChannel_guarded h (Ne.symm hv) hi
    obtain ⟨info', hi', -⟩ := id hu
    rw [if_neg (by rw [not_isEmpty hi']; exact Bool.false_ne_true)]
    exact .inl ⟨_, rfl, hu⟩
  | kickOrBan badname ban =>
    rw [hr, serve] at hstep
    obtain ⟨c', hc, rfl⟩ := Option.map_eq_some_iff.1 hstep
    rcases kickOrBan_guarded h hc hi with hu | hent
    · exact .inl ⟨c', rfl, hu⟩
    · exact .inr (.inl hent)
  | unBan badname =>
    rw [hr] at hstep
    cases hstep
    exact .inl ⟨_, rfl, unharmed_of_eq (by rw [playersStore_unBan]) hi⟩
  | password pass =>
    rw [hr] at hstep
    cases hstep
    exact .inl ⟨_, rfl, unharmed_of_eq (by rw [playersStore_password]) hi⟩
  | announce =>
    rw [hr] at hstep
    cases hstep
    exact .inl ⟨_, rfl, unharmed_of_eq (by rw [playersStore_announce]) hi⟩
  | setMode p2n mod set =>
    rw [hr] at hstep
    cases hstep
    rcases setMode_guarded hp hi with hu | hent
    · exact .inl ⟨_, rfl, hu⟩
    · exact .inr (.inl hent)
  | setInvisible on =>
    rw [hr] at hstep
    cases hstep
    exact .inl ⟨_, rfl, setInvisible_guarded hi⟩
  | setOwner newname =>
    rw [hr] at hstep
    cases hstep
    rcases setOwnerByName_guarded h hi with hu | hent
    · exact .inl ⟨_, rfl, hu⟩
    · exact .inr (.inl hent)

/-- Every request that is sound is served, keeps the invariant and takes nothing without a right. -/
theorem step_invariant (h : ∀ c, channel = some c → Invariant c) (ho : Owned e) (hs : Sound e channel) :
    ∃ channel', step e channel = some channel' ∧ (∀ c', channel' = some c' → Invariant c') ∧
      Guarded e channel channel' := by
  unfold step
  cases hfind : e.connected.findConnectedPlayer e.guid with
  | none =>
    refine ⟨channel, rfl, h, ?_⟩
    intro c player v info _ hp
    rw [hfind] at hp
    cases hp
  | some player =>
    have hp := (Connected.findConnectedPlayer_eq hfind).2
    cases channel with
    | some c =>
      obtain ⟨channel', hstep, hinv⟩ := serve_invariant (h c rfl) hp hs hfind
      exact ⟨channel', hstep, hinv, serve_guarded (h c rfl) hp hs hfind hstep⟩
    | none =>
      have hguard : ∀ channel', Guarded e none channel' := fun _ _ _ _ _ hc => by cases hc
      cases hr : e.request with
      | join pass saved =>
        refine ⟨_, rfl, ?_, hguard _⟩
        rintro _ ⟨⟩
        exact (create_invariant ho hr).joinChannel (e.connected.present player hp) pass
      | leave | kickOrBan | unBan | password | announce | setMode | setInvisible | setOwner =>
        exact ⟨none, rfl, nofun, hguard none⟩

/-! ## Runs -/

/-- In every run without the two kinds of requests a channel with players has a proper owner, nobody on it is banned,
no request breaks the program, and what a request takes from a member its sender has a right to. -/
theorem channel_owner_proper (h : Reaches step (fun e channel => Owned e ∧ Sound e channel) none channel) :
    (∀ c, channel = some c → (∀ v, c.isOn v = true → c.isBanned v = false) ∧
      (c.playersStore.isEmpty = false → Proper c)) ∧
    ∀ e, Owned e → Sound e channel → ∃ channel', step e channel = some channel' ∧ Guarded e channel channel' := by
  have hinv : ∀ c, channel = some c → Invariant c := by
    refine h.invariant (fun channel => ∀ c, channel = some c → Invariant c) ?_ nofun
    intro e a b ha hok hstep
    obtain ⟨b', hb, hinv, -⟩ := step_invariant ha hok.1 hok.2
    rw [hstep] at hb
    cases hb
    exact hinv
  refine ⟨?_, ?_⟩
  · intro c hc
    refine ⟨fun v hon => ?_, (hinv c hc).proper⟩
    obtain ⟨info, hv⟩ := isOn_iff.1 hon
    simpa [isBanned] using (hinv c hc).banned v info hv
  · intro e ho hs
    obtain ⟨channel', hstep, -, hguard⟩ := step_invariant hinv ho hs
    exact ⟨channel', hstep, hguard⟩

/-! ## Two players -/

def ann : Player := { guid := 1, name := "Ann" }
def bob : Player := { guid := 2, name := "Bob" }

def annAndBob : Connected := ⟨[ann, bob], by decide, by decide, by decide⟩

def annJoins : Event := ⟨annAndBob, 1, .join "" none⟩
def bobJoins : Event := ⟨annAndBob, 2, .join "" none⟩
def annKicks (name : String) : Event := ⟨annAndBob, 1, .kickOrBan name false⟩

/-- Ann makes a channel, Bob joins it, and Ann kicks Bob. -/
theorem channel_owner_proper_kick : ∃ channel, runSteps step [annJoins, bobJoins, annKicks "Bob"] none = some channel ∧
    (∀ c, channel = some c → (∀ v, c.isOn v = true → c.isBanned v = false) ∧
      (c.playersStore.isEmpty = false → Proper c)) ∧
    ∀ e, Owned e → Sound e channel → ∃ channel', step e channel = some channel' ∧ Guarded e channel channel' := by
  refine ⟨_, rfl, channel_owner_proper (.tail (annKicks "Bob") (.tail bobJoins (.tail annJoins .refl ⟨?_, ?_⟩ rfl)
    ⟨?_, ?_⟩ rfl) ⟨?_, ?_⟩ rfl)⟩
  · rintro _ _ ⟨⟩
  · rintro _ _ ⟨⟩
  · rintro _ _ ⟨⟩
  · rintro _ _ ⟨⟩ ⟨⟩ - - ⟨⟩
  · rintro _ _ ⟨⟩
  · rintro _ _ ⟨⟩ ⟨⟩ _ ⟨⟩ ⟨⟩

/-- Ann makes a channel, Bob joins it, and Ann kicks herself: the code writes to the entry it has erased. -/
theorem owner_kicks_himself : ∃ channel, Reaches step (fun e _ => Owned e) none channel ∧
    Owned (annKicks "Ann") ∧ step (annKicks "Ann") channel = none := by
  refine ⟨_, .tail bobJoins (.tail annJoins .refl ?_ rfl) ?_ rfl, ?_, rfl⟩
  · rintro _ _ ⟨⟩
  · rintro _ _ ⟨⟩
  · rintro _ _ ⟨⟩

end AtlasWow.Chat
