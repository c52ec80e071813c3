/-
A custom channel has a proper owner in every run in which no owner kicks or
bans himself: an owner who does is still named as the owner, and the entry the
code writes to is gone. Nobody takes anything from a member without a right to
(`Entitled`), as long as no join meets an `_isOwnerInvisible` left over from an
earlier owner.
-/
import AtlasWow.Chat.Channel
import Mathlib.Tactic.ApplyFun

namespace AtlasWow.Chat

variable {c c' : Channel} {guid v : ObjectGuid} {info : PlayerInfo} {connected : Connected} {player : Player}

/-! ## Entries -/

namespace Channel

theorem find?_modify (c : Channel) (guid v : ObjectGuid) (f : PlayerInfo → PlayerInfo) :
    (c.modify guid f).playersStore.find? v =
      (c.playersStore.find? v).map fun info => if v = guid then f info else info := by
  unfold modify
  cases hf : c.playersStore.find? guid with
  | none =>
    by_cases hv : v = guid
    · rw [hv, hf, Option.map_none]
    · simp only [if_neg hv, Option.map_id']
  | some info =>
    simp only [OMap.find?_insert]
    by_cases hv : v = guid
    · subst hv
      simp only [if_pos, hf, Option.map_some]
    · simp only [if_neg hv, Option.map_id']

@[simp] theorem modify_ownerGuid (c : Channel) (guid : ObjectGuid) (f : PlayerInfo → PlayerInfo) :
    (c.modify guid f).ownerGuid = c.ownerGuid := by unfold modify; split <;> rfl

@[simp] theorem modify_bannedStore (c : Channel) (guid : ObjectGuid) (f : PlayerInfo → PlayerInfo) :
    (c.modify guid f).bannedStore = c.bannedStore := by unfold modify; split <;> rfl

@[simp] theorem modify_ownershipEnabled (c : Channel) (guid : ObjectGuid) (f : PlayerInfo → PlayerInfo) :
    (c.modify guid f).ownershipEnabled = c.ownershipEnabled := by unfold modify; split <;> rfl

@[simp] theorem isOn_modify (c : Channel) (guid v : ObjectGuid) (f : PlayerInfo → PlayerInfo) :
    (c.modify guid f).isOn v = c.isOn v := by rw [isOn, find?_modify, Option.isSome_map, isOn]

theorem isOn_iff : c.isOn v = true ↔ ∃ info, c.playersStore.find? v = some info := Option.isSome_iff_exists

theorem isEmpty_iff : c.playersStore.isEmpty = true ↔ ∀ v, c.playersStore.find? v = none := by
  rw [OMap.isEmpty_iff, List.eq_nil_iff_forall_not_mem]
  exact forall_congr' fun v => OMap.find?_eq_none.symm

theorem not_isEmpty (h : c.playersStore.find? v = some info) : c.playersStore.isEmpty = false := by
  rw [Bool.eq_false_iff]
  intro he
  rw [isEmpty_iff.1 he v] at h
  cases h

theorem nextOwner_eq_some (h : c.nextOwner = some (v, info)) : c.playersStore.find? v = some info := by
  refine OMap.mem_entries.1 ?_
  rw [nextOwner, Option.or_eq_some_iff] at h
  rcases h with h | ⟨-, h⟩
  · exact List.mem_of_find?_eq_some h
  · exact List.mem_of_head? h

theorem nextOwner_eq_none (h : c.nextOwner = none) : c.playersStore.isEmpty = true := by
  rw [nextOwner, Option.or_eq_none_iff, List.head?_eq_none_iff] at h
  rw [OMap.isEmpty, h.2, List.isEmpty_nil]

end Channel

open Channel

/-! ## A proper owner -/

/-- The owner is a player of the channel and a moderator, and the only one with the owner's flag. -/
structure Proper (c : Channel) : Prop where
  owner : ∃ info, c.playersStore.find? c.ownerGuid = some info ∧ info.isOwner = true ∧ info.isModerator = true
  only : ∀ v info, c.playersStore.find? v = some info → info.isOwner = true → v = c.ownerGuid

/-- What holds also between the writes of one request. -/
structure Base (c : Channel) : Prop where
  enabled : c.ownershipEnabled = true
  present : ∀ v info, c.playersStore.find? v = some info → v ≠ ObjectGuid.Empty
  flags : ∀ v info, c.playersStore.find? v = some info → info.isOwner = true → v = c.ownerGuid
  banned : ∀ v info, c.playersStore.find? v = some info → v ∉ c.bannedStore

/-- A channel without players has no owner yet; one with players has a proper one. -/
structure Invariant (c : Channel) : Prop extends Base c where
  vacant : c.playersStore.isEmpty = true → c.ownerGuid = ObjectGuid.Empty
  owner : c.playersStore.isEmpty = false →
    ∃ info, c.playersStore.find? c.ownerGuid = some info ∧ info.isOwner = true ∧ info.isModerator = true

theorem Invariant.proper (h : Invariant c) (hne : c.playersStore.isEmpty = false) : Proper c := ⟨h.owner hne, h.flags⟩

theorem Base.erase (h : Base c) (guid : ObjectGuid) : Base { c with playersStore := c.playersStore.erase guid } := by
  have hsub : ∀ v info, (c.playersStore.erase guid).find? v = some info → c.playersStore.find? v = some info := by
    intro v info hv
    rw [OMap.find?_erase] at hv
    split at hv
    · cases hv
    · exact hv
  exact ⟨h.enabled, fun v info hv => h.present v info (hsub v info hv), fun v info hv => h.flags v info (hsub v info hv),
    fun v info hv => h.banned v info (hsub v info hv)⟩

variable {f : PlayerInfo → PlayerInfo} {badname : String}

theorem Base.modify (h : Base c) (guid : ObjectGuid) (hf : ∀ i, (f i).isOwner = i.isOwner) :
    Base (c.modify guid f) := by
  have hback : ∀ v info, (c.modify guid f).playersStore.find? v = some info →
      ∃ info₀, c.playersStore.find? v = some info₀ ∧ info₀.isOwner = info.isOwner := by
    intro v info hv
    rw [find?_modify, Option.map_eq_some_iff] at hv
    obtain ⟨info₀, hv₀, rfl⟩ := hv
    refine ⟨info₀, hv₀, ?_⟩
    split
    · exact (hf info₀).symm
    · rfl
  constructor
  · rw [modify_ownershipEnabled]; exact h.enabled
  · intro v info hv
    obtain ⟨info₀, hv₀, -⟩ := hback v info hv
    exact h.present v info₀ hv₀
  · intro v info hv hi
    obtain ⟨info₀, hv₀, he⟩ := hback v info hv
    rw [modify_ownerGuid]
    exact h.flags v info₀ hv₀ (he.trans hi)
  · intro v info hv
    obtain ⟨info₀, hv₀, -⟩ := hback v info hv
    rw [modify_bannedStore]
    exact h.banned v info₀ hv₀

theorem Base.moderate (h : Base c) (guid : ObjectGuid) :
    Base (c.modify guid fun info => { info with isModerator := true }) := h.modify guid fun _ => rfl

theorem Invariant.modify (h : Invariant c) (hf : ∀ i, (f i).isOwner = i.isOwner)
    (hm : guid = c.ownerGuid → ∀ i, i.isModerator = true → (f i).isModerator = true) : Invariant (c.modify guid f) where
  toBase := h.toBase.modify guid hf
  vacant := by
    intro he
    rw [modify_ownerGuid]
    refine h.vacant (isEmpty_iff.2 fun v => ?_)
    have hv := isEmpty_iff.1 he v
    rwa [find?_modify, Option.map_eq_none_iff] at hv
  owner := by
    intro hne
    have hne' : c.playersStore.isEmpty = false := by
      rw [Bool.eq_false_iff] at hne ⊢
      intro he
      refine hne (isEmpty_iff.2 fun v => ?_)
      rw [find?_modify, isEmpty_iff.1 he v, Option.map_none]
    obtain ⟨info, hi, ho, hmod⟩ := h.owner hne'
    rw [modify_ownerGuid, find?_modify, hi, Option.map_some]
    by_cases hg : c.ownerGuid = guid
    · rw [if_pos hg]
      exact ⟨_, rfl, (hf info).trans ho, hm hg.symm info hmod⟩
    · rw [if_neg hg]
      exact ⟨_, rfl, ho, hmod⟩

/-- Who becomes the owner gets the flags, and who was it loses one. -/
theorem Base.find?_setOwner (h : Base c) (hg : guid ≠ ObjectGuid.Empty) (v : ObjectGuid) :
    (c.setOwner guid).playersStore.find? v = (c.playersStore.find? v).map fun info =>
      if v = guid then giveOwner info else if v = c.ownerGuid then takeOwner info else info := by
  have hold : (if c.ownerGuid ≠ ObjectGuid.Empty then c.modify c.ownerGuid takeOwner else c).playersStore.find? v =
      (c.playersStore.find? v).map fun info => if v = c.ownerGuid then takeOwner info else info := by
    split
    next => rw [find?_modify]
    next he =>
    have hne : ∀ info, c.playersStore.find? v = some info → v ≠ c.ownerGuid :=
      fun info hi hv => h.present v info hi (hv.trans (not_not.1 he))
    cases hi : c.playersStore.find? v with
    | none => rfl
    | some info => rw [Option.map_some, if_neg (hne info hi)]
  simp only [setOwner, if_pos hg, find?_modify, hold, Option.map_map]
  refine Option.map_congr fun info _ => ?_
  by_cases hv : v = guid
  · simp only [Function.comp_apply, if_pos hv]
    split <;> rfl
  · simp only [Function.comp_apply, if_neg hv]

theorem setOwner_ownerGuid (c : Channel) (guid : ObjectGuid) : (c.setOwner guid).ownerGuid = guid := by
  unfold setOwner
  dsimp only
  split <;> split <;> simp

theorem setOwner_bannedStore (c : Channel) (guid : ObjectGuid) : (c.setOwner guid).bannedStore = c.bannedStore := by
  unfold setOwner
  dsimp only
  split <;> split <;> simp

theorem setOwner_ownershipEnabled (c : Channel) (guid : ObjectGuid) :
    (c.setOwner guid).ownershipEnabled = c.ownershipEnabled := by
  unfold setOwner
  dsimp only
  split <;> split <;> simp

/-- A player of the channel who is made the owner is a proper one. -/
theorem Base.setOwner (h : Base c) (hon : c.isOn guid = true) : Invariant (c.setOwner guid) := by
  obtain ⟨info, hi⟩ := isOn_iff.1 hon
  have hg : guid ≠ ObjectGuid.Empty := h.present guid info hi
  have hfind := h.find?_setOwner hg
  have hown : (c.setOwner guid).playersStore.find? guid = some (giveOwner info) := by
    rw [hfind, hi, Option.map_some, if_pos rfl]
  constructor
  · constructor
    · rw [setOwner_ownershipEnabled]; exact h.enabled
    · intro v info' hv
      rw [hfind, Option.map_eq_some_iff] at hv
      obtain ⟨info₀, hv₀, -⟩ := hv
      exact h.present v info₀ hv₀
    · intro v info' hv ho
      rw [hfind, Option.map_eq_some_iff] at hv
      obtain ⟨info₀, hv₀, rfl⟩ := hv
      rw [setOwner_ownerGuid]
      by_contra hne
      rw [if_neg hne] at ho
      split at ho
      · cases ho
      next hold => exact hold (h.flags v info₀ hv₀ ho)
    · intro v info' hv
      rw [hfind, Option.map_eq_some_iff] at hv
      obtain ⟨info₀, hv₀, -⟩ := hv
      rw [setOwner_bannedStore]
      exact h.banned v info₀ hv₀
  · intro he
    rw [isEmpty_iff.1 he guid] at hown
    cases hown
  · intro _
    rw [setOwner_ownerGuid]
    exact ⟨_, hown, rfl, rfl⟩

/-- Writes that leave the players and the owner alone, and ban nobody. -/
theorem Invariant.congr (h : Invariant c) (hp : c'.playersStore = c.playersStore) (ho : c'.ownerGuid = c.ownerGuid)
    (he : c'.ownershipEnabled = c.ownershipEnabled) (hb : c'.bannedStore ⊆ c.bannedStore) : Invariant c' where
  enabled := he.trans h.enabled
  present := by rw [hp]; exact h.present
  flags := by rw [hp, ho]; exact h.flags
  banned := by rw [hp]; exact fun v info hv hmem => h.banned v info hv (hb hmem)
  vacant := by rw [hp, ho]; exact h.vacant
  owner := by rw [hp, ho]; exact h.owner

/-- As long as the owner is on it, a channel with a proper base is fine. -/
theorem Base.invariant (h : Base c)
    (hi : c.playersStore.find? c.ownerGuid = some info ∧ info.isOwner = true ∧ info.isModerator = true) :
    Invariant c where
  toBase := h
  vacant := by
    intro he
    rw [not_isEmpty hi.1] at he
    cases he
  owner := fun _ => ⟨info, hi⟩

/-! ## Players who are connected -/

namespace Connected

theorem findConnectedPlayer_eq (h : connected.findConnectedPlayer guid = some player) :
    player.guid = guid ∧ player ∈ connected.players := by
  refine ⟨?_, List.mem_of_find?_eq_some h⟩
  simpa using List.find?_some h

theorem findConnectedPlayerByName_eq {name : String} (h : connected.findConnectedPlayerByName name = some player) :
    player.name = name ∧ player ∈ connected.players := by
  refine ⟨?_, List.mem_of_find?_eq_some h⟩
  simpa using List.find?_some h

end Connected

/-! ## What a request keeps -/

/-- The player comes in: he is not on the channel nor banned from it, and knows its password. -/
def admits (c : Channel) (guid : ObjectGuid) (pass : String) : Bool :=
  !c.isOn guid && !c.isBanned guid && !(c.channelPassword ≠ "" && pass ≠ c.channelPassword)

/-- The entry of a player who comes in. -/
def enter (c : Channel) (player : Player) : Channel :=
  { c with playersStore := c.playersStore.insert player.guid { isInvisible := !player.gmVisible } }

/-- The one who comes in becomes the owner. -/
def handsOver (c : Channel) (player : Player) : Bool :=
  c.ownershipEnabled && (c.playersStore.isEmpty || player.gmVisible) &&
    (c.ownerGuid = ObjectGuid.Empty || c.isOwnerInvisible)

theorem joinChannel_eq (c : Channel) (player : Player) (pass : String) : c.joinChannel player pass =
    if admits c player.guid pass then
      if handsOver c player then
        (Channel.setOwner { enter c player with isOwnerInvisible := !player.gmVisible } player.guid).modify player.guid
          fun info => { info with isModerator := true }
      else enter c player
    else c := by
  unfold joinChannel
  split
  next h₁ => rw [if_neg (by simp [admits, h₁])]
  next h₁ =>
  split
  next h₂ => rw [if_neg (by simp [admits, h₂])]
  next h₂ =>
  split
  next h₃ => rw [if_neg (by simp only [admits, h₃]; simp)]
  next h₃ =>
  have ha : admits c player.guid pass = true := by simp only [admits, h₁, h₂, h₃]; rfl
  rw [if_pos ha]
  simp only [handsOver, enter, Bool.not_not]
  rfl

theorem isOn_enter (c : Channel) (player : Player) : (enter c player).isOn player.guid = true := by
  simp [isOn, enter]

theorem Base.enter (h : Base c) (hp : player.guid ≠ ObjectGuid.Empty) (hb : player.guid ∉ c.bannedStore) :
    Base (enter c player) := by
  have hcases : ∀ v info, (AtlasWow.Chat.enter c player).playersStore.find? v = some info →
      v = player.guid ∧ info.isOwner = false ∨ c.playersStore.find? v = some info := by
    intro v info hv
    rw [AtlasWow.Chat.enter, OMap.find?_insert] at hv
    split at hv
    next he => cases hv; exact .inl ⟨he, rfl⟩
    next => exact .inr hv
  refine ⟨h.enabled, fun v info hv => ?_, fun v info hv ho => ?_, fun v info hv => ?_⟩
  · rcases hcases v info hv with ⟨rfl, -⟩ | hv
    · exact hp
    · exact h.present v info hv
  · rcases hcases v info hv with ⟨-, hi⟩ | hv
    · rw [hi] at ho; cases ho
    · exact h.flags v info hv ho
  · rcases hcases v info hv with ⟨rfl, -⟩ | hv
    · exact hb
    · exact h.banned v info hv

theorem Base.visibility (h : Base c) (b : Bool) : Base { c with isOwnerInvisible := b } :=
  ⟨h.enabled, h.present, h.flags, h.banned⟩

theorem Invariant.joinChannel (h : Invariant c) (hp : player.guid ≠ ObjectGuid.Empty) (pass : String) :
    Invariant (c.joinChannel player pass) := by
  rw [joinChannel_eq]
  split
  next ha =>
    simp only [admits, Bool.and_eq_true, Bool.not_eq_true', isBanned, decide_eq_false_iff_not] at ha
    have hbase : Base (enter c player) := h.toBase.enter hp ha.1.2
    split
    next =>
      refine Invariant.modify (f := fun info => { info with isModerator := true }) ?_ (fun _ => rfl) fun _ _ _ => rfl
      exact (hbase.visibility (!player.gmVisible)).setOwner (isOn_enter c player)
    next hn =>
    -- an empty channel is handed over, so here the owner is on it
    have hne : c.playersStore.isEmpty = false := by
      rw [Bool.eq_false_iff]
      intro he
      exact hn (by simp [handsOver, h.enabled, he, h.vacant he])
    obtain ⟨info, hi, hflags⟩ := h.owner hne
    have hother : c.ownerGuid ≠ player.guid := by
      intro he
      rw [isOn, ← he, hi] at ha
      cases ha.1.1
    refine @Base.invariant _ info hbase ⟨?_, hflags⟩
    show (c.playersStore.insert player.guid _).find? c.ownerGuid = some info
    rw [OMap.find?_insert_of_ne hother, hi]
  next => exact h

theorem Invariant.leaveChannel (h : Invariant c) (guid : ObjectGuid)
    (hne : (c.leaveChannel guid).playersStore.isEmpty = false) : Invariant (c.leaveChannel guid) := by
  revert hne
  unfold Channel.leaveChannel
  cases hi : c.playersStore.find? guid with
  | none => exact fun _ => h
  | some info =>
    have hbase := h.toBase.erase guid
    dsimp only
    split
    next =>
      cases hn : nextOwner _ with
      | none =>
        intro hne
        rw [nextOwner_eq_none hn] at hne
        cases hne
      | some next =>
        intro _
        have hon := isOn_iff.2 ⟨_, nextOwner_eq_some hn⟩
        have hown := (hbase.moderate next.1).setOwner ((isOn_modify _ _ _ _).trans hon)
        dsimp only
        split
        · exact hown.congr rfl rfl rfl subset_rfl
        · exact hown
    next hn =>
    intro _
    obtain ⟨info', hi', hflags⟩ := h.owner (not_isEmpty hi)
    refine @Base.invariant _ info' hbase ⟨?_, hflags⟩
    -- the one who leaves does not carry the flag
    have hother : c.ownerGuid ≠ guid := by
      intro he
      rw [he, hi] at hi'
      cases hi'
      exact hn (by simp [hflags.1, h.enabled])
    show (c.playersStore.erase guid).find? c.ownerGuid = some info'
    rw [OMap.find?_erase_of_ne hother, hi']

/-- The channel without the victim. -/
def removed (c : Channel) (victim : ObjectGuid) (ban : Bool) : Channel :=
  { c with
    bannedStore := if ban then insert victim c.bannedStore else c.bannedStore
    playersStore := c.playersStore.erase victim }

/-- The actor may kick the victim. -/
structure MayKick (c : Channel) (player : Player) (victim : ObjectGuid) : Prop where
  actor : ∃ info, c.playersStore.find? player.guid = some info ∧
    (info.isModerator = true ∨ player.changeChannelNotModerator = true)
  there : c.isOn victim = true
  owner : c.ownerGuid = victim → player.changeChannelNotModerator = true ∨ player.guid = c.ownerGuid

theorem kickOrBan_cases (c : Channel) (connected : Connected) (player : Player) (badname : String) (ban : Bool) :
    c.kickOrBan connected player badname ban = some c ∨
      ∃ bad, connected.findConnectedPlayerByName badname = some bad ∧ MayKick c player bad.guid ∧
        c.kickOrBan connected player badname ban =
          if c.ownerGuid = bad.guid ∧ c.ownershipEnabled = true ∧ (removed c bad.guid ban).playersStore.isEmpty = false then
            if (removed c bad.guid ban).isOn player.guid then
              some (((removed c bad.guid ban).modify player.guid fun info =>
                { info with isModerator := true }).setOwner player.guid)
            else none
          else some (removed c bad.guid ban) := by
  unfold Channel.kickOrBan
  cases hi : c.playersStore.find? player.guid with
  | none => exact .inl rfl
  | some info =>
    dsimp only
    split
    · exact .inl rfl
    next hmod =>
    cases hbad : connected.findConnectedPlayerByName badname with
    | none => exact .inl rfl
    | some bad =>
      dsimp only
      split
      · exact .inl rfl
      next hon =>
      split
      · exact .inl rfl
      next howner =>
      refine .inr ⟨bad, rfl, ⟨⟨info, hi, ?_⟩, by simpa using hon, ?_⟩, ?_⟩
      · rw [Bool.and_eq_true, Bool.not_eq_true', Bool.not_eq_true', not_and, Bool.not_eq_false] at hmod
        rw [or_iff_not_imp_left, Bool.not_eq_true]
        exact hmod
      · intro he
        by_contra hne
        rw [not_or, Bool.not_eq_true] at hne
        exact howner (by simp [hne.1, he, he ▸ hne.2])
      · cases ban <;> simp only [removed, Bool.false_eq_true, if_true, if_false, Bool.and_eq_true,
          decide_eq_true_eq, Bool.not_eq_true', and_assoc]

theorem Base.removed (h : Base c) (victim : ObjectGuid) (ban : Bool) : Base (removed c victim ban) := by
  have hb := h.erase victim
  refine ⟨hb.enabled, hb.present, hb.flags, fun v info hv => ?_⟩
  have hne : v ≠ victim := by
    rintro rfl
    rw [AtlasWow.Chat.removed, OMap.find?_erase_self] at hv
    cases hv
  show v ∉ if ban then insert victim c.bannedStore else c.bannedStore
  split
  · rw [Finset.mem_insert, not_or]
    exact ⟨hne, hb.banned v info hv⟩
  · exact hb.banned v info hv

/-- A kick by somebody else than the owner himself leaves a proper owner, the actor if need be. -/
theorem Invariant.kickOrBan (h : Invariant c) (ban : Bool)
    (hself : ∀ bad, connected.findConnectedPlayerByName badname = some bad → bad.guid = player.guid →
      player.guid ≠ c.ownerGuid) :
    ∃ c', c.kickOrBan connected player badname ban = some c' ∧ Invariant c' := by
  rcases kickOrBan_cases c connected player badname ban with hc | ⟨bad, hbad, hmay, hc⟩
  · exact ⟨c, hc, h⟩
  obtain ⟨info, hi, -⟩ := hmay.actor
  have hbase := h.toBase.removed bad.guid ban
  have hleft : ∀ {v info}, v ≠ bad.guid → c.playersStore.find? v = some info →
      (removed c bad.guid ban).playersStore.find? v = some info := by
    intro v info hne hv
    rw [removed, OMap.find?_erase_of_ne hne, hv]
  rw [hc]
  by_cases howner : c.ownerGuid = bad.guid
  · have hact : player.guid ≠ bad.guid := fun hs => hself bad hbad hs.symm (hs.trans howner.symm)
    have hon : (removed c bad.guid ban).isOn player.guid = true := isOn_iff.2 ⟨info, hleft hact hi⟩
    rw [if_pos ⟨howner, h.enabled, not_isEmpty (hleft hact hi)⟩, if_pos hon]
    exact ⟨_, rfl, (hbase.moderate player.guid).setOwner ((isOn_modify _ _ _ _).trans hon)⟩
  rw [if_neg fun hn => howner hn.1]
  obtain ⟨info', hi', hflags⟩ := h.owner (not_isEmpty hi)
  exact ⟨_, rfl, hbase.invariant ⟨hleft howner hi', hflags⟩⟩

theorem Invariant.unBan (h : Invariant c) (connected : Connected) (player : Player) (badname : String) :
    Invariant (c.unBan connected player badname) := by
  unfold Channel.unBan
  split
  · exact h
  split
  · exact h
  split
  · exact h
  split
  · exact h.congr rfl rfl rfl (Finset.erase_subset _ _)
  · exact h

theorem Invariant.password (h : Invariant c) (player : Player) (pass : String) : Invariant (c.password player pass) := by
  unfold Channel.password
  split
  · exact h
  split
  · exact h
  · exact h.congr rfl rfl rfl subset_rfl

theorem Invariant.announce (h : Invariant c) (player : Player) : Invariant (c.announce player) := by
  unfold Channel.announce
  split
  · exact h
  split
  · exact h
  · exact h.congr rfl rfl rfl subset_rfl

theorem Invariant.setInvisible (h : Invariant c) (guid : ObjectGuid) (on : Bool) : Invariant (c.setInvisible guid on) := by
  unfold Channel.setInvisible
  cases hi : c.playersStore.find? guid with
  | none => exact h
  | some info =>
    have hmod : Invariant (c.modify guid fun info => { info with isInvisible := on }) :=
      h.modify (fun _ => rfl) fun _ _ hm => hm
    rw [Channel.modify, hi] at hmod
    dsimp only
    split
    · exact hmod.congr rfl rfl rfl subset_rfl
    · exact hmod

theorem Invariant.setOwnerByName (h : Invariant c) (connected : Connected) (player : Player) (newname : String) :
    Invariant (c.setOwnerByName connected player newname) := by
  unfold Channel.setOwnerByName
  split
  · exact h
  split
  · exact h
  split
  · exact h
  next newp _ =>
  split
  · exact h
  next hon =>
  have hon : c.isOn newp.guid = true := by simp at hon; exact hon.1
  exact (h.toBase.moderate newp.guid).setOwner ((isOn_modify _ _ _ _).trans hon)

/-- `SetMode` writes to the entry of a member: the actor is a moderator or privileged, and the member not the owner,
unless he is the actor and only muted. -/
theorem setMode_cases (c : Channel) (connected : Connected) (hp : player ∈ connected.players) (p2n : String)
    (mod set : Bool) : c.setMode connected player p2n mod set = c ∨
      ∃ (newp : Player) (info : PlayerInfo), c.playersStore.find? player.guid = some info ∧
        (info.isModerator = true ∨ player.changeChannelNotModerator = true) ∧
        (mod = true → newp.guid ≠ c.ownerGuid) ∧
        c.setMode connected player p2n mod set =
          c.modify newp.guid fun info =>
            if mod then { info with isModerator := set } else { info with isMuted := set } := by
  unfold Channel.setMode
  cases hi : c.playersStore.find? player.guid with
  | none => exact .inl rfl
  | some info =>
    dsimp only
    split
    · exact .inl rfl
    next hmod =>
    split
    · exact .inl rfl
    next hself =>
    cases hnew : connected.findConnectedPlayerByName p2n with
    | none => exact .inl rfl
    | some newp =>
      dsimp only
      split
      · exact .inl rfl
      split
      · exact .inl rfl
      next howner =>
      refine .inr ⟨newp, info, rfl, ?_, ?_, ?_⟩
      · rw [Bool.and_eq_true, Bool.not_eq_true', Bool.not_eq_true', not_and, Bool.not_eq_false] at hmod
        rw [or_iff_not_imp_left, Bool.not_eq_true]
        exact hmod
      · -- the owner himself is told apart by his name, which is his alone
        intro hm he
        have hact : newp.guid = player.guid := by
          by_contra hne
          exact howner (by rw [← he]; simpa using hne)
        obtain ⟨hname, hmem⟩ := Connected.findConnectedPlayerByName_eq hnew
        have hsame : newp = player := List.inj_on_of_nodup_map connected.guids hmem hp hact
        exact hself (by rw [← hsame, hname, hm]; simp [he])
      · cases mod <;> rfl

theorem Invariant.setMode (h : Invariant c) (hp : player ∈ connected.players) (p2n : String) (mod set : Bool) :
    Invariant (c.setMode connected player p2n mod set) := by
  rcases setMode_cases c connected hp p2n mod set with hc | ⟨newp, info, -, -, hne, hc⟩
  · rw [hc]; exact h
  rw [hc]
  refine h.modify (fun i => ?_) fun he i hi => ?_
  · cases mod <;> rfl
  · cases mod with
    | false => exact hi
    | true => exact absurd he (hne rfl)

/-! ## Rights -/

/-- A member's entry keeps the flags it has. -/
def Unharmed (c : Channel) (v : ObjectGuid) (info : PlayerInfo) : Prop :=
  ∃ info', c.playersStore.find? v = some info' ∧ (info.isOwner = true → info'.isOwner = true) ∧
    (info.isModerator = true → info'.isModerator = true)

/-- Who may remove a member or take his flags: himself, a privileged player, and of the others a moderator from all but
the owner. -/
def Entitled (c : Channel) (player : Player) (v : ObjectGuid) : Prop :=
  player.guid = v ∨ player.changeChannelNotModerator = true ∨
    (∃ info, c.playersStore.find? player.guid = some info ∧ info.isModerator = true) ∧ v ≠ c.ownerGuid

/-- An owner who is an invisible GM gives way to the next visible player who joins. -/
def GivesWay (request : Request) (info : PlayerInfo) : Prop :=
  (∃ pass saved, request = .join pass saved) ∧ info.isInvisible = true

theorem unharmed_of_eq (hv : c'.playersStore.find? v = c.playersStore.find? v)
    (hi : c.playersStore.find? v = some info) : Unharmed c' v info := ⟨info, hv.trans hi, id, id⟩

theorem Unharmed.modify (h : Unharmed c v info)
    (hf : v = guid → ∀ i, (i.isOwner = true → (f i).isOwner = true) ∧ (i.isModerator = true → (f i).isModerator = true)) :
    Unharmed (c.modify guid f) v info := by
  obtain ⟨info', hv, ho, hm⟩ := h
  refine ⟨_, by rw [find?_modify, hv, Option.map_some], ?_⟩
  by_cases hg : v = guid
  · rw [if_pos hg]
    exact ⟨fun hi => (hf hg info').1 (ho hi), fun hi => (hf hg info').2 (hm hi)⟩
  · rw [if_neg hg]
    exact ⟨ho, hm⟩

/-- Only the old owner loses something when there is a new one. -/
theorem Unharmed.setOwner (h : Unharmed c v info) (hb : Base c) (hg : guid ≠ ObjectGuid.Empty)
    (hv : v ≠ c.ownerGuid ∨ v = guid) : Unharmed (c.setOwner guid) v info := by
  obtain ⟨info', hfind, ho, hm⟩ := h
  refine ⟨_, by rw [hb.find?_setOwner hg, hfind, Option.map_some], ?_⟩
  by_cases he : v = guid
  · rw [if_pos he]
    exact ⟨fun _ => rfl, fun _ => rfl⟩
  · rw [if_neg he, if_neg (hv.resolve_right he)]
    exact ⟨ho, hm⟩

theorem Unharmed.moderate (h : Unharmed c v info) (guid : ObjectGuid) :
    Unharmed (c.modify guid fun i => { i with isModerator := true }) v info :=
  h.modify fun _ _ => ⟨id, fun _ => rfl⟩

theorem joinChannel_guarded (h : Invariant c) (hp : player.guid ≠ ObjectGuid.Empty) {pass : String}
    (hi : c.playersStore.find? v = some info)
    (hstale : admits c player.guid pass = true → player.gmVisible = true → c.isOwnerInvisible = true → v = c.ownerGuid →
      info.isInvisible = true) :
    Unharmed (c.joinChannel player pass) v info ∨ info.isInvisible = true := by
  rw [joinChannel_eq]
  split
  next ha =>
    have ha' := ha
    simp only [admits, Bool.and_eq_true, Bool.not_eq_true', isBanned, decide_eq_false_iff_not] at ha
    have hne : v ≠ player.guid := by
      rintro rfl
      rw [isOn, hi] at ha
      cases ha.1.1
    have hin : Unharmed (enter c player) v info := unharmed_of_eq (OMap.find?_insert_of_ne hne) hi
    split
    next hh =>
      simp only [handsOver, Bool.and_eq_true, Bool.or_eq_true, not_isEmpty hi, Bool.false_eq_true, false_or,
        decide_eq_true_eq] at hh
      by_cases hv : v = c.ownerGuid
      · have hinv : c.isOwnerInvisible = true := hh.2.resolve_left fun he => h.present v info hi (hv.trans he)
        exact .inr (hstale ha' hh.1.2 hinv hv)
      refine .inl (Unharmed.moderate ?_ _)
      have hbase := (h.toBase.enter hp ha.1.2).visibility (!player.gmVisible)
      exact Unharmed.setOwner hin hbase hp (.inl hv)
    next => exact .inl hin
  next => exact .inl (unharmed_of_eq rfl hi)

theorem leaveChannel_guarded (h : Invariant c) (hne : v ≠ guid) (hi : c.playersStore.find? v = some info) :
    Unharmed (c.leaveChannel guid) v info := by
  unfold Channel.leaveChannel
  cases hg : c.playersStore.find? guid with
  | none => exact unharmed_of_eq rfl hi
  | some left =>
    have hbase := h.toBase.erase guid
    have hin : Unharmed { c with playersStore := c.playersStore.erase guid } v info :=
      unharmed_of_eq (OMap.find?_erase_of_ne hne) hi
    dsimp only
    split
    next hch =>
      cases hn : nextOwner _ with
      | none => exact hin
      | some next =>
        have howner : v ≠ c.ownerGuid := by
          rw [Bool.and_eq_true] at hch
          rw [← h.flags guid left hg hch.1]
          exact hne
        have hnext : next.1 ≠ ObjectGuid.Empty := hbase.present next.1 next.2 (nextOwner_eq_some hn)
        have hmod := hin.moderate next.1
        have hown := hmod.setOwner (hbase.moderate next.1) hnext (.inl (by rw [modify_ownerGuid]; exact howner))
        dsimp only
        split
        · exact hown
        · exact hown
    next => exact hin

theorem kickOrBan_guarded (h : Invariant c) {ban : Bool}
    (hc : c.kickOrBan connected player badname ban = some c') (hi : c.playersStore.find? v = some info) :
    Unharmed c' v info ∨ Entitled c player v := by
  rcases kickOrBan_cases c connected player badname ban with he | ⟨bad, -, hmay, he⟩
  · rw [he] at hc
    cases hc
    exact .inl (unharmed_of_eq rfl hi)
  obtain ⟨actor, hactor, hright⟩ := hmay.actor
  by_cases hv : v = bad.guid
  · -- the victim
    refine .inr ?_
    rcases hright with hmod | hpriv
    · by_cases ho : c.ownerGuid = bad.guid
      · rcases hmay.owner ho with hpriv | hself
        · exact .inr (.inl hpriv)
        · exact .inl (by rw [hself, ho, hv])
      · exact .inr (.inr ⟨⟨actor, hactor, hmod⟩, fun hvo => ho (hvo.symm.trans hv)⟩)
    · exact .inr (.inl hpriv)
  have hbase := h.toBase.removed bad.guid ban
  have hin : Unharmed (removed c bad.guid ban) v info := unharmed_of_eq (OMap.find?_erase_of_ne hv) hi
  rw [he] at hc
  split at hc
  next hch =>
    split at hc
    · cases hc
      have hmod := hin.moderate player.guid
      refine .inl (hmod.setOwner (hbase.moderate player.guid) (h.present _ _ hactor) (.inl ?_))
      rw [modify_ownerGuid]
      exact fun ho => hv (ho.trans hch.1)
    · cases hc
  next =>
  cases hc
  exact .inl hin

theorem setMode_guarded (hp : player ∈ connected.players) {p2n : String} {mod set : Bool}
    (hi : c.playersStore.find? v = some info) :
    Unharmed (c.setMode connected player p2n mod set) v info ∨ Entitled c player v := by
  rcases setMode_cases c connected hp p2n mod set with hc | ⟨newp, actor, hactor, hright, hne, hc⟩
  · rw [hc]
    exact .inl (unharmed_of_eq rfl hi)
  rw [hc]
  cases mod with
  | false => exact .inl ((unharmed_of_eq rfl hi).modify fun _ _ => ⟨id, id⟩)
  | true =>
    by_cases hv : v = newp.guid
    · refine .inr (.inr ?_)
      rcases hright with hmod | hpriv
      · exact .inr ⟨⟨actor, hactor, hmod⟩, by rw [hv]; exact hne rfl⟩
      · exact .inl hpriv
    · exact .inl ((unharmed_of_eq rfl hi).modify fun he => absurd he hv)

theorem setOwnerByName_guarded (h : Invariant c) {newname : String} (hi : c.playersStore.find? v = some info) :
    Unharmed (c.setOwnerByName connected player newname) v info ∨ Entitled c player v := by
  unfold Channel.setOwnerByName
  split
  · exact .inl (unharmed_of_eq rfl hi)
  split
  · exact .inl (unharmed_of_eq rfl hi)
  next hright =>
  split
  · exact .inl (unharmed_of_eq rfl hi)
  next newp _ =>
  split
  · exact .inl (unharmed_of_eq rfl hi)
  next hon =>
  simp only [Bool.and_eq_true, Bool.not_eq_true', decide_eq_true_eq, not_and, not_not] at hright
  simp only [Bool.or_eq_true, Bool.not_eq_true', not_or, Bool.not_eq_false] at hon
  obtain ⟨info', hon'⟩ := isOn_iff.1 hon.1
  by_cases hv : v = c.ownerGuid
  · refine .inr ?_
    by_cases hpriv : player.changeChannelNotModerator = true
    · exact .inr (.inl hpriv)
    · exact .inl ((hright (by simpa using hpriv)).trans hv.symm)
  have hmod := (unharmed_of_eq rfl hi).moderate newp.guid
  refine .inl (hmod.setOwner (h.toBase.moderate newp.guid) (h.present _ _ hon') (.inl ?_))
  rwa [modify_ownerGuid]

theorem setInvisible_guarded {on : Bool} (hi : c.playersStore.find? v = some info) :
    Unharmed (c.setInvisible guid on) v info := by
  unfold Channel.setInvisible
  cases hg : c.playersStore.find? guid with
  | none => exact unharmed_of_eq rfl hi
  | some entry =>
    have hmod : Unharmed (c.modify guid fun info => { info with isInvisible := on }) v info :=
      (unharmed_of_eq rfl hi).modify fun _ _ => ⟨id, id⟩
    rw [Channel.modify, hg] at hmod
    dsimp only
    split
    · exact hmod
    · exact hmod

end AtlasWow.Chat
