/-
What officers can do to each other: whoever is not the leader promotes, demotes
and removes members below him only, and gives nobody a rank that is not below his
own (`Respects`). So the members with the highest rank are the same after any run
of such calls, whoever makes them (`MastersKept`).

Rank ids grow downwards, and are bytes: a promotion compares with the rank after
one's own, which must not wrap around. The ranks that `Validate` leaves are far
from that (`governed_validate`).
-/
import AtlasWow.Guilds.GuildRuns

namespace AtlasWow

namespace Guild

variable {g g' : Guild} {player name : ObjectGuid}

/-- The leader ranks high, and no rank is far beyond those there can be. -/
structure Governed (g : Guild) : Prop extends Numbered g where
  bound : ∀ guid m, g.getMember guid = some m → m.rankId.toNat ≤ 10
  leader : ∃ m, g.getMember g.leaderGuid = some m ∧ m.rankId ≤ GR_OFFICER

/-- `player` has done nothing to whoever is not below him, and raised nobody to his own rank. -/
structure Respects (player : ObjectGuid) (g g' : Guild) : Prop where
  leaderGuid : g'.leaderGuid = g.leaderGuid
  superior : ∀ guid m, g.getMember guid = some m →
    (∀ memberMe, g.getMember player = some memberMe → ¬ memberMe.rankId < m.rankId) → g'.getMember guid = some m
  raised : ∀ guid m', g'.getMember guid = some m' → g.getMember guid = some m' ∨
    (g.getMember guid).isSome ∧ ∃ memberMe, g.getMember player = some memberMe ∧ memberMe.rankId < m'.rankId

/-- The same leader, and the same guild masters. -/
structure MastersKept (g g' : Guild) : Prop where
  leaderGuid : g'.leaderGuid = g.leaderGuid
  leader : g'.getMember g.leaderGuid = g.getMember g.leaderGuid
  masters : ∀ guid m, m.rankId = GR_GUILDMASTER → (g'.getMember guid = some m ↔ g.getMember guid = some m)

theorem Respects.refl (player : ObjectGuid) (g : Guild) : Respects player g g where
  leaderGuid := rfl
  superior _ _ hm _ := hm
  raised _ _ hm := .inl hm

theorem MastersKept.refl (g : Guild) : MastersKept g g := ⟨rfl, rfl, fun _ _ _ => .rfl⟩

theorem MastersKept.trans {g'' : Guild} (h : MastersKept g g') (h' : MastersKept g' g'') : MastersKept g g'' where
  leaderGuid := h'.leaderGuid.trans h.leaderGuid
  leader := by
    have hleader := h'.leader
    rw [h.leaderGuid] at hleader
    exact hleader.trans h.leader
  masters guid m hm := (h'.masters guid m hm).trans (h.masters guid m hm)

variable {rank : UInt8} {member memberMe : Member}

/-- A rank has nothing above it that is the guild master's, so masters are superiors of everybody. -/
theorem not_lt_master : ¬ rank < GR_GUILDMASTER := by
  rw [UInt8.lt_iff_toNat_lt]
  exact Nat.not_lt_zero _

/-- Nobody who ranks below the leader gets at him, and nobody becomes or stops being a guild master. -/
theorem Respects.mastersKept (hg : g.Governed) (hplayer : g.isLeader player = false) (h : Respects player g g') :
    MastersKept g g' where
  leaderGuid := h.leaderGuid
  leader := by
    obtain ⟨m, hm, hrank⟩ := hg.leader
    rw [hm]
    refine h.superior _ m hm fun memberMe hme hlt => ?_
    -- a rank above an officer's is the guild master's
    have hmaster : memberMe.rankId = GR_GUILDMASTER := by
      rw [UInt8.lt_iff_toNat_lt] at hlt
      rw [UInt8.le_iff_toNat_le] at hrank
      have hone : GR_OFFICER.toNat = 1 := rfl
      exact UInt8.toNat_inj.1 (show _ = 0 by omega)
    rw [isLeader, hme, Option.any_some, Member.isRank, hmaster] at hplayer
    simp at hplayer
  masters guid m hm := by
    constructor
    · intro hm'
      refine (h.raised guid m hm').resolve_right ?_
      rintro ⟨-, memberMe, -, hlt⟩
      rw [hm] at hlt
      exact not_lt_master hlt
    · intro hm'
      refine h.superior guid m hm' fun memberMe _ hlt => ?_
      rw [hm] at hlt
      exact not_lt_master hlt

theorem respects_changeRank (hname : g.getMember name = some member)
    (hme : g.getMember player = some memberMe) (hbelow : memberMe.rankId < member.rankId)
    (hrank : memberMe.rankId < rank) : Respects player g (g.changeRank name rank) where
  leaderGuid := rfl
  superior guid m hm hsuperior := by
    have hne : guid ≠ name := by
      rintro rfl
      rw [hname] at hm
      obtain rfl := Option.some.inj hm
      exact hsuperior memberMe hme hbelow
    rw [getMember_changeRank, hm, Option.map_some, if_neg hne]
  raised guid m' hm' := by
    rw [getMember_changeRank] at hm'
    obtain ⟨m, hm, rfl⟩ := Option.map_eq_some_iff.1 hm'
    split
    next heq => exact .inr ⟨by rw [hm]; rfl, memberMe, hme, hrank⟩
    next => exact .inl hm

theorem respects_eraseMember (hname : g.getMember name = some member)
    (hme : g.getMember player = some memberMe) (hbelow : memberMe.rankId < member.rankId) :
    Respects player g (g.eraseMember name) where
  leaderGuid := rfl
  superior guid m hm hsuperior := by
    have hne : guid ≠ name := by
      rintro rfl
      rw [hname] at hm
      obtain rfl := Option.some.inj hm
      exact hsuperior memberMe hme hbelow
    rw [getMember_eraseMember, if_neg hne, hm]
  raised guid m' hm' := by
    rw [getMember_eraseMember] at hm'
    split at hm'
    · exact nomatch hm'
    · exact .inl hm'

/-- Whoever is not the leader ranks below no one he could take the leader's place from. -/
theorem Governed.ne_leaderGuid (hg : g.Governed) (hplayer : g.isLeader player = false)
    (hname : g.getMember name = some member) (hme : g.getMember player = some memberMe)
    (hbelow : memberMe.rankId < member.rankId) : g.leaderGuid ≠ name := by
  rintro rfl
  have hkept := (respects_eraseMember hname hme hbelow).mastersKept hg hplayer
  have hleader := hkept.leader
  rw [getMember_eraseMember, if_pos rfl, hname] at hleader
  exact nomatch hleader

theorem Governed.changeRank (hg : g.Governed) (hrank : rank.toNat ≤ 10) (hne : g.leaderGuid ≠ name) :
    (g.changeRank name rank).Governed where
  toNumbered := ⟨hg.few, hg.many, hg.ids⟩
  bound guid m hm := by
    rw [getMember_changeRank] at hm
    obtain ⟨m', hm', rfl⟩ := Option.map_eq_some_iff.1 hm
    split
    · exact hrank
    · exact hg.bound guid m' hm'
  leader := by
    obtain ⟨m, hm, hrank⟩ := hg.leader
    refine ⟨m, ?_, hrank⟩
    rw [getMember_changeRank]
    show Option.map (fun m => if g.leaderGuid = name then _ else m) (g.getMember g.leaderGuid) = some m
    rw [hm, Option.map_some, if_neg hne]

theorem Governed.eraseMember (hg : g.Governed) (hne : g.leaderGuid ≠ name) : (g.eraseMember name).Governed where
  toNumbered := ⟨hg.few, hg.many, hg.ids⟩
  bound guid m hm := by
    rw [getMember_eraseMember] at hm
    split at hm
    · exact nomatch hm
    · exact hg.bound guid m hm
  leader := by
    obtain ⟨m, hm, hrank⟩ := hg.leader
    refine ⟨m, ?_, hrank⟩
    rw [getMember_eraseMember]
    show (if g.leaderGuid = name then none else g.getMember g.leaderGuid) = some m
    rw [if_neg hne, hm]

theorem Sound.governed (h : g.Sound) : g.Governed where
  toNumbered := h.toNumbered
  bound guid m hm := by
    have hlt := h.ranks guid m hm
    have hmany := h.many
    omega
  leader := by
    obtain ⟨m, hm, hmaster⟩ := h.leader
    exact ⟨m, hm, by rw [hmaster]; decide⟩

/-- Every guild that was loaded is governed, whatever the tables held. -/
theorem governed_validate {allowMultiple : Bool} (hrows : g.ranks.length ≤ 256) (h : g.validate allowMultiple = some g') :
    g'.Governed := by
  obtain ⟨g₃, hg₃, rfl⟩ := Option.map_eq_some_iff.1 h
  have hnum := numbered_repairRanks hrows
  generalize g.repairRanks = g₁ at hg₃ hnum
  obtain ⟨-, hranks, ⟨leader, hleader, hmaster⟩, hothers⟩ := repairLeader_spec hg₃
  have hranks : g₃.ranks = g₁.ranks := hranks
  have hbound : ∀ guid m, g₃.getMember guid = some m → m.rankId.toNat ≤ 10 := by
    intro guid m hm
    by_cases heq : guid = g₃.leaderGuid
    · rw [heq, hleader] at hm
      rw [← Option.some.inj hm, hmaster]
      exact Nat.zero_le _
    rw [hothers guid heq, getMember_repairMembers] at hm
    obtain ⟨m', -, rfl⟩ := Option.map_eq_some_iff.1 hm
    have hmany := hnum.many
    split
    next => exact Nat.le_trans (Nat.le_of_eq hnum.toNat_getLowestRankId) (by omega)
    next hle =>
    rw [UInt8.lt_iff_toNat_lt, hnum.toNat_getRanksSize] at hle
    omega
  have hnum₃ : g₃.Numbered := ⟨hranks ▸ hnum.few, hranks ▸ hnum.many, hranks ▸ hnum.ids⟩
  cases allowMultiple with
  | true => exact ⟨hnum₃, hbound, leader, hleader, by rw [hmaster]; decide⟩
  | false =>
    refine ⟨⟨hnum₃.few, hnum₃.many, hnum₃.ids⟩, fun guid m hm => ?_, leader, ?_, by rw [hmaster]; decide⟩
    · rw [getMember_repairMasters] at hm
      obtain ⟨m', hm', rfl⟩ := Option.map_eq_some_iff.1 hm
      split
      · show 1 ≤ 10
        omega
      · exact hbound guid m' hm'
    · rw [getMember_repairMasters]
      show Option.map (fun m => if m.isRank GR_GUILDMASTER && g₃.leaderGuid ≠ g₃.leaderGuid then _ else m)
        (g₃.getMember g₃.leaderGuid) = some leader
      rw [hleader, Option.map_some]
      simp

/-- No ranks, a leader who is no member, and a member with a rank that is not there. -/
def brokenGuild : Guild := Guild.insertMember (.front _ _) 1 7 ⟨9, [], .empty, 0, 0⟩

theorem governed_validate_broken : ∃ g', brokenGuild.validate false = some g' ∧ g'.leaderGuid = 1 ∧ g'.Governed := by
  have hloads : (brokenGuild.validate false).any (·.leaderGuid = 1) = true := by decide
  obtain ⟨g', hg', hleader⟩ := (Option.any_eq_true _ _).1 hloads
  exact ⟨g', hg', of_decide_eq_true hleader, governed_validate (by decide) hg'⟩

end Guild

namespace GuildWorld

open Guild (Governed Respects MastersKept)

variable {pl : Placement ObjectGuid Member} {w w' : GuildWorld} {g : Guild}

/-- A promotion, a demotion or a removal by somebody who does not lead his guild. -/
def officerCall : Event → GuildWorld → Bool
  | .remove player _, w | .updateMemberRank player _ _, w => (w.getGuild player).all fun g => !g.isLeader player
  | _, _ => false

def OfficerCall (event : Event) (w : GuildWorld) : Prop := officerCall event w = true

instance (event : Event) (w : GuildWorld) : Decidable (OfficerCall event w) := inferInstanceAs (Decidable (_ = true))

variable {event : Event}

theorem OfficerCall.not_isLeader {player : ObjectGuid} (h : OfficerCall event w)
    (ha : actor event = some player) (hg : w.getGuild player = some g) : g.isLeader player = false := by
  have hall : (w.getGuild player).all (fun g => !g.isLeader player) = true := by
    cases event with
    | remove player' name => cases ha; exact h
    | updateMemberRank player' name demote => cases ha; exact h
    | _ => exact nomatch h
  simpa using (Option.all_eq_true _ _).1 hall g hg

/-- What an officer does to his own guild. -/
theorem onGuild_officer {player : ObjectGuid} (hcall : OfficerCall event w) (ha : actor event = some player)
    (hg : w.getGuild player = some g) (hgoverned : g.Governed) :
    w.onGuild g event = w ∨ ∃ g', Governed g' ∧ Respects player g g' ∧ ∃ guildId,
      w.onGuild g event = { w.setGuild (w.guildId player) g' with guildId := guildId } := by
  have hplayer := hcall.not_isLeader ha hg
  cases event with
  | remove player' name =>
    cases ha
    show w.handleRemoveMember player name g = w ∨ ∃ g', Governed g' ∧ Respects player g g' ∧ ∃ guildId,
      w.handleRemoveMember player name g = { w.setGuild (w.guildId player) g' with guildId := guildId }
    unfold handleRemoveMember
    split
    · exact .inl rfl
    split
    next member memberMe hname hme =>
      split
      · exact .inl rfl
      next hcheck =>
      simp only [Member.isRank, Member.isRankNotLower, Bool.or_eq_true, decide_eq_true_eq, not_or, UInt8.not_le] at hcheck
      have hne := hgoverned.ne_leaderGuid hplayer hname hme hcheck.2
      refine .inr ⟨g.eraseMember name, hgoverned.eraseMember hne, Guild.respects_eraseMember hname hme hcheck.2,
        Function.update w.guildId name 0, ?_⟩
      rw [deleteMember, Guild.handOver, if_neg hne]
    next => exact .inl rfl
  | updateMemberRank player' name demote =>
    cases ha
    refine .inr ⟨g.handleUpdateMemberRank player name demote, ?_⟩
    have hspec : Governed (g.handleUpdateMemberRank player name demote) ∧
        Respects player g (g.handleUpdateMemberRank player name demote) := by
      rcases hgoverned.handleUpdateMemberRank_cases hgoverned.bound player name demote with hsame |
        ⟨member, memberMe, rank, hname, hme, hbelow, hrank, hle, heq⟩
      · rw [hsame]
        exact ⟨hgoverned, .refl player g⟩
      · rw [heq]
        have hmany := hgoverned.many
        have hbound := hgoverned.bound name member hname
        exact ⟨hgoverned.changeRank (by omega) (hgoverned.ne_leaderGuid hplayer hname hme hbelow),
          Guild.respects_changeRank hname hme hbelow hrank⟩
    exact ⟨hspec.1, hspec.2, w.guildId, rfl⟩
  | _ => cases hcall

/-- One call of an officer, for all guilds. -/
theorem step_officer {player : ObjectGuid} (hall : w.All Governed) (hcall : OfficerCall event w)
    (ha : actor event = some player) (hs : step pl event w = some w') : w'.All Governed ∧
    ∀ id g, w.guilds.find? id = some g → ∃ g', w'.guilds.find? id = some g' ∧ Respects player g g' ∧ MastersKept g g' := by
  have hsame : w.All Governed ∧
      ∀ id g, w.guilds.find? id = some g → ∃ g', w.guilds.find? id = some g' ∧ Respects player g g' ∧ MastersKept g g' :=
    ⟨hall, fun id g hfind => ⟨g, hfind, .refl player g, .refl g⟩⟩
  have hstep : step pl event w = some ((w.getGuild player).elim w fun g => w.onGuild g event) := by
    cases event with
    | remove player' name => cases ha; rfl
    | updateMemberRank player' name demote => cases ha; rfl
    | _ => exact nomatch hcall
  obtain rfl := Option.some.inj (hstep.symm.trans hs)
  cases hown : w.getGuild player with
  | none => exact hsame
  | some own =>
    have hfind := getGuild_eq_some hown
    simp only [Option.elim]
    rcases onGuild_officer hcall ha hown (hall _ own hfind) with heq | ⟨own', hgoverned, hrespects, guildId, heq⟩
    · rw [heq]
      exact hsame
    rw [heq]
    refine ⟨hall.setGuild hgoverned, fun id g hg => ?_⟩
    show ∃ g', (w.setGuild (w.guildId player) own').guilds.find? id = some g' ∧ _
    rw [find?_setGuild]
    split
    next hid =>
      rw [hid, hfind] at hg
      obtain rfl := Option.some.inj hg
      exact ⟨own', rfl, hrespects, hrespects.mastersKept (hall _ own hfind) (hcall.not_isLeader ha hown)⟩
    next => exact ⟨g, hg, .refl player g, .refl g⟩

theorem actor_officer (hcall : OfficerCall event w) : ∃ player, actor event = some player := by
  cases event with
  | remove player name => exact ⟨player, rfl⟩
  | updateMemberRank player name demote => exact ⟨player, rfl⟩
  | _ => exact nomatch hcall

/-- Any number of calls by officers. -/
theorem reaches_officers (hall : w.All Governed) (hr : Reaches (step pl) OfficerCall w w') : w'.All Governed ∧
    ∀ id g, w.guilds.find? id = some g → ∃ g', w'.guilds.find? id = some g' ∧ MastersKept g g' := by
  refine hr.invariant (fun w' => w'.All Governed ∧ ∀ id g, w.guilds.find? id = some g →
    ∃ g', w'.guilds.find? id = some g' ∧ MastersKept g g') ?_ ⟨hall, fun id g hfind => ⟨g, hfind, .refl g⟩⟩
  rintro event w₁ w₂ ⟨hall₁, hkept₁⟩ hcall hs
  obtain ⟨player, ha⟩ := actor_officer hcall
  obtain ⟨hall₂, hstep⟩ := step_officer hall₁ hcall ha hs
  refine ⟨hall₂, fun id g hfind => ?_⟩
  obtain ⟨g₁, hfind₁, hmasters⟩ := hkept₁ id g hfind
  obtain ⟨g₂, hfind₂, -, hmasters'⟩ := hstep id g₁ hfind₁
  exact ⟨g₂, hfind₂, hmasters.trans hmasters'⟩

/-- However officers promote, demote and remove, the guild masters stay the same, and every call leaves alone whoever is not
below the one who makes it. -/
theorem officers_respect (pl : Placement ObjectGuid Member) (hall : w.All Governed) (hr : Reaches (step pl) OfficerCall w w')
    {id : Nat} (hfind : w.guilds.find? id = some g) : ∃ g', w'.guilds.find? id = some g' ∧ MastersKept g g' ∧
      ∀ event player w'', OfficerCall event w' → actor event = some player → step pl event w' = some w'' →
        ∃ g'', w''.guilds.find? id = some g'' ∧ Respects player g' g'' := by
  obtain ⟨hall', hkept⟩ := reaches_officers hall hr
  obtain ⟨g', hfind', hmasters⟩ := hkept id g hfind
  refine ⟨g', hfind', hmasters, fun event player w'' hcall ha hs => ?_⟩
  obtain ⟨g'', hfind'', hrespects, -⟩ := (step_officer hall' hcall ha hs).2 id g' hfind'
  exact ⟨g'', hfind'', hrespects⟩

/-- Player 1 leads, player 2 is an officer, and players 3 and 4 have the lowest rank. -/
def officeredGuild : Guild :=
  [(2, GR_OFFICER), (3, 4), (4, 4)].foldl (fun g e => g.insertMember (.front _ _) e.1 e.2)
    ((Guild.createDefaultGuildRanks ⟨1, [], .empty, 0, 0⟩).insertMember (.front _ _) 1 GR_GUILDMASTER)

def officered : GuildWorld where
  guilds := OMap.empty.insert 1 officeredGuild
  nextGuildId := 2
  guildId guid := if guid ∈ [1, 2, 3, 4] then 1 else 0
  guildIdInvited _ := 0

theorem governed_officered : officered.All Governed := by
  intro id g hfind
  have hfind : (OMap.empty.insert 1 officeredGuild).find? id = some g := hfind
  rw [OMap.find?_insert] at hfind
  split at hfind
  · obtain rfl := Option.some.inj hfind
    refine ⟨⟨by decide, by decide, by decide⟩, fun guid m hm => ?_, ?_⟩
    · have hall : ∀ e ∈ officeredGuild.members.entries, e.2.rankId.toNat ≤ 10 := by decide
      exact hall (guid, m) (UMap.mem_entries.2 hm)
    · have hleader : (officeredGuild.getMember 1).any (·.rankId ≤ GR_OFFICER) = true := by decide
      obtain ⟨m, hm, hrank⟩ := (Option.any_eq_true _ _).1 hleader
      exact ⟨m, hm, of_decide_eq_true hrank⟩
  · exact nomatch hfind

/-- The officer promotes one of them and removes the other. -/
theorem officers_respect_promoted : ∃ w' g', Reaches (step (.front _ _)) OfficerCall officered w' ∧
    w'.guilds.find? 1 = some g' ∧ (g'.getMember 3).map (·.rankId) = some 3 ∧ (g'.getMember 4).isNone = true ∧
    MastersKept officeredGuild g' := by
  have hrun : (runSteps (allowed (step (.front _ _)) OfficerCall) [.updateMemberRank 2 3 false, .remove 2 4] officered).any
      (fun w => (w.guilds.find? 1).any fun g => (g.getMember 3).map (·.rankId) = some 3 && (g.getMember 4).isNone) = true := by
    decide
  obtain ⟨w', hw', hany⟩ := (Option.any_eq_true _ _).1 hrun
  obtain ⟨g', hg', hranks⟩ := (Option.any_eq_true _ _).1 hany
  rw [Bool.and_eq_true, decide_eq_true_eq] at hranks
  have hr : Reaches (step (.front _ _)) OfficerCall officered w' := .of_allowed (.of_runSteps hw')
  obtain ⟨g'', hg'', hmasters, -⟩ := officers_respect (.front _ _) governed_officered hr (show officered.guilds.find? 1 = _ from rfl)
  rw [hg'] at hg''
  obtain rfl := Option.some.inj hg''
  exact ⟨w', g', hr, hg', hranks.1, hranks.2, hmasters⟩

end GuildWorld

end AtlasWow
