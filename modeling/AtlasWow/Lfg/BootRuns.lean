/-
A vote to kick over a run of calls. `BootStart` is a party and who wants to kick
whom; `BootStart.vote` is the vote as it is meant, over all the ballots that
members of the party cast, and `Follows` ties the manager's to it.

A member who joined after the vote was opened has no entry, so his ballot makes
one: `Exact` holds of the runs without such a ballot in which no third denial
comes before a third agreement that comes anyway (`exact_iff`).
-/
import AtlasWow.Lfg.Boot
import AtlasWow.Lib.Ballots

namespace AtlasWow.Lfg

/-- A party, and a vote that one opens against another. -/
structure BootStart where
  groups : LfgGroups
  gguid : ObjectGuid
  kicker : ObjectGuid
  victim : ObjectGuid
  reason : String
  gameTime : Nat

namespace BootStart

/-- The members of the party vote; the kicker has agreed already and the victim denied. -/
def vote (b : BootStart) : Vote ObjectGuid where
  voters := insert b.kicker (insert b.victim (b.groups.groupsStore b.gguid).players.toFinset)
  given := [(b.kicker, true), (b.victim, false)]

def opened (b : BootStart) : LfgBoots :=
  LfgBoots.initBoot b.gguid b.kicker b.victim b.reason b.gameTime ⟨b.groups, .empty, []⟩

def after (b : BootStart) (calls : List LfgBoots.BootCall) : LfgBoots := b.opened.run calls

/-- Whether a player is a member of the party by now. -/
def Member (b : BootStart) (s : LfgBoots) (guid : ObjectGuid) : Prop :=
  s.groups.getGroup guid ≠ .Empty ∧ s.groups.getGroup guid = b.gguid

instance (b : BootStart) (s : LfgBoots) (guid : ObjectGuid) : Decidable (b.Member s guid) :=
  inferInstanceAs (Decidable (_ ∧ _))

/-- The ballot of a call, if a member of the party makes it. -/
def ballot (b : BootStart) (s : LfgBoots) : LfgBoots.BootCall → List (ObjectGuid × Bool)
  | .updateBoot guid accept => if b.Member s guid then [(guid, accept)] else []
  | _ => []

def ballotsFrom (b : BootStart) : LfgBoots → List LfgBoots.BootCall → List (ObjectGuid × Bool)
  | _, [] => []
  | s, call :: calls => b.ballot s call ++ b.ballotsFrom (s.apply call) calls

/-- The ballots that are cast in a run. -/
def ballots (b : BootStart) (calls : List LfgBoots.BootCall) : List (ObjectGuid × Bool) := b.ballotsFrom b.opened calls

/-- An answer as the manager writes it. -/
def written : Option Bool → LfgAnswer
  | none => .pending
  | some accept => .ofBool accept

/-- The agreements and denials in the manager's vote. -/
def tally (b : BootStart) (s : LfgBoots) : Option (Nat × Nat) :=
  (s.bootsStore.find? b.gguid).map fun boot => (boot.countVotes (· = .agree), boot.countVotes (· = .deny))

/-- Whether a vote is taken: he is a member and has not answered yet. -/
def Takes (b : BootStart) (s : LfgBoots) (guid : ObjectGuid) : Prop :=
  b.Member s guid ∧ ∃ boot, s.bootsStore.find? b.gguid = some boot ∧ boot.votes.find? guid = some .pending

/-- The vote is tallied exactly, at each moment of a run. -/
structure Exact (b : BootStart) (calls : List LfgBoots.BootCall) : Prop where
  rejected : ∀ before guid accept, before ++ [.updateBoot guid accept] <+: calls → ¬ b.Takes (b.after before) guid →
    b.tally (b.after (before ++ [.updateBoot guid accept])) = b.tally (b.after before)
  first : ∀ before, before <+: calls → ∀ boot, (b.after before).bootsStore.find? b.gguid = some boot →
    ∀ guid ∈ b.vote.voters, boot.votes.find? guid = some (written (b.vote.answer (b.ballots before) guid))
  kicked : ∀ before, before <+: calls →
    ((b.gguid, b.victim) ∈ (b.after before).removed ↔ b.vote.Passes LFG_GROUP_KICK_VOTES_NEEDED (b.ballots before))

/-- While the vote is open only those vote who were there when it was opened, and three do not deny before three agree. -/
structure Orderly (b : BootStart) (calls : List LfgBoots.BootCall) : Prop where
  voters : ∀ before guid accept, before ++ [.updateBoot guid accept] <+: calls → b.Member (b.after before) guid →
    ¬ b.vote.Decided LFG_GROUP_KICK_VOTES_NEEDED (b.ballots before) → guid ∈ b.vote.voters
  inTime : b.vote.InTime LFG_GROUP_KICK_VOTES_NEEDED (b.ballots calls)

variable {b : BootStart} {s : LfgBoots} {c : List (ObjectGuid × Bool)} {calls : List LfgBoots.BootCall}
  {o : Option Bool} {x : Bool}

theorem after_concat (calls : List LfgBoots.BootCall) (call : LfgBoots.BootCall) :
    b.after (calls ++ [call]) = (b.after calls).apply call := by
  rw [after, LfgBoots.run, List.foldl_append]
  rfl

theorem ballots_concat (calls : List LfgBoots.BootCall) (call : LfgBoots.BootCall) :
    b.ballots (calls ++ [call]) = b.ballots calls ++ b.ballot (b.after calls) call := by
  have hfrom : ∀ s, b.ballotsFrom s (calls ++ [call]) = b.ballotsFrom s calls ++ b.ballot (s.run calls) call := by
    induction calls with
    | nil => exact fun s => List.append_nil _
    | cons call' calls ih =>
      intro s
      rw [List.cons_append, ballotsFrom, ballotsFrom, ih, List.append_assoc]
      rfl
  exact hfrom b.opened

theorem written_eq_pending : written o = .pending ↔ o = none := by
  cases o with
  | none => simp [written]
  | some x => cases x <;> simp [written, LfgAnswer.ofBool]

theorem written_eq_ofBool : written o = .ofBool x ↔ o = some x := by
  cases o with
  | none => cases x <;> simp [written, LfgAnswer.ofBool]
  | some y => cases x <;> cases y <;> simp [written, LfgAnswer.ofBool]

/-- The manager's answers are the first ones of the voters. -/
def Answers (b : BootStart) (c : List (ObjectGuid × Bool)) (votes : OMap ObjectGuid LfgAnswer) : Prop :=
  ∀ guid, votes.find? guid = if guid ∈ b.vote.voters then some (written (b.vote.answer c guid)) else none

/-- The manager's vote is the one that is meant, until it is decided; then it is gone. -/
structure Follows (b : BootStart) (s : LfgBoots) (c : List (ObjectGuid × Bool)) : Prop where
  alone : ∀ gguid, gguid ≠ b.gguid → s.bootsStore.find? gguid = none
  opened : ∀ boot, s.bootsStore.find? b.gguid = some boot →
    ¬ b.vote.Decided LFG_GROUP_KICK_VOTES_NEEDED c ∧ boot.victim = b.victim ∧ b.Answers c boot.votes
  closed : s.bootsStore.find? b.gguid = none → b.vote.Decided LFG_GROUP_KICK_VOTES_NEEDED c
  kicked : (b.gguid, b.victim) ∈ s.removed ↔ b.vote.First LFG_GROUP_KICK_VOTES_NEEDED c

/-! ### Counting -/

variable {votes : OMap ObjectGuid LfgAnswer} {boot : LfgPlayerBoot}

theorem countVotes_eq (h : b.Answers c boot.votes) (p : LfgAnswer → Bool) :
    boot.countVotes p = (b.vote.voters.filter fun guid => p (written (b.vote.answer c guid))).card :=
  OMap.countP_entries h p

theorem countVotes_ofBool (h : b.Answers c boot.votes) (x : Bool) :
    boot.countVotes (· = .ofBool x) = b.vote.count x c := by
  rw [countVotes_eq h, Vote.count]
  simp only [decide_eq_true_eq, written_eq_ofBool]

theorem countVotes_given (h : b.Answers c boot.votes) :
    boot.countVotes (· ≠ .pending) = b.vote.count true c + b.vote.count false c := by
  rw [countVotes_eq h, Vote.count, Vote.count, ← Finset.card_union_of_disjoint, ← Finset.filter_or]
  · congr 1
    apply Finset.filter_congr
    intro guid _
    rw [decide_eq_true_eq, ne_eq, written_eq_pending]
    cases b.vote.answer c guid with
    | none => simp
    | some x => cases x <;> simp
  · rw [Finset.disjoint_filter]
    intro guid _ htrue hfalse
    cases htrue.symm.trans hfalse

/-! ### One vote -/

variable {guid : ObjectGuid} {accept : Bool}

theorem updateBoot_none (h : s.bootsStore.find? (s.groups.getGroup guid) = none) : s.updateBoot guid accept = s := by
  unfold LfgBoots.updateBoot
  simp [h]

/-- A second vote finds the first one, and writes it again. -/
theorem updateBoot_answered {answer : LfgAnswer} (hboot : s.bootsStore.find? (s.groups.getGroup guid) = some boot)
    (hvote : boot.votes.find? guid = some answer) (hne : answer ≠ .pending) : s.updateBoot guid accept = s := by
  unfold LfgBoots.updateBoot
  simp only [hboot, hvote, Option.getD_some]
  rw [if_pos hne, OMap.insert_find? hvote, OMap.insert_find? hboot]
  exact ite_self s

/-- A vote of a player without an entry makes a denial of it. -/
theorem updateBoot_absent (hguid : s.groups.getGroup guid ≠ .Empty)
    (hboot : s.bootsStore.find? (s.groups.getGroup guid) = some boot) (hvote : boot.votes.find? guid = none) :
    s.updateBoot guid accept =
      { s with
        bootsStore := s.bootsStore.insert (s.groups.getGroup guid) { boot with votes := boot.votes.insert guid .deny } } := by
  unfold LfgBoots.updateBoot
  simp only [hboot, hvote, Option.getD_none]
  rw [if_neg hguid, if_pos (by decide)]

/-- A first vote is written, and closes the vote if three agree or deny by then. -/
theorem updateBoot_pending (hguid : s.groups.getGroup guid ≠ .Empty)
    (hboot : s.bootsStore.find? (s.groups.getGroup guid) = some boot) (hvote : boot.votes.find? guid = some .pending)
    {boot' : LfgPlayerBoot} (hboot' : boot' = { boot with votes := boot.votes.insert guid (.ofBool accept) })
    {agreeNum votesNum : Nat} (hagree : agreeNum = boot'.countVotes (· = .agree) % 256)
    (hvotes : votesNum = boot'.countVotes (· ≠ .pending) % 256) :
    ((s.updateBoot guid accept).bootsStore =
      if agreeNum < LFG_GROUP_KICK_VOTES_NEEDED && votesNum - agreeNum < LFG_GROUP_KICK_VOTES_NEEDED then
        s.bootsStore.insert (s.groups.getGroup guid) boot'
      else s.bootsStore.erase (s.groups.getGroup guid)) ∧
    (s.updateBoot guid accept).removed =
      if agreeNum = LFG_GROUP_KICK_VOTES_NEEDED then (s.groups.getGroup guid, boot.victim) :: s.removed
      else s.removed := by
  have hlisted : (s.groups.setVoteKick (s.groups.getGroup guid) false).groupMgr.contains (s.groups.getGroup guid) = true :=
    List.contains_iff_mem.2 (s.groups.grouped guid hguid).1
  unfold LfgBoots.updateBoot
  simp only [hboot, hvote, Option.getD_some, hlisted, if_true]
  rw [if_neg hguid, if_neg (by simp), OMap.insert_find? hvote, ← hboot', ← hagree, ← hvotes]
  split
  next hfew =>
    rw [Bool.and_eq_true, decide_eq_true_eq] at hfew
    exact ⟨rfl, by rw [if_neg (Nat.ne_of_lt hfew.1)]⟩
  next =>
    split <;> exact ⟨rfl, rfl⟩

/-- A first answer of a voter, in the manager's answers. -/
theorem Answers.insert (h : b.Answers c votes) (hvoter : guid ∈ b.vote.voters) (hnone : b.vote.answer c guid = none) :
    b.Answers (c ++ [(guid, accept)]) (votes.insert guid (.ofBool accept)) := by
  intro guid'
  rw [OMap.find?_insert, Vote.answer_concat]
  by_cases heq : guid' = guid
  · subst heq
    rw [if_pos rfl, if_pos hvoter, if_pos ⟨hnone, rfl⟩, written]
  · have hanswer : ¬ (b.vote.answer c guid' = none ∧ guid' = guid) := fun hsame => heq hsame.2
    rw [if_neg heq, if_neg hanswer, h guid']

/-- Whoever has answered is not asked again. -/
theorem Follows.answered (h : b.Follows s c)
    (hboot : s.bootsStore.find? (s.groups.getGroup guid) = some boot) (hvoter : guid ∈ b.vote.voters)
    (hopen : ¬ b.vote.Decided LFG_GROUP_KICK_VOTES_NEEDED c) (hanswers : b.Answers c boot.votes)
    (hanswer : b.vote.answer c guid = some x) : b.Follows (s.updateBoot guid accept) (c ++ [(guid, accept)]) := by
  have hvote := hanswers guid
  rw [if_pos hvoter, hanswer] at hvote
  rw [updateBoot_answered hboot hvote (fun heq => nomatch written_eq_pending.1 heq)]
  have hdecided : b.vote.Decided LFG_GROUP_KICK_VOTES_NEEDED (c ++ [(guid, accept)]) ↔
      b.vote.Decided LFG_GROUP_KICK_VOTES_NEEDED c :=
    Vote.decided_concat_of_answered hanswer accept
  refine ⟨h.alone, fun boot' hboot' => ?_, fun hnone => hdecided.2 (h.closed hnone), ?_⟩
  · obtain ⟨hopen', hvictim', hanswers'⟩ := h.opened boot' hboot'
    refine ⟨fun hd => hopen' (hdecided.1 hd), hvictim', fun guid' => ?_⟩
    rw [Vote.answer_concat_of_answered hanswer]
    exact hanswers' guid'
  · rw [Vote.first_concat_of_not_decided hopen, Vote.count_concat_of_answered hanswer]
    exact ⟨fun hkicked => (h.kicked.1 hkicked).le, fun hagreed => absurd (.inl hagreed) hopen⟩

/-- A first answer is written, and closes the vote when three agree or three deny. -/
theorem Follows.firstAnswer (h : b.Follows s c) (hguid : s.groups.getGroup guid ≠ .Empty)
    (hgroup : s.groups.getGroup guid = b.gguid) (hboot : s.bootsStore.find? (s.groups.getGroup guid) = some boot)
    (hvoter : guid ∈ b.vote.voters) (hopen : ¬ b.vote.Decided LFG_GROUP_KICK_VOTES_NEEDED c)
    (hvictim : boot.victim = b.victim) (hanswers : b.Answers c boot.votes) (hanswer : b.vote.answer c guid = none) :
    b.Follows (s.updateBoot guid accept) (c ++ [(guid, accept)]) := by
  have hvote := hanswers guid
  rw [if_pos hvoter, hanswer] at hvote
  obtain ⟨boot', hboot'⟩ : ∃ boot', boot' = { boot with votes := boot.votes.insert guid (.ofBool accept) } := ⟨_, rfl⟩
  have hanswers' : b.Answers (c ++ [(guid, accept)]) boot'.votes := by
    rw [hboot']
    exact hanswers.insert hvoter hanswer
  obtain ⟨hagreed, hdenied⟩ := not_or.1 hopen
  have hmoreAgreed := Vote.count_concat_le (v := b.vote) c (guid, accept) true
  have hmoreDenied := Vote.count_concat_le (v := b.vote) c (guid, accept) false
  rw [LFG_GROUP_KICK_VOTES_NEEDED] at hagreed hdenied
  have hagree : b.vote.count true (c ++ [(guid, accept)]) = boot'.countVotes (· = .agree) % 256 := by
    have hcount : boot'.countVotes (· = .agree) = b.vote.count true (c ++ [(guid, accept)]) :=
      countVotes_ofBool hanswers' true
    rw [hcount, Nat.mod_eq_of_lt (by omega)]
  have hvotes : b.vote.count true (c ++ [(guid, accept)]) + b.vote.count false (c ++ [(guid, accept)]) =
      boot'.countVotes (· ≠ .pending) % 256 := by
    rw [countVotes_given hanswers', Nat.mod_eq_of_lt (by omega)]
  obtain ⟨hstore, hremoved⟩ := updateBoot_pending hguid hboot hvote hboot' hagree hvotes
  rw [hgroup] at hstore hremoved
  rw [Nat.add_sub_cancel_left, ← Bool.decide_and] at hstore
  have hdecided : b.vote.Decided LFG_GROUP_KICK_VOTES_NEEDED (c ++ [(guid, accept)]) ↔
      ¬ (b.vote.count true (c ++ [(guid, accept)]) < LFG_GROUP_KICK_VOTES_NEEDED ∧
        b.vote.count false (c ++ [(guid, accept)]) < LFG_GROUP_KICK_VOTES_NEEDED) := by
    rw [Vote.Decided]
    omega
  refine ⟨fun gguid hne => ?_, fun boot'' hboot'' => ?_, fun hnone => ?_, ?_⟩
  · rw [hstore]
    split
    · rw [OMap.find?_insert_of_ne hne, h.alone gguid hne]
    · rw [OMap.find?_erase_of_ne hne, h.alone gguid hne]
  · rw [hstore] at hboot''
    split at hboot''
    next hfew =>
      rw [OMap.find?_insert_self] at hboot''
      obtain rfl := Option.some.inj hboot''
      exact ⟨fun hd => hdecided.1 hd (of_decide_eq_true hfew), by rw [hboot', hvictim], hanswers'⟩
    next => simp at hboot''
  · rw [hstore] at hnone
    split at hnone
    next => simp at hnone
    next hmany => exact hdecided.2 fun hfew => hmany (decide_eq_true hfew)
  · rw [hremoved, hvictim, Vote.first_concat_of_not_decided hopen]
    split
    next heq => simp [heq]
    next hne =>
    rw [h.kicked]
    refine iff_of_false (fun hfirst => hopen (.inl hfirst.le)) ?_
    rw [LFG_GROUP_KICK_VOTES_NEEDED] at hne ⊢
    omega

/-- A ballot of a voter is taken as it is meant. -/
theorem Follows.vote (h : b.Follows s c) (hmember : b.Member s guid)
    (hvoter : ¬ b.vote.Decided LFG_GROUP_KICK_VOTES_NEEDED c → guid ∈ b.vote.voters) :
    b.Follows (s.updateBoot guid accept) (c ++ [(guid, accept)]) := by
  obtain ⟨hguid, hgroup⟩ := hmember
  cases hboot : s.bootsStore.find? b.gguid with
  | none =>
    have hdecided := h.closed hboot
    rw [updateBoot_none (hgroup.symm ▸ hboot)]
    exact ⟨h.alone, fun boot hsome => (nomatch hboot.symm.trans hsome), fun _ => hdecided.concat _,
      h.kicked.trans (Vote.first_concat_of_decided hdecided _).symm⟩
  | some boot =>
    obtain ⟨hopen, hvictim, hanswers⟩ := h.opened boot hboot
    rw [← hgroup] at hboot
    cases hanswer : b.vote.answer c guid with
    | some x => exact h.answered hboot (hvoter hopen) hopen hanswers hanswer
    | none => exact h.firstAnswer hguid hgroup hboot (hvoter hopen) hopen hvictim hanswers hanswer

/-- Whoever is not a member changes nothing. -/
theorem Follows.outsider (h : b.Follows s c) (hmember : ¬ b.Member s guid) : s.updateBoot guid accept = s := by
  by_cases hguid : s.groups.getGroup guid = .Empty
  · unfold LfgBoots.updateBoot
    exact if_pos hguid
  · exact updateBoot_none (h.alone _ fun hgroup => hmember ⟨hguid, hgroup⟩)

/-! ### Runs -/

theorem Follows.step (h : b.Follows s c) (call : LfgBoots.BootCall)
    (hvoter : ∀ guid accept, call = .updateBoot guid accept → b.Member s guid →
      ¬ b.vote.Decided LFG_GROUP_KICK_VOTES_NEEDED c → guid ∈ b.vote.voters) :
    b.Follows (s.apply call) (c ++ b.ballot s call) := by
  cases call with
  | updateBoot guid accept =>
    rw [LfgBoots.apply, ballot]
    split
    next hmember => exact h.vote hmember (hvoter guid accept rfl hmember)
    next hmember =>
    rw [h.outsider hmember, List.append_nil]
    exact h
  | addMember | removeMember | removePlayerData | disband =>
    rw [show b.ballot s _ = [] from rfl, List.append_nil]
    exact ⟨h.alone, h.opened, h.closed, h.kicked⟩

theorem find?_pending (players : GuidList) (votes : OMap ObjectGuid LfgAnswer) (guid : ObjectGuid) :
    (players.foldl (fun votes guid => votes.insert guid .pending) votes).find? guid =
      if guid ∈ players then some .pending else votes.find? guid := by
  induction players generalizing votes with
  | nil => simp
  | cons player players ih =>
    rw [List.foldl_cons, ih, OMap.find?_insert]
    by_cases hmem : guid ∈ players
    · simp [hmem]
    · by_cases heq : guid = player <;> simp [hmem, heq]

theorem answer_nil (b : BootStart) (guid : ObjectGuid) : b.vote.answer [] guid =
    if guid = b.kicker then some true else if guid = b.victim then some false else none := by
  rw [Vote.answer, List.append_nil, vote]
  by_cases hkicker : guid = b.kicker
  · simp [hkicker]
  have hne : (guid == b.kicker) = false := by simpa using hkicker
  rw [List.lookup_cons, hne, if_neg hkicker]
  by_cases hvictim : guid = b.victim
  · simp [hvictim]
  · have hne' : (guid == b.victim) = false := by simpa using hvictim
    simp [List.lookup_cons, hne', hvictim]

/-- Before the first ballot the kicker alone has agreed. -/
theorem count_nil_le (b : BootStart) (x : Bool) : b.vote.count x [] ≤ 1 := by
  rw [Vote.count, Finset.card_le_one]
  intro guid hguid guid' hguid'
  rw [Finset.mem_filter, answer_nil] at hguid hguid'
  cases x <;> grind

theorem not_decided_nil (b : BootStart) : ¬ b.vote.Decided LFG_GROUP_KICK_VOTES_NEEDED [] := by
  have hagreed := b.count_nil_le true
  have hdenied := b.count_nil_le false
  rw [Vote.Decided, LFG_GROUP_KICK_VOTES_NEEDED]
  omega

theorem find?_opened (b : BootStart) : ∃ boot, b.opened.bootsStore = OMap.empty.insert b.gguid boot ∧
    boot.victim = b.victim ∧ b.Answers [] boot.votes := by
  refine ⟨_, rfl, rfl, fun guid => ?_⟩
  have hplayers : (b.groups.setVoteKick b.gguid true).groupsStore b.gguid =
      { b.groups.groupsStore b.gguid with voteKickActive := true } :=
    Function.update_self ..
  rw [OMap.find?_insert, OMap.find?_insert, hplayers, find?_pending, OMap.find?_empty, Option.elim_none, OMap.find?_empty,
    answer_nil, vote]
  simp only [Finset.mem_insert, List.mem_toFinset]
  by_cases hkicker : guid = b.kicker
  · simp [hkicker, written, LfgAnswer.ofBool]
  · rw [if_neg hkicker, if_neg hkicker]
    by_cases hvictim : guid = b.victim <;> simp [hkicker, hvictim, written, LfgAnswer.ofBool]

theorem follows_opened (b : BootStart) : b.Follows b.opened [] := by
  obtain ⟨boot, hstore, hvictim, hanswers⟩ := b.find?_opened
  have hopen := b.not_decided_nil
  refine ⟨fun gguid hne => ?_, fun boot' hboot' => ?_, fun hnone => ?_, ?_⟩
  · rw [hstore, OMap.find?_insert_of_ne hne, OMap.find?_empty]
  · rw [hstore, OMap.find?_insert_self] at hboot'
    obtain rfl := Option.some.inj hboot'
    exact ⟨hopen, hvictim, hanswers⟩
  · rw [hstore, OMap.find?_insert_self] at hnone
    exact nomatch hnone
  · exact iff_of_false (List.not_mem_nil) fun hfirst => hopen (.inl hfirst.le)

/-- The manager follows the vote through a run, if nobody votes while it is open but those who were there when it was
opened. -/
theorem follows_run
    (hvoters : ∀ before guid accept, before ++ [.updateBoot guid accept] <+: calls →
      b.Follows (b.after before) (b.ballots before) → b.Member (b.after before) guid →
      ¬ b.vote.Decided LFG_GROUP_KICK_VOTES_NEEDED (b.ballots before) → guid ∈ b.vote.voters) :
    ∀ before, before <+: calls → b.Follows (b.after before) (b.ballots before) := by
  intro before
  induction before using List.reverseRecOn with
  | nil => exact fun _ => b.follows_opened
  | append_singleton before call ih =>
    intro hbefore
    have hfollows := ih ((List.prefix_append ..).trans hbefore)
    rw [after_concat, ballots_concat]
    refine hfollows.step call fun guid accept hcall hmember hopen => ?_
    subst hcall
    exact hvoters before guid accept hbefore hfollows hmember hopen

/-! ### Exactness -/

theorem ballots_isPrefix {before : List LfgBoots.BootCall} (h : before <+: calls) : b.ballots before <+: b.ballots calls := by
  obtain ⟨rest, rfl⟩ := h
  induction rest using List.reverseRecOn with
  | nil => rw [List.append_nil]
  | append_singleton rest call ih =>
    rw [← List.append_assoc, ballots_concat]
    exact ih.trans (List.prefix_append ..)

/-- The ballot of a member without an entry is not taken, and is counted as a denial. -/
theorem Follows.tally_absent (h : b.Follows s c) (hmember : b.Member s guid)
    (hopen : ¬ b.vote.Decided LFG_GROUP_KICK_VOTES_NEEDED c) (habsent : guid ∉ b.vote.voters) (accept : Bool) :
    ¬ b.Takes s guid ∧ b.tally (s.updateBoot guid accept) ≠ b.tally s := by
  obtain ⟨hguid, hgroup⟩ := hmember
  obtain ⟨boot, hboot⟩ := Option.ne_none_iff_exists'.1 fun hnone => hopen (h.closed hnone)
  obtain ⟨-, -, hanswers⟩ := h.opened boot hboot
  have hvote := hanswers guid
  rw [if_neg habsent] at hvote
  constructor
  · rintro ⟨-, boot', hboot', hpending⟩
    rw [hboot] at hboot'
    rw [← Option.some.inj hboot', hvote] at hpending
    exact nomatch hpending
  · rw [updateBoot_absent hguid (hgroup ▸ hboot) hvote, tally, tally, hgroup, OMap.find?_insert_self, hboot]
    have hnew : ∀ guid', (boot.votes.insert guid .deny).find? guid' =
        if guid' ∈ insert guid b.vote.voters then
          some (if guid' = guid then .deny else written (b.vote.answer c guid'))
        else none := by
      intro guid'
      rw [OMap.find?_insert]
      by_cases heq : guid' = guid
      · simp [heq]
      · rw [if_neg heq, if_neg heq, hanswers guid']
        simp [heq]
    have hcount : LfgPlayerBoot.countVotes { boot with votes := boot.votes.insert guid .deny } (· = .deny) =
        boot.countVotes (· = .deny) + 1 := by
      refine (OMap.countP_entries hnew (· = .deny)).trans ?_
      rw [Finset.filter_insert, if_pos (by simp), Finset.card_insert_of_notMem (by simp [habsent]), countVotes_eq hanswers]
      congr 2
      apply Finset.filter_congr
      intro guid' hguid'
      have hne : guid' ≠ guid := fun heq => habsent (heq ▸ hguid')
      rw [if_neg hne]
    intro heq
    have hsame := (Prod.mk.inj (Option.some.inj heq)).2
    omega

/-- A vote that is not taken changes nothing, while those vote who were there. -/
theorem Follows.tally_rejected (h : b.Follows s c) (htakes : ¬ b.Takes s guid)
    (hvoter : b.Member s guid → ¬ b.vote.Decided LFG_GROUP_KICK_VOTES_NEEDED c → guid ∈ b.vote.voters) :
    s.updateBoot guid accept = s := by
  by_cases hmember : b.Member s guid
  · obtain ⟨hguid, hgroup⟩ := id hmember
    cases hboot : s.bootsStore.find? b.gguid with
    | none => exact updateBoot_none (hgroup.symm ▸ hboot)
    | some boot =>
      obtain ⟨hopen, -, hanswers⟩ := h.opened boot hboot
      have hvote := hanswers guid
      rw [if_pos (hvoter hmember hopen)] at hvote
      refine updateBoot_answered (hgroup.symm ▸ hboot) hvote fun hpending => htakes ⟨hmember, boot, hboot, ?_⟩
      rw [hvote, hpending]
  · exact h.outsider hmember

/-- A vote is tallied exactly through a run if and only if nobody votes while it is open who was not there when it was opened,
and no third denial comes before a third agreement that comes anyway. -/
theorem exact_iff (b : BootStart) (calls : List LfgBoots.BootCall) : b.Exact calls ↔ b.Orderly calls := by
  constructor
  · intro hexact
    have hvoters : ∀ before guid accept, before ++ [.updateBoot guid accept] <+: calls →
        b.Follows (b.after before) (b.ballots before) → b.Member (b.after before) guid →
        ¬ b.vote.Decided LFG_GROUP_KICK_VOTES_NEEDED (b.ballots before) → guid ∈ b.vote.voters := by
      intro before guid accept hbefore hfollows hmember hopen
      by_contra habsent
      obtain ⟨htakes, htally⟩ := hfollows.tally_absent hmember hopen habsent accept
      refine htally ?_
      rw [← hexact.rejected before guid accept hbefore htakes, after_concat]
      rfl
    have hfollows := follows_run hvoters
    refine ⟨fun before guid accept hbefore hmember hopen => ?_, (Vote.first_iff b.not_decided_nil).1 ?_⟩
    · exact hvoters before guid accept hbefore (hfollows before ((List.prefix_append ..).trans hbefore)) hmember hopen
    · rw [← (hfollows calls List.prefix_rfl).kicked, hexact.kicked calls List.prefix_rfl, Vote.passes_iff]
  · intro horderly
    have hfollows : ∀ before, before <+: calls → b.Follows (b.after before) (b.ballots before) :=
      follows_run fun before guid accept hbefore _ => horderly.voters before guid accept hbefore
    refine ⟨fun before guid accept hbefore htakes => ?_, fun before hbefore boot hboot guid hguid => ?_,
      fun before hbefore => ?_⟩
    · have hbefore' := (List.prefix_append before [.updateBoot guid accept]).trans hbefore
      rw [after_concat, LfgBoots.apply,
        (hfollows before hbefore').tally_rejected htakes (horderly.voters before guid accept hbefore)]
    · obtain ⟨-, -, hanswers⟩ := (hfollows before hbefore).opened boot hboot
      rw [hanswers guid, if_pos hguid]
    · rw [(hfollows before hbefore).kicked, Vote.passes_iff,
        (Vote.first_iff b.not_decided_nil).2 (horderly.inTime.shorten (ballots_isPrefix hbefore))]

/-- A party of four, one of whom wants to kick the last. -/
def partyOfFour : BootStart where
  groups :=
    { groupMgr := [10]
      getGroup := fun guid => if guid ∈ [1, 2, 3, 4] then 10 else .Empty
      groupsStore := fun _ => ⟨[1, 2, 3, 4], LFG_GROUP_MAX_KICKS, false⟩
      grouped := by
        intro guid hguid
        split at hguid
        next h => simp only [h, if_true]; exact ⟨by decide, trivial⟩
        next => exact absurd rfl hguid }
  gguid := 10
  kicker := 1
  victim := 4
  reason := ""
  gameTime := 0

/-- Whoever joins while the vote is open denies by trying to agree. -/
theorem joined_denies : ¬ partyOfFour.Exact [.addMember 10 5, .updateBoot 5 true] := by
  intro h
  have hrejected := h.rejected [.addMember 10 5] 5 true List.prefix_rfl (by
    rintro ⟨-, boot, hboot, hpending⟩
    obtain rfl := Option.some.inj hboot
    exact absurd hpending (by decide))
  exact absurd hrejected (by decide)

end BootStart
end AtlasWow.Lfg
