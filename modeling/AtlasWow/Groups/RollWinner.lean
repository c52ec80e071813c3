/-
Who wins a roll. A loop over the votes keeps the voter who is ahead (`Ahead`)
and takes absent ones from the counter, which stays above the number of those
who are left: it is zero exactly when nobody is.
-/
import AtlasWow.Groups.RollRuns

namespace AtlasWow

open Loots (LootItem Loot)

/-! ## What a roll is for -/

namespace Roll

variable (env : RollEnv) (allowedMap : Option Nat) (among : RollVote → Bool) (roll : Roll)

/-- A voter of some kind who is there. -/
def Present (player : ObjectGuid) : Prop :=
  ∃ vote, roll.playerVote.find? player = some vote ∧ among vote = true ∧ env.eligible allowedMap player = true

/-- No other of his kind has a higher number. -/
def Highest (player : ObjectGuid) : Prop :=
  roll.Present env allowedMap among player ∧
    ∀ other, roll.Present env allowedMap among other → env.randomN other ≤ env.randomN player

end Roll

namespace RollEnv

/-- The winner has the item, or it is kept for him. -/
def given (env : RollEnv) (player : ObjectGuid) : Award :=
  if env.canStoreNewItem player then .stored player else .reserved player

/-- What a vote is for. -/
def prize (env : RollEnv) (player : ObjectGuid) (vote : RollVote) : Award :=
  if vote = .disenchant then .disenchanted player (!env.canStoreNewItem player) else env.given player

end RollEnv

/-- No voter is left out of the counters. -/
structure Roll.Counted (roll : Roll) : Prop where
  need : roll.votesOf (· = .need) ≤ roll.totalNeed.toNat
  greed : roll.votesOf isGreed ≤ roll.totalGreed.toNat

/-- Where no voter is left no vote is counted. -/
def Roll.Spent (roll : Roll) : Prop := roll.playerVote.entries = [] → roll.totalNeed = 0 ∧ roll.totalGreed = 0

/-- Need goes before greed, and among equals the highest number wins; nobody does where nobody is there. -/
structure Roll.WonBy (env : RollEnv) (allowedMap : Option Nat) (roll : Roll) (award : Option Award) : Prop where
  need : (∃ player, roll.Present env allowedMap (· = .need) player) →
    ∃ player, roll.Highest env allowedMap (· = .need) player ∧ award = some (env.given player)
  greed : (¬ ∃ player, roll.Present env allowedMap (· = .need) player) →
    (∃ player, roll.Present env allowedMap isGreed player) →
    ∃ player vote, roll.Highest env allowedMap isGreed player ∧ roll.playerVote.find? player = some vote ∧
      award = some (env.prize player vote)
  nobody : (¬ ∃ player, roll.Present env allowedMap (· = .need) player) →
    (¬ ∃ player, roll.Present env allowedMap isGreed player) → award = none

/-- What an award does to the loot. -/
def Award.apply (slot : UInt8) (loot : Loot) : Option Award → Loot
  | some (.stored _) => lootedItem slot loot
  | some (.disenchanted _ _) => lootedItem slot loot
  | some (.reserved player) =>
    modifyItem slot (fun item => { item with isBlocked := false, rollWinnerGUID := some player }) loot
  | none => modifyItem slot (fun item => { item with isBlocked := false }) loot

/-! ## A loop over the votes -/

section

variable {env : RollEnv} {allowedMap : Option Nat} {among : RollVote → Bool} {seen : List (ObjectGuid × RollVote)}

/-- Who is ahead of the voters seen so far. -/
def Ahead (env : RollEnv) (allowedMap : Option Nat) (among : RollVote → Bool) (seen : List (ObjectGuid × RollVote)) :
    Option Leader → Prop
  | none => ∀ e ∈ seen, among e.2 = true → env.eligible allowedMap e.1 = false
  | some leader => (leader.guid, leader.vote) ∈ seen ∧ among leader.vote = true ∧ env.eligible allowedMap leader.guid = true ∧
      leader.result = env.randomN leader.guid ∧
      ∀ e ∈ seen, among e.2 = true → env.eligible allowedMap e.1 = true → env.randomN e.1 ≤ leader.result

/-- A voter who is not among the others, or not there, changes nothing. -/
theorem Ahead.skip {leader : Option Leader} (h : Ahead env allowedMap among seen leader)
    {e : ObjectGuid × RollVote} (he : among e.2 = true → env.eligible allowedMap e.1 = false) :
    Ahead env allowedMap among (seen ++ [e]) leader := by
  cases leader with
  | none =>
    intro x hx hamong
    rcases List.mem_append.1 hx with hx | hx
    · exact h x hx hamong
    · cases List.mem_singleton.1 hx
      exact he hamong
  | some leader =>
    obtain ⟨hmem, hamong, hthere, hresult, hmax⟩ := h
    refine ⟨List.mem_append_left _ hmem, hamong, hthere, hresult, fun x hx hx' hx'' => ?_⟩
    rcases List.mem_append.1 hx with hx | hx
    · exact hmax x hx hx' hx''
    · cases List.mem_singleton.1 hx
      exact absurd hx'' (Bool.eq_false_iff.1 (he hx'))

theorem Ahead.round {acc : UInt8 × Option Leader}
    (h : Ahead env allowedMap among seen acc.2) (e : ObjectGuid × RollVote) :
    Ahead env allowedMap among (seen ++ [e]) (rollRound env allowedMap among acc e).2 := by
  unfold rollRound
  split
  next hno => exact h.skip fun ha => absurd ha (by simpa using hno)
  next hamong =>
  split
  next haway => exact h.skip fun _ => by simpa using haway
  next hthere =>
  rw [Bool.not_eq_true, Bool.not_eq_false'] at hamong hthere
  split
  next hless =>
    refine ⟨List.mem_append_right _ List.mem_cons_self, hamong, hthere, rfl, fun x hx hx' hx'' => ?_⟩
    rcases List.mem_append.1 hx with hx | hx
    · cases hlead : acc.2 with
      | none =>
        rw [hlead] at h
        exact absurd hx'' (Bool.eq_false_iff.1 (h x hx hx'))
      | some leader =>
        rw [hlead] at h hless
        exact (h.2.2.2.2 x hx hx' hx'').trans (Nat.le_of_lt hless)
    · exact List.mem_singleton.1 hx ▸ Nat.le_refl _
  next hless =>
  cases hlead : acc.2 with
  | none =>
    rw [hlead] at hless
    exact absurd (Nat.succ_pos _) hless
  | some leader =>
    rw [hlead] at h hless
    obtain ⟨hmem, hamong', hthere', hresult, hmax⟩ := h
    refine ⟨List.mem_append_left _ hmem, hamong', hthere', hresult, fun x hx hx' hx'' => ?_⟩
    rcases List.mem_append.1 hx with hx | hx
    · exact hmax x hx hx' hx''
    · exact List.mem_singleton.1 hx ▸ Nat.not_lt.1 hless

/-- After the loop the leader is ahead of all. -/
theorem Ahead.rounds : ∀ {votes seen : List (ObjectGuid × RollVote)} {acc : UInt8 × Option Leader},
    Ahead env allowedMap among seen acc.2 →
    Ahead env allowedMap among (seen ++ votes) (votes.foldl (rollRound env allowedMap among) acc).2
  | [], _, _, h => by rwa [List.append_nil]
  | e :: votes, seen, acc, h => by
    have h' := @Ahead.rounds votes _ _ (h.round e)
    rwa [List.append_assoc] at h'

/-- Somebody of the kind who is not there. -/
def missing (env : RollEnv) (allowedMap : Option Nat) (among : RollVote → Bool) (e : ObjectGuid × RollVote) : Bool :=
  among e.2 && !env.eligible allowedMap e.1

theorem rollRound_counter {acc : UInt8 × Option Leader} {e : ObjectGuid × RollVote}
    (h : (if missing env allowedMap among e then 1 else 0) ≤ acc.1.toNat) :
    (rollRound env allowedMap among acc e).1.toNat + (if missing env allowedMap among e then 1 else 0) = acc.1.toNat := by
  unfold missing at h ⊢
  unfold rollRound
  split
  next hno =>
    have hno : among e.2 = false := by simpa using hno
    rw [hno]
    rfl
  next hamong =>
  rw [Bool.not_eq_true, Bool.not_eq_false'] at hamong
  rw [hamong, Bool.true_and] at h ⊢
  split
  next haway =>
    rw [if_pos haway] at h
    dsimp only
    rw [GroupRolls.toNat_sub_one h]
    omega
  next =>
    split <;> rfl

/-- The absent ones are taken from the counter. -/
theorem rollRounds_counter : ∀ {votes : List (ObjectGuid × RollVote)} {acc : UInt8 × Option Leader},
    votes.countP (missing env allowedMap among) ≤ acc.1.toNat →
    (votes.foldl (rollRound env allowedMap among) acc).1.toNat + votes.countP (missing env allowedMap among) = acc.1.toNat
  | [], _, _ => rfl
  | e :: votes, acc, h => by
    rw [List.countP_cons] at h ⊢
    have hround := @rollRound_counter env allowedMap among acc e (by omega)
    have hrest := @rollRounds_counter votes (rollRound env allowedMap among acc e) (by omega)
    rw [List.foldl_cons]
    omega

theorem countP_missing (env : RollEnv) (allowedMap : Option Nat) (among : RollVote → Bool) (votes : List (ObjectGuid × RollVote)) :
    votes.countP (fun e => among e.2) =
      (votes.countP fun e => among e.2 && env.eligible allowedMap e.1) + votes.countP (missing env allowedMap among) := by
  induction votes with
  | nil => rfl
  | cons e votes ih =>
    rw [List.countP_cons, List.countP_cons, List.countP_cons, ih]
    unfold missing
    cases among e.2 <;> cases env.eligible allowedMap e.1 <;> simp only [Bool.and_true, Bool.and_false, Bool.not_true,
      Bool.not_false, if_true, if_false, Bool.false_eq_true] <;> omega

/-- The counter tells whether somebody won. -/
theorem contest_spec {total : UInt8} {votes : List (ObjectGuid × RollVote)} (hcount : votes.countP (fun e => among e.2) ≤ total.toNat) :
    Ahead env allowedMap among votes (contest env allowedMap among total votes).2 ∧
      ((contest env allowedMap among total votes).2.isSome = true → (contest env allowedMap among total votes).1 ≠ 0) ∧
      ((contest env allowedMap among total votes).2 = none → votes ≠ [] → (contest env allowedMap among total votes).1 = 0) := by
  unfold contest
  split
  next hnone =>
    refine ⟨fun e he hamong => ?_, nofun, fun _ hne => ?_⟩
    · rcases Bool.or_eq_true_iff.1 hnone with hzero | hempty
      · rw [of_decide_eq_true hzero] at hcount
        exact absurd hamong (List.countP_eq_zero.1 (Nat.le_zero.1 hcount) e he)
      · rw [List.isEmpty_iff.1 hempty] at he
        cases he
    · rcases Bool.or_eq_true_iff.1 hnone with hzero | hempty
      · exact of_decide_eq_true hzero
      · exact absurd (List.isEmpty_iff.1 hempty) hne
  next =>
  have hahead : Ahead env allowedMap among votes (votes.foldl (rollRound env allowedMap among) (total, none)).2 :=
    @Ahead.rounds _ _ _ votes [] (total, none) fun _ h => (nomatch h)
  refine ⟨hahead, fun hsome => ?_, fun hnone _ => ?_⟩
  · dsimp only at hsome ⊢
    rw [if_pos hsome]
    obtain ⟨leader, hleader⟩ := Option.isSome_iff_exists.1 hsome
    rw [hleader] at hahead
    obtain ⟨hmem, hamong, hthere, -⟩ := hahead
    -- the leader is counted, and he is not missing
    have hsplit := countP_missing env allowedMap among votes
    have hpos : 0 < votes.countP fun e => among e.2 && env.eligible allowedMap e.1 :=
      List.countP_pos_iff.2 ⟨_, hmem, by rw [hamong, hthere]; rfl⟩
    have hcounter : (votes.foldl (rollRound env allowedMap among) (total, none)).1.toNat +
        votes.countP (missing env allowedMap among) = total.toNat := @rollRounds_counter _ _ _ votes (total, none) (by dsimp only; omega)
    intro hzero
    rw [hzero, UInt8.toNat_zero] at hcounter
    omega
  · dsimp only at hnone ⊢
    rw [hnone]
    rfl

end

/-! ## The winner -/

section

variable {env : RollEnv} {allowedMap : Option Nat} {among : RollVote → Bool} {roll : Roll}

theorem Ahead.highest {leader : Leader} (h : Ahead env allowedMap among roll.playerVote.entries (some leader)) :
    roll.Highest env allowedMap among leader.guid ∧ roll.playerVote.find? leader.guid = some leader.vote := by
  obtain ⟨hmem, hamong, hthere, hresult, hmax⟩ := h
  have hvote := OMap.mem_entries.1 hmem
  refine ⟨⟨⟨leader.vote, hvote, hamong, hthere⟩, fun other ho => ?_⟩, hvote⟩
  obtain ⟨vote, hfind, hamong', hthere'⟩ := ho
  exact hresult ▸ hmax _ (OMap.mem_entries.2 hfind) hamong' hthere'

theorem Ahead.nobody (h : Ahead env allowedMap among roll.playerVote.entries none) :
    ¬ ∃ player, roll.Present env allowedMap among player := by
  rintro ⟨player, vote, hfind, hamong, hthere⟩
  rw [h _ (OMap.mem_entries.2 hfind) hamong] at hthere
  cases hthere

/-- The voters of a kind are the entries of that kind. -/
theorem Roll.votesOf_eq_countP (p : RollVote → Bool) (roll : Roll) :
    roll.votesOf p = roll.playerVote.entries.countP fun e => p e.2 := by
  unfold votesOf OMap.total
  induction roll.playerVote.entries with
  | nil => rfl
  | cons e l ih => rw [List.map_cons, List.sum_cons, List.countP_cons, ih, Nat.add_comm]

theorem storeNewItem_given {player : ObjectGuid} (h : env.eligible allowedMap player = true) (slot : UInt8) (loot : Loot) :
    storeNewItem env slot player loot = (Award.apply slot loot (some (env.given player)), [env.given player]) := by
  have hconnected : env.connected player = true := by
    unfold RollEnv.eligible RollEnv.findPlayer at h
    simp only [Bool.and_eq_true] at h
    exact h.1.1
  unfold storeNewItem RollEnv.given
  rw [hconnected]
  split
  next hno => cases hno
  next => split <;> rfl

theorem disenchant_prize {player : ObjectGuid} (h : env.eligible allowedMap player = true) (slot : UInt8) (loot : Loot) :
    disenchant env slot player loot = (Award.apply slot loot (some (env.prize player .disenchant)), [env.prize player .disenchant]) := by
  have hconnected : env.connected player = true := by
    unfold RollEnv.eligible RollEnv.findPlayer at h
    simp only [Bool.and_eq_true] at h
    exact h.1.1
  unfold disenchant
  rw [hconnected]
  rfl

theorem greed_prize {player : ObjectGuid} {vote : RollVote} (h : env.eligible allowedMap player = true)
    (hvote : isGreed vote = true) (slot : UInt8) (loot : Loot) :
    (if vote = .greed then storeNewItem env slot player loot else disenchant env slot player loot) =
      (Award.apply slot loot (some (env.prize player vote)), [env.prize player vote]) := by
  rcases Bool.or_eq_true_iff.1 hvote with hgreed | hdisenchant
  · cases of_decide_eq_true hgreed
    exact storeNewItem_given h slot loot
  · cases of_decide_eq_true hdisenchant
    exact disenchant_prize h slot loot

/-- The item of a roll goes to the winner, to nobody else, and becomes free if there is none. -/
theorem settle_spec (hs : roll.Counted) (loot : Loot) :
    ∃ award : Option Award, (settle env allowedMap roll loot).2 = award.toList ∧ roll.WonBy env allowedMap award ∧
      ((settle env allowedMap roll loot).1 = Award.apply roll.itemSlot loot award ∨
        (award = none ∧ (settle env allowedMap roll loot).1 = loot) ∧ ¬ roll.Spent) := by
  obtain ⟨hneed, hneedSome, hneedNone⟩ := @contest_spec env allowedMap (· = .need) roll.totalNeed roll.playerVote.entries
    ((roll.votesOf_eq_countP _).symm.trans_le hs.need)
  obtain ⟨hgreed, hgreedSome, hgreedNone⟩ := @contest_spec env allowedMap isGreed roll.totalGreed roll.playerVote.entries
    ((roll.votesOf_eq_countP _).symm.trans_le hs.greed)
  unfold settle
  dsimp only
  cases hwinner : (contest env allowedMap (· = .need) roll.totalNeed roll.playerVote.entries).2 with
  | some leader =>
    rw [hwinner] at hneed
    have hcounter := hneedSome (by rw [hwinner]; rfl)
    obtain ⟨hhighest, -⟩ := hneed.highest
    have hstore := storeNewItem_given hneed.2.2.1 roll.itemSlot loot
    refine ⟨some (env.given leader.guid), ?_, ⟨fun _ => ⟨_, hhighest, rfl⟩, fun hno => absurd ⟨_, hhighest.1⟩ hno,
      fun hno => absurd ⟨_, hhighest.1⟩ hno⟩, .inl ?_⟩
    · rw [if_neg hcounter, Option.elim_some, Option.elim_none, hstore]
      rfl
    · rw [if_neg hcounter, if_neg fun h => hcounter h.1, Option.elim_some, Option.elim_none, hstore]
  | none =>
    rw [hwinner] at hneed
    have hnoNeed := hneed.nobody
    by_cases hvotes : roll.playerVote.entries = []
    · have hvoted (among : RollVote → Bool) : ¬ ∃ player, roll.Present env allowedMap among player := by
        rintro ⟨player, vote, hfind, -⟩
        have hmem := OMap.mem_entries.2 hfind
        rw [hvotes] at hmem
        cases hmem
      have hcontest (among : RollVote → Bool) (total : UInt8) :
          contest env allowedMap among total roll.playerVote.entries = (total, none) := by
        unfold contest
        rw [if_pos (by rw [hvotes, List.isEmpty_nil, Bool.or_true])]
      rw [hcontest, hcontest, ite_self]
      refine ⟨none, rfl, ⟨fun h => absurd h (hvoted _), fun _ h => absurd h (hvoted _), fun _ _ => rfl⟩, ?_⟩
      split
      next => exact .inl rfl
      next hcounted => exact .inr ⟨⟨rfl, rfl⟩, fun hspent => hcounted (hspent hvotes)⟩
    · have hcounter := hneedNone hwinner hvotes
      rw [if_pos hcounter]
      cases hwinner' : (contest env allowedMap isGreed roll.totalGreed roll.playerVote.entries).2 with
      | some leader =>
        rw [hwinner'] at hgreed
        have hcounter' := hgreedSome (by rw [hwinner']; rfl)
        obtain ⟨hhighest, hvote⟩ := hgreed.highest
        have hthere := hgreed.2.2.1
        refine ⟨some (env.prize leader.guid leader.vote), ?_, ⟨fun h => absurd h hnoNeed, fun _ _ => ⟨_, _, hhighest, hvote, rfl⟩,
          fun _ h => absurd ⟨_, hhighest.1⟩ h⟩, .inl ?_⟩
        · rw [Option.elim_some, Option.elim_none, greed_prize hthere hgreed.2.1]
          rfl
        · rw [Option.elim_some, Option.elim_none, greed_prize hthere hgreed.2.1, if_neg fun h => hcounter' h.2]
      | none =>
        rw [hwinner'] at hgreed
        refine ⟨none, rfl, ⟨fun h => absurd h hnoNeed, fun _ h => absurd h hgreed.nobody, fun _ _ => rfl⟩, .inl ?_⟩
        rw [if_pos ⟨hcounter, hgreedNone hwinner' hvotes⟩]
        rfl

end

/-! ## Calls of CountTheRoll -/

namespace Roll

open GroupRolls

variable {roll : Roll} {player : ObjectGuid} {choice : Nat}

theorem Sound.counted (h : roll.Sound) : roll.Counted := ⟨h.need, h.greed⟩

/-- The last vote too is counted. -/
theorem Sound.counted_vote (h : roll.Sound) (hvoter : (roll.playerVote.find? player).isSome = true) :
    (GroupRolls.vote player choice roll).Counted := by
  rcases vote_cases player choice roll with hv | ⟨v, -, hv⟩
  · exact hv.symm ▸ h.counted
  rw [hv]
  obtain ⟨old, hold⟩ := Option.isSome_iff_exists.1 hvoter
  have hneeds := votesOf_cast (· = .need) v hold
  have hgreeds := votesOf_cast isGreed v hold
  have hneed : (cast player v roll).totalNeed.toNat = roll.totalNeed.toNat + if v = .need then 1 else 0 :=
    toNat_count _ h.needFew
  have hgreed : (cast player v roll).totalGreed.toNat = roll.totalGreed.toNat + if isGreed v then 1 else 0 :=
    toNat_count _ h.greedFew
  have hle := h.need
  have hle' := h.greed
  simp only [decide_eq_true_eq] at hneeds
  exact ⟨by omega, by omega⟩

end Roll

namespace GroupRolls

variable {s t : GroupRolls} {env : RollEnv} {allowedMap : Option Nat} {i : Nat}

/-- `CountTheRoll` is called, for which roll and what the rolls are then: when a vote is written down (`countRollVote`), when
the time of a loot is up (`endRoll`), and there again for the next roll. -/
inductive Called (s : GroupRolls) : GroupRolls → Nat → Prop
  | vote {guid i : Nat} {roll : Roll} (player : ObjectGuid) (choice : Nat) : s.getRoll guid = some i → s.rollId[i]? = some roll →
      (roll.playerVote.find? player).isSome = true → Called s { s with rollId := s.rollId.modify i (vote player choice) } i
  | ended {loot i : Nat} : s.rollId.findIdx? (·.loot = some loot) = some i → Called s s i
  | next {t : GroupRolls} {loot i j : Nat} (env : RollEnv) (allowedMap : Option Nat) : Called s t i →
      (t.countTheRoll env allowedMap i).1.rollId.findIdx? (·.loot = some loot) = some j →
      Called s (t.countTheRoll env allowedMap i).1 j

/-- Whenever `CountTheRoll` is called, the voters are counted and the loot is there. -/
theorem Called.spec (hs : s.Sound) (h : Called s t i) : (∀ roll ∈ t.rollId, roll.Counted) ∧
    (∀ roll ∈ t.rollId, ∀ id, roll.loot = some id → (t.loots id).isSome = true) ∧
    ∃ roll id, t.rollId[i]? = some roll ∧ roll.loot = some id := by
  have hfound {rolls : List Roll} {loot j : Nat} (hj : rolls.findIdx? (·.loot = some loot) = some j) :
      ∃ roll id, rolls[j]? = some roll ∧ roll.loot = some id := by
    obtain ⟨hlt, hloot, -⟩ := List.findIdx?_eq_some_iff_getElem.1 hj
    exact ⟨_, loot, List.getElem?_eq_getElem hlt, of_decide_eq_true hloot⟩
  induction h with
  | @vote guid i roll player choice hget hroll hvoter =>
    refine ⟨forall_modify (fun roll hr => (hs.rolls roll hr).counted) fun x hx => ?_,
      forall_modify hs.links fun x hx id hid => hs.links x (List.mem_of_getElem? hx) id ((Roll.vote_same player choice x).2 ▸ hid), ?_⟩
    · rw [hroll] at hx
      cases hx
      exact (hs.rolls roll (List.mem_of_getElem? hroll)).counted_vote hvoter
    · obtain ⟨hlt, hvalid, -⟩ := List.findIdx?_eq_some_iff_getElem.1 hget
      have hr : s.rollId[i] = roll := by
        rw [List.getElem?_eq_getElem hlt] at hroll
        exact Option.some_inj.1 hroll
      rw [Bool.and_eq_true, hr] at hvalid
      obtain ⟨id, hid⟩ := Option.isSome_iff_exists.1 hvalid.2
      refine ⟨GroupRolls.vote player choice roll, id, ?_, (Roll.vote_same player choice roll).2.trans hid⟩
      show (s.rollId.modify i (GroupRolls.vote player choice))[i]? = _
      rw [List.getElem?_modify_eq, hroll]
      rfl
  | ended hj => exact ⟨fun roll hr => (hs.rolls roll hr).counted, hs.links, hfound hj⟩
  | next env allowedMap _ hj ih =>
    obtain ⟨hcounted, hlinks, -⟩ := ih
    obtain ⟨hrolls, -, -, hloots⟩ := countTheRoll_spec env allowedMap _ _
    refine ⟨fun roll hr => ?_, fun roll hr id hid => ?_, hfound hj⟩
    · rw [hrolls] at hr
      exact hcounted roll (List.mem_of_mem_eraseIdx hr)
    · rw [hrolls] at hr
      exact hloots id (hlinks roll (List.mem_of_mem_eraseIdx hr) id hid)

/-- With its loot there, the item of a roll goes where it is to go. -/
theorem countTheRoll_settle (env : RollEnv) (allowedMap : Option Nat) {roll : Roll} {id : Nat} {loot : Loot}
    (hroll : t.rollId[i]? = some roll) (hid : roll.loot = some id) (hloot : t.loots id = some loot) :
    t.countTheRoll env allowedMap i = ({ t.setLoot id (settle env allowedMap roll loot).1 with rollId := t.rollId.eraseIdx i },
      (settle env allowedMap roll loot).2) := by
  have hget : t.getLoot roll = some loot := by
    unfold getLoot
    rw [hid]
    exact hloot
  unfold countTheRoll
  rw [hroll]
  dsimp only
  rw [hid, hget]

/-- Each time the roll is ended, and its item goes to the voter with the highest number among those who need it and are there,
or else among those who are greedy, to one player at most, or to nobody. -/
theorem countTheRoll_winner {lootThreshold : Nat} (hs : Reaches step Op.Allowed (start lootThreshold) s) (h : Called s t i)
    (env : RollEnv) (allowedMap : Option Nat) :
    ∃ roll id loot award loot', t.rollId[i]? = some roll ∧ roll.loot = some id ∧ t.loots id = some loot ∧
      roll.WonBy env allowedMap award ∧ (t.countTheRoll env allowedMap i).2 = award.toList ∧
      (loot' = Award.apply roll.itemSlot loot award ∨ award = none ∧ loot' = loot) ∧
      (t.countTheRoll env allowedMap i).1.loots = Function.update t.loots id (some loot') ∧
      (t.countTheRoll env allowedMap i).1.rollId = t.rollId.eraseIdx i := by
  obtain ⟨hcounted, hlinks, roll, id, hroll, hid⟩ := h.spec (sound_of_reaches hs)
  have hmem := List.mem_of_getElem? hroll
  obtain ⟨loot, hloot⟩ := Option.isSome_iff_exists.1 (hlinks roll hmem id hid)
  obtain ⟨award, haward, hwon, happly⟩ := @settle_spec env allowedMap roll (hcounted roll hmem) loot
  rw [countTheRoll_settle env allowedMap hroll hid hloot]
  exact ⟨roll, id, loot, award, _, hroll, hid, hloot, hwon, haward, happly.imp_right And.left, rfl, rfl⟩

/-- Two members need the item of a roll, and one of them is offline. -/
theorem countTheRoll_winner_three : ∃ roll id loot award loot', (three [1, 2]).rollId[0]? = some roll ∧ roll.loot = some id ∧
    (three [1, 2]).loots id = some loot ∧
      roll.WonBy ⟨(· ≠ 1), fun _ => true, fun _ => some 0, fun _ => true, fun _ => 0⟩ (some 0) award ∧
      ((three [1, 2]).countTheRoll ⟨(· ≠ 1), fun _ => true, fun _ => some 0, fun _ => true, fun _ => 0⟩ (some 0) 0).2 = award.toList ∧
      (loot' = Award.apply roll.itemSlot loot award ∨ award = none ∧ loot' = loot) ∧
      ((three [1, 2]).countTheRoll ⟨(· ≠ 1), fun _ => true, fun _ => some 0, fun _ => true, fun _ => 0⟩ (some 0) 0).1.loots =
        Function.update (three [1, 2]).loots id (some loot') ∧
      ((three [1, 2]).countTheRoll ⟨(· ≠ 1), fun _ => true, fun _ => some 0, fun _ => true, fun _ => 0⟩ (some 0) 0).1.rollId =
        (three [1, 2]).rollId.eraseIdx 0 :=
  countTheRoll_winner (three_reached (by decide)) (@Called.ended _ 0 0 (by decide)) _ _

end GroupRolls

end AtlasWow
