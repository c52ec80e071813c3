/-
The counters of a roll and its votes. While nobody votes twice, nobody passes
without being counted and nobody leaves who alone was waited for, the counters
are the numbers of voters (`Exact`), and a roll is closed by the vote after
which everybody has voted (`counters_match`).
-/
import AtlasWow.Groups.RollLeave
import AtlasWow.Groups.RollWinner

namespace AtlasWow

open Loots (LootItem Loot)

namespace Roll

open GroupRolls

/-- The counters are the numbers of voters. -/
structure Exact (roll : Roll) : Prop where
  rolling : roll.totalPlayersRolling.toNat = roll.votesOf fun _ => true
  need : roll.totalNeed.toNat = roll.votesOf (· = .need)
  greed : roll.totalGreed.toNat = roll.votesOf isGreed
  pass : roll.totalPass.toNat = roll.votesOf (· = .pass)

variable {roll roll' : Roll} {player guid : ObjectGuid} {choice : Nat}

/-- Every voter has one vote, or none yet. -/
theorem votesOf_true (roll : Roll) : (roll.votesOf fun _ => true) = roll.votesOf (· = .pass) + roll.votesOf (· = .need) +
    roll.votesOf isGreed + roll.votesOf (· = .notEmitedYet) + roll.votesOf (· = .notValid) := by
  simp only [votesOf_eq_countP]
  induction roll.playerVote.entries with
  | nil => rfl
  | cons e l ih =>
    obtain ⟨player, v⟩ := e
    simp only [List.countP_cons, ih]
    cases v <;> simp [isGreed] <;> omega

theorem hanging_iff (roll : Roll) : roll.Hanging ↔ roll.votesOf (· = .notEmitedYet) = 0 := by
  rw [votesOf_eq_countP, List.countP_eq_zero]
  unfold Hanging
  constructor
  · intro h e he heq
    exact h e.1 e.2 (OMap.mem_entries.1 he) (of_decide_eq_true heq)
  · intro h player vote hv heq
    exact h (player, vote) (OMap.mem_entries.2 hv) (decide_eq_true heq)

/-- By the counters everybody has voted exactly if everybody has. -/
theorem Exact.complete_iff (h : roll.Exact) (hs : roll.votesOf (· = .notValid) = 0) : complete roll = true ↔ roll.Hanging := by
  have hall := votesOf_true roll
  have hrolling := h.rolling
  have hneed := h.need
  have hgreed := h.greed
  have hpass := h.pass
  rw [complete, decide_eq_true_iff, hanging_iff]
  omega

/-! ### Votes -/

/-- A first vote, and its counter. -/
theorem Exact.vote (h : roll.Exact) (hs : roll.Sound) (hvoter : roll.playerVote.find? player = some .notEmitedYet) :
    (vote player choice roll).Exact := by
  rcases vote_cases player choice roll with hv | ⟨v, -, hv⟩
  · exact hv.symm ▸ h
  rw [hv]
  have hfew : roll.totalPass.toNat ≤ MAXRAIDSIZE := by
    have hall := votesOf_true roll
    have hrolling := h.rolling
    have hpass := h.pass
    have hfew := hs.few
    omega
  have hcount := fun p => votesOf_cast p v hvoter
  have hall := hcount fun _ => true
  have hneeds := hcount (· = .need)
  have hgreeds := hcount isGreed
  have hpasses := hcount (· = .pass)
  have hneed : (cast player v roll).totalNeed.toNat = roll.totalNeed.toNat + if v = .need then 1 else 0 :=
    toNat_count _ hs.needFew
  have hgreed : (cast player v roll).totalGreed.toNat = roll.totalGreed.toNat + if isGreed v then 1 else 0 :=
    toNat_count _ hs.greedFew
  have hpass : (cast player v roll).totalPass.toNat = roll.totalPass.toNat + if v = .pass then 1 else 0 :=
    toNat_count _ hfew
  have hrolling : (cast player v roll).totalPlayersRolling.toNat = roll.votesOf fun _ => true := h.rolling
  have hneed' := h.need
  have hgreed' := h.greed
  have hpass' := h.pass
  have hnoGreed : isGreed .notEmitedYet = false := rfl
  rw [hnoGreed] at hgreeds
  simp only [decide_eq_true_eq, if_true, reduceCtorEq, if_false, Bool.false_eq_true] at hneeds hgreeds hpasses hall
  exact ⟨by omega, by omega, by omega, by omega⟩

/-- The last vote may be the one that makes a roll complete: only then is it not sound. -/
theorem valid_vote (hs : roll.Sound) (hvoter : (roll.playerVote.find? player).isSome = true) :
    (GroupRolls.vote player choice roll).votesOf (· = .notValid) = 0 := by
  rcases vote_cases player choice roll with hv | ⟨v, hvalid, hv⟩
  · exact hv.symm ▸ hs.valid
  obtain ⟨old, hold⟩ := Option.isSome_iff_exists.1 hvoter
  have hcount := votesOf_cast (· = .notValid) v hold
  rw [hs.valid] at hcount
  simp only [decide_eq_true_eq, if_neg hvalid] at hcount
  rw [hv]
  omega

/-- A vote that is taken back. -/
theorem Exact.withdraw (h : roll.Exact) (hs : roll.Sound) (guid : ObjectGuid) : (withdraw guid roll).Exact := by
  rcases withdraw_cases hs guid with hsame | ⟨v, hcount, hone, hneed, hgreed, hpass⟩
  · exact hsame.symm ▸ h
  have hall := hcount fun _ => true
  have hneeds := hcount (· = .need)
  have hgreeds := hcount isGreed
  have hpasses := hcount (· = .pass)
  have hrolling := h.rolling
  have hneed' := h.need
  have hgreed' := h.greed
  have hpass' := h.pass
  simp only [decide_eq_true_eq, if_true] at hneeds hpasses hall
  have hless : (GroupRolls.withdraw guid roll).totalPass.toNat = roll.totalPass.toNat - if v = .pass then 1 else 0 := by
    rw [hpass]
    split
    next hv =>
      rw [if_pos hv] at hpasses
      exact toNat_sub_one (by omega)
    next => rfl
  exact ⟨by omega, by omega, by omega, by omega⟩

/-! ### New rolls -/

variable {quest : Bool} {item : LootItem} {member : Candidate} {members : List Candidate}

theorem Exact.join (h : roll.Exact) (hs : roll.Sound) (hnew : roll.playerVote.find? member.guid = none)
    (hasked : member.atGroupRewardDistance = true → quest = false → member.passOnGroupLoot = true →
      member.canRollOnItem item = false) : (join quest item roll member).Exact := by
  cases hnear : member.atGroupRewardDistance with
  | false => exact (join_far hnear).symm ▸ h
  | true =>
    obtain ⟨roll', hr⟩ : ∃ roll', roll' = GroupRolls.join quest item roll member := ⟨_, rfl⟩
    rw [← hr]
    rw [join_eq hnear] at hr
    -- who begins with a pass cannot roll
    have hfirst : firstVote quest item member = if member.canRollOnItem item then .notEmitedYet else .pass := by
      unfold firstVote
      cases hcan : member.canRollOnItem item with
      | false => rfl
      | true =>
        cases quest with
        | true => rfl
        | false =>
          cases hpass : member.passOnGroupLoot with
          | false => rfl
          | true => exact absurd (hasked hnear rfl hpass) (by rw [hcan]; decide)
    have hcount := fun p => @votesOf_insert_new _ roll' _ p _ hnew (by rw [hr, hfirst])
    have hall := hcount fun _ => true
    have hneeds := hcount (· = .need)
    have hgreeds := hcount isGreed
    have hpasses := hcount (· = .pass)
    have hrolling := h.rolling
    have hneed := h.need
    have hgreed := h.greed
    have hpass := h.pass
    have hfew : roll.totalPass.toNat ≤ MAXRAIDSIZE := by
      have hsum := votesOf_true roll
      have hfew := hs.few
      omega
    have hone : roll'.totalPlayersRolling.toNat = roll.totalPlayersRolling.toNat + 1 := by
      rw [hr]
      exact toNat_add_one hs.few
    have hsame : roll'.totalNeed = roll.totalNeed ∧ roll'.totalGreed = roll.totalGreed := by
      rw [hr]
      exact ⟨rfl, rfl⟩
    have hpassed : roll'.totalPass.toNat = roll.totalPass.toNat + if member.canRollOnItem item then 0 else 1 := by
      rw [hr]
      show (if member.canRollOnItem item then roll.totalPass else roll.totalPass + 1).toNat = _
      split
      · rfl
      · exact toNat_add_one hfew
    have hnoGreed : isGreed (if member.canRollOnItem item then .notEmitedYet else .pass) = false := by split <;> rfl
    rw [hnoGreed] at hgreeds
    refine ⟨by rw [if_pos rfl] at hall; omega, ?_, ?_, ?_⟩
    · cases hcan : member.canRollOnItem item <;>
        simp only [hcan, if_true, if_false, Bool.false_eq_true, reduceCtorEq, decide_false] at hneeds <;> rw [hsame.1] <;> omega
    · rw [if_neg Bool.false_ne_true, Nat.zero_add] at hgreeds
      exact (congrArg UInt8.toNat hsame.2).trans (hgreed.trans hgreeds.symm)
    · cases hcan : member.canRollOnItem item <;>
        simp only [hcan, if_true, if_false, Bool.false_eq_true, reduceCtorEq, decide_false, decide_true] at hpasses hpassed <;> omega

/-- All members come to a roll: the counters are exact, and each has the vote he begins with. -/
theorem joined_exact : ∀ {members : List Candidate} {roll : Roll}, roll.Exact → roll.Sound → (members.map (·.guid)).Nodup →
    (∀ member ∈ members, roll.playerVote.find? member.guid = none) →
    roll.totalPlayersRolling.toNat + members.length ≤ MAXRAIDSIZE →
    (∀ member ∈ members, member.atGroupRewardDistance = true → quest = false → member.passOnGroupLoot = true →
      member.canRollOnItem item = false) →
    (members.foldl (GroupRolls.join quest item) roll).Exact ∧ ∀ member ∈ members, member.atGroupRewardDistance = true →
      (members.foldl (GroupRolls.join quest item) roll).playerVote.find? member.guid = some (firstVote quest item member)
  | [], _, h, _, _, _, _, _ => ⟨h, fun _ hm => (nomatch hm)⟩
  | member :: members, roll, h, hs, hnodup, hnew, hroom, hasked => by
    rw [List.map_cons, List.nodup_cons] at hnodup
    rw [List.length_cons] at hroom
    rw [List.forall_mem_cons] at hasked hnew
    have hne : ∀ m ∈ members, m.guid ≠ member.guid := fun m hm he => hnodup.1 (he ▸ List.mem_map_of_mem hm)
    have hless : (GroupRolls.join quest item roll member).totalPlayersRolling.toNat ≤ roll.totalPlayersRolling.toNat + 1 := by
      unfold GroupRolls.join
      split
      · omega
      · exact (toNat_add_one hs.few).le
    obtain ⟨hexact, hvotes⟩ := @joined_exact members _ (h.join hs hnew.1 hasked.1) (hs.join hnew.1 (by omega)) hnodup.2
      (fun m hm => by rw [find?_join (hne m hm)]; exact hnew.2 m hm) (by omega) hasked.2
    refine ⟨hexact, fun m hm hnear => ?_⟩
    rcases List.mem_cons.1 hm with rfl | hm
    · have hlater : ∀ {later : List Candidate} {roll : Roll}, (∀ m' ∈ later, m.guid ≠ m'.guid) →
          (later.foldl (GroupRolls.join quest item) roll).playerVote.find? m.guid = roll.playerVote.find? m.guid := by
        intro later
        induction later with
        | nil => exact fun _ => rfl
        | cons m' later ih =>
          intro roll hother
          rw [List.foldl_cons, ih fun m'' hm'' => hother m'' (List.mem_cons_of_mem _ hm''),
            find?_join (hother m' List.mem_cons_self)]
      rw [List.foldl_cons, hlater fun m' hm' => (hne m' hm').symm, join_eq hnear]
      exact OMap.find?_insert_self ..
    · exact hvotes m hm hnear

end Roll

namespace GroupRolls

/-- Of those who are near and may roll for an item nobody passes by himself, and if the roll is begun in any case there is
one of them. -/
def Asks (quest drops : Bool) (members : List Candidate) (item : LootItem) : Prop :=
  (quest = false → ∀ member ∈ members, member.atGroupRewardDistance = true → member.passOnGroupLoot = true →
    member.canRollOnItem item = false) ∧
  (drops = false → (∃ member ∈ members, member.atGroupRewardDistance = true) →
    ∃ member ∈ members, member.atGroupRewardDistance = true ∧ member.canRollOnItem item = true)

/-- The open rolls have exact counters, and each waits for somebody. -/
def Counted (s : GroupRolls) : Prop := ∀ roll ∈ s.rollId, roll.Exact ∧ ¬roll.Hanging

variable {s s' : GroupRolls} {env : RollEnv} {quest drops needBeforeGreed : Bool} {members : List Candidate}
  {item : LootItem} {guid choice id loot : Nat} {slot : UInt8} {player : ObjectGuid} {quality : Nat → Option Nat}

/-- A new roll that is begun has exact counters and waits for somebody. -/
theorem newRoll_counted (hasks : Asks quest drops members item) (hnodup : (members.map (·.guid)).Nodup)
    (hfew : members.length ≤ MAXRAIDSIZE) (hsome : (newRoll quest members guid id slot item).totalPlayersRolling ≠ 0)
    (hopen : ¬(drops && (newRoll quest members guid id slot item).totalPass =
      (newRoll quest members guid id slot item).totalPlayersRolling) = true) :
    (newRoll quest members guid id slot item).Exact ∧ ¬(newRoll quest members guid id slot item).Hanging := by
  obtain ⟨hsound, -, -⟩ := @Roll.sound_newRoll quest members guid id slot item hnodup hfew
  obtain ⟨hexact, hvotes⟩ := @Roll.joined_exact quest item members ⟨guid, item.itemid, slot, some id, .empty, 0, 0, 0, 0⟩
    ⟨rfl, rfl, rfl, rfl⟩ ⟨rfl, Nat.zero_le _, Nat.zero_le _, Nat.zero_le _, Nat.zero_le _, Nat.zero_le _, rfl⟩ hnodup
    (fun _ _ => rfl) (by show 0 + members.length ≤ MAXRAIDSIZE; omega)
    (fun m hm hnear hquest => hasks.1 hquest m hm hnear)
  refine ⟨hexact, fun hhanging => ?_⟩
  have hnear : ∃ member ∈ members, member.atGroupRewardDistance = true := by
    by_contra hnone
    refine hsome ?_
    have hkept : ∀ {later : List Candidate} {roll : Roll}, (∀ m ∈ later, ¬m.atGroupRewardDistance = true) →
        later.foldl (join quest item) roll = roll := by
      intro later
      induction later with
      | nil => exact fun _ => rfl
      | cons m later ih =>
        intro roll hfar
        have hjoin : join quest item roll m = roll := by
          unfold join
          rw [if_pos (by simpa using hfar m List.mem_cons_self)]
        rw [List.foldl_cons, hjoin, ih fun m' hm' => hfar m' (List.mem_cons_of_mem _ hm')]
    unfold newRoll
    rw [hkept fun m hm hnear => hnone ⟨m, hm, hnear⟩]
  by_cases hcan : ∃ member ∈ members, member.atGroupRewardDistance = true ∧ member.canRollOnItem item = true
  · -- he is asked
    obtain ⟨m, hm, hnear, hcan⟩ := hcan
    refine hhanging m.guid _ (hvotes m hm hnear) ?_
    unfold Roll.firstVote
    rw [hcan]
    cases quest with
    | true => rfl
    | false =>
      have hno : m.passOnGroupLoot = false := Bool.eq_false_iff.2 fun hpass => by
        rw [hasks.1 rfl m hm hnear hpass] at hcan
        exact Bool.false_ne_true hcan
      rw [hno]
      rfl
  · cases hdrops : drops with
    | false => exact hcan (hasks.2 hdrops hnear)
    | true =>
      -- everybody has passed, so that the roll is given up
      refine hopen ?_
      rw [hdrops, Bool.true_and, decide_eq_true_iff]
      have hzero : ∀ {later : List Candidate} {roll : Roll}, roll.totalNeed = 0 ∧ roll.totalGreed = 0 →
          (later.foldl (join quest item) roll).totalNeed = 0 ∧ (later.foldl (join quest item) roll).totalGreed = 0 := by
        intro later
        induction later with
        | nil => exact fun h => h
        | cons m later ih =>
          intro roll h
          rw [List.foldl_cons]
          refine ih ?_
          unfold join
          split <;> exact h
      obtain ⟨hneed, hgreed⟩ := @hzero members ⟨guid, item.itemid, slot, some id, .empty, 0, 0, 0, 0⟩ ⟨rfl, rfl⟩
      have hsum := Roll.votesOf_true (newRoll quest members guid id slot item)
      have hrolling := hexact.rolling
      have hneeds := hexact.need
      have hgreeds := hexact.greed
      have hpass := hexact.pass
      have hvalid := hsound.valid
      rw [Roll.hanging_iff] at hhanging
      rw [hneed] at hneeds
      rw [hgreed] at hgreeds
      refine UInt8.toNat_inj.1 ?_
      show (members.foldl (join quest item) _).totalPass.toNat = (members.foldl (join quest item) _).totalPlayersRolling.toNat
      rw [hpass, hrolling]
      change _ = (newRoll quest members guid id slot item).votesOf _ at hneeds
      change _ = (newRoll quest members guid id slot item).votesOf _ at hgreeds
      change (newRoll quest members guid id slot item).votesOf _ = (newRoll quest members guid id slot item).votesOf _
      rw [hsum, hvalid, hhanging, ← hneeds, ← hgreeds]
      rfl

theorem Counted.beginRoll (h : s.Counted) (hasks : Asks quest drops members item) (hnodup : (members.map (·.guid)).Nodup)
    (hfew : members.length ≤ MAXRAIDSIZE) : (s.beginRoll quest drops members id slot item).Counted := by
  unfold GroupRolls.beginRoll
  dsimp only
  split
  next => exact h
  next hsome =>
  split
  next => exact h
  next hopen =>
  intro roll hr
  rcases List.mem_append.1 hr with hr | hr
  · exact h roll hr
  · rw [List.mem_singleton.1 hr]
    exact newRoll_counted hasks hnodup hfew hsome hopen

theorem Counted.lootOne (h : s.Counted) (hasks : RolledFor needBeforeGreed quality s.lootThreshold quest item →
      Asks quest (!needBeforeGreed && !quest) members item)
    (hnodup : (members.map (·.guid)).Nodup) (hfew : members.length ≤ MAXRAIDSIZE)
    (hs : s.lootOne needBeforeGreed quality members id quest slot item = some s') :
    s'.Counted ∧ s'.lootThreshold = s.lootThreshold := by
  rcases lootOne_cases hs with rfl | ⟨hrolled, rfl⟩ | rfl
  · exact ⟨h, rfl⟩
  · exact ⟨h.beginRoll (hasks hrolled) hnodup hfew, lootThreshold_beginRoll⟩
  · exact ⟨h, rfl⟩

/-! ## Votes that are counted -/

/-- A roll counts the vote of a voter while its loot is there. -/
def Takes (s : GroupRolls) (player : ObjectGuid) (guid : Nat) (roll : Roll) : Prop :=
  roll.itemGUID = guid ∧ roll.isValid = true ∧ (roll.playerVote.find? player).isSome = true ∧
    (s.getLoot roll).any (·.items.isEmpty) = false

instance (s : GroupRolls) (player : ObjectGuid) (guid : Nat) (roll : Roll) : Decidable (s.Takes player guid roll) :=
  inferInstanceAs (Decidable (_ ∧ _ ∧ _ ∧ _))

/-- A roll after a vote. -/
def voted (s : GroupRolls) (player : ObjectGuid) (guid choice : Nat) (roll : Roll) : Roll :=
  if s.Takes player guid roll then vote player choice roll else roll

/-- It is his first vote, or no vote at all. -/
def FirstVote (s : GroupRolls) (player : ObjectGuid) (guid choice : Nat) : Prop :=
  choice < MAX_ROLL_TYPE → ∀ roll ∈ s.rollId, s.Takes player guid roll → roll.playerVote.find? player = some .notEmitedYet

theorem vote_of_le (h : MAX_ROLL_TYPE ≤ choice) (roll : Roll) : vote player choice roll = roll := by
  have hne : choice ≠ ROLL_PASS ∧ choice ≠ ROLL_NEED ∧ choice ≠ ROLL_GREED ∧ choice ≠ ROLL_DISENCHANT := by
    unfold MAX_ROLL_TYPE at h
    unfold ROLL_PASS ROLL_NEED ROLL_GREED ROLL_DISENCHANT
    omega
  rw [vote, if_neg hne.1, if_neg hne.2.1, if_neg hne.2.2.1, if_neg hne.2.2.2]

/-- No roll takes the vote, or one does, which is changed in its place or, if it is complete then, taken from the list. -/
theorem countRollVote_cases (hs : s.Sound) :
    ((∀ roll ∈ s.rollId, ¬s.Takes player guid roll) ∧ (s.countRollVote env player guid choice).1 = s) ∨
      ∃ i roll, s.rollId[i]? = some roll ∧ s.Takes player guid roll ∧
        (∀ roll' ∈ s.rollId, s.Takes player guid roll' → roll' = roll) ∧
        (s.countRollVote env player guid choice).1.rollId = if complete (vote player choice roll) then s.rollId.eraseIdx i
          else s.rollId.modify i (vote player choice) := by
  unfold countRollVote
  split
  next hnone =>
    refine .inl ⟨fun roll hr htakes => ?_, rfl⟩
    have hno := List.findIdx?_eq_none_iff.1 hnone roll hr
    rw [htakes.1, htakes.2.1] at hno
    simp at hno
  next i hi =>
  obtain ⟨hlt, hfound, -⟩ := List.findIdx?_eq_some_iff_getElem.1 hi
  rw [Bool.and_eq_true, decide_eq_true_eq] at hfound
  have hroll := List.getElem?_eq_getElem hlt
  have hmem := List.getElem_mem hlt
  rw [hroll]
  dsimp only
  -- the guids of items are different
  have honly : ∀ roll' ∈ s.rollId, s.Takes player guid roll' → roll' = s.rollId[i] := fun roll' hr' htakes =>
    List.inj_on_of_nodup_map hs.guids hr' hmem (htakes.1.trans hfound.1.symm)
  split
  next hno =>
    refine .inl ⟨fun roll hr htakes => ?_, rfl⟩
    have hsome := htakes.2.2.1
    rw [honly roll hr htakes, Option.isNone_iff_eq_none.1 hno] at hsome
    exact Bool.false_ne_true hsome
  next hvoter =>
  split
  next hempty =>
    refine .inl ⟨fun roll hr htakes => ?_, rfl⟩
    have hthere := htakes.2.2.2
    rw [honly roll hr htakes, hempty] at hthere
    exact Bool.false_ne_true hthere.symm
  next hthere =>
  refine .inr ⟨i, s.rollId[i], hroll, ⟨hfound.1, hfound.2, ?_, by simpa using hthere⟩, honly, ?_⟩
  · simpa [Option.isSome_iff_ne_none] using hvoter
  · split
    next =>
      obtain ⟨hrolls, -⟩ := countTheRoll_spec env none i { s with rollId := s.rollId.modify i (vote player choice) }
      rw [hrolls]
      exact List.eraseIdx_modify_of_eq _ i s.rollId
    next => rfl

/-- A first vote leaves the counters exact; by them the roll is complete if everybody has voted. -/
theorem vote_counted (hs : s.Sound) (h : s.Counted) (hfirst : s.FirstVote player guid choice) {roll : Roll}
    (hr : roll ∈ s.rollId) (htakes : s.Takes player guid roll) :
    (vote player choice roll).Exact ∧ (complete (vote player choice roll) = true ↔ (vote player choice roll).Hanging) := by
  have hexact : (vote player choice roll).Exact := by
    by_cases hchoice : choice < MAX_ROLL_TYPE
    · exact (h roll hr).1.vote (hs.rolls roll hr) (hfirst hchoice roll hr htakes)
    · rw [vote_of_le (Nat.not_lt.1 hchoice)]
      exact (h roll hr).1
  exact ⟨hexact, hexact.complete_iff (Roll.valid_vote (hs.rolls roll hr) htakes.2.2.1)⟩

theorem Counted.countRollVote (h : s.Counted) (hs : s.Sound) (hfirst : s.FirstVote player guid choice) :
    (s.countRollVote env player guid choice).1.Counted := by
  rcases @countRollVote_cases s env guid choice player hs with ⟨-, hsame⟩ | ⟨i, roll, hroll, htakes, -, hrolls⟩
  · rw [hsame]
    exact h
  obtain ⟨hexact, hcomplete⟩ := vote_counted hs h hfirst (List.mem_of_getElem? hroll) htakes
  intro roll' hr'
  rw [hrolls] at hr'
  split at hr'
  next => exact h roll' (List.mem_of_mem_eraseIdx hr')
  next hopen =>
  revert roll' hr'
  refine forall_modify h fun x hx => ?_
  rw [hroll] at hx
  cases hx
  exact ⟨hexact, fun hhanging => hopen (hcomplete.2 hhanging)⟩

/-- A vote closes the roll after which everybody has voted, and no other. -/
theorem closed_iff (hs : s.Sound) (h : s.Counted) (hfirst : s.FirstVote player guid choice) {roll : Roll}
    (hr : roll ∈ s.rollId) :
    roll.itemGUID ∉ (s.countRollVote env player guid choice).1.rollId.map (·.itemGUID) ↔
      (s.voted player guid choice roll).Hanging := by
  unfold voted
  rcases @countRollVote_cases s env guid choice player hs with ⟨hnone, hsame⟩ | ⟨i, r, hget, htakes, honly, hrolls⟩
  · rw [hsame, if_neg (hnone roll hr)]
    exact iff_of_false (fun hout => hout (List.mem_map_of_mem hr)) (h roll hr).2
  have hmem := List.mem_of_getElem? hget
  obtain ⟨-, hcomplete⟩ := vote_counted hs h hfirst hmem htakes
  obtain ⟨hlt, heq⟩ := List.getElem?_eq_some_iff.1 hget
  rw [hrolls]
  by_cases hsame : roll = r
  · subst hsame
    rw [if_pos htakes, ← hcomplete]
    split
    next hdone =>
      refine iff_of_true (fun hin => ?_) hdone
      -- no other roll has the guid
      obtain ⟨other, hother, hguid⟩ := List.mem_map.1 hin
      obtain ⟨j, hj, hne, hat⟩ := List.mem_eraseIdx_iff_getElem.1 hother
      have hother : s.rollId[j] = s.rollId[i] := by
        rw [heq]
        exact List.inj_on_of_nodup_map hs.guids (List.getElem_mem hj) hr (hat ▸ hguid)
      exact hne ((List.Nodup.getElem_inj_iff (hs.guids.of_map _)).1 hother)
    next hopen =>
    refine iff_of_false (fun hout => hout ?_) hopen
    rw [map_modify_same fun roll => (Roll.vote_same player choice roll).1]
    exact List.mem_map_of_mem hr
  · rw [if_neg fun hother => hsame (honly roll hr hother)]
    refine iff_of_false (fun hout => hout ?_) (h roll hr).2
    split
    next =>
      obtain ⟨j, hj, hat⟩ := List.mem_iff_getElem.1 hr
      refine List.mem_map_of_mem (List.mem_eraseIdx_iff_getElem.2 ⟨j, hj, fun hij => hsame ?_, hat⟩)
      subst hij
      exact hat.symm.trans heq
    next =>
    rw [map_modify_same fun roll => (Roll.vote_same player choice roll).1]
    exact List.mem_map_of_mem hr

/-! ## Runs -/

/-- A step that keeps the counters: those near are asked, votes are first votes, and nobody leaves who alone is waited for. -/
def Op.Careful : Op → GroupRolls → Prop
  | .groupLoot needBeforeGreed quality members id, s => ∀ loot, s.loots id = some loot →
    ∀ e ∈ loot.items.map (false, ·) ++ loot.questItems.map (true, ·), RolledFor needBeforeGreed quality s.lootThreshold e.1 e.2 →
      Asks e.1 (!needBeforeGreed && !e.1) members e.2
  | .countRollVote _ player guid choice, s => s.FirstVote player guid choice
  | .removeMember env guid method inDungeon, s => ∀ g, s.group = some g → (g.isLFGGroup && method = .kick) = true ∨
    g.Disbands env.connected guid inDungeon ∨ ∀ roll ∈ s.rollId, roll.WaitsWithout guid
  | _, _ => True

theorem Counted.sublist (h : s.Counted) (hrolls : s'.rollId.Sublist s.rollId) : s'.Counted :=
  fun roll hr => h roll (hrolls.subset hr)

theorem Counted.groupLoot (h : s.Counted)
    (hcareful : (Op.groupLoot needBeforeGreed quality members id).Careful s) (hnodup : (members.map (·.guid)).Nodup)
    (hfew : members.length ≤ MAXRAIDSIZE) (hs : s.groupLoot needBeforeGreed quality members id = some s') : s'.Counted := by
  unfold GroupRolls.groupLoot at hs
  split at hs
  next => cases hs; exact h
  next loot hloot =>
  refine (runSteps_invariant (fun t => t.Counted ∧ t.lootThreshold = s.lootThreshold)
    (fun e a b ha (hasks : RolledFor needBeforeGreed quality s.lootThreshold e.2.1 e.2.2 →
      Asks e.2.1 (!needBeforeGreed && !e.2.1) members e.2.2) hb => ?_)
    (AllSteps.of_forall (fun e he _ => ?_) s) ⟨h, rfl⟩ hs).1
  · obtain ⟨hcounted, hthreshold⟩ := ha.1.lootOne (by rw [ha.2]; exact hasks) hnodup hfew hb
    exact ⟨hcounted, hthreshold.trans ha.2⟩
  · obtain ⟨e', he', rfl⟩ := List.mem_map.1 he
    exact hcareful loot hloot e'.1 (List.fst_mem_of_mem_zipIdx he')

theorem Counted.endRounds {env : Nat → RollEnv} {allowedMap : Option Nat} : ∀ {n : Nat} {s : GroupRolls}, s.Counted →
    (s.endRounds env allowedMap loot n).1.Counted
  | 0, _, h => h
  | n + 1, s, h => by
    unfold GroupRolls.endRounds
    split
    next => exact h
    next i _ =>
    obtain ⟨hrolls, -⟩ := countTheRoll_spec (env ((s.rollId[i]?).elim 0 (·.itemGUID))) allowedMap i s
    exact Counted.endRounds (h.sublist (hrolls ▸ List.eraseIdx_sublist _ _))

theorem Counted.removeMember (h : s.Counted) (hs : s.Sound) {guid : ObjectGuid} {method : RemoveMethod} {inDungeon : Bool}
    (hcareful : (Op.removeMember env guid method inDungeon).Careful s) :
    (s.removeMember env guid method inDungeon).1.Counted := by
  cases hg : s.group with
  | none =>
    unfold GroupRolls.removeMember
    rw [hg]
    exact h
  | some g =>
    intro roll hr
    rw [removeMember_rolls hs hg] at hr
    split at hr
    next => exact h roll hr
    next hkick =>
    split at hr
    next => exact (nomatch hr)
    next hstays =>
    obtain ⟨old, hold, rfl⟩ := List.mem_map.1 hr
    refine ⟨(h old hold).1.withdraw (hs.rolls old hold) guid, Roll.not_hanging_withdraw.2 ?_⟩
    rcases hcareful g hg with hvote | hdisbands | hwaits
    · exact absurd hvote hkick
    · exact absurd hdisbands hstays
    · exact hwaits old hold

theorem Counted.step (h : s.Counted) (hs : s.Sound) {op : Op} (hok : op.Allowed s) (hcareful : op.Careful s)
    (hstep : step op s = some s') : s'.Counted := by
  cases op with
  | groupLoot needBeforeGreed quality members id => exact h.groupLoot hcareful hok.1 hok.2 hstep
  | countRollVote env player guid choice => cases hstep; exact h.countRollVote hs hcareful
  | endRoll env loot allowedMap => cases hstep; exact h.endRounds
  | removeMember env guid method inDungeon => cases hstep; exact h.removeMember hs hcareful
  | group g => cases hstep; exact h
  | disband => cases hstep; exact fun _ hr => (nomatch hr)
  | fillLoot id loot => cases hstep; exact h
  | changeLoot id f => cases hstep; exact h
  | removeLoot id =>
    cases hstep
    intro roll hr
    obtain ⟨old, hold, rfl⟩ := List.mem_map.1 hr
    split
    next => exact ⟨{ (h old hold).1 with }, (h old hold).2⟩
    next => exact h old hold

/-- After any run of such steps the counters of every open roll are the numbers of its voters, and it waits for somebody;
a first vote closes the roll after which everybody has voted. -/
theorem counters_match {lootThreshold : Nat}
    (h : Reaches step (fun op s => op.Allowed s ∧ op.Careful s) (start lootThreshold) s) :
    (∀ roll ∈ s.rollId, roll.Exact ∧ ¬roll.Hanging) ∧
      ∀ env player guid choice, (Op.countRollVote env player guid choice).Careful s → ∀ roll ∈ s.rollId,
        (roll.itemGUID ∉ (s.countRollVote env player guid choice).1.rollId.map (·.itemGUID) ↔
          (s.voted player guid choice roll).Hanging) := by
  have hboth : s.Sound ∧ s.Counted := h.invariant (fun s => s.Sound ∧ s.Counted)
    (fun op a b ha hok hstep => ⟨ha.1.step hok.1 hstep, ha.2.step ha.1 hok.1 hok.2 hstep⟩)
    ⟨sound_start lootThreshold, fun _ hr => (nomatch hr)⟩
  exact ⟨hboth.2, fun env player guid choice hcareful roll hr => closed_iff hboth.1 hboth.2 hcareful hr⟩

/-- A vote given twice is counted twice, and given three times it closes a roll in which two have not voted. -/
theorem counters_drift : Reaches step Op.Allowed (start 2) (three [1, 1]) ∧
    (∃ roll ∈ (three [1, 1]).rollId, roll.totalNeed.toNat = 2 ∧ roll.votesOf (· = .need) = 1) ∧
    Reaches step Op.Allowed (start 2) (three [1, 1, 1]) ∧ (three [1, 1, 1]).rollId.length = 0 ∧
    ∀ roll ∈ (three [1, 1]).rollId, roll.playerVote.find? 2 = some .notEmitedYet ∧
      roll.playerVote.find? 3 = some .notEmitedYet :=
  ⟨three_reached (by decide), by decide, three_reached (by decide), by decide, by decide⟩

/-- All three who are near are asked. -/
theorem three_asked : AllSteps step (fun op s => op.Allowed s ∧ op.Careful s) (threeRoll []) (start 2) := by
  refine ⟨⟨trivial, trivial⟩, fun _ _ => ⟨⟨trivial, trivial⟩, fun _ _ => ⟨⟨⟨by decide, by decide⟩, ?_⟩, fun _ _ => trivial⟩⟩⟩
  intro _ _ e _ _
  cases hquest : e.1 with
  | false =>
    refine ⟨fun _ member hmem _ hpass => ?_, fun hdrops => (nomatch hdrops)⟩
    obtain ⟨guid, -, rfl⟩ := List.mem_map.1 hmem
    cases hpass
  | true =>
    refine ⟨fun hnone => (nomatch hnone), fun _ _ => ⟨⟨1, true, false, fun _ => true⟩, by simp, rfl, rfl⟩⟩

theorem counters_match_three : (three []).rollId.length = 1 ∧ ∀ roll ∈ (three []).rollId, roll.Exact ∧ ¬roll.Hanging := by
  have hrun : runSteps step (threeRoll []) (start 2) = some (three []) := rfl
  exact ⟨by decide, (counters_match (Reaches.of_allSteps three_asked hrun)).1⟩

end GroupRolls

end AtlasWow
