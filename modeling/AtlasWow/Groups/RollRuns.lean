/-
Runs of the rolls of a group. The counters of a roll are at least the numbers
of its voters (`Sound`): a vote given again is counted again, and never less.
-/
import AtlasWow.Groups.Roll
import AtlasWow.Lib.Totals

namespace AtlasWow

open Loots (LootItem Loot)

namespace GroupRolls

/-! ## The machine -/

inductive Op where
  /-- `GroupLoot`, or `NeedBeforeGreed`. -/
  | groupLoot (needBeforeGreed : Bool) (quality : Nat → Option Nat) (members : List Candidate) (id : Nat)
  | countRollVote (env : RollEnv) (player : ObjectGuid) (guid choice : Nat)
  | endRoll (env : Nat → RollEnv) (loot : Nat) (allowedMap : Option Nat)
  | removeMember (env : RollEnv) (guid : ObjectGuid) (method : RemoveMethod) (inDungeon : Bool)
  /-- Members join, or the group is formed. -/
  | group (g : Group)
  | disband
  /-- A loot is filled; one is changed by a player who takes something; one is removed, with the links to it. -/
  | fillLoot (id : Nat) (loot : Loot)
  | changeLoot (id : Nat) (f : Loot → Loot)
  | removeLoot (id : Nat)

def step : Op → GroupRolls → Option GroupRolls
  | .groupLoot needBeforeGreed quality members id, s => s.groupLoot needBeforeGreed quality members id
  | .countRollVote env player guid choice, s => some (s.countRollVote env player guid choice).1
  | .endRoll env loot allowedMap, s => some (s.endRoll env loot allowedMap).1
  | .removeMember env guid method inDungeon, s => some (s.removeMember env guid method inDungeon).1
  | .group g, s => some { s with group := some g }
  | .disband, s => some s.disband
  | .fillLoot id loot, s => some (s.setLoot id loot)
  | .changeLoot id f, s => some { s with loots := Function.update s.loots id ((s.loots id).map f) }
  | .removeLoot id, s =>
    some { s with
      loots := Function.update s.loots id none
      rollId := s.rollId.map fun roll => if roll.loot = some id then { roll with loot := none } else roll }

def start (lootThreshold : Nat) : GroupRolls := ⟨none, [], fun _ => none, lootThreshold, 0⟩

/-- The members of a group are different, and no more than it has room for. -/
def Op.Allowed : Op → GroupRolls → Prop
  | .groupLoot _ _ members _, _ => (members.map (·.guid)).Nodup ∧ members.length ≤ MAXRAIDSIZE
  | _, _ => True

end GroupRolls

/-! ## Counters -/

/-- How many voters of a roll have a vote of some kind. -/
def Roll.votesOf (p : RollVote → Bool) (roll : Roll) : Nat := roll.playerVote.total fun _ v => if p v then 1 else 0

/-- The counters are at least the numbers of voters. -/
structure Roll.Sound (roll : Roll) : Prop where
  rolling : roll.totalPlayersRolling.toNat = roll.votesOf fun _ => true
  few : roll.totalPlayersRolling.toNat ≤ MAXRAIDSIZE
  need : roll.votesOf (· = .need) ≤ roll.totalNeed.toNat
  needFew : roll.totalNeed.toNat ≤ MAXRAIDSIZE
  greed : roll.votesOf isGreed ≤ roll.totalGreed.toNat
  greedFew : roll.totalGreed.toNat ≤ MAXRAIDSIZE
  valid : roll.votesOf (· = .notValid) = 0

/-- The rolls of a group. -/
structure GroupRolls.Sound (s : GroupRolls) : Prop where
  rolls : ∀ roll ∈ s.rollId, roll.Sound
  guids : (s.rollId.map (·.itemGUID)).Nodup
  fresh : ∀ roll ∈ s.rollId, roll.itemGUID < s.nextItem
  links : ∀ roll ∈ s.rollId, ∀ id, roll.loot = some id → (s.loots id).isSome = true

namespace GroupRolls

theorem toNat_add_one {x : UInt8} (h : x.toNat ≤ MAXRAIDSIZE) : (x + 1).toNat = x.toNat + 1 := by
  have hlt : x.toNat + (1 : UInt8).toNat < 256 := lt_of_le_of_lt (Nat.add_le_add_right h _) (by decide)
  rw [UInt8.toNat_add, Nat.mod_eq_of_lt hlt]
  rfl

theorem toNat_sub_one {x : UInt8} (h : 0 < x.toNat) : (x - 1).toNat = x.toNat - 1 :=
  UInt8.toNat_sub_of_le x 1 (UInt8.le_iff_toNat_le.2 h)

end GroupRolls

namespace Roll

open GroupRolls

variable {roll roll' : Roll} {guid : ObjectGuid} {choice : Nat}

/-- A vote in the place of another. -/
theorem votesOf_insert (p : RollVote → Bool) {old v : RollVote} (h : roll.playerVote.find? guid = some old)
    (hr : roll'.playerVote = roll.playerVote.insert guid v) :
    roll'.votesOf p + (if p old then 1 else 0) = roll.votesOf p + if p v then 1 else 0 := by
  unfold votesOf
  rw [hr]
  exact OMap.total_replace h v fun _ v => if p v then 1 else 0

theorem votesOf_insert_new (p : RollVote → Bool) {v : RollVote} (h : roll.playerVote.find? guid = none)
    (hr : roll'.playerVote = roll.playerVote.insert guid v) : roll'.votesOf p = (if p v then 1 else 0) + roll.votesOf p := by
  unfold votesOf
  rw [hr]
  exact OMap.total_insert_new h v fun _ v => if p v then 1 else 0

theorem votesOf_erase (p : RollVote → Bool) {old : RollVote} (h : roll.playerVote.find? guid = some old)
    (hr : roll'.playerVote = roll.playerVote.erase guid) : roll.votesOf p = (if p old then 1 else 0) + roll'.votesOf p := by
  unfold votesOf
  rw [hr]
  exact OMap.total_erase h fun _ v => if p v then 1 else 0

/-! ### New rolls -/

/-- The vote that a member begins with. -/
def firstVote (quest : Bool) (item : LootItem) (member : Candidate) : RollVote :=
  if !member.canRollOnItem item then .pass else if !quest && member.passOnGroupLoot then .pass else .notEmitedYet

section

variable {quest : Bool} {item : LootItem} {member : Candidate}

theorem firstVote_cases : firstVote quest item member = .pass ∨ firstVote quest item member = .notEmitedYet := by
  unfold firstVote
  split
  · exact .inl rfl
  split
  · exact .inl rfl
  · exact .inr rfl

theorem join_eq (hnear : member.atGroupRewardDistance = true) : join quest item roll member = { roll with
    totalPlayersRolling := roll.totalPlayersRolling + 1
    totalPass := if member.canRollOnItem item then roll.totalPass else roll.totalPass + 1
    playerVote := roll.playerVote.insert member.guid (firstVote quest item member) } := by
  unfold GroupRolls.join firstVote
  rw [hnear]
  rfl

theorem join_far (hfar : member.atGroupRewardDistance = false) : join quest item roll member = roll := by
  unfold GroupRolls.join
  rw [hfar]
  rfl

theorem Sound.join (h : roll.Sound) (hnew : roll.playerVote.find? member.guid = none)
    (hroom : roll.totalPlayersRolling.toNat < MAXRAIDSIZE) : (join quest item roll member).Sound := by
  cases hnear : member.atGroupRewardDistance with
  | false => exact (join_far hnear).symm ▸ h
  | true =>
    obtain ⟨roll', hr⟩ : ∃ roll', roll' = GroupRolls.join quest item roll member := ⟨_, rfl⟩
    rw [← hr]
    rw [join_eq hnear] at hr
    -- who begins has no vote to be counted
    have hcount : ∀ p : RollVote → Bool, p .pass = false → p .notEmitedYet = false → roll'.votesOf p = roll.votesOf p := by
      intro p hp hp'
      rw [votesOf_insert_new p hnew (by rw [hr])]
      rcases @firstVote_cases quest item member with hv | hv
      · rw [hv, hp, if_neg Bool.false_ne_true, Nat.zero_add]
      · rw [hv, hp', if_neg Bool.false_ne_true, Nat.zero_add]
    have hone : roll'.totalPlayersRolling.toNat = roll.totalPlayersRolling.toNat + 1 := by
      rw [hr]
      exact toNat_add_one h.few
    have hneed : roll'.totalNeed = roll.totalNeed := by rw [hr]
    have hgreed : roll'.totalGreed = roll.totalGreed := by rw [hr]
    exact {
      rolling := by rw [hone, votesOf_insert_new _ hnew (by rw [hr]), h.rolling, if_pos rfl, Nat.add_comm]
      few := hone.trans_le hroom
      need := by rw [hcount _ rfl rfl, hneed]; exact h.need
      needFew := hneed ▸ h.needFew
      greed := by rw [hcount _ rfl rfl, hgreed]; exact h.greed
      greedFew := hgreed ▸ h.greedFew
      valid := (hcount _ rfl rfl).trans h.valid }

end

theorem find?_join {quest : Bool} {item : LootItem} {member : Candidate} (hne : guid ≠ member.guid) :
    (join quest item roll member).playerVote.find? guid = roll.playerVote.find? guid := by
  unfold GroupRolls.join
  split
  · rfl
  · exact OMap.find?_insert_of_ne hne

theorem joined {quest : Bool} {item : LootItem} : ∀ {members : List Candidate} {roll : Roll}, roll.Sound →
    (members.map (·.guid)).Nodup → (∀ member ∈ members, roll.playerVote.find? member.guid = none) →
    roll.totalPlayersRolling.toNat + members.length ≤ MAXRAIDSIZE →
    (members.foldl (join quest item) roll).Sound ∧ (members.foldl (join quest item) roll).itemGUID = roll.itemGUID ∧
      (members.foldl (join quest item) roll).loot = roll.loot
  | [], _, h, _, _, _ => ⟨h, rfl, rfl⟩
  | member :: members, roll, h, hnodup, hnew, hroom => by
    rw [List.map_cons, List.nodup_cons] at hnodup
    rw [List.length_cons] at hroom
    have hjoin : (join quest item roll member).Sound := h.join (hnew member List.mem_cons_self) (by omega)
    have hless : (join quest item roll member).totalPlayersRolling.toNat ≤ roll.totalPlayersRolling.toNat + 1 := by
      unfold GroupRolls.join
      split
      · omega
      · exact (toNat_add_one h.few).le
    have hsame : (join quest item roll member).itemGUID = roll.itemGUID ∧ (join quest item roll member).loot = roll.loot := by
      unfold GroupRolls.join
      split <;> exact ⟨rfl, rfl⟩
    obtain ⟨hsound, hguid, hloot⟩ := @joined quest item _ _ hjoin hnodup.2
      (fun m hm => by
        have hne : m.guid ≠ member.guid := fun he => hnodup.1 (he ▸ List.mem_map_of_mem hm)
        rw [find?_join hne]
        exact hnew m (List.mem_cons_of_mem _ hm)) (by omega)
    exact ⟨hsound, hguid.trans hsame.1, hloot.trans hsame.2⟩

theorem sound_newRoll {quest : Bool} {members : List Candidate} {guid loot : Nat} {slot : UInt8} {item : LootItem}
    (hnodup : (members.map (·.guid)).Nodup) (hfew : members.length ≤ MAXRAIDSIZE) :
    (newRoll quest members guid loot slot item).Sound ∧ (newRoll quest members guid loot slot item).itemGUID = guid ∧
      (newRoll quest members guid loot slot item).loot = some loot := by
  refine joined ⟨rfl, Nat.zero_le _, Nat.zero_le _, Nat.zero_le _, Nat.zero_le _, Nat.zero_le _, rfl⟩ hnodup (fun _ _ => rfl) ?_
  show 0 + members.length ≤ MAXRAIDSIZE
  omega

/-! ### Votes -/

/-- A vote is written down and its counter is one more. -/
def cast (player : ObjectGuid) (v : RollVote) (roll : Roll) : Roll :=
  { roll with
    totalNeed := if v = .need then roll.totalNeed + 1 else roll.totalNeed
    totalGreed := if isGreed v then roll.totalGreed + 1 else roll.totalGreed
    totalPass := if v = .pass then roll.totalPass + 1 else roll.totalPass
    playerVote := roll.playerVote.insert player v }

theorem vote_cases (player : ObjectGuid) (choice : Nat) (roll : Roll) :
    vote player choice roll = roll ∨ ∃ v, v ≠ .notValid ∧ vote player choice roll = cast player v roll := by
  unfold vote
  split
  · exact .inr ⟨.pass, by decide, rfl⟩
  split
  · exact .inr ⟨.need, by decide, rfl⟩
  split
  · exact .inr ⟨.greed, by decide, rfl⟩
  split
  · exact .inr ⟨.disenchant, by decide, rfl⟩
  · exact .inl rfl

theorem votesOf_cast (p : RollVote → Bool) (v : RollVote) {old : RollVote} (h : roll.playerVote.find? guid = some old) :
    (cast guid v roll).votesOf p + (if p old then 1 else 0) = roll.votesOf p + if p v then 1 else 0 := votesOf_insert p h rfl

theorem toNat_count {x : UInt8} (b : Prop) [Decidable b] (h : x.toNat ≤ MAXRAIDSIZE) :
    (if b then x + 1 else x).toNat = x.toNat + if b then 1 else 0 := by
  split
  · exact toNat_add_one h
  · rfl

theorem vote_same (player : ObjectGuid) (choice : Nat) (roll : Roll) :
    (vote player choice roll).itemGUID = roll.itemGUID ∧ (vote player choice roll).loot = roll.loot := by
  rcases vote_cases player choice roll with hv | ⟨v, -, hv⟩
  · rw [hv]
    exact ⟨rfl, rfl⟩
  · rw [hv]
    exact ⟨rfl, rfl⟩

/-- While a roll is open its counters are small. -/
theorem Sound.vote {player : ObjectGuid} (h : roll.Sound) (hvoter : (roll.playerVote.find? player).isSome = true)
    (hopen : complete (vote player choice roll) = false) : (vote player choice roll).Sound := by
  rcases vote_cases player choice roll with hv | ⟨v, hvalid, hv⟩
  · exact hv.symm ▸ h
  rw [hv] at hopen ⊢
  obtain ⟨old, hold⟩ := Option.isSome_iff_exists.1 hvoter
  have hcount := fun p => votesOf_cast p v hold
  have hall := hcount fun _ => true
  have hneeds := hcount (· = .need)
  have hgreeds := hcount isGreed
  have hinvalid := hcount (· = .notValid)
  have hneed : (cast player v roll).totalNeed.toNat = roll.totalNeed.toNat + if v = .need then 1 else 0 :=
    toNat_count _ h.needFew
  have hgreed : (cast player v roll).totalGreed.toNat = roll.totalGreed.toNat + if isGreed v then 1 else 0 :=
    toNat_count _ h.greedFew
  have hrolling : (cast player v roll).totalPlayersRolling.toNat = roll.votesOf fun _ => true := h.rolling
  have hfew : (cast player v roll).totalPlayersRolling.toNat ≤ MAXRAIDSIZE := h.few
  have hle := h.need
  have hle' := h.greed
  rw [h.valid] at hinvalid
  rw [complete, decide_eq_false_iff_not, not_le] at hopen
  simp only [decide_eq_true_eq, if_true, if_neg hvalid] at hneeds hinvalid hall
  exact ⟨by omega, hfew, by omega, by omega, by omega, by omega, by omega⟩

theorem withdraw_same (guid : ObjectGuid) (roll : Roll) :
    (withdraw guid roll).itemGUID = roll.itemGUID ∧ (withdraw guid roll).loot = roll.loot := by
  unfold withdraw
  split <;> exact ⟨rfl, rfl⟩

/-- Without a vote of his a roll is as it was; else the vote is gone, and it is counted no more. -/
theorem withdraw_cases (h : roll.Sound) (guid : ObjectGuid) : withdraw guid roll = roll ∨
    ∃ v, (∀ p : RollVote → Bool, roll.votesOf p = (if p v then 1 else 0) + (withdraw guid roll).votesOf p) ∧
      (withdraw guid roll).totalPlayersRolling.toNat + 1 = roll.totalPlayersRolling.toNat ∧
      (withdraw guid roll).totalNeed.toNat + (if v = .need then 1 else 0) = roll.totalNeed.toNat ∧
      (withdraw guid roll).totalGreed.toNat + (if isGreed v then 1 else 0) = roll.totalGreed.toNat ∧
      (withdraw guid roll).totalPass = if v = .pass then roll.totalPass - 1 else roll.totalPass := by
  cases hfind : roll.playerVote.find? guid with
  | none =>
    unfold withdraw
    rw [hfind]
    exact .inl rfl
  | some v =>
    have hr : withdraw guid roll = { roll with
        totalGreed := if isGreed v then roll.totalGreed - 1 else roll.totalGreed
        totalNeed := if v = .need then roll.totalNeed - 1 else roll.totalNeed
        totalPass := if v = .pass then roll.totalPass - 1 else roll.totalPass
        totalPlayersRolling := if v ≠ .notValid then roll.totalPlayersRolling - 1 else roll.totalPlayersRolling
        playerVote := roll.playerVote.erase guid } := by
      unfold withdraw
      rw [hfind]
    have hcount := fun p => @votesOf_erase roll (withdraw guid roll) guid p v hfind (by rw [hr])
    have hall := hcount fun _ => true
    have hneeds := hcount (· = .need)
    have hgreeds := hcount isGreed
    have hinvalid := hcount (· = .notValid)
    have hle := h.need
    have hle' := h.greed
    rw [h.valid] at hinvalid
    rw [← h.rolling] at hall
    simp only [decide_eq_true_eq, if_true] at hneeds hinvalid hall
    have hvalid : v ≠ .notValid := fun he => by
      rw [if_pos he] at hinvalid
      omega
    have hcounter : ∀ (c : UInt8) (b : Prop) [Decidable b], (b → 0 < c.toNat) →
        (if b then c - 1 else c).toNat + (if b then 1 else 0) = c.toNat := fun c b _ hpos => by
      split
      next hb =>
        rw [toNat_sub_one (hpos hb)]
        exact Nat.sub_add_cancel (hpos hb)
      next => rfl
    refine .inr ⟨v, hcount, ?_, ?_, ?_, by rw [hr]⟩
    · have hone := hcounter roll.totalPlayersRolling (v ≠ .notValid) fun _ => by omega
      rw [if_pos hvalid, if_pos hvalid] at hone
      rw [hr, if_pos hvalid]
      exact hone
    · rw [hr]
      exact hcounter _ _ fun hv => by
        rw [if_pos hv] at hneeds
        omega
    · rw [hr]
      exact hcounter _ _ fun hv => by
        rw [if_pos hv] at hgreeds
        omega

theorem Sound.withdraw (h : roll.Sound) (guid : ObjectGuid) : (withdraw guid roll).Sound := by
  rcases withdraw_cases h guid with hsame | ⟨v, hcount, hone, hneed, hgreed, -⟩
  · exact hsame.symm ▸ h
  have hall := hcount fun _ => true
  have hneeds := hcount (· = .need)
  have hgreeds := hcount isGreed
  have hinvalid := hcount (· = .notValid)
  have hrolling := h.rolling
  have hle := h.need
  have hle' := h.greed
  have hfew := h.few
  have hneedFew := h.needFew
  have hgreedFew := h.greedFew
  rw [h.valid] at hinvalid
  simp only [decide_eq_true_eq, if_true] at hneeds hinvalid hall
  exact ⟨by omega, by omega, by omega, by omega, by omega, by omega, by omega⟩

end Roll

/-! ## Runs -/

namespace GroupRolls

variable {s s' : GroupRolls} {env : RollEnv} {allowedMap : Option Nat} {guid : ObjectGuid} {choice i id' : Nat}
  {α : Type}

theorem forall_modify {P : α → Prop} {l : List α} {f : α → α} (h : ∀ x ∈ l, P x)
    (hf : ∀ x, l[i]? = some x → P (f x)) : ∀ x ∈ l.modify i f, P x := by
  intro x hx
  obtain ⟨j, hj⟩ := List.mem_iff_getElem?.1 hx
  rw [List.getElem?_modify] at hj
  obtain ⟨y, hy, rfl⟩ := Option.map_eq_some_iff.1 hj
  split
  next hij => exact hf y (hij ▸ hy)
  next => exact h y (List.mem_of_getElem? hy)

theorem map_modify_same {β : Type} {g : α → β} {f : α → α} (hf : ∀ x, g (f x) = g x) (l : List α) (i : Nat) :
    (l.modify i f).map g = l.map g := by
  refine List.ext_getElem? fun j => ?_
  rw [List.getElem?_map, List.getElem?_map, List.getElem?_modify, Option.map_eq_map, Option.map_map]
  congr 1
  funext x
  show g (if i = j then f x else x) = g x
  split
  · exact hf x
  · rfl

/-- Fewer rolls, and no loot less. -/
theorem Sound.sublist (h : s.Sound) (hrolls : s'.rollId.Sublist s.rollId) (hnext : s.nextItem ≤ s'.nextItem)
    (hloots : ∀ id, (s.loots id).isSome = true → (s'.loots id).isSome = true) : s'.Sound where
  rolls roll hr := h.rolls roll (hrolls.subset hr)
  guids := h.guids.sublist (hrolls.map _)
  fresh roll hr := (h.fresh roll (hrolls.subset hr)).trans_le hnext
  links roll hr id hid := hloots id (h.links roll (hrolls.subset hr) id hid)

/-- A roll that is changed in its place. -/
theorem Sound.modify (h : s.Sound) {f : Roll → Roll} (hf : ∀ roll, s.rollId[i]? = some roll → (f roll).Sound)
    (hsame : ∀ roll, (f roll).itemGUID = roll.itemGUID ∧ (f roll).loot = roll.loot) :
    ({ s with rollId := s.rollId.modify i f } : GroupRolls).Sound where
  rolls := forall_modify h.rolls hf
  guids := by
    show ((s.rollId.modify i f).map (·.itemGUID)).Nodup
    rw [map_modify_same fun roll => (hsame roll).1]
    exact h.guids
  fresh := forall_modify h.fresh fun roll hr => (hsame roll).1 ▸ h.fresh roll (List.mem_of_getElem? hr)
  links := forall_modify h.links fun roll hr id hid => h.links roll (List.mem_of_getElem? hr) id ((hsame roll).2 ▸ hid)

/-- Counting a roll takes it from the list. -/
theorem countTheRoll_spec (env : RollEnv) (allowedMap : Option Nat) (i : Nat) (s : GroupRolls) :
    (s.countTheRoll env allowedMap i).1.rollId = s.rollId.eraseIdx i ∧ (s.countTheRoll env allowedMap i).1.nextItem = s.nextItem ∧
      (s.countTheRoll env allowedMap i).1.group = s.group ∧
        ∀ id, (s.loots id).isSome = true → ((s.countTheRoll env allowedMap i).1.loots id).isSome = true := by
  unfold countTheRoll
  split
  next hnone => exact ⟨(List.eraseIdx_of_length_le (List.getElem?_eq_none_iff.1 hnone)).symm, rfl, rfl, fun _ h => h⟩
  next roll _ =>
  split
  next id loot _ _ =>
    refine ⟨rfl, rfl, rfl, fun id' h => ?_⟩
    show (Function.update s.loots id _ id').isSome = true
    by_cases hid : id' = id
    · rw [hid, Function.update_self]
      rfl
    · rw [Function.update_of_ne hid]
      exact h
  next => exact ⟨rfl, rfl, rfl, fun _ h => h⟩

theorem Sound.countTheRoll (h : s.Sound) (i : Nat) : (s.countTheRoll env allowedMap i).1.Sound := by
  obtain ⟨hrolls, hnext, _, hloots⟩ := countTheRoll_spec env allowedMap i s
  exact h.sublist (hrolls ▸ List.eraseIdx_sublist _ _) hnext.ge hloots

/-- The vote is not taken, or the roll of a voter is changed in its place and, if it is complete then, counted. -/
theorem countRollVote_taken (env : RollEnv) (player : ObjectGuid) (guid choice : Nat) (s : GroupRolls) :
    (s.countRollVote env player guid choice).1 = s ∨
      ∃ i roll, s.rollId[i]? = some roll ∧ (roll.playerVote.find? player).isSome = true ∧
        (s.countRollVote env player guid choice).1 = if complete (vote player choice roll) then
          (({ s with rollId := s.rollId.modify i (vote player choice) } : GroupRolls).countTheRoll env none i).1
          else { s with rollId := s.rollId.modify i (vote player choice) } := by
  unfold countRollVote
  split
  next => exact .inl rfl
  next i _ =>
  split
  next => exact .inl rfl
  next roll hroll =>
  split
  next => exact .inl rfl
  next hvoter =>
  split
  next => exact .inl rfl
  next =>
  refine .inr ⟨i, roll, hroll, by simpa [Option.isSome_iff_ne_none] using hvoter, ?_⟩
  dsimp only
  split <;> rfl

theorem Sound.countRollVote (h : s.Sound) {player : ObjectGuid} {guid : Nat} : (s.countRollVote env player guid choice).1.Sound := by
  rcases countRollVote_taken env player guid choice s with hsame | ⟨i, roll, hroll, hvoter, htaken⟩
  · exact hsame.symm ▸ h
  rw [htaken]
  split
  next =>
    obtain ⟨hrolls, hnext, _, hloots⟩ := countTheRoll_spec env none i { s with rollId := s.rollId.modify i (vote player choice) }
    refine h.sublist ?_ hnext.ge hloots
    rw [hrolls]
    exact (List.eraseIdx_modify_of_eq _ i s.rollId) ▸ List.eraseIdx_sublist s.rollId i
  next hopen =>
  refine h.modify (fun roll' hr => ?_) (Roll.vote_same player choice)
  rw [hroll] at hr
  cases hr
  exact (h.rolls roll (List.mem_of_getElem? hroll)).vote hvoter (by simpa using hopen)

theorem Sound.endRounds {env : Nat → RollEnv} {loot : Nat} : ∀ {n : Nat} {s : GroupRolls}, s.Sound →
    (s.endRounds env allowedMap loot n).1.Sound
  | 0, _, h => h
  | n + 1, s, h => by
    unfold GroupRolls.endRounds
    split
    next => exact h
    next i _ => exact Sound.endRounds (h.countTheRoll i)

theorem Sound.removeVotes : ∀ {n i : Nat} {s : GroupRolls}, s.Sound → (s.removeVotes env guid n i).1.Sound
  | 0, _, _, h => h
  | n + 1, i, s, h => by
    unfold GroupRolls.removeVotes
    split
    next => exact h
    next roll hroll =>
    split
    next => exact Sound.removeVotes h
    next =>
    refine Sound.removeVotes (Sound.countRollVote (h.modify (fun roll' hr => ?_) (Roll.withdraw_same guid)))
    exact (h.rolls roll' (List.mem_of_getElem? hr)).withdraw guid

theorem Sound.removeMember (h : s.Sound) {method : RemoveMethod} {inDungeon : Bool} :
    (s.removeMember env guid method inDungeon).1.Sound := by
  unfold GroupRolls.removeMember
  split
  next => exact h
  next g _ =>
  split
  next => exact h
  next =>
  have hremoved : (if g.minMembers < g.memberSlots.length then s.removeVotes env guid s.rollId.length 0 else (s, [])).1.Sound := by
    split
    · exact h.removeVotes
    · exact h
  dsimp only
  split
  next => exact hremoved.sublist (List.nil_sublist _) (Nat.le_refl _) fun _ hl => hl
  next => exact hremoved.sublist (List.Sublist.refl _) (Nat.le_refl _) fun _ hl => hl

variable {id : Nat} {drops needBeforeGreed : Bool} {members : List Candidate} {slot : UInt8}
    {quality : Nat → Option Nat}

/-- A loot that is changed stays. -/
theorem isSome_update {f : Loot → Loot} (h : (s.loots id').isSome = true) :
    (Function.update s.loots id ((s.loots id).map f) id').isSome = true := by
  by_cases hid : id' = id
  · rw [hid, Function.update_self, Option.isSome_map]
    exact hid ▸ h
  · rw [Function.update_of_ne hid]
    exact h

theorem Sound.beginRoll (h : s.Sound) {quest : Bool} {item : LootItem}
    (hnodup : (members.map (·.guid)).Nodup) (hfew : members.length ≤ MAXRAIDSIZE) (hid : (s.loots id).isSome = true) :
    (s.beginRoll quest drops members id slot item).Sound := by
  obtain ⟨hsound, hguid, hloot⟩ := @Roll.sound_newRoll quest members s.nextItem id slot item hnodup hfew
  unfold GroupRolls.beginRoll
  dsimp only
  split
  next => exact h.sublist (List.Sublist.refl _) (Nat.le_succ _) fun _ hl => hl
  next =>
  split
  next => exact h.sublist (List.Sublist.refl _) (Nat.le_succ _) fun _ hl => isSome_update hl
  next =>
  refine ⟨fun roll hr => ?_, ?_, fun roll hr => ?_, fun roll hr id' hid' => isSome_update ?_⟩
  · rcases List.mem_append.1 hr with hr | hr
    · exact h.rolls roll hr
    · exact List.mem_singleton.1 hr ▸ hsound
  · show ((s.rollId ++ [newRoll quest members s.nextItem id slot item]).map (·.itemGUID)).Nodup
    rw [List.map_append, List.map_singleton, hguid, List.nodup_append]
    refine ⟨h.guids, List.nodup_singleton _, fun a ha b hb => ?_⟩
    obtain ⟨roll, hr, rfl⟩ := List.mem_map.1 ha
    rw [List.mem_singleton.1 hb]
    exact Nat.ne_of_lt (h.fresh roll hr)
  · rcases List.mem_append.1 hr with hr | hr
    · exact (h.fresh roll hr).trans (Nat.lt_succ_self _)
    · rw [List.mem_singleton.1 hr, hguid]
      exact Nat.lt_succ_self _
  · rcases List.mem_append.1 hr with hr | hr
    · exact h.links roll hr id' hid'
    · rw [List.mem_singleton.1 hr, hloot] at hid'
      cases hid'
      exact hid

/-- No loot is lost. -/
theorem loots_beginRoll {quest : Bool} {item : LootItem}
    (h : (s.loots id').isSome = true) : ((s.beginRoll quest drops members id slot item).loots id').isSome = true := by
  unfold beginRoll
  dsimp only
  split
  · exact h
  · split <;> exact isSome_update h

theorem lootThreshold_beginRoll {quest : Bool} {item : LootItem} :
    (s.beginRoll quest drops members id slot item).lootThreshold = s.lootThreshold := by
  unfold beginRoll
  dsimp only
  split
  · rfl
  · split <;> rfl

/-- A roll is begun for an item. -/
def RolledFor (needBeforeGreed : Bool) (quality : Nat → Option Nat) (lootThreshold : Nat) (quest : Bool) (item : LootItem) : Prop :=
  if quest then item.followLootRules = true ∧ ((quality item.itemid).isSome = true ∨ needBeforeGreed = true)
  else item.freeforall = false ∧ ∃ q, quality item.itemid = some q ∧ lootThreshold ≤ q

/-- What is done with an item: nothing, a roll is begun, or it is marked as one that needs none. -/
theorem lootOne_cases {quest : Bool}
    {item : LootItem} (hs : s.lootOne needBeforeGreed quality members id quest slot item = some s') :
    s' = s ∨ (RolledFor needBeforeGreed quality s.lootThreshold quest item ∧
        s' = s.beginRoll quest (!needBeforeGreed && !quest) members id slot item) ∨
      s' = { s with
        loots := Function.update s.loots id
          ((s.loots id).map (modifyItem slot fun item => { item with isUnderthreshold := true })) } := by
  unfold GroupRolls.lootOne at hs
  cases quest with
  | true =>
    rw [if_pos rfl] at hs
    split at hs
    next => cases hs; exact .inl rfl
    next hrules =>
    split at hs
    next => cases hs; exact .inl rfl
    next hquality =>
    cases hs
    refine .inr (.inl ⟨⟨by simpa using hrules, ?_⟩, by rw [Bool.not_true, Bool.and_false]⟩)
    cases hq : quality item.itemid with
    | some q => exact .inl rfl
    | none =>
      rw [hq] at hquality
      exact .inr (by simpa using hquality)
  | false =>
    rw [if_neg Bool.false_ne_true] at hs
    split at hs
    next => cases hs; exact .inl rfl
    next hfree =>
    split at hs
    next =>
      split at hs
      next => cases hs
      next => cases hs; exact .inl rfl
    next q hq =>
    split at hs
    next hthreshold =>
      cases hs
      exact .inr (.inl ⟨⟨by simpa using hfree, q, hq, hthreshold⟩, by rw [Bool.not_false, Bool.and_true]⟩)
    next => cases hs; exact .inr (.inr rfl)

theorem Sound.lootOne (h : s.Sound) {quest : Bool}
    {item : LootItem} (hnodup : (members.map (·.guid)).Nodup) (hfew : members.length ≤ MAXRAIDSIZE)
    (hid : (s.loots id).isSome = true) (hs : s.lootOne needBeforeGreed quality members id quest slot item = some s') :
    s'.Sound ∧ (s'.loots id).isSome = true := by
  rcases lootOne_cases hs with rfl | ⟨-, rfl⟩ | rfl
  · exact ⟨h, hid⟩
  · exact ⟨h.beginRoll hnodup hfew hid, loots_beginRoll hid⟩
  · exact ⟨h.sublist (List.Sublist.refl _) (Nat.le_refl _) fun _ hl => isSome_update hl, isSome_update hid⟩

theorem Sound.groupLoot (h : s.Sound) (hnodup : (members.map (·.guid)).Nodup) (hfew : members.length ≤ MAXRAIDSIZE)
    (hs : s.groupLoot needBeforeGreed quality members id = some s') : s'.Sound := by
  unfold GroupRolls.groupLoot at hs
  split at hs
  next => cases hs; exact h
  next loot hloot =>
  refine ((Reaches.of_runSteps hs).invariant (fun s => s.Sound ∧ (s.loots id).isSome = true) (fun e a b ha _ hb => ?_) ⟨h, ?_⟩).1
  · exact ha.1.lootOne hnodup hfew ha.2 hb
  · rw [hloot]
    rfl

theorem Sound.step (h : s.Sound) {op : Op} (hok : op.Allowed s) (hs : step op s = some s') : s'.Sound := by
  cases op with
  | groupLoot needBeforeGreed quality members id => exact h.groupLoot hok.1 hok.2 hs
  | countRollVote env player guid choice => cases hs; exact h.countRollVote
  | endRoll env loot allowedMap => cases hs; exact h.endRounds
  | removeMember env guid method inDungeon => cases hs; exact h.removeMember
  | group g => cases hs; exact h.sublist (List.Sublist.refl _) (Nat.le_refl _) fun _ hl => hl
  | disband => cases hs; exact h.sublist (List.nil_sublist _) (Nat.le_refl _) fun _ hl => hl
  | fillLoot id loot =>
    cases hs
    refine h.sublist (List.Sublist.refl _) (Nat.le_refl _) fun id' hl => ?_
    show (Function.update s.loots id (some loot) id').isSome = true
    by_cases hid : id' = id
    · rw [hid, Function.update_self]
      rfl
    · rw [Function.update_of_ne hid]
      exact hl
  | changeLoot id f => cases hs; exact h.sublist (List.Sublist.refl _) (Nat.le_refl _) fun _ hl => isSome_update hl
  | removeLoot id =>
    cases hs
    refine ⟨fun roll hr => ?_, ?_, fun roll hr => ?_, fun roll hr id' hid' => ?_⟩
    · obtain ⟨roll', hr', rfl⟩ := List.mem_map.1 hr
      have hsound := h.rolls roll' hr'
      split
      · exact { hsound with }
      · exact hsound
    · show ((s.rollId.map _).map _).Nodup
      rw [List.map_map]
      have hsame : (fun roll : Roll => (if roll.loot = some id then { roll with loot := none } else roll : Roll).itemGUID) =
          (·.itemGUID) := funext fun roll => by split <;> rfl
      exact (congrArg (fun g => (s.rollId.map g).Nodup) hsame).mpr h.guids
    · obtain ⟨roll', hr', rfl⟩ := List.mem_map.1 hr
      have hfresh := h.fresh roll' hr'
      split
      · exact hfresh
      · exact hfresh
    · obtain ⟨roll', hr', rfl⟩ := List.mem_map.1 hr
      split at hid'
      next => cases hid'
      next hne =>
      have hid : id' ≠ id := fun he => hne (he ▸ hid')
      show (Function.update s.loots id none id').isSome = true
      rw [Function.update_of_ne hid]
      exact h.links roll' hr' id' hid'

theorem sound_start (lootThreshold : Nat) : (start lootThreshold).Sound :=
  ⟨fun _ h => (nomatch h), .nil, fun _ h => (nomatch h), fun _ h => (nomatch h)⟩

theorem sound_of_reaches {lootThreshold : Nat} (h : Reaches step Op.Allowed (start lootThreshold) s) : s.Sound :=
  h.invariant Sound (fun _ _ _ ha hok hs => ha.step hok hs) (sound_start lootThreshold)

/-! ### A roll of three -/

/-- Members 1, 2 and 3 roll for an item, and some of them need it. -/
def threeRoll (needers : List ObjectGuid) : List Op :=
  let item : LootItem := ⟨0, 0, 0, [], none, 1, false, false, false, false, false, false, false⟩
  [.group (((Group.create 1 false false false).addMember 2).addMember 3),
    .fillLoot 0 ⟨[item], [], 0, 1, .empty, .empty, .empty⟩,
    .groupLoot false (fun _ => some 2) ([1, 2, 3].map fun guid => ⟨guid, true, false, fun _ => true⟩) 0] ++
    needers.map fun guid => .countRollVote ⟨fun _ => true, fun _ => true, fun _ => some 0, fun _ => true, fun _ => 0⟩ guid 0 ROLL_NEED

def three (needers : List ObjectGuid) : GroupRolls := (runSteps step (threeRoll needers) (start 2)).getD (start 2)

theorem three_reached {needers : List ObjectGuid} (h : (runSteps step (threeRoll needers) (start 2)).isSome = true) :
    Reaches step Op.Allowed (start 2) (three needers) := by
  obtain ⟨s, hs⟩ := Option.isSome_iff_exists.1 h
  have hthree : three needers = s := by
    unfold three
    rw [hs]
    rfl
  have hok : ∀ op ∈ threeRoll needers, ∀ s, Op.Allowed op s := by
    intro op hop s
    rcases List.mem_append.1 hop with hop | hop
    · simp only [List.mem_cons, List.not_mem_nil, or_false] at hop
      rcases hop with rfl | rfl | rfl
      · trivial
      · trivial
      · exact ⟨by decide, by decide⟩
    · obtain ⟨guid, _, rfl⟩ := List.mem_map.1 hop
      trivial
  exact hthree ▸ Reaches.of_allSteps (AllSteps.of_forall hok _) hs

end GroupRolls

end AtlasWow
