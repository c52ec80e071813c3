/-
The roles of a dungeon group (`LFG.h`) and `LFGMgr::CheckGroupRoles`: one tank,
one healer and three for damage.

`Assignment` says what a choice of roles is; `checkGroupRoles_spec` that the
search finds one exactly when there is one, and otherwise leaves the roles as
they were.
-/
import AtlasWow.Entities.ObjectGuid
import AtlasWow.Lib.OrderedMap
import Mathlib.Algebra.Order.BigOperators.Group.List
import Mathlib.Algebra.Order.Ring.Nat
import Mathlib.Data.Nat.Bitwise

namespace AtlasWow.Lfg

def LFG_TANKS_NEEDED : Nat := 1
def LFG_HEALERS_NEEDED : Nat := 1
def LFG_DPS_NEEDED : Nat := 3

def PLAYER_ROLE_NONE : UInt8 := 0x00
def PLAYER_ROLE_LEADER : UInt8 := 0x01
def PLAYER_ROLE_TANK : UInt8 := 0x02
def PLAYER_ROLE_HEALER : UInt8 := 0x04
def PLAYER_ROLE_DAMAGE : UInt8 := 0x08

/-- What a player can be in the group, in the order the choices are tried. -/
def roleFlags : List UInt8 := [PLAYER_ROLE_DAMAGE, PLAYER_ROLE_HEALER, PLAYER_ROLE_TANK]

abbrev LfgRolesMap := OMap ObjectGuid UInt8

def roleOf (m : LfgRolesMap) (guid : ObjectGuid) : UInt8 := (m.find? guid).getD 0

/-- How many choices a player with these roles has. -/
def choicesOf (roles : UInt8) : Nat := roleFlags.countP (roles &&& · ≠ 0)

def choices (m : LfgRolesMap) : Nat := (m.keys.map fun guid => choicesOf (roleOf m guid)).sum

/-! ## The search -/

/-- What `CheckGroupRoles` does with one role a player has: if there are others, try without it; if it is the only
one, count it. An `error` is a `return`. -/
def tryRole (check : LfgRolesMap → Bool × LfgRolesMap) (flag : UInt8) (needed : Nat) (role : UInt8)
    (guid : ObjectGuid) (count : Nat) (m : LfgRolesMap) : Except (Bool × LfgRolesMap) (Nat × LfgRolesMap) :=
  if role &&& flag = 0 then .ok (count, m)
  else if role ≠ flag then
    let (found, m) := check (m.insert guid (roleOf m guid - flag))
    if found then .error (true, m) else .ok (count, m.insert guid (roleOf m guid + flag))
  else if count = needed then .error (false, m)
  else .ok (count + 1, m)

/-- The loop over the players. -/
def checkPlayers (check : LfgRolesMap → Bool × LfgRolesMap) :
    List ObjectGuid → Nat → Nat → Nat → LfgRolesMap → Bool × LfgRolesMap
  | [], damage, healer, tank, m => (tank + healer + damage = m.size % 256, m)
  | guid :: guids, damage, healer, tank, m =>
    let role := roleOf m guid &&& ~~~PLAYER_ROLE_LEADER
    if role = PLAYER_ROLE_NONE then (false, m)
    else
      match tryRole check PLAYER_ROLE_DAMAGE LFG_DPS_NEEDED role guid damage m with
      | .error result => result
      | .ok (damage, m) =>
        match tryRole check PLAYER_ROLE_HEALER LFG_HEALERS_NEEDED role guid healer m with
        | .error result => result
        | .ok (healer, m) =>
          match tryRole check PLAYER_ROLE_TANK LFG_TANKS_NEEDED role guid tank m with
          | .error result => result
          | .ok (tank, m) => checkPlayers check guids damage healer tank m

/-- `CheckGroupRoles`, to a depth. -/
def checkGroupRolesTo : Nat → LfgRolesMap → Bool × LfgRolesMap
  | 0, m => (false, m)
  | n + 1, m => if m.isEmpty then (false, m) else checkPlayers (checkGroupRolesTo n) m.keys 0 0 0 m

/-- Every call takes one choice from a player, so the depth is never used up. -/
def checkGroupRoles (groles : LfgRolesMap) : Bool × LfgRolesMap := checkGroupRolesTo (choices groles + 1) groles

/-! ## Assignments -/

/-- A player with these roles may take the role `flag`: tank, healer or damage. -/
def Takes (roles flag : UInt8) : Prop :=
  flag ∈ roleFlags ∧ roles &&& flag ≠ 0 ∧ roles &&& 0xF0 = 0

instance (roles flag : UInt8) : Decidable (Takes roles flag) := by
  unfold Takes
  infer_instance

/-- How many of the players have exactly the role `flag`. -/
def countRole (m : LfgRolesMap) (flag : UInt8) (guids : List ObjectGuid) : Nat :=
  guids.countP fun guid => roleOf m guid &&& ~~~PLAYER_ROLE_LEADER = flag

/-- `m'` gives each player of `m` one of his roles, with at most one tank, one healer and three for damage. -/
structure Assignment (m m' : LfgRolesMap) : Prop where
  keys : m'.keys = m.keys
  takes : ∀ guid ∈ m.keys, ∃ flag, Takes (roleOf m guid) flag ∧
    roleOf m' guid = (roleOf m guid &&& PLAYER_ROLE_LEADER) ||| flag
  damage : countRole m' PLAYER_ROLE_DAMAGE m'.keys ≤ LFG_DPS_NEEDED
  healers : countRole m' PLAYER_ROLE_HEALER m'.keys ≤ LFG_HEALERS_NEEDED
  tanks : countRole m' PLAYER_ROLE_TANK m'.keys ≤ LFG_TANKS_NEEDED

/-- The players can be given their roles. -/
def Assignable (m : LfgRolesMap) : Prop := ∃ m', Assignment m m'

/-! ## Roles as bits -/

/-- A role a player has besides the leader's, and only that. -/
def Single (roles : UInt8) : Prop := roles &&& ~~~PLAYER_ROLE_LEADER ∈ roleFlags

instance (roles : UInt8) : Decidable (Single roles) := inferInstanceAs (Decidable (_ ∈ roleFlags))

/-- A mask and the rest of a byte. -/
theorem split_mask (r mask : UInt8) : (r &&& mask) ||| (r &&& ~~~mask) = r := by
  refine UInt8.toBitVec_inj.1 (BitVec.eq_of_getLsbD_eq fun i hi => ?_)
  simp only [UInt8.toBitVec_or, UInt8.toBitVec_and, UInt8.toBitVec_not, BitVec.getLsbD_or, BitVec.getLsbD_and,
    BitVec.getLsbD_not, hi, decide_true, Bool.true_and]
  cases r.toBitVec.getLsbD i <;> cases mask.toBitVec.getLsbD i <;> rfl

theorem or_and (a b c : UInt8) : (a ||| b) &&& c = (a &&& c) ||| (b &&& c) := by
  refine UInt8.toBitVec_inj.1 (BitVec.eq_of_getLsbD_eq fun i hi => ?_)
  simp [Bool.and_or_distrib_right]

variable {r f f' : UInt8} {check : LfgRolesMap → Bool × LfgRolesMap} {needed : Nat}

/-- The flag of a role is a single bit. -/
theorem and_role (hf : f ∈ roleFlags) (hr : r &&& f ≠ 0) : r &&& f = f := by
  obtain ⟨i, hi⟩ : ∃ i, f.toNat = 2 ^ i := by
    simp only [roleFlags, List.mem_cons, List.not_mem_nil, or_false] at hf
    rcases hf with rfl | rfl | rfl
    exacts [⟨3, rfl⟩, ⟨2, rfl⟩, ⟨1, rfl⟩]
  have hbit : (r &&& f).toNat = (r.toNat.testBit i).toNat * f.toNat := by rw [UInt8.toNat_and, hi, Nat.and_two_pow]
  cases htest : r.toNat.testBit i with
  | false => exact absurd (UInt8.toNat_inj.1 (by rw [hbit, htest]; simp)) hr
  | true => exact UInt8.toNat_inj.1 (by rw [hbit, htest]; simp)

/-- A role that is there is taken away by its bit. -/
theorem sub_role (hf : f ∈ roleFlags) (hr : r &&& f ≠ 0) : r - f = r &&& ~~~f := by
  have hdisjoint : f &&& (r &&& ~~~f) = 0 := by
    rw [UInt8.and_comm r, ← UInt8.and_assoc, UInt8.and_not_self, UInt8.zero_and]
  have hsum : f + (r &&& ~~~f) = r := by
    have hadd : f + (r &&& ~~~f) = f ||| (r &&& ~~~f) :=
      UInt8.toBitVec_inj.1 (BitVec.add_eq_or_of_and_eq_zero _ _ (congrArg UInt8.toBitVec hdisjoint))
    have hsplit := split_mask r f
    rw [and_role hf hr] at hsplit
    exact hadd.trans hsplit
  rw [UInt8.sub_eq_iff_eq_add, UInt8.add_comm, hsum]

theorem sub_role_and (hf : f ∈ roleFlags) (hr : r &&& f ≠ 0) (mask : UInt8) :
    (r - f) &&& mask = r &&& (~~~f &&& mask) := by
  rw [sub_role hf hr, UInt8.and_assoc]

/-- The flags of the roles are bits of their own. -/
theorem role_bits : (∀ f ∈ roleFlags, ∀ f' ∈ roleFlags, (~~~f &&& f' = if f = f' then 0 else f') ∧ (f &&& f' ≠ 0 → f' = f)) ∧
    (∀ f ∈ roleFlags, ~~~f &&& 0xF0 = 0xF0 ∧ f &&& 0xF0 = 0 ∧ f &&& f ≠ 0) ∧
    (∀ f ∈ roleFlags, ~~~f &&& PLAYER_ROLE_LEADER = PLAYER_ROLE_LEADER ∧ ~~~PLAYER_ROLE_LEADER &&& f = f) ∧
    ~~~PLAYER_ROLE_LEADER &&& 0xF0 = 0xF0 := by
  decide +kernel

/-- What is left of a role without another. -/
theorem without_role (f : UInt8) (hf : f ∈ roleFlags) (f' : UInt8) (hf' : f' ∈ roleFlags) :
    ~~~f &&& f' = if f = f' then 0 else f' := (role_bits.1 f hf f' hf').1

theorem without_rest (f : UInt8) (hf : f ∈ roleFlags) :
    ~~~f &&& 0xF0 = 0xF0 ∧ ~~~f &&& PLAYER_ROLE_LEADER = PLAYER_ROLE_LEADER :=
  ⟨(role_bits.2.1 f hf).1, (role_bits.2.2.1 f hf).1⟩

theorem role_and_self (hf : f ∈ roleFlags) : f &&& f ≠ 0 := (role_bits.2.1 f hf).2.2

theorem and_unled (r f : UInt8) (hf : f ∈ roleFlags) : (r &&& ~~~PLAYER_ROLE_LEADER) &&& f = r &&& f := by
  rw [UInt8.and_assoc, (role_bits.2.2.1 f hf).2]

/-- What may be taken without a choice may be taken with it. -/
theorem takes_of_sub (hf : f ∈ roleFlags) (hr : r &&& f ≠ 0) (h : Takes (r - f) f') :
    Takes r f' ∧ (r - f) &&& PLAYER_ROLE_LEADER = r &&& PLAYER_ROLE_LEADER := by
  obtain ⟨hf', hand, hrest⟩ := h
  rw [sub_role_and hf hr] at hand hrest ⊢
  rw [(without_rest f hf).1] at hrest
  rw [without_role f hf f' hf'] at hand
  refine ⟨⟨hf', ?_, hrest⟩, by rw [(without_rest f hf).2]⟩
  split at hand
  · exact absurd UInt8.and_zero hand
  · exact hand

theorem takes_sub (hf : f ∈ roleFlags) (hr : r &&& f ≠ 0) (hne : f ≠ f') (h : Takes r f') : Takes (r - f) f' := by
  obtain ⟨hf', hand, hrest⟩ := h
  refine ⟨hf', ?_, ?_⟩
  · rw [sub_role_and hf hr, without_role f hf f' hf', if_neg hne]
    exact hand
  · rw [sub_role_and hf hr, (without_rest f hf).1]
    exact hrest

/-- A single role leaves no choice. -/
theorem takes_single (hr : Single r) (h : Takes r f) : f = r &&& ~~~PLAYER_ROLE_LEADER := by
  have hand : (r &&& ~~~PLAYER_ROLE_LEADER) &&& f ≠ 0 := by
    rw [and_unled r f h.1]
    exact h.2.1
  exact (role_bits.1 _ hr f h.1).2 hand

theorem single_takes (hr : Single r) : Takes r (r &&& ~~~PLAYER_ROLE_LEADER) ∧
    r = (r &&& PLAYER_ROLE_LEADER) ||| (r &&& ~~~PLAYER_ROLE_LEADER) := by
  have hrest : r &&& 0xF0 = (r &&& ~~~PLAYER_ROLE_LEADER) &&& 0xF0 := by
    rw [UInt8.and_assoc, role_bits.2.2.2]
  refine ⟨⟨hr, ?_, ?_⟩, (split_mask r PLAYER_ROLE_LEADER).symm⟩
  · rw [← and_unled r _ hr]
    exact role_and_self hr
  · rw [hrest]
    exact (role_bits.2.1 _ hr).2.1

/-- Besides the leader's, a role that can be taken comes with the others only. -/
theorem unled_eq (hrest : r &&& 0xF0 = 0) : r &&& ~~~PLAYER_ROLE_LEADER =
    (r &&& PLAYER_ROLE_DAMAGE) ||| (r &&& PLAYER_ROLE_HEALER) ||| (r &&& PLAYER_ROLE_TANK) := by
  have hmask : ~~~PLAYER_ROLE_LEADER = PLAYER_ROLE_DAMAGE ||| PLAYER_ROLE_HEALER ||| PLAYER_ROLE_TANK ||| 0xF0 := by decide
  rw [hmask, UInt8.and_comm, or_and, or_and, or_and, UInt8.and_comm 0xF0, hrest, UInt8.or_zero]
  rw [UInt8.and_comm r, UInt8.and_comm r, UInt8.and_comm r]

/-- If a role can be taken and is not the only one, there is another. -/
theorem other_of_takes (h : Takes r f) (hr : ¬ Single r) : ∃ f' ∈ roleFlags, f' ≠ f ∧ r &&& f' ≠ 0 ∧
    r &&& ~~~PLAYER_ROLE_LEADER ≠ f' := by
  by_contra hall
  have hnone : ∀ f' ∈ roleFlags, f' ≠ f → r &&& f' = 0 := fun f' hf' hne => by
    by_contra hand
    exact hall ⟨f', hf', hne, hand, fun heq => hr (by rwa [Single, heq])⟩
  have hunled := unled_eq h.2.2
  obtain ⟨hf, hand, -⟩ := h
  have htake := and_role hf hand
  apply hr
  rw [Single, hunled]
  simp only [roleFlags, List.mem_cons, List.not_mem_nil, or_false] at hf
  rcases hf with rfl | rfl | rfl
  · rw [htake, hnone PLAYER_ROLE_HEALER (by decide) (by decide), hnone PLAYER_ROLE_TANK (by decide) (by decide)]
    decide
  · rw [htake, hnone PLAYER_ROLE_DAMAGE (by decide) (by decide), hnone PLAYER_ROLE_TANK (by decide) (by decide)]
    decide
  · rw [htake, hnone PLAYER_ROLE_DAMAGE (by decide) (by decide), hnone PLAYER_ROLE_HEALER (by decide) (by decide)]
    decide

theorem not_takes_none (hr : r &&& ~~~PLAYER_ROLE_LEADER = 0) : ¬ Takes r f := fun h =>
  h.2.1 (by rw [← and_unled r f h.1, hr, UInt8.zero_and])

theorem assigned_unled (h : Takes r f) : ((r &&& PLAYER_ROLE_LEADER) ||| f) &&& ~~~PLAYER_ROLE_LEADER = f := by
  rw [or_and, UInt8.and_assoc, UInt8.and_not_self, UInt8.and_zero, UInt8.zero_or]
  rw [UInt8.and_comm]
  exact (role_bits.2.2.1 f h.1).2

theorem choicesOf_sub (hf : f ∈ roleFlags) (hr : r &&& f ≠ 0) : choicesOf (r - f) < choicesOf r := by
  have hsub : ∀ g ∈ roleFlags, (r - f) &&& g ≠ 0 ↔ f ≠ g ∧ r &&& g ≠ 0 := by
    intro g hg
    rw [sub_role_and hf hr, without_role f hf g hg]
    split
    next he => simp [he]
    next hne => simp [hne]
  unfold choicesOf
  rw [List.countP_congr (q := fun g => f ≠ g ∧ r &&& g ≠ 0) fun g hg => by simpa using hsub g hg]
  obtain ⟨l₁, l₂, hl⟩ := List.append_of_mem hf
  have hle : ∀ l : List UInt8, l.countP (fun g => f ≠ g ∧ r &&& g ≠ 0) ≤ l.countP (r &&& · ≠ 0) := fun l =>
    List.countP_mono_left fun g _ hg => by simpa using (of_decide_eq_true hg).2
  have := hle l₁
  have := hle l₂
  simp only [hl, List.countP_append, List.countP_cons, hr, ne_eq, not_true, false_and, not_false_eq_true, decide_false,
    decide_true, if_true] at *
  simp only [Bool.false_eq_true, if_false] at *
  omega

/-! ## Maps of roles -/

variable {m m' : LfgRolesMap} {guid : ObjectGuid} {flag : UInt8}

theorem roleOf_insert (m : LfgRolesMap) (guid guid' : ObjectGuid) (role : UInt8) :
    roleOf (m.insert guid role) guid' = if guid' = guid then role else roleOf m guid' := by
  simp only [roleOf, OMap.find?_insert]
  split <;> rfl

/-- Taking a choice from a player and giving it back. -/
theorem insert_restore (hg : guid ∈ m.keys) (flag : UInt8) :
    (m.insert guid (roleOf m guid - flag)).insert guid (roleOf (m.insert guid (roleOf m guid - flag)) guid + flag) = m := by
  obtain ⟨role, hrole⟩ := OMap.mem_keys.1 hg
  rw [OMap.insert_insert, roleOf_insert, if_pos rfl, UInt8.sub_add_cancel]
  exact OMap.insert_find? (by rw [hrole, roleOf, hrole, Option.getD_some])

theorem choices_insert_lt (hg : guid ∈ m.keys) (hf : flag ∈ roleFlags) (hr : roleOf m guid &&& flag ≠ 0) :
    choices (m.insert guid (roleOf m guid - flag)) < choices m := by
  simp only [choices, OMap.keys_insert hg, roleOf_insert]
  refine List.sum_lt_sum _ _ (fun g _ => ?_) ⟨guid, hg, ?_⟩
  · split
    next h => rw [h]; exact Nat.le_of_lt (choicesOf_sub hf hr)
    next => exact Nat.le_refl _
  · rw [if_pos rfl]
    exact choicesOf_sub hf hr

/-- An assignment without a choice is one with it. -/
theorem Assignment.of_insert (hg : guid ∈ m.keys) (hf : flag ∈ roleFlags) (hr : roleOf m guid &&& flag ≠ 0)
    (h : Assignment (m.insert guid (roleOf m guid - flag)) m') : Assignment m m' := by
  have hkeys := OMap.keys_insert hg (roleOf m guid - flag)
  refine ⟨h.keys.trans hkeys, fun g hmem => ?_, h.damage, h.healers, h.tanks⟩
  obtain ⟨f, hf', hrole⟩ := h.takes g (hkeys ▸ hmem)
  rw [roleOf_insert] at hf' hrole
  split at hf'
  next heq =>
    subst heq
    obtain ⟨htakes, hlead⟩ := takes_of_sub hf hr hf'
    rw [if_pos rfl, hlead] at hrole
    exact ⟨f, htakes, hrole⟩
  next hne =>
  rw [if_neg hne] at hrole
  exact ⟨f, hf', hrole⟩

/-- An assignment that does not use a choice does without it. -/
theorem Assignment.insert (hg : guid ∈ m.keys) (hf : flag ∈ roleFlags) (hr : roleOf m guid &&& flag ≠ 0)
    (h : Assignment m m') (hne : roleOf m' guid &&& ~~~PLAYER_ROLE_LEADER ≠ flag) :
    Assignment (m.insert guid (roleOf m guid - flag)) m' := by
  have hkeys := OMap.keys_insert hg (roleOf m guid - flag)
  refine ⟨h.keys.trans hkeys.symm, fun g hmem => ?_, h.damage, h.healers, h.tanks⟩
  obtain ⟨f, htakes, hrole⟩ := h.takes g (hkeys ▸ hmem)
  rw [roleOf_insert]
  split
  next heq =>
    subst heq
    have hf' : flag ≠ f := fun he => hne (by rw [hrole, assigned_unled htakes, he])
    have hsub := takes_sub hf hr hf' htakes
    exact ⟨f, hsub, by rw [(takes_of_sub hf hr hsub).2]; exact hrole⟩
  next => exact ⟨f, htakes, hrole⟩

/-- A player with a single role keeps it in every assignment. -/
theorem Assignment.of_single (h : Assignment m m') (hg : guid ∈ m.keys) (hs : Single (roleOf m guid)) :
    roleOf m' guid = roleOf m guid := by
  obtain ⟨f, htakes, hrole⟩ := h.takes guid hg
  rw [hrole, takes_single hs htakes]
  exact (single_takes hs).2.symm

/-! ## The search finds an assignment exactly when there is one -/

/-- What is asked of a search. -/
def Solves (m : LfgRolesMap) (r : Bool × LfgRolesMap) : Prop :=
  if r.1 then Assignment m r.2 else r.2 = m ∧ ¬ Assignable m

/-- Too many players who can only be one thing. -/
theorem not_assignable_of_full {guids : List ObjectGuid} (hf : flag ∈ roleFlags)
    (hlimit : ∀ m', Assignment m m' → countRole m' flag m'.keys ≤ needed) (hsub : guids.Sublist m.keys)
    (hfull : needed < countRole m flag guids) : ¬ Assignable m := by
  intro h
  obtain ⟨m', hm'⟩ := h
  have hle : countRole m flag guids ≤ countRole m' flag guids := by
    refine List.countP_mono_left fun g hg hrole => ?_
    simp only [decide_eq_true_eq] at hrole ⊢
    rw [hm'.of_single (hsub.subset hg) (by rw [Single, hrole]; exact hf), hrole]
  have hkeys : countRole m' flag guids ≤ countRole m' flag m'.keys := (hm'.keys ▸ hsub).countP_le
  have := hlimit m' hm'
  omega

theorem countRole_append (m : LfgRolesMap) (flag : UInt8) (guids : List ObjectGuid) (guid : ObjectGuid) :
    countRole m flag (guids ++ [guid]) =
      countRole m flag guids + if roleOf m guid &&& ~~~PLAYER_ROLE_LEADER = flag then 1 else 0 := by
  simp only [countRole, List.countP_append, List.countP_singleton, decide_eq_true_eq]

/-- The three counts together are the players with a single role. -/
theorem countRole_single (m : LfgRolesMap) (guids : List ObjectGuid) :
    countRole m PLAYER_ROLE_TANK guids + countRole m PLAYER_ROLE_HEALER guids + countRole m PLAYER_ROLE_DAMAGE guids =
      guids.countP fun guid => Single (roleOf m guid) := by
  induction guids with
  | nil => rfl
  | cons g guids ih =>
    have hone : ∀ r : UInt8, (if r &&& ~~~PLAYER_ROLE_LEADER = PLAYER_ROLE_TANK then 1 else 0) +
        (if r &&& ~~~PLAYER_ROLE_LEADER = PLAYER_ROLE_HEALER then 1 else 0) +
        (if r &&& ~~~PLAYER_ROLE_LEADER = PLAYER_ROLE_DAMAGE then 1 else 0) = if Single r then 1 else 0 := by
      intro r
      show _ = if r &&& ~~~PLAYER_ROLE_LEADER ∈ roleFlags then 1 else 0
      generalize r &&& ~~~PLAYER_ROLE_LEADER = role
      by_cases hd : role = PLAYER_ROLE_DAMAGE
      · rw [hd]
        decide
      by_cases hh : role = PLAYER_ROLE_HEALER
      · rw [hh]
        decide
      by_cases ht : role = PLAYER_ROLE_TANK
      · rw [ht]
        decide
      · simp [hd, hh, ht, roleFlags]
    have := hone (roleOf m g)
    simp only [countRole, List.countP_cons, decide_eq_true_eq] at ih ⊢
    omega

/-- What trying a role comes to: the search is over, or the loop goes on with the player counted if this is all he
can be, and with no assignment left in which he is anything else. -/
theorem tryRole_spec {passed : List ObjectGuid}
    {role : UInt8} (hrole : roleOf m guid &&& ~~~PLAYER_ROLE_LEADER = role) (hf : flag ∈ roleFlags) (hsub : (passed ++ [guid]).Sublist m.keys)
    (hlimit : ∀ m', Assignment m m' → countRole m' flag m'.keys ≤ needed) (hcount : countRole m flag passed ≤ needed)
    (hcheck : roleOf m guid &&& flag ≠ 0 →
      Solves (m.insert guid (roleOf m guid - flag)) (check (m.insert guid (roleOf m guid - flag)))) :
    (∃ r, tryRole check flag needed role guid (countRole m flag passed) m = .error r ∧ Solves m r) ∨
    (tryRole check flag needed role guid (countRole m flag passed) m = .ok (countRole m flag (passed ++ [guid]), m) ∧
      countRole m flag (passed ++ [guid]) ≤ needed ∧ (role ≠ flag → roleOf m guid &&& flag ≠ 0 →
        ∀ m', Assignment m m' → roleOf m' guid &&& ~~~PLAYER_ROLE_LEADER = flag)) := by
  have hg : guid ∈ m.keys := hsub.subset (by simp)
  have hfull := not_assignable_of_full hf hlimit hsub
  have hand : role &&& flag = roleOf m guid &&& flag := hrole ▸ and_unled _ _ hf
  rw [countRole_append, hrole] at hfull ⊢
  unfold tryRole
  by_cases heq : role = flag
  · have hself : role &&& flag ≠ 0 := by
      rw [heq]
      exact role_and_self hf
    rw [if_pos heq] at hfull ⊢
    by_cases hneeded : countRole m flag passed = needed
    · refine .inl ⟨(false, m), ?_, rfl, hfull (by omega)⟩
      rw [if_neg hself, if_neg (not_not.2 heq), if_pos hneeded]
    · refine .inr ⟨?_, by omega, fun hne => absurd heq hne⟩
      rw [if_neg hself, if_neg (not_not.2 heq), if_neg hneeded]
  rw [if_neg heq]
  by_cases hhas : role &&& flag = 0
  · refine .inr ⟨?_, hcount, fun _ h => absurd (hand ▸ hhas) h⟩
    rw [if_pos hhas, Nat.add_zero]
  have hr : roleOf m guid &&& flag ≠ 0 := hand ▸ hhas
  have hs := hcheck hr
  rw [if_neg hhas, if_pos heq]
  cases hres : check (m.insert guid (roleOf m guid - flag)) with
  | mk found m₁ =>
  rw [hres] at hs
  simp only [Solves] at hs
  cases found with
  | true =>
    simp only [if_true] at hs ⊢
    exact .inl ⟨_, rfl, hs.of_insert hg hf hr⟩
  | false =>
    simp only [Bool.false_eq_true, if_false] at hs ⊢
    obtain ⟨rfl, hnone⟩ := hs
    refine .inr ⟨by rw [insert_restore hg, Nat.add_zero], hcount, fun _ _ m' hm' => ?_⟩
    by_contra hne
    exact hnone ⟨m', hm'.insert hg hf hr hne⟩

/-- What the loop knows of the players it has passed. -/
structure Passed (m : LfgRolesMap) (guids : List ObjectGuid) : Prop where
  damage : countRole m PLAYER_ROLE_DAMAGE guids ≤ LFG_DPS_NEEDED
  healers : countRole m PLAYER_ROLE_HEALER guids ≤ LFG_HEALERS_NEEDED
  tanks : countRole m PLAYER_ROLE_TANK guids ≤ LFG_TANKS_NEEDED
  settled : (∀ guid ∈ guids, Single (roleOf m guid)) ∨ ¬ Assignable m

/-- Behind the last player. -/
theorem Passed.solves (h : Passed m m.keys) (hsize : m.size < 256) :
    Solves m (countRole m PLAYER_ROLE_TANK m.keys + countRole m PLAYER_ROLE_HEALER m.keys +
      countRole m PLAYER_ROLE_DAMAGE m.keys = m.size % 256, m) := by
  have hall : m.keys.countP (fun guid => Single (roleOf m guid)) = m.size ↔
      ∀ guid ∈ m.keys, Single (roleOf m guid) := by
    rw [← OMap.length_keys, List.countP_eq_length]
    exact forall_congr' fun g => imp_congr_right fun _ => decide_eq_true_iff
  rw [Nat.mod_eq_of_lt hsize, countRole_single]
  unfold Solves
  split
  next heq =>
    have hsingle := hall.1 (of_decide_eq_true heq)
    exact ⟨rfl, fun g hg => ⟨_, single_takes (hsingle g hg)⟩, h.damage, h.healers, h.tanks⟩
  next hne => exact ⟨rfl, h.settled.resolve_left fun hsingle => hne (decide_eq_true (hall.2 hsingle))⟩

/-- The loop over the players. -/
theorem checkPlayers_solves (hsize : m.size < 256)
    (hcheck : ∀ guid ∈ m.keys, ∀ flag ∈ roleFlags, roleOf m guid &&& flag ≠ 0 →
      Solves (m.insert guid (roleOf m guid - flag)) (check (m.insert guid (roleOf m guid - flag))))
    (guids : List ObjectGuid) : ∀ passed : List ObjectGuid, passed ++ guids = m.keys → Passed m passed →
      Solves m (checkPlayers check guids (countRole m PLAYER_ROLE_DAMAGE passed)
        (countRole m PLAYER_ROLE_HEALER passed) (countRole m PLAYER_ROLE_TANK passed) m) := by
  induction guids with
  | nil =>
    intro passed hkeys h
    rw [List.append_nil] at hkeys
    subst hkeys
    exact h.solves hsize
  | cons g guids ih =>
    intro passed hkeys h
    have hg : g ∈ m.keys := by rw [← hkeys]; simp
    have hnext : (passed ++ [g]) ++ guids = m.keys := by rw [← hkeys]; simp
    have hsub : (passed ++ [g]).Sublist m.keys := hnext ▸ List.sublist_append_left _ _
    unfold checkPlayers
    simp only
    split
    next h0 =>
      refine ⟨rfl, fun hm => ?_⟩
      obtain ⟨m', hm'⟩ := hm
      obtain ⟨f, hf, -⟩ := hm'.takes g hg
      exact not_takes_none h0 hf
    -- each role in turn: the search is over, or the loop goes on
    rcases tryRole_spec rfl (by decide) hsub (fun _ hm' => hm'.damage) h.damage
      (hcheck g hg PLAYER_ROLE_DAMAGE (by decide)) with ⟨r, hr, hs⟩ | ⟨hr, hdamage, hforceD⟩
    · rw [hr]; exact hs
    rcases tryRole_spec rfl (by decide) hsub (fun _ hm' => hm'.healers) h.healers
      (hcheck g hg PLAYER_ROLE_HEALER (by decide)) with ⟨r, hr', hs⟩ | ⟨hr', hhealers, hforceH⟩
    · rw [hr]; simp only [hr']; exact hs
    rcases tryRole_spec rfl (by decide) hsub (fun _ hm' => hm'.tanks) h.tanks
      (hcheck g hg PLAYER_ROLE_TANK (by decide)) with ⟨r, hr'', hs⟩ | ⟨hr'', htanks, hforceT⟩
    · rw [hr]; simp only [hr', hr'']; exact hs
    rw [hr]
    simp only [hr', hr'']
    refine ih (passed ++ [g]) hnext ⟨hdamage, hhealers, htanks, ?_⟩
    by_cases hsingle : Single (roleOf m g)
    · refine h.settled.imp_left fun hp g' hg' => ?_
      rcases List.mem_append.1 hg' with hg' | hg'
      · exact hp g' hg'
      · rw [List.mem_singleton.1 hg']
        exact hsingle
    -- with several roles he would have to be each of them
    refine .inr fun hm => ?_
    obtain ⟨m', hm'⟩ := hm
    obtain ⟨f, hf, hrole⟩ := hm'.takes g hg
    obtain ⟨f', hf', hne, hhas, hmulti⟩ := other_of_takes hf hsingle
    have hforced : roleOf m' g &&& ~~~PLAYER_ROLE_LEADER = f' := by
      simp only [roleFlags, List.mem_cons, List.not_mem_nil, or_false] at hf'
      rcases hf' with rfl | rfl | rfl
      · exact hforceD hmulti hhas m' hm'
      · exact hforceH hmulti hhas m' hm'
      · exact hforceT hmulti hhas m' hm'
    rw [hrole, assigned_unled hf] at hforced
    exact hne hforced.symm

theorem checkGroupRolesTo_solves (n : Nat) : ∀ {m : LfgRolesMap}, 0 < m.size → m.size < 256 → choices m < n →
    Solves m (checkGroupRolesTo n m) := by
  induction n with
  | zero => intro m _ _ h; omega
  | succ n ih =>
    intro m hpos hsize hn
    have hne : m.isEmpty = false := by
      rw [Bool.eq_false_iff]
      intro h
      rw [← OMap.length_keys, OMap.isEmpty_iff.1 h] at hpos
      exact absurd hpos (Nat.lt_irrefl 0)
    simp only [checkGroupRolesTo, hne, Bool.false_eq_true, if_false]
    refine checkPlayers_solves hsize (fun g hg f hf hr => ?_) m.keys [] rfl
      ⟨Nat.zero_le _, Nat.zero_le _, Nat.zero_le _, .inl (by simp)⟩
    have hlt := choices_insert_lt hg hf hr
    exact ih (by rwa [OMap.size_insert hg]) (by rwa [OMap.size_insert hg]) (by omega)

/-- **`CheckGroupRoles` finds an assignment exactly when there is one,** and leaves the roles as they were when there
is none. -/
theorem checkGroupRoles_spec (hpos : 0 < m.size) (hsize : m.size < 256) : Solves m (checkGroupRoles m) :=
  checkGroupRolesTo_solves _ hpos hsize (Nat.lt_succ_self _)

theorem checkGroupRoles_iff (hpos : 0 < m.size) (hsize : m.size < 256) :
    (checkGroupRoles m).1 = true ↔ Assignable m := by
  have h := checkGroupRoles_spec hpos hsize
  unfold Solves at h
  split at h
  next htrue => exact iff_of_true htrue ⟨_, h⟩
  next hfalse => exact iff_of_false hfalse h.2

theorem checkGroupRoles_assigns (hpos : 0 < m.size) (hsize : m.size < 256) (h : (checkGroupRoles m).1 = true) :
    Assignment m (checkGroupRoles m).2 := by
  have hs := checkGroupRoles_spec hpos hsize
  rwa [Solves, if_pos h] at hs

/-! ## The search comes to an end -/

/-- A search that fails leaves the map as it was. -/
def Restores (m : LfgRolesMap) (r : Bool × LfgRolesMap) : Prop := r.1 = false → r.2 = m

/-- What trying a role comes to depends only on the search without it, and a map it goes on with is the same. -/
theorem tryRole_settled {check check' : LfgRolesMap → Bool × LfgRolesMap} {needed count : Nat} (hg : guid ∈ m.keys)
    (hf : flag ∈ roleFlags) (hsame : roleOf m guid &&& flag ≠ 0 →
      check' (m.insert guid (roleOf m guid - flag)) = check (m.insert guid (roleOf m guid - flag)))
    (hrestores : roleOf m guid &&& flag ≠ 0 →
      Restores (m.insert guid (roleOf m guid - flag)) (check (m.insert guid (roleOf m guid - flag)))) :
    tryRole check' flag needed (roleOf m guid &&& ~~~PLAYER_ROLE_LEADER) guid count m =
        tryRole check flag needed (roleOf m guid &&& ~~~PLAYER_ROLE_LEADER) guid count m ∧
      ((∃ r, tryRole check flag needed (roleOf m guid &&& ~~~PLAYER_ROLE_LEADER) guid count m = .error r ∧ Restores m r) ∨
        ∃ c, tryRole check flag needed (roleOf m guid &&& ~~~PLAYER_ROLE_LEADER) guid count m = .ok (c, m)) := by
  unfold tryRole
  by_cases hhas : (roleOf m guid &&& ~~~PLAYER_ROLE_LEADER) &&& flag = 0
  · simp only [if_pos hhas]
    exact ⟨trivial, .inr ⟨count, rfl⟩⟩
  have hr : roleOf m guid &&& flag ≠ 0 := by rwa [and_unled _ _ hf] at hhas
  simp only [if_neg hhas, hsame hr]
  refine ⟨trivial, ?_⟩
  split
  next hmulti =>
    have hback := hrestores hr
    cases hres : check (m.insert guid (roleOf m guid - flag)) with
    | mk found m₁ =>
    rw [hres] at hback
    cases found with
    | true => exact .inl ⟨_, rfl, nofun⟩
    | false =>
      have hm : m₁ = m.insert guid (roleOf m guid - flag) := hback rfl
      subst hm
      exact .inr ⟨count, by rw [if_neg Bool.false_ne_true, insert_restore hg]⟩
  next hsingle =>
  split
  next => exact .inl ⟨_, rfl, fun _ => rfl⟩
  next => exact .inr ⟨count + 1, rfl⟩

theorem checkPlayers_settled {check' : LfgRolesMap → Bool × LfgRolesMap}
    (hsame : ∀ guid ∈ m.keys, ∀ flag ∈ roleFlags, roleOf m guid &&& flag ≠ 0 →
      check' (m.insert guid (roleOf m guid - flag)) = check (m.insert guid (roleOf m guid - flag)))
    (hrestores : ∀ guid ∈ m.keys, ∀ flag ∈ roleFlags, roleOf m guid &&& flag ≠ 0 →
      Restores (m.insert guid (roleOf m guid - flag)) (check (m.insert guid (roleOf m guid - flag))))
    (guids : List ObjectGuid) : ∀ damage healer tank : Nat, (∀ guid ∈ guids, guid ∈ m.keys) →
      checkPlayers check' guids damage healer tank m = checkPlayers check guids damage healer tank m ∧
        Restores m (checkPlayers check guids damage healer tank m) := by
  induction guids with
  | nil => exact fun _ _ _ _ => ⟨rfl, fun _ => rfl⟩
  | cons g guids ih =>
    intro damage healer tank hmem
    have hg := hmem g List.mem_cons_self
    have htry : ∀ flag ∈ roleFlags, ∀ needed count, _ := fun flag hf needed count =>
      @tryRole_settled _ _ _ _ _ needed count hg hf (hsame g hg flag hf) (hrestores g hg flag hf)
    unfold checkPlayers
    simp only
    split
    next => exact ⟨rfl, fun _ => rfl⟩
    obtain ⟨heq, ⟨r, hr, hback⟩ | ⟨damage', hr⟩⟩ := htry PLAYER_ROLE_DAMAGE (by decide) LFG_DPS_NEEDED damage
    · rw [heq, hr]; exact ⟨rfl, hback⟩
    rw [heq, hr]
    simp only
    obtain ⟨heq, ⟨r, hr, hback⟩ | ⟨healer', hr⟩⟩ := htry PLAYER_ROLE_HEALER (by decide) LFG_HEALERS_NEEDED healer
    · rw [heq, hr]; exact ⟨rfl, hback⟩
    rw [heq, hr]
    simp only
    obtain ⟨heq, ⟨r, hr, hback⟩ | ⟨tank', hr⟩⟩ := htry PLAYER_ROLE_TANK (by decide) LFG_TANKS_NEEDED tank
    · rw [heq, hr]; exact ⟨rfl, hback⟩
    rw [heq, hr]
    exact ih damage' healer' tank' fun x hx => hmem x (List.mem_cons_of_mem _ hx)

/-- A depth beyond the number of choices is never used up. -/
theorem checkGroupRolesTo_settled (n : Nat) : ∀ {m : LfgRolesMap} {n' : Nat}, choices m < n → choices m < n' →
    checkGroupRolesTo n' m = checkGroupRolesTo n m ∧ Restores m (checkGroupRolesTo n m) := by
  induction n with
  | zero => intro m n' h _; omega
  | succ n ih =>
    intro m n' hn hn'
    obtain ⟨k, rfl⟩ : ∃ k, n' = k + 1 := ⟨n' - 1, by omega⟩
    simp only [checkGroupRolesTo]
    split
    next => exact ⟨rfl, fun _ => rfl⟩
    have hsub : ∀ guid ∈ m.keys, ∀ flag ∈ roleFlags, roleOf m guid &&& flag ≠ 0 → _ := fun g hg f hf hr =>
      have hlt := choices_insert_lt hg hf hr
      @ih (m.insert g (roleOf m g - f)) k (by omega) (by omega)
    exact checkPlayers_settled (fun g hg f hf hr => (hsub g hg f hf hr).1) (fun g hg f hf hr => (hsub g hg f hf hr).2)
      m.keys 0 0 0 fun _ h => h

/-- **`CheckGroupRoles` on up to 255 players, at least one, answers whether they can be assigned,** and the map then
holds an assignment. Any map it fails on is left as it was, and no map keeps it from coming to an end. -/
theorem checkGroupRoles_exact (m : LfgRolesMap) :
    (0 < m.size → m.size < 256 → ((checkGroupRoles m).1 = true ↔ Assignable m) ∧
      ((checkGroupRoles m).1 = true → Assignment m (checkGroupRoles m).2)) ∧
    ((checkGroupRoles m).1 = false → (checkGroupRoles m).2 = m) ∧
    ∀ n, choices m < n → checkGroupRolesTo n m = checkGroupRoles m :=
  ⟨fun hpos hsize => ⟨checkGroupRoles_iff hpos hsize, checkGroupRoles_assigns hpos hsize⟩,
    (checkGroupRolesTo_settled _ (Nat.lt_succ_self _) (Nat.lt_succ_self _)).2,
    fun _ hn => (checkGroupRolesTo_settled _ (Nat.lt_succ_self _) hn).1⟩

/-- A tank who may also do damage, beside another tank. -/
theorem checkGroupRoles_exact_two : ((checkGroupRoles ((OMap.empty.insert 1 (2 ||| 8)).insert 2 2)).1 = true ↔
      Assignable ((OMap.empty.insert 1 (2 ||| 8)).insert 2 2)) ∧
    ((checkGroupRoles ((OMap.empty.insert 1 (2 ||| 8)).insert 2 2)).1 = true →
      Assignment ((OMap.empty.insert 1 (2 ||| 8)).insert 2 2)
        (checkGroupRoles ((OMap.empty.insert 1 (2 ||| 8)).insert 2 2)).2) :=
  (checkGroupRoles_exact ((OMap.empty.insert 1 (2 ||| 8)).insert 2 2)).1 (by decide) (by decide)

/-- Nobody at all can be assigned, and is refused. -/
theorem checkGroupRoles_nobody : ¬ ∀ m : LfgRolesMap, (∀ guid ∈ m.keys, roleOf m guid &&& 0xF0 = 0) →
    ((checkGroupRoles m).1 = true ↔ Assignable m) := by
  intro h
  have hnobody : Assignment OMap.empty OMap.empty :=
    ⟨rfl, nofun, Nat.zero_le _, Nat.zero_le _, Nat.zero_le _⟩
  exact absurd ((h .empty nofun).2 ⟨_, hnobody⟩) (by decide)

end AtlasWow.Lfg
