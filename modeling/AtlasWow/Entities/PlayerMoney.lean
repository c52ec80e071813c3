/-
The purse of a player (`Player.cpp`): `PLAYER_FIELD_COINAGE`, and the two calls
every payment goes through.
-/
import AtlasWow.Lib.MachineInt

namespace AtlasWow

def MAX_MONEY_AMOUNT : UInt32 := 0x7FFFFFFF

/-- `Player::ModifyMoney`: the purse afterwards, `none` if the amount is refused. A payment the purse cannot meet
empties it. -/
def modifyMoney (amount : Int) (money : Nat) : Option Nat :=
  if amount = 0 then some money
  else if amount < 0 then some (if uint32 (-amount) < money then uint32 (money + amount) else 0)
  else if money < MAX_MONEY_AMOUNT.toNat - uint32 amount then some (uint32 (money + amount)) else none

variable {money money' : Nat}

/-- A payment is taken from the purse, or what the purse has of it. -/
theorem modifyMoney_pay {price : Nat} (hprice : price < 2 ^ 31) (hmoney : money < 2 ^ 31) :
    modifyMoney (int32 (-int32 price)) money = some (money - price) := by
  have hamount : int32 (-int32 price) = -price := by
    rw [int32_small (x := price) (by omega) (by omega), int32_eq]
    split <;> omega
  unfold modifyMoney
  rw [hamount, Int.neg_neg, uint32_small (by omega), uint32_eq]
  split
  next hzero => exact congrArg some (by omega)
  next hpos =>
  rw [if_pos (by omega)]
  refine congrArg some ?_
  split <;> omega

/-- Money that comes in is all in the purse, which stays within its limit. -/
theorem modifyMoney_receive {amount : Nat} (hamount : amount < 2 ^ 31)
    (h : modifyMoney amount money = some money') (hmoney : money < 2 ^ 31) : money' = money + amount ∧ money' < 2 ^ 31 := by
  unfold modifyMoney at h
  split at h
  next hzero =>
    cases h
    omega
  next hpos =>
  have hmax : MAX_MONEY_AMOUNT.toNat = 2147483647 := rfl
  rw [if_neg (by omega), uint32_small (by omega), hmax] at h
  split at h
  next hlt =>
    cases h
    rw [uint32_eq]
    omega
  next => cases h

/-- A purse stays a 32 bit number. -/
theorem modifyMoney_lt {amount : Int} (h : modifyMoney amount money = some money') (hmoney : money < 2 ^ 32) :
    money' < 2 ^ 32 := by
  unfold modifyMoney at h
  split at h
  next =>
    cases h
    exact hmoney
  next =>
  split at h
  next =>
    cases h
    split
    · exact uint32_lt _
    · decide
  next =>
  split at h
  next =>
    cases h
    exact uint32_lt _
  next => cases h

/-- A price that the purse can meet is taken from it. -/
theorem modifyMoney_afford {price : Int} (hpos : 0 < price) (hprice : price ≤ money) (hmoney : money < 2 ^ 32) :
    ∃ money', modifyMoney (-price) money = some money' ∧ money' + price.toNat = money := by
  unfold modifyMoney
  rw [if_neg (by omega), if_pos (by omega), Int.neg_neg, uint32_eq, uint32_eq]
  refine ⟨_, rfl, ?_⟩
  split <;> omega

end AtlasWow
