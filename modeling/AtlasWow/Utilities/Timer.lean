/-
Differences between readings of the millisecond clock (`Timer.h`). The clock
counts in 32 bits, and a difference across the wrap comes out a millisecond
short (`getMSTimeDiff_add`), so that the differences of a run of readings add
up to the time that has passed exactly while the clock does not wrap
(`sumOfDiffs_eq_elapsed_iff`).
-/
import Mathlib.Algebra.Group.Nat.Defs
import Mathlib.Data.List.Chain

namespace AtlasWow
namespace Timer

/-- `getMSTime`, so many milliseconds after the start of the application. -/
def getMSTime (elapsed : Nat) : UInt32 := .ofNat elapsed

def getMSTimeDiff (oldMSTime newMSTime : UInt32) : UInt32 :=
  -- getMSTime() have limited data range and this is case when it overflow in this tick
  if oldMSTime > newMSTime then (0xFFFFFFFF - oldMSTime) + newMSTime else newMSTime - oldMSTime

/-- Two readings one after the other, less than a turn of the clock apart. -/
def Next (t t' : Nat) : Prop := t ≤ t' ∧ t' - t < 2 ^ 32

/-- The differences between the readings at some times, added up. -/
def sumOfDiffs : Nat → List Nat → Nat
  | _, [] => 0
  | t, t' :: ts => (getMSTimeDiff (getMSTime t) (getMSTime t')).toNat + sumOfDiffs t' ts

/-- The time of the last reading. -/
def last (t : Nat) (ts : List Nat) : Nat := ts.getLastD t

@[simp] theorem last_cons (t t' : Nat) (ts : List Nat) : last t (t' :: ts) = last t' ts := List.getLastD_cons

theorem toNat_getMSTime (t : Nat) : (getMSTime t).toNat = t % 2 ^ 32 := UInt32.toNat_ofNat'

theorem toNat_getMSTimeDiff (old new : UInt32) : (getMSTimeDiff old new).toNat =
    if new.toNat < old.toNat then 2 ^ 32 - 1 - old.toNat + new.toNat else new.toNat - old.toNat := by
  have hold := old.toNat_lt
  have hnew := new.toNat_lt
  unfold getMSTimeDiff
  by_cases h : new.toNat < old.toNat
  · rw [if_pos (UInt32.lt_iff_toNat_lt.2 h), if_pos h, UInt32.toNat_add, UInt32.toNat_sub_of_le _ _ ?_]
    · show (2 ^ 32 - 1 - old.toNat + new.toNat) % 2 ^ 32 = _
      omega
    · rw [UInt32.le_iff_toNat_le]
      exact Nat.le_sub_one_of_lt hold
  · rw [if_neg (mt UInt32.lt_iff_toNat_lt.1 h), if_neg h, UInt32.toNat_sub_of_le _ _ (UInt32.le_iff_toNat_le.2 (by omega))]

/-- A difference misses a millisecond for a turn of the clock. -/
theorem getMSTimeDiff_add {t t' : Nat} (h : Next t t') :
    (getMSTimeDiff (getMSTime t) (getMSTime t')).toNat + (t' / 2 ^ 32 - t / 2 ^ 32) = t' - t := by
  obtain ⟨hle, hgap⟩ := h
  rw [toNat_getMSTimeDiff, toNat_getMSTime, toNat_getMSTime]
  split <;> omega

theorem le_last : ∀ {t : Nat} {ts : List Nat}, (t :: ts).IsChain Next → t ≤ last t ts
  | _, [], _ => le_rfl
  | t, t' :: ts, h => by
    obtain ⟨hnext, hchain⟩ := List.isChain_cons_cons.1 h
    rw [last_cons]
    exact hnext.1.trans (le_last hchain)

/-- The sum misses a millisecond for every turn of the clock. -/
theorem sumOfDiffs_add : ∀ {t : Nat} {ts : List Nat}, (t :: ts).IsChain Next →
    sumOfDiffs t ts + (last t ts / 2 ^ 32 - t / 2 ^ 32) = last t ts - t
  | t, [], _ => by simp [sumOfDiffs, last]
  | t, t' :: ts, h => by
    obtain ⟨hnext, hchain⟩ := List.isChain_cons_cons.1 h
    have hone := getMSTimeDiff_add hnext
    have hrest := sumOfDiffs_add hchain
    have hle := hnext.1
    have hlast := le_last hchain
    have hturns : t / 2 ^ 32 ≤ t' / 2 ^ 32 := Nat.div_le_div_right hle
    have hturns' : t' / 2 ^ 32 ≤ last t' ts / 2 ^ 32 := Nat.div_le_div_right hlast
    rw [last_cons, sumOfDiffs]
    omega

/-- The differences add up to the time that has passed exactly if the clock has not wrapped since the first reading. -/
theorem sumOfDiffs_eq_elapsed_iff {t : Nat} {ts : List Nat} (h : (t :: ts).IsChain Next) :
    sumOfDiffs t ts = last t ts - t ↔ last t ts / 2 ^ 32 = t / 2 ^ 32 := by
  have hsum := sumOfDiffs_add h
  have hturns : t / 2 ^ 32 ≤ last t ts / 2 ^ 32 := Nat.div_le_div_right (le_last h)
  omega

theorem sumOfDiffs_eq_elapsed_iff_first : sumOfDiffs 5 [7, 2 ^ 32 - 1] = 2 ^ 32 - 1 - 5 ↔ (2 ^ 32 - 1) / 2 ^ 32 = 5 / 2 ^ 32 :=
  sumOfDiffs_eq_elapsed_iff (by simp [Next])

/-- Readings a millisecond apart, on both sides of the wrap. -/
theorem sumOfDiffs_wrap : [2 ^ 32 - 1, 2 ^ 32].IsChain Next ∧
    ¬ sumOfDiffs (2 ^ 32 - 1) [2 ^ 32] = last (2 ^ 32 - 1) [2 ^ 32] - (2 ^ 32 - 1) :=
  ⟨by simp [Next], by decide⟩

end Timer
end AtlasWow
