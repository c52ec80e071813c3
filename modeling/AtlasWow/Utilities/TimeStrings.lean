/-
Lengths of time as text (`Util.cpp`): `secsToTimeString` writes days, hours,
minutes and seconds, `TimeStringToSecs` reads the short form. What is written
short is read back (`timeStringToSecs_short`).
-/
import AtlasWow.Lib.Decimal

namespace AtlasWow
namespace Util

def MINUTE : Nat := 60
def HOUR : Nat := MINUTE * 60
def DAY : Nat := HOUR * 24

def secsToTimeString (timeInSecs : Nat) (shortText hoursOnly : Bool) : List Char :=
  let secs := timeInSecs % MINUTE
  let minutes := timeInSecs % HOUR / MINUTE
  let hours := timeInSecs % DAY / HOUR
  let days := timeInSecs / DAY
  (if days ≠ 0 then decimal days ++ (if shortText then ['d'] else " Day(s) ".toList) else []) ++
  (if hours ≠ 0 ∨ hoursOnly then decimal hours ++ (if shortText then ['h'] else " Hour(s) ".toList) else []) ++
  (if hoursOnly then [] else
    (if minutes ≠ 0 then decimal minutes ++ (if shortText then ['m'] else " Minute(s) ".toList) else []) ++
    (if secs ≠ 0 ∨ (days = 0 ∧ hours = 0 ∧ minutes = 0) then
      decimal secs ++ (if shortText then ['s'] else " Second(s).".toList) else []))

/-- The variables of the loop of `TimeStringToSecs` that a turn leaves to the next. -/
structure TimeReader where
  secs : BitVec 32
  buffer : BitVec 32

def multiplier : Char → Option Nat
  | 'd' => some DAY
  | 'h' => some HOUR
  | 'm' => some MINUTE
  | 's' => some 1
  | _ => none

/-- One character; `none` where the format is bad. -/
def TimeReader.read (r : TimeReader) (c : Char) : Option TimeReader :=
  if c.isDigit then some { r with buffer := r.buffer * 10#32 + BitVec.ofNat 32 (c.toNat - '0'.toNat) }
  else match multiplier c with
    | some m => some { secs := r.secs + r.buffer * BitVec.ofNat 32 m, buffer := 0#32 }
    | none => none

def timeStringToSecs (timestring : List Char) : BitVec 32 :=
  match timestring.foldlM TimeReader.read ⟨0#32, 0#32⟩ with
  | some r => r.secs
  | none => 0#32

theorem read_digits (secs : BitVec 32) {ds : List Char} (h : ∀ c ∈ ds, c.isDigit = true) (k : Nat) :
    ds.foldlM TimeReader.read ⟨secs, BitVec.ofNat 32 k⟩ = some ⟨secs, BitVec.ofNat 32 (Nat.ofDigitChars 10 ds k)⟩ := by
  induction ds generalizing k with
  | nil => rfl
  | cons c ds ih =>
    obtain ⟨hc, hds⟩ := List.forall_mem_cons.1 h
    have hread : TimeReader.read ⟨secs, BitVec.ofNat 32 k⟩ c =
        some ⟨secs, BitVec.ofNat 32 (10 * k + (c.toNat - '0'.toNat))⟩ := by
      rw [TimeReader.read, if_pos hc, BitVec.ofNat_add, BitVec.ofNat_mul, BitVec.mul_comm]
    rw [List.foldlM_cons, hread, Nat.ofDigitChars_cons]
    exact ih hds _

variable {u : Char} {m : Nat}

/-- A number and its unit. -/
theorem read_amount (secs : BitVec 32) (n : Nat) (hu : u.isDigit = false) (hm : multiplier u = some m) :
    (decimal n ++ [u]).foldlM TimeReader.read ⟨secs, 0#32⟩ = some ⟨secs + BitVec.ofNat 32 (n * m), 0#32⟩ := by
  have hdigits := read_digits secs (fun c hc => Nat.isDigit_of_mem_toDigits (n := n) (b := 10) (by decide) (by decide) hc) 0
  rw [Nat.ofDigitChars_ten_toDigits] at hdigits
  rw [decimal_nat, List.foldlM_append, hdigits]
  show ([u].foldlM TimeReader.read ⟨secs, BitVec.ofNat 32 n⟩ : Option TimeReader) = _
  rw [List.foldlM_cons, TimeReader.read, if_neg (by simp [hu]), hm, BitVec.ofNat_mul]
  rfl

/-- A part of the string that is left out where its number is zero. -/
theorem read_part (secs : BitVec 32) (n : Nat) {p : Prop} [Decidable p] (hu : u.isDigit = false)
    (hm : multiplier u = some m) (hp : ¬ p → n = 0) :
    (if p then decimal n ++ [u] else []).foldlM TimeReader.read ⟨secs, 0#32⟩ =
      some ⟨secs + BitVec.ofNat 32 (n * m), 0#32⟩ := by
  split
  next => exact read_amount secs n hu hm
  next h => simp [hp h]

/-- What the short form is read as: the seconds it tells of, in 32 bits. -/
theorem timeStringToSecs_short (n : Nat) (hoursOnly : Bool) :
    timeStringToSecs (secsToTimeString n true hoursOnly) =
      BitVec.ofNat 32 (if hoursOnly then n / HOUR * HOUR else n) := by
  obtain ⟨secs, hsecs⟩ : ∃ x, x = n % MINUTE := ⟨_, rfl⟩
  obtain ⟨minutes, hminutes⟩ : ∃ x, x = n % HOUR / MINUTE := ⟨_, rfl⟩
  obtain ⟨hours, hhours⟩ : ∃ x, x = n % DAY / HOUR := ⟨_, rfl⟩
  obtain ⟨days, hdays⟩ : ∃ x, x = n / DAY := ⟨_, rfl⟩
  have hd (s : BitVec 32) := read_part s days (p := days ≠ 0) (u := 'd') rfl rfl (by simp)
  have hh (s : BitVec 32) := read_part s hours (p := hours ≠ 0 ∨ hoursOnly) (u := 'h') rfl rfl (by simp +contextual)
  have hm (s : BitVec 32) := read_part s minutes (p := minutes ≠ 0) (u := 'm') rfl rfl (by simp)
  have hs (s : BitVec 32) := read_part s secs (p := secs ≠ 0 ∨ (days = 0 ∧ hours = 0 ∧ minutes = 0)) (u := 's') rfl rfl
    (by simp +contextual)
  rw [timeStringToSecs, secsToTimeString]
  simp only [← hsecs, ← hminutes, ← hhours, ← hdays, if_true, List.foldlM_append, hd, hh, Option.bind_eq_bind,
    Option.bind_some]
  have hsplit : days * DAY + hours * HOUR = n / HOUR * HOUR := by simp only [DAY, HOUR, MINUTE] at *; omega
  cases hoursOnly with
  | true =>
    simp only [if_true, List.foldlM_nil, Option.pure_def, ← BitVec.ofNat_add, Nat.zero_add, hsplit]
  | false =>
    have hall : n / HOUR * HOUR + minutes * MINUTE + secs * 1 = n := by simp only [HOUR, MINUTE] at *; omega
    simp only [Bool.false_eq_true, if_false, List.foldlM_append, hm, hs, Option.bind_eq_bind, Option.bind_some,
      ← BitVec.ofNat_add, Nat.zero_add, hsplit, hall]

/-- Every number of seconds below 2^32 is read back from its short form. -/
theorem timeStringToSecs_secsToTimeString {n : Nat} (h : n < 2 ^ 32) :
    (timeStringToSecs (secsToTimeString n true false)).toNat = n := by
  rw [timeStringToSecs_short, BitVec.toNat_ofNat]
  exact Nat.mod_eq_of_lt h

theorem timeStringToSecs_last : (timeStringToSecs (secsToTimeString 4294967295 true false)).toNat = 4294967295 :=
  timeStringToSecs_secsToTimeString (by decide)

end Util
end AtlasWow
