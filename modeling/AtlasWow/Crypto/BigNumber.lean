/-
`BigNumber` (`BigNumber.cpp`) as natural numbers, and its conversions.
-/
import AtlasWow.Net.MessageBuffer
import AtlasWow.Lib.LittleEndian

namespace AtlasWow.BigNumber

open Net (Bytes)

def numBytes (n : Nat) : Nat := if n = 0 then 0 else Nat.log2 n / 8 + 1

/-- `AsByteArray(minSize)`: little-endian, at least `minSize` bytes. -/
def asByteArray (minSize n : Nat) : Bytes := leBytes (max minSize (numBytes n)) n

/-- `SetBinary`. -/
def setBinary (bytes : Bytes) : Nat := leNat bytes

def hexDigit (c : UInt8) : Option Nat :=
  if 0x30 ≤ c ∧ c ≤ 0x39 then some (c.toNat - 0x30)
  else if 0x41 ≤ c ∧ c ≤ 0x46 then some (c.toNat - 0x37)
  else if 0x61 ≤ c ∧ c ≤ 0x66 then some (c.toNat - 0x57)
  else none

/-- The digits at the start of a string. -/
def hexDigits : Bytes → List Nat
  | [] => []
  | c :: cs =>
    match hexDigit c with
    | some d => d :: hexDigits cs
    | none => []

/-- `SetHexStr`: a string that starts with no digit leaves the number as it is. -/
def setHexStr (old : Nat) (str : Bytes) : Nat :=
  if (hexDigits str).isEmpty then old else (hexDigits str).foldl (fun n d => n * 16 + d) 0

/-- The bytes `SHA1Hash::UpdateBigNumbers` hashes. -/
def hashed (n : Nat) : Bytes := asByteArray 0 n

end AtlasWow.BigNumber
