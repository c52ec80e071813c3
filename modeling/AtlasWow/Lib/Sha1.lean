/-
SHA-1 on byte lists. Words are natural numbers below `2 ^ 32`, so that the
kernel computes with them.
-/
import Mathlib.Algebra.Group.Nat.Defs
import Mathlib.Data.List.Basic

namespace Sha1

def word (n : Nat) : Nat := n % 2 ^ 32

def rotl (k x : Nat) : Nat := word (x <<< k) ||| (x >>> (32 - k))

/-- The four bytes of a word, the most significant first. -/
def wordBytes (n : Nat) : List UInt8 := [.ofNat (n >>> 24), .ofNat (n >>> 16), .ofNat (n >>> 8), .ofNat n]

def ofBytes : List UInt8 → Nat := List.foldl (fun n b => n * 256 + b.toNat) 0

/-- The message, a one bit, zeros, and the length of the message in bits. -/
def pad (message : List UInt8) : List UInt8 :=
  message ++ [0x80] ++ List.replicate ((119 - message.length % 64) % 64) 0 ++
    wordBytes (8 * message.length / 2 ^ 32) ++ wordBytes (8 * message.length)

/-- `n` more words of the schedule, which is kept backwards. -/
def extend : Nat → List Nat → List Nat
  | 0, ws => ws
  | n + 1, ws => extend n (rotl 1 (ws.getD 2 0 ^^^ ws.getD 7 0 ^^^ ws.getD 13 0 ^^^ ws.getD 15 0) :: ws)

def schedule (block : List UInt8) : List Nat :=
  (extend 64 ((List.range 16).map fun i => ofBytes ((block.drop (4 * i)).take 4)).reverse).reverse

structure State where
  a : Nat
  b : Nat
  c : Nat
  d : Nat
  e : Nat

def initial : State := ⟨0x67452301, 0xEFCDAB89, 0x98BADCFE, 0x10325476, 0xC3D2E1F0⟩

/-- The function and the constant of round `t`. -/
def mix (t : Nat) (s : State) : Nat :=
  if t < 20 then ((s.b &&& s.c) ||| ((s.b ^^^ 0xFFFFFFFF) &&& s.d)) + 0x5A827999
  else if t < 40 then (s.b ^^^ s.c ^^^ s.d) + 0x6ED9EBA1
  else if t < 60 then ((s.b &&& s.c) ||| (s.b &&& s.d) ||| (s.c &&& s.d)) + 0x8F1BBCDC
  else (s.b ^^^ s.c ^^^ s.d) + 0xCA62C1D6

def rounds : Nat → List Nat → State → State
  | _, [], s => s
  | t, w :: ws, s => rounds (t + 1) ws ⟨word (rotl 5 s.a + mix t s + s.e + w), s.a, rotl 30 s.b, s.c, s.d⟩

def compress (s : State) (block : List UInt8) : State :=
  let r := rounds 0 (schedule block) s
  ⟨word (s.a + r.a), word (s.b + r.b), word (s.c + r.c), word (s.d + r.d), word (s.e + r.e)⟩

/-- `n` blocks of 64 bytes. -/
def absorb : Nat → List UInt8 → State → State
  | 0, _, s => s
  | n + 1, bytes, s => absorb n (bytes.drop 64) (compress s (bytes.take 64))

end Sha1

open Sha1 in
@[irreducible] def sha1 (message : List UInt8) : List UInt8 :=
  let padded := pad message
  let s := absorb (padded.length / 64) padded initial
  wordBytes s.a ++ wordBytes s.b ++ wordBytes s.c ++ wordBytes s.d ++ wordBytes s.e

theorem length_sha1 (message : List UInt8) : (sha1 message).length = 20 := by
  unfold sha1
  rfl

/-- The digest of `abc`. -/
example : sha1 [0x61, 0x62, 0x63] = [0xA9, 0x99, 0x3E, 0x36, 0x47, 0x06, 0x81, 0x6A, 0xBA, 0x3E, 0x25, 0x71, 0x78,
    0x50, 0xC2, 0x6C, 0x9C, 0xD0, 0xD8, 0x9D] := by decide +kernel
