/-
The SRP6 computations of the authserver (`AuthSession::SetVSFields`,
`LogonChallengeCallback`, `HandleLogonProof`), taken out of the session.
-/
import AtlasWow.Crypto.BigNumber
import AtlasWow.Lib.Sha1
import AtlasWow.Lib.ModExp

namespace AtlasWow.Auth.Srp6

open Net (Bytes)
open BigNumber

def N : Nat := 0x894B645E89E1535BBDAD5B8B290650530801B18EBFBF5E8FAB3C82872A3E9BB7
def g : Nat := 7

/-- `SetVSFields`: the verifier of a password hash and a salt. -/
@[irreducible] def verifier (rI : Bytes) (s : Nat) : Nat :=
  let mDigest := (asByteArray 20 (setHexStr 0 rI)).take 20
  let x := setBinary (sha1 ((asByteArray 32 s).take 32 ++ mDigest.reverse))
  modExp g x N

/-- The server's public value `B`. -/
@[irreducible] def serverPublic (v b : Nat) : Nat := (v * 3 + modExp g b N) % N

def scrambler (A B : Nat) : Nat := setBinary (sha1 (hashed A ++ hashed B))

def premaster (A v u b : Nat) : Nat := modExp (A * modExp v u N) b N

/-- Every second byte, from the first or the second on. -/
def everySecond (start : Nat) (t : Bytes) : Bytes := (List.range 16).map fun i => t.getD (i * 2 + start) 0

def interleave : Bytes → Bytes → Bytes
  | x :: xs, y :: ys => x :: y :: interleave xs ys
  | _, _ => []

/-- The session key `K`. -/
@[irreducible] def sessionKey (S : Nat) : Nat :=
  let t := asByteArray 32 S
  setBinary (interleave (sha1 (everySecond 0 t)) (sha1 (everySecond 1 t)))

/-- The proof `M` the client has to send. -/
@[irreducible] def clientProof (login : Bytes) (s A B K : Nat) : Nat :=
  let t3 := setBinary ((sha1 (hashed N)).zipWith (· ^^^ ·) (sha1 (hashed g)))
  let t4 := sha1 login
  setBinary (sha1 (hashed t3 ++ t4 ++ hashed s ++ hashed A ++ hashed B ++ hashed K))

/-- The server's answer to it. -/
@[irreducible] def serverProof (A M K : Nat) : Bytes := sha1 (hashed A ++ hashed M ++ hashed K)

/-- Key and proof that belong to the client's public value `A`. -/
@[irreducible] def keyAndProof (login : Bytes) (s v b B A : Nat) : Nat × Nat :=
  let K := sessionKey (premaster A v (scrambler A B) b)
  (K, clientProof login s A B K)

end AtlasWow.Auth.Srp6
