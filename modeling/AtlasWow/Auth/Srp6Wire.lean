/-
What is hashed into `u`, `M` and `M2` compared with what is on the wire. The
packets have `A` and `B` in 32 bytes, and the session key has 40;
`UpdateBigNumbers` hashes as many bytes as a number has (`hashed`), so the two
differ for the numbers whose most significant byte is zero.
-/
import AtlasWow.Auth.AuthSession

namespace AtlasWow

namespace BigNumber

open Net (Bytes)

variable {n w : Nat}

theorem numBytes_le_iff : numBytes n ≤ w ↔ n < 256 ^ w := by
  unfold numBytes
  have hpow : 256 ^ w = 2 ^ (8 * w) := by rw [Nat.pow_mul]
  by_cases hn : n = 0
  · rw [if_pos hn, hn]
    exact iff_of_true (Nat.zero_le w) (Nat.pow_pos (by decide))
  · rw [if_neg hn, hpow, ← Nat.log2_lt hn]
    omega

/-- A number has as many bytes as there are up to its most significant one. -/
theorem numBytes_eq_iff (h : n < 256 ^ (w + 1)) : numBytes n = w + 1 ↔ 256 ^ w ≤ n := by
  have hle := numBytes_le_iff.2 h
  rw [← not_lt, ← numBytes_le_iff]
  omega

theorem hashed_eq (n : Nat) : hashed n = leBytes (numBytes n) n := by
  rw [hashed, asByteArray, Nat.zero_max]

theorem length_hashed (n : Nat) : (hashed n).length = numBytes n := by
  rw [hashed_eq, length_leBytes]

theorem hashed_of_numBytes (h : numBytes n = w) : hashed n = leBytes w n := by rw [hashed_eq, h]

theorem take_leBytes : ∀ {k w n : Nat}, k ≤ w → (leBytes w n).take k = leBytes k n
  | 0, _, _, _ => rfl
  | k + 1, 0, _, h => absurd h (Nat.not_succ_le_zero k)
  | k + 1, w + 1, n, h => by
    rw [leBytes, leBytes, List.take_succ_cons, take_leBytes (Nat.le_of_succ_le_succ h)]

/-- The packets have numbers in a fixed width. -/
theorem take_asByteArray (w n : Nat) : (asByteArray w n).take w = leBytes w n := take_leBytes (Nat.le_max_left ..)

theorem asByteArray_eq (h : n < 256 ^ w) : asByteArray w n = leBytes w n := by
  rw [asByteArray, Nat.max_eq_left (numBytes_le_iff.2 h)]

theorem setBinary_lt {bytes : Bytes} (h : bytes.length = w) : setBinary bytes < 256 ^ w := h ▸ leNat_lt bytes

theorem leBytes_setBinary {bytes : Bytes} (h : bytes.length = w) : leBytes w (setBinary bytes) = bytes :=
  h ▸ leBytes_leNat bytes

end BigNumber

namespace Auth.Srp6

open Net (Bytes)
open BigNumber

/-! ## What is hashed -/

def scramblerBytes (A B : Bytes) : Bytes := A ++ B

/-- `H(N) xor H(g)`. -/
def groupBytes : Bytes := (sha1 (hashed N)).zipWith (· ^^^ ·) (sha1 (hashed g))

def clientProofBytes (login s A B K : Bytes) : Bytes := groupBytes ++ sha1 login ++ s ++ A ++ B ++ K
def serverProofBytes (A M K : Bytes) : Bytes := A ++ M ++ K

theorem scrambler_eq (A B : Nat) : scrambler A B = setBinary (sha1 (scramblerBytes (hashed A) (hashed B))) := rfl

theorem hashed_group : hashed (setBinary groupBytes) = groupBytes := by decide +kernel

theorem clientProof_eq (login : Bytes) (s A B K : Nat) :
    clientProof login s A B K = setBinary (sha1 (clientProofBytes login (hashed s) (hashed A) (hashed B) (hashed K))) := by
  unfold clientProof clientProofBytes
  exact congrArg (fun t3 => setBinary (sha1 (t3 ++ sha1 login ++ hashed s ++ hashed A ++ hashed B ++ hashed K))) hashed_group

/-- What is hashed has `A`, `B` and `K` as they are on the wire. -/
structure HashesWire (login : Bytes) (s A B K M : Nat) : Prop where
  scrambler : scramblerBytes (hashed A) (hashed B) = scramblerBytes (leBytes 32 A) (leBytes 32 B)
  client : clientProofBytes login (hashed s) (hashed A) (hashed B) (hashed K) =
    clientProofBytes login (hashed s) (leBytes 32 A) (leBytes 32 B) (leBytes 40 K)
  server : serverProofBytes (hashed A) (hashed M) (hashed K) = serverProofBytes (leBytes 32 A) (hashed M) (leBytes 40 K)

/-- No most significant byte is zero. -/
structure FullLength (A B K : Nat) : Prop where
  A : 256 ^ 31 ≤ A
  B : 256 ^ 31 ≤ B
  K : 256 ^ 39 ≤ K

variable {login : Bytes} {s b A B K M : Nat}

theorem hashesWire_iff (hA : A < 256 ^ 32) (hB : B < 256 ^ 32) (hK : K < 256 ^ 40) :
    HashesWire login s A B K M ↔ FullLength A B K := by
  have hlenA := numBytes_le_iff.2 hA
  have hlenB := numBytes_le_iff.2 hB
  have hlenK := numBytes_le_iff.2 hK
  constructor
  · intro h
    -- the lengths tell the numbers that are shorter than on the wire
    have hu := congrArg List.length h.scrambler
    have hm := congrArg List.length h.server
    simp only [scramblerBytes, serverProofBytes, List.length_append, length_hashed, length_leBytes] at hu hm
    exact ⟨(numBytes_eq_iff hA).1 (by omega), (numBytes_eq_iff hB).1 (by omega), (numBytes_eq_iff hK).1 (by omega)⟩
  · intro h
    have hA' := hashed_of_numBytes ((numBytes_eq_iff hA).2 h.A)
    have hB' := hashed_of_numBytes ((numBytes_eq_iff hB).2 h.B)
    have hK' := hashed_of_numBytes ((numBytes_eq_iff hK).2 h.K)
    exact ⟨by rw [hA', hB'], by rw [hA', hB', hK'], by rw [hA', hK']⟩

/-! ## A client -/

/-- Who logs in: the digest is that of name and password, and `a` is drawn for one logon. -/
structure Client where
  login : Bytes
  digest : Bytes
  a : Nat

namespace Client

variable (c : Client)

def x (sBytes : Bytes) : Nat := setBinary (sha1 (sBytes ++ c.digest))
def publicA : Nat := modExp g c.a N

/-- The session key of 40 bytes, from the salt and the server's value as they are in the packet. -/
def key (sBytes BBytes : Bytes) : Bytes :=
  let x := c.x sBytes
  let u := setBinary (sha1 (scramblerBytes (leBytes 32 c.publicA) BBytes))
  let S := modExp ((setBinary BBytes + (N - modExp g x N * 3 % N)) % N) (c.a + u * x) N
  interleave (sha1 (everySecond 0 (leBytes 32 S))) (sha1 (everySecond 1 (leBytes 32 S)))

def proof (sBytes BBytes : Bytes) : Bytes :=
  sha1 (clientProofBytes c.login sBytes (leBytes 32 c.publicA) BBytes (c.key sBytes BBytes))

end Client

theorem modExp_lt (x e : Nat) : modExp x e N < N := by
  rw [modExp_eq]
  exact Nat.mod_lt _ (by decide)

theorem n_lt : N < 256 ^ 32 := by decide

theorem serverPublic_lt {v : Nat} : serverPublic v b < 256 ^ 32 := by
  unfold serverPublic
  exact (Nat.mod_lt _ (by decide)).trans n_lt

theorem clientA_lt (c : Client) : c.publicA < 256 ^ 32 := (modExp_lt g c.a).trans n_lt

/-- No power of the generator is zero. -/
theorem clientA_ne_zero (c : Client) : c.publicA % N ≠ 0 := by
  rw [Client.publicA, modExp_eq, Nat.mod_mod]
  intro h
  have hcoprime : Nat.Coprime (g ^ c.a) N := Nat.Coprime.pow_left _ (by decide)
  have hone := Nat.Coprime.eq_one_of_dvd hcoprime.symm (Nat.dvd_of_mod_eq_zero h)
  exact absurd hone (by decide)

/-- Both sides compute the same power. -/
theorem premaster_eq (a x u : Nat) : premaster (modExp g a N) (modExp g x N) u b =
    modExp ((serverPublic (modExp g x N) b + (N - modExp g x N * 3 % N)) % N) (a + u * x) N := by
  have hpub : (serverPublic (modExp g x N) b + (N - modExp g x N * 3 % N)) % N ≡ g ^ b [MOD N] := by
    have hlt : modExp g x N * 3 % N < N := Nat.mod_lt _ (by decide)
    have hv : modExp g x N * 3 ≡ modExp g x N * 3 % N [MOD N] := (Nat.mod_modEq _ _).symm
    have hb : modExp g b N ≡ g ^ b [MOD N] := by
      rw [modExp_eq]
      exact Nat.mod_modEq _ _
    calc (serverPublic (modExp g x N) b + (N - modExp g x N * 3 % N)) % N
        ≡ serverPublic (modExp g x N) b + (N - modExp g x N * 3 % N) [MOD N] := Nat.mod_modEq _ _
      _ ≡ modExp g x N * 3 + modExp g b N + (N - modExp g x N * 3 % N) [MOD N] := by
          unfold serverPublic
          exact (Nat.mod_modEq _ _).add_right _
      _ ≡ modExp g x N * 3 % N + g ^ b + (N - modExp g x N * 3 % N) [MOD N] := (hv.add hb).add_right _
      _ = g ^ b + N := by omega
      _ ≡ g ^ b [MOD N] := by
          rw [Nat.ModEq, Nat.add_mod_right]
  unfold premaster
  simp only [modExp_eq] at hpub ⊢
  have hleft : g ^ a % N * ((g ^ x % N) ^ u % N) ≡ g ^ a * (g ^ x) ^ u [MOD N] :=
    (Nat.mod_modEq _ _).mul ((Nat.mod_modEq _ _).trans ((Nat.mod_modEq _ _).pow u))
  calc (g ^ a % N * ((g ^ x % N) ^ u % N)) ^ b ≡ (g ^ a * (g ^ x) ^ u) ^ b [MOD N] := hleft.pow b
    _ = (g ^ b) ^ (a + u * x) := by
        rw [← Nat.pow_mul, ← Nat.pow_add, ← Nat.pow_mul, ← Nat.pow_mul]
        congr 1
        rw [Nat.mul_comm x u, Nat.mul_comm]
    _ ≡ _ [MOD N] := (hpub.pow _).symm

theorem length_interleave : ∀ {xs ys : Bytes}, xs.length = ys.length → (interleave xs ys).length = 2 * xs.length
  | [], [], _ => rfl
  | x :: xs, y :: ys, h => by
    rw [interleave, List.length_cons, List.length_cons, length_interleave (Nat.succ.inj h), List.length_cons]
    omega

theorem length_sessionKey (t t' : Bytes) : (interleave (sha1 t) (sha1 t')).length = 40 := by
  rw [length_interleave (by rw [length_sha1, length_sha1]), length_sha1]

theorem sessionKey_lt (S : Nat) : sessionKey S < 256 ^ 40 := by
  unfold sessionKey
  exact setBinary_lt (length_sessionKey _ _)

/-- The digest that a password hash in the database is the hex text of. -/
def digestOf (rI : Bytes) : Bytes := ((asByteArray 20 (setHexStr 0 rI)).take 20).reverse

theorem verifier_eq {c : Client} {rI : Bytes} (h : c.digest = digestOf rI) :
    verifier rI s = modExp g (c.x (leBytes 32 s)) N := by
  unfold verifier Client.x
  rw [h, digestOf, take_asByteArray 32]

/-- The server's key is that of a client who hashed the same bytes. -/
theorem key_eq {c : Client} {rI : Bytes} (hdigest : c.digest = digestOf rI)
    (hu : scramblerBytes (hashed c.publicA) (hashed B) = scramblerBytes (leBytes 32 c.publicA) (leBytes 32 B))
    (hB : B = serverPublic (verifier rI s) b) :
    leBytes 40 (sessionKey (premaster c.publicA (verifier rI s) (scrambler c.publicA B) b)) =
      c.key (leBytes 32 s) (leBytes 32 B) := by
  have hread : setBinary (leBytes 32 B) = B := leNat_leBytes (hB ▸ serverPublic_lt)
  unfold sessionKey Client.key
  rw [leBytes_setBinary (length_sessionKey _ _), scrambler_eq, hu, hread]
  obtain ⟨u, hu'⟩ : ∃ u, u = setBinary (sha1 (scramblerBytes (leBytes 32 c.publicA) (leBytes 32 B))) := ⟨_, rfl⟩
  rw [← hu', hB, verifier_eq hdigest, Client.publicA, premaster_eq]
  rw [asByteArray_eq ((modExp_lt _ _).trans n_lt)]

end Auth.Srp6

/-! ## Sessions -/

namespace Auth

open Net (Bytes)
open BigNumber Srp6

variable {cfg : Config} {amb : Ambient} {s : AuthSession} {c : Client} {rI : Bytes}

/-- A client with the right password sends the proof. -/
structure Honest (amb : Ambient) (c : Client) (rI : Bytes) (s : AuthSession) : Prop where
  login : s.accountInfo.login = c.login
  digest : c.digest = digestOf rI
  salt : 256 ^ 31 ≤ s.s ∧ s.s < 256 ^ 32
  verifier : s.v = verifier rI s.s
  publicValue : s.B = serverPublic s.v s.b
  sentA : s.bytesAt amb 1 32 = leBytes 32 c.publicA
  sentM1 : s.clientM1 amb = c.proof ((asByteArray 32 s.s).take 32) ((asByteArray 32 s.B).take 32)

/-- The key and the proof of the session. -/
def AuthSession.sessionK (amb : Ambient) (s : AuthSession) : Nat := (s.keyAndProof (s.clientA amb)).1
def AuthSession.sessionM (amb : Ambient) (s : AuthSession) : Nat := (s.keyAndProof (s.clientA amb)).2

/-- The proof is the last step. -/
structure Ready (cfg : Config) (amb : Ambient) (s : AuthSession) : Prop where
  expversion : s.expversion ≠ .noValid
  token : s.needsToken (s.byteAt amb 74) = false
  version : s.verifyVersion cfg (s.bytesAt amb 1 32) (s.bytesAt amb 53 20) false = true

theorem Honest.clientA (h : Honest amb c rI s) : s.clientA amb = c.publicA := by
  unfold AuthSession.clientA
  rw [h.sentA]
  exact leNat_leBytes (clientA_lt c)

theorem sessionK_eq : s.sessionK amb = sessionKey (premaster (s.clientA amb) s.v (scrambler (s.clientA amb) s.B) s.b) := by
  unfold AuthSession.sessionK AuthSession.keyAndProof keyAndProof
  rfl

theorem sessionM_eq : s.sessionM amb = clientProof s.accountInfo.login s.s (s.clientA amb) s.B (s.sessionK amb) := by
  unfold AuthSession.sessionM AuthSession.sessionK AuthSession.keyAndProof keyAndProof
  rfl

/-- Where the same bytes are hashed, the proofs are the same. -/
theorem Honest.proof (h : Honest amb c rI s)
    (hw : HashesWire s.accountInfo.login s.s (s.clientA amb) s.B (s.sessionK amb) (s.sessionM amb)) :
    (asByteArray 20 (s.sessionM amb)).take 20 = s.clientM1 amb := by
  have hsalt : hashed s.s = leBytes 32 s.s := hashed_of_numBytes ((numBytes_eq_iff h.salt.2).2 h.salt.1)
  have hkey : leBytes 40 (s.sessionK amb) = c.key (leBytes 32 s.s) (leBytes 32 s.B) := by
    rw [sessionK_eq, h.clientA, h.verifier]
    refine key_eq h.digest ?_ (h.verifier ▸ h.publicValue)
    rw [← h.clientA]
    exact hw.scrambler
  rw [h.sentM1, take_asByteArray, take_asByteArray, take_asByteArray, sessionM_eq, clientProof_eq, hw.client,
    leBytes_setBinary (length_sha1 _), hsalt, hkey, h.clientA, h.login]
  rfl

theorem authed_of_proof (hr : Ready cfg amb s) (hA : s.clientA amb % N ≠ 0)
    (hM : (asByteArray 20 (s.sessionM amb)).take 20 = s.clientM1 amb) : (s.handleLogonProof cfg amb).1.status = .authed := by
  obtain ⟨t, ht⟩ : ∃ t : AuthSession, t = ({ s with status := .closed } : AuthSession).touch LOGON_PROOF_SIZE := ⟨_, rfl⟩
  obtain ⟨K, M, hkm⟩ : ∃ K M, t.keyAndProof (t.clientA amb) = (K, M) := ⟨_, _, rfl⟩
  have hexp : t.expversion = s.expversion := by rw [ht]; rfl
  have hclient : t.clientA amb = s.clientA amb := by rw [ht]; rfl
  have hproof : (asByteArray 20 M).take 20 = t.clientM1 amb := by
    have hM' : s.sessionM amb = (t.keyAndProof (t.clientA amb)).2 := by rw [ht]; rfl
    rw [hM', hkm] at hM
    rw [hM, ht]
    rfl
  have htoken : ({ t with K := K } : AuthSession).needsToken (({ t with K := K } : AuthSession).byteAt amb 74) = false := by
    rw [ht]
    exact hr.token
  have hversion : ({ t with K := K } : AuthSession).verifyVersion cfg (({ t with K := K } : AuthSession).bytesAt amb 1 32)
      (({ t with K := K } : AuthSession).bytesAt amb 53 20) false = true := by
    rw [ht]
    exact hr.version
  unfold AuthSession.handleLogonProof
  dsimp only
  rw [if_neg hr.expversion, ← ht, hclient, if_neg hA]
  rw [← hclient, hkm]
  dsimp only
  rw [if_pos (show (asByteArray 20 M).take 20 = ({ t with K := K } : AuthSession).clientM1 amb from hproof)]
  rw [htoken]
  simp only [Bool.false_eq_true, if_false, Bool.not_true]
  rw [hversion]
  rfl

/-- What is hashed is what is on the wire, and so a client with the right password is let in, exactly where no most
significant byte of `A`, `B` and `K` is zero. -/
theorem wire_iff_fullLength (hB : s.B = serverPublic s.v s.b) :
    (HashesWire s.accountInfo.login s.s (s.clientA amb) s.B (s.sessionK amb) (s.sessionM amb) ∧
      ∀ c rI, Honest amb c rI s → Ready cfg amb s → (s.handleLogonProof cfg amb).1.status = .authed) ↔
        FullLength (s.clientA amb) s.B (s.sessionK amb) := by
  have hA : s.clientA amb < 256 ^ 32 :=
    setBinary_lt (by rw [AuthSession.bytesAt, List.length_map, List.length_range])
  have hlt : s.B < 256 ^ 32 := by
    rw [hB]
    exact serverPublic_lt
  have hK : s.sessionK amb < 256 ^ 40 := by
    rw [sessionK_eq]
    exact sessionKey_lt _
  rw [← @hashesWire_iff s.accountInfo.login s.s _ _ _ (s.sessionM amb) hA hlt hK]
  refine ⟨fun hw => hw.1, fun hw => ⟨hw, fun c rI h hr => authed_of_proof hr ?_ (h.proof hw)⟩⟩
  rw [h.clientA]
  exact clientA_ne_zero c

/-- Bytes that lie in the buffer. -/
theorem bytesAt_storage {before bytes after : Bytes} (hr : s.readBuffer.rpos = 0)
    (hs : s.readBuffer.storage = before ++ bytes ++ after) : s.bytesAt amb before.length bytes.length = bytes := by
  unfold AuthSession.bytesAt AuthSession.byteAt
  refine List.ext_getElem (by rw [List.length_map, List.length_range]) fun i hi hi' => ?_
  have hget : s.readBuffer.storage[0 + (before.length + i)]? = some bytes[i] := by
    rw [hs, Nat.zero_add, List.append_assoc, List.getElem?_append_right (by omega), Nat.add_sub_cancel_left,
      List.getElem?_append_left hi', List.getElem?_eq_getElem hi']
  rw [List.getElem_map, List.getElem_range, hr, hget]

/-- A session that has sent its challenge, and the proof a client answers it with. -/
def answered (c : Client) (rI : Bytes) (salt b : Nat) : AuthSession :=
  let v := verifier rI salt
  { AuthSession.start with
    s := salt
    v := v
    b := b
    B := serverPublic v b
    status := .logonProof
    accountInfo := { AccountInfo.empty with login := c.login }
    expversion := .postBC
    readBuffer := ⟨LOGON_PROOF_SIZE, 0, [AUTH_LOGON_PROOF] ++ leBytes 32 c.publicA ++
      c.proof (leBytes 32 salt) (leBytes 32 (serverPublic v b)) ++ List.replicate 22 0⟩ }

theorem honest_answered {salt b : Nat} (hdigest : c.digest = digestOf rI) (hsalt : 256 ^ 31 ≤ salt ∧ salt < 256 ^ 32) :
    Honest amb c rI (answered c rI salt b) where
  login := rfl
  digest := hdigest
  salt := hsalt
  verifier := rfl
  publicValue := rfl
  sentA := by
    have h := @bytesAt_storage amb (answered c rI salt b) [AUTH_LOGON_PROOF] (leBytes 32 c.publicA) _ rfl
      (by unfold answered; dsimp only; rw [List.append_assoc])
    rwa [length_leBytes] at h
  sentM1 := by
    have h := @bytesAt_storage amb (answered c rI salt b) ([AUTH_LOGON_PROOF] ++ leBytes 32 c.publicA)
      (c.proof (leBytes 32 salt) (leBytes 32 (serverPublic (verifier rI salt) b))) _ rfl rfl
    rw [List.length_append, length_leBytes, Client.proof, length_sha1] at h
    rw [take_asByteArray, take_asByteArray]
    exact h

def knownClient (a : Nat) : Client := ⟨[0x41], digestOf (List.replicate 40 0x31), a⟩
def knownSession (a : Nat) : AuthSession := answered (knownClient a) (List.replicate 40 0x31) (2 ^ 255 + 1) (2 ^ 151 + 1)

theorem honest_known (a : Nat) : Honest amb (knownClient a) (List.replicate 40 0x31) (knownSession a) :=
  honest_answered rfl ⟨by decide, by decide⟩

theorem wire_iff_fullLength_known :
    ((knownSession (2 ^ 151 + 5)).handleLogonProof ⟨false, 0, [], []⟩ ⟨fun _ => 0, fun _ => 0⟩).1.status = .authed :=
  ((wire_iff_fullLength rfl).2 ⟨by decide +kernel, by decide +kernel, by decide +kernel⟩).2 _ _ (honest_known (2 ^ 151 + 5))
    ⟨by decide, by decide +kernel, by decide⟩

/-- The public value of this client has 31 bytes, and the right password is turned down. -/
theorem wire_fails : Honest ⟨fun _ => 0, fun _ => 0⟩ (knownClient (2 ^ 151 + 3)) (List.replicate 40 0x31) (knownSession (2 ^ 151 + 3)) ∧
    hashed (knownClient (2 ^ 151 + 3)).publicA ≠ leBytes 32 (knownClient (2 ^ 151 + 3)).publicA ∧
      ((knownSession (2 ^ 151 + 3)).handleLogonProof ⟨false, 0, [], []⟩ ⟨fun _ => 0, fun _ => 0⟩).1.status = .closed :=
  ⟨honest_known (2 ^ 151 + 3), by decide +kernel, by decide +kernel⟩

end Auth

end AtlasWow
