/-
What an `AuthSession` reads of its buffer. A round stays within the bytes
received exactly when it does not handle a challenge that is too short to have
a name, or a token that has not come yet (`safeWhen_round`); a run of such
rounds never reads or consumes anything else (`reached_safe`).
-/
import AtlasWow.Auth.AuthRuns

namespace AtlasWow.Auth.AuthSession

open Net (Bytes MessageBuffer)
open BigNumber

variable {cfg : Config} {amb : Ambient} {s s' : AuthSession}

/-- Everything read so far had been received, and the read position is not ahead of the write position. -/
structure Safe (s : AuthSession) : Prop where
  inBounds : s.inBounds = true
  buffer : s.readBuffer.Ok

/-- The session is safe if `p`, and otherwise bytes were read that had not been received. -/
structure SafeWhen (p : Prop) (s : AuthSession) : Prop where
  safe : p → s.Safe
  only : s.inBounds = true → p

/-- The round calls a handler. -/
def Dispatches (amb : Ambient) (s : AuthSession) : Prop :=
  0 < s.readBuffer.getActiveSize ∧ ∃ h ∈ handlers (s.byteAt amb 0), s.status = h.status ∧
    h.packetSize ≤ s.readBuffer.getActiveSize ∧
    (isChallenge (s.byteAt amb 0) = true → s.sizeOf amb (s.byteAt amb 0) h ≤ MAX_ACCEPTED_CHALLENGE_SIZE) ∧
    s.sizeOf amb (s.byteAt amb 0) h ≤ s.readBuffer.getActiveSize

instance (amb : Ambient) (s : AuthSession) : Decidable (s.Dispatches amb) := by
  unfold Dispatches
  infer_instance

/-- The proof in the buffer is right, and the length and the digits of a token are to follow. -/
def asksForToken (amb : Ambient) (s : AuthSession) : Bool :=
  s.expversion ≠ .noValid && s.clientA amb % Srp6.N ≠ 0 &&
    (asByteArray 20 (s.keyAndProof (s.clientA amb)).2).take 20 = s.clientM1 amb && s.needsToken (s.byteAt amb 74)

/-- What a round has to meet: a challenge that is handled has its fixed part and the length of the name
received, and a token that is asked for has been received. -/
def Fits (amb : Ambient) (s : AuthSession) : Prop :=
  s.Dispatches amb →
    (isChallenge (s.byteAt amb 0) = true → 34 ≤ s.readBuffer.getActiveSize) ∧
    (s.byteAt amb 0 = AUTH_LOGON_PROOF → s.asksForToken amb = true →
      LOGON_PROOF_SIZE + 1 + (s.byteAt amb LOGON_PROOF_SIZE).toNat ≤ s.readBuffer.getActiveSize)

instance (amb : Ambient) (s : AuthSession) : Decidable (s.Fits amb) := by
  unfold Fits
  infer_instance

/-- The steps that may be taken, with rounds that fit. -/
def Fitting (e : Event) (s : AuthSession) : Prop :=
  Allowed e s ∧ match e with
    | .round amb => s.Fits amb
    | _ => True

instance (e : Event) (s : AuthSession) : Decidable (Fitting e s) :=
  match e with
  | .round amb => inferInstanceAs (Decidable (Allowed (.round amb) s ∧ s.Fits amb))
  | .read _ | .ipInfo _ | .logon .. | .reconnect .. | .realmList .. | .closeSocket =>
    inferInstanceAs (Decidable (Allowed _ s ∧ True))

/-! ## Positions -/

theorem readBuffer_sendPacket (packet : Bytes) : (s.sendPacket packet).readBuffer = s.readBuffer ∧
    (s.sendPacket packet).inBounds = s.inBounds := by
  unfold sendPacket
  split <;> exact ⟨rfl, rfl⟩

theorem within_iff (hb : s.readBuffer.Ok) (n : Nat) :
    s.readBuffer.rpos + n ≤ s.readBuffer.wpos ↔ n ≤ s.readBuffer.getActiveSize := by
  rw [hb.activeSize]
  have := hb.read
  omega

variable {n size : Nat} {r : AuthSession × Bool} {cmd : UInt8}

theorem safe_readCompleted (hs : s.Safe) (hn : n ≤ s.readBuffer.getActiveSize) : (s.readCompleted n).Safe := by
  refine ⟨?_, MessageBuffer.ok_readCompleted hs.buffer hn⟩
  simp only [readCompleted, hs.inBounds, Bool.true_and, decide_eq_true_eq]
  exact (within_iff hs.buffer n).2 hn

/-- Looking at bytes that have been received leaves no trace. -/
theorem touch_eq (hs : s.Safe) (hn : n ≤ s.readBuffer.getActiveSize) : s.touch n = s := by
  have : decide (s.readBuffer.rpos + n ≤ s.readBuffer.wpos) = true := by simpa using (within_iff hs.buffer n).2 hn
  unfold touch
  rw [this, Bool.and_true]

theorem not_inBounds_touch (hs : s.Safe) (hn : ¬ n ≤ s.readBuffer.getActiveSize) : (s.touch n).inBounds = false := by
  have : ¬ s.readBuffer.rpos + n ≤ s.readBuffer.wpos := fun h => hn ((within_iff hs.buffer n).1 h)
  simp [touch, this]

theorem inBounds_touch_false (h : s.inBounds = false) : (s.touch n).inBounds = false := by simp [touch, h]

theorem inBounds_readCompleted_false (h : s.inBounds = false) : (s.readCompleted n).inBounds = false := by
  simp [readCompleted, h]

theorem safe_asyncRead (hs : s.Safe) : ∃ s', s.asyncRead = some s' ∧ s'.Safe := by
  unfold asyncRead
  split
  · exact ⟨_, rfl, hs.inBounds, hs.buffer⟩
  · rw [if_pos hs.buffer.read]
    exact ⟨_, rfl, hs.inBounds, MessageBuffer.ok_ensureFreeSpace (MessageBuffer.content_normalize hs.buffer).1⟩

/-! ## Handlers -/

/-- What `ReadHandler` does when a handler has returned. -/
def finish (size : Nat) (r : AuthSession × Bool) : AuthSession :=
  if r.2 then r.1.readCompleted size else r.1.closeSocket

/-- A field of bytes past what has been received stays remembered. -/
theorem inBounds_finish_false (h : r.1.inBounds = false) : (finish size r).inBounds = false := by
  unfold finish
  split <;> simp [readCompleted, closeSocket, h]

theorem SafeWhen.of_safe {p : Prop} (h : s.Safe) (hp : p) : SafeWhen p s := ⟨fun _ => h, fun _ => hp⟩

theorem SafeWhen.iff {p : Prop} (h : SafeWhen p s) : s.inBounds = true ∧ s.readBuffer.rpos ≤ s.readBuffer.wpos ↔ p :=
  ⟨fun hs => h.only hs.1, fun hp => ⟨(h.safe hp).inBounds, (h.safe hp).buffer.read⟩⟩

/-- The handlers change nothing else the positions depend on. -/
theorem safe_of_positions (h : s.Safe) (hb : s'.readBuffer = s.readBuffer) (hi : s'.inBounds = s.inBounds) : s'.Safe :=
  ⟨hi.trans h.inBounds, hb ▸ h.buffer⟩

theorem safe_finish (h : r.1.Safe) (hn : size ≤ r.1.readBuffer.getActiveSize) : (finish size r).Safe := by
  unfold finish
  split
  · exact safe_readCompleted h hn
  · exact safe_of_positions h rfl rfl

/-- The name's length fits the size of the packet. -/
theorem size_of_name {I_len : Nat} (hI : I_len < 256) (hsize : size < 2 ^ 16)
    (h : Net.sizeSub size (LOGON_CHALLENGE_SIZE - AUTH_LOGON_CHALLENGE_INITIAL_SIZE - 1) = I_len) :
    (AUTH_LOGON_CHALLENGE_INITIAL_SIZE + size) % 2 ^ 16 = 34 + I_len := by
  have hc : LOGON_CHALLENGE_SIZE - AUTH_LOGON_CHALLENGE_INITIAL_SIZE - 1 = 30 := rfl
  rw [hc, Net.sizeSub] at h
  have hinit : AUTH_LOGON_CHALLENGE_INITIAL_SIZE = 4 := rfl
  rw [hinit]
  split at h <;> omega

theorem leNat_bytesAt_two (s : AuthSession) (i : Nat) : leNat (s.bytesAt amb i 2) < 2 ^ 16 := by
  have := leNat_lt (s.bytesAt amb i 2)
  rwa [show (s.bytesAt amb i 2).length = 2 by simp [bytesAt]] at this

/-- The challenges read the length of the name, wherever the packet ends. -/
theorem safeWhen_handleChallenge {query : Bytes → Query} (hs : s.Safe)
    (hsize : size = (AUTH_LOGON_CHALLENGE_INITIAL_SIZE + leNat (s.bytesAt amb 2 2)) % 2 ^ 16)
    (hfits : size ≤ s.readBuffer.getActiveSize) :
    SafeWhen (34 ≤ s.readBuffer.getActiveSize) (finish size (s.handleChallenge amb query)) := by
  have hs₁ : ({ s with status := .closed } : AuthSession).Safe := safe_of_positions hs rfl rfl
  have hI := UInt8.toNat_lt (s.byteAt amb 33)
  refine ⟨fun hlong => ?_, fun h => ?_⟩
  swap
  · by_contra hshort
    have hb := not_inBounds_touch hs₁ hshort
    refine Bool.false_ne_true ((inBounds_finish_false ?_).symm.trans h)
    simp only [handleChallenge]
    split
    · exact hb
    · exact inBounds_touch_false hb
  · simp only [handleChallenge, touch_eq hs₁ hlong]
    split
    · exact safe_of_positions hs₁ rfl rfl
    next hname =>
    have hname := size_of_name hI (leNat_bytesAt_two s 2) (Decidable.not_not.1 hname)
    have hname : size = 34 + (s.byteAt amb 33).toNat := hsize.trans hname
    rw [touch_eq hs₁ (by show 34 + (s.byteAt amb 33).toNat ≤ s.readBuffer.getActiveSize; omega)]
    exact safe_finish (safe_of_positions hs₁ rfl rfl) hfits

/-- The token is read and consumed whether or not it is there. -/
theorem safeWhen_checkToken (hs : s.Safe) (hsize : size = LOGON_PROOF_SIZE)
    (hrb : r.1.readBuffer = (s.checkToken amb).1.readBuffer) (hri : r.1.inBounds = (s.checkToken amb).1.inBounds) :
    SafeWhen (LOGON_PROOF_SIZE + 1 + (s.byteAt amb LOGON_PROOF_SIZE).toNat ≤ s.readBuffer.getActiveSize)
      (finish size r) := by
  refine ⟨fun hlong => ?_, fun h => ?_⟩
  swap
  · by_contra hshort
    refine Bool.false_ne_true ((inBounds_finish_false ?_).symm.trans h)
    rw [hri, checkToken]
    simp only
    refine inBounds_readCompleted_false ?_
    by_cases h₁ : LOGON_PROOF_SIZE + 1 ≤ s.readBuffer.getActiveSize
    · rw [touch_eq hs h₁]
      exact not_inBounds_touch hs hshort
    · exact inBounds_touch_false (not_inBounds_touch hs h₁)
  · have hlen : (s.byteAt amb LOGON_PROOF_SIZE).toNat < 256 := UInt8.toNat_lt _
    have h₁ : s.touch (LOGON_PROOF_SIZE + 1) = s := touch_eq hs (by omega)
    have hcheck : (s.checkToken amb).1.readBuffer =
        (s.readCompleted (1 + (s.byteAt amb LOGON_PROOF_SIZE).toNat)).readBuffer ∧
        (s.checkToken amb).1.inBounds = (s.readCompleted (1 + (s.byteAt amb LOGON_PROOF_SIZE).toNat)).inBounds := by
      simp only [checkToken, h₁, touch_eq hs hlong]
      constructor <;> trivial
    have hsafe : (s.readCompleted (1 + (s.byteAt amb LOGON_PROOF_SIZE).toNat)).Safe :=
      safe_readCompleted hs (by omega)
    refine safe_finish (safe_of_positions hsafe (hrb.trans hcheck.1) (hri.trans hcheck.2)) ?_
    rw [hrb, hcheck.1, hsize, MessageBuffer.Ok.activeSize hsafe.buffer]
    rw [hs.buffer.activeSize] at hlong
    simp only [readCompleted, MessageBuffer.readCompleted]
    omega

theorem positions_wrongPassword : (s.wrongPassword cfg).readBuffer = s.readBuffer ∧
    (s.wrongPassword cfg).inBounds = s.inBounds := by
  unfold wrongPassword
  split <;> exact readBuffer_sendPacket _

/-- A proof that is not right. -/
theorem handleLogonProof_wrong {K M : Nat} (ht : { s with status := .closed }.touch LOGON_PROOF_SIZE = { s with status := .closed })
    (hexp : s.expversion ≠ .noValid) (hA : s.clientA amb % Srp6.N ≠ 0) (hkm : s.keyAndProof (s.clientA amb) = (K, M))
    (hM : (asByteArray 20 M).take 20 ≠ s.clientM1 amb) :
    s.handleLogonProof cfg amb = (({ s with status := .closed, K := K } : AuthSession).wrongPassword cfg, true) := by
  simp only [handleLogonProof, ht]
  rw [if_neg hexp, if_neg (by exact hA)]
  have hkm' : keyAndProof { s with status := .closed } (clientA amb { s with status := .closed }) = (K, M) := hkm
  simp only [hkm']
  rw [if_neg (by exact hM)]

/-- A proof that is right: the positions move with the token, if there is to be one. -/
theorem positions_right {K M : Nat} (ht : { s with status := .closed }.touch LOGON_PROOF_SIZE = { s with status := .closed })
    (hexp : s.expversion ≠ .noValid) (hA : s.clientA amb % Srp6.N ≠ 0) (hkm : s.keyAndProof (s.clientA amb) = (K, M))
    (hM : (asByteArray 20 M).take 20 = s.clientM1 amb) {s₁ : AuthSession} {valid : Bool}
    (hs₁ : (if s.needsToken (s.byteAt amb 74) then ({ s with status := .closed, K := K } : AuthSession).checkToken amb
      else ({ s with status := .closed, K := K }, true)) = (s₁, valid)) :
    (s.handleLogonProof cfg amb).1.readBuffer = s₁.readBuffer ∧
      (s.handleLogonProof cfg amb).1.inBounds = s₁.inBounds := by
  simp only [handleLogonProof, ht]
  rw [if_neg hexp, if_neg (by exact hA)]
  have hkm' : keyAndProof { s with status := .closed } (clientA amb { s with status := .closed }) = (K, M) := hkm
  simp only [hkm']
  rw [if_pos (by exact hM)]
  have hs₁' : (if needsToken { s with status := .closed, K := K } (byteAt amb { s with status := .closed, K := K } 74)
      then ({ s with status := .closed, K := K } : AuthSession).checkToken amb
      else ({ s with status := .closed, K := K }, true)) = (s₁, valid) := hs₁
  simp only [hs₁']
  split
  · exact readBuffer_sendPacket _
  split
  · exact readBuffer_sendPacket _
  · exact readBuffer_sendPacket (logonProofPacket s₁.expversion (Srp6.serverProof _ M K))

/-- A logon proof. -/
theorem safeWhen_handleLogonProof (hs : s.Safe) (hlong : LOGON_PROOF_SIZE ≤ s.readBuffer.getActiveSize) :
    SafeWhen (s.asksForToken amb = true →
        LOGON_PROOF_SIZE + 1 + (s.byteAt amb LOGON_PROOF_SIZE).toNat ≤ s.readBuffer.getActiveSize)
      (finish LOGON_PROOF_SIZE (s.handleLogonProof cfg amb)) := by
  have hs₁ : ({ s with status := .closed } : AuthSession).Safe := safe_of_positions hs rfl rfl
  have notAsked : s.asksForToken amb = false → (finish LOGON_PROOF_SIZE (s.handleLogonProof cfg amb)).Safe →
      SafeWhen (s.asksForToken amb = true →
          LOGON_PROOF_SIZE + 1 + (s.byteAt amb LOGON_PROOF_SIZE).toNat ≤ s.readBuffer.getActiveSize)
        (finish LOGON_PROOF_SIZE (s.handleLogonProof cfg amb)) :=
    fun ha hsafe => .of_safe hsafe fun h => by rw [ha] at h; cases h
  by_cases hexp : s.expversion = .noValid
  · refine notAsked (by simp [asksForToken, hexp]) ?_
    simp only [handleLogonProof, hexp, if_true]
    exact safe_of_positions hs rfl rfl
  by_cases hA : s.clientA amb % Srp6.N = 0
  · refine notAsked (by simp [asksForToken, hA]) ?_
    simp only [handleLogonProof, hexp, if_false, touch_eq hs₁ hlong]
    rw [if_pos (by exact hA)]
    exact safe_of_positions hs rfl rfl
  cases hkm : s.keyAndProof (s.clientA amb) with
  | mk K M =>
  by_cases hM : (asByteArray 20 M).take 20 = s.clientM1 amb
  swap
  · refine notAsked (by simp [asksForToken, hkm, hM]) ?_
    have hr := (@handleLogonProof_wrong cfg) (touch_eq hs₁ hlong) hexp hA hkm hM
    rw [hr]
    obtain ⟨hrb, hri⟩ := (@positions_wrongPassword cfg { s with status := .closed, K := K })
    exact safe_finish (safe_of_positions hs hrb hri) (by simpa only [hrb] using hlong)
  have hpos := @positions_right cfg amb s K M (touch_eq hs₁ hlong) hexp hA hkm hM
  cases htoken : s.needsToken (s.byteAt amb 74) with
  | false =>
    refine notAsked (by simp [asksForToken, htoken]) ?_
    obtain ⟨hrb, hri⟩ := hpos (by rw [htoken])
    exact safe_finish (safe_of_positions hs hrb hri) (by rw [hrb]; exact hlong)
  | true =>
    have hasks : s.asksForToken amb = true := by simp [asksForToken, hexp, hA, hkm, hM, htoken]
    obtain ⟨hrb, hri⟩ := hpos (by rw [htoken])
    rw [forall_prop_of_true hasks]
    exact safeWhen_checkToken (s := { s with status := .closed, K := K }) (safe_of_positions hs rfl rfl) rfl hrb hri

/-- A reconnect proof has a fixed size. -/
theorem safe_handleReconnectProof (hs : s.Safe) (hlong : RECONNECT_PROOF_SIZE ≤ s.readBuffer.getActiveSize) :
    (finish RECONNECT_PROOF_SIZE (s.handleReconnectProof cfg amb)).Safe := by
  have hs₁ : ({ s with status := .closed } : AuthSession).Safe := safe_of_positions hs rfl rfl
  have ht := touch_eq hs₁ (n := RECONNECT_PROOF_SIZE - 1) (Nat.le_trans (Nat.sub_le _ _) hlong)
  simp only [handleReconnectProof, ht]
  split
  · exact safe_of_positions hs rfl rfl
  split
  · split
    all_goals
      obtain ⟨hrb, hri⟩ := readBuffer_sendPacket (s := { s with status := .closed }) (_ : Bytes)
      exact safe_finish (safe_of_positions hs hrb hri) (by simpa only [hrb] using hlong)
  · exact safe_of_positions hs rfl rfl

theorem safe_handleRealmList (hs : s.Safe) (hlong : REALM_LIST_PACKET_SIZE ≤ s.readBuffer.getActiveSize) :
    (finish REALM_LIST_PACKET_SIZE s.handleRealmList).Safe :=
  safe_finish (safe_of_positions hs rfl rfl) hlong

/-! ## Rounds -/

theorem sizeOf_challenge (h : AuthHandler) (hc : isChallenge cmd = true) :
    s.sizeOf amb cmd h = (h.packetSize + leNat (s.bytesAt amb 2 2)) % 2 ^ 16 := if_pos hc

theorem sizeOf_fixed (h : AuthHandler) (hc : isChallenge cmd = false) :
    s.sizeOf amb cmd h = h.packetSize := if_neg (by simp [hc])

/-- The round that calls a handler. -/
theorem safeWhen_dispatch {h : AuthHandler} (hs : s.Safe) (hh : handlers (s.byteAt amb 0) = some h)
    (hd : s.Dispatches amb) (hlong : s.sizeOf amb (s.byteAt amb 0) h ≤ s.readBuffer.getActiveSize) :
    SafeWhen (s.Fits amb) (finish (s.sizeOf amb (s.byteAt amb 0) h) (h.handler cfg amb s)) := by
  unfold Fits
  rw [forall_prop_of_true hd]
  generalize hcmd : s.byteAt amb 0 = cmd at hh hlong ⊢
  -- one case for each handler
  unfold handlers at hh
  split at hh
  next hc =>
    cases hh
    have hchallenge : isChallenge cmd = true := by rw [hc]; decide
    have hproof : cmd ≠ AUTH_LOGON_PROOF := by rw [hc]; decide
    rw [forall_prop_of_true hchallenge, iff_true_intro (fun h => absurd h hproof), and_true]
    exact safeWhen_handleChallenge hs (sizeOf_challenge _ hchallenge) hlong
  split at hh
  next hc =>
    cases hh
    have hchallenge : isChallenge cmd = false := by rw [hc]; decide
    rw [sizeOf_fixed _ hchallenge] at hlong ⊢
    rw [forall_prop_of_true hc, iff_true_intro (fun h => by rw [hchallenge] at h; cases h), true_and]
    exact safeWhen_handleLogonProof hs hlong
  split at hh
  next hc =>
    cases hh
    have hchallenge : isChallenge cmd = true := by rw [hc]; decide
    have hproof : cmd ≠ AUTH_LOGON_PROOF := by rw [hc]; decide
    rw [forall_prop_of_true hchallenge, iff_true_intro (fun h => absurd h hproof), and_true]
    exact safeWhen_handleChallenge hs (sizeOf_challenge _ hchallenge) hlong
  split at hh
  next hc =>
    cases hh
    have hchallenge : isChallenge cmd = false := by rw [hc]; decide
    have hproof : cmd ≠ AUTH_LOGON_PROOF := by rw [hc]; decide
    rw [sizeOf_fixed _ hchallenge] at hlong ⊢
    exact .of_safe (safe_handleReconnectProof hs hlong)
      ⟨fun h => by (rw [hchallenge] at h; cases h), fun h => absurd h hproof⟩
  split at hh
  next hc =>
    cases hh
    have hchallenge : isChallenge cmd = false := by rw [hc]; decide
    have hproof : cmd ≠ AUTH_LOGON_PROOF := by rw [hc]; decide
    rw [sizeOf_fixed _ hchallenge] at hlong ⊢
    exact .of_safe (safe_handleRealmList hs hlong)
      ⟨fun h => by (rw [hchallenge] at h; cases h), fun h => absurd h hproof⟩
  · cases hh

theorem packetSize_of_challenge {h : AuthHandler} (hh : handlers cmd = some h)
    (hc : isChallenge cmd = true) : h.packetSize = AUTH_LOGON_CHALLENGE_INITIAL_SIZE := by
  simp only [isChallenge, Bool.or_eq_true, decide_eq_true_eq] at hc
  rcases hc with rfl | rfl <;> cases hh <;> rfl

/-- **A round stays within the bytes received exactly when it fits.** -/
theorem safeWhen_round (hs : s.Safe) : ∃ s', s.round cfg amb = some s' ∧ SafeWhen (s.Fits amb) s' := by
  have quiet : ∀ {s₀ : AuthSession}, s₀.Safe → ¬ s.Dispatches amb →
      ∃ s', s₀.asyncRead = some s' ∧ SafeWhen (s.Fits amb) s' := fun hs₀ hd => by
    obtain ⟨s', h', hsafe⟩ := safe_asyncRead hs₀
    exact ⟨s', h', .of_safe hsafe fun h => absurd h hd⟩
  unfold round
  split
  next h0 => exact quiet hs fun hd => absurd hd.1 (by rw [h0]; exact Nat.lt_irrefl 0)
  next h0 =>
  have h0 : 1 ≤ s.readBuffer.getActiveSize := Nat.pos_of_ne_zero h0
  simp only [touch_eq hs h0]
  cases hh : handlers (s.byteAt amb 0) with
  | none =>
    simp only
    refine quiet ⟨hs.inBounds, MessageBuffer.ok_reset⟩ fun hd => ?_
    obtain ⟨-, h, hh', -⟩ := hd
    cases hh.symm.trans hh'
  | some h =>
  have none : (¬ (s.status = h.status ∧ h.packetSize ≤ s.readBuffer.getActiveSize ∧
      (isChallenge (s.byteAt amb 0) = true → s.sizeOf amb (s.byteAt amb 0) h ≤ MAX_ACCEPTED_CHALLENGE_SIZE) ∧
      s.sizeOf amb (s.byteAt amb 0) h ≤ s.readBuffer.getActiveSize)) → ¬ s.Dispatches amb := by
    intro hn hd
    obtain ⟨-, h', hh', hrest⟩ := hd
    cases hh.symm.trans hh'
    exact hn hrest
  simp only
  split
  next hstatus => exact ⟨_, rfl, .of_safe (safe_of_positions hs rfl rfl) fun h => absurd h (none fun h => hstatus h.1)⟩
  next hstatus =>
  have hstatus : s.status = h.status := Decidable.not_not.1 hstatus
  split
  next hshort => exact quiet hs (none fun h => Nat.not_lt.2 h.2.1 hshort)
  next hlong =>
  have hlong := Nat.le_of_not_lt hlong
  have htouch : (if isChallenge (s.byteAt amb 0) = true then s.touch AUTH_LOGON_CHALLENGE_INITIAL_SIZE else s) = s := by
    split
    next hc => exact touch_eq hs (packetSize_of_challenge hh hc ▸ hlong)
    next => rfl
  simp only [htouch]
  split
  next hlarge =>
    simp only [Bool.and_eq_true, decide_eq_true_eq] at hlarge
    exact ⟨_, rfl, .of_safe (safe_of_positions hs rfl rfl)
      fun h => absurd h (none fun h => Nat.not_lt.2 (h.2.2.1 hlarge.1) hlarge.2)⟩
  next hsmall =>
  split
  next hshort => exact quiet hs (none fun h => Nat.not_lt.2 h.2.2.2 hshort)
  next hfull =>
  have hfull := Nat.le_of_not_lt hfull
  have hd : s.Dispatches amb := ⟨h0, h, hh, hstatus, hlong, fun hc => by simpa [hc] using hsmall, hfull⟩
  have hsafe := (@safeWhen_dispatch cfg) hs hh hd hfull
  refine ⟨finish (s.sizeOf amb (s.byteAt amb 0) h) (h.handler cfg amb s), ?_, hsafe⟩
  simp only [finish]
  split <;> rfl

/-! ## Runs -/

theorem safe_start : start.Safe := ⟨rfl, MessageBuffer.ok_ofSize 4096⟩

/-- A step that is not a round of `ReadHandler` does not read the buffer. -/
theorem safe_step {e : Event} (hs : s.Safe) (he : ∀ amb, e ≠ .round amb) (h : step cfg e s = some s') : s'.Safe := by
  have sent : ∀ {s₀ : AuthSession} (packet : Bytes), s₀.Safe → (s₀.sendPacket packet).Safe := fun packet h₀ =>
    safe_of_positions h₀ (readBuffer_sendPacket packet).1 (readBuffer_sendPacket packet).2
  have answered : ∀ q, (s.answered q).Safe := fun q => safe_of_positions hs rfl rfl
  cases e with
  | read chunk =>
    obtain ⟨b, hb, rfl⟩ := Option.map_eq_some_iff.1 h
    exact ⟨hs.inBounds, (MessageBuffer.content_copyIn hs.buffer hb).1⟩
  | round amb => exact absurd rfl (he amb)
  | ipInfo banned =>
    simp only [step, checkIpCallback] at h
    split at h
    · cases h
      exact sent _ (answered _)
    obtain ⟨s₁, h₁, hsafe⟩ := safe_asyncRead (answered .ipInfo)
    rw [h₁] at h
    cases h
    exact hsafe
  | logon login result salt b =>
    cases h
    simp only [logonChallengeCallback]
    split
    · exact sent _ (answered _)
    split
    · exact sent _ (safe_of_positions (answered (.logon login)) rfl rfl)
    · exact sent _ (safe_of_positions (answered (.logon login)) rfl rfl)
  | reconnect login result challenge =>
    cases h
    simp only [reconnectChallengeCallback]
    split
    · exact sent _ (answered _)
    · exact sent _ (safe_of_positions (answered (.reconnect login)) rfl rfl)
  | realmList account realms realmListSize =>
    simp only [step, realmListCallback, Option.ite_none_right_eq_some, Option.some.injEq] at h
    rw [← h.2]
    exact safe_of_positions (sent _ (answered (.realmList account))) rfl rfl
  | closeSocket =>
    cases h
    exact safe_of_positions hs rfl rfl

/-- **What is consumed has been received.** In a run whose rounds all fit, whatever the client sends and
however it is cut: every byte read so far had been received and the read position is at most the write
position; and the next round keeps this so exactly when it fits. -/
theorem reached_safe (cfg : Config)
    (hr : Reaches (step cfg) Fitting start s) :
    s.inBounds = true ∧ s.readBuffer.rpos ≤ s.readBuffer.wpos ∧
      s.readBuffer.getActiveSize = s.readBuffer.wpos - s.readBuffer.rpos ∧
      ∀ amb, Allowed (.round amb) s → ∃ s', step cfg (.round amb) s = some s' ∧
        (s'.inBounds = true ∧ s'.readBuffer.rpos ≤ s'.readBuffer.wpos ↔ s.Fits amb) := by
  have hs : s.Safe := hr.invariant Safe (fun e a b ha he h => ?_) safe_start
  · refine ⟨hs.inBounds, hs.buffer.read, hs.buffer.activeSize, fun amb _ => ?_⟩
    obtain ⟨s', h, hsafe⟩ := (@safeWhen_round cfg amb) hs
    exact ⟨s', h, hsafe.iff⟩
  · cases e with
    | round amb =>
      obtain ⟨s', h', hsafe⟩ := (@safeWhen_round cfg amb) ha
      rw [step, h'] at h
      cases h
      exact hsafe.safe he.2
    | _ => exact safe_step ha (fun _ h => (by cases h)) h

/-- A right proof that announces a token, and ends there. -/
def tokenAnnounced : Bytes := proofBytes.take 74 ++ [4]

def wrongToken : Ambient := ⟨fun _ => 0, fun _ => 492039⟩

/-- All rounds of the login fit; no token is asked for in the last one. -/
theorem fitting_evaluated : (runSteps (allowed (step lenient) Fitting) (loginEvents.take 8) start).any (fun s =>
    Allowed (.round quietMemory) s && s.byteAt quietMemory 0 = AUTH_LOGON_PROOF &&
      s.needsToken (s.byteAt quietMemory 74) = false) = true := by
  decide +kernel

/-- The round that handles the proof with a token. -/
theorem token_evaluated : (runSteps (allowed (step lenient) Allowed) (loginEvents.take 7 ++ [.read tokenAnnounced])
    start).any (fun s => Allowed (.round wrongToken) s && (step lenient (.round wrongToken) s).any fun s' =>
      s'.readBuffer.wpos < s'.readBuffer.rpos && s'.readBuffer.getActiveSize = 2 ^ 64 - 1) = true := by
  decide +kernel

theorem reached_safe_login : ∃ s : AuthSession, Reaches (step lenient) Fitting start s ∧ s.status = .authed ∧
    s.inBounds = true ∧ s.readBuffer.getActiveSize = s.readBuffer.wpos - s.readBuffer.rpos := by
  obtain ⟨s, hs, hauthed⟩ := login_authed
  obtain ⟨s₁, hs₁, hall⟩ := (Option.any_eq_true _ _).1 fitting_evaluated
  simp only [Bool.and_eq_true, decide_eq_true_eq] at hall
  obtain ⟨⟨hallowed, hproof⟩, htoken⟩ := hall
  have hfits : s₁.Fits quietMemory := by
    refine fun _ => ⟨fun h => ?_, fun _ h => ?_⟩
    · rw [hproof] at h
      exact absurd h (by decide)
    · simp [asksForToken, htoken] at h
  -- the last round goes on where the others end
  have hlast : step lenient (.round quietMemory) s₁ = some s := by
    have hevents : loginEvents = loginEvents.take 8 ++ [.round quietMemory] := rfl
    rw [hevents, runSteps_append, runSteps_allowed_mono (fun _ _ h => h.1) hs₁, Option.bind_some, runSteps] at hs
    obtain ⟨s', hs', hnil⟩ := Option.bind_eq_some_iff.1 hs
    rw [allowed, if_pos hallowed] at hs'
    exact hs'.trans hnil
  have hr : Reaches (step lenient) Fitting start s := .tail _ (.of_allowed (.of_runSteps hs₁)) ⟨hallowed, hfits⟩ hlast
  obtain ⟨hb, -, hsize, -⟩ := reached_safe lenient hr
  exact ⟨s, hr, hauthed, hb, hsize⟩

/-- Four bytes make a challenge whose fields have not been received; a right proof that announces a token, and ends
there, moves the read position past the write position. -/
theorem reads_past_the_end :
    (∃ s s' : AuthSession, Reaches (step lenient) Allowed start s ∧ Allowed (.round quietMemory) s ∧
      step lenient (.round quietMemory) s = some s' ∧ s.inBounds = true ∧ s'.inBounds = false) ∧
    (∃ s s' : AuthSession, Reaches (step lenient) Allowed start s ∧ Allowed (.round wrongToken) s ∧
      step lenient (.round wrongToken) s = some s' ∧ s'.readBuffer.wpos < s'.readBuffer.rpos ∧
      s'.readBuffer.getActiveSize = 2 ^ 64 - 1) := by
  constructor
  · have hrun : (runSteps (allowed (step lenient) Allowed) [.ipInfo false, .read [AUTH_LOGON_CHALLENGE, 0, 0, 0]]
        start).any (fun s => Allowed (.round quietMemory) s && s.inBounds &&
          (step lenient (.round quietMemory) s).any fun s' => !s'.inBounds) = true := by decide +kernel
    obtain ⟨s, hs, hall⟩ := (Option.any_eq_true _ _).1 hrun
    simp only [Bool.and_eq_true, decide_eq_true_eq] at hall
    obtain ⟨⟨ha, hb⟩, hstep⟩ := hall
    obtain ⟨s', hs', hb'⟩ := (Option.any_eq_true _ _).1 hstep
    exact ⟨s, s', .of_allowed (.of_runSteps hs), ha, hs', hb, by simpa using hb'⟩
  · obtain ⟨s, hs, hall⟩ := (Option.any_eq_true _ _).1 token_evaluated
    simp only [Bool.and_eq_true, decide_eq_true_eq] at hall
    obtain ⟨ha, hstep⟩ := hall
    obtain ⟨s', hs', hpos⟩ := (Option.any_eq_true _ _).1 hstep
    simp only [Bool.and_eq_true, decide_eq_true_eq] at hpos
    exact ⟨s, s', .of_allowed (.of_runSteps hs), ha, hs', hpos.1, hpos.2⟩

end AtlasWow.Auth.AuthSession
