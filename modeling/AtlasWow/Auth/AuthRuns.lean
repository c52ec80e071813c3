/-
An `AuthSession` is authenticated only through a proof that fits the account
loaded for it (`authed_only_by_proof`).
-/
import AtlasWow.Auth.AuthSession

namespace AtlasWow.Auth.AuthSession

open Net (Bytes MessageBuffer)
open BigNumber

/-! ## What a login depends on -/

/-- The part of a session that a login depends on. -/
structure Core where
  s : Nat
  v : Nat
  b : Nat
  B : Nat
  K : Nat
  reconnectProof : Nat
  status : AuthStatus
  accountInfo : AccountInfo
  queries : List Query
  loaded : Option Loaded

def core (s : AuthSession) : Core :=
  ⟨s.s, s.v, s.b, s.B, s.K, s.reconnectProof, s.status, s.accountInfo, s.queries, s.loaded⟩

variable {cfg : Config} {amb : Ambient} {s s' : AuthSession}

@[simp] theorem status_core : s.core.status = s.status := rfl
@[simp] theorem queries_core : s.core.queries = s.queries := rfl
@[simp] theorem loaded_core : s.core.loaded = s.loaded := rfl
@[simp] theorem core_touch (n : Nat) : (s.touch n).core = s.core := rfl
@[simp] theorem core_readCompleted (n : Nat) : (s.readCompleted n).core = s.core := rfl
@[simp] theorem core_closeSocket : s.closeSocket.core = s.core := rfl

@[simp] theorem core_sendPacket (packet : Bytes) : (s.sendPacket packet).core = s.core := by
  unfold sendPacket
  split <;> rfl

theorem core_asyncRead (h : s.asyncRead = some s') : s'.core = s.core := by
  unfold asyncRead at h
  split at h
  · cases h; rfl
  split at h
  · cases h; rfl
  · cases h

/-- The queries about accounts that are not answered. -/
def Core.pending (c : Core) : List Query := c.queries.filter (· ≠ .ipInfo)

/-- The proof that a logon with these random numbers asks for, of a client with public value `A`. -/
def logonProofOf (row : LogonRow) (salt b A : Nat) : Nat :=
  let (s, v) := saltAndVerifier row salt 0 0
  (Srp6.keyAndProof row.account.login s v b (Srp6.serverPublic v b) A).2

/-- The digest that a reconnect with this challenge asks for. -/
def reconnectDigestOf (row : ReconnectRow) (challenge R1 : Nat) : Bytes :=
  reconnectDigest row.account.login R1 challenge (setHexStr 0 row.sessionKey)

/-- The SRP6 numbers are those of the row loaded. -/
structure Core.FitsLogon (c : Core) (row : LogonRow) (salt b : Nat) : Prop where
  loaded : c.loaded = some (.logon row salt b)
  account : c.accountInfo = row.account
  srp : (c.s, c.v) = saltAndVerifier row salt 0 0
  random : c.b = b
  publicValue : c.B = Srp6.serverPublic c.v b

structure Core.FitsReconnect (c : Core) (row : ReconnectRow) (challenge : Nat) : Prop where
  loaded : c.loaded = some (.reconnect row challenge)
  account : c.accountInfo = row.account
  K : c.K = setHexStr 0 row.sessionKey
  challenge : c.reconnectProof = challenge

/-- What each status stands for. -/
def Core.Inv (c : Core) : Prop :=
  (c.loaded = none → c.s = 0 ∧ c.v = 0 ∧ c.K = 0) ∧
  match c.status with
  | .challenge => c.pending = [] ∧ c.loaded = none
  | .logonProof => c.pending = [] ∧ ∃ row salt b, c.FitsLogon row salt b
  | .reconnectProof => c.pending = [] ∧ ∃ row challenge, c.FitsReconnect row challenge
  | .authed => c.pending = []
  | .waitingForRealmList => ∃ account, c.pending = [.realmList account]
  | .closed => c.pending = [] ∨ (∃ login, c.pending = [.logon login] ∨ c.pending = [.reconnect login]) ∧ c.loaded = none

/-- **The proof a round accepts**: it fits the account loaded in this session. -/
inductive ProofAccepted (amb : Ambient) (s : AuthSession) : Prop
  | logon (row : LogonRow) (salt b : Nat) (hstatus : s.status = .logonProof)
      (hcmd : s.byteAt amb 0 = AUTH_LOGON_PROOF) (hloaded : s.loaded = some (.logon row salt b))
      (hM : (asByteArray 20 (logonProofOf row salt b (s.clientA amb))).take 20 = s.clientM1 amb)
  | reconnect (row : ReconnectRow) (challenge : Nat) (hstatus : s.status = .reconnectProof)
      (hcmd : s.byteAt amb 0 = AUTH_RECONNECT_PROOF) (hloaded : s.loaded = some (.reconnect row challenge))
      (hR2 : reconnectDigestOf row challenge (setBinary (s.clientR1 amb)) = s.clientR2 amb)

/-! ## Handlers -/

variable {ok inBounds : Bool} {q : Query} {e : Event} {query : Bytes → Query} {login : Bytes}

/-- What a challenge does. -/
theorem core_handleChallenge (h : s.handleChallenge amb query = (s', ok)) :
    s'.core = { s.core with status := .closed } ∨
      ∃ login, s'.core = { s.core with status := .closed, queries := s.queries ++ [query login] } := by
  simp only [handleChallenge] at h
  split at h
  · cases h; exact .inl rfl
  · cases h; exact .inr ⟨_, rfl⟩

theorem core_checkToken : (s.checkToken amb).1.core = s.core := by
  simp only [core, checkToken, readCompleted, touch]

/-- What no handler of a proof changes. -/
def kept (s : AuthSession) : List Query × Option Loaded := (s.queries, s.loaded)

theorem kept_of_core (h : s'.core = s.core) : s'.kept = s.kept ∧ s'.status = s.status :=
  ⟨Prod.ext (congrArg Core.queries h) (congrArg Core.loaded h), congrArg Core.status h⟩

theorem kept_wrongPassword : (s.wrongPassword cfg).kept = s.kept ∧ (s.wrongPassword cfg).status = s.status := by
  have h := kept_of_core (core_sendPacket (s := s) [AUTH_LOGON_PROOF, WOW_FAIL_UNKNOWN_ACCOUNT, 0, 0])
  unfold wrongPassword
  split
  · exact ⟨h.1, h.2⟩
  · exact h

/-- The check of the token, where there is one. -/
theorem kept_token {flags : UInt8} {r : AuthSession × Bool}
    (h : (if s.needsToken flags then s.checkToken amb else (s, true)) = r) : r.1.core = s.core := by
  subst h
  split
  · exact core_checkToken
  · rfl

/-- A logon proof closes the session, or fits and authenticates it. -/
theorem kept_handleLogonProof (h : s.handleLogonProof cfg amb = (s', ok)) :
    s'.kept = s.kept ∧ (s'.status = .closed ∨ s'.status = .authed ∧
      (asByteArray 20 (s.keyAndProof (s.clientA amb)).2).take 20 = s.clientM1 amb) := by
  simp only [handleLogonProof] at h
  split at h
  · cases h; exact ⟨rfl, .inl rfl⟩
  split at h
  · cases h; exact ⟨rfl, .inl rfl⟩
  generalize hkm : keyAndProof _ _ = km at h
  have hkm : s.keyAndProof (s.clientA amb) = km := hkm
  rw [hkm]
  obtain ⟨K, M⟩ := km
  split at h
  next hM =>
    generalize hr : (if needsToken _ _ then _ else _ : AuthSession × Bool) = r at h
    obtain ⟨s₁, valid⟩ := r
    obtain ⟨hkept, hstatus⟩ := kept_of_core (kept_token hr)
    simp only at h hkept hstatus
    split at h
    · cases h
      obtain ⟨hk, hs⟩ := kept_of_core (core_sendPacket (s := s₁) [AUTH_LOGON_PROOF, WOW_FAIL_UNKNOWN_ACCOUNT, 0, 0])
      exact ⟨hk.trans hkept, .inl (hs.trans hstatus)⟩
    split at h
    · cases h
      obtain ⟨hk, hs⟩ := kept_of_core (core_sendPacket (s := s₁) [AUTH_LOGON_PROOF, WOW_FAIL_VERSION_INVALID])
      exact ⟨hk.trans hkept, .inl (hs.trans hstatus)⟩
    · cases h
      exact ⟨(kept_of_core (core_sendPacket _)).1.trans hkept, .inr ⟨rfl, hM⟩⟩
  next =>
  cases h
  obtain ⟨hk, hs⟩ := (@kept_wrongPassword cfg _)
  exact ⟨hk, .inl hs⟩

/-- A reconnect proof closes the session, or fits and authenticates it. -/
theorem kept_handleReconnectProof (h : s.handleReconnectProof cfg amb = (s', ok)) :
    s'.kept = s.kept ∧ (s'.status = .closed ∨ s'.status = .authed ∧
      reconnectDigest s.accountInfo.login (setBinary (s.clientR1 amb)) s.reconnectProof s.K = s.clientR2 amb) := by
  simp only [handleReconnectProof] at h
  split at h
  · cases h; exact ⟨rfl, .inl rfl⟩
  split at h
  next hR2 =>
    split at h
    · cases h
      obtain ⟨hk, hs⟩ := kept_of_core (core_sendPacket (s := { s with status := .closed }.touch (RECONNECT_PROOF_SIZE - 1))
        [AUTH_RECONNECT_PROOF, WOW_FAIL_VERSION_INVALID])
      exact ⟨hk, .inl hs⟩
    cases h
    exact ⟨(kept_of_core (core_sendPacket (s := { s with status := .closed }.touch (RECONNECT_PROOF_SIZE - 1))
      [AUTH_RECONNECT_PROOF, WOW_SUCCESS, 0, 0])).1, .inr ⟨rfl, hR2⟩⟩
  · cases h
    exact ⟨rfl, .inl rfl⟩

/-! ## A round -/

/-- A round changes nothing of the login, or calls the handler of the command, whose status is the session's. -/
theorem round_cases (h : s.round cfg amb = some s') : s'.core = s.core ∨
    ∃ hd inBounds s₁ ok, handlers (s.byteAt amb 0) = some hd ∧ s.status = hd.status ∧
      hd.handler cfg amb { s with inBounds := inBounds } = (s₁, ok) ∧ s'.core = s₁.core := by
  have quiet : ∀ {s₀ : AuthSession}, s₀.asyncRead = some s' → s₀.core = s.core → s'.core = s.core := fun ha hc =>
    (core_asyncRead ha).trans hc
  simp only [round] at h
  split at h
  · exact .inl (core_asyncRead h)
  split at h
  · exact .inl (quiet h rfl)
  next hd hhd =>
  split at h
  · cases h; exact .inl rfl
  next hstatus =>
  have hstatus : s.status = hd.status := Decidable.not_not.1 hstatus
  split at h
  · exact .inl (quiet h rfl)
  generalize hs₀ : (if isChallenge _ then _ else _ : AuthSession) = s₀ at h
  have hs₀ : ∃ inBounds, s₀ = { s with inBounds := inBounds } := by
    subst hs₀
    split <;> exact ⟨_, rfl⟩
  obtain ⟨inBounds, rfl⟩ := hs₀
  split at h
  · cases h; exact .inl rfl
  split at h
  · exact .inl (quiet h rfl)
  cases hr : hd.handler cfg amb { s with inBounds := inBounds } with
  | mk s₁ ok =>
  simp only [hr] at h
  refine .inr ⟨hd, inBounds, s₁, ok, hhd, hstatus, hr, ?_⟩
  split at h <;> cases h <;> rfl

/-- What is shown of every round: it keeps what each status stands for, authenticates only by a
proof that fits, and asks for the realm list only when authenticated. -/
structure RoundOk (amb : Ambient) (s s' : AuthSession) : Prop where
  inv : s'.core.Inv
  authed : s'.status = .authed → s.status ≠ .authed → ProofAccepted amb s
  realmList : ∀ account, .realmList account ∈ s'.queries → .realmList account ∉ s.queries → s.status = .authed
  waiting : s'.status = .waitingForRealmList → s.status = .authed ∨ s.status = .waitingForRealmList

theorem roundOk_of_core {s₁ : AuthSession} (hc : s'.core = s₁.core) (h : RoundOk amb s s₁) : RoundOk amb s s' where
  inv := hc ▸ h.inv
  authed hs := h.authed ((congrArg Core.status hc).symm.trans hs)
  realmList account hq := h.realmList account (by rwa [show s'.queries = s₁.queries from congrArg Core.queries hc] at hq)
  waiting hs := h.waiting ((congrArg Core.status hc).symm.trans hs)

/-- A challenge closes the session until its query is answered. -/
theorem roundOk_challenge (hq : query = .logon ∨ query = .reconnect) (hi : s.core.Inv) (hs : s.status = .challenge)
    (h : handleChallenge amb query { s with inBounds := inBounds } = (s', ok)) : RoundOk amb s s' := by
  obtain ⟨h0, hi⟩ := hi
  simp only [status_core, hs] at hi
  obtain ⟨hp, hl⟩ := hi
  rcases core_handleChallenge h with hc | ⟨login, hc⟩
  · have hstatus : s'.status = .closed := congrArg Core.status hc
    have hqueries : s'.queries = s.queries := congrArg Core.queries hc
    refine ⟨?_, fun h => (by rw [hstatus] at h; cases h), fun account h hn => absurd (hqueries ▸ h) hn,
      fun h => (by rw [hstatus] at h; cases h)⟩
    rw [hc]
    exact ⟨h0, .inl hp⟩
  have hstatus : s'.status = .closed := congrArg Core.status hc
  have hqueries : s'.queries = s.queries ++ [query login] := congrArg Core.queries hc
  refine ⟨?_, fun h => (by rw [hstatus] at h; cases h), fun account h hn => ?_,
    fun h => (by rw [hstatus] at h; cases h)⟩
  · have hpend : ({ s.core with status := .closed, queries := s.queries ++ [query login] } : Core).pending =
        [query login] := by
      rcases hq with rfl | rfl <;> simpa [Core.pending] using hp
    rw [hc]
    refine ⟨h0, .inr ⟨⟨login, ?_⟩, hl⟩⟩
    rcases hq with rfl | rfl
    · exact .inl hpend
    · exact .inr hpend
  · rw [hqueries] at h
    rcases List.mem_append.1 h with h | h
    · exact absurd h hn
    · rcases hq with rfl | rfl <;> simp at h

/-- A proof closes the session, or authenticates it. -/
theorem roundOk_proof (hp : s.core.pending = []) (hl : s.loaded ≠ none) (hk : s'.kept = s.kept)
    (hs : s'.status = .closed ∨ s'.status = .authed) (ha : s'.status = .authed → ProofAccepted amb s) :
    RoundOk amb s s' := by
  have hq : s'.queries = s.queries := congrArg Prod.fst hk
  have hl' : s'.loaded ≠ none := by rwa [show s'.loaded = s.loaded from congrArg Prod.snd hk]
  have hp' : s'.core.pending = [] := by rw [← hp, Core.pending, Core.pending]; exact congrArg _ hq
  refine ⟨⟨fun h => absurd h hl', ?_⟩, fun h _ => ha h, fun account h hn => absurd (hq ▸ h) hn,
    fun h => (by rcases hs with hs | hs <;> rw [hs] at h <;> cases h)⟩
  rcases hs with hs | hs <;> simp only [status_core, hs]
  · exact .inl hp'
  · exact hp'

theorem roundOk_logonProof (hi : s.core.Inv) (hs : s.status = .logonProof) (hcmd : s.byteAt amb 0 = AUTH_LOGON_PROOF)
    (h : handleLogonProof cfg amb { s with inBounds := inBounds } = (s', ok)) : RoundOk amb s s' := by
  obtain ⟨-, hi⟩ := hi
  simp only [status_core, hs] at hi
  obtain ⟨hp, row, salt, b, hfits⟩ := hi
  obtain ⟨hk, hs'⟩ := kept_handleLogonProof h
  have hl : s.loaded = some (.logon row salt b) := hfits.loaded
  refine roundOk_proof hp (by simp [hl]) hk (hs'.imp_right And.left) fun ha => ?_
  have hM := (hs'.resolve_left (by simp [ha])).2
  refine .logon row salt b hs hcmd hl ?_
  have hsrp := hfits.srp
  rw [logonProofOf, ← hsrp, ← hfits.account]
  simp only
  rw [← hfits.publicValue, ← hfits.random]
  exact hM

theorem roundOk_reconnectProof (hi : s.core.Inv) (hs : s.status = .reconnectProof)
    (hcmd : s.byteAt amb 0 = AUTH_RECONNECT_PROOF)
    (h : handleReconnectProof cfg amb { s with inBounds := inBounds } = (s', ok)) : RoundOk amb s s' := by
  obtain ⟨-, hi⟩ := hi
  simp only [status_core, hs] at hi
  obtain ⟨hp, row, challenge, hfits⟩ := hi
  obtain ⟨hk, hs'⟩ := kept_handleReconnectProof h
  have hl : s.loaded = some (.reconnect row challenge) := hfits.loaded
  refine roundOk_proof hp (by simp [hl]) hk (hs'.imp_right And.left) fun ha => ?_
  have hR2 := (hs'.resolve_left (by simp [ha])).2
  refine .reconnect row challenge hs hcmd hl ?_
  rw [reconnectDigestOf, ← hfits.account, ← hfits.K, ← hfits.challenge]
  exact hR2

theorem roundOk_realmList (hi : s.core.Inv) (hs : s.status = .authed)
    (h : handleRealmList { s with inBounds := inBounds } = (s', ok)) : RoundOk amb s s' := by
  obtain ⟨h0, hi⟩ := hi
  simp only [status_core, hs] at hi
  cases h
  refine ⟨⟨h0, s.accountInfo.id, ?_⟩, fun h => (by cases h), fun _ _ _ => hs, fun _ => .inl hs⟩
  simpa [Core.pending] using hi

theorem roundOk_round (hi : s.core.Inv) (h : s.round cfg amb = some s') : RoundOk amb s s' := by
  rcases round_cases h with hc | ⟨hd, inBounds, s₁, ok, hhd, hstatus, hr, hc⟩
  · exact roundOk_of_core hc ⟨hi, fun h hn => absurd h hn, fun _ h hn => absurd h hn, .inr⟩
  refine roundOk_of_core hc ?_
  unfold handlers at hhd
  split at hhd
  · cases hhd; exact roundOk_challenge (.inl rfl) hi hstatus hr
  split at hhd
  next hcmd => cases hhd; exact roundOk_logonProof hi hstatus hcmd hr
  split at hhd
  · cases hhd; exact roundOk_challenge (.inr rfl) hi hstatus hr
  split at hhd
  next hcmd => cases hhd; exact roundOk_reconnectProof hi hstatus hcmd hr
  split at hhd
  next => cases hhd; exact roundOk_realmList hi hstatus hr
  · cases hhd

/-! ## Callbacks -/

theorem pending_answered (s : AuthSession) (q : Query) : (s.answered q).core.pending = s.core.pending.erase q := by
  simp only [Core.pending, answered, queries_core]
  exact (List.erase_filter ..).symm

theorem mem_pending (hq : q ≠ .ipInfo) (h : q ∈ s.queries) : q ∈ s.core.pending :=
  List.mem_filter.2 ⟨h, by simpa using hq⟩

/-- A challenge is answered while the session is closed for packets and nothing is loaded. -/
theorem Core.Inv.of_challenge (hi : s.core.Inv) (hq : q = .logon login ∨ q = .reconnect login)
    (h : q ∈ s.queries) : s.status = .closed ∧ (s.answered q).core.pending = [] ∧ s.loaded = none := by
  have hmem : q ∈ s.core.pending := mem_pending (by rcases hq with rfl | rfl <;> simp) h
  obtain ⟨-, hi⟩ := hi
  have hne : ∀ {l : List Query}, s.core.pending = l → q ∈ l := fun hl => hl ▸ hmem
  cases hs : s.status <;> simp only [status_core, hs] at hi
  case challenge => simpa using hne hi.1
  case logonProof => simpa using hne hi.1
  case reconnectProof => simpa using hne hi.1
  case authed => simpa using hne hi
  case waitingForRealmList =>
    obtain ⟨account, hp⟩ := hi
    have := hne hp
    rcases hq with rfl | rfl <;> simp at this
  case closed =>
    rcases hi with hp | ⟨⟨login', hp⟩, hl⟩
    · simpa using hne hp
    refine ⟨rfl, ?_, hl⟩
    rw [pending_answered]
    rcases hp with hp | hp
    all_goals
      have := hne hp
      rw [List.mem_singleton] at this
      rw [hp, this, List.erase_cons_head]

theorem Core.Inv.of_realmList {account : Nat} (hi : s.core.Inv) (h : .realmList account ∈ s.queries) :
    s.status = .waitingForRealmList ∧ (s.answered (.realmList account)).core.pending = [] := by
  have hmem : .realmList account ∈ s.core.pending := mem_pending (by simp) h
  obtain ⟨-, hi⟩ := hi
  have hne : ∀ {l : List Query}, s.core.pending = l → .realmList account ∈ l := fun hl => hl ▸ hmem
  cases hs : s.status <;> simp only [status_core, hs] at hi
  case challenge => simpa using hne hi.1
  case logonProof => simpa using hne hi.1
  case reconnectProof => simpa using hne hi.1
  case authed => simpa using hne hi
  case waitingForRealmList =>
    obtain ⟨account', hp⟩ := hi
    have := hne hp
    rw [List.mem_singleton] at this
    exact ⟨rfl, by rw [pending_answered, hp, this, List.erase_cons_head]⟩
  case closed =>
    rcases hi with hp | ⟨⟨login, hp | hp⟩, -⟩
    all_goals simpa using hne hp

/-- What is shown of the callbacks that do not authenticate. -/
structure CallbackOk (s s' : AuthSession) : Prop where
  inv : s'.core.Inv
  status : s'.status ≠ .authed ∧ s'.status ≠ .waitingForRealmList
  queries : s'.queries = s.queries

theorem callbackOk_of_core {s₁ : AuthSession} (h : CallbackOk s s₁) (hc : s'.core = s₁.core) : CallbackOk s s' where
  inv := hc ▸ h.inv
  status := by rw [show s'.status = s₁.status from congrArg Core.status hc]; exact h.status
  queries := (congrArg Core.queries hc).trans h.queries

/-- An answer that turns the client down. -/
theorem callbackOk_refused {account : AccountInfo} (hs : s.status = .closed) (hp : s.core.pending = [])
    (h0 : s.s = 0 ∧ s.v = 0 ∧ s.K = 0) : CallbackOk s { s with accountInfo := account } := by
  refine ⟨⟨fun _ => h0, ?_⟩, by simp [hs], rfl⟩
  simp only [status_core, hs]
  exact .inl hp

/-- An answer that loads an account. -/
theorem callbackOk_loadLogon {row : LogonRow} {salt b : Nat} (hs : s.status = .closed) (hp : s.core.pending = [])
    (h0 : s.s = 0 ∧ s.v = 0 ∧ s.K = 0) (ha : s.accountInfo = row.account) : CallbackOk s (s.loadLogon row salt b) := by
  unfold loadLogon
  rw [h0.1, h0.2.1]
  generalize hsv : saltAndVerifier row salt 0 0 = sv
  obtain ⟨salt', v⟩ := sv
  simp only
  generalize hB : Srp6.serverPublic v b = B
  cases isAcceptedClientBuild s.build with
  | true => exact ⟨⟨fun h => (by cases h), hp, row, salt, b, rfl, ha, hsv.symm, rfl, hB.symm⟩, by simp, rfl⟩
  | false =>
    simp only [Bool.false_eq_true, if_false]
    refine ⟨⟨fun h => (by cases h), ?_⟩, by simp [hs], rfl⟩
    simp only [status_core, hs]
    exact .inl hp

/-- The answer to a logon challenge. -/
theorem callbackOk_logon {result : Option LogonRow} {salt b : Nat} (hs : s.status = .closed)
    (hp : s.core.pending = []) (h0 : s.s = 0 ∧ s.v = 0 ∧ s.K = 0) :
    CallbackOk s (s.logonChallengeCallback cfg result salt b) := by
  have refused := fun account => (@callbackOk_refused _ account) hs hp h0
  simp only [logonChallengeCallback]
  cases result with
  | none => exact callbackOk_of_core (refused s.accountInfo) (core_sendPacket _)
  | some row =>
  simp only
  cases logonError cfg row.account with
  | some code => exact callbackOk_of_core (refused row.account) (core_sendPacket _)
  | none =>
    have := (@callbackOk_loadLogon { s with accountInfo := row.account } _ salt b) hs hp h0 rfl
    exact callbackOk_of_core ⟨this.inv, this.status, this.queries⟩ (core_sendPacket _)

/-- The answer to a reconnect challenge. -/
theorem callbackOk_reconnect {result : Option ReconnectRow} {challenge : Nat} (hs : s.status = .closed)
    (hp : s.core.pending = []) (h0 : s.s = 0 ∧ s.v = 0 ∧ s.K = 0) :
    CallbackOk s (s.reconnectChallengeCallback result challenge) := by
  unfold reconnectChallengeCallback
  cases result with
  | none => exact callbackOk_of_core ((@callbackOk_refused _ s.accountInfo) hs hp h0) (core_sendPacket _)
  | some row =>
    refine (@callbackOk_of_core _ _ { s with
      accountInfo := row.account, K := setHexStr s.K row.sessionKey, reconnectProof := challenge,
      status := .reconnectProof, loaded := some (.reconnect row challenge) }) ?_ (core_sendPacket _)
    exact ⟨⟨fun h => (by cases h), hp, row, challenge, rfl, rfl, congrArg (setHexStr · row.sessionKey) h0.2.2, rfl⟩,
      by simp, rfl⟩

/-- The answer to the realm list query. -/
theorem inv_realmListCallback {realms : Bytes} {realmListSize : Nat}
    (h0 : s.core.loaded = none → s.core.s = 0 ∧ s.core.v = 0 ∧ s.core.K = 0) (hp : s.core.pending = [])
    (h : s.realmListCallback realms realmListSize = some s') :
    s'.core.Inv ∧ s'.queries = s.queries ∧ s'.status = .authed := by
  simp only [realmListCallback, Option.ite_none_right_eq_some, Option.some.injEq] at h
  obtain ⟨hdr, rfl⟩ : ∃ hdr, s' = { s.sendPacket hdr with status := .authed } := ⟨_, h.2.symm⟩
  have hc := core_sendPacket (s := s) hdr
  rw [← hc] at h0 hp
  exact ⟨⟨h0, hp⟩, congrArg Core.queries hc, rfl⟩

theorem inv_ipInfo (hi : s.core.Inv) : (s.answered .ipInfo).core.Inv := by
  have hp : (s.answered .ipInfo).core.pending = s.core.pending := by
    rw [pending_answered, List.erase_of_not_mem]
    simp [Core.pending]
  obtain ⟨h0, hi⟩ := hi
  refine ⟨h0, ?_⟩
  have hs' : (s.answered .ipInfo).status = s.status := rfl
  cases hs : s.status <;> simp only [status_core, hs', hs, hp] at hi ⊢
  case logonProof =>
    obtain ⟨hi, row, salt, b, hf⟩ := hi
    exact ⟨hi, row, salt, b, hf.loaded, hf.account, hf.srp, hf.random, hf.publicValue⟩
  case reconnectProof =>
    obtain ⟨hi, row, challenge, hf⟩ := hi
    exact ⟨hi, row, challenge, hf.loaded, hf.account, hf.K, hf.challenge⟩
  all_goals exact hi

/-! ## Runs -/

/-- What a step does to a login. -/
structure StepOk (e : Event) (s s' : AuthSession) : Prop where
  inv : s'.core.Inv
  authed : s'.status = .authed → s.status ≠ .authed → (∃ amb, e = .round amb ∧ ProofAccepted amb s) ∨
    (∃ account realms realmListSize, e = .realmList account realms realmListSize ∧ s.status = .waitingForRealmList)
  realmList : ∀ account, .realmList account ∈ s'.queries → .realmList account ∉ s.queries → s.status = .authed
  waiting : s'.status = .waitingForRealmList → s.status = .authed ∨ s.status = .waitingForRealmList

/-- A step that changes neither the status nor adds a query. -/
theorem stepOk_of_quiet (hi : s'.core.Inv) (hs : s'.status = s.status) (hq : ∀ q ∈ s'.queries, q ∈ s.queries) :
    StepOk e s s' :=
  ⟨hi, fun h hn => absurd (hs.symm.trans h) hn, fun _ h hn => absurd (hq _ h) hn, fun h => .inr (hs.symm.trans h)⟩

theorem mem_answered {q' : Query} (h : q' ∈ (s.answered q).queries) : q' ∈ s.queries := List.mem_of_mem_erase h

/-- A callback that does not authenticate. -/
theorem stepOk_of_callback (hi : s.core.Inv) (hq : q = .logon login ∨ q = .reconnect login) (hmem : q ∈ s.queries)
    (h : (s.answered q).status = .closed → (s.answered q).core.pending = [] →
      ((s.answered q).s = 0 ∧ (s.answered q).v = 0 ∧ (s.answered q).K = 0) → CallbackOk (s.answered q) s') :
    StepOk e s s' := by
  obtain ⟨hs, hp, hl⟩ := hi.of_challenge hq hmem
  have hok := h hs hp (hi.1 hl)
  refine ⟨hok.inv, fun h => absurd h hok.status.1, fun account h hn => ?_, fun h => absurd h hok.status.2⟩
  rw [hok.queries] at h
  exact absurd (mem_answered h) hn

theorem stepOk (cfg : Config) (hi : s.core.Inv) (he : Allowed e s) (h : step cfg e s = some s') : StepOk e s s' := by
  cases e with
  | read chunk =>
    obtain ⟨b, -, rfl⟩ := Option.map_eq_some_iff.1 h
    exact stepOk_of_quiet (s := s) hi rfl fun _ h => h
  | round amb =>
    have hok := (@roundOk_round _ amb) hi h
    exact ⟨hok.inv, fun h hn => .inl ⟨amb, rfl, hok.authed h hn⟩, hok.realmList, hok.waiting⟩
  | ipInfo banned =>
    have hc : s'.core = (s.answered .ipInfo).core := by
      simp only [step, checkIpCallback] at h
      split at h
      · cases h; exact core_sendPacket _
      · exact core_asyncRead h
    refine stepOk_of_quiet (hc ▸ inv_ipInfo hi) (congrArg Core.status hc) fun q hq => ?_
    rw [show s'.queries = (s.answered .ipInfo).queries from congrArg Core.queries hc] at hq
    exact mem_answered hq
  | logon login result salt b =>
    cases h
    exact stepOk_of_callback hi (.inl rfl) he.1 fun hs hp h0 => callbackOk_logon hs hp h0
  | reconnect login result challenge =>
    cases h
    exact stepOk_of_callback hi (.inr rfl) he.1 fun hs hp h0 => callbackOk_reconnect hs hp h0
  | realmList account realms realmListSize =>
    obtain ⟨hs, hp⟩ := hi.of_realmList he.1
    obtain ⟨hi', hq, ha⟩ := inv_realmListCallback (s := s.answered (.realmList account)) hi.1 hp h
    refine ⟨hi', fun _ _ => .inr ⟨account, realms, realmListSize, rfl, hs⟩, fun account' h hn => ?_, fun _ => .inr hs⟩
    rw [hq] at h
    exact absurd (mem_answered h) hn
  | closeSocket =>
    cases h
    exact stepOk_of_quiet (s := s) hi rfl fun _ h => h

theorem inv_start : start.core.Inv := ⟨fun _ => ⟨rfl, rfl, rfl⟩, rfl, rfl⟩

theorem reached_inv (cfg : Config) (hr : Reaches (step cfg) Allowed start s) : s.core.Inv :=
  hr.invariant (fun s => s.core.Inv) (fun _ _ _ hi he hs => (stepOk cfg hi he hs).inv) inv_start

/-- **Authentication only through a verified proof.** Whatever the client sends, however it is
cut and whenever the queries are answered: a session becomes authenticated only in a round that
accepts a proof that fits the account loaded for the session, or when the realm list asked for by
an authenticated session is sent; the realm list is asked for only when authenticated; and a
session that is authenticated or has asked for the realm list has passed such a round. -/
theorem authed_only_by_proof (cfg : Config) (hr : Reaches (step cfg) Allowed start s) :
    (∀ e s', Allowed e s → step cfg e s = some s' →
      (s'.status = .authed → s.status ≠ .authed → (∃ amb, e = .round amb ∧ ProofAccepted amb s) ∨
        (∃ account realms realmListSize, e = .realmList account realms realmListSize ∧
          s.status = .waitingForRealmList)) ∧
      (∀ account, .realmList account ∈ s'.queries → .realmList account ∉ s.queries → s.status = .authed) ∧
      (∀ account realms realmListSize, e = .realmList account realms realmListSize →
        s.status = .waitingForRealmList)) ∧
    (s.status = .authed ∨ s.status = .waitingForRealmList →
      ∃ s₀ s₁ amb, Reaches (step cfg) Allowed start s₀ ∧ ProofAccepted amb s₀ ∧ Allowed (.round amb) s₀ ∧
        step cfg (.round amb) s₀ = some s₁ ∧ s₁.status = .authed ∧ Reaches (step cfg) Allowed s₁ s) := by
  refine ⟨fun e s' he hs => ?_, ?_⟩
  · have hi := reached_inv cfg hr
    have hok := stepOk cfg hi he hs
    refine ⟨hok.authed, hok.realmList, fun account realms n heq => ?_⟩
    subst heq
    exact (hi.of_realmList he.1).1
  induction hr with
  | refl => exact fun h => by rcases h with h | h <;> cases h
  | @tail s s' e hr he hs ih =>
    have hok := stepOk cfg (reached_inv cfg hr) he hs
    intro h
    by_cases hbefore : s.status = .authed ∨ s.status = .waitingForRealmList
    · obtain ⟨s₀, s₁, amb, hr₀, hp, ha, hs₁, hst, hr₁⟩ := ih hbefore
      exact ⟨s₀, s₁, amb, hr₀, hp, ha, hs₁, hst, .tail e hr₁ he hs⟩
    · have hst : s'.status = .authed := h.resolve_right fun hw => hbefore (hok.waiting hw)
      rcases hok.authed hst (fun ha => hbefore (.inl ha)) with ⟨amb, rfl, hp⟩ | ⟨_, _, _, -, hw⟩
      · exact ⟨s, s', amb, hr, hp, he, hs, hst, .refl⟩
      · exact absurd (.inr hw) hbefore

/-! ## A login -/

def lenient : Config := ⟨false, 0, [], []⟩

/-- An account without salt and verifier in the database. -/
def rowA : LogonRow where
  account := { AccountInfo.empty with id := 1, login := [0x41] }
  tokenKey := []
  shaPassHash := List.replicate 40 0x37
  v := []
  s := []

def quietMemory : Ambient := ⟨fun _ => 0, fun _ => 0⟩

/-- The challenge of an account of one letter, from a Windows client. -/
def challengeBytes : Bytes :=
  [AUTH_LOGON_CHALLENGE, 0] ++ leBytes 2 31 ++ [0x57, 0x6F, 0x57, 0] ++ [3, 3, 5] ++ leBytes 2 12340 ++
    [0x36, 0x38, 0x78, 0] ++ [0x6E, 0x69, 0x57, 0] ++ [0x53, 0x55, 0x6E, 0x65] ++ leBytes 4 0 ++ leBytes 4 0 ++ [1, 0x41]

/-- The right proof for `A = g ^ 3`. -/
def proofBytes : Bytes :=
  [AUTH_LOGON_PROOF] ++ leBytes 32 343 ++ (asByteArray 20 (logonProofOf rowA (2 ^ 255 + 1) (2 ^ 151 + 1) 343)).take 20 ++
    zeros ++ [0, 0]

/-- From the connection to the accepted proof; the packets come in pieces. -/
def loginEvents : List Event :=
  [.ipInfo false, .read (challengeBytes.take 10), .round quietMemory, .read (challengeBytes.drop 10),
    .round quietMemory, .round quietMemory, .logon [0x41] (some rowA) (2 ^ 255 + 1) (2 ^ 151 + 1),
    .read proofBytes, .round quietMemory]

/-- The login, and the realm list after it. -/
theorem login_evaluated : (runSteps (allowed (step lenient) Allowed) loginEvents start).any (fun s => s.status = .authed &&
    (runSteps (allowed (step lenient) Allowed)
      [.round quietMemory, .read [REALM_LIST, 0, 0, 0, 0], .round quietMemory, .round quietMemory] s).any fun s =>
        s.status = .waitingForRealmList && Allowed (.realmList 1 [] 0) s &&
          (step lenient (.realmList 1 [] 0) s).any fun s' => s'.status = .authed) = true := by decide +kernel

theorem login_authed : ∃ s, runSteps (allowed (step lenient) Allowed) loginEvents start = some s ∧ s.status = .authed := by
  obtain ⟨s, hs, hall⟩ := (Option.any_eq_true _ _).1 login_evaluated
  exact ⟨s, hs, of_decide_eq_true (Bool.and_eq_true_iff.1 hall).1⟩

theorem authed_only_by_proof_login : ∃ s s₀ : AuthSession, s.status = .authed ∧
    Reaches (step lenient) Allowed start s ∧ Reaches (step lenient) Allowed start s₀ ∧
      ∃ amb, ProofAccepted amb s₀ := by
  obtain ⟨s, hs, hauthed⟩ := login_authed
  have hr : Reaches (step lenient) Allowed start s := .of_allowed (.of_runSteps hs)
  obtain ⟨s₀, -, amb, hr₀, hp, -⟩ := (authed_only_by_proof lenient hr).2 (.inl hauthed)
  exact ⟨s, s₀, hauthed, hr, hr₀, amb, hp⟩

/-- The answer to the realm list query makes the session authenticated again, without a proof. -/
theorem authed_by_realm_list : ∃ s s' : AuthSession, Reaches (step lenient) Allowed start s ∧
    Allowed (.realmList 1 [] 0) s ∧ step lenient (.realmList 1 [] 0) s = some s' ∧
    s.status = .waitingForRealmList ∧ s'.status = .authed := by
  obtain ⟨s₁, hs₁, hmore⟩ := (Option.any_eq_true _ _).1 login_evaluated
  obtain ⟨s, hs, hall⟩ := (Option.any_eq_true _ _).1 (Bool.and_eq_true_iff.1 hmore).2
  simp only [Bool.and_eq_true, decide_eq_true_eq] at hall
  obtain ⟨⟨hw, ha⟩, hstep⟩ := hall
  obtain ⟨s', hs', hauthed⟩ := (Option.any_eq_true _ _).1 hstep
  exact ⟨s, s', .trans (.of_allowed (.of_runSteps hs₁)) (.of_allowed (.of_runSteps hs)), ha, hs', hw, by simpa using hauthed⟩

end AtlasWow.Auth.AuthSession
