/-
An `AuthSession` (`AuthSession.cpp`): the handlers of the client's packets and
the callbacks of the queries, and the steps they make up.

The loop of `ReadHandler` is taken round by round: from the completed read
until `AsyncRead` or the closing of the socket the session is `inHandler`, and
nothing but rounds happens. A read of the buffer gives what lies in memory
there, whether or not it has been received; `inBounds` records that all bytes
read so far, and all bytes declared read, had been received.
-/
import AtlasWow.Auth.Srp6
import AtlasWow.Auth.AuthCodes
import AtlasWow.Lib.Machine

namespace AtlasWow.Auth

open Net (Bytes MessageBuffer)
open BigNumber

inductive AuthStatus where
  | challenge | logonProof | reconnectProof | authed | waitingForRealmList | closed
deriving DecidableEq

/-- An account as `LoadResult` leaves it. -/
structure AccountInfo where
  id : Nat
  login : Bytes
  isLockedToIP : Bool
  lockCountry : Bytes
  lastIP : Bytes
  failedLogins : Nat
  isBanned : Bool
  isPermanenetlyBanned : Bool
deriving DecidableEq

def AccountInfo.empty : AccountInfo := ⟨0, [], false, [], [], 0, false, false⟩

/-- A row of the logon query. -/
structure LogonRow where
  account : AccountInfo
  tokenKey : Bytes
  shaPassHash : Bytes
  v : Bytes
  s : Bytes

/-- A row of the reconnect query. -/
structure ReconnectRow where
  account : AccountInfo
  sessionKey : Bytes

/-- What has been loaded for a session, with the random numbers drawn then. -/
inductive Loaded where
  | logon (row : LogonRow) (salt b : Nat)
  | reconnect (row : ReconnectRow) (challenge : Nat)

/-- The queries that are not answered. -/
inductive Query where
  | ipInfo
  | logon (login : Bytes)
  | reconnect (login : Bytes)
  | realmList (account : Nat)
deriving DecidableEq

structure Config where
  strictVersionCheck : Bool
  maxWrongPassCount : Nat
  ipAddress : Bytes
  /-- The country of the address, empty if it is not known. -/
  ipCountry : Bytes

/-- What a handler finds around it: the memory behind the read buffer, and the token of a key at the time. -/
structure Ambient where
  memory : Nat → UInt8
  generateToken : Bytes → Nat

/-- `loaded` and `inBounds` are not in the source. -/
structure AuthSession where
  s : Nat
  v : Nat
  b : Nat
  B : Nat
  K : Nat
  reconnectProof : Nat
  status : AuthStatus
  accountInfo : AccountInfo
  tokenKey : Bytes
  os : Bytes
  build : Nat
  expversion : ExpansionFlags
  readBuffer : MessageBuffer
  queries : List Query
  sent : List Bytes
  closed : Bool
  /-- `async_read_some` is under way. -/
  reading : Bool
  inHandler : Bool
  loaded : Option Loaded
  inBounds : Bool

def AUTH_LOGON_CHALLENGE : UInt8 := 0x00
def AUTH_LOGON_PROOF : UInt8 := 0x01
def AUTH_RECONNECT_CHALLENGE : UInt8 := 0x02
def AUTH_RECONNECT_PROOF : UInt8 := 0x03
def REALM_LIST : UInt8 := 0x10

/-! ## Sizes of the packets -/

/-- `sizeof(sAuthLogonChallenge_C)`. -/
def LOGON_CHALLENGE_SIZE : Nat := 35
/-- `sizeof(sAuthLogonProof_C)`. -/
def LOGON_PROOF_SIZE : Nat := 75
/-- `sizeof(sAuthReconnectProof_C)`. -/
def RECONNECT_PROOF_SIZE : Nat := 58
def MAX_ACCEPTED_CHALLENGE_SIZE : Nat := LOGON_CHALLENGE_SIZE + 16
def AUTH_LOGON_CHALLENGE_INITIAL_SIZE : Nat := 4
def REALM_LIST_PACKET_SIZE : Nat := 5

namespace AuthSession

/-- The constructor and `Start`. -/
def start : AuthSession where
  s := 0
  v := 0
  b := 0
  B := 0
  K := 0
  reconnectProof := 0
  status := .challenge
  accountInfo := .empty
  tokenKey := []
  os := []
  build := 0
  expversion := .noValid
  readBuffer := MessageBuffer.ofSize 4096
  queries := [.ipInfo]
  sent := []
  closed := false
  reading := false
  inHandler := false
  loaded := none
  inBounds := true

def closeSocket (s : AuthSession) : AuthSession := { s with closed := true, reading := false, inHandler := false }

def sendPacket (s : AuthSession) (packet : Bytes) : AuthSession :=
  if s.closed then s else { s with sent := s.sent ++ [packet] }

/-- `AsyncRead`. A read position ahead of the write position makes `Normalize` move nearly the whole memory. -/
def asyncRead (s : AuthSession) : Option AuthSession :=
  if s.closed then some { s with inHandler := false }
  else if s.readBuffer.rpos ≤ s.readBuffer.wpos then
    some { s with readBuffer := s.readBuffer.normalize.ensureFreeSpace, reading := true, inHandler := false }
  else none

/-! ## Reading the buffer -/

variable (cfg : Config) (amb : Ambient)

/-- The byte at a distance from the read pointer. -/
def byteAt (s : AuthSession) (i : Nat) : UInt8 :=
  match s.readBuffer.storage[s.readBuffer.rpos + i]? with
  | some b => b
  | none => amb.memory (s.readBuffer.rpos + i)

def bytesAt (s : AuthSession) (i n : Nat) : Bytes := (List.range n).map fun k => s.byteAt amb (i + k)

/-- The first `n` bytes behind the read pointer are looked at. -/
def touch (s : AuthSession) (n : Nat) : AuthSession :=
  { s with inBounds := s.inBounds && s.readBuffer.rpos + n ≤ s.readBuffer.wpos }

/-- `ReadCompleted`. -/
def readCompleted (s : AuthSession) (n : Nat) : AuthSession :=
  { s with
    readBuffer := s.readBuffer.readCompleted n
    inBounds := s.inBounds && s.readBuffer.rpos + n ≤ s.readBuffer.wpos }

/-! ## Handlers -/

/-- Both challenges; they differ in the query. The field `size` is compared as a `size_t`. -/
def handleChallenge (query : Bytes → Query) (s : AuthSession) : AuthSession × Bool :=
  let s := { s with status := .closed }.touch 34
  let size := leNat (s.bytesAt amb 2 2)
  let I_len := (s.byteAt amb 33).toNat
  if Net.sizeSub size (LOGON_CHALLENGE_SIZE - AUTH_LOGON_CHALLENGE_INITIAL_SIZE - 1) ≠ I_len then (s, false)
  else
    let s := s.touch (34 + I_len)
    let build := leNat (s.bytesAt amb 11 2)
    ({ s with
      build := build
      expversion := expansionOf build
      os := ((s.bytesAt amb 17 4).takeWhile (· ≠ 0)).reverse
      queries := s.queries ++ [query (s.bytesAt amb 34 I_len)] }, true)

def handleLogonChallenge (s : AuthSession) : AuthSession × Bool := s.handleChallenge amb .logon
def handleReconnectChallenge (s : AuthSession) : AuthSession × Bool := s.handleChallenge amb .reconnect

def verifyVersion (s : AuthSession) (a versionProof : Bytes) (isReconnect : Bool) : Bool :=
  if !cfg.strictVersionCheck then true
  else if isReconnect then versionProof = sha1 (a ++ zeros)
  else
    match getBuildInfo s.build with
    | none => false
    | some buildInfo =>
      let versionHash :=
        if s.os = [0x57, 0x69, 0x6E] then some buildInfo.windowsHash
        else if s.os = [0x4F, 0x53, 0x58] then some buildInfo.macHash
        else none
      match versionHash with
      | none => false
      -- not filled serverside
      | some versionHash => if versionHash = zeros then true else versionProof = sha1 (a ++ versionHash)

def isSpace (c : UInt8) : Bool := c = 0x20 || (0x09 ≤ c && c ≤ 0x0D)
def isDigit (c : UInt8) : Bool := 0x30 ≤ c && c ≤ 0x39

/-- `atoi`, as a `uint32`. -/
def atoi (str : Bytes) : Nat :=
  let str := str.dropWhile isSpace
  let negative := str.head? = some 0x2D
  let digits := if negative || str.head? = some 0x2B then str.tail else str
  let n := (digits.takeWhile isDigit).foldl (fun n c => n * 10 + (c.toNat - 0x30)) 0
  if negative then (2 ^ 32 - n % 2 ^ 32) % 2 ^ 32 else n % 2 ^ 32

/-- Whether the logon proof has to carry a token. -/
def needsToken (s : AuthSession) (securityFlags : UInt8) : Bool := securityFlags &&& 0x04 ≠ 0 || !s.tokenKey.isEmpty

/-- The token behind the logon proof: its length and its digits. -/
def checkToken (s : AuthSession) : AuthSession × Bool :=
  let s := s.touch (LOGON_PROOF_SIZE + 1)
  let size := (s.byteAt amb LOGON_PROOF_SIZE).toNat
  let s := s.touch (LOGON_PROOF_SIZE + 1 + size)
  let token := s.bytesAt amb (LOGON_PROOF_SIZE + 1) size
  let s := s.readCompleted (1 + size)
  let validToken := amb.generateToken s.tokenKey
  ({ s with tokenKey := [] }, validToken = atoi token)

/-- A wrong password; logging and bans are in the database. -/
def wrongPassword (s : AuthSession) : AuthSession :=
  let s := s.sendPacket [AUTH_LOGON_PROOF, WOW_FAIL_UNKNOWN_ACCOUNT, 0, 0]
  if 0 < cfg.maxWrongPassCount then
    { s with accountInfo := { s.accountInfo with failedLogins := s.accountInfo.failedLogins + 1 } }
  else s

/-- `sAuthLogonProof_S`, or `sAuthLogonProof_S_Old` for the first clients. -/
def logonProofPacket (expversion : ExpansionFlags) (M2 : Bytes) : Bytes :=
  match expversion with
  | .postBC => [AUTH_LOGON_PROOF, 0] ++ M2 ++ leBytes 4 0x00800000 ++ leBytes 4 0 ++ leBytes 2 0
  | _ => [AUTH_LOGON_PROOF, 0] ++ M2 ++ leBytes 4 0

/-- The client's public value and proof, in the packet. -/
def clientA (s : AuthSession) : Nat := setBinary (s.bytesAt amb 1 32)
def clientM1 (s : AuthSession) : Bytes := s.bytesAt amb 33 20

/-- Session key and proof as the session computes them. -/
def keyAndProof (s : AuthSession) (A : Nat) : Nat × Nat :=
  Srp6.keyAndProof s.accountInfo.login s.s s.v s.b s.B A

def handleLogonProof (s : AuthSession) : AuthSession × Bool :=
  let s := { s with status := .closed }
  if s.expversion = .noValid then (s, false)
  else
    let s := s.touch LOGON_PROOF_SIZE
    let A := s.clientA amb
    if A % Srp6.N = 0 then (s, false)
    else
      let (K, M) := s.keyAndProof A
      let s := { s with K := K }
      let crc_hash := s.bytesAt amb 53 20
      if (asByteArray 20 M).take 20 = s.clientM1 amb then
        let a := s.bytesAt amb 1 32
        let (s, valid) := if s.needsToken (s.byteAt amb 74) then s.checkToken amb else (s, true)
        if !valid then (s.sendPacket [AUTH_LOGON_PROOF, WOW_FAIL_UNKNOWN_ACCOUNT, 0, 0], true)
        else if !s.verifyVersion cfg a crc_hash false then
          (s.sendPacket [AUTH_LOGON_PROOF, WOW_FAIL_VERSION_INVALID], true)
        else
          let s := s.sendPacket (logonProofPacket s.expversion (Srp6.serverProof A M K))
          ({ s with status := .authed }, true)
      else (s.wrongPassword cfg, true)

/-- The digest a client has to send to reconnect. -/
def reconnectDigest (login : Bytes) (R1 challenge K : Nat) : Bytes :=
  sha1 (login ++ hashed R1 ++ hashed challenge ++ hashed K)

def clientR1 (s : AuthSession) : Bytes := s.bytesAt amb 1 16
def clientR2 (s : AuthSession) : Bytes := s.bytesAt amb 17 20

def handleReconnectProof (s : AuthSession) : AuthSession × Bool :=
  let s := { s with status := .closed }
  if s.accountInfo.login.isEmpty || numBytes s.reconnectProof = 0 || numBytes s.K = 0 then (s, false)
  else
    let s := s.touch (RECONNECT_PROOF_SIZE - 1)
    if reconnectDigest s.accountInfo.login (setBinary (s.clientR1 amb)) s.reconnectProof s.K = s.clientR2 amb then
      if !s.verifyVersion cfg (s.clientR1 amb) (s.bytesAt amb 37 20) true then
        (s.sendPacket [AUTH_RECONNECT_PROOF, WOW_FAIL_VERSION_INVALID], true)
      else
        let s := s.sendPacket [AUTH_RECONNECT_PROOF, WOW_SUCCESS, 0, 0]
        ({ s with status := .authed }, true)
    else (s, false)

def handleRealmList (s : AuthSession) : AuthSession × Bool :=
  ({ s with queries := s.queries ++ [.realmList s.accountInfo.id], status := .waitingForRealmList }, true)

structure AuthHandler where
  status : AuthStatus
  packetSize : Nat
  handler : Config → Ambient → AuthSession → AuthSession × Bool

/-- `InitHandlers`. -/
def handlers (cmd : UInt8) : Option AuthHandler :=
  if cmd = AUTH_LOGON_CHALLENGE then
    some ⟨.challenge, AUTH_LOGON_CHALLENGE_INITIAL_SIZE, fun _ amb s => s.handleLogonChallenge amb⟩
  else if cmd = AUTH_LOGON_PROOF then some ⟨.logonProof, LOGON_PROOF_SIZE, fun cfg amb s => s.handleLogonProof cfg amb⟩
  else if cmd = AUTH_RECONNECT_CHALLENGE then
    some ⟨.challenge, AUTH_LOGON_CHALLENGE_INITIAL_SIZE, fun _ amb s => s.handleReconnectChallenge amb⟩
  else if cmd = AUTH_RECONNECT_PROOF then
    some ⟨.reconnectProof, RECONNECT_PROOF_SIZE, fun cfg amb s => s.handleReconnectProof cfg amb⟩
  else if cmd = REALM_LIST then some ⟨.authed, REALM_LIST_PACKET_SIZE, fun _ _ s => s.handleRealmList⟩
  else none

def isChallenge (cmd : UInt8) : Bool := cmd = AUTH_LOGON_CHALLENGE || cmd = AUTH_RECONNECT_CHALLENGE

/-- The size of the packet at the read pointer, a `uint16`. -/
def sizeOf (s : AuthSession) (cmd : UInt8) (h : AuthHandler) : Nat :=
  if isChallenge cmd then (h.packetSize + leNat (s.bytesAt amb 2 2)) % 2 ^ 16 else h.packetSize

/-- One round of the loop of `ReadHandler`. -/
def round (s : AuthSession) : Option AuthSession :=
  if s.readBuffer.getActiveSize = 0 then s.asyncRead
  else
    let s := s.touch 1
    let cmd := s.byteAt amb 0
    match handlers cmd with
    -- well we dont handle this, lets just ignore it
    | none => { s with readBuffer := s.readBuffer.reset }.asyncRead
    | some h =>
      if s.status ≠ h.status then some s.closeSocket
      else if s.readBuffer.getActiveSize < h.packetSize then s.asyncRead
      else
        let s := if isChallenge cmd then s.touch AUTH_LOGON_CHALLENGE_INITIAL_SIZE else s
        let size := s.sizeOf amb cmd h
        if isChallenge cmd && MAX_ACCEPTED_CHALLENGE_SIZE < size then some s.closeSocket
        else if s.readBuffer.getActiveSize < size then s.asyncRead
        else
          let (s, ok) := h.handler cfg amb s
          if ok then some (s.readCompleted size) else some s.closeSocket

/-! ## Callbacks -/

/-- `CheckIpCallback`. -/
def checkIpCallback (s : AuthSession) (banned : Bool) : Option AuthSession :=
  if banned then some (s.sendPacket [AUTH_LOGON_CHALLENGE, 0, WOW_FAIL_BANNED]) else s.asyncRead

/-- Why `LogonChallengeCallback` turns an account down, if it does. -/
def logonError (account : AccountInfo) : Option UInt8 :=
  if account.isLockedToIP && account.lastIP ≠ cfg.ipAddress then some WOW_FAIL_LOCKED_ENFORCED
  else if !account.isLockedToIP && !account.lockCountry.isEmpty && account.lockCountry ≠ [0x30, 0x30] &&
      !cfg.ipCountry.isEmpty && cfg.ipCountry ≠ account.lockCountry then some WOW_FAIL_UNLOCKABLE_LOCK
  else if account.isBanned then
    if account.isPermanenetlyBanned then some WOW_FAIL_BANNED else some WOW_FAIL_SUSPENDED
  else none

/-- Salt and verifier: those of the database, or new ones from the password hash. -/
def saltAndVerifier (row : LogonRow) (salt s v : Nat) : Nat × Nat :=
  if row.v.length ≠ 64 || row.s.length ≠ 64 then (salt, Srp6.verifier row.shaPassHash salt)
  else (setHexStr s row.s, setHexStr v row.v)

def VersionChallenge : Bytes :=
  [0xBA, 0xA3, 0x1E, 0x99, 0xA0, 0x0B, 0x21, 0x57, 0xFC, 0x37, 0x3F, 0xB3, 0x69, 0xCD, 0xD2, 0xF1]

/-- What `LogonChallengeCallback` sets up for an account it does not turn down. -/
def loadLogon (s : AuthSession) (row : LogonRow) (salt b : Nat) : AuthSession :=
  let (salt', v) := saltAndVerifier row salt s.s s.v
  { s with
    s := salt'
    v := v
    b := b
    B := Srp6.serverPublic v b
    status := if isAcceptedClientBuild s.build then .logonProof else s.status
    tokenKey := row.tokenKey
    loaded := some (.logon row salt b) }

/-- The packet that goes with it. -/
def logonChallengePacket (s : AuthSession) : Bytes :=
  let securityFlags : UInt8 := if s.tokenKey.isEmpty then 0 else 4
  [AUTH_LOGON_CHALLENGE, 0, if isAcceptedClientBuild s.build then WOW_SUCCESS else WOW_FAIL_VERSION_INVALID] ++
    -- B may be calculated < 32B so we force minimal length to 32B
    (asByteArray 32 s.B).take 32 ++ [1] ++ (asByteArray 1 Srp6.g).take 1 ++ [32] ++ (asByteArray 32 Srp6.N).take 32 ++
    (asByteArray 32 s.s).take 32 ++ VersionChallenge ++ [securityFlags] ++
    if securityFlags &&& 0x04 ≠ 0 then [1] else []

/-- `LogonChallengeCallback`; `salt` and `b` are the random numbers it may draw. -/
def logonChallengeCallback (s : AuthSession) (result : Option LogonRow) (salt b : Nat) : AuthSession :=
  match result with
  | none => s.sendPacket [AUTH_LOGON_CHALLENGE, 0, WOW_FAIL_UNKNOWN_ACCOUNT]
  | some row =>
    let s := { s with accountInfo := row.account }
    match logonError cfg row.account with
    | some code => s.sendPacket [AUTH_LOGON_CHALLENGE, 0, code]
    | none =>
      let s := s.loadLogon row salt b
      s.sendPacket s.logonChallengePacket

/-- `ReconnectChallengeCallback`; `challenge` is the random number it may draw. -/
def reconnectChallengeCallback (s : AuthSession) (result : Option ReconnectRow) (challenge : Nat) : AuthSession :=
  match result with
  | none => s.sendPacket [AUTH_RECONNECT_CHALLENGE, WOW_FAIL_UNKNOWN_ACCOUNT]
  | some row =>
    let s := { s with
      accountInfo := row.account
      K := setHexStr s.K row.sessionKey
      reconnectProof := challenge
      status := .reconnectProof
      loaded := some (.reconnect row challenge) }
    s.sendPacket ([AUTH_RECONNECT_CHALLENGE, WOW_SUCCESS] ++ (asByteArray 16 challenge).take 16 ++ VersionChallenge)

/-- `RealmListCallback`, with the entries of the realms for this client. The packet is
copied into a buffer of 4096 bytes. -/
def realmListCallback (s : AuthSession) (realms : Bytes) (realmListSize : Nat) : Option AuthSession :=
  let pkt := realms ++ if s.expversion = .postBC then [0x10, 0x00] else [0x00, 0x02]
  let sizeBuffer := leBytes 4 0 ++ if s.expversion = .postBC then leBytes 2 realmListSize else leBytes 4 realmListSize
  let hdr := [REALM_LIST] ++ leBytes 2 (pkt.length + sizeBuffer.length) ++ sizeBuffer ++ pkt
  if hdr.length ≤ 4096 then some { s.sendPacket hdr with status := .authed } else none

/-! ## Steps -/

inductive Event where
  /-- A read completes. -/
  | read (chunk : Bytes)
  /-- A round of the loop of `ReadHandler`. -/
  | round (amb : Ambient)
  | ipInfo (banned : Bool)
  | logon (login : Bytes) (result : Option LogonRow) (salt b : Nat)
  | reconnect (login : Bytes) (result : Option ReconnectRow) (challenge : Nat)
  | realmList (account : Nat) (realms : Bytes) (realmListSize : Nat)
  | closeSocket

/-- A callback comes for a query that is not answered, while the socket is open and no handler runs. -/
def Ready (s : AuthSession) (q : Query) : Prop := q ∈ s.queries ∧ s.closed = false ∧ s.inHandler = false

instance (s : AuthSession) (q : Query) : Decidable (s.Ready q) :=
  inferInstanceAs (Decidable (q ∈ s.queries ∧ s.closed = false ∧ s.inHandler = false))

def Allowed (e : Event) (s : AuthSession) : Prop :=
  match e with
  | .read chunk => s.reading = true ∧ s.inHandler = false ∧ chunk ≠ [] ∧ chunk.length ≤ s.readBuffer.getRemainingSpace
  | .round _ => s.inHandler = true
  | .ipInfo _ => s.Ready .ipInfo
  | .logon login _ _ _ => s.Ready (.logon login)
  | .reconnect login _ _ => s.Ready (.reconnect login)
  | .realmList account _ _ => s.Ready (.realmList account)
  | .closeSocket => s.inHandler = false

instance (e : Event) (s : AuthSession) : Decidable (Allowed e s) := by
  cases e <;> unfold Allowed <;> infer_instance

def answered (s : AuthSession) (q : Query) : AuthSession := { s with queries := s.queries.erase q }

def step (e : Event) (s : AuthSession) : Option AuthSession :=
  match e with
  | .read chunk => (s.readBuffer.copyIn chunk).map fun readBuffer =>
      { s with readBuffer := readBuffer.writeCompleted chunk.length, reading := false, inHandler := true }
  | .round amb => s.round cfg amb
  | .ipInfo banned => (s.answered .ipInfo).checkIpCallback banned
  | .logon login result salt b => some ((s.answered (.logon login)).logonChallengeCallback cfg result salt b)
  | .reconnect login result challenge =>
    some ((s.answered (.reconnect login)).reconnectChallengeCallback result challenge)
  | .realmList account realms realmListSize =>
    (s.answered (.realmList account)).realmListCallback realms realmListSize
  | .closeSocket => some s.closeSocket

end AuthSession

end AtlasWow.Auth
