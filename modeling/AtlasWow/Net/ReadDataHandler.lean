/-
What a `WorldSocket` does with a packet (`ReadDataHandler`, `HandlePing`,
`HandleAuthSession`) and with the answer to the account query
(`HandleAuthSessionCallback`), as a handler of the framing.

The cipher, the digest, the databases and the clock are parameters.
-/
import AtlasWow.Net.ReadHandler
import AtlasWow.Net.ByteBuffer
import AtlasWow.Lib.StreamCipher

namespace AtlasWow.Net

def SMSG_PONG : Nat := 0x1DD
def SMSG_AUTH_RESPONSE : Nat := 0x1EE
def CMSG_PING : Nat := 0x1DC
def CMSG_AUTH_SESSION : Nat := 0x1ED
def CMSG_KEEP_ALIVE : Nat := 0x407

def AUTH_FAILED : Nat := 13
def AUTH_REJECT : Nat := 14
def AUTH_UNAVAILABLE : Nat := 16
def AUTH_UNKNOWN_ACCOUNT : Nat := 21
def AUTH_BANNED : Nat := 28
def REALM_LIST_REALM_NOT_FOUND : Nat := 39

/-- The content of `CMSG_AUTH_SESSION`. -/
structure AuthSession where
  build : Nat
  loginServerID : Nat
  account : Bytes
  loginServerType : Nat
  localChallenge : Nat
  regionID : Nat
  battlegroupID : Nat
  realmID : Nat
  dosResponse : Nat
  digest : Bytes
  addonInfo : Bytes

/-- What `HandleAuthSessionCallback` reads of an account, with session keys `κ`. -/
structure AccountInfo (κ : Type) where
  sessionKey : κ
  lastIP : String
  isLockedToIP : Bool
  lockCountry : String
  os : String
  security : Nat
  isBanned : Bool

/-- What stands outside the socket. -/
structure Environment (cipher : StreamCipher) (κ : Type) where
  /-- The key stream of `_clientDecrypt` after `AuthCrypt::Init`. -/
  clientDecrypt : κ → cipher.State
  /-- SHA-1 of the account name, a zero, the client's challenge, the server's and the session key. -/
  digest : Bytes → Nat → Nat → κ → Bytes
  accountByName : Bytes → Option (AccountInfo κ)
  hasOpcodeHandler : Nat → Bool
  skipsOverspeedPingCheck : Bool
  maxOverspeedPings : Nat
  worldClosed : Bool
  realmID : Nat
  wardenActive : Bool
  address : String
  ipCountry : String
  playerSecurityLimit : Nat

/-- What of the socket its handlers use. `session` are the packets queued by the `WorldSession`,
once there is one; `clock` is what `steady_clock::now` will answer. -/
structure Server (cipher : StreamCipher) where
  authSeed : Nat
  authCrypt : Option cipher.State
  lastPingTime : Nat
  overSpeedPings : Nat
  authed : Bool
  session : Option (List Packet)
  latency : Nat
  query : Option AuthSession
  sent : List Packet
  clock : List Nat

namespace Server

variable {cipher : StreamCipher} {κ : Type} (env : Environment cipher κ)

/-- `AuthCrypt::DecryptRecv`. -/
def decryptRecv (s : Server cipher) (data : Bytes) : Server cipher × Bytes :=
  match s.authCrypt with
  | none => (s, data)
  | some key => ({ s with authCrypt := some (StreamCipher.crypt key data).1 }, (StreamCipher.crypt key data).2)

def sendPacket (s : Server cipher) (packet : Packet) : Server cipher := { s with sent := s.sent ++ [packet] }

/-- `steady_clock::now()`. -/
def now (s : Server cipher) : Nat × Server cipher := (s.clock.headD 0, { s with clock := s.clock.tail })

/-- The overspeed check of `HandlePing`, with times in milliseconds: whether the client is kicked. -/
def checkPingSpeed (s : Server cipher) : Server cipher × Bool :=
  let (now, s) := s.now
  if s.lastPingTime = 0 then ({ s with lastPingTime := now }, false)
  else
    let diff := now - s.lastPingTime
    let s := { s with lastPingTime := now }
    if diff < 27000 then
      let s := { s with overSpeedPings := s.overSpeedPings + 1 }
      (s, env.maxOverspeedPings ≠ 0 && env.maxOverspeedPings < s.overSpeedPings && s.session.isSome &&
        !env.skipsOverspeedPingCheck)
    else ({ s with overSpeedPings := 0 }, false)

/-- `HandlePing`; a packet that is too short throws. -/
def handlePing (s : Server cipher) (recvPacket : ByteBuffer) : Option (Server cipher × Bool) := do
  let (ping, recvPacket) ← recvPacket.readUInt 4
  let (latency, _) ← recvPacket.readUInt 4
  let (s, kicked) := s.checkPingSpeed env
  if kicked then some (s, false)
  else if s.session.isSome then
    some ({ s with latency := latency }.sendPacket ⟨SMSG_PONG, leBytes 4 ping⟩, true)
  else some (s, false)

/-- `HandleAuthSession`; a packet that is too short throws. -/
def handleAuthSession (s : Server cipher) (recvPacket : ByteBuffer) : Option (Server cipher) := do
  let (build, recvPacket) ← recvPacket.readUInt 4
  let (loginServerID, recvPacket) ← recvPacket.readUInt 4
  let (account, recvPacket) := recvPacket.readString
  let (loginServerType, recvPacket) ← recvPacket.readUInt 4
  let (localChallenge, recvPacket) ← recvPacket.readUInt 4
  let (regionID, recvPacket) ← recvPacket.readUInt 4
  let (battlegroupID, recvPacket) ← recvPacket.readUInt 4
  let (realmID, recvPacket) ← recvPacket.readUInt 4
  let (dosResponse, recvPacket) ← recvPacket.readUInt 8
  let (digest, recvPacket) ← recvPacket.read 20
  some { s with query := some {
    build := build, loginServerID := loginServerID, account := account, loginServerType := loginServerType
    localChallenge := localChallenge, regionID := regionID, battlegroupID := battlegroupID, realmID := realmID
    dosResponse := dosResponse, digest := digest, addonInfo := recvPacket.rest } }

/-- Queue the packet at the session. -/
def queuePacket (s : Server cipher) (packet : Packet) : Server cipher × ReadDataHandlerResult :=
  match s.session with
  | none => (s, .error)
  | some queue =>
    if env.hasOpcodeHandler packet.opcode then ({ s with session := some (queue ++ [packet]) }, .ok) else (s, .error)

def readDataHandler (s : Server cipher) (packet : Packet) : Server cipher × ReadDataHandlerResult :=
  if packet.opcode = CMSG_PING then
    match s.handlePing env (.ofBytes packet.payload) with
    | some (s, true) => (s, .ok)
    | some (s, false) => (s, .error)
    | none => (s, .error)
  else if packet.opcode = CMSG_AUTH_SESSION then
    if s.authed then (s, .error)
    else
      match s.handleAuthSession (.ofBytes packet.payload) with
      | some s => (s, .waitingForQuery)
      | none => (s, .error)
  else if packet.opcode = CMSG_KEEP_ALIVE then (s, .ok)
  else s.queuePacket env packet

/-- `SendAuthResponseError`. -/
def sendAuthResponseError (s : Server cipher) (code : Nat) : Server cipher :=
  s.sendPacket ⟨SMSG_AUTH_RESPONSE, [.ofNat code]⟩

/-- Why `HandleAuthSessionCallback` turns an account down, if it does. -/
def authError (s : Server cipher) (authSession : AuthSession) (account : AccountInfo κ) : Option Nat :=
  if env.worldClosed then some AUTH_REJECT
  else if authSession.realmID ≠ env.realmID then some REALM_LIST_REALM_NOT_FOUND
  else if env.wardenActive && account.os ≠ "Win" && account.os ≠ "OSX" then some AUTH_REJECT
  else if env.digest authSession.account authSession.localChallenge s.authSeed account.sessionKey ≠ authSession.digest then
    some AUTH_FAILED
  else if account.isLockedToIP && account.lastIP ≠ env.address then some AUTH_FAILED
  else if !account.isLockedToIP && account.lockCountry ≠ "" && account.lockCountry ≠ "00" && env.ipCountry ≠ "" &&
      account.lockCountry ≠ env.ipCountry then some AUTH_FAILED
  else if account.isBanned then some AUTH_BANNED
  else if 0 < env.playerSecurityLimit && account.security < env.playerSecurityLimit then some AUTH_UNAVAILABLE
  else none

/-- `HandleAuthSessionCallback`; it answers whether reading goes on. -/
def handleAuthSessionCallback (s : Server cipher) : Server cipher × Bool :=
  match s.query with
  | none => (s, false)
  | some authSession =>
    let s := { s with query := none }
    match env.accountByName authSession.account with
    | none => (s.sendAuthResponseError AUTH_UNKNOWN_ACCOUNT, false)
    | some account =>
      let s := { s with authCrypt := some (env.clientDecrypt account.sessionKey) }
      match s.authError env authSession account with
      | some code => (s.sendAuthResponseError code, false)
      | none => ({ s with authed := true, session := some [] }, true)

/-- The handler of a `WorldSocket`. -/
def handler : Handler (Server cipher) where
  decryptRecv := decryptRecv
  length_decryptRecv s d := by
    unfold decryptRecv
    split <;> simp
  readDataHandler := readDataHandler env
  queryCallback := handleAuthSessionCallback env

end Server

/-! ## A login -/

/-- A world with one account, and a cipher whose key bytes count up. -/
def oneAccount : Environment .counter UInt8 where
  clientDecrypt := id
  digest _ _ _ _ := List.replicate 20 0
  accountByName name :=
    if name = [65] then some ⟨7, "127.0.0.1", false, "", "Win", 0, false⟩ else none
  hasOpcodeHandler _ := true
  skipsOverspeedPingCheck := false
  maxOverspeedPings := 2
  worldClosed := false
  realmID := 1
  wardenActive := false
  address := "127.0.0.1"
  ipCountry := ""
  playerSecurityLimit := 0

/-- A socket that has just been accepted. -/
def accepted : Server .counter := ⟨0, none, 0, 0, false, none, 0, none, [], []⟩

/-- `CMSG_AUTH_SESSION` of that account, for realm 1. -/
def authSessionBytes : Bytes :=
  [0x00, 0x3E, 0xED, 0x01, 0x00, 0x00] ++ leBytes 4 12340 ++ leBytes 4 0 ++ [65, 0] ++ leBytes 4 0 ++ leBytes 4 0 ++
    leBytes 4 0 ++ leBytes 4 0 ++ leBytes 4 1 ++ leBytes 8 0 ++ List.replicate 20 0

/-- `CMSG_KEEP_ALIVE` behind it, its header encrypted. -/
def keepAliveBytes : Bytes := (StreamCipher.crypt (c := .counter) (7 : UInt8) [0x00, 0x04, 0x07, 0x04, 0x00, 0x00]).2

open WorldSocket

end AtlasWow.Net
