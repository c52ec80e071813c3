/-
The client builds the authserver knows (`AuthCodes.cpp`).
-/
import AtlasWow.Net.MessageBuffer

namespace AtlasWow.Auth

open Net (Bytes)

structure RealmBuildInfo where
  build : Nat
  windowsHash : Bytes
  macHash : Bytes

def zeros : Bytes := List.replicate 20 0

/-- A build whose hashes are not filled in. -/
def plainBuild (build : Nat) : RealmBuildInfo := ⟨build, zeros, zeros⟩

def postBcAcceptedClientBuilds : List RealmBuildInfo :=
  [plainBuild 15595, plainBuild 14545, plainBuild 13623, plainBuild 13930,
    { build := 12340
      windowsHash := [0xCD, 0xCB, 0xBD, 0x51, 0x88, 0x31, 0x5E, 0x6B, 0x4D, 0x19, 0x44, 0x9D, 0x49, 0x2D, 0xBC, 0xFA,
        0xF1, 0x56, 0xA3, 0x47]
      macHash := [0xB7, 0x06, 0xD1, 0x3F, 0xF2, 0xF4, 0x01, 0x88, 0x39, 0x72, 0x94, 0x61, 0xE3, 0xF8, 0xA0, 0xE2,
        0xB5, 0xFD, 0xC0, 0x34] },
    plainBuild 11723, plainBuild 11403, plainBuild 11159, plainBuild 10505, plainBuild 9947,
    { build := 8606
      windowsHash := [0x31, 0x9A, 0xFA, 0xA3, 0xF2, 0x55, 0x96, 0x82, 0xF9, 0xFF, 0x65, 0x8B, 0xE0, 0x14, 0x56, 0x25,
        0x5F, 0x45, 0x6F, 0xB1]
      macHash := zeros }]

def preBcAcceptedClientBuilds : List RealmBuildInfo :=
  [plainBuild 6141, plainBuild 6005,
    { build := 5875
      windowsHash := zeros
      macHash := [0x8D, 0x17, 0x3C, 0xC3, 0x81, 0x96, 0x1E, 0xEB, 0xAB, 0xF3, 0x36, 0xF5, 0xE6, 0x67, 0x5B, 0x10,
        0x1B, 0xB5, 0x13, 0xE5] }]

def isPreBCAcceptedClientBuild (build : Nat) : Bool := preBcAcceptedClientBuilds.any (·.build = build)
def isPostBCAcceptedClientBuild (build : Nat) : Bool := postBcAcceptedClientBuilds.any (·.build = build)
def isAcceptedClientBuild (build : Nat) : Bool := isPostBCAcceptedClientBuild build || isPreBCAcceptedClientBuild build

def getBuildInfo (build : Nat) : Option RealmBuildInfo :=
  (postBcAcceptedClientBuilds ++ preBcAcceptedClientBuilds).find? (·.build = build)

/-- `ExpansionFlags`. -/
inductive ExpansionFlags where
  | noValid | preBC | postBC
deriving DecidableEq

def expansionOf (build : Nat) : ExpansionFlags :=
  if isPostBCAcceptedClientBuild build then .postBC
  else if isPreBCAcceptedClientBuild build then .preBC
  else .noValid

/-! ## Results -/

def WOW_SUCCESS : UInt8 := 0x00
def WOW_FAIL_BANNED : UInt8 := 0x03
def WOW_FAIL_UNKNOWN_ACCOUNT : UInt8 := 0x04
def WOW_FAIL_VERSION_INVALID : UInt8 := 0x09
def WOW_FAIL_SUSPENDED : UInt8 := 0x0C
def WOW_FAIL_LOCKED_ENFORCED : UInt8 := 0x10
def WOW_FAIL_UNLOCKABLE_LOCK : UInt8 := 0x19

end AtlasWow.Auth
