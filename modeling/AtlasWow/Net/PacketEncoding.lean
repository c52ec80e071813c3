/-
The stream of packets to the client, said without buffers: each packet's
`ServerPktHeader` (`ServerPktHeader.h`), encrypted when the packet is marked
for it, followed by the payload (`encode`). The size in a header is read back
by `decodeHeader`.
-/
import AtlasWow.Net.MessageBuffer
import AtlasWow.Lib.StreamCipher
import AtlasWow.Lib.LittleEndian

namespace AtlasWow.Net

/-- `size` is the length of the payload plus the length of the opcode. -/
structure ServerPktHeader where
  size : Nat
  cmd : Nat

namespace ServerPktHeader

/-- The arguments are a `uint32` and a `uint16`. -/
def mk' (size cmd : Nat) : ServerPktHeader := ⟨size % 2 ^ 32, cmd % 2 ^ 16⟩

def isLargePacket (h : ServerPktHeader) : Bool := 0x7FFF < h.size

/-- The bytes of `header` that are set. -/
def header (h : ServerPktHeader) : Bytes :=
  (if h.isLargePacket then [0x80 ||| .ofNat (h.size / 2 ^ 16)] else []) ++
    [.ofNat (h.size / 2 ^ 8), .ofNat h.size] ++ leBytes 2 h.cmd

def getHeaderLength (h : ServerPktHeader) : Nat := 2 + if h.isLargePacket then 3 else 2

@[simp] theorem length_header (h : ServerPktHeader) : h.header.length = h.getHeaderLength := by
  unfold header getHeaderLength
  split <;> simp

/-- How a client reads a header off a stream: the first bit tells whether the size has three bytes. -/
def decodeHeader : Bytes → Option (Nat × Nat × Bytes)
  | b₀ :: b₁ :: bs =>
    if b₀.toNat < 0x80 then
      match bs with
      | c₀ :: c₁ :: rest => some (b₀.toNat * 2 ^ 8 + b₁.toNat, leNat [c₀, c₁], rest)
      | _ => none
    else
      match bs with
      | b₂ :: c₀ :: c₁ :: rest =>
        some ((b₀.toNat - 0x80) * 2 ^ 16 + b₁.toNat * 2 ^ 8 + b₂.toNat, leNat [c₀, c₁], rest)
      | _ => none
  | _ => none

/-- The largest size with a three byte form. -/
def MAX_SIZE : Nat := 0x7FFFFF

theorem toNat_high (n : Nat) (hn : n < 0x80) : ((0x80 : UInt8) ||| .ofNat n).toNat = 0x80 + n := by
  rw [UInt8.toNat_or, UInt8.toNat_ofNat', Nat.mod_eq_of_lt (by omega)]
  exact (Nat.two_pow_add_eq_or_of_lt (i := 7) hn 1).symm

/-- **Both forms of the size are read back**, and the command with it. -/
theorem decodeHeader_header {size cmd : Nat} (hs : size ≤ MAX_SIZE) (hc : cmd < 2 ^ 16) (rest : Bytes) :
    decodeHeader ((mk' size cmd).header ++ rest) = some (size, cmd, rest) := by
  have hcmd : leNat (leBytes 2 cmd) = cmd := leNat_leBytes hc
  have hsize : (mk' size cmd).size = size := Nat.mod_eq_of_lt (by unfold MAX_SIZE at hs; omega)
  have hcmd' : (mk' size cmd).cmd = cmd := Nat.mod_eq_of_lt hc
  unfold MAX_SIZE at hs
  simp only [header, isLargePacket, hsize, hcmd']
  split
  next hl =>
    have hl : 0x7FFF < size := by simpa using hl
    simp only [leBytes, List.cons_append, List.nil_append, decodeHeader]
    rw [toNat_high _ (by omega), if_neg (by omega)]
    simp only [Option.some.injEq, Prod.mk.injEq, and_true]
    refine ⟨?_, hcmd⟩
    simp only [UInt8.toNat_ofNat']
    omega
  next hl =>
  have hl : size ≤ 0x7FFF := by simpa using hl
  simp only [leBytes, List.cons_append, List.nil_append, decodeHeader]
  rw [if_pos (by rw [UInt8.toNat_ofNat']; omega)]
  simp only [Option.some.injEq, Prod.mk.injEq, and_true]
  refine ⟨?_, hcmd⟩
  simp only [UInt8.toNat_ofNat']
  omega

end ServerPktHeader

/-- A packet in the queue of `SendPacket`. -/
structure EncryptablePacket where
  opcode : Nat
  contents : Bytes
  encrypt : Bool

/-- The constructor call of `Update`. -/
def EncryptablePacket.header (p : EncryptablePacket) : ServerPktHeader := .mk' (p.contents.length + 2) p.opcode

section Encode

variable {c : StreamCipher}

/-- `AuthCrypt::EncryptSend`: nothing is done before the cipher is initialized. -/
def encryptSend (key : Option c.State) (data : Bytes) : Option c.State × Bytes :=
  match key with
  | none => (none, data)
  | some s => (some (StreamCipher.crypt s data).1, (StreamCipher.crypt s data).2)

/-- The header of one packet, as it is sent. -/
def encodeHeader (key : Option c.State) (p : EncryptablePacket) : Option c.State × Bytes :=
  if p.encrypt then encryptSend key p.header.header else (key, p.header.header)

/-- The bytes of a sequence of packets, and the cipher behind them. -/
def encode (key : Option c.State) : List EncryptablePacket → Option c.State × Bytes
  | [] => (key, [])
  | p :: ps =>
    let (key, header) := encodeHeader key p
    let (key, bytes) := encode key ps
    (key, header ++ p.contents ++ bytes)

variable {key : Option c.State}

@[simp] theorem length_encodeHeader (p : EncryptablePacket) :
    (encodeHeader key p).2.length = p.header.getHeaderLength := by
  unfold encodeHeader encryptSend
  split
  · split <;> simp
  · simp

theorem encode_append : ∀ (xs ys : List EncryptablePacket) (key : Option c.State),
    encode key (xs ++ ys) = ((encode (encode key xs).1 ys).1, (encode key xs).2 ++ (encode (encode key xs).1 ys).2)
  | [], _, _ => rfl
  | x :: xs, ys, key => by simp [encode, encode_append xs ys]

theorem isSome_encode : ∀ (ps : List EncryptablePacket) (key : Option c.State),
    (encode key ps).1.isSome = key.isSome
  | [], _ => rfl
  | p :: ps, key => by
    simp only [encode, isSome_encode ps]
    unfold encodeHeader encryptSend
    split
    · split <;> rfl
    · rfl

/-- Packets that are not marked do not use the cipher. -/
theorem encode_unmarked : ∀ {ps : List EncryptablePacket}, (∀ p ∈ ps, p.encrypt = false) →
    ∀ key : Option c.State, encode key ps = (key, (encode (none : Option c.State) ps).2)
  | [], _, _ => rfl
  | p :: ps, h, key => by
    have hp := h p List.mem_cons_self
    have ih := (@encode_unmarked ps) (fun q hq => h q (List.mem_cons_of_mem _ hq))
    simp only [encode, encodeHeader, hp, Bool.false_eq_true, if_false, ih key]

end Encode

end AtlasWow.Net
