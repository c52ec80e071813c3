/-
The framing of the client's packets, said of the byte stream alone: how a
stream is parsed at once (`parseStream`), and the machine that takes it byte
by byte (`framing`). The two agree (`runAll_framing`).

What is done with a header and a packet is a `Handler`; it may make the parser
wait for a query, or stop it for good.
-/
import AtlasWow.Net.MessageBuffer
import AtlasWow.Lib.StreamMachine

namespace AtlasWow.Net

/-- What is passed on for one packet. -/
structure Packet where
  opcode : Nat
  payload : Bytes
deriving DecidableEq

inductive ReadDataHandlerResult where
  | ok | error | waitingForQuery
deriving DecidableEq

/-- The part of the socket behind the framing, with state `η`. -/
structure Handler (η : Type) where
  decryptRecv : η → Bytes → η × Bytes
  length_decryptRecv : ∀ s d, (decryptRecv s d).2.length = d.length
  readDataHandler : η → Packet → η × ReadDataHandlerResult
  /-- The query has been answered; the answer tells whether reading goes on. -/
  queryCallback : η → η × Bool

/-! ## Headers -/

def byteAt (d : Bytes) (i : Nat) : Nat := (d.getD i 0).toNat

/-- `ClientPktHeader`, in host byte order. -/
structure ClientPktHeader where
  size : Nat
  cmd : Nat

def NUM_OPCODE_HANDLERS : Nat := 0x51F

namespace ClientPktHeader

/-- `sizeof(ClientPktHeader)`. -/
def length : Nat := 6

def isValidSize (h : ClientPktHeader) : Bool := 4 ≤ h.size && h.size < 10240
def isValidOpcode (h : ClientPktHeader) : Bool := h.cmd < NUM_OPCODE_HANDLERS

/-- The size is sent big-endian, the command little-endian. -/
def ofWire (d : Bytes) : ClientPktHeader where
  size := byteAt d 0 * 2 ^ 8 + byteAt d 1
  cmd := byteAt d 2 + byteAt d 3 * 2 ^ 8 + byteAt d 4 * 2 ^ 16 + byteAt d 5 * 2 ^ 24

/-- The header as it lies in the memory of a little-endian host. -/
def toMemory (h : ClientPktHeader) : Bytes :=
  [.ofNat h.size, .ofNat (h.size / 2 ^ 8), .ofNat h.cmd, .ofNat (h.cmd / 2 ^ 8), .ofNat (h.cmd / 2 ^ 16),
    .ofNat (h.cmd / 2 ^ 24)]

/-- `header->cmd`, read from that memory. -/
def cmdOfMemory (d : Bytes) : Nat :=
  byteAt d 2 + byteAt d 3 * 2 ^ 8 + byteAt d 4 * 2 ^ 16 + byteAt d 5 * 2 ^ 24

theorem cmdOfMemory_toMemory (h : ClientPktHeader) (hc : h.cmd < 2 ^ 32) : cmdOfMemory h.toMemory = h.cmd := by
  simp only [cmdOfMemory, toMemory, byteAt, List.getD_cons_succ, List.getD_cons_zero, UInt8.toNat_ofNat']
  omega

end ClientPktHeader

/-! ## Parsing a stream at once -/

section Parse

variable {η : Type} (h : Handler η)

/-- Whether parsing goes on behind a packet, and in which state. -/
def behindPacket (s : η) (packet : Packet) : Option η :=
  match h.readDataHandler s packet with
  | (s, .ok) => some s
  | (_, .error) => none
  | (s, .waitingForQuery) =>
    let (s, goOn) := h.queryCallback s
    if goOn then some s else none

/-- Parse up to `n` packets off the front of a stream. A packet that is not
complete, or has a bad header, ends it. -/
def parsePackets : Nat → η → Bytes → List Packet
  | 0, _, _ => []
  | n + 1, s, bytes =>
    if bytes.length < ClientPktHeader.length then []
    else
      let (s, data) := h.decryptRecv s (bytes.take ClientPktHeader.length)
      let header := ClientPktHeader.ofWire data
      if !header.isValidSize || !header.isValidOpcode then []
      else
        let rest := bytes.drop ClientPktHeader.length
        if rest.length < header.size - 4 then []
        else
          let packet : Packet := ⟨header.cmd, rest.take (header.size - 4)⟩
          packet :: match behindPacket h s packet with
            | some s => parsePackets n s (rest.drop (header.size - 4))
            | none => []

/-- The packets of a stream. There are no more packets than bytes. -/
def parseStream (s : η) (bytes : Bytes) : List Packet := parsePackets h bytes.length s bytes

end Parse

/-! ## Byte by byte -/

/-- How much of the current packet is there. -/
inductive Frame where
  | header (got : Bytes)
  | payload (cmd size : Nat) (got : Bytes)
deriving DecidableEq

inductive Status where
  | reading | waiting | closed
deriving DecidableEq

structure Framer (η : Type) where
  server : η
  frame : Frame
  passed : List Packet
  status : Status

namespace Framer

variable {η : Type} (h : Handler η)

def start (s : η) : Framer η := ⟨s, .header [], [], .reading⟩

def statusOf : ReadDataHandlerResult → Status
  | .ok => .reading
  | .error => .closed
  | .waitingForQuery => .waiting

/-- The packet is complete. -/
def dispatch (a : Framer η) (packet : Packet) : Framer η :=
  let (server, result) := h.readDataHandler a.server packet
  ⟨server, .header [], a.passed ++ [packet], statusOf result⟩

/-- The header is complete. A packet without payload is complete with it. -/
def openFrame (a : Framer η) (got : Bytes) : Framer η :=
  let (server, data) := h.decryptRecv a.server got
  let header := ClientPktHeader.ofWire data
  let a := { a with server := server }
  if !header.isValidSize || !header.isValidOpcode then { a with frame := .header got, status := .closed }
  else if header.size - 4 = 0 then a.dispatch h ⟨header.cmd, []⟩
  else { a with frame := .payload header.cmd (header.size - 4) [] }

def eat (a : Framer η) (b : UInt8) : Framer η :=
  match a.frame with
  | .header got =>
    if got.length + 1 < ClientPktHeader.length then { a with frame := .header (got ++ [b]) }
    else a.openFrame h (got ++ [b])
  | .payload cmd size got =>
    if got.length + 1 < size then { a with frame := .payload cmd size (got ++ [b]) }
    else a.dispatch h ⟨cmd, got ++ [b]⟩

/-- The query that was waited for is answered. -/
def settle (a : Framer η) : Framer η :=
  match a.status with
  | .waiting =>
    let (server, goOn) := h.queryCallback a.server
    { a with server := server, status := if goOn then .reading else .closed }
  | _ => a

end Framer

/-- The machine that takes the stream byte by byte. -/
def framing {η : Type} (h : Handler η) : StreamMachine (Framer η) UInt8 :=
  ⟨Framer.eat h, fun a => a.status ≠ .reading⟩

section Agree

variable {η : Type} {h : Handler η} {a : Framer η} {bs bytes : Bytes}

theorem settle_of_reading (ha : (framing h).stopped a = false) : a.settle h = a := by
  have : a.status = .reading := by simpa [framing] using ha
  simp [Framer.settle, this]

theorem settle_of_closed (ha : a.status = .closed) : a.settle h = a := by simp [Framer.settle, ha]

@[simp] theorem stopped_framing : (framing h).stopped a = true ↔ a.status ≠ .reading := by simp [framing]

@[simp] theorem not_stopped_framing : (framing h).stopped a = false ↔ a.status = .reading := by simp [framing]

theorem exists_append_singleton (hb : bs ≠ []) : ∃ ini b, bs = ini ++ [b] :=
  ⟨bs.dropLast, bs.getLast hb, (List.dropLast_append_getLast hb).symm⟩

/-- Bytes that do not complete the header. -/
theorem run_header {got : Bytes} : ∀ {bs : Bytes} {a : Framer η}, a.status = .reading → a.frame = .header got →
    got.length + bs.length < ClientPktHeader.length →
    (framing h).run a bs = ({ a with frame := .header (got ++ bs) }, [])
  | [], a, _, hf, _ => by simp [StreamMachine.run, ← hf]
  | b :: bs, a, hs, hf, hl => by
    simp only [List.length_cons] at hl
    rw [StreamMachine.run_cons (by simpa using hs)]
    have he : (framing h).eat a b = { a with frame := .header (got ++ [b]) } := by
      simp only [framing, Framer.eat, hf]
      rw [if_pos (by omega)]
    rw [he, run_header (a := { a with frame := .header (got ++ [b]) }) hs rfl (by
      simp only [List.length_append, List.length_singleton]; omega)]
    simp

/-- Bytes that complete the header. -/
theorem run_header_full {got bs rest : Bytes} (hs : a.status = .reading) (hf : a.frame = .header got)
    (hl : got.length + bs.length = ClientPktHeader.length) (hb : bs ≠ []) :
    (framing h).run a (bs ++ rest) = (framing h).run (a.openFrame h (got ++ bs)) rest := by
  obtain ⟨ini, b, rfl⟩ := exists_append_singleton hb
  simp only [List.length_append, List.length_singleton] at hl
  rw [List.append_assoc, StreamMachine.run_append, (@run_header _ _ _ ini) hs hf (by omega), List.nil_append,
    List.singleton_append, StreamMachine.run_cons (by simpa using hs)]
  congr 1
  simp only [framing, Framer.eat, List.length_append]
  rw [if_neg (by omega), List.append_assoc]
  rfl

/-- Bytes that do not complete the payload. -/
theorem run_payload {cmd size : Nat} {got : Bytes} : ∀ {bs : Bytes} {a : Framer η}, a.status = .reading →
    a.frame = .payload cmd size got → got.length + bs.length < size →
    (framing h).run a bs = ({ a with frame := .payload cmd size (got ++ bs) }, [])
  | [], a, _, hf, _ => by simp [StreamMachine.run, ← hf]
  | b :: bs, a, hs, hf, hl => by
    simp only [List.length_cons] at hl
    rw [StreamMachine.run_cons (by simpa using hs)]
    have he : (framing h).eat a b = { a with frame := .payload cmd size (got ++ [b]) } := by
      simp only [framing, Framer.eat, hf]
      rw [if_pos (by omega)]
    rw [he, run_payload (a := { a with frame := .payload cmd size (got ++ [b]) }) hs rfl (by
      simp only [List.length_append, List.length_singleton]; omega)]
    simp

/-- Bytes that complete the payload. -/
theorem run_payload_full {cmd size : Nat} {got bs rest : Bytes} (hs : a.status = .reading)
    (hf : a.frame = .payload cmd size got) (hl : got.length + bs.length = size) (hb : bs ≠ []) :
    (framing h).run a (bs ++ rest) = (framing h).run (a.dispatch h ⟨cmd, got ++ bs⟩) rest := by
  obtain ⟨ini, b, rfl⟩ := exists_append_singleton hb
  simp only [List.length_append, List.length_singleton] at hl
  rw [List.append_assoc, StreamMachine.run_append, (@run_payload _ _ _ _ _ ini) hs hf (by omega), List.nil_append,
    List.singleton_append, StreamMachine.run_cons (by simpa using hs)]
  congr 1
  simp only [framing, Framer.eat, List.length_append]
  rw [if_neg (by omega), List.append_assoc]
  rfl

/-- The machine that need not wait. -/
theorem runAll_of_run_nil {a' : Framer η} (hs : a.status = .reading)
    (hr : (framing h).run a bs = (a', [])) : (framing h).runAll (Framer.settle h) a bs = a'.settle h := by
  obtain ⟨eaten, he, h'⟩ := StreamMachine.runAll_of_run (m := framing h) (fun _ => settle_of_reading) bs a
  rw [hr, List.append_nil] at he
  rw [hr, settle_of_reading (by simpa using hs)] at h'
  rw [he]
  exact h'

theorem passed_settle (a : Framer η) : (a.settle h).passed = a.passed := by
  unfold Framer.settle
  split <;> rfl

/-- After a packet and the answer it may wait for, the machine reads on where parsing goes on. -/
theorem settle_dispatch (a : Framer η) (packet : Packet) : ∃ s status,
    (a.dispatch h packet).settle h = ⟨s, .header [], a.passed ++ [packet], status⟩ ∧
    match behindPacket h a.server packet with
      | some s' => status = .reading ∧ s = s'
      | none => status = .closed := by
  cases hr : h.readDataHandler a.server packet with
  | mk s result =>
  simp only [Framer.dispatch, behindPacket, hr]
  cases result with
  | ok => exact ⟨s, .reading, rfl, rfl, rfl⟩
  | error => exact ⟨s, .closed, rfl, rfl⟩
  | waitingForQuery =>
    cases hq : h.queryCallback s with
    | mk s' goOn =>
    simp only [Framer.settle, Framer.statusOf, hq]
    cases goOn with
    | true => exact ⟨s', .reading, rfl, rfl, rfl⟩
    | false => exact ⟨s', .closed, rfl, rfl⟩

/-- The first bytes of a stream, up to the end of the header. -/
theorem runAll_header (hs : a.status = .reading) (hf : a.frame = .header [])
    (hl : ClientPktHeader.length ≤ bytes.length) :
    (framing h).runAll (Framer.settle h) a (bytes.take ClientPktHeader.length) =
      (a.openFrame h (bytes.take ClientPktHeader.length)).settle h := by
  have htake : (bytes.take ClientPktHeader.length).length = ClientPktHeader.length := by
    rw [List.length_take]; omega
  have hne : bytes.take ClientPktHeader.length ≠ [] := fun he => by
    rw [he] at htake
    cases htake
  have := (@run_header_full _ h _ _ _ []) hs hf (by simpa using htake) hne
  rw [List.append_nil, List.nil_append] at this
  exact runAll_of_run_nil hs this

/-- The bytes of a payload, up to its end. -/
theorem runAll_payload {cmd size : Nat} (hs : a.status = .reading) (hf : a.frame = .payload cmd size [])
    (h0 : size ≠ 0) (hl : size ≤ bytes.length) :
    (framing h).runAll (Framer.settle h) a (bytes.take size) = (a.dispatch h ⟨cmd, bytes.take size⟩).settle h := by
  have htake : (bytes.take size).length = size := by rw [List.length_take]; omega
  have hne : bytes.take size ≠ [] := fun he => by
    rw [he] at htake
    exact h0 htake.symm
  have := (@run_payload_full _ h _ _ _ _ _ []) hs hf (by simpa using htake) hne
  rw [List.append_nil, List.nil_append] at this
  exact runAll_of_run_nil hs this

/-- What the machine passes on from the start of a packet on is what parsing at once gives. -/
theorem passed_runAll : ∀ {n : Nat} {bytes : Bytes} {a : Framer η}, a.status = .reading → a.frame = .header [] →
    bytes.length ≤ n →
    ((framing h).runAll (Framer.settle h) a bytes).passed = a.passed ++ parsePackets h n a.server bytes
  | 0, bytes, a, _, _, hn => by
    have : bytes = [] := List.eq_nil_of_length_eq_zero (Nat.le_zero.1 hn)
    subst this
    simp [StreamMachine.runAll, parsePackets]
  | n + 1, bytes, a, hs, hf, hn => by
    have dispatched : ∀ (a : Framer η) (packet : Packet) (rest : Bytes), rest.length ≤ n →
        ((framing h).runAll (Framer.settle h) ((a.dispatch h packet).settle h) rest).passed =
          a.passed ++ packet :: match behindPacket h a.server packet with
            | some s => parsePackets h n s rest
            | none => [] := by
      intro a packet rest hrest
      obtain ⟨s, status, he, hb⟩ := settle_dispatch (h := h) a packet
      rw [he]
      cases hg : behindPacket h a.server packet with
      | some s' =>
        rw [hg] at hb
        obtain ⟨rfl, rfl⟩ := hb
        rw [passed_runAll rfl rfl hrest]
        simp
      | none =>
        rw [hg] at hb
        rw [StreamMachine.runAll_stopped (by simp [hb])]
    simp only [parsePackets]
    split
    next hshort =>
      rw [runAll_of_run_nil hs (run_header hs hf (by simpa using hshort)), passed_settle]
      simp
    next hlong =>
    have hlong : ClientPktHeader.length ≤ bytes.length := Nat.le_of_not_lt hlong
    have hrest : (bytes.drop ClientPktHeader.length).length ≤ n := by
      have : 0 < ClientPktHeader.length := by decide
      rw [List.length_drop]
      omega
    conv_lhs => rw [← List.take_append_drop ClientPktHeader.length bytes]
    rw [StreamMachine.runAll_append, runAll_header hs hf hlong]
    generalize bytes.drop ClientPktHeader.length = rest at hrest ⊢
    simp only [Framer.openFrame]
    split
    next hbad =>
      rw [StreamMachine.runAll_stopped (by simp [Framer.settle]), passed_settle]
      simp
    next hgood =>
    split
    next h0 =>
      rw [dispatched _ _ _ hrest, h0]
      simp
    next h0 =>
    rw [settle_of_reading (by simpa using hs)]
    split
    next hshort =>
      rw [List.append_nil]
      refine Eq.trans (congrArg Framer.passed (runAll_of_run_nil hs (run_payload hs rfl (by simpa using hshort)))) ?_
      exact passed_settle _
    next hfull =>
    have hfull := Nat.le_of_not_lt hfull
    generalize (ClientPktHeader.ofWire _).size - 4 = size at h0 hfull ⊢
    conv_lhs => rw [← List.take_append_drop size rest]
    rw [StreamMachine.runAll_append]
    refine Eq.trans (congrArg (fun b => ((framing h).runAll _ b _).passed) (runAll_payload hs rfl h0 hfull)) ?_
    refine dispatched _ _ _ ?_
    rw [List.length_drop]
    omega

/-- **Byte by byte is at once.** -/
theorem passed_runAll_start (s : η) (bytes : Bytes) :
    ((framing h).runAll (Framer.settle h) (Framer.start s) bytes).passed = parseStream h s bytes := by
  rw [passed_runAll rfl rfl (Nat.le_refl _)]
  rfl

end Agree

end AtlasWow.Net
