/-
Receiving on a `WorldSocket` (`WorldSocket.cpp`, with `Socket::AsyncRead` and
`Socket::ReadHandlerInternal`), and that it does with the bytes of each read
what the framing machine does (`readLoop_refines`).

`none` is a failed assertion, a copy past the end of a buffer, or a loop that
has not ended.
-/
import AtlasWow.Net.Framing
import AtlasWow.Lib.Machine

namespace AtlasWow.Net

/-! ## The code -/

def READ_BLOCK_SIZE : Nat := 4096

/-- What of a `WorldSocket` has to do with receiving. `received` and `passed` are not in
the source: they record the bytes of all reads and what `ReadDataHandler` was called with. -/
structure WorldSocket (η : Type) where
  server : η
  headerBuffer : MessageBuffer
  packetBuffer : MessageBuffer
  readBuffer : MessageBuffer
  closed : Bool
  closing : Bool
  /-- A query has been asked for and is not answered. -/
  waiting : Bool
  /-- `async_read_some` is under way. -/
  reading : Bool
  received : Bytes
  passed : List Packet

/-- How a round of the loop of `ReadHandler` ends. -/
inductive Flow where
  | again | asyncRead | leave
deriving DecidableEq

namespace WorldSocket

variable {η : Type}

def isOpen (ws : WorldSocket η) : Bool := !ws.closed && !ws.closing

/-- `AsyncRead`. -/
def asyncRead (ws : WorldSocket η) : WorldSocket η :=
  if ws.isOpen then { ws with readBuffer := ws.readBuffer.normalize.ensureFreeSpace, reading := true } else ws

def closeSocket (ws : WorldSocket η) : WorldSocket η := { ws with closed := true, reading := false }

/-- The constructor, and the first `AsyncRead`. -/
def start (s : η) : WorldSocket η :=
  asyncRead {
    server := s
    headerBuffer := (MessageBuffer.ofSize 4096).resize ClientPktHeader.length
    packetBuffer := .ofSize 4096
    readBuffer := (MessageBuffer.ofSize 4096).resize READ_BLOCK_SIZE
    closed := false, closing := false, waiting := false, reading := false, received := [], passed := [] }

variable (h : Handler η)

/-- Move bytes from one buffer to another, as many as there are and as fit. -/
def fill (dst src : MessageBuffer) : Option (MessageBuffer × MessageBuffer) :=
  let readSize := min src.getActiveSize dst.getRemainingSpace
  (dst.write (src.content.take readSize)).map fun dst => (dst, src.readCompleted readSize)

/-- `ReadHeaderHandler`: the header is decrypted in place and brought into host order. -/
def readHeaderHandler (ws : WorldSocket η) : Option (WorldSocket η × Bool) :=
  if ws.headerBuffer.getActiveSize ≠ ClientPktHeader.length then none
  else
    let (server, data) := h.decryptRecv ws.server ws.headerBuffer.content
    let header := ClientPktHeader.ofWire data
    let ws := { ws with server := server, headerBuffer := { ws.headerBuffer with storage := header.toMemory } }
    if !header.isValidSize || !header.isValidOpcode then some (ws, false)
    else
      let header := { header with size := header.size - 4 }
      some ({ ws with
        headerBuffer := { ws.headerBuffer with storage := header.toMemory }
        packetBuffer := ws.packetBuffer.resize header.size }, true)

/-- `ReadDataHandler`, and what `ReadHandler` does with its result. The packet takes the
vector of the packet buffer. -/
def readData (ws : WorldSocket η) : WorldSocket η × Flow :=
  let packet : Packet := ⟨ClientPktHeader.cmdOfMemory ws.headerBuffer.content, ws.packetBuffer.storage⟩
  let (server, result) := h.readDataHandler ws.server packet
  let ws := { ws with
    server := server
    packetBuffer := .moved
    headerBuffer := ws.headerBuffer.reset
    passed := ws.passed ++ [packet] }
  match result with
  | .ok => (ws, .again)
  | .error => (ws.closeSocket, .leave)
  | .waitingForQuery => ({ ws with waiting := true }, .leave)

/-- The second half of a round: there is a full header. -/
def readPayload (ws : WorldSocket η) : Option (WorldSocket η × Flow) :=
  if 0 < ws.packetBuffer.getRemainingSpace then do
    let (packetBuffer, packet) ← fill ws.packetBuffer ws.readBuffer
    let ws := { ws with packetBuffer := packetBuffer, readBuffer := packet }
    if 0 < packetBuffer.getRemainingSpace then
      -- couldn't receive the whole data this time
      if packet.getActiveSize = 0 then some (ws, .asyncRead) else none
    else some (readData h ws)
  else some (readData h ws)

def readRound (ws : WorldSocket η) : Option (WorldSocket η × Flow) :=
  if 0 < ws.headerBuffer.getRemainingSpace then do
    let (headerBuffer, packet) ← fill ws.headerBuffer ws.readBuffer
    let ws := { ws with headerBuffer := headerBuffer, readBuffer := packet }
    if 0 < headerBuffer.getRemainingSpace then
      -- couldn't receive the whole header this time
      if packet.getActiveSize = 0 then some (ws, .asyncRead) else none
    else
      let (ws, valid) ← readHeaderHandler h ws
      if valid then readPayload h ws else some (ws.closeSocket, .leave)
  else readPayload h ws

/-- The loop of `ReadHandler`, at most `n` rounds; it answers whether `AsyncRead` follows. -/
def readLoop : Nat → WorldSocket η → Option (WorldSocket η × Bool)
  | 0, ws => if ws.readBuffer.getActiveSize = 0 then some (ws, true) else none
  | n + 1, ws =>
    if ws.readBuffer.getActiveSize = 0 then some (ws, true)
    else do
      let (ws, flow) ← readRound h ws
      match flow with
      | .again => readLoop n ws
      | .asyncRead => some (ws, true)
      | .leave => some (ws, false)

/-- `ReadHandler`. The loop is cut off after as many rounds as there are bytes. -/
def readHandler (ws : WorldSocket η) : Option (WorldSocket η) :=
  if !ws.isOpen then some ws
  else (readLoop h ws.readBuffer.getActiveSize ws).map fun (ws, goOn) => if goOn then ws.asyncRead else ws

/-- `ReadHandlerInternal`, when the read has put `chunk` into the buffer. -/
def readHandlerInternal (ws : WorldSocket η) (chunk : Bytes) : Option (WorldSocket η) := do
  let readBuffer ← ws.readBuffer.copyIn chunk
  readHandler h { ws with
    readBuffer := readBuffer.writeCompleted chunk.length
    reading := false
    received := ws.received ++ chunk }

/-- What can happen to a socket. -/
inductive Event where
  | read (chunk : Bytes)
  | query
  | closeSocket
  | delayedCloseSocket

/-- A read under way brings some bytes, no more than fit; a query under way is
answered as long as the socket is not closed. -/
def Allowed (e : Event) (ws : WorldSocket η) : Prop :=
  match e with
  | .read chunk => ws.reading = true ∧ chunk ≠ [] ∧ chunk.length ≤ ws.readBuffer.getRemainingSpace
  | .query => ws.waiting = true ∧ ws.closed = false
  | _ => True

instance (e : Event) (ws : WorldSocket η) : Decidable (Allowed e ws) :=
  match e with
  | .read chunk =>
    inferInstanceAs (Decidable (ws.reading = true ∧ chunk ≠ [] ∧ chunk.length ≤ ws.readBuffer.getRemainingSpace))
  | .query => inferInstanceAs (Decidable (ws.waiting = true ∧ ws.closed = false))
  | .closeSocket | .delayedCloseSocket => inferInstanceAs (Decidable True)

def step (e : Event) (ws : WorldSocket η) : Option (WorldSocket η) :=
  match e with
  | .read chunk => readHandlerInternal h ws chunk
  | .query =>
    let (server, goOn) := h.queryCallback ws.server
    let ws := { ws with server := server, waiting := false }
    some (if goOn then ws.asyncRead else { ws with closing := true })
  | .closeSocket => some ws.closeSocket
  | .delayedCloseSocket => some { ws with closing := true }

/-! ## The invariant -/

/-- The buffers are well formed, and nothing has been read off the two small ones. -/
structure Buffers (ws : WorldSocket η) : Prop where
  header : ws.headerBuffer.Ok
  headerStart : ws.headerBuffer.rpos = 0
  headerSize : ws.headerBuffer.storage.length = ClientPktHeader.length
  packet : ws.packetBuffer.Ok
  packetStart : ws.packetBuffer.rpos = 0
  read : ws.readBuffer.Ok
  readSize : READ_BLOCK_SIZE ≤ ws.readBuffer.storage.length

/-- Between the rounds either the header or the payload is incomplete. -/
def Incomplete (ws : WorldSocket η) : Prop :=
  (ws.headerBuffer.wpos < ClientPktHeader.length ∧ ws.packetBuffer.wpos = 0) ∨
  (ws.headerBuffer.wpos = ClientPktHeader.length ∧ ws.packetBuffer.wpos < ws.packetBuffer.storage.length)

def status (ws : WorldSocket η) : Status :=
  if !ws.isOpen then .closed else if ws.waiting then .waiting else .reading

def frame (ws : WorldSocket η) : Frame :=
  if ws.headerBuffer.wpos < ClientPktHeader.length then .header ws.headerBuffer.content
  else .payload (ClientPktHeader.cmdOfMemory ws.headerBuffer.content) ws.packetBuffer.storage.length
    ws.packetBuffer.content

/-- The socket is where the framing machine is. -/
structure Refines (ws : WorldSocket η) (a : Framer η) : Prop where
  buffers : Buffers ws
  server : a.server = ws.server
  passed : a.passed = ws.passed
  status : a.status = ws.status
  incomplete : ws.isOpen = true → Incomplete ws
  frame : ws.isOpen = true → a.frame = ws.frame

variable {h} {ws ws' : WorldSocket η} {a : Framer η}

/-! ## One round -/

/-- `fill` moves the front of one content to the end of the other. -/
theorem fill_spec {dst src : MessageBuffer} (hd : dst.Ok) (hs : src.Ok) : ∃ dst' src',
    fill dst src = some (dst', src') ∧ dst'.Ok ∧ src'.Ok ∧
    dst'.content = dst.content ++ src.content.take dst.getRemainingSpace ∧
    src'.content = src.content.drop dst.getRemainingSpace ∧
    dst'.rpos = dst.rpos ∧ dst'.storage.length = dst.storage.length ∧ src'.storage.length = src.storage.length := by
  have hlen := hs.length_content
  have htake : src.content.take (min src.getActiveSize dst.getRemainingSpace) =
      src.content.take dst.getRemainingSpace := by
    rw [← hlen, List.take_eq_take_iff]; omega
  have hdrop : src.content.drop (min src.getActiveSize dst.getRemainingSpace) =
      src.content.drop dst.getRemainingSpace := by
    rw [← hlen]
    rcases Nat.le_total src.content.length dst.getRemainingSpace with hle | hle
    · rw [Nat.min_eq_left hle, List.drop_length, List.drop_eq_nil_of_le hle]
    · rw [Nat.min_eq_right hle]
  obtain ⟨dst', h', hok, hc, hr, -, hl⟩ := (@MessageBuffer.write_spec dst
    (src.content.take (min src.getActiveSize dst.getRemainingSpace))) hd (by rw [List.length_take]; omega)
  refine ⟨dst', src.readCompleted (min src.getActiveSize dst.getRemainingSpace), by simp [fill, h'], hok,
    MessageBuffer.ok_readCompleted hs (Nat.min_le_left _ _), by rw [hc, htake], ?_, hr, hl, rfl⟩
  rw [MessageBuffer.content_readCompleted, hdrop]

variable {b : MessageBuffer} {s : η} {eaten : Bytes}

theorem content_of_start (h : b.rpos = 0) : b.content = b.storage.take b.wpos := by
  simp [MessageBuffer.content, h]

theorem length_content_of_start (hb : b.Ok) (h : b.rpos = 0) : b.content.length = b.wpos := by
  rw [hb.length_content, hb.activeSize, h, Nat.sub_zero]

theorem remaining_of_start (hb : b.Ok) : b.getRemainingSpace + b.wpos = b.storage.length := by
  rw [hb.remainingSpace]; have := hb.write; omega

theorem status_reading (h : ws.status = .reading) : ws.isOpen = true ∧ ws.waiting = false := by
  unfold status at h
  split at h
  · cases h
  next ho =>
  split at h
  · cases h
  next hw => exact ⟨by simpa using ho, by simpa using hw⟩

theorem status_of_open (ho : ws.isOpen = true) (hw : ws.waiting = false) : ws.status = .reading := by
  simp [status, ho, hw]

/-- After a round the socket is where the machine is, and the round ends as the machine's status tells. -/
structure Round (ws ws' : WorldSocket η) (flow : Flow) (a' : Framer η) : Prop where
  refines : Refines ws' a'
  received : ws'.received = ws.received
  idle : ws'.reading = false
  flow : match flow with
    | .again => a'.status = .reading
    | .asyncRead => a'.status = .reading ∧ ws'.readBuffer.content = []
    | .leave => a'.status ≠ .reading

/-- Within a round: the small buffers apart, the socket is where the machine is. -/
structure Within (ws : WorldSocket η) (a : Framer η) : Prop where
  buffers : Buffers ws
  server : a.server = ws.server
  passed : a.passed = ws.passed
  status : a.status = .reading
  isOpen : ws.isOpen = true
  waiting : ws.waiting = false
  idle : ws.reading = false

theorem Refines.within (hr : Refines ws a) (hs : a.status = .reading) (hi : ws.reading = false) : Within ws a := by
  obtain ⟨ho, hw⟩ := status_reading (hr.status.symm.trans hs)
  exact ⟨hr.buffers, hr.server, hr.passed, hs, ho, hw, hi⟩

/-- Behind a packet the small buffers are empty. -/
theorem behind_packet (hb : Buffers ws) (h₁ : ws'.headerBuffer = ws.headerBuffer.reset)
    (h₂ : ws'.packetBuffer = .moved) (h₃ : ws'.readBuffer = ws.readBuffer) :
    Buffers ws' ∧ Incomplete ws' ∧ ws'.frame = .header [] := by
  have h0 : ws'.headerBuffer.wpos < ClientPktHeader.length := by rw [h₁]; exact (by decide : 0 < ClientPktHeader.length)
  refine ⟨⟨?_, ?_, ?_, ?_, ?_, ?_, ?_⟩, .inl ⟨h0, ?_⟩, ?_⟩
  · rw [h₁]; exact MessageBuffer.ok_reset
  · rw [h₁]; rfl
  · rw [h₁]; exact hb.headerSize
  · rw [h₂]; exact ⟨Nat.le_refl _, Nat.le_refl _⟩
  · rw [h₂]; rfl
  · rw [h₃]; exact hb.read
  · rw [h₃]; exact hb.readSize
  · rw [h₂]; rfl
  · rw [frame, if_pos h0, h₁, MessageBuffer.content_reset]

/-- `ReadDataHandler` is where the machine dispatches a packet. -/
theorem readData_round {cmd : Nat} {payload : Bytes} (hw : Within ws a)
    (hcmd : ClientPktHeader.cmdOfMemory ws.headerBuffer.content = cmd) (hpay : ws.packetBuffer.storage = payload) :
    ∃ ws' flow, readData h ws = (ws', flow) ∧ Round ws ws' flow (a.dispatch h ⟨cmd, payload⟩) ∧
      ws'.readBuffer = ws.readBuffer := by
  subst hcmd hpay
  simp only [readData, Framer.dispatch, hw.server, hw.passed]
  cases hr : h.readDataHandler ws.server
      ⟨ClientPktHeader.cmdOfMemory ws.headerBuffer.content, ws.packetBuffer.storage⟩ with
  | mk server result =>
  simp only [hr]
  cases result with
  | ok =>
    refine ⟨_, _, rfl, ?_, rfl⟩
    obtain ⟨h₁, h₂, h₃⟩ := (@behind_packet _ _ { ws with
      server := server, packetBuffer := .moved, headerBuffer := ws.headerBuffer.reset,
      passed := ws.passed ++ [_] }) hw.buffers rfl rfl rfl
    exact ⟨⟨h₁, rfl, rfl, (status_of_open hw.isOpen hw.waiting).symm, fun _ => h₂, fun _ => h₃.symm⟩, rfl, hw.idle, rfl⟩
  | error =>
    refine ⟨_, _, rfl, ?_, rfl⟩
    refine ⟨⟨And.left (behind_packet hw.buffers (by rfl) (by rfl) (by rfl)), rfl, rfl, rfl, fun ho => ?_, fun ho => ?_⟩, rfl, rfl,
      by simp [Framer.statusOf]⟩ <;> simp [isOpen, closeSocket] at ho
  | waitingForQuery =>
    refine ⟨_, _, rfl, ?_, rfl⟩
    obtain ⟨h₁, h₂, h₃⟩ := (@behind_packet _ _ { ws with
      server := server, packetBuffer := .moved, headerBuffer := ws.headerBuffer.reset,
      passed := ws.passed ++ [_], waiting := true }) hw.buffers rfl rfl rfl
    refine ⟨⟨h₁, rfl, rfl, ?_, fun _ => h₂, fun _ => h₃.symm⟩, rfl, hw.idle, by simp [Framer.statusOf]⟩
    have ho := hw.isOpen
    unfold isOpen at ho
    simp [status, isOpen, ho, Framer.statusOf]

/-- The payload half of a round, when some of the payload is missing. -/
theorem readPayload_round {cmd : Nat} (hw : Within ws a) (hhead : ws.headerBuffer.wpos = ClientPktHeader.length)
    (hcmd : ClientPktHeader.cmdOfMemory ws.headerBuffer.content = cmd)
    (hmiss : ws.packetBuffer.wpos < ws.packetBuffer.storage.length)
    (hf : a.frame = .payload cmd ws.packetBuffer.storage.length ws.packetBuffer.content) :
    ∃ ws' flow a', readPayload h ws = some (ws', flow) ∧ Round ws ws' flow a' ∧
      (framing h).run a ws.readBuffer.content = (framing h).run a' ws'.readBuffer.content ∧
      ws'.readBuffer.content.length ≤ ws.readBuffer.content.length - 1 := by
  have hb := hw.buffers
  have hrem := remaining_of_start hb.packet
  obtain ⟨dst, src, hfill, hdok, hsok, hdc, hsc, hdr, hdl, hsl⟩ := fill_spec hb.packet hb.read
  have hlen := length_content_of_start hb.packet hb.packetStart
  have hdlen := length_content_of_start hdok (hdr.trans hb.packetStart)
  have hdrem := remaining_of_start hdok
  rw [hdc, List.length_append, List.length_take] at hdlen
  have hw' : Within { ws with packetBuffer := dst, readBuffer := src } a :=
    ⟨⟨hb.header, hb.headerStart, hb.headerSize, hdok, hdr.trans hb.packetStart, hsok, hsl ▸ hb.readSize⟩,
      hw.server, hw.passed, hw.status, hw.isOpen, hw.waiting, hw.idle⟩
  rw [readPayload, if_pos (by omega), hfill]
  simp only [Option.bind_eq_bind, Option.bind_some]
  rcases Nat.lt_or_ge ws.readBuffer.content.length ws.packetBuffer.getRemainingSpace with hlt | hge
  · -- the bytes do not complete the payload
    have hall : ws.readBuffer.content.take ws.packetBuffer.getRemainingSpace = ws.readBuffer.content :=
      List.take_of_length_le (Nat.le_of_lt hlt)
    have hnil : src.content = [] := by rw [hsc]; exact List.drop_eq_nil_of_le (Nat.le_of_lt hlt)
    have hactive : src.getActiveSize = 0 := by rw [← hsok.length_content, hnil]; rfl
    rw [if_pos (by omega), if_pos hactive]
    refine ⟨_, _, { a with frame := .payload cmd ws.packetBuffer.storage.length dst.content }, rfl,
      ⟨⟨hw'.buffers, hw.server, hw.passed, ?_, fun _ => .inr ⟨hhead, ?_⟩, fun _ => ?_⟩, rfl, hw.idle, hw.status, hnil⟩,
      ?_, ?_⟩
    · exact hw.status.trans (status_of_open hw.isOpen hw.waiting).symm
    · show dst.wpos < dst.storage.length
      omega
    · show Frame.payload cmd ws.packetBuffer.storage.length dst.content = _
      simp only [frame]
      rw [if_neg (by omega), hcmd, hdl]
    · rw [hnil, run_payload hw.status hf (by omega), hdc, hall]
      rfl
    · rw [hnil]; simp
  · -- the packet is complete
    have hfull : dst.wpos = dst.storage.length := by omega
    have hpay : dst.storage = ws.packetBuffer.content ++
        ws.readBuffer.content.take ws.packetBuffer.getRemainingSpace := by
      rw [← hdc, content_of_start (hdr.trans hb.packetStart), hfull, List.take_length]
    rw [if_neg (by omega)]
    obtain ⟨ws', flow, he, hround, hread⟩ := readData_round (h := h) hw' hcmd hpay
    refine ⟨ws', flow, _, congrArg some he, ⟨hround.refines, hround.received, hround.idle, hround.flow⟩, ?_, ?_⟩
    · rw [hread]
      show _ = (framing h).run _ src.content
      rw [hsc]
      conv_lhs => rw [← List.take_append_drop ws.packetBuffer.getRemainingSpace ws.readBuffer.content]
      refine run_payload_full hw.status hf ?_ ?_
      · rw [List.length_take]; omega
      · intro he
        have := congrArg List.length he
        rw [List.length_take, List.length_nil] at this
        omega
    · rw [hread]
      show src.content.length ≤ _
      rw [hsc, List.length_drop]
      omega

/-- The buffers, with the decrypted header in place. -/
theorem buffers_toMemory (hb : Buffers ws) (hfull : ws.headerBuffer.wpos = ClientPktHeader.length)
    {header : ClientPktHeader} (h₁ : ws'.headerBuffer = { ws.headerBuffer with storage := header.toMemory })
    (h₂ : ws'.packetBuffer.Ok) (h₃ : ws'.packetBuffer.rpos = 0) (h₄ : ws'.readBuffer = ws.readBuffer) :
    Buffers ws' ∧ ws'.headerBuffer.content = header.toMemory := by
  have hlen : header.toMemory.length = ClientPktHeader.length := rfl
  have hr : ws'.headerBuffer.rpos = 0 := by rw [h₁]; exact hb.headerStart
  have hs : ws'.headerBuffer.storage = header.toMemory := by rw [h₁]
  have hw : ws'.headerBuffer.wpos = ClientPktHeader.length := by rw [h₁]; exact hfull
  refine ⟨⟨⟨by omega, by rw [hs]; omega⟩, hr, by rw [hs, hlen], h₂, h₃, h₄ ▸ hb.read, h₄ ▸ hb.readSize⟩, ?_⟩
  rw [content_of_start hr, hs, hw, ← hlen, List.take_length]

theorem cmd_lt_of_valid {header : ClientPktHeader} (hv : header.isValidOpcode = true) : header.cmd < 2 ^ 32 := by
  have : header.cmd < NUM_OPCODE_HANDLERS := by simpa [ClientPktHeader.isValidOpcode] using hv
  exact Nat.lt_trans this (by decide)

/-- The rest of a round whose header is complete. -/
theorem readHeaderHandler_round {got : Bytes} (hw : Within ws a)
    (hfull : ws.headerBuffer.wpos = ClientPktHeader.length) (hpacket : ws.packetBuffer.wpos = 0)
    (hgot : ws.headerBuffer.content = got) :
    ∃ ws₁ valid ws' flow a', readHeaderHandler h ws = some (ws₁, valid) ∧
      (if valid then readPayload h ws₁ else some (ws₁.closeSocket, .leave)) = some (ws', flow) ∧
      Round ws ws' flow a' ∧
      (framing h).run (a.openFrame h got) ws.readBuffer.content = (framing h).run a' ws'.readBuffer.content ∧
      ws'.readBuffer.content.length ≤ ws.readBuffer.content.length := by
  subst hgot
  have hb := hw.buffers
  have hactive : ws.headerBuffer.getActiveSize = ClientPktHeader.length := by
    rw [hb.header.activeSize, hb.headerStart, hfull, Nat.sub_zero]
  simp only [readHeaderHandler, Framer.openFrame, hactive, hw.server, ne_eq, not_true_eq_false, if_false]
  cases hd : h.decryptRecv ws.server ws.headerBuffer.content with
  | mk server data =>
  simp only [hd]
  generalize ClientPktHeader.ofWire data = header
  split
  next hbad =>
    refine ⟨_, _, _, _, _, rfl, rfl, ?_, rfl, Nat.le_refl _⟩
    refine ⟨⟨And.left (buffers_toMemory hb hfull (by rfl) hb.packet hb.packetStart (by rfl)), rfl, hw.passed, rfl,
      fun ho => ?_, fun ho => ?_⟩, rfl, rfl, by simp⟩ <;> simp [isOpen, closeSocket] at ho
  next hgood =>
  simp only [Bool.or_eq_true, Bool.not_eq_true', not_or, Bool.not_eq_false] at hgood
  obtain ⟨ws₁, hws₁⟩ : ∃ ws₁ : WorldSocket η, ws₁ = { ws with
      server := server
      headerBuffer := { ws.headerBuffer with
        storage := { header with size := header.size - 4 : ClientPktHeader }.toMemory }
      packetBuffer := ws.packetBuffer.resize (header.size - 4) } := ⟨_, rfl⟩
  have hread : ws₁.readBuffer = ws.readBuffer := by rw [hws₁]
  have hpw : ws₁.packetBuffer.wpos = 0 := by rw [hws₁]; exact hpacket
  have hpr : ws₁.packetBuffer.rpos = 0 := by rw [hws₁]; exact hb.packetStart
  have hpl : ws₁.packetBuffer.storage.length = header.size - 4 := by
    rw [hws₁]; exact MessageBuffer.length_resizeBytes _ _
  obtain ⟨hb₁, hc⟩ := (@buffers_toMemory _ _ ws₁) hb hfull (by rw [hws₁]) ⟨by omega, by omega⟩ hpr hread
  have hcmd : ClientPktHeader.cmdOfMemory ws₁.headerBuffer.content = header.cmd := by
    rw [hc]; exact ClientPktHeader.cmdOfMemory_toMemory _ ((@cmd_lt_of_valid header) hgood.2)
  have hhead : ws₁.headerBuffer.wpos = ClientPktHeader.length := by rw [hws₁]; exact hfull
  have within : ∀ f : Frame, Within ws₁ { a with server := server, frame := f } := fun f =>
    ⟨hb₁, by rw [hws₁], by rw [hws₁]; exact hw.passed, hw.status, by rw [hws₁]; exact hw.isOpen,
      by rw [hws₁]; exact hw.waiting, by rw [hws₁]; exact hw.idle⟩
  have same : ∀ {ws' flow a'}, Round ws₁ ws' flow a' → Round ws ws' flow a' := fun hr =>
    ⟨hr.refines, hr.received.trans (by rw [hws₁]), hr.idle, hr.flow⟩
  have hrem := remaining_of_start hb₁.packet
  refine ⟨ws₁, true, ?_⟩
  simp only [if_true]
  split
  next h0 =>
    -- there is no payload to wait for
    have hpay : ws₁.packetBuffer.storage = [] := List.eq_nil_of_length_eq_zero (by omega)
    obtain ⟨ws', flow, he, hround, hrb⟩ := readData_round (h := h) (within a.frame) hcmd hpay
    refine ⟨ws', flow, _, by rw [hws₁], ?_, same hround, ?_, ?_⟩
    · rw [readPayload, if_neg (by omega), he]
    · rw [hrb, hread]
    · exact Nat.le_of_eq (by rw [hrb, hread])
  next h0 =>
  have hpc : ws₁.packetBuffer.content = [] := by simp [content_of_start hpr, hpw]
  obtain ⟨ws', flow, a', he, hround, hrun, hlen⟩ := readPayload_round (h := h)
    (within (.payload header.cmd (header.size - 4) [])) hhead hcmd (by omega) (by rw [hpl, hpc])
  rw [hread] at hrun hlen
  exact ⟨ws', flow, a', by rw [hws₁], he, same hround, hrun, by omega⟩

/-- A round that starts within a header. -/
theorem readRound_header (hw : Within ws a) (hmiss : ws.headerBuffer.wpos < ClientPktHeader.length)
    (hpacket : ws.packetBuffer.wpos = 0) (hf : a.frame = .header ws.headerBuffer.content) :
    ∃ ws' flow a', readRound h ws = some (ws', flow) ∧ Round ws ws' flow a' ∧
      (framing h).run a ws.readBuffer.content = (framing h).run a' ws'.readBuffer.content ∧
      ws'.readBuffer.content.length ≤ ws.readBuffer.content.length - 1 := by
  have hb := hw.buffers
  have hrem := remaining_of_start hb.header
  rw [hb.headerSize] at hrem
  obtain ⟨dst, src, hfill, hdok, hsok, hdc, hsc, hdr, hdl, hsl⟩ := fill_spec hb.header hb.read
  have hlen := length_content_of_start hb.header hb.headerStart
  have hdlen := length_content_of_start hdok (hdr.trans hb.headerStart)
  have hdrem := remaining_of_start hdok
  rw [hdl, hb.headerSize] at hdrem
  rw [hdc, List.length_append, List.length_take] at hdlen
  have hw' : Within { ws with headerBuffer := dst, readBuffer := src } a :=
    ⟨⟨hdok, hdr.trans hb.headerStart, hdl.trans hb.headerSize, hb.packet, hb.packetStart, hsok, hsl ▸ hb.readSize⟩,
      hw.server, hw.passed, hw.status, hw.isOpen, hw.waiting, hw.idle⟩
  rw [readRound, if_pos (by omega), hfill]
  simp only [Option.bind_eq_bind, Option.bind_some]
  rcases Nat.lt_or_ge ws.readBuffer.content.length ws.headerBuffer.getRemainingSpace with hlt | hge
  · -- the bytes do not complete the header
    have hall : ws.readBuffer.content.take ws.headerBuffer.getRemainingSpace = ws.readBuffer.content :=
      List.take_of_length_le (Nat.le_of_lt hlt)
    have hnil : src.content = [] := by rw [hsc]; exact List.drop_eq_nil_of_le (Nat.le_of_lt hlt)
    have hactive : src.getActiveSize = 0 := by rw [← hsok.length_content, hnil]; rfl
    have hmiss' : dst.wpos < ClientPktHeader.length := by omega
    rw [if_pos (by omega), if_pos hactive]
    refine ⟨_, _, { a with frame := .header dst.content }, rfl,
      ⟨⟨hw'.buffers, hw.server, hw.passed, ?_, fun _ => .inl ⟨hmiss', hpacket⟩, fun _ => ?_⟩, rfl, hw.idle, hw.status,
        hnil⟩, ?_, ?_⟩
    · exact hw.status.trans (status_of_open hw.isOpen hw.waiting).symm
    · simp only [frame]
      rw [if_pos hmiss']
    · rw [hnil, run_header hw.status hf (by omega), hdc, hall]
      rfl
    · rw [hnil]; simp
  · -- the header is complete
    rw [if_neg (by omega)]
    obtain ⟨ws₁, valid, ws', flow, a', he₁, he, hround, hrun, hle⟩ :=
      readHeaderHandler_round (h := h) hw' (by show dst.wpos = _; omega) hpacket hdc
    refine ⟨ws', flow, a', by rw [he₁]; exact he, ⟨hround.refines, hround.received, hround.idle, hround.flow⟩, ?_, ?_⟩
    · rw [← hrun]
      show _ = (framing h).run _ src.content
      rw [hsc]
      conv_lhs => rw [← List.take_append_drop ws.headerBuffer.getRemainingSpace ws.readBuffer.content]
      refine run_header_full hw.status hf ?_ ?_
      · rw [List.length_take]; omega
      · intro he
        have := congrArg List.length he
        rw [List.length_take, List.length_nil] at this
        omega
    · have : src.content.length = ws.readBuffer.content.length - ws.headerBuffer.getRemainingSpace := by
        rw [hsc, List.length_drop]
      have hle : ws'.readBuffer.content.length ≤ src.content.length := hle
      omega

/-- **One round.** It fails no assertion, passes the end of no buffer, and leads the
socket where the machine gets with the bytes the round has taken. -/
theorem readRound_spec (hr : Refines ws a) (hs : a.status = .reading) (hi : ws.reading = false) :
    ∃ ws' flow a', readRound h ws = some (ws', flow) ∧ Round ws ws' flow a' ∧
      (framing h).run a ws.readBuffer.content = (framing h).run a' ws'.readBuffer.content ∧
      ws'.readBuffer.content.length ≤ ws.readBuffer.content.length - 1 := by
  have hw := hr.within hs hi
  have hf := hr.frame hw.isOpen
  unfold frame at hf
  rcases hr.incomplete hw.isOpen with ⟨hmiss, hpacket⟩ | ⟨hfull, hmiss⟩
  · rw [if_pos hmiss] at hf
    exact readRound_header hw hmiss hpacket hf
  have hrem := remaining_of_start hr.buffers.header
  rw [hr.buffers.headerSize] at hrem
  rw [if_neg (by omega)] at hf
  rw [readRound, if_neg (by omega)]
  exact readPayload_round hw hfull rfl hmiss hf

/-! ## The loop -/

/-- **The loop of `ReadHandler` is a run of the framing machine** over the bytes of the read buffer. -/
theorem readLoop_refines : ∀ {n : Nat} {ws : WorldSocket η} {a : Framer η}, Refines ws a → a.status = .reading →
    ws.reading = false → ws.readBuffer.content.length ≤ n →
    ∃ ws' goOn, readLoop h n ws = some (ws', goOn) ∧ Refines ws' ((framing h).run a ws.readBuffer.content).1 ∧
      ws'.readBuffer.content = ((framing h).run a ws.readBuffer.content).2 ∧ ws'.received = ws.received ∧
      ws'.reading = false ∧
      (goOn = true ↔ ((framing h).run a ws.readBuffer.content).1.status = .reading)
  | n, ws, a, hr, hs, hi, hn => by
    have hlen := hr.buffers.read.length_content
    by_cases h0 : ws.readBuffer.getActiveSize = 0
    · have hnil : ws.readBuffer.content = [] := List.eq_nil_of_length_eq_zero (by omega)
      rw [hnil]
      refine ⟨ws, true, ?_, hr, hnil, rfl, hi, by simp [StreamMachine.run, hs]⟩
      cases n <;> rw [readLoop, if_pos h0]
    cases n with
    | zero => omega
    | succ n =>
      obtain ⟨ws₁, flow, a₁, he, hround, hrun, hle⟩ := readRound_spec (h := h) hr hs hi
      rw [readLoop, if_neg h0, he, hrun]
      simp only [Option.bind_eq_bind, Option.bind_some]
      have hflow := hround.flow
      cases flow with
      | again =>
        obtain ⟨ws', goOn, he', hr', hc, hrec, hi', hgo⟩ :=
          readLoop_refines (n := n) hround.refines hflow hround.idle (by omega)
        exact ⟨ws', goOn, he', hr', hc, hrec.trans hround.received, hi', hgo⟩
      | asyncRead =>
        rw [hflow.2]
        exact ⟨ws₁, true, rfl, hround.refines, hflow.2, hround.received, hround.idle,
          by simp [StreamMachine.run, hflow.1]⟩
      | leave =>
        rw [StreamMachine.run_stopped (by simpa using hflow)]
        exact ⟨ws₁, false, rfl, hround.refines, rfl, hround.received, hround.idle, by simpa using hflow⟩

theorem refines_asyncRead (hr : Refines ws a) : Refines ws.asyncRead a ∧
    ws.asyncRead.readBuffer.content = ws.readBuffer.content ∧ ws.asyncRead.received = ws.received ∧
    ws.asyncRead.waiting = ws.waiting := by
  unfold asyncRead
  split
  next =>
    have hsize : 2 ≤ READ_BLOCK_SIZE := by decide
    have hread := hr.buffers.readSize
    obtain ⟨hok, hc, -, hl⟩ := MessageBuffer.content_normalize hr.buffers.read
    obtain ⟨hok', hc', -, hl'⟩ := MessageBuffer.content_ensureFreeSpace hok (by omega)
    have hb := hr.buffers
    exact ⟨⟨⟨hb.header, hb.headerStart, hb.headerSize, hb.packet, hb.packetStart, hok', by
      show READ_BLOCK_SIZE ≤ ws.readBuffer.normalize.ensureFreeSpace.storage.length
      omega⟩, hr.server, hr.passed, hr.status, hr.incomplete, hr.frame⟩, hc'.trans hc, rfl, rfl⟩
  next => exact ⟨hr, rfl, rfl, rfl⟩

/-! ## Runs -/

/-- What the socket has done with the bytes received: those of `eaten` it has parsed, the
others are in the read buffer. -/
structure Follows (h : Handler η) (s : η) (ws : WorldSocket η) (a : Framer η) (eaten : Bytes) : Prop where
  refines : Refines ws a
  received : ws.received = eaten ++ ws.readBuffer.content
  passed : ws.passed = ((framing h).runAll (Framer.settle h) (Framer.start s) eaten).passed
  settled : a.status ≠ .closed → (framing h).runAll (Framer.settle h) (Framer.start s) eaten = a.settle h
  waits : ws.reading = true → ws.waiting = false

theorem Follows.asyncRead (hf : Follows h s ws a eaten) (hw : ws.waiting = false) :
    Follows h s ws.asyncRead a eaten := by
  obtain ⟨hr, hc, hrec, hwait⟩ := refines_asyncRead hf.refines
  refine ⟨hr, by rw [hrec, hc, hf.received], ?_, hf.settled, fun _ => hwait.trans hw⟩
  rw [← hr.passed, hf.refines.passed, hf.passed]

theorem follows_start (s : η) : Follows h s (start s) (Framer.start s) [] := by
  have hlen := MessageBuffer.length_resizeBytes
  refine Follows.asyncRead ⟨⟨⟨⟨Nat.le_refl _, Nat.zero_le _⟩, rfl, hlen _ _, ⟨Nat.le_refl _, Nat.zero_le _⟩, rfl,
    ⟨Nat.le_refl _, Nat.zero_le _⟩, Nat.le_of_eq (hlen _ _).symm⟩, rfl, rfl, rfl, fun _ => .inl ⟨?_, rfl⟩,
    fun _ => rfl⟩, rfl, rfl, fun _ => rfl, fun _ => rfl⟩ rfl
  exact (by decide : 0 < ClientPktHeader.length)

theorem closed_of_not_reading (hr : Refines ws a) (hw : ws.waiting = false) (hs : a.status ≠ .reading) :
    a.status = .closed := by
  rw [hr.status, status] at hs ⊢
  split
  next => rfl
  next ho => simp [ho, hw] at hs

/-- A socket that is shut does nothing more with what it has received. -/
theorem Follows.shut (hf : Follows h s ws a eaten)
    (h₁ : ws'.headerBuffer = ws.headerBuffer) (h₂ : ws'.packetBuffer = ws.packetBuffer)
    (h₃ : ws'.readBuffer = ws.readBuffer) (h₄ : ws'.received = ws.received) (h₅ : ws'.passed = ws.passed)
    (ho : ws'.isOpen = false) (hw : ws'.reading = true → ws'.waiting = false) :
    Follows h s ws' ⟨ws'.server, a.frame, a.passed, .closed⟩ eaten := by
  have hb := hf.refines.buffers
  refine ⟨⟨⟨h₁ ▸ hb.header, h₁ ▸ hb.headerStart, h₁ ▸ hb.headerSize, h₂ ▸ hb.packet, h₂ ▸ hb.packetStart,
    h₃ ▸ hb.read, h₃ ▸ hb.readSize⟩, rfl, hf.refines.passed.trans h₅.symm, ?_, ?_, ?_⟩, ?_, ?_, ?_, hw⟩
  · simp [status, ho]
  · simp [ho]
  · simp [ho]
  · rw [h₄, h₃, hf.received]
  · rw [h₅, hf.passed]
  · simp

/-- A completed read: nothing fails, and if no query is waited for and the socket was
open, all that was received is what has been parsed. -/
theorem follows_read {chunk : Bytes} (hf : Follows h s ws a eaten) (hread : ws.reading = true)
    (hfits : chunk.length ≤ ws.readBuffer.getRemainingSpace) :
    ∃ ws' a' eaten', readHandlerInternal h ws chunk = some ws' ∧ Follows h s ws' a' eaten' ∧
      ws'.received = ws.received ++ chunk ∧
      (ws.isOpen = true → ws'.waiting = false → ws'.passed = parseStream h s ws'.received) := by
  obtain ⟨b, hb⟩ := MessageBuffer.copyIn_succeeds hf.refines.buffers.read hfits
  obtain ⟨hok, hc, hl⟩ := MessageBuffer.content_copyIn hf.refines.buffers.read hb
  have hbuf := hf.refines.buffers
  obtain ⟨ws₀, hws₀⟩ : ∃ ws₀ : WorldSocket η, ws₀ = { ws with
      readBuffer := b.writeCompleted chunk.length
      reading := false
      received := ws.received ++ chunk } := ⟨_, rfl⟩
  have hr₀ : Refines ws₀ a := by
    rw [hws₀]
    exact ⟨⟨hbuf.header, hbuf.headerStart, hbuf.headerSize, hbuf.packet, hbuf.packetStart, hok, by
      show READ_BLOCK_SIZE ≤ b.storage.length
      rw [hl]; exact hbuf.readSize⟩, hf.refines.server, hf.refines.passed, hf.refines.status,
      hf.refines.incomplete, hf.refines.frame⟩
  have hc₀ : ws₀.readBuffer.content = ws.readBuffer.content ++ chunk := by rw [hws₀]; exact hc
  have hrec₀ : ws₀.received = eaten ++ ws₀.readBuffer.content := by
    rw [hc₀, ← List.append_assoc, ← hf.received, hws₀]
  have hpassed₀ : ws₀.passed = ((framing h).runAll (Framer.settle h) (Framer.start s) eaten).passed := by
    rw [hws₀]; exact hf.passed
  have hi₀ : ws₀.reading = false := by rw [hws₀]
  have hopen₀ : ws₀.isOpen = ws.isOpen := by rw [hws₀]; rfl
  rw [readHandlerInternal, hb]
  simp only [Option.bind_eq_bind, Option.bind_some]
  rw [← hws₀, readHandler, hopen₀]
  have hrecv : ws₀.received = ws.received ++ chunk := by rw [hws₀]
  cases ho : ws.isOpen with
  | false => exact ⟨ws₀, a, eaten, rfl, ⟨hr₀, hrec₀, hpassed₀, hf.settled, by simp [hi₀]⟩, hrecv, by simp⟩
  | true =>
    have hs : a.status = .reading := hf.refines.status.trans (status_of_open ho (hf.waits hread))
    obtain ⟨ws₁, goOn, hloop, hr₁, hc₁, hrec₁, hi₁, hgo⟩ :=
      readLoop_refines (h := h) hr₀ hs hi₀ (Nat.le_of_eq hr₀.buffers.read.length_content)
    obtain ⟨more, hmore, hall⟩ :=
      StreamMachine.runAll_of_run (m := framing h) (fun _ => settle_of_reading) ws₀.readBuffer.content a
    have hend := StreamMachine.run_rest (m := framing h) ws₀.readBuffer.content a
    generalize (framing h).run a ws₀.readBuffer.content = r at hr₁ hc₁ hgo hmore hall hend
    obtain ⟨a₁, rest⟩ := r
    have hrun : (framing h).runAll (Framer.settle h) (Framer.start s) (eaten ++ more) = a₁.settle h := by
      rw [StreamMachine.runAll_append, hf.settled (by simp [hs]), hall]
    have hf₁ : Follows h s ws₁ a₁ (eaten ++ more) := by
      refine ⟨hr₁, by rw [hrec₁, hrec₀, hmore, hc₁, List.append_assoc], ?_, fun _ => hrun, by simp [hi₁]⟩
      rw [hrun, passed_settle, hr₁.passed]
    have hparsed : ws₁.waiting = false → ws₁.passed = parseStream h s ws₁.received := by
      intro hw₁
      rw [← passed_runAll_start, hf₁.received, hf₁.passed, StreamMachine.runAll_append _ _ (eaten ++ more), hrun, hc₁]
      rcases hend with hnil | hstop
      · rw [show rest = [] from hnil]
        rfl
      · have hclosed : a₁.status = .closed := closed_of_not_reading hr₁ hw₁ (by simpa using hstop)
        rw [settle_of_closed hclosed, StreamMachine.runAll_stopped (by simp [hclosed])]
    rw [hloop]
    simp only [Bool.not_true, Bool.false_eq_true, if_false, Option.map_some]
    cases goOn with
    | false => exact ⟨ws₁, a₁, eaten ++ more, rfl, hf₁, hrec₁.trans hrecv, fun _ => hparsed⟩
    | true =>
      have hw₁ := (status_reading (hr₁.status.symm.trans (hgo.1 rfl))).2
      obtain ⟨-, -, hrec₂, hw₂⟩ := refines_asyncRead hr₁
      have hf₂ := hf₁.asyncRead hw₁
      refine ⟨ws₁.asyncRead, a₁, eaten ++ more, rfl, hf₂, hrec₂.trans (hrec₁.trans hrecv), fun _ _ => ?_⟩
      rw [hrec₂, hf₂.passed, ← hf₁.passed]
      exact hparsed hw₁

theorem follows_query (hf : Follows h s ws a eaten) (hw : ws.waiting = true) :
    ∃ ws' a', step h .query ws = some ws' ∧ Follows h s ws' a' eaten := by
  have hr := hf.refines
  have hb := hr.buffers
  simp only [step]
  cases hq : h.queryCallback ws.server with
  | mk server goOn =>
  simp only [hq]
  cases goOn with
  | false => exact ⟨_, _, rfl, hf.shut (by rfl) (by rfl) (by rfl) (by rfl) (by rfl) (by simp [isOpen]) (by simp)⟩
  | true =>
    cases ho : ws.isOpen with
    | false =>
      have hshut : Follows h s { ws with server := server, waiting := false } _ eaten :=
        hf.shut rfl rfl rfl rfl rfl ho (fun _ => rfl)
      exact ⟨_, _, rfl, hshut.asyncRead rfl⟩
    | true =>
      have hs : a.status = .waiting := hr.status.trans (by simp [status, ho, hw])
      have hsettle : a.settle h = { a with server := server, status := .reading } := by
        simp [Framer.settle, hs, hr.server, hq]
      have hopen : Follows h s { ws with server := server, waiting := false }
          { a with server := server, status := .reading } eaten := by
        refine ⟨⟨⟨hb.header, hb.headerStart, hb.headerSize, hb.packet, hb.packetStart, hb.read, hb.readSize⟩, rfl,
          hr.passed, Eq.symm (status_of_open (by exact ho) (by rfl)), fun _ => hr.incomplete ho, fun _ => hr.frame ho⟩, hf.received,
          hf.passed, fun _ => ?_, fun _ => rfl⟩
        rw [hf.settled (by simp [hs]), hsettle]
        rfl
      exact ⟨_, _, rfl, hopen.asyncRead rfl⟩

theorem follows_step {e : Event} (hf : Follows h s ws a eaten) (he : Allowed e ws) :
    ∃ ws' a' eaten', step h e ws = some ws' ∧ Follows h s ws' a' eaten' := by
  cases e with
  | read chunk =>
    obtain ⟨ws', a', eaten', h', hf', -⟩ := follows_read hf he.1 he.2.2
    exact ⟨ws', a', eaten', h', hf'⟩
  | query =>
    obtain ⟨ws', a', h', hf'⟩ := follows_query hf he.1
    exact ⟨ws', a', eaten, h', hf'⟩
  | closeSocket =>
    exact ⟨_, _, eaten, rfl, hf.shut (by rfl) (by rfl) (by rfl) (by rfl) (by rfl) (by simp [isOpen, closeSocket])
      (by simp [closeSocket])⟩
  | delayedCloseSocket =>
    exact ⟨_, _, eaten, rfl, hf.shut (by rfl) (by rfl) (by rfl) (by rfl) (by rfl) (by simp [isOpen]) hf.waits⟩

theorem reached_follows (hr : Reaches (step h) Allowed (start s) ws) : ∃ a eaten, Follows h s ws a eaten := by
  refine hr.invariant (fun ws => ∃ a eaten, Follows h s ws a eaten) ?_ ⟨_, _, follows_start s⟩
  intro e ws ws' ⟨a, eaten, hf⟩ he hs
  obtain ⟨ws'', a', eaten', h', hf'⟩ := follows_step (h := h) hf he
  rw [hs] at h'
  cases h'
  exact ⟨a', eaten', hf'⟩

end WorldSocket

end AtlasWow.Net
