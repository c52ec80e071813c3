/-
Sending on a `WorldSocket` (`SendPacket`, `Update`, with `Socket::Update` and
`Socket::HandleQueue`), and that the bytes written are those of the packets,
in order (`reached_wire`).

`none` is a copy past the end of a buffer. What a write to the socket does is
an answer that comes from outside: it takes nothing now (`none`), or up to
`room + 1` bytes.
-/
import AtlasWow.Net.PacketEncoding
import AtlasWow.Lib.Machine

namespace AtlasWow.Net

/-! ## The code -/

/-- What of a `WorldSocket` has to do with sending. `wire`, `queued` and `key` are not in the source:
the bytes written, the packets that were queued and the key the cipher was initialized with. -/
structure SendSocket (c : StreamCipher) where
  bufferQueue : List EncryptablePacket
  authCrypt : Option c.State
  sendBufferSize : Nat
  writeQueue : List MessageBuffer
  isWritingAsync : Bool
  closed : Bool
  closing : Bool
  wire : Bytes
  queued : List EncryptablePacket
  key : Option c.State

namespace SendSocket

variable {c : StreamCipher}

/-- A new socket; the default size of the send buffer is 4096. -/
def start (sendBufferSize : Nat) : SendSocket c :=
  ⟨[], none, sendBufferSize, [], false, false, false, [], [], none⟩

def isOpen (ws : SendSocket c) : Bool := !ws.closed && !ws.closing

/-- `SendPacket` marks a packet when the cipher is initialized. -/
def sendPacket (ws : SendSocket c) (packet : EncryptablePacket) : SendSocket c :=
  if ws.isOpen then { ws with bufferQueue := ws.bufferQueue ++ [packet], queued := ws.queued ++ [packet] } else ws

/-- `AuthCrypt::Init`. -/
def initCrypt (ws : SendSocket c) (key : c.State) : SendSocket c := { ws with authCrypt := some key, key := some key }

def queuePacket (ws : SendSocket c) (buffer : MessageBuffer) : SendSocket c :=
  { ws with writeQueue := ws.writeQueue ++ [buffer] }

def closeSocket (ws : SendSocket c) : SendSocket c := { ws with closed := true }

/-- Write a header and a payload. -/
def writePacket (buffer : MessageBuffer) (header contents : Bytes) : Option MessageBuffer := do
  let buffer ← buffer.write header
  if contents.isEmpty then some buffer else buffer.write contents

/-- One round of the loop of `Update`. -/
def updatePacket (st : MessageBuffer × SendSocket c) (queued : EncryptablePacket) :
    Option (MessageBuffer × SendSocket c) :=
  let (buffer, ws) := st
  let (authCrypt, header) := encodeHeader ws.authCrypt queued
  let ws := { ws with authCrypt := authCrypt }
  let size := queued.contents.length + queued.header.getHeaderLength
  let flush := buffer.getRemainingSpace < size
  let ws := if flush then ws.queuePacket buffer else ws
  let buffer := if flush then MessageBuffer.moved.resize ws.sendBufferSize else buffer
  if size ≤ buffer.getRemainingSpace then do
    let buffer ← writePacket buffer header queued.contents
    some (buffer, ws)
  else do
    -- single packet larger than the send buffer
    let packetBuffer ← writePacket (.ofSize size) header queued.contents
    some (buffer, ws.queuePacket packetBuffer)

/-- `write_some`: the number of bytes sent, unless it would block. Nothing to send is sent at once. -/
def writeSome (answer : Option Nat) (data : Bytes) : Option Nat :=
  if data.isEmpty then some 0 else answer.map fun room => min (room + 1) data.length

/-- The head of the write queue is done with. -/
def pop (ws : SendSocket c) : SendSocket c :=
  let ws := { ws with writeQueue := ws.writeQueue.tail }
  if ws.closing && ws.writeQueue.isEmpty then ws.closeSocket else ws

/-- `HandleQueue`; it answers whether there is more to send now. -/
def handleQueue (answer : Option Nat) (ws : SendSocket c) : SendSocket c × Bool :=
  match ws.writeQueue with
  | [] => (ws, false)
  | queuedMessage :: rest =>
    match writeSome answer queuedMessage.content with
    | none => ({ ws with isWritingAsync := true }, false)
    | some bytesSent =>
      let ws := { ws with wire := ws.wire ++ queuedMessage.content.take bytesSent }
      if bytesSent = 0 then (ws.pop, false)
      else if bytesSent < queuedMessage.getActiveSize then
        ({ ws with writeQueue := queuedMessage.readCompleted bytesSent :: rest, isWritingAsync := true }, false)
      else (ws.pop, !rest.isEmpty)

/-- The loop of `Socket::Update`. -/
def handleQueues : List (Option Nat) → SendSocket c → SendSocket c
  | [], ws => (handleQueue none ws).1
  | answer :: answers, ws =>
    let (ws, more) := handleQueue answer ws
    if more then handleQueues answers ws else ws

/-- `Socket::Update`. -/
def socketUpdate (answers : List (Option Nat)) (ws : SendSocket c) : SendSocket c :=
  if ws.closed then ws
  else if ws.isWritingAsync || (ws.writeQueue.isEmpty && !ws.closing) then ws
  else handleQueues answers ws

/-- `WorldSocket::Update`. -/
def update (answers : List (Option Nat)) (ws : SendSocket c) : Option (SendSocket c) := do
  let (buffer, ws) ← ws.bufferQueue.foldlM updatePacket (.ofSize ws.sendBufferSize, ws)
  let ws := { ws with bufferQueue := [] }
  let ws := if 0 < buffer.getActiveSize then ws.queuePacket buffer else ws
  some (socketUpdate answers ws)

/-- `WriteHandlerWrapper`: the socket can be written to again. -/
def writeHandlerWrapper (answer : Option Nat) (ws : SendSocket c) : SendSocket c :=
  (handleQueue answer { ws with isWritingAsync := false }).1

inductive Event (c : StreamCipher) where
  | sendPacket (packet : EncryptablePacket)
  | initCrypt (key : c.State)
  | update (answers : List (Option Nat))
  | writable (answer : Option Nat)
  | closeSocket
  | delayedCloseSocket

/-- A packet is marked only when the cipher is initialized, which happens once. -/
def Allowed (e : Event c) (ws : SendSocket c) : Prop :=
  match e with
  | .sendPacket packet => packet.encrypt = true → ws.authCrypt.isSome = true
  | .initCrypt _ => ws.authCrypt = none
  | .writable _ => ws.isWritingAsync = true ∧ ws.closed = false
  | _ => True

instance (e : Event c) (ws : SendSocket c) : Decidable (Allowed e ws) :=
  match e with
  | .sendPacket packet => inferInstanceAs (Decidable (packet.encrypt = true → ws.authCrypt.isSome = true))
  | .initCrypt _ => decidable_of_iff (ws.authCrypt.isNone = true) Option.isNone_iff_eq_none
  | .writable _ => inferInstanceAs (Decidable (ws.isWritingAsync = true ∧ ws.closed = false))
  | .update _ | .closeSocket | .delayedCloseSocket => inferInstanceAs (Decidable True)

def step (e : Event c) (ws : SendSocket c) : Option (SendSocket c) :=
  match e with
  | .sendPacket packet => some (ws.sendPacket packet)
  | .initCrypt key => some (ws.initCrypt key)
  | .update answers => update answers ws
  | .writable answer => some (writeHandlerWrapper answer ws)
  | .closeSocket => some ws.closeSocket
  | .delayedCloseSocket => some { ws with closing := true }

/-! ## The invariant -/

/-- The bytes that wait to be written. -/
def pending (ws : SendSocket c) : Bytes := ws.writeQueue.flatMap MessageBuffer.content

/-- `processed` are the packets that have been turned into bytes; `extra` are bytes of
theirs that are not in the write queue yet. -/
structure Inv (processed : List EncryptablePacket) (extra : Bytes) (ws : SendSocket c) : Prop where
  buffers : ∀ b ∈ ws.writeQueue, b.Ok
  crypt : ws.authCrypt = (encode ws.key processed).1
  bytes : ws.wire ++ ws.pending ++ extra = (encode ws.key processed).2
  marked : ws.key = none → ∀ p ∈ ws.queued, p.encrypt = false

variable {ws ws' : SendSocket c} {processed : List EncryptablePacket} {extra : Bytes}

theorem inv_start (n : Nat) : Inv [] [] (start n : SendSocket c) :=
  ⟨by simp [start], rfl, rfl, by simp [start]⟩

theorem pending_queuePacket (ws : SendSocket c) (b : MessageBuffer) :
    (ws.queuePacket b).pending = ws.pending ++ b.content := by simp [pending, queuePacket]

variable {b : MessageBuffer} {n : Nat} {rest : List MessageBuffer} {answer : Option Nat}

/-- Bytes move from outside to the end of the write queue. -/
theorem Inv.queuePacket (h : Inv processed (b.content ++ extra) ws) (hb : b.Ok) :
    Inv processed extra (ws.queuePacket b) where
  buffers x hx := by
    rcases List.mem_append.1 hx with hx | hx
    · exact h.buffers x hx
    · rw [List.mem_singleton.1 hx]; exact hb
  crypt := h.crypt
  bytes := by
    show ws.wire ++ (ws.queuePacket b).pending ++ extra = (encode ws.key processed).2
    rw [pending_queuePacket, ← h.bytes]
    simp only [List.append_assoc]
  marked := h.marked

/-! ## Turning packets into bytes -/

theorem writePacket_spec {b : MessageBuffer} {header contents : Bytes} (hb : b.Ok)
    (hfits : contents.length + header.length ≤ b.getRemainingSpace) :
    ∃ b', writePacket b header contents = some b' ∧ b'.Ok ∧ b'.content = b.content ++ header ++ contents := by
  obtain ⟨b₁, h₁, hok₁, hc₁, -, hw₁, hl₁⟩ := (@MessageBuffer.write_spec b header) hb (by omega)
  have hrem : contents.length ≤ b₁.getRemainingSpace := by
    rw [hb.remainingSpace] at hfits
    rw [hok₁.remainingSpace]
    omega
  obtain ⟨b₂, h₂, hok₂, hc₂, -⟩ := MessageBuffer.write_spec hok₁ hrem
  rw [writePacket, h₁]
  simp only [Option.bind_eq_bind, Option.bind_some]
  split
  next he =>
    have he : contents = [] := by simpa using he
    exact ⟨b₁, rfl, hok₁, by rw [hc₁, he, List.append_nil]⟩
  next => exact ⟨b₂, h₂, hok₂, by rw [hc₂, hc₁]⟩

/-- A header is encrypted behind those of the packets before it. -/
theorem Inv.encodeHeader (h : Inv processed extra ws) (queued : EncryptablePacket) :
    Inv (processed ++ [queued]) (extra ++ ((encodeHeader ws.authCrypt queued).2 ++ queued.contents))
      { ws with authCrypt := (AtlasWow.Net.encodeHeader ws.authCrypt queued).1 } where
  buffers := h.buffers
  crypt := by simp [encode_append, encode, h.crypt]
  bytes := by
    simp only [encode_append, encode, ← h.crypt, ← h.bytes, List.append_nil, List.append_assoc]
    rfl
  marked := h.marked

theorem ok_emptied (n : Nat) : (MessageBuffer.moved.resize n).Ok ∧ (MessageBuffer.moved.resize n).content = [] :=
  ⟨⟨Nat.le_refl _, Nat.zero_le _⟩, by simp [MessageBuffer.content, MessageBuffer.resize, MessageBuffer.moved]⟩

/-- What turning packets into bytes leaves alone. -/
structure Kept (ws ws' : SendSocket c) : Prop where
  queued : ws'.queued = ws.queued
  key : ws'.key = ws.key
  closed : ws'.closed = ws.closed

theorem Kept.trans {ws'' : SendSocket c} (h : Kept ws ws') (h' : Kept ws' ws'') : Kept ws ws'' :=
  ⟨h'.queued.trans h.queued, h'.key.trans h.key, h'.closed.trans h.closed⟩

/-- **One packet.** Its bytes follow those of the packets before it. -/
theorem updatePacket_spec {buffer : MessageBuffer} (queued : EncryptablePacket) (h : Inv processed buffer.content ws)
    (hb : buffer.Ok) :
    ∃ buffer' ws', updatePacket (buffer, ws) queued = some (buffer', ws') ∧ buffer'.Ok ∧
      Inv (processed ++ [queued]) buffer'.content ws' ∧ Kept ws ws' := by
  have hinv := h.encodeHeader queued
  have hlen := (@length_encodeHeader _ ws.authCrypt) queued
  simp only [updatePacket]
  generalize encodeHeader ws.authCrypt queued = r at hinv hlen
  obtain ⟨authCrypt, header⟩ := r
  simp only at hinv hlen ⊢
  by_cases hflush : buffer.getRemainingSpace < queued.contents.length + queued.header.getHeaderLength
  · simp only [hflush, if_true]
    have hq := hinv.queuePacket hb
    obtain ⟨ws₁, hws₁⟩ : ∃ ws₁ : SendSocket c, ws₁ = ({ ws with authCrypt := authCrypt }).queuePacket buffer := ⟨_, rfl⟩
    have hk : Kept ws ws₁ := by rw [hws₁]; exact ⟨rfl, rfl, rfl⟩
    rw [← hws₁] at hq ⊢
    obtain ⟨hok, hnil⟩ := ok_emptied ws₁.sendBufferSize
    split
    next hfits =>
      obtain ⟨b, hw, hokb, hc⟩ := (@writePacket_spec _ header queued.contents) hok
        (by rw [hlen]; exact hfits)
      refine ⟨b, ws₁, by simp [hw], hokb, ?_, hk⟩
      rw [hc, hnil, List.nil_append]
      exact hq
    next hlarge =>
    have hokp := MessageBuffer.ok_ofSize (queued.contents.length + queued.header.getHeaderLength)
    obtain ⟨b, hw, hokb, hc⟩ := (@writePacket_spec _ header queued.contents) hokp (by
      rw [hlen, hokp.remainingSpace]
      simp [MessageBuffer.ofSize])
    refine ⟨MessageBuffer.moved.resize ws₁.sendBufferSize, ws₁.queuePacket b, by simp [hw], hok, ?_,
      hk.queued, hk.key, hk.closed⟩
    rw [hnil]
    refine Inv.queuePacket ?_ hokb
    rw [hc, List.append_nil]
    exact hq
  · have hfits := Nat.le_of_not_lt hflush
    simp only [hflush, if_false]
    rw [if_pos hfits]
    obtain ⟨b, hw, hokb, hc⟩ := (@writePacket_spec _ header queued.contents) hb
      (by rw [hlen]; exact hfits)
    refine ⟨b, { ws with authCrypt := authCrypt }, by simp [hw], hokb, ?_, rfl, rfl, rfl⟩
    rw [hc, List.append_assoc]
    exact hinv

/-- All packets of the queue. -/
theorem updatePackets_spec : ∀ {packets processed : List EncryptablePacket} {buffer : MessageBuffer}
    {ws : SendSocket c}, Inv processed buffer.content ws → buffer.Ok →
    ∃ buffer' ws', packets.foldlM updatePacket (buffer, ws) = some (buffer', ws') ∧ buffer'.Ok ∧
      Inv (processed ++ packets) buffer'.content ws' ∧ Kept ws ws'
  | [], processed, buffer, ws, h, hb => ⟨buffer, ws, rfl, hb, by rwa [List.append_nil], rfl, rfl, rfl⟩
  | p :: ps, processed, buffer, ws, h, hb => by
    obtain ⟨b₁, ws₁, h₁, hb₁, hi₁, hk₁⟩ := updatePacket_spec p h hb
    obtain ⟨b₂, ws₂, h₂, hb₂, hi₂, hk₂⟩ := (@updatePackets_spec ps) hi₁ hb₁
    refine ⟨b₂, ws₂, by simp [List.foldlM_cons, h₁, h₂], hb₂, ?_, hk₁.trans hk₂⟩
    rwa [List.append_assoc] at hi₂

/-! ## Writing bytes to the socket -/

theorem writeSome_le {data : Bytes} (h : writeSome answer data = some n) : n ≤ data.length ∧ (n = 0 → data = []) := by
  unfold writeSome at h
  split at h
  next he =>
    cases h
    exact ⟨Nat.zero_le _, fun _ => by simpa using he⟩
  next hne =>
  obtain ⟨room, -, rfl⟩ := Option.map_eq_some_iff.1 h
  have : data ≠ [] := by simpa using hne
  have := List.length_pos_iff.2 this
  exact ⟨Nat.min_le_right _ _, fun h0 => by omega⟩

/-- Bytes move from the front of the write queue to the wire. -/
theorem Inv.write {queuedMessage : MessageBuffer} (h : Inv processed extra ws)
    (hq : ws.writeQueue = queuedMessage :: rest) (hw : ws'.wire = ws.wire ++ queuedMessage.content.take n)
    (hp : ws'.pending = queuedMessage.content.drop n ++ rest.flatMap MessageBuffer.content)
    (hok : ∀ b ∈ ws'.writeQueue, b.Ok) (hc : ws'.authCrypt = ws.authCrypt) (hk : ws'.key = ws.key)
    (hqueued : ws'.queued = ws.queued) : Inv processed extra ws' where
  buffers := hok
  crypt := by rw [hc, hk]; exact h.crypt
  bytes := by
    rw [hw, hp, hk, ← h.bytes, pending, hq, List.flatMap_cons]
    conv_rhs => rw [← List.take_append_drop n queuedMessage.content]
    simp only [List.append_assoc]
  marked := by rw [hk, hqueued]; exact h.marked

theorem pop_fields (ws : SendSocket c) : ws.pop.wire = ws.wire ∧ ws.pop.writeQueue = ws.writeQueue.tail ∧
    ws.pop.authCrypt = ws.authCrypt ∧ ws.pop.key = ws.key ∧ ws.pop.queued = ws.queued ∧
    ws.pop.bufferQueue = ws.bufferQueue := by
  simp only [pop]
  split <;> exact ⟨rfl, rfl, rfl, rfl, rfl, rfl⟩

theorem closed_pop (ws : SendSocket c) : ws.pop.closed = true → ws.closed = true ∨ ws.pop.writeQueue = [] := by
  simp only [pop]
  split
  next h =>
    simp only [Bool.and_eq_true, List.isEmpty_iff] at h
    exact fun _ => .inr h.2
  next => exact .inl

/-- What writing leaves alone; the socket is closed only when everything is written. -/
structure Writes (ws ws' : SendSocket c) : Prop where
  queued : ws'.queued = ws.queued
  bufferQueue : ws'.bufferQueue = ws.bufferQueue
  key : ws'.key = ws.key
  closed : ws'.closed = true → ws.closed = true ∨ ws'.writeQueue = []

theorem Writes.refl (ws : SendSocket c) : Writes ws ws := ⟨rfl, rfl, rfl, .inl⟩

/-- **One write.** -/
theorem handleQueue_spec (answer : Option Nat) (h : Inv processed extra ws) :
    Inv processed extra (handleQueue answer ws).1 ∧ Writes ws (handleQueue answer ws).1 := by
  simp only [handleQueue]
  split
  next => exact ⟨h, .refl _⟩
  next queuedMessage rest hq =>
  have hok := h.buffers
  rw [hq] at hok
  have hhead := hok _ List.mem_cons_self
  have hrest : ∀ b ∈ rest, b.Ok := fun b hb => hok b (List.mem_cons_of_mem _ hb)
  split
  next => exact ⟨⟨h.buffers, h.crypt, h.bytes, h.marked⟩, rfl, rfl, rfl, .inl⟩
  next n hn =>
  obtain ⟨hle, h0⟩ := writeSome_le hn
  obtain ⟨ws₁, hws₁⟩ : ∃ ws₁ : SendSocket c, ws₁ = { ws with wire := ws.wire ++ queuedMessage.content.take n } :=
    ⟨_, rfl⟩
  have hq₁ : ws₁.writeQueue = queuedMessage :: rest := by rw [hws₁]; exact hq
  obtain ⟨hpw, hpq, hpc, hpk, hpqd, hpb⟩ := pop_fields ws₁
  have hwrites : Writes ws ws₁.pop := by
    refine ⟨hpqd.trans ?_, hpb.trans ?_, hpk.trans ?_, fun hc => (closed_pop ws₁ hc).imp_left fun hc => ?_⟩
    · rw [hws₁]
    · rw [hws₁]
    · rw [hws₁]
    · rw [hws₁] at hc; exact hc
  have popped : queuedMessage.content.drop n = [] → Inv processed extra ws₁.pop := fun hd => by
    refine h.write hq (hpw.trans (by rw [hws₁])) ?_ ?_ (hpc.trans (by rw [hws₁])) hwrites.key hwrites.queued
    · rw [hd, List.nil_append, pending, hpq, hq₁, List.tail_cons]
    · rw [hpq, hq₁]
      exact hrest
  rw [← hws₁]
  split
  next hz => exact ⟨popped (by rw [h0 hz, List.drop_nil]), hwrites⟩
  next hnz =>
  split
  next hlt =>
    refine ⟨h.write hq rfl ?_ ?_ rfl rfl rfl, rfl, rfl, rfl, .inl⟩
    · simp only [pending, List.flatMap_cons, MessageBuffer.content_readCompleted]
    · intro b hb
      rcases List.mem_cons.1 hb with rfl | hb
      · exact MessageBuffer.ok_readCompleted hhead (Nat.le_of_lt hlt)
      · exact hrest b hb
  next hge =>
  rw [← hhead.length_content] at hge
  exact ⟨popped (List.drop_eq_nil_of_le (Nat.le_of_not_lt hge)), hwrites⟩

theorem more_to_write (h : (handleQueue answer ws).2 = true) : (handleQueue answer ws).1.writeQueue ≠ [] := by
  cases hq : ws.writeQueue with
  | nil => simp [handleQueue, hq] at h
  | cons queuedMessage rest =>
  cases hn : writeSome answer queuedMessage.content with
  | none => simp [handleQueue, hq, hn] at h
  | some n =>
  simp only [handleQueue, hq, hn] at h ⊢
  split at h
  · cases h
  next hz =>
  split at h
  · cases h
  next hge =>
  rw [if_neg hz, if_neg hge, (pop_fields _).2.1]
  simpa using h

theorem handleQueues_spec : ∀ (answers : List (Option Nat)) {ws : SendSocket c}, Inv processed extra ws →
    Inv processed extra (handleQueues answers ws) ∧ Writes ws (handleQueues answers ws)
  | [], ws, h => handleQueue_spec none h
  | answer :: answers, ws, h => by
    obtain ⟨h₁, hw₁⟩ := handleQueue_spec answer h
    simp only [handleQueues]
    split
    next hmore =>
      obtain ⟨h₂, hw₂⟩ := handleQueues_spec answers h₁
      refine ⟨h₂, hw₂.queued.trans hw₁.queued, hw₂.bufferQueue.trans hw₁.bufferQueue, hw₂.key.trans hw₁.key,
        fun hc => ?_⟩
      -- the loop goes on only with something left to write
      rcases hw₂.closed hc with hc₁ | hnil
      · exact .inl ((hw₁.closed hc₁).resolve_right (more_to_write hmore))
      · exact .inr hnil
    next => exact ⟨h₁, hw₁⟩

theorem socketUpdate_spec (answers : List (Option Nat)) (h : Inv processed extra ws) :
    Inv processed extra (socketUpdate answers ws) ∧ Writes ws (socketUpdate answers ws) := by
  unfold socketUpdate
  split
  · exact ⟨h, .refl _⟩
  split
  · exact ⟨h, .refl _⟩
  · exact handleQueues_spec answers h

/-- **`Update`** fails nowhere, and leaves no packet in the queue. -/
theorem update_spec (answers : List (Option Nat)) (h : Inv processed [] ws) :
    ∃ ws', update answers ws = some ws' ∧ Inv (processed ++ ws.bufferQueue) [] ws' ∧ ws'.queued = ws.queued ∧
      ws'.bufferQueue = [] ∧ ws'.key = ws.key ∧ (ws'.closed = true → ws.closed = true ∨ ws'.writeQueue = []) := by
  obtain ⟨buffer, ws₁, h₁, hb₁, hi₁, hk₁⟩ :=
    (@updatePackets_spec _ ws.bufferQueue _ (.ofSize ws.sendBufferSize)) h (MessageBuffer.ok_ofSize _)
  obtain ⟨ws₂, hws₂⟩ : ∃ ws₂ : SendSocket c, ws₂ = if 0 < buffer.getActiveSize
      then ({ ws₁ with bufferQueue := [] } : SendSocket c).queuePacket buffer else { ws₁ with bufferQueue := [] } :=
    ⟨_, rfl⟩
  have hi₂ : Inv (processed ++ ws.bufferQueue) [] ws₂ ∧ ws₂.bufferQueue = [] ∧ Kept ws₁ ws₂ := by
    have hi : Inv (processed ++ ws.bufferQueue) buffer.content { ws₁ with bufferQueue := [] } :=
      ⟨hi₁.buffers, hi₁.crypt, hi₁.bytes, hi₁.marked⟩
    rw [hws₂]
    split
    next => exact ⟨Inv.queuePacket (by rwa [List.append_nil]) hb₁, rfl, rfl, rfl, rfl⟩
    next h0 =>
    have hnil : buffer.content = [] := List.eq_nil_of_length_eq_zero (by rw [hb₁.length_content]; omega)
    rw [hnil] at hi
    exact ⟨hi, rfl, rfl, rfl, rfl⟩
  have hk := hk₁.trans hi₂.2.2
  obtain ⟨hi₃, hw₃⟩ := socketUpdate_spec answers hi₂.1
  refine ⟨socketUpdate answers ws₂, ?_, hi₃, hw₃.queued.trans hk.queued, hw₃.bufferQueue.trans hi₂.2.1,
    hw₃.key.trans hk.key, fun hc => (hw₃.closed hc).imp_left fun hc => ?_⟩
  · simp [update, h₁, hws₂]
  · rwa [hk.closed] at hc

/-! ## Runs -/

/-- What a run keeps. -/
def Sends (ws : SendSocket c) : Prop := ∃ processed, ws.queued = processed ++ ws.bufferQueue ∧ Inv processed [] ws

theorem Sends.step {e : Event c} (h : Sends ws) (he : Allowed e ws) : ∃ ws', step e ws = some ws' ∧ Sends ws' := by
  obtain ⟨processed, hq, hi⟩ := h
  cases e with
  | sendPacket packet =>
    refine ⟨_, rfl, processed, ?_, ?_⟩
    · unfold sendPacket
      split
      · rw [hq, List.append_assoc]
      · exact hq
    · unfold sendPacket
      split
      next =>
        refine ⟨hi.buffers, hi.crypt, hi.bytes, fun hk p hp => ?_⟩
        rcases List.mem_append.1 hp with hp | hp
        · exact hi.marked hk p hp
        rw [List.mem_singleton.1 hp]
        -- without a key there is no cipher
        have hnone : ws.authCrypt.isSome = false := by rw [hi.crypt, isSome_encode]; simp [show ws.key = none from hk]
        cases hm : packet.encrypt with
        | false => rfl
        | true => rw [he hm] at hnone; cases hnone
      next => exact hi
  | initCrypt key =>
    have hk : ws.key = none := by
      have : ws.authCrypt.isSome = false := by simp [show ws.authCrypt = none from he]
      rw [hi.crypt, isSome_encode] at this
      simpa using this
    have hunmarked : ∀ p ∈ processed, p.encrypt = false := fun p hp =>
      hi.marked hk p (by rw [hq]; exact List.mem_append_left _ hp)
    refine ⟨_, rfl, processed, hq, hi.buffers, ?_, ?_, fun h => by cases h⟩
    · simp [initCrypt, encode_unmarked hunmarked (some key)]
    · simp only [initCrypt, encode_unmarked hunmarked (some key)]
      rw [← hk]
      exact hi.bytes
  | update answers =>
    obtain ⟨ws', h', hi', hq', hb', -⟩ := update_spec answers hi
    exact ⟨ws', h', _, by rw [hq', hb', List.append_nil]; exact hq, hi'⟩
  | writable answer =>
    have hi' : Inv processed [] { ws with isWritingAsync := false } := ⟨hi.buffers, hi.crypt, hi.bytes, hi.marked⟩
    obtain ⟨h₁, hw₁⟩ := handleQueue_spec answer hi'
    exact ⟨_, rfl, processed, by rw [writeHandlerWrapper, hw₁.queued, hw₁.bufferQueue]; exact hq, h₁⟩
  | closeSocket => exact ⟨_, rfl, processed, hq, ⟨hi.buffers, hi.crypt, hi.bytes, hi.marked⟩⟩
  | delayedCloseSocket => exact ⟨_, rfl, processed, hq, ⟨hi.buffers, hi.crypt, hi.bytes, hi.marked⟩⟩

theorem reached_sends (hr : Reaches step Allowed (start n : SendSocket c) ws) : Sends ws := by
  refine hr.invariant Sends ?_ ⟨[], rfl, inv_start n⟩
  intro e ws ws' h he hs
  obtain ⟨ws'', h', hsends⟩ := h.step he
  rw [hs] at h'
  cases h'
  exact hsends

/-! ## Everything is sent in the end -/

/-- What a step that only sends leaves alone, when it shortens the write queue to `rest`. -/
structure Sent (ws ws' : SendSocket c) (rest : List MessageBuffer) : Prop where
  writeQueue : ws'.writeQueue = rest
  queued : ws'.queued = ws.queued
  bufferQueue : ws'.bufferQueue = ws.bufferQueue
  key : ws'.key = ws.key
  closed : rest = [] ∨ ws'.closed = ws.closed

theorem sent_pop (hq : ws'.writeQueue = b :: rest)
    (h₁ : ws'.queued = ws.queued) (h₂ : ws'.bufferQueue = ws.bufferQueue) (h₃ : ws'.closed = ws.closed)
    (h₄ : ws'.key = ws.key) : Sent ws ws'.pop rest := by
  obtain ⟨-, hpq, -, hk, hqd, hbq⟩ := pop_fields ws'
  rw [hq, List.tail_cons] at hpq
  refine ⟨hpq, hqd.trans h₁, hbq.trans h₂, hk.trans h₄, ?_⟩
  simp only [pop, hq, List.tail_cons]
  split
  next h =>
    simp only [Bool.and_eq_true, List.isEmpty_iff] at h
    exact .inl h.2
  next => exact .inr h₃

/-- A socket that takes all of the head of the write queue. -/
theorem sent_writable (hb : b.Ok) (hq : ws.writeQueue = b :: rest) :
    Sent ws (writeHandlerWrapper (some b.content.length) ws) rest := by
  simp only [writeHandlerWrapper, handleQueue, hq, writeSome]
  cases hc : b.content with
  | nil =>
    simp only [List.isEmpty_nil, if_true]
    exact sent_pop (by rfl) (by rfl) (by rfl) (by rfl) (by rfl)
  | cons x xs =>
    have hlen : b.getActiveSize = xs.length + 1 := by rw [← hb.length_content, hc]; rfl
    simp only [List.isEmpty_cons, Bool.false_eq_true, if_false, Option.map_some, List.length_cons, hlen]
    rw [if_neg (by omega), if_neg (by omega)]
    exact sent_pop (by rfl) (by rfl) (by rfl) (by rfl) (by rfl)

/-- An update that cannot write: it sends nothing but empty buffers, and waits. -/
theorem update_blocked (hclosed : ws.closed = false)
    (hidle : ws.isWritingAsync = false) (hbq : ws.bufferQueue = []) (hq : ws.writeQueue = b :: rest) :
    ∃ ws', update [] ws = some ws' ∧
      (Sent ws ws' rest ∨ (Sent ws ws' ws.writeQueue ∧ ws'.isWritingAsync = true ∧ ws'.closed = false)) := by
  have hupdate : update [] ws = some (handleQueue none { ws with bufferQueue := [] }).1 := by
    simp [update, hbq, MessageBuffer.ofSize, MessageBuffer.getActiveSize, sizeSub, socketUpdate, hclosed, hidle, hq,
      handleQueues]
  refine ⟨_, hupdate, ?_⟩
  simp only [handleQueue, hq, writeSome]
  cases hc : b.content with
  | nil =>
    simp only [List.isEmpty_nil, if_true]
    exact .inl (sent_pop (by rfl) (by rfl) hbq.symm (by rfl) (by rfl))
  | cons x xs => exact .inr ⟨⟨rfl, rfl, hbq.symm, rfl, .inr rfl⟩, rfl, hclosed⟩

/-- From any state whose packets have been turned into bytes, the socket can write them all. -/
theorem drains : ∀ {n : Nat} {ws : SendSocket c}, Sends ws → ws.closed = false → ws.bufferQueue = [] →
    ws.writeQueue.length = n →
    ∃ ws', Reaches step Allowed ws ws' ∧ ws'.writeQueue = [] ∧ ws'.bufferQueue = [] ∧ ws'.queued = ws.queued ∧
      ws'.key = ws.key
  | 0, ws, _, _, hbq, hn => ⟨ws, .refl, List.eq_nil_of_length_eq_zero hn, hbq, rfl, rfl⟩
  | n + 1, ws, hs, hclosed, hbq, hn => by
    obtain ⟨b, rest, hq⟩ := List.exists_cons_of_length_eq_add_one hn
    have hrest : rest.length = n := by rw [hq] at hn; simpa using hn
    -- one buffer less, and on with the others
    have next : ∀ {ws₁ ws₂ : SendSocket c} (e : Event c), Sends ws₁ → ws₁.closed = false → ws₁.bufferQueue = [] →
        Allowed e ws₁ → step e ws₁ = some ws₂ → Sent ws₁ ws₂ rest →
        ∃ ws', Reaches step Allowed ws₁ ws' ∧ ws'.writeQueue = [] ∧ ws'.bufferQueue = [] ∧
          ws'.queued = ws₁.queued ∧ ws'.key = ws₁.key := by
      intro ws₁ ws₂ e hs₁ hc₁ hb₁ he h₂ hsent
      obtain ⟨ws₂', h₂', hs₂⟩ := hs₁.step he
      rw [h₂] at h₂'
      cases h₂'
      rcases hsent.closed with hnil | hc₂
      · exact ⟨ws₂, .tail e .refl he h₂, hsent.writeQueue.trans hnil, hsent.bufferQueue.trans hb₁, hsent.queued,
          hsent.key⟩
      obtain ⟨ws', hr, hw, hb, hqd, hk⟩ := drains (n := n) hs₂ (hc₂.trans hc₁) (hsent.bufferQueue.trans hb₁)
        (by rw [hsent.writeQueue, hrest])
      exact ⟨ws', Reaches.trans (.tail e .refl he h₂) hr, hw, hb, hqd.trans hsent.queued, hk.trans hsent.key⟩
    -- the socket becomes writable, and takes the head
    have writable : ∀ {ws₁ : SendSocket c}, Sends ws₁ → ws₁.closed = false → ws₁.bufferQueue = [] →
        ws₁.isWritingAsync = true → ws₁.writeQueue = b :: rest →
        ∃ ws', Reaches step Allowed ws₁ ws' ∧ ws'.writeQueue = [] ∧ ws'.bufferQueue = [] ∧
          ws'.queued = ws₁.queued ∧ ws'.key = ws₁.key := by
      intro ws₁ hs₁ hc₁ hb₁ hw₁ hwq₁
      have hok : b.Ok := by
        obtain ⟨_, _, hi⟩ := hs₁
        exact hi.buffers b (by rw [hwq₁]; exact List.mem_cons_self)
      exact next (.writable (some b.content.length)) hs₁ hc₁ hb₁ ⟨hw₁, hc₁⟩ rfl (sent_writable hok hwq₁)
    cases hidle : ws.isWritingAsync with
    | true => exact writable hs hclosed hbq hidle hq
    | false =>
      obtain ⟨ws₁, h₁, hsent | ⟨hsent, hw₁, hc₁⟩⟩ := update_blocked hclosed hidle hbq hq
      · exact next (.update []) hs hclosed hbq trivial h₁ hsent
      · obtain ⟨ws₁', h₁', hs₁⟩ := hs.step (e := .update []) trivial
        rw [show step (.update []) ws = some ws₁ from h₁] at h₁'
        cases h₁'
        obtain ⟨ws', hr, hw, hb, hqd, hk⟩ := writable hs₁ hc₁ (hsent.bufferQueue.trans hbq) hw₁
          (hsent.writeQueue.trans hq)
        exact ⟨ws', Reaches.trans (.tail (.update []) .refl trivial h₁) hr, hw, hb, hqd.trans hsent.queued,
          hk.trans hsent.key⟩

end SendSocket

end AtlasWow.Net
