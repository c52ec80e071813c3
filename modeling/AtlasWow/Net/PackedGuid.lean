/-
Packed guids (`ByteBuffer::appendPackGUID`, `ByteBuffer::readPackGUID`): a mask
with a bit for every byte that is not zero, then those bytes. What is appended
is read back wherever it stands (`readPackGUID_packGUID`), and no bytes make
the reader leave the buffer (`readPackGUID_within`). A `PackedGuid` is streamed as
the last guid that was set, however long the ones before it were
(`PackedGuid.stream_last`).
-/
import AtlasWow.Net.ByteBuffer
import Mathlib.Data.Nat.Bitwise

namespace AtlasWow.Net

/-- A `ByteBuffer` that is also written to. -/
structure WriteBuffer extends ByteBuffer where
  wpos : Nat

namespace WriteBuffer

/-- `append(src, cnt)`; `none` where an assertion fails. -/
def append (b : WriteBuffer) (src : Bytes) : Option WriteBuffer :=
  if src = [] ∨ 10000000 ≤ b.storage.length then none
  else
    let newSize := b.wpos + src.length
    let storage := b.storage ++ List.replicate (newSize - b.storage.length) 0
    some { b with storage := storage.take b.wpos ++ src ++ storage.drop newSize, wpos := newSize }

end WriteBuffer

/-- The loop of `appendPackGUID`, the mask apart from the bytes that follow it; a guid has no more bytes than eight. -/
def packLoop : Nat → Nat → Nat → Nat → Bytes → Nat × Bytes
  | 0, _, _, mark, bytes => (mark, bytes)
  | fuel + 1, i, guid, mark, bytes =>
    if guid = 0 then (mark, bytes)
    else if guid &&& 0xFF ≠ 0 then
      packLoop fuel (i + 1) (guid >>> 8) (mark ||| (1 <<< i) % 2 ^ 8) (bytes ++ [UInt8.ofNat (guid &&& 0xFF)])
    else packLoop fuel (i + 1) (guid >>> 8) mark bytes

/-- `packGUID`: what `appendPackGUID` appends. -/
def packGUID (guid : BitVec 64) : Bytes :=
  let packed := packLoop 8 0 guid.toNat 0 []
  UInt8.ofNat packed.1 :: packed.2

def WriteBuffer.appendPackGUID (b : WriteBuffer) (guid : BitVec 64) : Option WriteBuffer := b.append (packGUID guid)

/-- How a read ends: with a value, with the exception, or outside the storage. -/
inductive ReadResult (α : Type) where
  | value (a : α) (b : ByteBuffer)
  | thrown (b : ByteBuffer)
  | fault

namespace ByteBuffer

/-- `read<uint8>()`, its access to the storage as it is. No vector is long enough for a position to wrap. -/
def readUInt8 (b : ByteBuffer) : ReadResult UInt8 :=
  if b.rpos + 1 > b.storage.length then .thrown b
  else match b.storage[b.rpos]? with
    | some val => .value val { b with rpos := b.rpos + 1 }
    | none => .fault

/-- The loop of `readPackGUID` over the bits `is`. -/
def readPackedBytes (guidmark : Nat) : List Nat → Nat → ByteBuffer → ReadResult Nat
  | [], guid, b => .value guid b
  | i :: is, guid, b =>
    if guidmark &&& (1 <<< i) ≠ 0 then
      if b.rpos + 1 > b.storage.length then .thrown b
      else match b.readUInt8 with
        | .value bit b => readPackedBytes guidmark is (guid ||| (bit.toNat <<< (i * 8))) b
        | .thrown b => .thrown b
        | .fault => .fault
    else readPackedBytes guidmark is guid b

def readPackGUID (b : ByteBuffer) : ReadResult Nat :=
  if b.rpos + 1 > b.storage.length then .thrown b
  else match b.readUInt8 with
    | .value guidmark b => readPackedBytes guidmark.toNat (List.range 8) 0 b
    | .thrown b => .thrown b
    | .fault => .fault

end ByteBuffer

/-- The bytes of a guid that are not zero, the lowest first. -/
def nonZeroBytes (guid : BitVec 64) : Bytes := (leBytes 8 guid.toNat).filter (· ≠ 0)

/-! ### Writing -/

theorem leBytes_zero (w : Nat) : leBytes w 0 = List.replicate w 0 := by
  induction w with
  | zero => rfl
  | succ w ih =>
    rw [leBytes, Nat.zero_div, ih]
    rfl

theorem and_ff (n : Nat) : n &&& 0xFF = n % 256 := Nat.and_two_pow_sub_one_eq_mod n 8

theorem ofNat_eq_zero (n : Nat) : UInt8.ofNat n = 0 ↔ n % 256 = 0 := by
  rw [← UInt8.toNat_inj, UInt8.toNat_ofNat']
  rfl

theorem ofNat_mod (n : Nat) : UInt8.ofNat (n % 256) = UInt8.ofNat n := by
  rw [← UInt8.toNat_inj, UInt8.toNat_ofNat', UInt8.toNat_ofNat', Nat.mod_mod]

/-- One byte of the loop, zero or not. -/
theorem packLoop_succ (fuel i guid mark : Nat) (bytes : Bytes) (h : guid ≠ 0) :
    packLoop (fuel + 1) i guid mark bytes =
      if UInt8.ofNat guid = 0 then packLoop fuel (i + 1) (guid / 256) mark bytes
      else packLoop fuel (i + 1) (guid / 256) (mark ||| (1 <<< i) % 2 ^ 8) (bytes ++ [UInt8.ofNat guid]) := by
  rw [packLoop, if_neg h, and_ff, ofNat_mod, Nat.shiftRight_eq_div_pow]
  simp only [ofNat_eq_zero, ne_eq, ite_not]

theorem packLoop_bytes (fuel i guid mark : Nat) (bytes : Bytes) :
    (packLoop fuel i guid mark bytes).2 = bytes ++ (leBytes fuel guid).filter (· ≠ 0) := by
  induction fuel generalizing i guid mark bytes with
  | zero => simp [packLoop, leBytes]
  | succ fuel ih =>
    by_cases h : guid = 0
    · rw [packLoop, if_pos h, h, leBytes_zero]
      simp
    rw [packLoop_succ _ _ _ _ _ h, leBytes]
    split
    next hzero => rw [ih, hzero, List.filter_cons_of_neg (by simp)]
    next hne => rw [ih, List.filter_cons_of_pos (by simp [hne]), List.append_assoc, List.singleton_append]

variable {i rpos : Nat} {storage post : Bytes} {α : Type}

theorem testBit_setBit (hi : i < 8) (mark k : Nat) :
    (mark ||| (1 <<< i) % 2 ^ 8).testBit k = (mark.testBit k || decide (i = k)) := by
  have hpow : (1 <<< i) % 2 ^ 8 = 2 ^ i := by
    rw [Nat.shiftLeft_eq, Nat.one_mul, Nat.mod_eq_of_lt (Nat.pow_lt_pow_right (by decide) hi)]
  rw [hpow, Nat.testBit_or, Nat.testBit_two_pow]

/-- The bits of the mask: those that were set, and one for every byte that is not zero. -/
theorem packLoop_mark (fuel i guid mark : Nat) (bytes : Bytes) (hi : i + fuel = 8) (k : Nat) :
    (packLoop fuel i guid mark bytes).1.testBit k =
      (mark.testBit k || (decide (i ≤ k) && ((leBytes fuel guid)[k - i]?).any (· ≠ 0))) := by
  induction fuel generalizing i guid mark bytes with
  | zero => simp [packLoop, leBytes]
  | succ fuel ih =>
    by_cases h : guid = 0
    · rw [packLoop, if_pos h, h, leBytes_zero, List.getElem?_replicate]
      split <;> simp
    rw [packLoop_succ _ _ _ _ _ h, leBytes]
    rcases Nat.lt_trichotomy k i with hk | rfl | hk
    · have hnot : ¬ i ≤ k := by omega
      have hnot' : ¬ i + 1 ≤ k := by omega
      split
      · simp [ih _ _ _ _ (show i + 1 + fuel = 8 by omega), hnot, hnot']
      · rw [ih _ _ _ _ (by omega), testBit_setBit (by omega)]
        simp [hnot, hnot', show i ≠ k by omega]
    · have hnot : ¬ k + 1 ≤ k := by omega
      split
      next hzero => simp [ih _ _ _ _ (show k + 1 + fuel = 8 by omega), hzero, hnot]
      next hne =>
      rw [ih _ _ _ _ (by omega), testBit_setBit (by omega)]
      simp [hne, hnot]
    · have hsub : k - i = k - (i + 1) + 1 := by omega
      rw [hsub, List.getElem?_cons_succ]
      split
      · simp [ih _ _ _ _ (show i + 1 + fuel = 8 by omega), show i + 1 ≤ k by omega, show i ≤ k by omega]
      · rw [ih _ _ _ _ (by omega), testBit_setBit (by omega)]
        simp [show i + 1 ≤ k by omega, show i ≤ k by omega, show i ≠ k by omega]

theorem packLoop_mark_lt (fuel i guid mark : Nat) (bytes : Bytes) (hi : i + fuel = 8) (hmark : mark < 2 ^ 8) :
    (packLoop fuel i guid mark bytes).1 < 2 ^ 8 := by
  induction fuel generalizing i guid mark bytes with
  | zero => exact hmark
  | succ fuel ih =>
    rw [packLoop]
    split
    · exact hmark
    split
    · exact ih _ _ _ _ (by omega) (Nat.or_lt_two_pow hmark (Nat.mod_lt _ (by decide)))
    · exact ih _ _ _ _ (by omega) hmark

/-- What is appended: the mask, then the bytes that are not zero. -/
theorem packGUID_eq (guid : BitVec 64) : ∃ mark : UInt8, packGUID guid = mark :: nonZeroBytes guid ∧
    ∀ k, mark.toNat.testBit k = ((leBytes 8 guid.toNat)[k]?).any (· ≠ 0) := by
  refine ⟨UInt8.ofNat (packLoop 8 0 guid.toNat 0 []).1, ?_, fun k => ?_⟩
  · simp only [packGUID, packLoop_bytes, List.nil_append, nonZeroBytes]
  · rw [UInt8.toNat_ofNat_of_lt' (packLoop_mark_lt _ _ _ _ _ rfl (by decide)), packLoop_mark _ _ _ _ _ rfl]
    simp

/-! ### Reading -/

theorem readUInt8_eq {val : UInt8} (h : storage.drop rpos = val :: post) :
    rpos + 1 ≤ storage.length ∧ (⟨rpos, storage⟩ : ByteBuffer).readUInt8 = .value val ⟨rpos + 1, storage⟩ := by
  have hlength := congrArg List.length h
  rw [List.length_drop, List.length_cons] at hlength
  have hget : storage[rpos]? = some val := by rw [← Nat.add_zero rpos, ← List.getElem?_drop, h, List.getElem?_cons_zero]
  refine ⟨by omega, ?_⟩
  rw [ByteBuffer.readUInt8, if_neg (by simp only; omega)]
  simp only [hget]

theorem testBit_iff (mark i : Nat) : mark &&& (1 <<< i) ≠ 0 ↔ mark.testBit i = true := by
  rw [Nat.shiftLeft_eq, Nat.one_mul, Nat.and_two_pow]
  cases mark.testBit i <;> simp

/-- The bits of the mask from `i` on, against the bytes `bs` that they stand for. -/
theorem readPackedBytes_eq {mark guid : Nat} {bs : Bytes}
    (hmark : ∀ k < bs.length, mark.testBit (i + k) = (bs[k]?).any (· ≠ 0)) (hguid : guid < 2 ^ (i * 8))
    (hstorage : storage.drop rpos = bs.filter (· ≠ 0) ++ post) :
    (⟨rpos, storage⟩ : ByteBuffer).readPackedBytes mark (List.range' i bs.length) guid =
      .value (guid + 2 ^ (i * 8) * leNat bs) ⟨rpos + (bs.filter (· ≠ 0)).length, storage⟩ := by
  induction bs generalizing i guid rpos with
  | nil => simp [ByteBuffer.readPackedBytes, leNat]
  | cons b bs ih =>
    have hpow : 2 ^ ((i + 1) * 8) = 2 ^ (i * 8) * 256 := by rw [Nat.add_mul, Nat.pow_add]
    have hbit : mark.testBit i = decide (b ≠ 0) := hmark 0 (Nat.succ_pos _)
    have hmark' : ∀ k < bs.length, mark.testBit (i + 1 + k) = (bs[k]?).any (· ≠ 0) := fun k hk => by
      have hk' := hmark (k + 1) (Nat.succ_lt_succ hk)
      rwa [Nat.add_comm k 1, ← Nat.add_assoc, Nat.add_comm 1 k, List.getElem?_cons_succ] at hk'
    rw [List.length_cons, List.range'_succ, ByteBuffer.readPackedBytes, leNat]
    by_cases hb : b = 0
    · rw [if_neg (by rw [testBit_iff, hbit]; simp [hb])]
      rw [List.filter_cons_of_neg (by simp [hb])] at hstorage ⊢
      rw [ih hmark' (by omega) hstorage, hpow, hb, Nat.mul_assoc]
      simp
    have hor : guid ||| (b.toNat <<< (i * 8)) = guid + 2 ^ (i * 8) * b.toNat := by
      rw [Nat.shiftLeft_eq, Nat.mul_comm, Nat.or_comm, ← Nat.two_pow_add_eq_or_of_lt hguid, Nat.add_comm]
    have hbyte : 2 ^ (i * 8) * b.toNat ≤ 2 ^ (i * 8) * 255 := Nat.mul_le_mul_left _ (by have := b.toNat_lt; omega)
    rw [List.filter_cons_of_pos (by simp [hb])] at hstorage ⊢
    obtain ⟨hin, hread⟩ := readUInt8_eq hstorage
    have hrest : storage.drop (rpos + 1) = bs.filter (· ≠ 0) ++ post := by
      rw [← List.drop_drop, hstorage]
      rfl
    rw [if_pos ((testBit_iff ..).2 (by rw [hbit]; simp [hb])), if_neg (by simp only; omega)]
    simp only [hread, hor]
    rw [ih hmark' (by omega) hrest, hpow, List.length_cons, Nat.mul_add, Nat.mul_assoc, Nat.add_assoc, Nat.add_assoc,
      Nat.add_comm 1]

/-- Wherever a packed guid stands, it is read and nothing more. -/
theorem readPackGUID_packGUID (guid : BitVec 64) (pre post : Bytes) :
    (⟨pre.length, pre ++ packGUID guid ++ post⟩ : ByteBuffer).readPackGUID =
      .value guid.toNat ⟨pre.length + (1 + (nonZeroBytes guid).length), pre ++ packGUID guid ++ post⟩ := by
  obtain ⟨mark, hpacked, hmark⟩ := packGUID_eq guid
  have hstorage : (pre ++ packGUID guid ++ post).drop pre.length = mark :: (nonZeroBytes guid ++ post) := by
    rw [List.append_assoc, List.drop_left, hpacked, List.cons_append]
  have hrest : (pre ++ packGUID guid ++ post).drop (pre.length + 1) = nonZeroBytes guid ++ post := by
    rw [← List.drop_drop, hstorage]
    rfl
  obtain ⟨hin, hread⟩ := readUInt8_eq hstorage
  have hmark₀ : ∀ k < (leBytes 8 guid.toNat).length, mark.toNat.testBit (0 + k) = ((leBytes 8 guid.toNat)[k]?).any (· ≠ 0) :=
    fun k _ => by rw [Nat.zero_add]; exact hmark k
  have hbytes := readPackedBytes_eq hmark₀ (Nat.two_pow_pos _) hrest
  rw [length_leBytes, leNat_leBytes guid.isLt] at hbytes
  rw [ByteBuffer.readPackGUID, if_neg (by simp only; omega)]
  simp only [hread, List.range_eq_range']
  rw [hbytes]
  simp [nonZeroBytes, Nat.add_assoc]

/-- Where `append` writes stand the bytes it was given. -/
theorem append_eq_some {b b' : WriteBuffer} {src : Bytes} (h : b.append src = some b') :
    b'.wpos = b.wpos + src.length ∧ ∃ pre post, pre.length = b.wpos ∧ b'.storage = pre ++ src ++ post := by
  rw [WriteBuffer.append] at h
  split at h
  next => exact nomatch h
  next =>
  obtain rfl := Option.some.inj h
  refine ⟨rfl, _, _, ?_, rfl⟩
  rw [List.length_take, List.length_append, List.length_replicate]
  omega

/-- How a read that began at `b` may end: within the storage, which stays as it is. -/
def ReadResult.Within {α : Type} (b : ByteBuffer) : ReadResult α → Prop
  | .value _ b' | .thrown b' =>
    b'.storage = b.storage ∧ b.rpos ≤ b'.rpos ∧ (b.rpos ≤ b.storage.length → b'.rpos ≤ b.storage.length)
  | .fault => False

theorem ReadResult.Within.after {b b' : ByteBuffer} {r : ReadResult α} (h : r.Within b')
    (hstorage : b'.storage = b.storage) (hrpos : b.rpos ≤ b'.rpos) (hin : b'.rpos ≤ b.storage.length) : r.Within b := by
  cases r with
  | value _ c | thrown c =>
    obtain ⟨hc, hle, hlast⟩ := h
    rw [hstorage] at hc hlast
    exact ⟨hc, Nat.le_trans hrpos hle, fun _ => hlast hin⟩
  | fault => exact h

theorem thrown_within (b : ByteBuffer) : (ReadResult.thrown b : ReadResult α).Within b :=
  ⟨rfl, Nat.le_refl _, id⟩

theorem readUInt8_cases (b : ByteBuffer) : b.readUInt8 = .thrown b ∨
    ∃ val, b.rpos + 1 ≤ b.storage.length ∧ b.readUInt8 = .value val { b with rpos := b.rpos + 1 } := by
  rw [ByteBuffer.readUInt8]
  split
  next => exact .inl rfl
  next h =>
  have hlt : b.rpos < b.storage.length := by omega
  rw [List.getElem?_eq_getElem hlt]
  exact .inr ⟨_, by omega, rfl⟩

theorem readPackedBytes_within (guidmark : Nat) (is : List Nat) (guid : Nat) (b : ByteBuffer) :
    (b.readPackedBytes guidmark is guid).Within b := by
  induction is generalizing guid b with
  | nil => exact ⟨rfl, Nat.le_refl _, id⟩
  | cons i is ih =>
    rw [ByteBuffer.readPackedBytes]
    split
    · split
      · exact thrown_within b
      · rcases readUInt8_cases b with h | ⟨val, hin, h⟩
        · rw [h]
          exact thrown_within b
        · have hnext := ih (guid ||| (val.toNat <<< (i * 8))) { b with rpos := b.rpos + 1 }
          rw [h]
          exact hnext.after rfl (Nat.le_succ b.rpos) hin
    · exact ih guid b

/-- No bytes make the reader leave the buffer. -/
theorem readPackGUID_within (b : ByteBuffer) : b.readPackGUID.Within b := by
  rw [ByteBuffer.readPackGUID]
  split
  · exact thrown_within b
  rcases readUInt8_cases b with h | ⟨val, hin, h⟩
  · rw [h]
    exact thrown_within b
  have hnext := readPackedBytes_within val.toNat (List.range 8) 0 { b with rpos := b.rpos + 1 }
  rw [h]
  exact hnext.after rfl (Nat.le_succ b.rpos) hin

/-- A guid that is appended to a buffer is read from where it was written, with any bytes before it and after it. -/
theorem readPackGUID_appendPackGUID (guid : BitVec 64) {b b' : WriteBuffer} (h : b.appendPackGUID guid = some b') :
    b'.wpos = b.wpos + (1 + (nonZeroBytes guid).length) ∧
    (∃ pre post, pre.length = b.wpos ∧ b'.storage = pre ++ packGUID guid ++ post) ∧
    (∀ pre post : Bytes, pre.length = b.wpos →
      (⟨b.wpos, pre ++ packGUID guid ++ post⟩ : ByteBuffer).readPackGUID =
        .value guid.toNat ⟨b'.wpos, pre ++ packGUID guid ++ post⟩ ∧
      (⟨b'.wpos, pre ++ packGUID guid ++ post⟩ : ByteBuffer).rest = post) ∧
    ∀ r : ByteBuffer, r.readPackGUID.Within r := by
  obtain ⟨hwpos, hstorage⟩ := append_eq_some h
  have hlength : (packGUID guid).length = 1 + (nonZeroBytes guid).length := by
    obtain ⟨mark, hpacked, -⟩ := packGUID_eq guid
    rw [hpacked, List.length_cons, Nat.add_comm]
  rw [hlength] at hwpos
  refine ⟨hwpos, hstorage, fun pre post hpre => ?_, readPackGUID_within⟩
  rw [hwpos, ← hpre]
  refine ⟨readPackGUID_packGUID guid pre post, ?_⟩
  rw [ByteBuffer.rest, ← hlength, ← List.length_append, List.drop_left]

/-- A guid with two bytes of its eight, between two other bytes. -/
theorem readPackGUID_appended : ∃ b' : WriteBuffer,
    (⟨⟨0, [9]⟩, 1⟩ : WriteBuffer).appendPackGUID 0x0100000002 = some b' ∧
      (⟨1, [9] ++ packGUID 0x0100000002 ++ [7]⟩ : ByteBuffer).readPackGUID =
        .value 0x0100000002 ⟨b'.wpos, [9] ++ packGUID 0x0100000002 ++ [7]⟩ :=
  ⟨_, rfl, ((readPackGUID_appendPackGUID 0x0100000002 (b := ⟨⟨0, [9]⟩, 1⟩) rfl).2.2.1 [9] [7] rfl).1⟩

/-! ### The object -/

/-- `append(buffer)`: what was written to the other buffer. Nothing can be taken from an empty vector. -/
def WriteBuffer.appendBuffer (b buffer : WriteBuffer) : Option WriteBuffer :=
  if buffer.wpos = 0 then some b
  else if buffer.storage = [] then none
  else b.append (buffer.storage.take buffer.wpos)

/-- A `PackedGuid`, by its buffer. -/
structure PackedGuid where
  packedGuid : WriteBuffer

namespace PackedGuid

/-- `PackedGuid(guid)`; `PackedGuid()` has the guid 0. -/
def ofGuid (guid : BitVec 64) : Option PackedGuid :=
  ((⟨⟨0, []⟩, 0⟩ : WriteBuffer).appendPackGUID guid).map PackedGuid.mk

/-- `Set`: from the beginning of the buffer, of which nothing is removed. -/
def set (p : PackedGuid) (guid : BitVec 64) : Option PackedGuid :=
  (WriteBuffer.appendPackGUID { p.packedGuid with wpos := 0 } guid).map PackedGuid.mk

/-- A new `PackedGuid` on which `Set` is called for some guids. -/
def sets (initial : BitVec 64) (guids : List (BitVec 64)) : Option PackedGuid := do
  guids.foldlM set (← ofGuid initial)

/-- `operator<<`. -/
def stream (b : WriteBuffer) (p : PackedGuid) : Option WriteBuffer := b.appendBuffer p.packedGuid

/-- The buffer up to its position is a packed guid; what follows is left from longer ones. -/
structure Holds (p : PackedGuid) (guid : BitVec 64) : Prop where
  length : p.packedGuid.storage.length ≤ 9
  bytes : p.packedGuid.storage.take p.packedGuid.wpos = packGUID guid
  wpos : p.packedGuid.wpos = (packGUID guid).length

theorem length_packGUID (guid : BitVec 64) : (packGUID guid).length = 1 + (nonZeroBytes guid).length ∧ (packGUID guid).length ≤ 9 := by
  obtain ⟨mark, hpacked, -⟩ := packGUID_eq guid
  have hle : (nonZeroBytes guid).length ≤ 8 := (List.length_filter_le ..).trans_eq (length_leBytes ..)
  rw [hpacked, List.length_cons]
  omega

/-- A packed guid can be appended to a buffer that is not too long. -/
theorem packGUID_appendable (guid : BitVec 64) {storage : Bytes} (h : storage.length < 10000000) :
    ¬(packGUID guid = [] ∨ 10000000 ≤ storage.length) := by
  obtain ⟨mark, hpacked, -⟩ := packGUID_eq guid
  rw [hpacked]
  rintro (hnil | hlong)
  · cases hnil
  · omega

/-- A guid that is written from the beginning of a buffer. -/
theorem appendPackGUID_start (storage : Bytes) (rpos : Nat) (guid : BitVec 64) (h : storage.length ≤ 9) :
    ∃ b, (⟨⟨rpos, storage⟩, 0⟩ : WriteBuffer).appendPackGUID guid = some b ∧ Holds ⟨b⟩ guid := by
  obtain ⟨hlength, hle⟩ := length_packGUID guid
  refine ⟨_, if_neg (packGUID_appendable guid (by simp only; omega)), ?_, ?_, Nat.zero_add _⟩
  · simp only [List.take_zero, List.nil_append, List.length_append, List.length_drop, List.length_replicate]
    omega
  · simp only [List.take_zero, List.nil_append, Nat.zero_add]
    exact List.take_left

theorem set_holds {p : PackedGuid} {guid' : BitVec 64} (h : p.Holds guid') (guid : BitVec 64) :
    ∃ p', p.set guid = some p' ∧ p'.Holds guid := by
  obtain ⟨b, hb, hholds⟩ := appendPackGUID_start p.packedGuid.storage p.packedGuid.rpos guid h.length
  exact ⟨⟨b⟩, congrArg (Option.map PackedGuid.mk) hb, hholds⟩

/-- After any number of guids the buffer has the last one. -/
theorem sets_holds (initial : BitVec 64) (guids : List (BitVec 64)) :
    ∃ p, sets initial guids = some p ∧ p.Holds (guids.getLastD initial) := by
  obtain ⟨b, hb, hholds⟩ := appendPackGUID_start [] 0 initial (Nat.zero_le 9)
  have hrun : ∀ (guids : List (BitVec 64)) (p : PackedGuid) (guid : BitVec 64), p.Holds guid →
      ∃ p', guids.foldlM set p = some p' ∧ p'.Holds (guids.getLastD guid) := by
    intro guids
    induction guids with
    | nil => exact fun p guid h => ⟨p, rfl, h⟩
    | cons next guids ih =>
      intro p guid h
      obtain ⟨p₁, hset, h₁⟩ := set_holds h next
      obtain ⟨p', hrest, h'⟩ := ih p₁ next h₁
      refine ⟨p', ?_, ?_⟩
      · rw [List.foldlM_cons, hset]
        exact hrest
      · rw [List.getLastD_cons]
        exact h'
  obtain ⟨p, hp, hlast⟩ := hrun guids ⟨b⟩ initial hholds
  refine ⟨p, ?_, hlast⟩
  rw [sets, ofGuid, hb]
  exact hp

/-- A `PackedGuid` is streamed as the packed guid that was set last, the mask and the bytes that are not zero, and is read back as it. -/
theorem stream_last (initial : BitVec 64) (guids : List (BitVec 64)) : ∃ p, sets initial guids = some p ∧
    (∀ b : WriteBuffer, stream b p = b.append (packGUID (guids.getLastD initial))) ∧
    (∃ mark : UInt8, packGUID (guids.getLastD initial) = mark :: nonZeroBytes (guids.getLastD initial) ∧
      ∀ k, mark.toNat.testBit k = ((leBytes 8 (guids.getLastD initial).toNat)[k]?).any (· ≠ 0)) ∧
    ∀ b : WriteBuffer, b.storage.length < 10000000 → ∃ b', stream b p = some b' ∧
      (⟨b.wpos, b'.storage⟩ : ByteBuffer).readPackGUID = .value (guids.getLastD initial).toNat ⟨b'.wpos, b'.storage⟩ := by
  obtain ⟨p, hp, hholds⟩ := sets_holds initial guids
  generalize guids.getLastD initial = last at *
  obtain ⟨hlength, -⟩ := length_packGUID last
  have hstream : ∀ b : WriteBuffer, stream b p = b.append (packGUID last) := by
    intro b
    have hwpos : p.packedGuid.wpos ≠ 0 := by
      rw [hholds.wpos, hlength]
      omega
    have hstorage : p.packedGuid.storage ≠ [] := by
      intro hnil
      have hbytes := congrArg List.length hholds.bytes
      rw [hnil, List.take_nil, List.length_nil, hlength] at hbytes
      omega
    rw [stream, WriteBuffer.appendBuffer, if_neg hwpos, if_neg hstorage, hholds.bytes]
  refine ⟨p, hp, hstream, packGUID_eq last, fun b hb => ?_⟩
  have happend : ∃ b', b.append (packGUID last) = some b' := ⟨_, if_neg (packGUID_appendable last hb)⟩
  obtain ⟨b', hb'⟩ := happend
  obtain ⟨hwpos, pre, post, hpre, hstorage⟩ := append_eq_some hb'
  refine ⟨b', (hstream b).trans hb', ?_⟩
  rw [hwpos, hlength, hstorage, ← hpre]
  exact readPackGUID_packGUID last pre post

/-- A guid of eight bytes, then a shorter one. -/
theorem stream_shorter : ∃ p, sets 0x0102030405060708 [0x0100000002] = some p ∧ ∃ b', stream ⟨⟨0, [9]⟩, 1⟩ p = some b' ∧
    (⟨1, b'.storage⟩ : ByteBuffer).readPackGUID = .value 0x0100000002 ⟨b'.wpos, b'.storage⟩ := by
  obtain ⟨p, hp, -, -, hread⟩ := stream_last 0x0102030405060708 [0x0100000002]
  exact ⟨p, hp, hread ⟨⟨0, [9]⟩, 1⟩ (by decide)⟩

end PackedGuid

end AtlasWow.Net
