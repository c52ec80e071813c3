/-
`MessageBuffer` (`MessageBuffer.h`): a byte vector with a read and a write
position. `content` is what lies between the two; each operation is described
by what it does to the content of a well-formed buffer.

Sizes are `size_t`: the difference of two positions wraps when the wrong one
is ahead. A copy that would pass the end of the vector is `none`.
-/
import Mathlib.Algebra.Group.Nat.Defs
import Mathlib.Data.List.Basic

namespace AtlasWow.Net

abbrev Bytes := List UInt8

structure MessageBuffer where
  wpos : Nat
  rpos : Nat
  storage : Bytes
deriving DecidableEq

/-- `a - b` on `size_t`. -/
def sizeSub (a b : Nat) : Nat := if b ≤ a then a - b else 2 ^ 64 - (b - a)

/-- `vector::resize`: new bytes are zero. -/
def resizeBytes (l : Bytes) (n : Nat) : Bytes := l.take n ++ List.replicate (n - l.length) 0

namespace MessageBuffer

/-- `MessageBuffer(initialSize)`; without an argument the size is 4096. -/
def ofSize (n : Nat) : MessageBuffer := ⟨0, 0, List.replicate n 0⟩

def reset (b : MessageBuffer) : MessageBuffer := { b with wpos := 0, rpos := 0 }
def resize (b : MessageBuffer) (n : Nat) : MessageBuffer := { b with storage := resizeBytes b.storage n }
def readCompleted (b : MessageBuffer) (n : Nat) : MessageBuffer := { b with rpos := b.rpos + n }
def writeCompleted (b : MessageBuffer) (n : Nat) : MessageBuffer := { b with wpos := b.wpos + n }
def getActiveSize (b : MessageBuffer) : Nat := sizeSub b.wpos b.rpos
def getRemainingSpace (b : MessageBuffer) : Nat := sizeSub b.storage.length b.wpos

/-- The bytes between the read and the write position. -/
def content (b : MessageBuffer) : Bytes := (b.storage.drop b.rpos).take (b.wpos - b.rpos)

/-- Discards inactive data. -/
def normalize (b : MessageBuffer) : MessageBuffer :=
  if b.rpos ≠ 0 then
    { wpos := sizeSub b.wpos b.rpos
      rpos := 0
      storage := if b.rpos ≠ b.wpos then b.content ++ b.storage.drop b.content.length else b.storage }
  else b

/-- Resizes the buffer if it is already full. -/
def ensureFreeSpace (b : MessageBuffer) : MessageBuffer :=
  if b.getRemainingSpace = 0 then b.resize (b.storage.length * 3 / 2) else b

/-- The copy of `Write`, also what a completed socket read does. -/
def copyIn (b : MessageBuffer) (data : Bytes) : Option MessageBuffer :=
  if b.wpos + data.length ≤ b.storage.length then
    some { b with storage := b.storage.take b.wpos ++ data ++ b.storage.drop (b.wpos + data.length) }
  else none

def write (b : MessageBuffer) (data : Bytes) : Option MessageBuffer :=
  if data.length ≠ 0 then (b.copyIn data).map fun b => b.writeCompleted data.length else some b

/-- A moved-from buffer: the positions are reset and the vector has been taken. -/
def moved : MessageBuffer := ⟨0, 0, []⟩

/-! ## Well-formed buffers -/

/-- The read position is at most the write position, and that is in the vector. -/
structure Ok (b : MessageBuffer) : Prop where
  read : b.rpos ≤ b.wpos
  write : b.wpos ≤ b.storage.length

variable {b b' : MessageBuffer} {data : Bytes}

theorem Ok.activeSize (h : b.Ok) : b.getActiveSize = b.wpos - b.rpos := by simp [getActiveSize, sizeSub, h.read]

theorem Ok.remainingSpace (h : b.Ok) : b.getRemainingSpace = b.storage.length - b.wpos := by
  simp [getRemainingSpace, sizeSub, h.write]

theorem Ok.length_content (h : b.Ok) : b.content.length = b.getActiveSize := by
  have := h.read
  have := h.write
  rw [h.activeSize]
  simp only [content, List.length_take, List.length_drop]
  omega

theorem ok_ofSize (n : Nat) : (ofSize n).Ok := ⟨Nat.le_refl _, Nat.zero_le _⟩

@[simp] theorem content_ofSize (n : Nat) : (ofSize n).content = [] := rfl

@[simp] theorem content_reset : b.reset.content = [] := by simp [content, reset]

theorem ok_reset : b.reset.Ok := ⟨Nat.le_refl _, Nat.zero_le _⟩

@[simp] theorem length_resizeBytes (l : Bytes) (n : Nat) : (resizeBytes l n).length = n := by
  simp only [resizeBytes, List.length_append, List.length_take, List.length_replicate]
  omega

theorem copyIn_eq (h : b.copyIn data = some b') : b.wpos + data.length ≤ b.storage.length ∧
    b'.wpos = b.wpos ∧ b'.rpos = b.rpos ∧
    b'.storage = b.storage.take b.wpos ++ data ++ b.storage.drop (b.wpos + data.length) := by
  unfold copyIn at h
  split at h
  next hle => cases h; exact ⟨hle, rfl, rfl, rfl⟩
  next => cases h

/-- What follows the write position becomes content once it is declared written. -/
theorem content_copyIn (h : b.Ok) (hc : b.copyIn data = some b') :
    (b'.writeCompleted data.length).Ok ∧ (b'.writeCompleted data.length).content = b.content ++ data ∧
      b'.storage.length = b.storage.length := by
  obtain ⟨hle, hw, hr, hs⟩ := copyIn_eq hc
  have hread := h.read
  have hlen : b'.storage.length = b.storage.length := by
    rw [hs]
    simp only [List.length_append, List.length_take, List.length_drop]
    omega
  refine ⟨⟨?_, ?_⟩, ?_, hlen⟩
  · simp only [writeCompleted, hw, hr]; omega
  · simp only [writeCompleted, hw, hlen]; exact hle
  · simp only [content, writeCompleted, hw, hr, hs]
    have h₁ : b.rpos ≤ (b.storage.take b.wpos).length := by
      rw [List.length_take]; have := h.write; omega
    rw [List.append_assoc, List.drop_append_of_le_length h₁, List.drop_take]
    have h₂ : ((b.storage.drop b.rpos).take (b.wpos - b.rpos)).length = b.wpos - b.rpos := by
      rw [List.length_take, List.length_drop]; omega
    have h₃ : b.wpos + data.length - b.rpos =
        ((b.storage.drop b.rpos).take (b.wpos - b.rpos)).length + data.length := by omega
    rw [h₃, List.take_append, Nat.add_sub_cancel_left, List.take_of_length_le (Nat.le_add_right _ _),
      List.take_append_of_le_length (Nat.le_refl _), List.take_length]

theorem copyIn_succeeds (h : b.Ok) (hd : data.length ≤ b.getRemainingSpace) : ∃ b', b.copyIn data = some b' := by
  rw [h.remainingSpace] at hd
  have := h.write
  exact ⟨_, by rw [copyIn, if_pos (by omega)]⟩

/-- `Write` appends to the content, and stays in the vector. -/
theorem write_spec {data : Bytes} (h : b.Ok) (hd : data.length ≤ b.getRemainingSpace) :
    ∃ b', b.write data = some b' ∧ b'.Ok ∧ b'.content = b.content ++ data ∧ b'.rpos = b.rpos ∧
      b'.wpos = b.wpos + data.length ∧ b'.storage.length = b.storage.length := by
  by_cases h0 : data.length = 0
  · have : data = [] := List.eq_nil_of_length_eq_zero h0
    subst this
    exact ⟨b, by simp [write], h, by simp, rfl, by simp, rfl⟩
  obtain ⟨b₁, h₁⟩ := copyIn_succeeds h hd
  obtain ⟨hok, hc, hl⟩ := content_copyIn h h₁
  obtain ⟨-, hw, hr, -⟩ := copyIn_eq h₁
  exact ⟨_, by simp [write, h0, h₁], hok, hc, hr, by simp [writeCompleted, hw], hl⟩

theorem ok_readCompleted {n : Nat} (h : b.Ok) (hn : n ≤ b.getActiveSize) : (b.readCompleted n).Ok := by
  rw [h.activeSize] at hn
  have := h.read
  exact ⟨by simp only [readCompleted]; omega, h.write⟩

theorem content_readCompleted (b : MessageBuffer) (n : Nat) : (b.readCompleted n).content = b.content.drop n := by
  simp only [content, readCompleted, List.drop_take, List.drop_drop]
  congr 1
  omega

theorem content_normalize (h : b.Ok) : b.normalize.Ok ∧ b.normalize.content = b.content ∧
    b.normalize.rpos = 0 ∧ b.normalize.storage.length = b.storage.length := by
  have hr := h.read
  have hw := h.write
  have hl := h.length_content
  rw [h.activeSize] at hl
  unfold normalize
  split
  next h0 =>
    have hsub : sizeSub b.wpos b.rpos = b.wpos - b.rpos := h.activeSize
    split
    next hne =>
      refine ⟨⟨Nat.zero_le _, ?_⟩, ?_, rfl, ?_⟩
      · simp only [hsub, List.length_append, List.length_drop]; omega
      · rw [content]
        simp only [hsub, List.drop_zero, Nat.sub_zero]
        rw [← hl, List.take_append_of_le_length (Nat.le_refl _), List.take_length]
      · simp only [List.length_append, List.length_drop]; omega
    next heq =>
    have heq : b.rpos = b.wpos := by simpa using heq
    exact ⟨⟨Nat.zero_le _, by simp only [hsub]; omega⟩, by simp [content, sizeSub, heq], rfl, rfl⟩
  next h0 =>
  have h0 : b.rpos = 0 := by simpa using h0
  exact ⟨h, rfl, h0, rfl⟩

theorem ok_ensureFreeSpace (h : b.Ok) : b.ensureFreeSpace.Ok := by
  have hw := h.write
  unfold ensureFreeSpace
  split
  · exact ⟨h.read, by simp only [resize, length_resizeBytes]; omega⟩
  · exact h

theorem content_ensureFreeSpace (h : b.Ok) (h2 : 2 ≤ b.storage.length) : b.ensureFreeSpace.Ok ∧
    b.ensureFreeSpace.content = b.content ∧ 0 < b.ensureFreeSpace.getRemainingSpace ∧
      b.storage.length ≤ b.ensureFreeSpace.storage.length := by
  have hw := h.write
  have hok := ok_ensureFreeSpace h
  unfold ensureFreeSpace at hok ⊢
  split
  next h0 =>
    rw [if_pos h0] at hok
    rw [h.remainingSpace] at h0
    refine ⟨hok, ?_, ?_, by simp only [resize, length_resizeBytes]; omega⟩
    · simp only [content, resize, resizeBytes]
      rw [List.take_of_length_le (l := b.storage) (by omega), List.drop_append_of_le_length (Nat.le_trans h.read hw),
        List.take_append_of_le_length (by rw [List.length_drop]; omega)]
    · rw [hok.remainingSpace]
      simp only [resize, length_resizeBytes]
      omega
  next h0 => exact ⟨h, rfl, Nat.pos_of_ne_zero h0, Nat.le_refl _⟩

end MessageBuffer

end AtlasWow.Net
