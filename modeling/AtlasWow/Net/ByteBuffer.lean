/-
Reading from a `ByteBuffer` (`ByteBuffer.h`). `none` is the exception that a
read past the end of the buffer throws.
-/
import AtlasWow.Net.MessageBuffer
import AtlasWow.Lib.LittleEndian

namespace AtlasWow.Net

structure ByteBuffer where
  rpos : Nat
  storage : Bytes

namespace ByteBuffer

/-- `ByteBuffer(MessageBuffer&&)`. -/
def ofBytes (storage : Bytes) : ByteBuffer := ⟨0, storage⟩

/-- `read(dest, len)`. -/
def read (b : ByteBuffer) (len : Nat) : Option (Bytes × ByteBuffer) :=
  if b.storage.length < b.rpos + len then none
  else some ((b.storage.drop b.rpos).take len, { b with rpos := b.rpos + len })

/-- `read<T>()` of an unsigned integer of `w` bytes. -/
def readUInt (w : Nat) (b : ByteBuffer) : Option (Nat × ByteBuffer) :=
  (b.read w).map fun (bytes, b) => (leNat bytes, b)

/-- `operator>>(std::string&)`: up to the next zero byte, or to the end. -/
def readString (b : ByteBuffer) : Bytes × ByteBuffer :=
  let value := (b.storage.drop b.rpos).takeWhile (· ≠ 0)
  (value, { b with rpos := min b.storage.length (b.rpos + value.length + 1) })

/-- What has not been read. -/
def rest (b : ByteBuffer) : Bytes := b.storage.drop b.rpos

end ByteBuffer

end AtlasWow.Net
