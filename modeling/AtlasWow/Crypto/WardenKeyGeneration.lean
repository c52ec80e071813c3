/-
`SHA1Randx` (`WardenKeyGeneration.h`), which the keys of Warden are made with:
digests one after the other, each of the one before and the two halves of the
seed, given out byte by byte. It is a stream (`generate_sum`), of the digests
written one behind the other (`generate_blocks`).
-/
import AtlasWow.Lib.Sha1
import AtlasWow.Lib.StreamCipher

namespace AtlasWow

/-- Twenty bytes, such as a digest. -/
abbrev Block : Type := { bytes : List UInt8 // bytes.length = 20 }

def Block.byte (b : Block) (i : Nat) (h : i < 20) : UInt8 := b.val.get ⟨i, b.property.symm ▸ h⟩

/-- `Initialize`, `UpdateData` and `Finalize` of a `SHA1Hash`. -/
def digest (bytes : List UInt8) : Block := ⟨sha1 bytes, length_sha1 bytes⟩

structure SHA1Randx where
  taken : Nat
  o0 : Block
  o1 : Block
  o2 : Block
  taken_le : taken ≤ 20

namespace SHA1Randx

def fillUp (g : SHA1Randx) : SHA1Randx :=
  { g with
    o0 := digest (g.o1.val ++ g.o0.val ++ g.o2.val)
    taken := 0
    taken_le := Nat.zero_le _ }

/-- The constructor, of a seed. -/
def ofSeed (buff : List UInt8) : SHA1Randx :=
  let halfSize := buff.length / 2
  fillUp
    { taken := 0
      o0 := ⟨List.replicate 20 0, rfl⟩
      o1 := digest (buff.take halfSize)
      o2 := digest (buff.drop halfSize)
      taken_le := Nat.zero_le _ }

/-- The byte `o0[taken]`, while the block is not used up. -/
def takeByte (g : SHA1Randx) (h : g.taken < 20) : UInt8 × SHA1Randx :=
  (g.o0.byte g.taken h, { g with taken := g.taken + 1, taken_le := h })

/-- A turn of the loop of `Generate`. -/
def next (g : SHA1Randx) : UInt8 × SHA1Randx :=
  if h : g.taken = 20 then g.fillUp.takeByte (Nat.zero_lt_succ _) else g.takeByte (Nat.lt_of_le_of_ne g.taken_le h)

/-- The generator as a stream of key bytes. -/
abbrev stream : StreamCipher := ⟨SHA1Randx, next⟩

/-- `Generate`: the bytes written to the buffer. -/
def generate (sz : Nat) (g : SHA1Randx) : SHA1Randx × List UInt8 := @StreamCipher.keys stream sz g

/-- `Generate`, time after time. -/
def generateAll (sizes : List Nat) (g : SHA1Randx) : SHA1Randx × List (List UInt8) := @StreamCipher.keysOf stream sizes g

theorem generate_add (m n : Nat) (g : SHA1Randx) :
    (generate (m + n) g).2 = (generate m g).2 ++ (generate n (generate m g).1).2 :=
  congrArg Prod.snd (@StreamCipher.keys_add stream m n g)

/-- What is generated in several goes is what is generated at once. -/
theorem generate_sum (buff : List UInt8) (sizes : List Nat) :
    (generateAll sizes (ofSeed buff)).2.flatten = (generate sizes.sum (ofSeed buff)).2 :=
  congrArg Prod.snd (StreamCipher.keys_sum sizes _)

/-! ### Blocks -/

/-- The block after so many others. -/
def block (buff : List UInt8) : Nat → Block
  | 0 => (ofSeed buff).o0
  | k + 1 => digest ((ofSeed buff).o1.val ++ (block buff k).val ++ (ofSeed buff).o2.val)

/-- The byte after so many others. -/
def byteAt (buff : List UInt8) (n : Nat) : UInt8 := (block buff (n / 20)).byte (n % 20) (Nat.mod_lt n (by decide))

/-- So many bytes are taken; the block that is used up last may still be there. -/
structure After (buff : List UInt8) (n : Nat) (g : SHA1Randx) : Prop where
  first : g.o1 = (ofSeed buff).o1
  second : g.o2 = (ofSeed buff).o2
  place : ∃ k, g.o0 = block buff k ∧ n = 20 * k + g.taken

variable {buff : List UInt8} {n : Nat} {g : SHA1Randx}

theorem After.takeByte (h : After buff n g) (hlt : g.taken < 20) :
    (g.takeByte hlt).1 = byteAt buff n ∧ After buff (n + 1) (g.takeByte hlt).2 := by
  obtain ⟨k, hblock, hn⟩ := h.place
  refine ⟨?_, h.first, h.second, k, hblock, by rw [hn]; rfl⟩
  have hdiv : n / 20 = k := by omega
  have hmod : n % 20 = g.taken := by omega
  unfold SHA1Randx.takeByte byteAt
  simp only [hdiv, hmod, hblock]

theorem After.fillUp (h : After buff n g) (hall : g.taken = 20) : After buff n g.fillUp := by
  obtain ⟨k, hblock, hn⟩ := h.place
  refine ⟨h.first, h.second, k + 1, ?_, ?_⟩
  · show digest (g.o1.val ++ g.o0.val ++ g.o2.val) = _
    rw [h.first, h.second, hblock]
    rfl
  · show n = 20 * (k + 1) + 0
    omega

theorem After.next (h : After buff n g) : g.next.1 = byteAt buff n ∧ After buff (n + 1) g.next.2 := by
  unfold SHA1Randx.next
  split
  next hall => exact (h.fillUp hall).takeByte _
  next => exact h.takeByte _

theorem After.generate (sz : Nat) (h : After buff n g) : (generate sz g).2 = (List.range' n sz).map (byteAt buff) := by
  induction sz generalizing n g with
  | zero => rfl
  | succ sz ih =>
    obtain ⟨hbyte, hnext⟩ := h.next
    rw [List.range'_succ, List.map_cons, ← ih hnext, ← hbyte]
    rfl

/-- The bytes are those of the blocks, one behind the other. -/
theorem generate_blocks (buff : List UInt8) (sz : Nat) :
    (generate sz (ofSeed buff)).2 = (List.range sz).map (byteAt buff) := by
  rw [List.range_eq_range']
  exact After.generate sz ⟨rfl, rfl, 0, rfl, rfl⟩

/-! ### The keys of Warden -/

/-- `Init`: the keys of both directions. -/
def wardenKeys (k : List UInt8) : List UInt8 × List UInt8 :=
  let wk := ofSeed k
  ((generate 16 wk).2, (generate 16 (generate 16 wk).1).2)

/-- The second key goes on where the first ends. -/
theorem wardenKeys_bytes (k : List UInt8) : (wardenKeys k).1 = (List.range 16).map (byteAt k) ∧
    (wardenKeys k).2 = (List.range' 16 16).map (byteAt k) := by
  have hfirst := generate_blocks k 16
  have hboth := generate_blocks k (16 + 16)
  have hsplit : List.range (16 + 16) = List.range 16 ++ List.range' 16 16 := by decide
  rw [hsplit, List.map_append, generate_add, hfirst] at hboth
  exact ⟨hfirst, List.append_cancel_left hboth⟩

end SHA1Randx

end AtlasWow
