/-
Stream ciphers: a state gives one key byte after the other, and data is
combined with the key stream byte by byte. Key bytes that are taken in several
goes are those taken at once (`keys_sum`).
-/
import Mathlib.Algebra.GroupWithZero.Nat
import Mathlib.Data.List.Basic

structure StreamCipher where
  State : Type
  next : State → UInt8 × State

namespace StreamCipher

variable {c : StreamCipher}

/-- Apply the key stream to some bytes; the next bytes get the key stream that follows. -/
def crypt : c.State → List UInt8 → c.State × List UInt8
  | s, [] => (s, [])
  | s, b :: bs =>
    let (s', bs') := crypt (c.next s).2 bs
    (s', (b ^^^ (c.next s).1) :: bs')

@[simp] theorem length_crypt : ∀ (s : c.State) (bs : List UInt8), (crypt s bs).2.length = bs.length
  | _, [] => rfl
  | s, _ :: bs => congrArg (· + 1) (length_crypt (c.next s).2 bs)

/-- The next key bytes. -/
def keys : Nat → c.State → c.State × List UInt8
  | 0, s => (s, [])
  | n + 1, s =>
    let (s', bs) := keys n (c.next s).2
    (s', (c.next s).1 :: bs)

theorem keys_add (m n : Nat) (s : c.State) :
    keys (m + n) s = ((keys n (keys m s).1).1, (keys m s).2 ++ (keys n (keys m s).1).2) := by
  induction m generalizing s with
  | zero => rw [Nat.zero_add]; rfl
  | succ m ih =>
    rw [Nat.succ_add]
    show ((keys (m + n) (c.next s).2).1, (c.next s).1 :: (keys (m + n) (c.next s).2).2) = _
    rw [ih]
    rfl

/-- Key bytes that are taken in several goes. -/
def keysOf : List Nat → c.State → c.State × List (List UInt8)
  | [], s => (s, [])
  | n :: ns, s =>
    let (s', bs) := keys n s
    let (s'', bss) := keysOf ns s'
    (s'', bs :: bss)

theorem keys_sum (ns : List Nat) (s : c.State) :
    ((keysOf ns s).1, (keysOf ns s).2.flatten) = keys ns.sum s := by
  induction ns generalizing s with
  | nil => rfl
  | cons n ns ih =>
    rw [List.sum_cons, keys_add, ← ih]
    rfl

/-- The cipher whose key bytes count up. -/
def counter : StreamCipher := ⟨UInt8, fun s => (s, s + 1)⟩

end StreamCipher
