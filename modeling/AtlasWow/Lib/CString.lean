/-
Reading a string through a pointer. A pointer is what it points at, to the end
of the array; to read where nothing is left is to read past the array. The
rules are for strings that end with their NUL: there `expect` and `span` never
read past it (`Safe.expect`, `Safe.span`), and `Safe.bind` puts them together.
-/
import Mathlib.Data.List.Basic

/-- What comes of reading: it goes past the array, gives up, or has a result. -/
inductive Reading (α : Type) where
  | past
  | failed
  | ok (a : α)
  deriving DecidableEq

namespace Reading

variable {α β : Type} {x : Reading α} {P : α → Prop}

instance : Monad Reading where
  pure := .ok
  bind x f :=
    match x with
    | past => past
    | failed => failed
    | ok a => f a

@[simp] theorem ok_bind (a : α) (f : α → Reading β) : (ok a >>= f) = f a := rfl

/-- Nothing is read past the array, and a result is as it should be. -/
def Safe (Q : α → Prop) : Reading α → Prop
  | past => False
  | failed => True
  | ok a => Q a

theorem Safe.bind {f : α → Reading β} {Q : β → Prop} (hx : x.Safe P)
    (hf : ∀ a, P a → (f a).Safe Q) : (x >>= f).Safe Q := by
  cases x with
  | past => exact hx
  | failed => trivial
  | ok a => exact hf a hx

theorem Safe.mono {Q : α → Prop} (hx : x.Safe P) (h : ∀ a, P a → Q a) : x.Safe Q := by
  cases x with
  | past => exact hx
  | failed => trivial
  | ok a => exact h a hx

/-- One character that has to be there. -/
def expect (c : Char) : List Char → Reading (List Char)
  | [] => past
  | x :: pos => if x ≠ c then failed else ok pos

/-- How far it is to a character of some kind, or to the NUL, and the pointer to it. -/
def span (stop : Char → Bool) : List Char → Reading (Nat × List Char)
  | [] => past
  | c :: pos =>
    if c = '\x00' || stop c then ok (0, c :: pos)
    else do
      let (n, pos) ← span stop pos
      return (n + 1, pos)

/-- A pointer that is at some character goes one past it. -/
def advance (c : Char) (pos : List Char) : List Char := if pos.head? = some c then pos.tail else pos

/-- A string with its NUL. -/
def cstr (s : List Char) : List Char := s ++ ['\x00']

variable {c : Char} {s a pos : List Char} {stop : Char → Bool}

@[simp] theorem cstr_append (a s : List Char) : cstr (a ++ s) = a ++ cstr s := List.append_assoc ..

@[simp] theorem cstr_cons (c : Char) (s : List Char) : cstr (c :: s) = c :: cstr s := rfl

theorem advance_cstr (hc : c ≠ '\x00') (s : List Char) : advance c (cstr s) = cstr (advance c s) := by
  unfold advance
  cases s with
  | nil => rw [if_neg (by simpa [cstr] using hc.symm), if_neg (by simp)]
  | cons x s =>
    rw [cstr_cons, List.head?_cons, List.head?_cons]
    split <;> rfl

@[simp] theorem advance_cons (c : Char) (pos : List Char) : advance c (c :: pos) = pos := if_pos rfl

theorem advance_ne {x : Char} (h : x ≠ c) (pos : List Char) : advance c (x :: pos) = x :: pos :=
  if_neg fun heq => h (Option.some.inj heq)

theorem mem_of_mem_advance {x : Char} (h : x ∈ advance c pos) : x ∈ pos := by
  unfold advance at h
  split at h
  · exact List.mem_of_mem_tail h
  · exact h

@[simp] theorem expect_cons (c : Char) (pos : List Char) : expect c (c :: pos) = ok pos := if_neg (not_not.2 rfl)

theorem Safe.expect (hc : c ≠ '\x00') (s : List Char) :
    (Reading.expect c (cstr s)).Safe fun pos => ∃ s', s = c :: s' ∧ pos = cstr s' := by
  cases s with
  | nil =>
    unfold Reading.expect cstr
    dsimp only [List.nil_append]
    rw [if_pos hc.symm]
    trivial
  | cons x s =>
    rw [cstr_cons, Reading.expect]
    split
    next => trivial
    next h => exact ⟨s, by rw [not_not.1 h], rfl⟩

theorem span_append (ha : ∀ x ∈ a, x ≠ '\x00' ∧ stop x = false) (hc : c = '\x00' ∨ stop c = true) (pos : List Char) :
    span stop (a ++ c :: pos) = ok (a.length, c :: pos) := by
  induction a with
  | nil =>
    rw [List.nil_append, span, if_pos (by simpa using hc)]
    rfl
  | cons x a ih =>
    obtain ⟨⟨hx, hstop⟩, ha⟩ := List.forall_mem_cons.1 ha
    rw [List.cons_append, span, if_neg (by simp [hx, hstop]), ih ha]
    rfl

/-- From a pointer into a string that ends with its NUL. -/
theorem Safe.span (stop : Char → Bool) : ∀ {s : List Char}, '\x00' ∉ s → (Reading.span stop (cstr s)).Safe fun r =>
    ∃ a b, s = a ++ b ∧ r = (a.length, cstr b) ∧ (∀ x ∈ a, stop x = false) ∧ ∀ c b', b = c :: b' → stop c = true
  | [], _ => ⟨[], [], rfl, rfl, fun _ h => (nomatch h), fun _ _ h => (nomatch h)⟩
  | x :: s, h => by
    obtain ⟨hx, hs⟩ := not_or.1 (mt List.mem_cons.2 h)
    rw [cstr_cons, Reading.span]
    split
    next hstop =>
      refine ⟨[], x :: s, rfl, rfl, fun _ h => (nomatch h), fun c b' heq => ?_⟩
      cases heq
      simpa [Ne.symm hx] using hstop
    next hgo =>
    refine (Safe.span stop hs).bind fun r hr => ?_
    obtain ⟨a, b, rfl, rfl, ha, hb⟩ := hr
    refine ⟨x :: a, b, rfl, rfl, List.forall_mem_cons.2 ⟨?_, ha⟩, hb⟩
    rw [Bool.or_eq_true, not_or] at hgo
    exact Bool.eq_false_iff.2 hgo.2

end Reading
