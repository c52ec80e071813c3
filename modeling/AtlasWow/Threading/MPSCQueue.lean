/-
The queue between the threads that send packets and the one that writes them
(`MPSCQueue`), one access of the shared memory after the other: a producer may
be stopped between the exchange of the head and the link of the node before it,
the consumer between the load of the next node and what it does with it.

In every state of every run what was given out is the first of what was put in,
in the order of the exchanges, and no access touches a deleted node
(`reaches_queue`): the nodes from the tail to the head are one chain, in which
a link is missing only where its producer is still on its way. Every node has an
address of its own, also after others were deleted.
-/
import AtlasWow.Lib.Machine
import Mathlib.Data.List.Nodup

namespace AtlasWow.Threading

/-- The first node of a queue has no data. -/
structure Node (α : Type) where
  data : Option α
  next : Option Nat

/-- The nodes that are allocated, and what the threads know of them. -/
structure MPSCQueue (α : Type) where
  node : Nat → Option (Node α)
  head : Nat
  tail : Nat
  /-- For each producer after its exchange, the head before and its own node. -/
  producers : List (Nat × Nat)
  /-- The tail and the next node, when `Dequeue` has found one. -/
  consumer : Option (Nat × Nat)
  /-- What was put in, in the order of the exchanges, and what was given out. -/
  inputs : List α
  outputs : List α

namespace MPSCQueue

variable {α : Type}

def start : MPSCQueue α := ⟨Function.update (fun _ => none) 0 (some ⟨none, none⟩), 0, 0, [], none, [], []⟩

/-- `Enqueue`, up to the exchange of `_head`. -/
def exchange (input : α) (q : MPSCQueue α) : MPSCQueue α :=
  { q with
    node := Function.update q.node (q.head + 1) (some ⟨some input, none⟩)
    head := q.head + 1
    producers := q.producers ++ [(q.head, q.head + 1)]
    inputs := q.inputs ++ [input] }

/-- The store of `prevHead->Next`. -/
def link (e : Nat × Nat) (q : MPSCQueue α) : Option (MPSCQueue α) :=
  (q.node e.1).map fun prevHead => { q with
    node := Function.update q.node e.1 (some { prevHead with next := some e.2 })
    producers := q.producers.erase e }

/-- The load of `tail->Next`; where there is none, `Dequeue` answers false. -/
def load (q : MPSCQueue α) : Option (MPSCQueue α) :=
  (q.node q.tail).map fun tail => { q with consumer := tail.next.map (q.tail, ·) }

/-- The rest of `Dequeue`: the result is read, `_tail` is stored, and the node before is deleted. -/
def take (e : Nat × Nat) (q : MPSCQueue α) : Option (MPSCQueue α) :=
  ((q.node e.2).bind (·.data)).bind fun data => (q.node e.1).map fun _ => { q with
    node := Function.update q.node e.1 none
    tail := e.2
    consumer := none
    outputs := q.outputs ++ [data] }

inductive Access (α : Type)
  | exchange (input : α)
  | link (e : Nat × Nat)
  | load
  | take (e : Nat × Nat)

/-- There is no step where a node is not there. -/
def step : Access α → MPSCQueue α → Option (MPSCQueue α)
  | .exchange input, q => some (q.exchange input)
  | .link e, q => q.link e
  | .load, q => q.load
  | .take e, q => q.take e

/-- Some thread has come to the access. -/
def Access.due : Access α → MPSCQueue α → Bool
  | .exchange _, _ => true
  | .link e, q => q.producers.contains e
  | .load, q => q.consumer = none
  | .take e, q => q.consumer = some e

/-- What the node of an address is. -/
def nodeAt (q : MPSCQueue α) (p : Nat) : Option (Node α) :=
  if q.tail ≤ p ∧ p ≤ q.head then
    some ⟨if p = 0 then none else q.inputs[p - 1]?, if p = q.head ∨ (p, p + 1) ∈ q.producers then none else some (p + 1)⟩
  else none

structure Inv (q : MPSCQueue α) : Prop where
  range : q.tail ≤ q.head
  nodes : ∀ p, q.node p = q.nodeAt p
  producers : ∀ e ∈ q.producers, e.2 = e.1 + 1 ∧ q.tail ≤ e.1 ∧ e.1 < q.head
  once : q.producers.Nodup
  reads : ∀ e, q.consumer = some e → e = (q.tail, q.tail + 1) ∧ q.tail < q.head ∧ e ∉ q.producers
  inputs : q.inputs.length = q.head
  outputs : q.outputs = q.inputs.take q.tail

variable {q : MPSCQueue α} {e : Nat × Nat}

theorem inv_start : (start : MPSCQueue α).Inv where
  range := Nat.le_refl 0
  nodes p := by
    cases p with
    | zero => rfl
    | succ p => rfl
  producers _ he := by cases he
  once := List.nodup_nil
  reads _ h := by cases h
  inputs := rfl
  outputs := rfl

/-- The nodes of the chain are there. -/
theorem Inv.node (h : q.Inv) {p : Nat} (htail : q.tail ≤ p) (hhead : p ≤ q.head) : q.node p =
    some ⟨if p = 0 then none else q.inputs[p - 1]?, if p = q.head ∨ (p, p + 1) ∈ q.producers then none else some (p + 1)⟩ :=
  (h.nodes p).trans (if_pos ⟨htail, hhead⟩)

theorem Inv.exchange (h : q.Inv) (input : α) : (q.exchange input).Inv := by
  have hrange := h.range
  have hlength := h.inputs
  have hnew {p : Nat} (hp : p < q.head) : (p, p + 1) ∈ q.producers ++ [(q.head, q.head + 1)] ↔ (p, p + 1) ∈ q.producers := by
    simp [Nat.ne_of_lt hp]
  refine ⟨Nat.le_succ_of_le hrange, fun p => ?_, fun e he => ?_, ?_, fun e hread => ?_, ?_, ?_⟩
  · show Function.update q.node (q.head + 1) _ p = if q.tail ≤ p ∧ p ≤ q.head + 1 then
      some ⟨if p = 0 then none else (q.inputs ++ [input])[p - 1]?,
        if p = q.head + 1 ∨ (p, p + 1) ∈ q.producers ++ [(q.head, q.head + 1)] then none else some (p + 1)⟩ else none
    rcases Nat.lt_trichotomy p (q.head + 1) with hp | rfl | hp
    · rw [Function.update_of_ne (Nat.ne_of_lt hp), h.nodes]
      refine if_congr (by omega) (congrArg some (congrArg₂ Node.mk ?_ (if_congr ?_ rfl rfl))) rfl
      · split
        · rfl
        · rw [List.getElem?_append_left (by omega)]
      · -- the head before has its producer now
        rcases Nat.lt_or_eq_of_le (Nat.le_of_lt_succ hp) with hp | rfl
        · rw [hnew hp]
          exact or_congr_left (by omega)
        · simp
    · rw [Function.update_self, if_pos ⟨by omega, Nat.le_refl _⟩, if_neg (Nat.succ_ne_zero _), if_pos (.inl rfl), Nat.add_sub_cancel,
        ← hlength, List.getElem?_concat_length]
    · rw [Function.update_of_ne (Nat.ne_of_gt hp), h.nodes, nodeAt, if_neg (by omega), if_neg (by omega)]
  · show e.2 = e.1 + 1 ∧ q.tail ≤ e.1 ∧ e.1 < q.head + 1
    rcases List.mem_append.1 he with he | he
    · have := h.producers e he
      omega
    · rw [List.mem_singleton.1 he]
      exact ⟨rfl, hrange, Nat.lt_succ_self _⟩
  · refine List.nodup_append.2 ⟨h.once, List.nodup_singleton _, fun e he e' he' heq => ?_⟩
    rw [heq, List.mem_singleton.1 he'] at he
    exact Nat.lt_irrefl _ (h.producers _ he).2.2
  · obtain ⟨rfl, hlt, hlinked⟩ := h.reads e hread
    exact ⟨rfl, Nat.lt_succ_of_lt hlt, fun hon => hlinked ((hnew hlt).1 hon)⟩
  · show (q.inputs ++ [input]).length = q.head + 1
    rw [List.length_append, hlength]
    rfl
  · show q.outputs = (q.inputs ++ [input]).take q.tail
    rw [List.take_append_of_le_length (by omega), h.outputs]

theorem Inv.link (h : q.Inv) (hdue : e ∈ q.producers) : ∃ q', q.link e = some q' ∧ q'.Inv := by
  obtain ⟨prevHead, node⟩ := e
  obtain ⟨hnode, htail, hhead⟩ := h.producers _ hdue
  obtain rfl : node = prevHead + 1 := hnode
  have herased {e : Nat × Nat} : e ∈ q.producers.erase (prevHead, prevHead + 1) ↔ e ≠ (prevHead, prevHead + 1) ∧ e ∈ q.producers :=
    h.once.mem_erase_iff
  dsimp only at htail hhead
  have hlink : q.link (prevHead, prevHead + 1) = some { q with
      node := Function.update q.node prevHead (some ⟨if prevHead = 0 then none else q.inputs[prevHead - 1]?, some (prevHead + 1)⟩)
      producers := q.producers.erase (prevHead, prevHead + 1) } := by
    rw [MPSCQueue.link, h.node htail (Nat.le_of_lt hhead)]
    rfl
  refine ⟨_, hlink, h.range, fun p => ?_, fun e he => h.producers e (herased.1 he).2, h.once.erase _,
    fun e hread => ?_, h.inputs, h.outputs⟩
  · show Function.update q.node prevHead _ p = if q.tail ≤ p ∧ p ≤ q.head then
      some ⟨if p = 0 then none else q.inputs[p - 1]?, if p = q.head ∨ (p, p + 1) ∈ q.producers.erase _ then none else some (p + 1)⟩ else none
    by_cases hp : p = prevHead
    · subst hp
      have hlinked : ¬(p = q.head ∨ (p, p + 1) ∈ q.producers.erase (p, p + 1)) :=
        not_or.2 ⟨Nat.ne_of_lt hhead, fun hon => (herased.1 hon).1 rfl⟩
      rw [Function.update_self, if_pos (And.intro htail (Nat.le_of_lt hhead)), if_neg hlinked]
    · rw [Function.update_of_ne hp, h.nodes, nodeAt,
        if_congr (or_congr_right (herased.trans (and_iff_right fun heq => hp (congrArg Prod.fst heq)))) rfl rfl]
  · obtain ⟨rfl, hlt, hlinked⟩ := h.reads e hread
    exact ⟨rfl, hlt, fun hon => hlinked (herased.1 hon).2⟩

theorem Inv.load (h : q.Inv) :
    ∃ q', q.load = some q' ∧ q'.Inv ∧ (q'.consumer = none ↔ q.tail = q.head ∨ (q.tail, q.tail + 1) ∈ q.producers) := by
  have hload : q.load = some { q with
      consumer := (if q.tail = q.head ∨ (q.tail, q.tail + 1) ∈ q.producers then none else some (q.tail + 1)).map (q.tail, ·) } := by
    rw [MPSCQueue.load, h.node (Nat.le_refl _) h.range]
    rfl
  have hrange := h.range
  refine ⟨_, hload, ⟨h.range, h.nodes, h.producers, h.once, fun e hread => ?_, h.inputs, h.outputs⟩, ?_⟩
  · dsimp only at hread
    split at hread
    next => cases hread
    next hsome =>
    cases hread
    obtain ⟨hlt, hlinked⟩ := not_or.1 hsome
    exact ⟨rfl, Nat.lt_of_le_of_ne hrange hlt, hlinked⟩
  · rw [Option.map_eq_none_iff]
    simp only [ite_eq_left_iff, reduceCtorEq, imp_false, not_not]

theorem Inv.take (h : q.Inv) (hdue : q.consumer = some e) : ∃ q', q.take e = some q' ∧ q'.Inv := by
  obtain ⟨rfl, hlt, hlinked⟩ := h.reads e hdue
  have hlength : q.tail < q.inputs.length := h.inputs ▸ hlt
  have hx : q.inputs[q.tail]? = some q.inputs[q.tail] := List.getElem?_eq_getElem _
  have hnext := h.node (Nat.le_succ q.tail) hlt
  rw [if_neg (Nat.succ_ne_zero _), Nat.succ_sub_one, hx] at hnext
  have htake : q.take (q.tail, q.tail + 1) = some { q with
      node := Function.update q.node q.tail none
      tail := q.tail + 1
      consumer := none
      outputs := q.outputs ++ [q.inputs[q.tail]] } := by
    rw [MPSCQueue.take, hnext, h.node (Nat.le_refl _) h.range]
    rfl
  refine ⟨_, htake, hlt, fun p => ?_, fun e he => ?_, h.once, fun _ hread => ?_, h.inputs, ?_⟩
  · show Function.update q.node q.tail none p = if q.tail + 1 ≤ p ∧ p ≤ q.head then _ else none
    by_cases hp : p = q.tail
    · rw [hp, Function.update_self, if_neg (by omega)]
    · rw [Function.update_of_ne hp, h.nodes, nodeAt]
      exact if_congr (by omega) rfl rfl
  · obtain ⟨hnext, hle, hhead⟩ := h.producers e he
    refine ⟨hnext, Nat.lt_of_le_of_ne hle fun heq => hlinked ?_, hhead⟩
    rwa [heq, ← hnext]
  · cases hread
  · show q.outputs ++ [_] = q.inputs.take (q.tail + 1)
    rw [h.outputs, List.take_succ_eq_append_getElem]

/-- Every access that some thread has come to succeeds. -/
theorem Inv.step (h : q.Inv) {a : Access α} (hdue : a.due q = true) : ∃ q', step a q = some q' ∧ q'.Inv := by
  cases a with
  | exchange input => exact ⟨_, rfl, h.exchange input⟩
  | link e => exact h.link (List.contains_iff_mem.1 hdue)
  | load =>
    obtain ⟨q', hq, hinv, -⟩ := h.load
    exact ⟨q', hq, hinv⟩
  | take e => exact h.take (of_decide_eq_true hdue)

/-- In every run of the threads, in any order of their accesses: what was given out is the first of what was put in, and no
access touches a node that is not there; when no producer is on its way, `Dequeue` answers false only if everything was given
out, and one node is left then. -/
theorem reaches_queue (h : Reaches step (fun a q => Access.due a q = true) (start : MPSCQueue α) q) :
    q.outputs <+: q.inputs ∧ (∀ a : Access α, a.due q = true → (step a q).isSome = true) ∧
    (q.producers = [] → ((∃ q', q.load = some q' ∧ q'.consumer = none) ↔ q.outputs = q.inputs) ∧
      (q.outputs = q.inputs → ∀ p, (q.node p).isSome = true ↔ p = q.tail)) := by
  have hinv : q.Inv := h.invariant Inv (fun a q q' hq hdue hstep => by
    obtain ⟨q₁, hq₁, hinv⟩ := hq.step hdue
    exact Option.some.inj (hq₁.symm.trans hstep) ▸ hinv) inv_start
  have hrange := hinv.range
  have hall : q.outputs = q.inputs ↔ q.tail = q.head := by
    have htaken := congrArg List.length hinv.outputs
    rw [List.length_take, hinv.inputs] at htaken
    refine ⟨fun heq => ?_, fun heq => hinv.outputs.trans (List.take_of_length_le (by rw [hinv.inputs]; omega))⟩
    rw [heq, hinv.inputs] at htaken
    omega
  refine ⟨hinv.outputs ▸ List.take_prefix _ _, fun a hdue => ?_, fun hnone => ⟨?_, fun heq p => ?_⟩⟩
  · obtain ⟨q', hq', -⟩ := hinv.step hdue
    rw [hq']
    rfl
  · obtain ⟨q₁, hload, -, hiff⟩ := hinv.load
    rw [hnone, or_iff_left List.not_mem_nil] at hiff
    rw [hall, ← hiff, hload]
    exact ⟨fun ⟨q', hq', hi⟩ => Option.some.inj hq' ▸ hi, fun hi => ⟨q₁, rfl, hi⟩⟩
  · rw [hinv.nodes, nodeAt, hall.1 heq]
    split
    next hp => exact iff_of_true rfl (by omega)
    next hp => exact iff_of_false Bool.false_ne_true (by omega)

/-- Two producers, of whom the second is done before the first, and one value is given out. -/
theorem reaches_queue_two : ∃ q : MPSCQueue Nat, q.inputs = [7, 8] ∧ q.outputs = [7] ∧ q.outputs <+: q.inputs := by
  have hrun : (runSteps (allowed step fun a q => Access.due a q = true) [.exchange 7, .exchange 8, .link (1, 2), .load, .link (0, 1),
      .load, .take (0, 1)] (start : MPSCQueue Nat)).any (fun q => q.inputs = [7, 8] && q.outputs = [7]) = true := by decide
  obtain ⟨q, hq, hany⟩ := (Option.any_eq_true _ _).1 hrun
  rw [Bool.and_eq_true, decide_eq_true_eq, decide_eq_true_eq] at hany
  exact ⟨q, hany.1, hany.2, (reaches_queue (.of_allowed (.of_runSteps hq))).1⟩

end MPSCQueue

end AtlasWow.Threading
