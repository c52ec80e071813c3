/-
A vote that ends as soon as enough agree or enough deny. A voter's first answer
counts, and some answers are given before the vote is opened. `count` is how
many voters gave an answer; one more ballot adds at most one to one of the two
counts (`count_append`).

`Passes` asks whether enough agree while those who deny still leave it possible:
that is just whether enough agree in the end (`passes_iff`). `First` asks
whether enough agree before enough deny, which is what a vote sees that closes
at either; the two agree on the ballots that are `InTime` (`first_iff`).
-/
import Mathlib.Data.Finset.Card

structure Vote (α : Type) [DecidableEq α] where
  voters : Finset α
  /-- The answers there are before the vote. -/
  given : List (α × Bool)

namespace Vote

variable {α : Type} [DecidableEq α] (v : Vote α)

/-- The first answer that someone gave. -/
def answer (ballots : List (α × Bool)) (a : α) : Option Bool := (v.given ++ ballots).lookup a

def count (answer : Bool) (ballots : List (α × Bool)) : Nat :=
  (v.voters.filter fun a => v.answer ballots a = some answer).card

/-- Enough agree, and not so many denied before that this was impossible. -/
def Passes (needed : Nat) (ballots : List (α × Bool)) : Prop :=
  ∃ mid, mid <+: ballots ∧ needed ≤ v.count true mid ∧
    ∀ before, before <+: mid → needed + v.count false before ≤ v.voters.card

/-- Enough agree before enough deny. -/
def First (needed : Nat) (ballots : List (α × Bool)) : Prop :=
  ∃ mid, mid <+: ballots ∧ needed ≤ v.count true mid ∧ v.count false mid < needed

/-- Enough agree or enough deny. -/
def Decided (needed : Nat) (ballots : List (α × Bool)) : Prop :=
  needed ≤ v.count true ballots ∨ needed ≤ v.count false ballots

/-- Where enough deny, enough agree already or never do. -/
def InTime (needed : Nat) (ballots : List (α × Bool)) : Prop :=
  ∀ mid, mid <+: ballots → needed ≤ v.count false mid → needed ≤ v.count true ballots → needed ≤ v.count true mid

variable {v} {ballots ballots' : List (α × Bool)} {a b : α} {x y : Bool} {needed : Nat}

theorem answer_concat (ballots : List (α × Bool)) (a : α) (x : Bool) (b : α) :
    v.answer (ballots ++ [(a, x)]) b = if v.answer ballots b = none ∧ b = a then some x else v.answer ballots b := by
  rw [answer, ← List.append_assoc, List.lookup_append, ← answer]
  cases h : v.answer ballots b with
  | some y => simp
  | none =>
    by_cases hb : b = a
    · simp [hb, List.lookup_cons]
    · have hne : (b == a) = false := by simpa using hb
      simp [hb, List.lookup_cons, hne]

/-- Whether a ballot is a voter's first answer, and which. -/
def counts (v : Vote α) (ballots : List (α × Bool)) (answer : Bool) (ballot : α × Bool) : Bool :=
  ballot.1 ∈ v.voters ∧ v.answer ballots ballot.1 = none ∧ ballot.2 = answer

theorem count_append (ballots : List (α × Bool)) (ballot : α × Bool) (y : Bool) :
    v.count y (ballots ++ [ballot]) = v.count y ballots + if v.counts ballots y ballot then 1 else 0 := by
  obtain ⟨a, x⟩ := ballot
  have hfilter : v.voters.filter (fun b => v.answer (ballots ++ [(a, x)]) b = some y) =
      if v.counts ballots y (a, x) then insert a (v.voters.filter fun b => v.answer ballots b = some y)
      else v.voters.filter fun b => v.answer ballots b = some y := by
    ext b
    rw [Finset.mem_filter, answer_concat, counts]
    grind
  rw [count, hfilter]
  split
  next h =>
    rw [counts, decide_eq_true_eq] at h
    rw [Finset.card_insert_of_notMem (by simp [h.2.1]), count]
  next => rfl

theorem count_mono (h : ballots <+: ballots') (y : Bool) : v.count y ballots ≤ v.count y ballots' := by
  obtain ⟨rest, rfl⟩ := h
  induction rest using List.reverseRecOn with
  | nil => rw [List.append_nil]
  | append_singleton rest ballot ih =>
    rw [← List.append_assoc, count_append]
    exact Nat.le_add_right_of_le ih

theorem count_concat_le (ballots : List (α × Bool)) (ballot : α × Bool) (y : Bool) :
    v.count y (ballots ++ [ballot]) ≤ v.count y ballots + 1 := by
  rw [count_append]
  split <;> omega

/-- One ballot does not count twice. -/
theorem count_not_concat {ballot : α × Bool} (h : v.count y ballots < v.count y (ballots ++ [ballot])) :
    v.count (!y) (ballots ++ [ballot]) = v.count (!y) ballots := by
  rw [count_append] at h
  split at h
  next hy =>
    rw [counts, decide_eq_true_eq] at hy
    rw [count_append, if_neg, Nat.add_zero]
    simp [counts, hy.2.2]
  next => exact absurd h (Nat.lt_irrefl _)

theorem count_add_count_le (ballots : List (α × Bool)) : v.count true ballots + v.count false ballots ≤ v.voters.card := by
  rw [count, count, ← Finset.card_union_of_disjoint]
  · exact Finset.card_le_card (Finset.union_subset (Finset.filter_subset ..) (Finset.filter_subset ..))
  · rw [Finset.disjoint_filter]
    intro a _ htrue hfalse
    exact nomatch htrue.symm.trans hfalse

/-- Those who agree leave it possible, whoever denies. -/
theorem passes_iff : v.Passes needed ballots ↔ needed ≤ v.count true ballots := by
  constructor
  · rintro ⟨mid, hmid, hneeded, -⟩
    exact hneeded.trans (count_mono hmid true)
  · intro h
    refine ⟨ballots, List.prefix_rfl, h, fun before hbefore => ?_⟩
    have hdenied := count_mono (v := v) hbefore false
    have hall := v.count_add_count_le ballots
    omega

theorem First.le (h : v.First needed ballots) : needed ≤ v.count true ballots := by
  obtain ⟨mid, hmid, hneeded, -⟩ := h
  exact hneeded.trans (count_mono hmid true)

theorem First.concat (h : v.First needed ballots) (ballot : α × Bool) : v.First needed (ballots ++ [ballot]) := by
  obtain ⟨mid, hmid, hneeded⟩ := h
  exact ⟨mid, hmid.trans (List.prefix_append ..), hneeded⟩

/-- A vote that is decided stays as it is. -/
theorem first_concat_of_decided (h : v.Decided needed ballots) (ballot : α × Bool) :
    v.First needed (ballots ++ [ballot]) ↔ v.First needed ballots := by
  refine ⟨?_, fun hfirst => hfirst.concat ballot⟩
  rintro ⟨mid, hmid, hagreed, hdenied⟩
  rcases List.prefix_concat_iff.1 hmid with rfl | hmid
  · have hfew : v.count false ballots < needed := Nat.lt_of_le_of_lt (count_mono (List.prefix_append ..) _) hdenied
    exact ⟨ballots, List.prefix_rfl, h.resolve_right (Nat.not_le.2 hfew), hfew⟩
  · exact ⟨mid, hmid, hagreed, hdenied⟩

/-- The ballot that decides a vote decides it one way. -/
theorem first_concat_of_not_decided (h : ¬ v.Decided needed ballots) (ballot : α × Bool) :
    v.First needed (ballots ++ [ballot]) ↔ needed ≤ v.count true (ballots ++ [ballot]) := by
  refine ⟨First.le, fun hagreed => ⟨_, List.prefix_rfl, hagreed, ?_⟩⟩
  obtain ⟨hagreed', hdenied⟩ := not_or.1 h
  have hmore : v.count true ballots < v.count true (ballots ++ [ballot]) :=
    Nat.lt_of_lt_of_le (Nat.lt_of_not_le hagreed') hagreed
  have hsame : v.count false (ballots ++ [ballot]) = v.count false ballots := count_not_concat hmore
  rw [hsame]
  exact Nat.lt_of_not_le hdenied

theorem Decided.concat (h : v.Decided needed ballots) (ballot : α × Bool) : v.Decided needed (ballots ++ [ballot]) :=
  h.imp (·.trans (count_mono (List.prefix_append ..) true)) (·.trans (count_mono (List.prefix_append ..) false))

/-- A second ballot of someone changes no answer. -/
theorem answer_concat_of_answered (h : v.answer ballots a = some x) (y : Bool) :
    v.answer (ballots ++ [(a, y)]) = v.answer ballots := by
  funext b
  rw [answer_concat]
  split
  next hb => exact nomatch (hb.2 ▸ hb.1).symm.trans h
  next => rfl

theorem count_concat_of_answered (h : v.answer ballots a = some x) (y z : Bool) :
    v.count z (ballots ++ [(a, y)]) = v.count z ballots := by
  rw [count, answer_concat_of_answered h, ← count]

theorem decided_concat_of_answered (h : v.answer ballots a = some x) (y : Bool) :
    v.Decided needed (ballots ++ [(a, y)]) ↔ v.Decided needed ballots := by
  rw [Decided, count_concat_of_answered h, count_concat_of_answered h, Decided]

/-- A vote that closes at either number sees what passes if and only if the ballots are in time. -/
theorem first_iff (hopen : ¬ v.Decided needed []) :
    (v.First needed ballots ↔ needed ≤ v.count true ballots) ↔ v.InTime needed ballots := by
  constructor
  · intro h mid hmid hdenied hagreed
    obtain ⟨mid', hmid', hagreed', hfew⟩ := h.2 hagreed
    rcases List.prefix_or_prefix_of_prefix hmid hmid' with hle | hle
    · exact absurd (hdenied.trans (count_mono hle false)) (Nat.not_le.2 hfew)
    · exact hagreed'.trans (count_mono hle true)
  · refine fun hin => ⟨First.le, ?_⟩
    -- up to the first prefix where enough agree
    suffices hall : ∀ mid, mid <+: ballots → needed ≤ v.count true mid → v.First needed mid from hall _ List.prefix_rfl
    intro mid
    induction mid using List.reverseRecOn with
    | nil => exact fun _ hagreed => absurd (.inl hagreed) hopen
    | append_singleton mid ballot ih =>
      intro hmid hagreed
      have hmid' := (List.prefix_append mid [ballot]).trans hmid
      by_cases hbefore : needed ≤ v.count true mid
      · exact (ih hmid' hbefore).concat ballot
      refine (first_concat_of_not_decided (fun hdecided => ?_) ballot).2 hagreed
      have hdenied := hdecided.resolve_left hbefore
      exact hbefore (hin mid hmid' hdenied (hagreed.trans (count_mono hmid true)))

theorem InTime.shorten (h : v.InTime needed ballots) (hpre : ballots' <+: ballots) : v.InTime needed ballots' :=
  fun mid hmid hdenied hagreed => h mid (hmid.trans hpre) hdenied (hagreed.trans (count_mono hpre true))

end Vote
