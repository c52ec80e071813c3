/-
What matching keeps: a property of the queue that the check of some entries at
once keeps, and every verdict but a compatible one that is noted for a key, is
kept by `CheckCompatibility`, `FindNewGroups` and `FindGroups` (`Kept`).
-/
import AtlasWow.Lfg.Matching

namespace AtlasWow.Lfg

namespace Matching

/-- What the checks of guids in `among` keep. -/
structure Kept (v : LfgView) (among : ObjectGuid → Prop) (P : Matching → Prop) : Prop where
  together : ∀ {s check}, P s → check ≠ [] → (∀ guid ∈ check, among guid) → P (checkTogether v check s).2
  noted : ∀ {s check c}, P s → check ≠ [] → (∀ guid ∈ check, among guid) → c ≠ .withLessPlayers →
    P (s.setCompatibles (concatenateGuids check) c)

variable {v : LfgView} {among : ObjectGuid → Prop} {P : Matching → Prop} {check : GuidList} {s : Matching}

theorem Kept.checkCompatibility (h : Kept v among P) (check : GuidList) : ∀ {s : Matching}, P s →
    (∀ guid ∈ check, among guid) → P (checkCompatibility v check s).2 := by
  induction check with
  | nil => exact fun hs _ => hs
  | cons new check ih =>
    intro s hs hm
    unfold Matching.checkCompatibility
    split
    · exact hs
    split
    · have hchild := ih hs fun guid hg => hm guid (List.mem_cons_of_mem _ hg)
      simp only
      split
      next hincompatible =>
        refine h.noted hchild (List.cons_ne_nil _ _) hm fun hless => ?_
        rw [hless] at hincompatible
        exact nomatch hincompatible
      next => exact h.together hchild (List.cons_ne_nil _ _) hm
    · exact h.together hs (List.cons_ne_nil _ _) hm

theorem Kept.verdict (h : Kept v among P) (hs : P s) (hm : ∀ guid ∈ check, among guid) : P (verdict v check s).2 := by
  have hmatch : ∀ {s : Matching}, P s → v.allQueued check = true → P (s.setCompatibles (concatenateGuids check) .match) :=
    fun hs hqueued => h.noted hs (fun hnil => by rw [hnil] at hqueued; exact nomatch hqueued) hm (by decide)
  unfold Matching.verdict
  simp only
  by_cases hcached : s.queue.getCompatibles (concatenateGuids check) = .pending
  · rw [if_pos hcached]
    have hcheck := h.checkCompatibility check hs hm
    split
    next hstates => exact hmatch hcheck (Bool.and_eq_true_iff.1 hstates).2
    next => exact hcheck
  rw [if_neg hcached]
  split
  next hstates => exact hmatch hs (Bool.and_eq_true_iff.1 hstates).2
  next => exact hs

/-- The lists keep the guids they had between them. -/
theorem Kept.matchRest (h : Kept v among P) (n : Nat) : ∀ (compatibles : LfgCompatibility) (check all : GuidList)
    {s : Matching}, P s → (∀ guid ∈ check, among guid) → (∀ guid ∈ all, among guid) →
    P (matchRest v n compatibles check all s).2.2.2 ∧
    (∀ guid ∈ (matchRest v n compatibles check all s).2.1, among guid) ∧
    (∀ guid ∈ (matchRest v n compatibles check all s).2.2.1, among guid) := by
  induction n with
  | zero => exact fun _ _ _ _ hs hc ha => ⟨hs, hc, ha⟩
  | succ n ih =>
    intro compatibles check all s hs hc ha
    cases all with
    | nil => exact ⟨hs, hc, ha⟩
    | cons next all =>
      have hc' : ∀ guid ∈ check ++ [next], among guid := fun guid hg =>
        (List.mem_append.1 hg).elim (hc guid) fun hn => List.mem_singleton.1 hn ▸ ha next List.mem_cons_self
      have ha' : ∀ guid ∈ all, among guid := fun guid hg => ha guid (List.mem_cons_of_mem _ hg)
      have hverdict := h.verdict hs hc'
      unfold Matching.matchRest
      simp only
      by_cases hless : (Matching.verdict v (check ++ [next]) s).1 = .withLessPlayers
      · obtain ⟨hrest, hc'', ha''⟩ := ih .withLessPlayers (check ++ [next]) all hverdict hc' ha'
        simp only [if_pos hless]
        rw [hless]
        split
        · exact ⟨hrest, hc'', ha''⟩
        · exact ih compatibles _ _ hrest (fun guid hg => hc'' guid (List.mem_of_mem_dropLast hg)) ha''
      simp only [if_neg hless]
      split
      · exact ⟨hverdict, hc', ha'⟩
      · exact ih compatibles _ _ hverdict (fun guid hg => hc' guid (List.mem_of_mem_dropLast hg)) ha'

theorem Kept.findNewGroups (h : Kept v among P) {all : GuidList} (hs : P s)
    (hc : ∀ guid ∈ check, among guid) (ha : ∀ guid ∈ all, among guid) : P (findNewGroups v check all s).2.2.2 := by
  unfold Matching.findNewGroups
  simp only
  split
  · exact (h.matchRest _ _ _ _ (h.verdict hs hc) hc ha).1
  · exact h.verdict hs hc

end Matching

end AtlasWow.Lfg
