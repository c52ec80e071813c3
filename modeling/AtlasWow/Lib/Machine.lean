/-
Partial step functions: a step answers `none` when the program stops there
(a failed assertion, a null pointer read, a loop that has not ended).

`Reaches step ok s s'`: some sequence of steps leads from `s` to `s'`, each
taken where `ok` allows it; `Reaches.invariant` is the induction rule.
`whileLoop` is a loop cut off after a number of rounds: `whileLoop_ends`
gives enough rounds from a measure, `whileLoop_invariant` what the loop
keeps. `Along` follows a run of total steps.
-/
import Mathlib.Tactic.Common

section Steps

variable {σ ι : Type}

/-- The states a run reaches, each step taken where `ok` holds. -/
inductive Reaches (step : ι → σ → Option σ) (ok : ι → σ → Prop) (s : σ) : σ → Prop
  | refl : Reaches step ok s s
  | tail {s' s'' : σ} (i : ι) : Reaches step ok s s' → ok i s' → step i s' = some s'' →
      Reaches step ok s s''

variable {step : ι → σ → Option σ} {ok : ι → σ → Prop} {s s' : σ}

/-- What holds at the start and every allowed step keeps, holds in every state reached. -/
theorem Reaches.invariant (I : σ → Prop) (keep : ∀ i a b, I a → ok i a → step i a = some b → I b)
    (h : Reaches step ok s s') (h₀ : I s) : I s' := by
  induction h with
  | refl => exact h₀
  | tail i _ hok hs ih => exact keep i _ _ ih hok hs

theorem Reaches.trans {s'' : σ} (h : Reaches step ok s s') (h' : Reaches step ok s' s'') :
    Reaches step ok s s'' := by
  induction h' with
  | refl => exact h
  | tail i _ hok hs ih => exact .tail i ih hok hs

/-- The steps of a list, one after the other. -/
def runSteps (step : ι → σ → Option σ) : List ι → σ → Option σ
  | [], s => some s
  | i :: is, s => (step i s).bind (runSteps step is)

theorem Reaches.of_runSteps : ∀ {is : List ι} {s : σ}, runSteps step is s = some s' →
    Reaches step (fun _ _ => True) s s'
  | [], s, h => by
    simp only [runSteps, Option.some.injEq] at h
    subst h; exact .refl
  | i :: is, s, h => by
    simp only [runSteps, Option.bind_eq_some_iff] at h
    obtain ⟨a, hi, h⟩ := h
    exact Reaches.trans (.tail i .refl trivial hi) (Reaches.of_runSteps h)

theorem runSteps_append (is js : List ι) : ∀ s : σ, runSteps step (is ++ js) s = (runSteps step is s).bind (runSteps step js) := by
  induction is with
  | nil => exact fun s => rfl
  | cons i is ih =>
    intro s
    rw [List.cons_append, runSteps, runSteps, Option.bind_assoc]
    exact congrArg ((step i s).bind ·) (funext ih)

/-- Each step of a list is allowed where it is taken. -/
def AllSteps (step : ι → σ → Option σ) (ok : ι → σ → Prop) : List ι → σ → Prop
  | [], _ => True
  | i :: is, s => ok i s ∧ ∀ s', step i s = some s' → AllSteps step ok is s'

theorem AllSteps.of_forall {is : List ι} (h : ∀ i ∈ is, ∀ s, ok i s) (s : σ) : AllSteps step ok is s := by
  induction is generalizing s with
  | nil => trivial
  | cons i is ih => exact ⟨h i List.mem_cons_self s, fun s' _ => ih (fun j hj => h j (List.mem_cons_of_mem _ hj)) s'⟩

/-- What the allowed steps keep, a list of them keeps. -/
theorem runSteps_invariant (I : σ → Prop) (keep : ∀ i a b, I a → ok i a → step i a = some b → I b) :
    ∀ {is : List ι} {s s' : σ}, AllSteps step ok is s → I s → runSteps step is s = some s' → I s'
  | [], _, _, _, hs, h => by
    cases h
    exact hs
  | i :: is, s, s', hok, hs, h => by
    obtain ⟨a, hi, h⟩ := Option.bind_eq_some_iff.1 h
    exact runSteps_invariant I keep (hok.2 a hi) (keep i s a hs hok.1 hi) h

theorem Reaches.of_allSteps : ∀ {is : List ι} {s s' : σ}, AllSteps step ok is s → runSteps step is s = some s' →
    Reaches step ok s s'
  | [], _, _, _, h => by
    cases h
    exact .refl
  | _ :: _, _, _, hok, h => by
    obtain ⟨a, hi, h⟩ := Option.bind_eq_some_iff.1 h
    exact Reaches.trans (.tail _ .refl hok.1 hi) (Reaches.of_allSteps (hok.2 a hi) h)

/-- Only the steps that are allowed. -/
def allowed (step : ι → σ → Option σ) (ok : ι → σ → Prop) [∀ i s, Decidable (ok i s)] (i : ι) (s : σ) : Option σ :=
  if ok i s then step i s else none

theorem Reaches.of_allowed [∀ i s, Decidable (ok i s)]
    (h : Reaches (allowed step ok) (fun _ _ => True) s s') : Reaches step ok s s' := by
  induction h with
  | refl => exact .refl
  | tail i _ _ hs ih =>
    unfold allowed at hs
    split at hs
    next hok => exact .tail i ih hok hs
    next => cases hs

/-- A run of allowed steps is one where more is allowed. -/
theorem runSteps_allowed_mono {ok' : ι → σ → Prop} [∀ i s, Decidable (ok i s)] [∀ i s, Decidable (ok' i s)]
    (h : ∀ i s, ok i s → ok' i s) : ∀ {is : List ι} {s s' : σ}, runSteps (allowed step ok) is s = some s' →
      runSteps (allowed step ok') is s = some s'
  | [], _, _, hrun => hrun
  | i :: is, s, s', hrun => by
    obtain ⟨a, hi, hrun⟩ := Option.bind_eq_some_iff.1 hrun
    unfold allowed at hi
    split at hi
    next hok =>
      rw [runSteps, allowed, if_pos (h i s hok), hi]
      exact runSteps_allowed_mono h hrun
    next => cases hi

end Steps

section Loops

variable {σ : Type}

/-- `while (cond) body`, for at most `n` rounds: `none` if it would go on. -/
def whileLoop (cond : σ → Bool) (body : σ → Option σ) : Nat → σ → Option σ
  | 0, s => if cond s then none else some s
  | n + 1, s => if cond s then (body s).bind (whileLoop cond body n) else some s

variable {cond : σ → Bool} {body : σ → Option σ}

theorem whileLoop_invariant (I : σ → Prop)
    (keep : ∀ a b, I a → cond a = true → body a = some b → I b) :
    ∀ {n : Nat} {s s' : σ}, I s → whileLoop cond body n s = some s' → I s' ∧ cond s' = false
  | 0, s, s', hs, h => by
    simp only [whileLoop] at h
    split at h
    · cases h
    · next hc => cases h; exact ⟨hs, by simpa using hc⟩
  | n + 1, s, s', hs, h => by
    simp only [whileLoop] at h
    split at h
    · next hc =>
      simp only [Option.bind_eq_some_iff] at h
      obtain ⟨a, ha, h⟩ := h
      exact whileLoop_invariant I keep (keep _ _ hs hc ha) h
    · next hc => cases h; exact ⟨hs, by simpa using hc⟩

/-- More rounds do not matter to a loop that ends. -/
theorem whileLoop_mono {n m : Nat} (hnm : n ≤ m) : ∀ {s s' : σ}, whileLoop cond body n s = some s' →
    whileLoop cond body m s = some s' := by
  induction n generalizing m with
  | zero =>
    intro s s' h
    simp only [whileLoop] at h
    split at h
    · cases h
    next hc => cases m <;> simp only [whileLoop, if_neg hc, h]
  | succ n ih =>
    intro s s' h
    obtain ⟨m, rfl⟩ : ∃ k, m = k + 1 := ⟨m - 1, by omega⟩
    simp only [whileLoop] at h ⊢
    split at h
    next hc =>
      obtain ⟨a, ha, h⟩ := Option.bind_eq_some_iff.1 h
      rw [if_pos hc, ha, Option.bind_some, ih (by omega) h]
    next hc => rw [if_neg hc, h]

/-- A loop that goes on wherever another does takes over from it: running the other first changes nothing. -/
theorem whileLoop_takeover {cond' : σ → Bool} (hcond : ∀ s, cond s = true → cond' s = true) {s s' : σ} :
    (∃ n, (whileLoop cond body n s).bind (whileLoop cond' body n) = some s') ↔
      ∃ n, whileLoop cond' body n s = some s' := by
  constructor
  · intro h
    obtain ⟨n, h⟩ := h
    obtain ⟨a, ha, h⟩ := Option.bind_eq_some_iff.1 h
    suffices hrun : ∀ (k : Nat) (s : σ), whileLoop cond body k s = some a → whileLoop cond' body (k + n) s = some s' from
      ⟨n + n, hrun n s ha⟩
    intro k
    induction k with
    | zero =>
      intro s hs
      simp only [whileLoop] at hs
      split at hs
      · cases hs
      · cases hs; exact whileLoop_mono (by omega) h
    | succ k ih =>
      intro s hs
      simp only [whileLoop] at hs
      split at hs
      next hc =>
        obtain ⟨b, hb, hs⟩ := Option.bind_eq_some_iff.1 hs
        rw [show k + 1 + n = k + n + 1 by omega]
        simp only [whileLoop, if_pos (hcond _ hc), hb, Option.bind_some, ih b hs]
      next => cases hs; exact whileLoop_mono (by omega) h
  · intro h
    obtain ⟨n, h⟩ := h
    suffices hrun : ∀ (k : Nat) (s : σ), whileLoop cond' body k s = some s' →
        ∃ a, whileLoop cond body k s = some a ∧ whileLoop cond' body k a = some s' by
      obtain ⟨a, ha, ha'⟩ := hrun n s h
      exact ⟨n, Option.bind_eq_some_iff.2 ⟨a, ha, ha'⟩⟩
    intro k
    induction k with
    | zero =>
      intro s hs
      have hs₀ := hs
      simp only [whileLoop] at hs
      split at hs
      · cases hs
      next hc => exact ⟨s, by rw [whileLoop, if_neg fun h => hc (hcond s h)], hs₀⟩
    | succ k ih =>
      intro s hs
      have hs₀ := hs
      simp only [whileLoop] at hs
      split at hs
      next hc' =>
        obtain ⟨b, hb, hs⟩ := Option.bind_eq_some_iff.1 hs
        by_cases hc : cond s = true
        · obtain ⟨a, ha, ha'⟩ := ih b hs
          exact ⟨a, by rw [whileLoop, if_pos hc, hb, Option.bind_some, ha], whileLoop_mono (Nat.le_succ k) ha'⟩
        · exact ⟨s, by rw [whileLoop, if_neg hc], hs₀⟩
      next hc' => exact ⟨s, by rw [whileLoop, if_neg fun h => hc' (hcond s h)], hs₀⟩

/-- A loop run on another representation of its states. -/
theorem whileLoop_map {τ : Type} (f : σ → τ) {cond' : τ → Bool} {body' : τ → Option τ}
    (hcond : ∀ s, cond' (f s) = cond s) (hbody : ∀ s, body' (f s) = (body s).map f) (n : Nat) :
    ∀ s, whileLoop cond' body' n (f s) = (whileLoop cond body n s).map f := by
  induction n with
  | zero =>
    intro s
    simp only [whileLoop, hcond]
    split <;> rfl
  | succ n ih =>
    intro s
    simp only [whileLoop, hcond, hbody]
    split
    · cases body s with
      | none => rfl
      | some a => exact ih a
    · rfl

/-- A loop whose rounds succeed and each take from a measure ends within the measure. -/
theorem whileLoop_ends (I : σ → Prop) (μ : σ → Nat)
    (round : ∀ a, I a → cond a = true → ∃ b, body a = some b ∧ I b ∧ μ b < μ a) :
    ∀ {n : Nat} {s : σ}, I s → μ s ≤ n → ∃ s', whileLoop cond body n s = some s' ∧ I s' ∧ cond s' = false
  | n, s, hs, hn => by
    cases hc : cond s with
    | false => cases n <;> exact ⟨s, by simp [whileLoop, hc], hs, hc⟩
    | true =>
      obtain ⟨b, hb, hI, hμ⟩ := round s hs hc
      cases n with
      | zero => omega
      | succ n =>
        obtain ⟨s', h', hs'⟩ := whileLoop_ends I μ round (n := n) hI (by omega)
        exact ⟨s', by simp [whileLoop, hc, hb, h'], hs'⟩

/-- The invariant of a monadic fold, said of the state and of what is left of the list. -/
theorem foldlM_invariant_rest {α : Type} {f : σ → α → Option σ} (I : List α → σ → Prop)
    (keep : ∀ x l a b, I (x :: l) a → f a x = some b → I l b) :
    ∀ {l : List α} {s s' : σ}, I l s → l.foldlM f s = some s' → I [] s'
  | [], s, s', hs, h => by
    simp only [List.foldlM_nil] at h
    cases h; exact hs
  | x :: l, s, s', hs, h => by
    simp only [List.foldlM_cons, Option.bind_eq_bind, Option.bind_eq_some_iff] at h
    obtain ⟨a, ha, h⟩ := h
    exact foldlM_invariant_rest I keep (keep _ _ _ _ hs ha) h

variable {α : Type} {f : σ → α → Option σ} {l : List α}

/-- What the round of every element keeps, the fold keeps. -/
theorem foldlM_invariant (I : σ → Prop) (keep : ∀ x a b, I a → f a x = some b → I b) {s s' : σ} (hs : I s)
    (h : l.foldlM f s = some s') : I s' :=
  foldlM_invariant_rest (fun _ => I) (fun x _ a b => keep x a b) hs h

/-- A fold whose rounds all answer answers. -/
theorem foldlM_some {α : Type} {f : σ → α → Option σ} : ∀ {l : List α} {s : σ},
    (∀ x ∈ l, ∀ s, ∃ s', f s x = some s') → ∃ s', l.foldlM f s = some s'
  | [], s, _ => ⟨s, rfl⟩
  | x :: l, s, h => by
    obtain ⟨s₁, hs₁⟩ := h x List.mem_cons_self s
    obtain ⟨s', hs'⟩ := foldlM_some (s := s₁) fun y hy => h y (List.mem_cons_of_mem _ hy)
    refine ⟨s', ?_⟩
    rw [List.foldlM_cons, hs₁]
    exact hs'

/-- Every round of a fold is allowed in the state it is made in. -/
def foldAllowed {α : Type} (f : σ → α → σ) (ok : σ → α → Bool) : σ → List α → Bool
  | _, [] => true
  | s, x :: l => ok s x && foldAllowed f ok (f s x) l

/-- What every allowed round keeps, a fold of allowed rounds keeps; said of the state and of what is left of the list. -/
theorem foldl_invariant_rest {f : σ → α → σ} {ok : σ → α → Bool} (I : List α → σ → Prop)
    (keep : ∀ x l a, I (x :: l) a → ok a x = true → I l (f a x)) {s : σ} (hs : I l s)
    (h : foldAllowed f ok s l = true) : I [] (l.foldl f s) := by
  induction l generalizing s with
  | nil => exact hs
  | cons x l ih =>
    rw [foldAllowed, Bool.and_eq_true] at h
    exact ih (keep x l s hs h.1) h.2

theorem foldl_invariant {f : σ → α → σ} {ok : σ → α → Bool} (I : σ → Prop)
    (keep : ∀ x a, I a → ok a x = true → I (f a x)) {s : σ} (hs : I s) (h : foldAllowed f ok s l = true) :
    I (l.foldl f s) :=
  foldl_invariant_rest (fun _ => I) (fun x _ a => keep x a) hs h

/-- The rounds of a fold are the steps of a run. -/
theorem Reaches.of_foldAllowed {α : Type} {f : σ → α → σ} {ok : σ → α → Bool} : ∀ {l : List α} {s : σ},
    foldAllowed f ok s l = true → Reaches (fun x s => some (f s x)) (fun x s => ok s x = true) s (l.foldl f s)
  | [], _, _ => .refl
  | x :: _, s, h => by
    rw [foldAllowed, Bool.and_eq_true] at h
    exact Reaches.trans (.tail x .refl h.1 rfl) (Reaches.of_foldAllowed h.2)

/-- A loop over a list that a round may break: the state, and the list from the element it broke at. -/
def loopUntil {α : Type} (step : σ → α → σ × Bool) : List α → σ → σ × List α
  | [], s => (s, [])
  | x :: l, s => if (step s x).2 then loopUntil step l (step s x).1 else ((step s x).1, x :: l)

/-- A fold over keys of which only one matters. -/
theorem foldlM_single {x : α} {s : σ} (hx : x ∈ l) (hnodup : l.Nodup) (before : ∀ y ∈ l, y ≠ x → f s y = some s)
    (after : ∀ s', f s x = some s' → ∀ y ∈ l, y ≠ x → f s' y = some s') : l.foldlM f s = f s x := by
  have hskip : ∀ {l : List α} {s : σ}, (∀ y ∈ l, f s y = some s) → l.foldlM f s = some s := by
    intro l s h
    induction l with
    | nil => rfl
    | cons y l ih =>
      rw [List.foldlM_cons, h y List.mem_cons_self]
      exact ih fun z hz => h z (List.mem_cons_of_mem _ hz)
  induction l with
  | nil => cases hx
  | cons y l ih =>
    obtain ⟨hy, hnodup⟩ := List.nodup_cons.1 hnodup
    rw [List.foldlM_cons]
    rcases List.mem_cons.1 hx with rfl | hx
    · cases hfx : f s x with
      | none => rfl
      | some s' =>
        exact hskip fun z hz => after s' hfx z (List.mem_cons_of_mem _ hz) fun he => hy (he ▸ hz)
    rw [before y List.mem_cons_self fun he => hy (he ▸ hx)]
    exact ih hx hnodup (fun z hz => before z (List.mem_cons_of_mem _ hz)) fun s' hs' z hz =>
      after s' hs' z (List.mem_cons_of_mem _ hz)

end Loops

section Along

variable {σ ι : Type} {step : ι → σ → σ}

/-- A relation between the steps of a list and the states in which they are taken. -/
def Along (step : ι → σ → σ) (R : ι → σ → Prop) : List ι → σ → Prop
  | [], _ => True
  | i :: is, s => R i s ∧ Along step R is (step i s)

/-- Two relations that agree where an invariant holds, one of them keeping it, agree along whole runs. -/
theorem along_congr {P Q : ι → σ → Prop} (I : List ι → σ → Prop) (agree : ∀ i is s, I (i :: is) s → (P i s ↔ Q i s))
    (keep : ∀ i is s, I (i :: is) s → Q i s → I is (step i s)) : ∀ (is : List ι) {s : σ}, I is s →
      (Along step P is s ↔ Along step Q is s)
  | [], _, _ => Iff.rfl
  | i :: is, s, h => by
    unfold Along
    rw [agree i is s h]
    exact and_congr_right fun hq => along_congr I agree keep is (keep i is s h hq)

end Along
