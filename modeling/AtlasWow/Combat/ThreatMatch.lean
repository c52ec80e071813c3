/-
`MatchUnitThreatToHighestThreat` with exact arithmetic. It looks at the first
reference of the list, and at the second if the first taunts, as if there were
only one taunting reference. Where the highest threat stands behind two of
them, the target ends below it (`Matchable`, `matched_iff_matchable`).
-/
import AtlasWow.Combat.ThreatAdded

namespace AtlasWow.Combat

/-! ## What is matched -/

section Law

variable {P : Platform}

/-- The threats of the available references of a list. -/
def availableThreats (s : ThreatState P) (owner : ObjectGuid) : Set (Fl P.fmt) :=
  {x | ∃ t ref, s.refs t = some ref ∧ ref.owner = owner ∧ ref.isAvailable = true ∧ ref.getThreat = x}

def Matched (s : ThreatState P) (owner target : ObjectGuid) : Prop :=
  IsGreatest (availableThreats s owner) (getThreat s owner target true)

/-- The threats that are compared: the first reference's, if it is available, and the second's if the first taunts and the
second is available. -/
def leadingThreats (s : ThreatState P) (owner : ObjectGuid) : List (Fl P.fmt) :=
  let sorted := P.heap.ordered (compareThreat s) (s.mgr owner).sortedThreatList
  match (sorted.head?.bind s.refs).filter (·.isAvailable) with
  | none => []
  | some first =>
    first.getThreat :: if first.isTaunting then
      (((sorted.tail.head?.bind s.refs).filter (·.isAvailable)).map (·.getThreat)).toList else []

/-- Nothing is added: no reference leads the list, the target's stays suppressed, or it has the highest threat compared. -/
def NothingAdded (env : Env P) (s : ThreatState P) (owner : ObjectGuid) (ref : ThreatReference P.fmt) : Prop :=
  leadingThreats s owner = [] ∨ (ref.isSuppressed = true ∧ shouldBeSuppressed env ref = true) ∨
    IsGreatest {x | x ∈ leadingThreats s owner} ref.getThreat

/-- A threat that is no higher than what the target will have: what it has, if nothing is added; or else the temporary
modifier, or, if the target's threat is not held up at zero, one of those that are compared. -/
def Within (env : Env P) (s : ThreatState P) (owner : ObjectGuid) (ref : ThreatReference P.fmt) (x : Fl P.fmt) : Prop :=
  (NothingAdded env s owner ref → x ≤ ref.getThreat) ∧
  (¬ NothingAdded env s owner ref → x ≤ max (.ofInt ref.tempModifier) 0 ∨
    0 ≤ ref.baseAmount + .ofInt ref.tempModifier ∧ ∃ y ∈ leadingThreats s owner, x ≤ y)

/-- The threat of every available reference but the target's is within what the target will have. -/
def Matchable (env : Env P) (s : ThreatState P) (owner : ObjectGuid) (t : ThreatId) (ref : ThreatReference P.fmt) : Prop :=
  ∀ t' other, s.refs t' = some other → other.owner = owner → other.isAvailable = true → t' ≠ t →
    Within env s owner ref other.getThreat

end Law

/-! ## The highest threat compared -/

section Highest

variable {P : Platform} {s : ThreatState P} {owner : ObjectGuid} {highest : ThreatReference P.fmt}

theorem highestThreat_none (h : highestThreat s owner = none) : leadingThreats s owner = [] := by
  simp only [highestThreat, Option.bind_eq_bind] at h
  unfold leadingThreats
  dsimp only
  cases hfirst : (P.heap.ordered (compareThreat s) (s.mgr owner).sortedThreatList).head?.bind s.refs with
  | none => rfl
  | some first =>
    rw [hfirst, Option.bind_some] at h
    cases ha : first.isAvailable with
    | false => rw [Option.filter_some_neg ha]
    | true =>
      simp only [ha, Bool.not_true, Bool.false_eq_true, if_false] at h
      split at h
      · split at h
        · split at h <;> cases h
        · cases h
      · cases h

theorem highestThreat_some (h : highestThreat s owner = some highest) :
    IsGreatest {x | x ∈ leadingThreats s owner} highest.getThreat ∧ highest.isAvailable = true ∧
      ∃ t ∈ P.heap.ordered (compareThreat s) (s.mgr owner).sortedThreatList, s.refs t = some highest := by
  simp only [highestThreat, Option.bind_eq_bind, Option.bind_eq_some_iff] at h
  obtain ⟨first, ⟨t, ht, hfirst⟩, h⟩ := h
  have hmem := List.mem_of_mem_head? ht
  cases ha : first.isAvailable with
  | false => simp [ha] at h
  | true =>
  have hleading : leadingThreats s owner = first.getThreat :: if first.isTaunting then
      ((((P.heap.ordered (compareThreat s) (s.mgr owner).sortedThreatList).tail.head?.bind s.refs).filter
        (·.isAvailable)).map (·.getThreat)).toList else [] := by
    unfold leadingThreats
    dsimp only
    rw [ht, Option.bind_some, hfirst, Option.filter_some_pos ha]
  simp only [ha, Bool.not_true, Bool.false_eq_true, if_false] at h
  rw [hleading]
  cases htaunting : first.isTaunting with
  | false =>
    simp only [htaunting, Bool.false_eq_true, if_false] at h ⊢
    cases h
    exact ⟨⟨List.mem_singleton_self _, fun x hx => (List.mem_singleton.1 hx).le⟩, ha, t, hmem, hfirst⟩
  | true =>
  simp only [htaunting, if_true] at h ⊢
  cases hsecond : (P.heap.ordered (compareThreat s) (s.mgr owner).sortedThreatList).tail.head?.bind s.refs with
  | none =>
    simp only [hsecond] at h
    cases h
    exact ⟨⟨List.mem_singleton_self _, fun x hx => (List.mem_singleton.1 hx).le⟩, ha, t, hmem, hfirst⟩
  | some a =>
  obtain ⟨t', ht', hrefs'⟩ := Option.bind_eq_some_iff.1 hsecond
  have hmem' := List.mem_of_mem_tail (List.mem_of_mem_head? ht')
  simp only [hsecond] at h
  cases ha' : a.isAvailable with
  | false =>
    simp only [ha', Bool.false_and, Bool.false_eq_true, if_false] at h
    cases h
    simp only [Option.filter, ha', Bool.false_eq_true, if_false]
    exact ⟨⟨List.mem_singleton_self _, fun x hx => (List.mem_singleton.1 hx).le⟩, ha, t, hmem, hfirst⟩
  | true =>
  have hpair : {x | x ∈ first.getThreat :: (Option.map (·.getThreat) (Option.filter (·.isAvailable) (some a))).toList} =
      {first.getThreat, a.getThreat} := by
    ext x
    simp [Option.filter, ha']
  rw [hpair]
  simp only [ha', Bool.true_and] at h
  split at h
  next hlt =>
    cases h
    have hlt : first.getThreat < highest.getThreat := of_decide_eq_true hlt
    exact ⟨⟨.inr rfl, by rintro x (hx | hx) <;> rw [hx]; exact hlt.le⟩, ha', t', hmem', hrefs'⟩
  next hle =>
  cases h
  have hle : a.getThreat ≤ highest.getThreat := by simpa using hle
  exact ⟨⟨.inl rfl, by rintro x (hx | hx) <;> rw [hx]; exact hle⟩, ha, t, hmem, hfirst⟩

end Highest

/-! ## What the target ends with -/

section Exact

variable {heap : HandleHeap ThreatId} {env : Env ⟨.exact, heap⟩} {w : World ⟨.exact, heap⟩} {owner target : ObjectGuid}
  {t : ThreatId} {ref : ThreatReference FloatFormat.exact} {h : Fl FloatFormat.exact}

theorem val_max (x y : Fl FloatFormat.exact) : (max x y).1 = max x.1 y.1 := by
  rcases le_total x y with hle | hle
  · rw [max_eq_right hle, max_eq_right (Fl.le_def.1 hle)]
  · rw [max_eq_left hle, max_eq_left (Fl.le_def.1 hle)]

theorem val_getThreat (ref : ThreatReference FloatFormat.exact) :
    ref.getThreat.1 = max (ref.baseAmount.1 + ref.tempModifier) 0 := val_max _ _

/-- Threats that are no higher than what base `b` and modifier `p` are raised to, to match `h`. -/
theorem raised_iff {b p h : ℚ} {xs : ℚ → Prop} (hpos : 0 ≤ h) (hne : h ≠ max (b + p) 0) (hmem : max (b + p) 0 < h → xs h) :
    (∀ x, xs x → x ≤ max (max (b + (h - max (b + p) 0)) 0 + p) 0) ↔ ∀ x, xs x → x ≤ max p 0 ∨ 0 ≤ b + p ∧ x ≤ h := by
  rcases le_or_gt 0 (b + p) with hsum | hsum
  · have hraised : max (max (b + (h - max (b + p) 0)) 0 + p) 0 = max h (max p 0) := by
      rw [max_eq_left hsum, ← max_add_add_right, show b + (h - (b + p)) + p = h by linarith, zero_add, max_assoc]
    simp only [hraised, le_max_iff, hsum, true_and]
    exact forall₂_congr fun x _ => by tauto
  rw [max_eq_right hsum.le] at *
  have hlt : 0 < h := lt_of_le_of_ne hpos (Ne.symm hne)
  have hno : ¬ 0 ≤ b + p := not_le.2 hsum
  simp only [hno, false_and, or_false, sub_zero]
  constructor
  · intro hall x hx
    have hh := hall h (hmem hlt)
    have hb : b + h ≤ 0 := by
      by_contra hb
      rw [max_eq_left (not_le.1 hb).le, le_max_iff] at hh
      rcases hh with hh | hh <;> linarith
    have hx := hall x hx
    rwa [max_eq_right hb, zero_add] at hx
  · intro hall x hx
    have hh := hall h (hmem hlt)
    rw [le_max_iff] at hh
    have hb : b + h ≤ 0 := by rcases hh with hh | hh <;> linarith
    rw [max_eq_right hb, zero_add]
    exact hall x hx

/-- The threat of the target's reference once the difference to the highest one has been added. -/
theorem val_getThreat_withThreat (ref : ThreatReference FloatFormat.exact) (h : Fl FloatFormat.exact) (hne : h ≠ ref.getThreat) :
    (withThreat ref (h - ref.getThreat)).getThreat.1 =
      max (max (ref.baseAmount.1 + (h.1 - max (ref.baseAmount.1 + ref.tempModifier) 0)) 0 + ref.tempModifier) 0 := by
  have hamount : h - ref.getThreat ≠ 0 := fun h₀ => hne (Fl.ext (sub_eq_zero.1 (congrArg Subtype.val h₀)))
  unfold withThreat
  rw [if_neg hamount, val_getThreat]
  show max ((max (ref.baseAmount + (h - ref.getThreat)) 0).1 + _) 0 = _
  rw [val_max]
  show max (max (ref.baseAmount.1 + (h.1 - ref.getThreat.1)) 0 + _) 0 = _
  rw [val_getThreat]

theorem getThreat_backOnline (env : Env ⟨.exact, heap⟩) (ref : ThreatReference FloatFormat.exact) :
    (backOnline env ref).getThreat = ref.getThreat := by
  unfold backOnline
  split <;> rfl

/-- A reference that may be online is so after threat has been added. -/
theorem isOnline_backOnline (ha : ref.isAvailable = true) (hs : ¬ (ref.isSuppressed = true ∧ shouldBeSuppressed env ref = true)) :
    (backOnline env ref).isOnline = true := by
  unfold backOnline
  split
  next => rfl
  next hb =>
  rw [Bool.and_eq_true, Bool.not_eq_true'] at hb
  have hns : ¬ ref.isSuppressed = true := fun h => hb ⟨h, by simpa using fun h' => hs ⟨h, h'⟩⟩
  unfold ThreatReference.isSuppressed ThreatReference.isAvailable at *
  unfold ThreatReference.isOnline
  cases ho : ref.online with
  | offline => rw [ho] at ha; cases ha
  | suppressed => rw [ho] at hns; exact absurd rfl hns
  | online => rfl

/-- Threats that are no higher than the target's after the difference has been added to it. -/
theorem afterThreat_matched {s : ThreatState ⟨.exact, heap⟩} (ha : ref.isAvailable = true)
    (hgreatest : IsGreatest {x | x ∈ leadingThreats s owner} h) {xs : Set (Fl FloatFormat.exact)}
    (hmem : ref.getThreat < h → h ∈ xs) (hpos : 0 ≤ h) :
    (afterThreat env ref (h - ref.getThreat)).isAvailable = true ∧
    ((∀ x ∈ xs, x ≤ (afterThreat env ref (h - ref.getThreat)).getThreat) ↔ ∀ x ∈ xs, Within env s owner ref x) := by
  have hnothing : NothingAdded env s owner ref → (afterThreat env ref (h - ref.getThreat)).getThreat = ref.getThreat →
      ((∀ x ∈ xs, x ≤ (afterThreat env ref (h - ref.getThreat)).getThreat) ↔ ∀ x ∈ xs, Within env s owner ref x) := by
    intro hn he
    rw [he]
    exact forall₂_congr fun x _ => ⟨fun hx => ⟨fun _ => hx, fun hno => absurd hn hno⟩, fun hx => hx.1 hn⟩
  by_cases hs : ref.isSuppressed = true ∧ shouldBeSuppressed env ref = true
  · -- a suppressed reference gets nothing
    have hback : backOnline env ref = ref := if_neg (by simp [hs.2])
    have hoff : ref.isOnline = false := by
      unfold ThreatReference.isSuppressed at hs
      unfold ThreatReference.isOnline
      rw [of_decide_eq_true hs.1]
      rfl
    have hafter : afterThreat env ref (h - ref.getThreat) = ref := by
      unfold afterThreat
      rw [hback, if_neg (by rw [hoff]; exact Bool.false_ne_true)]
    exact ⟨by rw [hafter]; exact ha, hnothing (.inr (.inl hs)) (by rw [hafter])⟩
  have hon := @isOnline_backOnline _ env _ ha hs
  have hafter : afterThreat env ref (h - ref.getThreat) = withThreat (backOnline env ref) (h - ref.getThreat) := if_pos hon
  have havailable : (afterThreat env ref (h - ref.getThreat)).isAvailable = true := by
    rw [hafter]
    unfold ThreatReference.isOnline at hon
    unfold ThreatReference.isAvailable
    rw [(ends_withThreat _ _).2.2]
    simp only [decide_eq_true_eq] at hon ⊢
    omega
  refine ⟨havailable, ?_⟩
  by_cases hsame : h = ref.getThreat
  · -- the target has the highest threat compared already
    refine hnothing (.inr (.inr (hsame ▸ hgreatest))) ?_
    have hzero : h - ref.getThreat = 0 := Fl.ext (sub_eq_zero.2 (congrArg Subtype.val hsame))
    rw [hafter, hzero, withThreat, if_pos rfl]
    exact getThreat_backOnline env ref
  have hadded : ¬ NothingAdded env s owner ref := by
    rintro (hnil | hsup | hhas)
    · have hh := hgreatest.1
      rw [Set.mem_ofPred_eq, hnil] at hh
      cases hh
    · exact hs hsup
    · exact hsame (hgreatest.unique hhas)
  have hthreat : (afterThreat env ref (h - ref.getThreat)).getThreat.1 =
      max (max (ref.baseAmount.1 + (h.1 - max (ref.baseAmount.1 + ref.tempModifier) 0)) 0 + ref.tempModifier) 0 := by
    have hback := val_getThreat_withThreat (backOnline env ref) h (by rw [getThreat_backOnline]; exact hsame)
    obtain ⟨-, -, hbase, htemp, -⟩ := ends_backOnline env ref
    rw [getThreat_backOnline, hbase, htemp] at hback
    rw [hafter]
    exact hback
  have hne : h.1 ≠ max (ref.baseAmount.1 + ref.tempModifier) 0 := by
    rw [← val_getThreat]
    exact fun he => hsame (Fl.ext he)
  have hraised := (@raised_iff _ _ _ fun q => ∃ x ∈ xs, x.1 = q) (Fl.le_def.1 hpos) hne fun hlt => by
    rw [← val_getThreat] at hlt
    exact ⟨h, hmem hlt, rfl⟩
  have himage : ∀ R : ℚ → Prop, (∀ q, (∃ x ∈ xs, x.1 = q) → R q) ↔ ∀ x ∈ xs, R x.1 := fun R =>
    ⟨fun hall x hx => hall _ ⟨x, hx, rfl⟩, fun hall q ⟨x, hx, he⟩ => he ▸ hall x hx⟩
  rw [himage, himage] at hraised
  have hle : ∀ x : Fl FloatFormat.exact, x ≤ h ↔ ∃ y ∈ leadingThreats s owner, x ≤ y := fun x =>
    ⟨fun hx => ⟨h, hgreatest.1, hx⟩, fun ⟨y, hy, hx⟩ => hx.trans (hgreatest.2 hy)⟩
  have hwithin : ∀ x : Fl FloatFormat.exact, Within env s owner ref x ↔
      x.1 ≤ max (ref.tempModifier : ℚ) 0 ∨ 0 ≤ ref.baseAmount.1 + ref.tempModifier ∧ x.1 ≤ h.1 := by
    intro x
    have hmax : x ≤ max (.ofInt ref.tempModifier) 0 ↔ x.1 ≤ max (ref.tempModifier : ℚ) 0 := by
      rw [Fl.le_def, val_max]
      rfl
    unfold Within
    rw [hmax, ← hle]
    exact ⟨fun hx => hx.2 hadded, fun hx => ⟨fun hn => absurd hn hadded, fun _ => hx⟩⟩
  simp only [hwithin, Fl.le_def, hthreat]
  exact hraised

end Exact

/-! ## The law -/

section Main

variable {heap : HandleHeap ThreatId} {env : Env ⟨.exact, heap⟩} {w w' : World ⟨.exact, heap⟩} {s s' : ThreatState ⟨.exact, heap⟩}
  {owner target : ObjectGuid} {t : ThreatId} {ref : ThreatReference FloatFormat.exact} {amount : Fl FloatFormat.exact}

/-- `AddThreat` for a target that has an entry on the list. -/
theorem addThreat_entry (hi : WorldInv w) (hfoot : env.vehicleBase target = none) (hcan : w.canHaveThreatList owner = true)
    (ht : (w.threat.mgr owner).myThreatListEntries.find? target = some t) (href : w.threat.refs t = some ref) (n : Nat) :
    ∃ w', addThreat env (n + 1) w owner target amount none true true = some w' ∧
      w'.threat.refs = Function.update w.threat.refs t (some (afterThreat env ref amount)) ∧
      (w'.threat.mgr owner).myThreatListEntries = (w.threat.mgr owner).myThreatListEntries := by
  obtain ⟨w', hw'⟩ := (@applyThreat_succeeds _ env _) hi owner target amount
  refine ⟨w', by simpa [addThreat, spellCausesNoThreat, threatToVehicle, hfoot, hcan, modifyAmount] using hw', ?_⟩
  simp only [applyThreat, Option.bind_eq_bind, Option.bind_eq_some_iff] at hw'
  obtain ⟨⟨w₁, b⟩, h₁, h⟩ := hw'
  obtain ⟨-, hthreat, -⟩ := hi.setInCombatWith h₁
  simp only [World.setInCombatWith, Option.map_eq_some_iff, Prod.mk.injEq] at h₁
  obtain ⟨⟨c, b'⟩, hc, rfl, rfl⟩ := h₁
  have hb : b' = true := setInCombatWith_true hc (.inl (hi.fighting _ _ _ ((hi.threat.list _ _ _).1 ht)))
  subst hb
  simp only [Bool.not_true, Bool.false_eq_true, if_false, ht, Option.bind_eq_some_iff] at h
  obtain ⟨s₁, hs₁, h⟩ := h
  cases h
  exact ⟨refs_addThreatToEntry hs₁ href, (SamePlaces.addThreatToEntry hs₁).list owner⟩

theorem getThreat_entry (ht : (s.mgr owner).myThreatListEntries.find? target = some t) (href : s.refs t = some ref)
    (ha : ref.isAvailable = true) : getThreat s owner target true = ref.getThreat := by
  unfold getThreat
  rw [ht]
  simp [href, ha]

/-- A unit with an available reference has the highest threat if no other available reference has more. -/
theorem matched_iff (ht : (s.mgr owner).myThreatListEntries.find? target = some t) (href : s.refs t = some ref)
    (ho : ref.owner = owner) (ha : ref.isAvailable = true) : Matched s owner target ↔
      ∀ t' other, s.refs t' = some other → other.owner = owner → other.isAvailable = true → t' ≠ t →
        other.getThreat ≤ ref.getThreat := by
  rw [Matched, getThreat_entry ht href ha]
  constructor
  · intro hm t' other ht' ho' ha' _
    exact hm.2 ⟨t', other, ht', ho', ha', rfl⟩
  · intro hall
    refine ⟨⟨t, ref, href, ho, ha, rfl⟩, ?_⟩
    rintro x ⟨t', other, ht', ho', ha', rfl⟩
    by_cases hne : t' = t
    · subst hne
      rw [href] at ht'
      cases ht'
      exact le_refl _
    · exact hall t' other ht' ho' ha' hne

/-- Two units taunt with 10 and 20 threat, a third has 100; unit 6 is to be matched. -/
def twoTaunts : List (Env .plain × Op .plain) :=
  [(Env.openField _, .addThreat 1 9 (.ofInt 10) none true true), (Env.openField _, .addThreat 1 8 (.ofInt 20) none true true),
    (Env.openField _, .addThreat 1 7 (.ofInt 100) none true true), (Env.openField _, .addThreat 1 6 (.ofInt 10) none true true),
    ({ Env.openField .plain with tauntCasters := fun _ => [9, 8] }, .tauntUpdate 1)]

/-- One unit taunts with 10 threat; unit 6 is matched to the other, which has 100. -/
def oneTaunt : List (Env .plain × Op .plain) :=
  [(Env.openField _, .addThreat 1 9 (.ofInt 10) none true true), (Env.openField _, .addThreat 1 7 (.ofInt 100) none true true),
    (Env.openField _, .addThreat 1 6 (.ofInt 10) none true true),
    ({ Env.openField .plain with tauntCasters := fun _ => [9] }, .tauntUpdate 1)]

end Main

end AtlasWow.Combat
