/-
`ReselectVictim` picks the victim its comments describe (`specifiedVictim`).
The list it walks is sorted, so a reference that does not break the 110% or
the 130% has none below it that does (`compareReferencesLT_mono`).
-/
import AtlasWow.Combat.ThreatHeap

namespace AtlasWow.Combat

variable {P : Platform} {env : Env P} {s s' : ThreatState P} {owner : ObjectGuid}

/-! ## The victim to pick -/

/-- A reference takes the victim's place: it stands above it by online or taunt state, or has more than 130% of its
threat, or more than 110% and is in melee range. -/
def overtakes (env : Env P) (owner : ObjectGuid) (old ref : ThreatReference P.fmt) : Bool :=
  old.online.toNat < ref.online.toNat || old.online = ref.online && old.taunted < ref.taunted ||
    old.getThreat * .ofRat (13 / 10) < ref.getThreat ||
    old.getThreat * .ofRat (11 / 10) < ref.getThreat && env.isWithinMeleeRange owner ref.victim

def refOvertakes (env : Env P) (s : ThreatState P) (owner : ObjectGuid) (old t : ThreatId) : Bool :=
  match s.refs old, s.refs t with
  | some old, some ref => overtakes env owner old ref
  | _, _ => false

def available (s : ThreatState P) (t : ThreatId) : Bool := (s.refs t).any (·.isAvailable)

/-- The victim, for a list sorted from its top down. -/
def specifiedVictim (env : Env P) (s : ThreatState P) (owner : ObjectGuid) (l : List ThreatId) : Option ThreatId :=
  match (s.mgr owner).fixateRef.filter (available s), l.head?.filter (available s),
      (s.mgr owner).currentVictimRef.filter (available s) with
  | some fixate, _, _ => some fixate
  | none, none, _ => none
  | none, some top, none => some top
  | none, some _, some old => some (((l.takeWhile (· ≠ old)).find? (refOvertakes env s owner old)).getD old)

/-- An order of the threat list, highest first; the ordered iteration is one, and is this one if it begins at the top. -/
structure Sorted (s : ThreatState P) (owner : ObjectGuid) (l : List ThreatId) : Prop where
  perm : l.Perm (P.heap.elems (s.mgr owner).sortedThreatList)
  sorted : l.Pairwise fun a b => compareThreat s a b = false
  head : l.head? = P.heap.top (s.mgr owner).sortedThreatList
  ordered : (P.heap.ordered (compareThreat s) (s.mgr owner).sortedThreatList).head? = l.head? →
    l = P.heap.ordered (compareThreat s) (s.mgr owner).sortedThreatList

/-! ## Comparison with a weight -/

section Weight

variable {fmt : FloatFormat} {a x y : ThreatReference fmt} {weight : Fl fmt}

theorem compareReferencesLT_iff : compareReferencesLT a x weight = true ↔ a.online.toNat < x.online.toNat ∨
    a.online = x.online ∧ (a.taunted < x.taunted ∨ a.taunted = x.taunted ∧ a.getThreat * weight < x.getThreat) := by
  unfold compareReferencesLT
  split
  next h =>
    have : ¬ a.online = x.online := h
    simp [this]
  next h =>
  have h : a.online = x.online := by simpa using h
  split
  next h' =>
    have : ¬ a.taunted = x.taunted := h'
    simp [h, this]
  next h' =>
  have h' : a.taunted = x.taunted := by simpa using h'
  simp [h, h']

/-- What breaks a threshold is broken by what stands higher. -/
theorem compareReferencesLT_mono (hle : x.position ≤ y.position) (h : compareReferencesLT a x weight = true) :
    compareReferencesLT a y weight = true := by
  rw [compareReferencesLT_iff] at h ⊢
  rcases position_le_iff.1 hle with hlt | ⟨heq, htaunt⟩
  · refine .inl ?_
    rcases h with h | ⟨h, -⟩
    · exact h.trans hlt
    · rwa [h]
  have heq := toNat_inj heq
  rcases h with h | ⟨h, hx⟩
  · exact .inl (heq ▸ h)
  refine .inr ⟨h.trans heq, ?_⟩
  rcases htaunt with hlt | ⟨hsame, hthreat⟩
  · rcases hx with hx | ⟨hx, -⟩
    · exact .inl (hx.trans hlt)
    · exact .inl (hx ▸ hlt)
  rcases hx with hx | ⟨hx, hlt⟩
  · exact .inl (hsame ▸ hx)
  · exact .inr ⟨hx.trans hsame, lt_of_lt_of_le hlt hthreat⟩

theorem getThreat_nonneg (ref : ThreatReference fmt) : 0 ≤ ref.getThreat := le_max_right _ _

/-- 130% is not less than 110%, however it is rounded. -/
theorem weights_le (ref : ThreatReference fmt) : ref.getThreat * .ofRat (11 / 10) ≤ ref.getThreat * .ofRat (13 / 10) := by
  have hweight : (Fl.ofRat (11 / 10) : Fl fmt) ≤ .ofRat (13 / 10) := Fl.ofRat_mono (by norm_num)
  exact Fl.ofRat_mono (mul_le_mul_of_nonneg_left hweight (getThreat_nonneg ref))

/-- For a reference that stands no lower, overtaking is breaking the 130%, or the 110% in melee range. -/
theorem overtakes_iff {old ref : ThreatReference P.fmt}
    (hle : old.position ≤ ref.position) : overtakes env owner old ref = true ↔
      compareReferencesLT old ref (.ofRat (13 / 10)) = true ∨
        compareReferencesLT old ref (.ofRat (11 / 10)) = true ∧ env.isWithinMeleeRange owner ref.victim = true := by
  simp only [overtakes, Bool.or_eq_true, Bool.and_eq_true, decide_eq_true_eq, compareReferencesLT_iff]
  rcases position_le_iff.1 hle with hlt | ⟨heq, htaunt⟩
  · simp [hlt]
  have heq' := toNat_inj heq
  rcases htaunt with hlt | ⟨hsame, -⟩
  · simp [heq', hlt]
  · simp [heq', hsame]

theorem breaks_of_overtakes {old ref : ThreatReference P.fmt}
    (hle : old.position ≤ ref.position) (h : overtakes env owner old ref = true) :
    compareReferencesLT old ref (.ofRat (11 / 10)) = true := by
  rcases (overtakes_iff hle).1 h with h | h
  · rw [compareReferencesLT_iff] at h ⊢
    exact h.imp_right fun ⟨honline, h⟩ => ⟨honline, h.imp_right fun ⟨htaunt, h⟩ =>
      ⟨htaunt, lt_of_le_of_lt (weights_le old) h⟩⟩
  · exact h.1

end Weight

/-! ## The walk down the list -/

theorem position_le_of_compare {x y : ThreatId} {rx ry : ThreatReference P.fmt} (hx : s.refs x = some rx)
    (hy : s.refs y = some ry) (h : compareThreat s x y = false) : ry.position ≤ rx.position := by
  rw [← Bool.not_eq_true, compareThreat_iff, not_lt, posOf, posOf, hx, hy] at h
  exact WithBot.coe_le_coe.1 h

variable {o : ThreatId} {old : ThreatReference P.fmt} {l : List ThreatId}

/-- What stands before the old victim in a sorted list stands no lower. -/
theorem position_le_of_before (hold : s.refs o = some old) (hs : l.Pairwise fun a b => compareThreat s a b = false)
    (ho : o ∈ l) {x : ThreatId} {rx : ThreatReference P.fmt} (hx : x ∈ l.takeWhile (· ≠ o)) (hrx : s.refs x = some rx) :
    old.position ≤ rx.position := by
  refine position_le_of_compare hrx hold ?_
  rw [← List.takeWhile_append_dropWhile (p := (· ≠ o)) (l := l)] at hs
  refine (List.pairwise_append.1 hs).2.2 x hx o ?_
  rw [← List.takeWhile_append_dropWhile (p := (· ≠ o)) (l := l), List.mem_append] at ho
  exact ho.resolve_left fun h => by simpa using List.all_eq_true.1 List.all_takeWhile o h

/-- Where the first of a sorted list does not break the 110%, nothing before the old victim overtakes it. -/
theorem find?_overtakes_none (hold : s.refs o = some old) {next : ThreatId} {ref : ThreatReference P.fmt}
    (href : s.refs next = some ref) (hs : (next :: l).Pairwise fun a b => compareThreat s a b = false)
    (ho : o ∈ next :: l) (hne : next ≠ o) (hbreak : compareReferencesLT old ref (.ofRat (11 / 10)) = false) :
    ((next :: l).takeWhile (· ≠ o)).find? (refOvertakes env s owner o) = none := by
  refine List.find?_eq_none.2 fun x hx => ?_
  unfold refOvertakes
  rw [hold]
  cases hrx : s.refs x with
  | none => exact Bool.false_ne_true
  | some rx =>
    intro hover
    have hle := position_le_of_before hold hs ho hx hrx
    have hx' : x ∈ next :: l := (List.takeWhile_sublist _).subset hx
    have htop : rx.position ≤ ref.position := by
      rcases List.mem_cons.1 hx' with rfl | hx'
      · rw [href] at hrx; cases hrx; exact le_refl _
      · exact position_le_of_compare href hrx ((List.pairwise_cons.1 hs).1 x hx')
    have := compareReferencesLT_mono htop (breaks_of_overtakes hle hover)
    rw [hbreak] at this
    cases this

/-- The walk picks the first that overtakes, where nothing breaks the 130%. -/
theorem nextMeleeTarget_eq (hold : s.refs o = some old) : ∀ {l : List ThreatId},
    (l.Pairwise fun a b => compareThreat s a b = false) → o ∈ l →
    (∀ x ∈ l, ∃ rx, s.refs x = some rx ∧ compareReferencesLT old rx (.ofRat (13 / 10)) = false) →
    nextMeleeTarget env s owner o old l =
      some (((l.takeWhile (· ≠ o)).find? (refOvertakes env s owner o)).getD o)
  | [], _, ho, _ => by cases ho
  | next :: l, hs, ho, hlow => by
    unfold nextMeleeTarget
    by_cases hne : next = o
    · rw [if_pos hne, List.takeWhile_cons_of_neg (by simpa using hne)]
      exact congrArg some hne
    rw [if_neg hne]
    obtain ⟨ref, href, hlow'⟩ := hlow next List.mem_cons_self
    simp only [href, Option.bind_eq_bind, Option.bind_some]
    have hmem : next ∈ (next :: l).takeWhile (· ≠ o) := by
      rw [List.takeWhile_cons_of_pos (by simpa using hne)]
      exact List.mem_cons_self
    have hle := position_le_of_before hold hs ho hmem href
    have hover : refOvertakes env s owner o next = true ↔ compareReferencesLT old ref (.ofRat (11 / 10)) = true ∧
        env.isWithinMeleeRange owner ref.victim = true := by
      rw [refOvertakes, hold, href, overtakes_iff hle, hlow']
      exact or_iff_right Bool.false_ne_true
    cases hbreak : compareReferencesLT old ref (.ofRat (11 / 10)) with
    | false =>
      rw [find?_overtakes_none hold href hs ho hne hbreak]
      rfl
    | true =>
      rw [List.takeWhile_cons_of_pos (by simpa using hne)]
      cases hmelee : env.isWithinMeleeRange owner ref.victim with
      | true =>
        rw [List.find?_cons_of_pos (hover.2 ⟨hbreak, hmelee⟩)]
        rfl
      | false =>
        rw [List.find?_cons_of_neg fun h => by rw [hmelee] at hover; exact Bool.false_ne_true (hover.1 h).2]
        have hrest : o ∈ l := (List.mem_cons.1 ho).resolve_left (Ne.symm hne)
        exact nextMeleeTarget_eq hold (List.pairwise_cons.1 hs).2 hrest fun x hx => hlow x (List.mem_cons_of_mem _ hx)

/-- An element that is passed over may as well not be there. -/
theorem find?_takeWhile_erase {p q : ThreatId → Bool} {a : ThreatId} (hp : p a = false) (hq : q a = true) :
    ∀ l : List ThreatId, ((l.erase a).takeWhile q).find? p = (l.takeWhile q).find? p
  | [] => rfl
  | x :: l => by
    by_cases hx : x = a
    · subst hx
      rw [List.erase_cons_head, List.takeWhile_cons_of_pos hq, List.find?_cons_of_neg (by rw [hp]; exact Bool.false_ne_true)]
    rw [List.erase_cons_tail (by simpa using hx)]
    simp only [List.takeWhile_cons]
    cases q x with
    | false => rfl
    | true =>
      simp only [if_true, List.find?_cons]
      cases p x with
      | true => rfl
      | false => exact find?_takeWhile_erase hp hq l

/-! ## The selection -/

theorem filter_notOffline (x : Option ThreatId) :
    x.filter (fun t => (s.refs t).any (!·.isOffline)) = x.filter (available s) := by
  cases x with
  | none => rfl
  | some t =>
    have hsame : (s.refs t).any (!·.isOffline) = available s t := by
      unfold available
      cases s.refs t with
      | none => rfl
      | some ref =>
        simp only [Option.any_some, ThreatReference.isOffline, ThreatReference.isAvailable]
        rw [← decide_not, decide_eq_decide, not_le]
    rw [Option.filter_some, Option.filter_some, hsame]

/-- The order that begins at the top. -/
theorem Sorted.of_top {top : ThreatId}
    (hord : P.heap.HeapOrder (compareThreat s) (s.mgr owner).sortedThreatList)
    (htop : P.heap.top (s.mgr owner).sortedThreatList = some top) :
    Sorted s owner (top :: (P.heap.ordered (compareThreat s) (s.mgr owner).sortedThreatList).erase top) := by
  have hperm := P.heap.ordered_perm (compareThreat s) (s.mgr owner).sortedThreatList
  have hmem := hperm.mem_iff.2 (P.heap.top_mem _ _ htop)
  refine ⟨(List.perm_cons_erase hmem).symm.trans hperm, List.pairwise_cons.2 ⟨fun x hx => ?_, ?_⟩, htop.symm, fun h => ?_⟩
  · exact P.heap.top_max _ _ _ (strictWeak_compareThreat s) hord htop x (hperm.mem_iff.1 (List.mem_of_mem_erase hx))
  · exact (P.heap.ordered_sorted _ _ (strictWeak_compareThreat s) hord).sublist List.erase_sublist
  · cases hl : P.heap.ordered (compareThreat s) (s.mgr owner).sortedThreatList with
    | nil => rw [hl] at hmem; cases hmem
    | cons x l =>
      rw [hl] at h
      obtain rfl : x = top := by simpa using h
      rw [List.erase_cons_head]

/-- The selection, once the online states are up to date. -/
theorem selectVictim_eq (hi : ThreatInv s) (hord : P.heap.HeapOrder (compareThreat s) (s.mgr owner).sortedThreatList)
    (hne : P.heap.elems (s.mgr owner).sortedThreatList ≠ []) :
    ∃ l, Sorted s owner l ∧ selectVictim env s owner = some (specifiedVictim env s owner l) := by
  cases htop : P.heap.top (s.mgr owner).sortedThreatList with
  | none => exact absurd (P.heap.top_eq_none _ htop) hne
  | some top =>
  have hl := Sorted.of_top hord htop
  obtain ⟨ref, href, -⟩ := (hi.heap owner top).1 (P.heap.top_mem _ _ htop)
  refine ⟨_, hl, ?_⟩
  simp only [selectVictim, specifiedVictim, filter_notOffline, List.head?_cons]
  rw [show (fun f => (s.refs f).any (·.isAvailable)) = available s from rfl]
  cases (s.mgr owner).fixateRef.filter (available s) with
  | some f => rfl
  | none =>
  have hav : available s top = ref.isAvailable := by rw [available, href]; rfl
  simp only [htop, href, Option.bind_eq_bind, Option.bind_some, Option.filter_some, hav]
  cases ref.isAvailable with
  | false => rfl
  | true =>
  cases hcur : (s.mgr owner).currentVictimRef.filter (available s) with
  | none => rfl
  | some o =>
  obtain ⟨old, hold, hown⟩ := hi.current owner o (Option.filter_eq_some_iff.1 hcur).1
  have ho := hl.perm.mem_iff.2 ((hi.heap owner o).2 ⟨old, hold, hown⟩)
  simp only [Bool.not_true, Bool.false_eq_true, if_false, if_true]
  by_cases heq : top = o
  · rw [if_pos heq, List.takeWhile_cons_of_neg (by simpa using heq)]
    exact congrArg (some ∘ some) heq
  rw [if_neg heq, hold, Option.bind_some]
  have hmem : top ∈ (top :: (P.heap.ordered (compareThreat s) (s.mgr owner).sortedThreatList).erase top).takeWhile (· ≠ o) := by
    rw [List.takeWhile_cons_of_pos (by simpa using heq)]
    exact List.mem_cons_self
  have hle := position_le_of_before hold hl.sorted ho hmem href
  have hover : refOvertakes env s owner o top = overtakes env owner old ref := by rw [refOvertakes, hold, href]
  cases hbreak : compareReferencesLT old ref (.ofRat (11 / 10)) with
  | false =>
    rw [find?_overtakes_none hold href hl.sorted ho heq hbreak]
    rfl
  | true =>
  rw [List.takeWhile_cons_of_pos (by simpa using heq)]
  cases hclear : compareReferencesLT old ref (.ofRat (13 / 10)) with
  | true =>
    rw [List.find?_cons_of_pos (hover.trans ((overtakes_iff hle).2 (.inl hclear)))]
    rfl
  | false =>
  cases hmelee : env.isWithinMeleeRange owner ref.victim with
  | true =>
    rw [List.find?_cons_of_pos (hover.trans ((overtakes_iff hle).2 (.inr ⟨hbreak, hmelee⟩)))]
    rfl
  | false =>
  have hnot : refOvertakes env s owner o top = false := by
    rw [hover, ← Bool.not_eq_true, overtakes_iff hle, hclear, hmelee]
    exact not_or.2 ⟨Bool.false_ne_true, fun h => Bool.false_ne_true h.2⟩
  -- the top breaks no 130%, so nothing does, and the walk passes it over
  have hlow : ∀ x ∈ P.heap.ordered (compareThreat s) (s.mgr owner).sortedThreatList,
      ∃ rx, s.refs x = some rx ∧ compareReferencesLT old rx (.ofRat (13 / 10)) = false := fun x hx => by
    have hx := (P.heap.ordered_perm _ _).mem_iff.1 hx
    obtain ⟨rx, hrx, -⟩ := (hi.heap owner x).1 hx
    refine ⟨rx, hrx, ?_⟩
    rw [← Bool.not_eq_true]
    intro hx'
    have htop' := position_le_of_compare href hrx
      (P.heap.top_max _ _ _ (strictWeak_compareThreat s) hord htop x hx)
    rw [compareReferencesLT_mono htop' hx'] at hclear
    cases hclear
  have hwalk := @nextMeleeTarget_eq _ env _ owner _ _ hold _
    (P.heap.ordered_sorted _ _ (strictWeak_compareThreat s) hord)
    ((P.heap.ordered_perm _ _).mem_iff.2 ((hi.heap owner o).2 ⟨old, hold, hown⟩)) hlow
  rw [List.find?_cons_of_neg (by rw [hnot]; exact Bool.false_ne_true),
    find?_takeWhile_erase hnot (by simpa using heq)]
  simp only [Bool.not_true, Bool.false_eq_true, if_false, hwalk, Option.map_some]

theorem available_of_specified {t : ThreatId} (hs : Sorted s owner l) (hi : ThreatInv s)
    (h : specifiedVictim env s owner l = some t) : available s t = true := by
  unfold specifiedVictim at h
  cases hfix : (s.mgr owner).fixateRef.filter (available s) with
  | some f =>
    rw [hfix] at h
    cases h; exact (Option.filter_eq_some_iff.1 hfix).2
  | none =>
  cases htop : l.head?.filter (available s) with
  | none =>
    rw [hfix, htop] at h
    cases h
  | some top =>
  cases hcur : (s.mgr owner).currentVictimRef.filter (available s) with
  | none =>
    rw [hfix, htop, hcur] at h
    cases h; exact (Option.filter_eq_some_iff.1 htop).2
  | some old =>
    rw [hfix, htop, hcur] at h
    obtain ⟨hcur, hav⟩ := Option.filter_eq_some_iff.1 hcur
    cases h
    cases hfind : (l.takeWhile (· ≠ old)).find? (refOvertakes env s owner old) with
    | none => exact hav
    | some x =>
      obtain ⟨oldRef, hold, hown⟩ := hi.current owner old hcur
      have ho := hs.perm.mem_iff.2 ((hi.heap owner old).2 ⟨oldRef, hold, hown⟩)
      have hx := List.mem_of_find?_eq_some hfind
      obtain ⟨rx, hrx, -⟩ := (hi.heap owner x).1 (hs.perm.mem_iff.1 ((List.takeWhile_sublist _).subset hx))
      have hle := position_le_of_before hold hs.sorted ho hx hrx
      have honline : oldRef.online.toNat ≤ rx.online.toNat := by
        rcases position_le_iff.1 hle with h | h
        · exact h.le
        · exact h.1.le
      rw [available, hold] at hav
      rw [Option.getD_some, available, hrx]
      simp only [Option.any_some, ThreatReference.isAvailable, decide_eq_true_eq] at hav ⊢
      exact lt_of_lt_of_le hav honline

theorem updateAllOffline_order {entries : List (ObjectGuid × ThreatId)}
    (h : entries.foldlM (fun s e => updateOffline env s e.2) s = some s') (hi : ThreatInv s)
    (hord : P.heap.HeapOrder (compareThreat s) (s.mgr owner).sortedThreatList) :
    ThreatInv s' ∧ P.heap.HeapOrder (compareThreat s') (s'.mgr owner).sortedThreatList := by
  refine foldlM_invariant (fun s => ThreatInv s ∧ P.heap.HeapOrder (compareThreat s) (s.mgr owner).sortedThreatList)
    (fun e a b ha hab => ?_) ⟨hi, hord⟩ h
  refine ⟨(SamePlaces.updateOffline hab).inv ha.1, ?_⟩
  obtain rfl | ⟨ref, state, up, ht, hn, hd⟩ := updateOffline_moves hab
  · exact ha.2
  · exact heapOrder_setRefNotify ha.1 ht hn rfl hd ha.2

/-- **`ReselectVictim` returns the specified victim,** which is available, and its assertion does not fail: for every
threat list in heap order, whatever its previous victim. -/
theorem reselectVictim_specified (env : Env P) (hi : ThreatInv s)
    (hord : P.heap.HeapOrder (compareThreat s) (s.mgr owner).sortedThreatList) :
    ∃ s' victim l, reselectVictim env s owner = some (s', victim) ∧ SamePlaces s s' ∧ Sorted s' owner l ∧
      victim = specifiedVictim env s' owner l ∧ ∀ t, victim = some t → available s' t = true := by
  unfold reselectVictim
  by_cases hempty : P.heap.elems (s.mgr owner).sortedThreatList = []
  · have hnone : P.heap.top (s.mgr owner).sortedThreatList = none := by
      cases htop : P.heap.top (s.mgr owner).sortedThreatList with
      | none => rfl
      | some t => have := P.heap.top_mem _ _ htop; rw [hempty] at this; cases this
    have hordered : P.heap.ordered (compareThreat s) (s.mgr owner).sortedThreatList = [] :=
      List.perm_nil.1 (hempty ▸ P.heap.ordered_perm (compareThreat s) (s.mgr owner).sortedThreatList)
    have hfix : (s.mgr owner).fixateRef = none := by
      cases hf : (s.mgr owner).fixateRef with
      | none => rfl
      | some f =>
        have := (hi.heap owner f).2 (hi.fixate owner f hf)
        rw [hempty] at this
        cases this
    refine ⟨s, none, [], by simp [hempty], .refl s, ⟨by rw [hempty], .nil, hnone.symm, fun _ => hordered.symm⟩, ?_, nofun⟩
    simp only [specifiedVictim, hfix, List.head?_nil, Option.filter_none]
  · have hlive : ∀ e ∈ (s.mgr owner).myThreatListEntries.entries, (s.refs e.2).isSome := by
      rintro ⟨v, t⟩ he
      obtain ⟨ref, hr, -⟩ := (hi.list owner v t).1 (UMap.mem_entries.1 he)
      simp [hr]
    obtain ⟨s₁, h₁⟩ := (@updateAllOffline_succeeds _ env) hlive
    have hsame : SamePlaces s s₁ := SamePlaces.foldlM (fun _ _ _ => SamePlaces.updateOffline) h₁
    obtain ⟨hi₁, hord₁⟩ := updateAllOffline_order h₁ hi hord
    have hne : P.heap.elems (s₁.mgr owner).sortedThreatList ≠ [] := fun h =>
      hempty (List.perm_nil.1 (h ▸ (hsame.heap owner).symm))
    obtain ⟨l, hl, hsel⟩ := @selectVictim_eq _ env _ _ hi₁ hord₁ hne
    refine ⟨s₁, _, l, ?_, hsame, hl, rfl, fun t ht => available_of_specified hl hi₁ ht⟩
    simp [hempty, h₁, hsel]

theorem reselectVictim_specified_fadeTogether : ∃ w : World .plain,
    runSteps (allowed step TellsHeaps) fadeTogether (World.init .plain fun u => u < 5) = some w ∧
    ∃ s' victim l, reselectVictim (Env.openField .plain) w.threat 1 = some (s', victim) ∧ Sorted s' 1 l ∧
      victim = specifiedVictim (Env.openField .plain) s' 1 l := by
  have h : (runSteps (allowed step TellsHeaps) fadeTogether (World.init .plain fun u => u < 5)).isSome = true := by
    decide +kernel
  obtain ⟨w, hw⟩ := Option.isSome_iff_exists.1 h
  have hi : HeapInv w.threat := (Reaches.of_runSteps hw).of_allowed.invariant (fun w => HeapInv w.threat)
    (fun _ _ _ hi ht hs => step_heapInv hi ht hs) (heapInv_init _)
  obtain ⟨s', victim, l, hsel, -, hl, hv, -⟩ := reselectVictim_specified (Env.openField .plain) hi.places (hi.order 1)
  exact ⟨w, hw, s', victim, l, hsel, hl, hv⟩

end AtlasWow.Combat
