/-
`Player::DestroyItemCount` takes so many units of one item from a player, slot
after slot: from the backpack, the keyring and the currency tokens, the
equipped bags, the equipment and the bags themselves, the bank, and the bags
in the bank. Each slot but the last is emptied.

A bag that goes takes along what is in it. Of an equipped stack that may not
be unequipped, the code takes units all the same if the stack is larger than
what is left to take; `destroyItemCount_spec` leaves that out.
-/
import AtlasWow.Entities.Storage
import Mathlib.Algebra.GroupWithZero.Nat
import Mathlib.Data.List.Nodup
import Mathlib.Data.List.Range

namespace AtlasWow.Storage

/-- Slots of the player. -/
def ownPlaces (start stop : Nat) : List Pos := (List.range' start (stop - start)).map (⟨INVENTORY_SLOT_BAG_0, ·⟩)

/-- What the loops do with one slot: an error is the player with which the function returns there. -/
def destroyRound (itemEntry count : Nat) (unequips : Player → Pos → Bool) (s : Player × Nat) (pos : Pos) :
    Except Player (Player × Nat) :=
  match s.1.getItemByPos pos with
  | none => .ok s
  | some item =>
    if item.getEntry = itemEntry && !item.inTrade then
      if (item.count + s.2) % 2 ^ 32 ≤ count then
        if unequips s.1 pos then
          let remcount := (s.2 + item.count) % 2 ^ 32
          if count ≤ remcount then .error (s.1.destroyItem pos) else .ok (s.1.destroyItem pos, remcount)
        else .ok s
      else .error (s.1.setCount pos ((item.count + 2 ^ 32 - count + s.2) % 2 ^ 32))
    else .ok s

namespace Player

/-- The slots of the bags in some slots. -/
def bagPlaces (p : Player) (start stop : Nat) : List Pos :=
  (List.range' start (stop - start)).flatMap fun i =>
    match p.getBagByPos i with
    | none => []
    | some bag => (List.range bag.getBagSize).map (⟨i, ·⟩)

/-- The check that is made of equipped items. -/
def unequips (unequipCheck : Bool) (p : Player) (pos : Pos) : Bool := !unequipCheck || p.canUnequipItem pos = .ok

def destroyItemCount (p : Player) (itemEntry count : Nat) (unequipCheck : Bool) : Player :=
  let always : Player → Pos → Bool := fun _ _ => true
  let result : Except Player (Player × Nat) := do
    let s ← (ownPlaces INVENTORY_SLOT_ITEM_START INVENTORY_SLOT_ITEM_END).foldlM (destroyRound itemEntry count always) (p, 0)
    let s ← (ownPlaces KEYRING_SLOT_START CURRENCYTOKEN_SLOT_END).foldlM (destroyRound itemEntry count always) s
    let s ← (s.1.bagPlaces INVENTORY_SLOT_BAG_START INVENTORY_SLOT_BAG_END).foldlM (destroyRound itemEntry count always) s
    let s ← (ownPlaces EQUIPMENT_SLOT_START INVENTORY_SLOT_BAG_END).foldlM
      (destroyRound itemEntry count (unequips unequipCheck)) s
    let s ← (ownPlaces BANK_SLOT_ITEM_START BANK_SLOT_ITEM_END).foldlM (destroyRound itemEntry count always) s
    (s.1.bagPlaces BANK_SLOT_BAG_START BANK_SLOT_BAG_END).foldlM (destroyRound itemEntry count always) s
  match result with
  | .error p => p
  | .ok (p, _) => p

/-! ## What may be taken -/

/-- All slots, in the order in which units are taken from them. -/
def places (p : Player) : List Pos :=
  ownPlaces INVENTORY_SLOT_ITEM_START INVENTORY_SLOT_ITEM_END ++ (ownPlaces KEYRING_SLOT_START CURRENCYTOKEN_SLOT_END ++
    (p.bagPlaces INVENTORY_SLOT_BAG_START INVENTORY_SLOT_BAG_END ++ (ownPlaces EQUIPMENT_SLOT_START INVENTORY_SLOT_BAG_END ++
      (ownPlaces BANK_SLOT_ITEM_START BANK_SLOT_ITEM_END ++ p.bagPlaces BANK_SLOT_BAG_START BANK_SLOT_BAG_END))))

def units (p : Player) (pos : Pos) : Nat := (p.getItemByPos pos).elim 0 (·.count)

/-- A stack of this entry that is not in a trade. -/
def isOf (itemEntry : Nat) (item : Item) : Bool := item.getEntry = itemEntry && !item.inTrade

def holds (p : Player) (itemEntry : Nat) (pos : Pos) : Bool := (p.getItemByPos pos).any (isOf itemEntry)

/-- The bags without the stacks that are taken from them before the bags themselves come. -/
def without (p : Player) (itemEntry : Nat) : Player :=
  { p with bagItems := fun bag slot => (p.bagItems bag slot).filter fun item => !isOf itemEntry item }

/-- The stack in a slot may be taken: if there is a check, an equipped one only where it may be unequipped. -/
def removable (p : Player) (itemEntry : Nat) (unequipCheck : Bool) (pos : Pos) : Bool :=
  p.holds itemEntry pos && (!isEquipmentPos pos || unequips unequipCheck (p.without itemEntry) pos)

/-- All units in some slots. -/
def total (p : Player) (l : List Pos) : Nat := (l.map p.units).sum

/-- A position is one of those, or in a bag at one of those. -/
def Within (gone : List Pos) (pos : Pos) : Prop := ∃ q ∈ gone, pos = q ∨ pos.Inside q

/-- Everything at some positions is gone, and nothing else. -/
structure Gone (p p' : Player) (gone : List Pos) : Prop where
  state : SameState p p'
  emptied : ∀ pos, Within gone pos → p'.getItemByPos pos = none
  kept : ∀ pos, ¬Within gone pos → p'.getItemByPos pos = p.getItemByPos pos

/-- So many units have been taken from some places: they all come off from the first ones that may be taken, and the last of
these may keep some. -/
structure Taken (p p' : Player) (count : Nat) (removable : List Pos) : Prop where
  taken : ∃ gone rest cut, removable = gone ++ rest ∧ p.total gone + cut = min count (p.total removable) ∧
    (∀ pos, rest.head? = some pos → cut = 0 ∨ cut < p.units pos) ∧
    (∀ pos, Within gone pos → p'.getItemByPos pos = none) ∧
    ∀ pos, ¬Within gone pos → p'.getItemByPos pos =
      if rest.head? = some pos then (p.getItemByPos pos).map fun item => { item with count := item.count - cut }
      else p.getItemByPos pos

variable {p s : Player} {itemEntry count : Nat} {unequipCheck : Bool} {pos : Pos} {item : Item} {gone : List Pos}

theorem total_append (p : Player) (l l' : List Pos) : p.total (l ++ l') = p.total l + p.total l' := by
  rw [total, total, total, List.map_append, List.sum_append]

theorem total_cons (p : Player) (pos : Pos) (l : List Pos) : p.total (pos :: l) = p.units pos + p.total l := rfl

theorem units_eq (h : p.getItemByPos pos = some item) : p.units pos = item.count := by
  rw [units, h]
  rfl

theorem holds_eq (h : p.getItemByPos pos = some item) : p.holds itemEntry pos = isOf itemEntry item := by
  rw [holds, h]
  rfl

theorem within_snoc {q : Pos} : Within (gone ++ [q]) pos ↔ Within gone pos ∨ pos = q ∨ pos.Inside q := by
  simp only [Within, List.mem_append, List.mem_singleton, or_and_right, exists_or, exists_eq_left]

theorem Gone.destroyItem (h : Gone p s gone) (hitem : s.getItemByPos pos = some item) :
    Gone p (s.destroyItem pos) (gone ++ [pos]) := by
  obtain ⟨hstate, hitems⟩ := destroyItem_spec hitem
  refine ⟨h.state.trans hstate, fun pos' hpos' => ?_, fun pos' hpos' => ?_⟩
  · rw [hitems]
    split
    next => rfl
    next hother => exact h.emptied pos' ((within_snoc.1 hpos').resolve_right hother)
  · rw [within_snoc, not_or] at hpos'
    rw [hitems, if_neg hpos'.2, h.kept pos' hpos'.1]

/-- Where all of some places that may be taken from are gone, that is what was taken. -/
theorem Gone.taken (h : Gone p s gone) {rest : List Pos} (hcount : p.total gone = min count (p.total (gone ++ rest))) :
    Taken p s count (gone ++ rest) := by
  refine ⟨gone, rest, 0, rfl, hcount, fun _ _ => .inl rfl, h.emptied, fun pos hpos => ?_⟩
  rw [h.kept pos hpos]
  split
  next =>
    cases p.getItemByPos pos with
    | none => rfl
    | some item => rfl
  next => rfl

theorem getItemByPos_without (p : Player) (itemEntry : Nat) (pos : Pos) : (p.without itemEntry).getItemByPos pos =
    if pos.bag = INVENTORY_SLOT_BAG_0 then p.getItemByPos pos
    else (p.getItemByPos pos).filter fun item => !isOf itemEntry item := by
  obtain ⟨bag, slot⟩ := pos
  simp only
  split
  next hbag =>
    subst hbag
    by_cases hown : isOwnSlot slot = true
    · rw [getItemByPos_own hown, getItemByPos_own hown]
      rfl
    · rw [getItemByPos_unowned hown, getItemByPos_unowned hown]
  next hbag =>
  rw [getItemByPos_bagged hbag, getItemByPos_bagged hbag]
  have hsame : (p.without itemEntry).getBagByPos bag = p.getBagByPos bag := rfl
  rw [hsame]
  cases p.getBagByPos bag with
  | none => rfl
  | some b =>
    simp only
    split
    next => rfl
    next => rfl

/-! ## The order of the places -/

/-- No place is in a bag at an earlier one, and all that is in an equipped bag is at one of the places. -/
structure Ordered (p : Player) (l : List Pos) : Prop where
  apart : l.Pairwise fun q q' => q' ≠ q ∧ ¬q'.Inside q
  contents : ∀ q ∈ l, isEquipmentPos q = true → ∀ j item, p.getItemByPos ⟨q.slot, j⟩ = some item → ⟨q.slot, j⟩ ∈ l

variable {pre post : List Pos} {f : Pos → Bool} {p' : Player} {pos' : Pos}

/-- A place is not reached before it comes. -/
theorem Ordered.not_within (h : Ordered p (pre ++ pos :: post)) (hgone : gone ⊆ pre) : ¬Within gone pos := by
  rintro ⟨q, hq, hpos⟩
  obtain ⟨hne, hinside⟩ := (List.pairwise_append.1 h.apart).2.2 q (hgone hq) pos List.mem_cons_self
  exact hpos.elim hne hinside

/-- What is in an equipped bag comes before the bag. -/
theorem Ordered.contents_before (h : Ordered p (pre ++ pos :: post)) (hequip : isEquipmentPos pos = true) {j : Nat}
    (hitem : p.getItemByPos ⟨pos.slot, j⟩ = some item) : ⟨pos.slot, j⟩ ∈ pre := by
  have hbag := (isEquipmentPos_iff.1 hequip).1
  rcases List.mem_append.1 (h.contents pos (by simp) hequip j item hitem) with hpre | hpost
  · exact hpre
  rcases List.mem_cons.1 hpost with he | hpost
  · have hslot : isEquipmentPos ⟨pos.slot, j⟩ = true := by rw [he, hequip]
    have hfull : pos.slot = INVENTORY_SLOT_BAG_0 := (isEquipmentPos_iff.1 hslot).1
    have hlt := (isEquipmentPos_iff.1 hequip).2
    rw [hfull] at hlt
    exact absurd hlt (by decide)
  · have hlater := (List.pairwise_cons.1 (List.pairwise_append.1 h.apart).2.1).1 _ hpost
    exact absurd ⟨hbag, rfl⟩ hlater.2

/-- Where an equipped stack is reached, the check is that of the bags without what has been taken from them. -/
theorem unequips_eq (h : Ordered p (pre ++ pos :: post)) (hgone : Gone p s (pre.filter (p.removable itemEntry unequipCheck)))
    (hequip : isEquipmentPos pos = true) : unequips unequipCheck s pos = unequips unequipCheck (p.without itemEntry) pos := by
  have hbag := (isEquipmentPos_iff.1 hequip).1
  have hsub := List.filter_sublist (p := p.removable itemEntry unequipCheck) (l := pre) |>.subset
  have hslot : pos.slot ≠ INVENTORY_SLOT_BAG_0 := fun he => by
    have hlt := (isEquipmentPos_iff.1 hequip).2
    rw [he] at hlt
    exact absurd hlt (by decide)
  have hstate : SameState (p.without itemEntry) s := hgone.state
  rw [unequips, unequips, canUnequipItem_congr hstate]
  · rw [hgone.kept pos (h.not_within hsub), getItemByPos_without, if_pos hbag]
  · intro j
    rw [getItemByPos_without, if_neg hslot]
    by_cases hwithin : Within (pre.filter (p.removable itemEntry unequipCheck)) ⟨pos.slot, j⟩
    · rw [hgone.emptied _ hwithin]
      obtain ⟨q, hq, hpos⟩ := hwithin
      have hq' := List.mem_filter.1 hq
      rcases hpos with rfl | hin
      · have hheld := (Bool.and_eq_true _ _ ▸ hq'.2 : _ ∧ _).1
        rw [holds, Option.any_eq_true] at hheld
        obtain ⟨item, hitem, hof⟩ := hheld
        rw [hitem, Option.filter_some, hof]
        rfl
      have hsame : q = pos := by
        obtain ⟨bag, slot⟩ := pos
        obtain ⟨bag', slot'⟩ := q
        simp only [Pos.Inside] at hin hbag
        rw [hin.1, hbag, hin.2]
      exact absurd hsame.symm ((List.pairwise_append.1 h.apart).2.2 q hq'.1 pos List.mem_cons_self).1
    · rw [hgone.kept _ hwithin]
      cases hitem : p.getItemByPos ⟨pos.slot, j⟩ with
      | none => rfl
      | some item =>
        have hpre := h.contents_before hequip hitem
        have hnot : isOf itemEntry item = false := by
          rw [← Bool.not_eq_true]
          intro hof
          refine hwithin ⟨_, List.mem_filter.2 ⟨hpre, ?_⟩, .inl rfl⟩
          rw [removable, holds_eq hitem, hof, Bool.true_and, Bool.or_eq_true]
          refine .inl ?_
          rw [Bool.not_eq_true', Bool.eq_false_iff, Ne, isEquipmentPos_iff]
          exact fun hown => hslot hown.1
        rw [Option.filter_some, hnot]
        rfl

/-! ## The loops -/

/-- One check for all loops. -/
def check (unequipCheck : Bool) (p : Player) (pos : Pos) : Bool := !isEquipmentPos pos || unequips unequipCheck p pos

/-- The result of a loop, or of the function if it returned there. -/
def outcome : Except Player (Player × Nat) → Player
  | .error p => p
  | .ok (p, _) => p

/-- Some equipped stack that may not be unequipped is larger than what is left to take when it is reached; for such a stack
there is no check. -/
def Locked (p : Player) (itemEntry count : Nat) (unequipCheck : Bool) (l : List Pos) : Prop :=
  ∃ pre pos post, l = pre ++ pos :: post ∧ p.holds itemEntry pos = true ∧ p.removable itemEntry unequipCheck pos = false ∧
    p.total (pre.filter (p.removable itemEntry unequipCheck)) < count ∧
    count < p.total (pre.filter (p.removable itemEntry unequipCheck)) + p.units pos

/-- What has been taken when the loops have come to a slot. -/
structure Reached (p : Player) (itemEntry count : Nat) (unequipCheck : Bool) (pre : List Pos) (s : Player × Nat) : Prop where
  gone : Gone p s.1 (pre.filter (p.removable itemEntry unequipCheck))
  remcount : s.2 = p.total (pre.filter (p.removable itemEntry unequipCheck))
  left : s.2 < count ∨ pre.filter (p.removable itemEntry unequipCheck) = []

theorem filter_snoc_of_pos (h : f pos = true) (pre : List Pos) : (pre ++ [pos]).filter f = pre.filter f ++ [pos] := by
  rw [List.filter_append, List.filter_cons_of_pos h, List.filter_nil]

theorem filter_snoc_of_neg (h : ¬f pos = true) (pre : List Pos) : (pre ++ [pos]).filter f = pre.filter f := by
  rw [List.filter_append, List.filter_cons_of_neg h, List.filter_nil, List.append_nil]

variable {t : Player × Nat} {start stop : Nat} {l : List Pos}

theorem Reached.skip (h : Reached p itemEntry count unequipCheck pre t)
    (hpos : ¬p.removable itemEntry unequipCheck pos = true) : Reached p itemEntry count unequipCheck (pre ++ [pos]) t := by
  obtain ⟨hgone, hremcount, hleft⟩ := h
  rw [← filter_snoc_of_neg hpos] at hgone hremcount hleft
  exact ⟨hgone, hremcount, hleft⟩

theorem Reached.remcount_le (h : Reached p itemEntry count unequipCheck pre t) : t.2 ≤ count := by
  rcases h.left with hlt | hnil
  · exact hlt.le
  · rw [h.remcount, hnil]
    exact Nat.zero_le _

/-- A stack that is larger than what is left to take loses that, and the function returns. -/
theorem Reached.taken_cut (h : Reached p itemEntry count unequipCheck pre t)
    (hstate : SameState t.1 p') (hitem : p.getItemByPos pos = some item) (hlarge : ¬item.count + t.2 ≤ count)
    (hset : ∀ pos', p'.getItemByPos pos' =
      if pos' = pos then some { item with count := item.count - (count - t.2) } else t.1.getItemByPos pos')
    (hheld : p.holds itemEntry pos = true) (hlocked : ¬Locked p itemEntry count unequipCheck (pre ++ pos :: post))
    (hout : ¬Within (pre.filter (p.removable itemEntry unequipCheck)) pos) :
    Taken p p' count ((pre ++ pos :: post).filter (p.removable itemEntry unequipCheck)) := by
  have hle := h.remcount_le
  have hunits := units_eq hitem
  have hne : ∀ pos', Within (pre.filter (p.removable itemEntry unequipCheck)) pos' → pos' ≠ pos := fun pos' hin he => hout (he ▸ hin)
  by_cases hrem : p.removable itemEntry unequipCheck pos = true
  · rw [List.filter_append, List.filter_cons_of_pos hrem]
    refine ⟨_, _, count - t.2, rfl, ?_, fun pos' hpos' => ?_, fun pos' hin => ?_, fun pos' hnot => ?_⟩
    · rw [total_append, total_cons, ← h.remcount, hunits]
      omega
    · cases hpos'
      rw [hunits]
      omega
    · rw [hset, if_neg (hne pos' hin), h.gone.emptied pos' hin]
    · rw [hset, List.head?_cons]
      by_cases he : pos' = pos
      · rw [if_pos he, if_pos (congrArg some he.symm), he, hitem]
        rfl
      · rw [if_neg he, if_neg fun hsome => he (Option.some.inj hsome).symm, h.gone.kept pos' hnot]
  · -- only where nothing is to be taken at all
    have hnothing : count ≤ t.2 := by
      rw [← not_lt]
      intro hlt
      refine hlocked ⟨pre, pos, post, rfl, hheld, Bool.eq_false_iff.2 hrem, h.remcount ▸ hlt, ?_⟩
      rw [← h.remcount, hunits]
      omega
    have hnil := h.left.resolve_left (not_lt.2 hnothing)
    have hzero : t.2 = 0 := by
      rw [h.remcount, hnil]
      rfl
    have hsame : Gone p p' [] := by
      refine ⟨h.gone.state.trans hstate, fun pos' hin => ?_, fun pos' _ => ?_⟩
      · obtain ⟨q, hq, _⟩ := hin
        cases hq
      · have hnot : ¬Within (pre.filter (p.removable itemEntry unequipCheck)) pos' := by
          rw [hnil]
          rintro ⟨q, hq, _⟩
          cases hq
        rw [hset]
        split
        next he => rw [he, hitem, show item.count - (count - t.2) = item.count by omega]
        next => exact h.gone.kept pos' hnot
    rw [List.filter_append, hnil]
    refine hsame.taken ?_
    rw [show count = 0 by omega, Nat.zero_min]
    rfl

/-- One slot: either the loops go on to the next one, or the function returns with what it should have taken. -/
theorem destroyRound_spec (hordered : Ordered p (pre ++ pos :: post))
    (hsum : p.holds itemEntry pos = true → p.units pos + count < 2 ^ 32)
    (hlocked : ¬Locked p itemEntry count unequipCheck (pre ++ pos :: post)) (h : Reached p itemEntry count unequipCheck pre t) :
    (∃ t', destroyRound itemEntry count (check unequipCheck) t pos = .ok t' ∧
      Reached p itemEntry count unequipCheck (pre ++ [pos]) t') ∨
    ∃ p', destroyRound itemEntry count (check unequipCheck) t pos = .error p' ∧
      Taken p p' count ((pre ++ pos :: post).filter (p.removable itemEntry unequipCheck)) := by
  have hsub := List.filter_sublist (p := p.removable itemEntry unequipCheck) (l := pre) |>.subset
  have hkept := h.gone.kept pos (hordered.not_within hsub)
  rw [destroyRound, hkept]
  cases hitem : p.getItemByPos pos with
  | none =>
    refine .inl ⟨t, rfl, h.skip ?_⟩
    simp [removable, holds, hitem]
  | some item =>
    simp only
    by_cases hof : isOf itemEntry item = true
    · have hheld : p.holds itemEntry pos = true := by rw [holds_eq hitem, hof]
      have hle := h.remcount_le
      have hunits := units_eq hitem
      have hsmall := hsum hheld
      rw [hunits] at hsmall
      have hcheck : check unequipCheck t.1 pos = p.removable itemEntry unequipCheck pos := by
        rw [check, removable, hheld, Bool.true_and]
        cases hequip : isEquipmentPos pos with
        | false => rfl
        | true => rw [unequips_eq hordered h.gone hequip]
      have hof' : (decide (item.getEntry = itemEntry) && !item.inTrade) = true := hof
      have hitem' : t.1.getItemByPos pos = some item := hkept.trans hitem
      rw [if_pos hof', Nat.mod_eq_of_lt (by omega : item.count + t.2 < 2 ^ 32), hcheck]
      by_cases hfits : item.count + t.2 ≤ count
      · rw [if_pos hfits]
        by_cases hrem : p.removable itemEntry unequipCheck pos = true
        · rw [if_pos hrem, Nat.mod_eq_of_lt (by omega)]
          have hgone := h.gone.destroyItem hitem'
          have htotal : p.total (pre.filter (p.removable itemEntry unequipCheck) ++ [pos]) = t.2 + item.count := by
            rw [total_append, total_cons, ← h.remcount, hunits]
            rfl
          split
          next henough =>
            refine .inr ⟨_, rfl, ?_⟩
            rw [List.filter_append, List.filter_cons_of_pos hrem, List.append_cons]
            refine hgone.taken ?_
            rw [total_append _ _ (post.filter _), htotal]
            omega
          next hmore =>
          refine .inl ⟨_, rfl, ?_, ?_, ?_⟩
          · rw [filter_snoc_of_pos hrem]
            exact hgone
          · rw [filter_snoc_of_pos hrem, htotal]
          · exact .inl (not_le.1 hmore)
        · rw [if_neg hrem]
          exact .inl ⟨t, rfl, h.skip hrem⟩
      · rw [if_neg hfits]
        refine .inr ⟨_, rfl, ?_⟩
        have hnew : (item.count + 2 ^ 32 - count + t.2) % 2 ^ 32 = item.count - (count - t.2) := by omega
        have hset := getItemByPos_setCount hitem' ((item.count + 2 ^ 32 - count + t.2) % 2 ^ 32)
        rw [hnew] at hset ⊢
        exact h.taken_cut (sameState_setItem _ _ _) hitem hfits hset hheld hlocked (hordered.not_within hsub)
    · have hof' : ¬(decide (item.getEntry = itemEntry) && !item.inTrade) = true := hof
      rw [if_neg hof']
      refine .inl ⟨t, rfl, h.skip ?_⟩
      simp [removable, holds_eq hitem, hof]

/-- What a loop over the places comes to. -/
theorem loop_spec (hsum : ∀ pos ∈ pre ++ post, p.holds itemEntry pos = true → p.units pos + count < 2 ^ 32)
    (hlocked : ¬Locked p itemEntry count unequipCheck (pre ++ post)) (hordered : Ordered p (pre ++ post)) {t : Player × Nat}
    (h : Reached p itemEntry count unequipCheck pre t) :
    Taken p (outcome (post.foldlM (destroyRound itemEntry count (check unequipCheck)) t)) count
      ((pre ++ post).filter (p.removable itemEntry unequipCheck)) := by
  induction post generalizing pre t with
  | nil =>
    rw [List.append_nil] at hordered ⊢
    have hle := h.remcount_le
    have hall : Taken p t.1 count (pre.filter (p.removable itemEntry unequipCheck) ++ []) := by
      refine h.gone.taken ?_
      rw [List.append_nil, ← h.remcount, Nat.min_eq_right hle]
    rwa [List.append_nil] at hall
  | cons pos post ih =>
    rw [List.foldlM_cons]
    rcases destroyRound_spec hordered (hsum pos (by simp)) hlocked h with ⟨t', hround, h'⟩ | ⟨p', hround, htaken⟩
    · rw [hround]
      rw [List.append_cons] at hsum hlocked hordered ⊢
      exact ih hsum hlocked hordered h'
    · rw [hround]
      exact htaken

/-! ## The places -/

theorem mem_ownPlaces : pos ∈ ownPlaces start stop ↔
    pos.bag = INVENTORY_SLOT_BAG_0 ∧ start ≤ pos.slot ∧ pos.slot < stop := by
  obtain ⟨bag, slot⟩ := pos
  simp only [ownPlaces, List.mem_map, List.mem_range'_1, Pos.mk.injEq]
  constructor
  · rintro ⟨i, hi, hbag, rfl⟩
    exact ⟨hbag.symm, by omega, by omega⟩
  · rintro ⟨rfl, hstart, hstop⟩
    exact ⟨slot, by omega, rfl, rfl⟩

theorem mem_bagPlaces : pos ∈ p.bagPlaces start stop ↔
    (start ≤ pos.bag ∧ pos.bag < stop) ∧ ∃ bag, p.getBagByPos pos.bag = some bag ∧ pos.slot < bag.getBagSize := by
  obtain ⟨bag, slot⟩ := pos
  simp only [bagPlaces, List.mem_flatMap, List.mem_range'_1]
  constructor
  · rintro ⟨i, hi, hpos⟩
    split at hpos
    next => cases hpos
    next b hb =>
    obtain ⟨j, hj, he⟩ := List.mem_map.1 hpos
    cases he
    exact ⟨by omega, b, hb, List.mem_range.1 hj⟩
  · rintro ⟨hi, b, hb, hlt⟩
    refine ⟨bag, by omega, ?_⟩
    rw [hb]
    exact List.mem_map.2 ⟨slot, List.mem_range.2 hlt, rfl⟩

theorem nodup_ownPlaces (start stop : Nat) : (ownPlaces start stop).Nodup :=
  List.Nodup.map (fun _ _ h => congrArg Pos.slot h) List.nodup_range'

theorem nodup_bagPlaces (p : Player) (start stop : Nat) : (p.bagPlaces start stop).Nodup := by
  have hrange : (List.range' start (stop - start)).Nodup := List.nodup_range'
  rw [bagPlaces, List.nodup_flatMap]
  refine ⟨fun i _ => ?_, hrange.imp fun hne => ?_⟩
  · split
    next => exact List.nodup_nil
    next => exact List.Nodup.map (fun _ _ h => congrArg Pos.slot h) List.nodup_range
  · intro pos hi hj
    have hbag : ∀ i, (pos ∈ match p.getBagByPos i with
        | none => []
        | some bag => (List.range bag.getBagSize).map (Pos.mk i)) → pos.bag = i := by
      intro i hi
      split at hi
      next => cases hi
      next =>
      obtain ⟨_, _, rfl⟩ := List.mem_map.1 hi
      rfl
    exact hne ((hbag _ hi).symm.trans (hbag _ hj))

/-- Every place is one of the player's own slots, or in a bag. -/
theorem ordered_places (p : Player) : Ordered p p.places := by
  constructor
  · have hown : ∀ start stop, stop ≤ CURRENCYTOKEN_SLOT_END →
        (ownPlaces start stop).Pairwise fun q q' => q' ≠ q ∧ ¬q'.Inside q := by
      intro start stop hstop
      refine (nodup_ownPlaces start stop).imp_of_mem fun {q q'} hq hq' hne => ⟨Ne.symm hne, fun hin => ?_⟩
      rw [mem_ownPlaces] at hq hq'
      unfold CURRENCYTOKEN_SLOT_END at hstop
      have hslot := hin.2
      unfold INVENTORY_SLOT_BAG_0 at hq'
      omega
    have hbags : ∀ start stop, stop ≤ CURRENCYTOKEN_SLOT_END →
        (p.bagPlaces start stop).Pairwise fun q q' => q' ≠ q ∧ ¬q'.Inside q := by
      intro start stop hstop
      refine (nodup_bagPlaces p start stop).imp_of_mem fun {q q'} hq _ hne => ⟨Ne.symm hne, fun hin => ?_⟩
      rw [mem_bagPlaces] at hq
      unfold CURRENCYTOKEN_SLOT_END at hstop
      have hbag := hin.1
      unfold INVENTORY_SLOT_BAG_0 at hbag
      omega
    have happart : ∀ {q q' : Pos}, (q.bag = q'.bag → q.slot ≠ q'.slot) → (q.bag = INVENTORY_SLOT_BAG_0 → q'.bag ≠ q.slot) →
        q' ≠ q ∧ ¬q'.Inside q := by
      intro q q' hslot hbag
      refine ⟨fun he => ?_, fun hin => hbag hin.1 hin.2⟩
      subst he
      exact hslot rfl rfl
    unfold places
    refine List.pairwise_append.2 ⟨hown _ _ (by decide), List.pairwise_append.2 ⟨hown _ _ (by decide), List.pairwise_append.2
      ⟨hbags _ _ (by decide), List.pairwise_append.2 ⟨hown _ _ (by decide), List.pairwise_append.2
        ⟨hown _ _ (by decide), hbags _ _ (by decide), ?_⟩, ?_⟩, ?_⟩, ?_⟩, ?_⟩
    all_goals
      intro q hq q' hq'
      simp only [List.mem_append, mem_ownPlaces, mem_bagPlaces, INVENTORY_SLOT_ITEM_START, INVENTORY_SLOT_ITEM_END,
        KEYRING_SLOT_START, CURRENCYTOKEN_SLOT_END, INVENTORY_SLOT_BAG_START, INVENTORY_SLOT_BAG_END, EQUIPMENT_SLOT_START,
        BANK_SLOT_ITEM_START, BANK_SLOT_ITEM_END, BANK_SLOT_BAG_START, BANK_SLOT_BAG_END, INVENTORY_SLOT_BAG_0] at hq hq'
      refine happart (fun _ => ?_) (fun _ => ?_)
      · omega
      · unfold INVENTORY_SLOT_BAG_0 at *
        omega
  · intro q _ hequip j item hitem
    rw [isEquipmentPos_iff] at hequip
    rcases getItemByPos_cases hitem with ⟨hbag, _⟩ | ⟨hbag, hslot, b, hb, hisBag, hlt, _⟩
    · simp only at hbag
      rw [hbag] at hequip
      exact absurd hequip.2 (by decide)
    have hin : (⟨q.slot, j⟩ : Pos) ∈ p.bagPlaces INVENTORY_SLOT_BAG_START INVENTORY_SLOT_BAG_END := by
      rw [mem_bagPlaces]
      refine ⟨?_, b, ?_, hlt⟩
      · simp only [isBagSlot, Bool.or_eq_true, Bool.and_eq_true, decide_eq_true_iff] at hslot
        unfold INVENTORY_SLOT_BAG_START INVENTORY_SLOT_BAG_END at *
        unfold BANK_SLOT_BAG_START at hslot
        dsimp only at hslot ⊢
        omega
      · rw [getBagByPos, if_pos hslot, hb, Option.filter_some, if_pos hisBag]
    rw [places]
    simp only [List.mem_append, hin, true_or, or_true]

/-! ## The function as one loop -/

/-- One slot changes nothing outside of it. -/
theorem destroyRound_frame {unequips : Player → Pos → Bool} {t' : Player × Nat} (h : destroyRound itemEntry count unequips t pos = .ok t')
    (hne : pos' ≠ pos) (hinside : ¬pos'.Inside pos) : t'.1.getItemByPos pos' = t.1.getItemByPos pos' := by
  rw [destroyRound] at h
  split at h
  next =>
    cases h
    rfl
  next hitem =>
  split at h
  next =>
    split at h
    next =>
      split at h
      next =>
        simp only at h
        split at h
        next => cases h
        next =>
        cases h
        rw [(destroyItem_spec hitem).2, if_neg]
        exact fun hpos => hpos.elim hne hinside
      next =>
      cases h
      rfl
    next => cases h
  next =>
  cases h
  rfl

theorem foldlM_frame {unequips : Player → Pos → Bool} (hout : ∀ q ∈ l, pos' ≠ q ∧ ¬pos'.Inside q) :
    ∀ {t t' : Player × Nat}, l.foldlM (destroyRound itemEntry count unequips) t = .ok t' →
      t'.1.getItemByPos pos' = t.1.getItemByPos pos' := by
  induction l with
  | nil =>
    intro t t' h
    cases h
    rfl
  | cons q l ih =>
    intro t t' h
    rw [List.forall_mem_cons] at hout
    rw [List.foldlM_cons] at h
    cases hround : destroyRound itemEntry count unequips t q with
    | error p' =>
      rw [hround] at h
      cases h
    | ok t'' =>
      rw [hround] at h
      rw [ih hout.2 h, destroyRound_frame hround hout.1.1 hout.1.2]

theorem bagPlaces_congr
    (h : ∀ b, start ≤ b → b < stop → p'.getItemByPos ⟨INVENTORY_SLOT_BAG_0, b⟩ = p.getItemByPos ⟨INVENTORY_SLOT_BAG_0, b⟩) :
    p'.bagPlaces start stop = p.bagPlaces start stop := by
  rw [bagPlaces, bagPlaces]
  refine List.flatMap_congr fun b hb => ?_
  rw [List.mem_range'_1] at hb
  rw [getBagByPos_eq, getBagByPos_eq, h b hb.1 (by omega)]

/-- All loops make the same check where they are. -/
theorem foldlM_check {f : Player → Pos → Bool} (h : ∀ q ∈ l, ∀ p', f p' q = check unequipCheck p' q)
    (t : Player × Nat) : l.foldlM (destroyRound itemEntry count f) t =
      l.foldlM (destroyRound itemEntry count (check unequipCheck)) t := by
  induction l generalizing t with
  | nil => rfl
  | cons q l ih =>
    rw [List.forall_mem_cons] at h
    have hround : destroyRound itemEntry count f t q = destroyRound itemEntry count (check unequipCheck) t q := by
      simp only [destroyRound, h.1]
    rw [List.foldlM_cons, List.foldlM_cons, hround]
    exact bind_congr fun t' => ih h.2 t'

theorem bind_congr_ok {ε α β : Type} {x : Except ε α} {f g : α → Except ε β} (h : ∀ a, x = .ok a → f a = g a) : x >>= f = x >>= g := by
  cases x with
  | error e => rfl
  | ok a => exact h a rfl

/-- Slots for bags that are not among some places. -/
theorem bagSlot_apart {b : Nat} (h : ∀ q ∈ l, q.bag = INVENTORY_SLOT_BAG_0 → q.slot ≠ b)
    (hslot : ∀ q ∈ l, q.bag = INVENTORY_SLOT_BAG_0 → q.slot ≠ INVENTORY_SLOT_BAG_0) :
    ∀ q ∈ l, (⟨INVENTORY_SLOT_BAG_0, b⟩ : Pos) ≠ q ∧ ¬Pos.Inside ⟨INVENTORY_SLOT_BAG_0, b⟩ q := by
  intro q hq
  refine ⟨fun he => h q hq (he ▸ rfl) (he ▸ rfl), fun hin => hslot q hq hin.1 hin.2.symm⟩

theorem destroyItemCount_eq (p : Player) (itemEntry count : Nat) (unequipCheck : Bool) :
    p.destroyItemCount itemEntry count unequipCheck =
      outcome (p.places.foldlM (destroyRound itemEntry count (check unequipCheck)) (p, 0)) := by
  have hbagged : ∀ (p : Player) (start stop : Nat), stop ≤ BANK_SLOT_BAG_END → ∀ q ∈ p.bagPlaces start stop,
      q.bag ≠ INVENTORY_SLOT_BAG_0 := by
    intro p start stop hstop q hq hbag
    have hlt := (mem_bagPlaces.1 hq).1.2
    unfold BANK_SLOT_BAG_END at hstop
    unfold INVENTORY_SLOT_BAG_0 at hbag
    omega
  have hunchecked : ∀ q, isEquipmentPos q = false → ∀ p', true = check unequipCheck p' q := by
    intro q hq p'
    rw [check, hq]
    rfl
  have hown : ∀ start stop, INVENTORY_SLOT_ITEM_START ≤ start → stop ≤ CURRENCYTOKEN_SLOT_END → ∀ q ∈ ownPlaces start stop,
      isEquipmentPos q = false := by
    intro start stop hstart hstop q hq
    rw [Bool.eq_false_iff, Ne, isEquipmentPos_iff]
    intro hslot
    exact absurd (hslot.2.trans_le (hstart.trans (mem_ownPlaces.1 hq).2.1)) (lt_irrefl _)
  have hbags : ∀ (p : Player) (start stop : Nat), stop ≤ BANK_SLOT_BAG_END → ∀ q ∈ p.bagPlaces start stop,
      isEquipmentPos q = false := by
    intro p start stop hstop q hq
    rw [Bool.eq_false_iff, Ne, isEquipmentPos_iff]
    exact fun hslot => hbagged p start stop hstop q hq hslot.1
  have hequip : ∀ q ∈ ownPlaces EQUIPMENT_SLOT_START INVENTORY_SLOT_BAG_END, ∀ p' : Player,
      unequips unequipCheck p' q = check unequipCheck p' q := by
    intro q hq p'
    obtain ⟨hbag, _, hlt⟩ := mem_ownPlaces.1 hq
    rw [check, isEquipmentPos_iff.2 ⟨hbag, hlt⟩]
    rfl
  -- no loop but that over the equipment changes what bags there are, and that one none in the bank
  have hownKeeps : ∀ start stop, stop ≤ CURRENCYTOKEN_SLOT_END → ∀ {t t' : Player × Nat},
      (ownPlaces start stop).foldlM (destroyRound itemEntry count (check unequipCheck)) t = .ok t' → ∀ b, b < start ∨ stop ≤ b →
        t'.1.getItemByPos ⟨INVENTORY_SLOT_BAG_0, b⟩ = t.1.getItemByPos ⟨INVENTORY_SLOT_BAG_0, b⟩ := by
    intro start stop hstop t t' h b hb
    refine foldlM_frame (bagSlot_apart (fun q hq _ => ?_) (fun q hq _ => ?_)) h
    · have hslot := mem_ownPlaces.1 hq
      omega
    · have hslot := mem_ownPlaces.1 hq
      unfold CURRENCYTOKEN_SLOT_END at hstop
      unfold INVENTORY_SLOT_BAG_0
      omega
  have hbagsKeep : ∀ (p : Player) (start stop : Nat), stop ≤ BANK_SLOT_BAG_END → ∀ {t t' : Player × Nat},
      (p.bagPlaces start stop).foldlM (destroyRound itemEntry count (check unequipCheck)) t = .ok t' → ∀ b,
        t'.1.getItemByPos ⟨INVENTORY_SLOT_BAG_0, b⟩ = t.1.getItemByPos ⟨INVENTORY_SLOT_BAG_0, b⟩ := by
    intro p start stop hstop t t' h b
    refine foldlM_frame (bagSlot_apart (fun q hq hbag => ?_) (fun q hq hbag => ?_)) h
    · exact absurd hbag (hbagged p start stop hstop q hq)
    · exact absurd hbag (hbagged p start stop hstop q hq)
  refine congrArg outcome ?_
  rw [places, List.foldlM_append, foldlM_check fun q hq => hunchecked q (hown _ _ (by decide) (by decide) q hq)]
  refine bind_congr_ok fun s₁ h₁ => ?_
  rw [List.foldlM_append, foldlM_check fun q hq => hunchecked q (hown _ _ (by decide) (by decide) q hq)]
  refine bind_congr_ok fun s₂ h₂ => ?_
  have hequipped : s₂.1.bagPlaces INVENTORY_SLOT_BAG_START INVENTORY_SLOT_BAG_END =
      p.bagPlaces INVENTORY_SLOT_BAG_START INVENTORY_SLOT_BAG_END := by
    refine bagPlaces_congr fun b hstart hstop => ?_
    rw [hownKeeps _ _ (by decide) h₂ b (.inl (hstop.trans (by decide))), hownKeeps _ _ (by decide) h₁ b (.inl hstop)]
  rw [List.foldlM_append, hequipped, foldlM_check fun q hq => hunchecked q (hbags _ _ _ (by decide) q hq)]
  refine bind_congr_ok fun s₃ h₃ => ?_
  rw [List.foldlM_append, foldlM_check hequip]
  refine bind_congr_ok fun s₄ h₄ => ?_
  rw [List.foldlM_append, foldlM_check fun q hq => hunchecked q (hown _ _ (by decide) (by decide) q hq)]
  refine bind_congr_ok fun s₅ h₅ => ?_
  have hbank : s₅.1.bagPlaces BANK_SLOT_BAG_START BANK_SLOT_BAG_END = p.bagPlaces BANK_SLOT_BAG_START BANK_SLOT_BAG_END := by
    refine bagPlaces_congr fun b hstart hstop => ?_
    rw [hownKeeps _ _ (by decide) h₅ b (.inr hstart), hownKeeps _ _ (by decide) h₄ b (.inr (le_trans (by decide) hstart)),
      hbagsKeep _ _ _ (by decide) h₃ b, hownKeeps _ _ (by decide) h₂ b (.inl (hstop.trans (by decide))),
      hownKeeps _ _ (by decide) h₁ b (.inr (le_trans (by decide) hstart))]
  rw [hbank, foldlM_check fun q hq => hunchecked q (hbags _ _ _ (by decide) q hq)]

/-- The units that are taken are as many as asked for, or all that may be taken, in the order of the places. Left out are counts
that do not fit 32 bits together, and what the code does at a locked stack. -/
theorem destroyItemCount_spec (p : Player) (itemEntry count : Nat) (unequipCheck : Bool)
    (hsum : ∀ pos ∈ p.places, p.holds itemEntry pos = true → p.units pos + count < 2 ^ 32)
    (hlocked : ¬Locked p itemEntry count unequipCheck p.places) :
    Taken p (p.destroyItemCount itemEntry count unequipCheck) count (p.places.filter (p.removable itemEntry unequipCheck)) := by
  have hstart : Reached p itemEntry count unequipCheck [] (p, 0) :=
    ⟨⟨.refl p, fun _ h => (nomatch h), fun _ _ => rfl⟩, rfl, .inr rfl⟩
  rw [destroyItemCount_eq]
  exact @loop_spec p itemEntry count unequipCheck [] p.places hsum hlocked (ordered_places p) (p, 0) hstart

/-- No stack is locked if nothing equipped is more than one. -/
theorem not_locked_of_single (h : ∀ q ∈ l, isEquipmentPos q = true → p.units q ≤ 1) :
    ¬Locked p itemEntry count unequipCheck l := by
  rintro ⟨pre, q, post, rfl, hheld, hnot, hmore, hlarge⟩
  have hequip : isEquipmentPos q = true := by
    rw [removable, hheld, Bool.true_and, Bool.or_eq_false_iff, Bool.not_eq_false'] at hnot
    exact hnot.1
  have hsingle := h q (by simp) hequip
  omega

/-- In combat: one cloak is worn and one carried. -/
def twoCloaks : Player where
  items slot := if slot = 14 ∨ slot = 23 then some ⟨slot, ⟨10, 4, 1, 16, 0, 1, 0⟩, 1, false, false⟩ else none
  bagItems _ _ := none
  isCharmed := false
  isInCombat := true
  inArenaMatch := false

/-- Of two cloaks that are to go, only the one that is carried may be taken. -/
theorem destroyItemCount_twoCloaks :
    Taken twoCloaks (twoCloaks.destroyItemCount 10 2 true) 2 (twoCloaks.places.filter (twoCloaks.removable 10 true)) ∧
      twoCloaks.places.filter (twoCloaks.removable 10 true) = [⟨INVENTORY_SLOT_BAG_0, 23⟩] := by
  have hsingle : ∀ q, twoCloaks.units q ≤ 1 := by
    intro q
    cases hitem : twoCloaks.getItemByPos q with
    | none =>
      rw [units, hitem]
      exact Nat.zero_le 1
    | some item =>
      rw [units_eq hitem]
      rcases getItemByPos_cases hitem with ⟨_, _, hown⟩ | ⟨_, _, _, _, _, _, hbagged⟩
      · simp only [twoCloaks] at hown
        split at hown
        next =>
          cases hown
          exact Nat.le_refl 1
        next => cases hown
      · cases hbagged
  refine ⟨destroyItemCount_spec twoCloaks 10 2 true (fun q _ _ => ?_) (not_locked_of_single fun q _ _ => hsingle q), by decide⟩
  exact (Nat.add_le_add_right (hsingle q) 2).trans_lt (by decide)

/-- A bag with something in it, and a cloak that is worn while another is in the bank. -/
def fullBag : Player where
  items slot :=
    if slot = 19 then some ⟨1, ⟨20, 1, 0, INVTYPE_BAG, 0, 1, 4⟩, 1, false, false⟩
    else if slot = 14 ∨ slot = 39 then some ⟨slot, ⟨10, 4, 1, 16, 0, 1, 0⟩, 1, false, false⟩
    else none
  bagItems bag slot := if bag = 19 ∧ slot = 0 then some ⟨2, ⟨30, 0, 0, 0, 0, 20, 0⟩, 5, false, false⟩ else none
  isCharmed := false
  isInCombat := false
  inArenaMatch := false

/-- With the bag goes what is in it, of another entry, and the cloak that is worn goes before that in the bank. -/
theorem destroyItemCount_takes_contents :
    fullBag.units ⟨19, 0⟩ = 5 ∧ (fullBag.destroyItemCount 20 1 false).getItemByPos ⟨19, 0⟩ = none ∧
      (fullBag.destroyItemCount 10 1 true).units ⟨INVENTORY_SLOT_BAG_0, 14⟩ = 0 ∧
      (fullBag.destroyItemCount 10 1 true).units ⟨INVENTORY_SLOT_BAG_0, 39⟩ = 1 := by
  decide

end Player

end AtlasWow.Storage
