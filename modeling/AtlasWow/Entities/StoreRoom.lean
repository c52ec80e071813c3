/-
What `CanStoreItem` visits: each of its searches, and so the whole cascade,
either fails, or fills the slots that it visits one after the other
(`Visits`). So it finds room exactly where the slots that it visits have
enough of it.
-/
import AtlasWow.Entities.CanStoreItem
import Mathlib.Data.Set.Lattice

namespace AtlasWow.Storage

/-- The outcome of a search: it goes on and what it visited is full, or it ends and has found room, or it fails. -/
def Outcome (room : Pos → Nat) (total noSimilarCount : Nat) (visited : Set Pos) (fails : Prop) :
    Except StoreResult (Fill Pos) → Prop
  | .ok f => f.Full room total visited
  | .error r =>
    (∃ f : Fill Pos, f.count = 0 ∧ Fill.Done room total visited f.dest ∧ r = .finish noSimilarCount f) ∨ (fails ∧ r.result ≠ .ok)

/-- A search that visits some slots. -/
def Visits (room : Pos → Nat) (total noSimilarCount : Nat) (stage : Fill Pos → Except StoreResult (Fill Pos)) (slots : Set Pos)
    (fails : Prop) : Prop :=
  ∀ (visited : Set Pos) (f : Fill Pos), f.Full room total visited →
    Outcome room total noSimilarCount (visited ∪ slots) fails (stage f)

section Visits

variable {room : Pos → Nat} {total noSimilarCount : Nat} {stage stage' : Fill Pos → Except StoreResult (Fill Pos)}
  {slots slots' : Set Pos} {fails fails' : Prop}

theorem Outcome.mono {visited visited' : Set Pos} (hsub : visited ⊆ visited') (hfails : fails → fails') {r : StoreResult}
    (h : Outcome room total noSimilarCount visited fails (.error r)) :
    Outcome room total noSimilarCount visited' fails' (.error r) := by
  rcases h with ⟨f, hzero, hdone, hr⟩ | ⟨hfail, hr⟩
  · exact .inl ⟨f, hzero, hdone.mono hsub, hr⟩
  · exact .inr ⟨hfails hfail, hr⟩

theorem Visits.bind (h : Visits room total noSimilarCount stage slots fails)
    (h' : Visits room total noSimilarCount stage' slots' fails') :
    Visits room total noSimilarCount (fun f => stage f >>= stage') (slots ∪ slots') (fails ∨ fails') := by
  intro visited f hf
  have hstage := h visited f hf
  dsimp only
  rw [← Set.union_assoc]
  cases hs : stage f with
  | error r =>
    rw [hs] at hstage
    exact hstage.mono Set.subset_union_left .inl
  | ok f' =>
    rw [hs] at hstage
    have hrest := h' (visited ∪ slots) f' hstage
    change Outcome room total noSimilarCount (visited ∪ slots ∪ slots') (fails ∨ fails') (stage' f')
    cases hs' : stage' f' with
    | error r =>
      rw [hs'] at hrest
      exact hrest.mono (Set.Subset.refl _) .inr
    | ok f'' =>
      rw [hs'] at hrest
      exact hrest

theorem Visits.none : Visits room total noSimilarCount (fun f => .ok f) ∅ False := by
  intro visited f hf
  rw [Set.union_empty]
  exact hf

theorem Visits.ite {c : Prop} [Decidable c] (h : Visits room total noSimilarCount stage slots fails)
    (h' : Visits room total noSimilarCount stage' slots' fails') :
    Visits room total noSimilarCount (fun f => if c then stage f else stage' f) {x | (c ∧ x ∈ slots) ∨ (¬c ∧ x ∈ slots')}
      ((c ∧ fails) ∨ (¬c ∧ fails')) := by
  by_cases hc : c
  · simp only [hc, if_true, true_and, not_true, false_and, or_false, Set.ofPred_mem_eq]
    exact h
  · simp only [hc, if_false, false_and, not_false_iff, true_and, false_or, Set.ofPred_mem_eq]
    exact h'

theorem Visits.congr (h : Visits room total noSimilarCount stage slots fails) (hslots : ∀ x, x ∈ slots' ↔ x ∈ slots)
    (hfails : fails → fails') : Visits room total noSimilarCount stage slots' fails' := by
  intro visited f hf
  rw [show slots' = slots from Set.ext hslots]
  have hstage := h visited f hf
  cases hs : stage f with
  | error r =>
    rw [hs] at hstage
    exact hstage.mono (Set.Subset.refl _) hfails
  | ok f' =>
    rw [hs] at hstage
    exact hstage

/-- Searches of one kind, one after the other. -/
theorem Visits.foldlM {g : Fill Pos → Nat → Except StoreResult (Fill Pos)} {slots : Nat → Set Pos} {l : List Nat}
    (h : ∀ i ∈ l, Visits room total noSimilarCount (fun f => g f i) (slots i) fails) :
    Visits room total noSimilarCount (fun f => l.foldlM g f) {x | ∃ i ∈ l, x ∈ slots i} fails := by
  induction l with
  | nil =>
    refine Visits.none.congr (fun x => ⟨fun hx => ?_, fun hx => hx.elim⟩) False.elim
    obtain ⟨i, hi, _⟩ := hx
    cases hi
  | cons i l ih =>
    rw [List.forall_mem_cons] at h
    simp only [List.foldlM_cons]
    refine (h.1.bind (ih h.2)).congr (fun x => ?_) or_self_iff.1
    constructor
    · rintro ⟨j, hj, hx⟩
      rcases List.mem_cons.1 hj with rfl | hj
      · exact .inl hx
      · exact .inr ⟨j, hj, hx⟩
    · rintro (hx | ⟨j, hj, hx⟩)
      · exact ⟨i, List.mem_cons_self, hx⟩
      · exact ⟨j, List.mem_cons_of_mem _ hj, hx⟩

/-- A search that looks at the places of a list, if it is possible at all. -/
structure Looks (room : Pos → Nat) (g : Fill Pos → InventoryResult × Fill Pos) (possible : Prop) (slots : Set Pos) : Prop where
  fails : ∀ f, ¬possible → (g f).1 ≠ .ok ∧ (g f).2 = f
  looks : possible → ∀ {total : Nat} {visited : Set Pos} {f : Fill Pos}, f.Full room total visited → (g f).1 = .ok ∧
    ((g f).2.Full room total (visited ∪ slots) ∨ ((g f).2.count = 0 ∧ Fill.Done room total (visited ∪ slots) (g f).2.dest))

variable {g : Fill Pos → InventoryResult × Fill Pos} {possible : Prop}

theorem Looks.must (h : Looks room g possible slots) :
    Visits room total noSimilarCount (fun f => must noSimilarCount (g f)) {x | possible ∧ x ∈ slots} (¬possible) := by
  intro visited f hf
  by_cases hp : possible
  · have hset : {x | possible ∧ x ∈ slots} = slots := Set.ext fun x => ⟨fun hx => hx.2, fun hx => ⟨hp, hx⟩⟩
    obtain ⟨hok, hlooks⟩ := h.looks hp hf
    rw [hset]
    beta_reduce
    rw [Storage.must, if_neg (not_not.2 hok)]
    rcases hlooks with hfull | ⟨hzero, hdone⟩
    · rw [if_neg hfull.left.ne']
      exact hfull
    · rw [if_pos hzero]
      exact .inl ⟨_, hzero, hdone, rfl⟩
  obtain ⟨hbad, _⟩ := h.fails f hp
  beta_reduce
  rw [Storage.must, if_pos hbad]
  exact .inr ⟨hp, hbad⟩

theorem Looks.attempt (h : Looks room g possible slots) :
    Visits room total noSimilarCount (fun f => attempt noSimilarCount (g f)) {x | possible ∧ x ∈ slots} False := by
  intro visited f hf
  by_cases hp : possible
  · have hset : {x | possible ∧ x ∈ slots} = slots := Set.ext fun x => ⟨fun hx => hx.2, fun hx => ⟨hp, hx⟩⟩
    obtain ⟨hok, hlooks⟩ := h.looks hp hf
    rw [hset]
    beta_reduce
    rw [Storage.attempt, if_neg (not_not.2 hok)]
    rcases hlooks with hfull | ⟨hzero, hdone⟩
    · rw [if_neg hfull.left.ne']
      exact hfull
    · rw [if_pos hzero]
      exact .inl ⟨_, hzero, hdone, rfl⟩
  have hset : {x | possible ∧ x ∈ slots} = ∅ := Set.eq_empty_of_forall_notMem fun x hx => hp hx.1
  obtain ⟨hbad, hsame⟩ := h.fails f hp
  rw [hset, Set.union_empty]
  beta_reduce
  rw [Storage.attempt, if_pos hbad, hsame]
  exact hf

/-- A search, and if it is not possible another one. -/
theorem Looks.orElse {g' : Fill Pos → InventoryResult × Fill Pos} {possible' : Prop} (h : Looks room g possible slots)
    (h' : Looks room g' possible' slots') (hfirst : possible → slots' ⊆ slots) (hsecond : ¬possible → slots ⊆ slots') :
    Looks room (fun f => if (g f).1 ≠ .ok then g' f else g f) (possible ∨ possible') (slots ∪ slots') := by
  constructor
  · intro f hnot
    rw [not_or] at hnot
    rw [if_pos (h.fails f hnot.1).1]
    exact h'.fails f hnot.2
  · intro hp total visited f hf
    by_cases hnow : possible
    · obtain ⟨hok, hlooks⟩ := h.looks hnow hf
      rw [if_neg (not_not.2 hok), Set.union_eq_left.2 (hfirst hnow)]
      exact ⟨hok, hlooks⟩
    · rw [if_pos (h.fails f hnow).1, Set.union_eq_right.2 (hsecond hnow)]
      exact h'.looks (hp.resolve_left hnow) hf

end Visits

namespace Item

/-- A bag for everything. -/
def isGeneral (pBag : Item) : Bool :=
  pBag.template.itemClass = ITEM_CLASS_CONTAINER && pBag.template.subClass = ITEM_SUBCLASS_CONTAINER

theorem lt_of_canBeMerged {item : Item} {proto : ItemTemplate} (h : item.canBeMergedPartlyWith proto = .ok) :
    item.lootGenerated = false ∧ item.getEntry = proto.itemId ∧ item.count < proto.getMaxStackSize := by
  rw [canBeMergedPartlyWith] at h
  split at h
  next => cases h
  next hloot =>
  split at h
  next => cases h
  next hentry =>
  split at h
  next => cases h
  next hroom => exact ⟨Bool.eq_false_iff.2 hloot, not_not.1 hentry, not_le.1 hroom⟩

end Item

namespace Player

/-- A bag that an item may go into, other than itself. -/
def bagTakes (p : Player) (pProto : ItemTemplate) (pItem : Option Item) (bag : Nat) : Bool :=
  (p.getBagByPos bag).any fun pBag => !pItem.any (·.guid = pBag.guid) && itemCanGoIntoBag pProto pBag.template

def isGeneralBag (p : Player) (bag : Nat) : Bool := (p.getBagByPos bag).any Item.isGeneral

/-- How much of an item a slot has room for; that of a swapped item is free. -/
def room (p : Player) (pProto : ItemTemplate) (pItem : Option Item) (swap : Bool) (requested pos : Pos) : Nat :=
  if swap = true ∧ pos = requested then pProto.getMaxStackSize
  else
    match p.itemBesides pItem pos with
    | none => pProto.getMaxStackSize
    | some pItem2 => if pItem2.canBeMergedPartlyWith pProto = .ok then pProto.getMaxStackSize - pItem2.count else 0

section Slots

variable (p : Player) (pProto : ItemTemplate) (pItem : Option Item) (bag slot : Nat)

/-- What a search among the slots of the player looks at. -/
def slotsSeen (slotBegin slotEnd : Nat) (merge : Bool) : Set Pos :=
  {x | p.isFullBag pItem = false ∧ x ∈ ownPlaces slotBegin slotEnd ∧ ¬(INVENTORY_SLOT_BAG_0 = bag ∧ x.slot = slot) ∧
    (p.needSpace pProto pItem merge x).isSome}

/-- A bag is searched. -/
def BagSearched (i : Nat) (nonSpecialized : Bool) (skipBag : Nat) : Prop :=
  p.isFullBag pItem = false ∧ i ≠ skipBag ∧ p.bagTakes pProto pItem i = true ∧ nonSpecialized = p.isGeneralBag i

/-- What a search in a bag looks at. -/
def bagSeen (i : Nat) (merge nonSpecialized : Bool) (skipBag : Nat) : Set Pos :=
  {x | p.BagSearched pProto pItem i nonSpecialized skipBag ∧ x.bag = i ∧ (∃ pBag, p.getBagByPos i = some pBag ∧ x.slot < pBag.getBagSize) ∧
    x.slot ≠ slot ∧ (p.needSpace pProto pItem merge x).isSome}

end Slots

variable {p : Player} {pProto : ItemTemplate} {pItem : Option Item} {bag slot noSimilarCount total : Nat} {swap merge : Bool} {pos : Pos}

theorem needSpace_room {n : Nat} (hne : pos ≠ ⟨bag, slot⟩) (h : p.needSpace pProto pItem merge pos = some n) :
    n = p.room pProto pItem swap ⟨bag, slot⟩ pos ∧ 0 < n := by
  rw [needSpace] at h
  rw [room, if_neg fun hswap => hne hswap.2]
  cases hbesides : p.itemBesides pItem pos with
  | none =>
    rw [hbesides] at h
    cases merge with
    | true => cases h
    | false =>
      cases h
      exact ⟨rfl, pProto.getMaxStackSize_pos⟩
  | some pItem2 =>
    rw [hbesides] at h
    cases merge with
    | false => cases h
    | true =>
      simp only [if_true] at h
      split at h
      next hok =>
        cases h
        exact ⟨(if_pos hok).symm, Nat.sub_pos_of_lt (Item.lt_of_canBeMerged hok).2.2⟩
      next => cases h

theorem looks_inventorySlots (slotBegin slotEnd : Nat) (merge swap : Bool) :
    Looks (p.room pProto pItem swap ⟨bag, slot⟩)
      (fun f => p.canStoreItem_InInventorySlots slotBegin slotEnd pProto merge pItem bag slot f) (p.isFullBag pItem = false)
      (p.slotsSeen pProto pItem bag slot slotBegin slotEnd merge) := by
  constructor
  · intro f hfull
    rw [Bool.not_eq_false] at hfull
    rw [canStoreItem_InInventorySlots, if_pos hfull]
    exact ⟨InventoryResult.noConfusion, rfl⟩
  · intro hfull total visited f hf
    have hset : p.slotsSeen pProto pItem bag slot slotBegin slotEnd merge =
        {x | x ∈ (ownPlaces slotBegin slotEnd).filter (fun pos => !(INVENTORY_SLOT_BAG_0 = bag && pos.slot = slot)) ∧
          (p.needSpace pProto pItem merge x).isSome} := by
      ext x
      simp only [slotsSeen, hfull, Set.mem_ofPred_eq, true_and, List.mem_filter, Bool.not_eq_true', Bool.and_eq_false_imp,
        decide_eq_true_iff, decide_eq_false_iff_not, not_and, and_assoc]
    rw [canStoreItem_InInventorySlots, hfull, hset]
    refine ⟨rfl, hf.placeAll fun x hx n hn => needSpace_room (fun he => ?_) hn⟩
    obtain ⟨hx, hskip⟩ := List.mem_filter.1 hx
    have hbag := (mem_ownPlaces.1 hx).1
    subst he
    simp only [Bool.not_eq_true', Bool.and_eq_false_imp, decide_eq_true_iff, decide_eq_false_iff_not] at hskip
    exact hskip hbag.symm trivial

theorem looks_bag (i : Nat) (merge swap nonSpecialized : Bool) (skipBag : Nat) :
    Looks (p.room pProto pItem swap ⟨bag, slot⟩)
      (fun f => p.canStoreItem_InBag i pProto merge nonSpecialized pItem skipBag slot f)
      (p.BagSearched pProto pItem i nonSpecialized skipBag) (p.bagSeen pProto pItem slot i merge nonSpecialized skipBag) := by
  constructor
  · intro f hnot
    rw [canStoreItem_InBag]
    split
    next => exact ⟨InventoryResult.noConfusion, rfl⟩
    next hskip =>
    cases hbag : p.getBagByPos i with
    | none => exact ⟨InventoryResult.noConfusion, rfl⟩
    | some pBag =>
      simp only
      split
      next => exact ⟨InventoryResult.noConfusion, rfl⟩
      next hother =>
      split
      next => exact ⟨InventoryResult.noConfusion, rfl⟩
      next hfull =>
      split
      next => exact ⟨InventoryResult.noConfusion, rfl⟩
      next hkind =>
      split
      next => exact ⟨InventoryResult.noConfusion, rfl⟩
      next hcan =>
      refine absurd ⟨Bool.eq_false_iff.2 hfull, hskip, ?_, ?_⟩ hnot
      · rw [bagTakes, hbag, Option.any_some, Bool.and_eq_true, Bool.not_eq_true']
        exact ⟨Bool.eq_false_iff.2 hother, (Bool.not_eq_false _).mp fun hno => hcan (by rw [hno]; rfl)⟩
      · rw [isGeneralBag, hbag]
        exact not_not.1 hkind
  · rintro ⟨hfull, hskip, htakes, hkind⟩ total visited f hf
    rw [bagTakes, Option.any_eq_true] at htakes
    obtain ⟨pBag, hbag, htakes⟩ := htakes
    rw [Bool.and_eq_true, Bool.not_eq_true'] at htakes
    rw [isGeneralBag, hbag] at hkind
    have hkind' : ¬nonSpecialized ≠
        (pBag.template.itemClass = ITEM_CLASS_CONTAINER && pBag.template.subClass = ITEM_SUBCLASS_CONTAINER : Bool) := not_not.2 hkind
    have hset : p.bagSeen pProto pItem slot i merge nonSpecialized skipBag =
        {x | x ∈ ((List.range pBag.getBagSize).filter (· ≠ slot)).map (Pos.mk i) ∧ (p.needSpace pProto pItem merge x).isSome} := by
      ext x
      obtain ⟨bag', slot'⟩ := x
      have hsearched : p.BagSearched pProto pItem i nonSpecialized skipBag := by
        refine ⟨hfull, hskip, ?_, ?_⟩
        · rw [bagTakes, hbag, Option.any_some, htakes.1, htakes.2]
          rfl
        · rw [isGeneralBag, hbag, hkind]
      simp only [bagSeen, Set.mem_ofPred_eq, hsearched, true_and, hbag, Option.some.injEq, exists_eq_left', List.mem_map,
        List.mem_filter, List.mem_range, decide_eq_true_iff, Pos.mk.injEq]
      constructor
      · rintro ⟨rfl, hlt, hne, hsome⟩
        exact ⟨⟨slot', ⟨hlt, hne⟩, rfl, rfl⟩, hsome⟩
      · rintro ⟨⟨j, ⟨hlt, hne⟩, rfl, rfl⟩, hsome⟩
        exact ⟨rfl, hlt, hne, hsome⟩
    rw [canStoreItem_InBag, if_neg hskip, hbag]
    simp only
    rw [if_neg (Bool.eq_false_iff.1 htakes.1), if_neg (Bool.eq_false_iff.1 hfull), if_neg hkind', htakes.2, hset]
    refine ⟨rfl, hf.placeAll fun x hx n hn => needSpace_room (fun he => ?_) hn⟩
    obtain ⟨j, hj, rfl⟩ := List.mem_map.1 hx
    cases he
    simpa using (List.mem_filter.1 hj).2

/-! ## The cascade -/

section Cascade

variable (p pProto pItem bag slot) in
/-- What the searches in all equipped bags look at. -/
def bagsSeen (merge nonSpecialized : Bool) : Set Pos :=
  {x | (INVENTORY_SLOT_BAG_START ≤ x.bag ∧ x.bag < INVENTORY_SLOT_BAG_END) ∧
    x ∈ p.bagSeen pProto pItem slot x.bag merge nonSpecialized bag}

theorem visits_searchSlots (slotBegin slotEnd : Nat) (merge swap : Bool) :
    Visits (p.room pProto pItem swap ⟨bag, slot⟩) total noSimilarCount
      (p.searchSlots pProto pItem bag slot noSimilarCount slotBegin slotEnd merge)
      (p.slotsSeen pProto pItem bag slot slotBegin slotEnd merge) (p.isFullBag pItem = true) := by
  refine (looks_inventorySlots slotBegin slotEnd merge swap).must.congr (fun x => ?_) (Bool.not_eq_false _).mp
  exact ⟨fun hx => ⟨hx.1, hx⟩, fun hx => hx.2⟩

theorem visits_searchBags (merge nonSpecialized swap : Bool) :
    Visits (p.room pProto pItem swap ⟨bag, slot⟩) total noSimilarCount
      (p.searchBags pProto pItem bag slot noSimilarCount merge nonSpecialized)
      (p.bagsSeen pProto pItem bag slot merge nonSpecialized) False := by
  refine (Visits.foldlM fun i _ => (looks_bag i merge swap nonSpecialized bag).attempt).congr (fun x => ?_) id
  constructor
  · rintro ⟨⟨hstart, hstop⟩, hx⟩
    refine ⟨x.bag, List.mem_range'_1.2 ⟨hstart, ?_⟩, hx.1, hx⟩
    unfold INVENTORY_SLOT_BAG_START INVENTORY_SLOT_BAG_END at *
    omega
  · rintro ⟨i, hi, _, hx⟩
    have hbag : x.bag = i := hx.2.1
    rw [List.mem_range'_1] at hi
    subst hbag
    refine ⟨⟨hi.1, ?_⟩, hx⟩
    unfold INVENTORY_SLOT_BAG_START INVENTORY_SLOT_BAG_END at *
    omega

variable (p pProto pItem bag) in
/-- The bag that was asked for takes the item. -/
def BagGiven : Prop := p.isFullBag pItem = false ∧ bag ≠ NULL_BAG ∧ p.bagTakes pProto pItem bag = true

theorem visits_searchBag (merge swap : Bool) :
    Visits (p.room pProto pItem swap ⟨bag, slot⟩) total noSimilarCount
      (p.searchBag pProto pItem bag slot noSimilarCount merge)
      {x | x ∈ p.bagSeen pProto pItem slot bag merge false NULL_BAG ∨ x ∈ p.bagSeen pProto pItem slot bag merge true NULL_BAG}
      (¬p.BagGiven pProto pItem bag) := by
  have hspecial : Looks (p.room pProto pItem swap ⟨bag, slot⟩) _ _ _ := looks_bag bag merge swap false NULL_BAG
  have hgeneral : Looks (p.room pProto pItem swap ⟨bag, slot⟩) _ _ _ := looks_bag bag merge swap true NULL_BAG
  refine (hspecial.orElse hgeneral ?_ ?_).must.congr (fun x => ?_) ?_
  · rintro ⟨_, _, _, hkind⟩ x ⟨⟨_, _, _, hkind'⟩, _⟩
    rw [← hkind] at hkind'
    cases hkind'
  · rintro hnot x ⟨hsearched, _⟩
    exact absurd hsearched hnot
  · constructor
    · rintro (hx | hx)
      · exact ⟨.inl hx.1, .inl hx⟩
      · exact ⟨.inr hx.1, .inr hx⟩
    · rintro ⟨_, hx⟩
      exact hx
  · rintro hnot ⟨hfull, hnull, htakes⟩
    cases hkind : p.isGeneralBag bag with
    | false => exact hnot (.inl ⟨hfull, hnull, htakes, hkind.symm⟩)
    | true => exact hnot (.inr ⟨hfull, hnull, htakes, hkind.symm⟩)

section Seen

variable (p pProto pItem bag slot)

/-- What the searches where it was asked for look at. -/
def specificBagSeen : Set Pos :=
  {x | (bag = INVENTORY_SLOT_BAG_0 ∧
      ((pProto.stackable ≠ 1 ∧ (x ∈ p.slotsSeen pProto pItem bag slot KEYRING_SLOT_START CURRENCYTOKEN_SLOT_END true ∨
          x ∈ p.slotsSeen pProto pItem bag slot INVENTORY_SLOT_ITEM_START INVENTORY_SLOT_ITEM_END true)) ∨
        (pProto.isKey = true ∧
          (x ∈ p.slotsSeen pProto pItem bag slot KEYRING_SLOT_START (KEYRING_SLOT_START + getMaxKeyringSize) false ∨
            x ∈ p.slotsSeen pProto pItem bag slot CURRENCYTOKEN_SLOT_START CURRENCYTOKEN_SLOT_END false)) ∨
        (¬pProto.isKey = true ∧ pProto.isCurrencyToken = true ∧
          x ∈ p.slotsSeen pProto pItem bag slot CURRENCYTOKEN_SLOT_START CURRENCYTOKEN_SLOT_END false) ∨
        x ∈ p.slotsSeen pProto pItem bag slot INVENTORY_SLOT_ITEM_START INVENTORY_SLOT_ITEM_END false)) ∨
    (¬bag = INVENTORY_SLOT_BAG_0 ∧
      ((pProto.stackable ≠ 1 ∧ (x ∈ p.bagSeen pProto pItem slot bag true false NULL_BAG ∨
          x ∈ p.bagSeen pProto pItem slot bag true true NULL_BAG)) ∨
        x ∈ p.bagSeen pProto pItem slot bag false false NULL_BAG ∨ x ∈ p.bagSeen pProto pItem slot bag false true NULL_BAG))}

/-- What the search for stacks looks at. -/
def stacksSeen : Set Pos :=
  {x | pProto.stackable ≠ 1 ∧ (x ∈ p.slotsSeen pProto pItem bag slot KEYRING_SLOT_START CURRENCYTOKEN_SLOT_END true ∨
    x ∈ p.slotsSeen pProto pItem bag slot INVENTORY_SLOT_ITEM_START INVENTORY_SLOT_ITEM_END true ∨
    (pProto.bagFamily ≠ 0 ∧ x ∈ p.bagsSeen pProto pItem bag slot true false) ∨ x ∈ p.bagsSeen pProto pItem bag slot true true)}

/-- What the search in the bags for the kind of the item looks at. -/
def specialBagsSeen : Set Pos :=
  {x | pProto.bagFamily ≠ 0 ∧
    ((pProto.isKey = true ∧
        x ∈ p.slotsSeen pProto pItem bag slot KEYRING_SLOT_START (KEYRING_SLOT_START + getMaxKeyringSize) false) ∨
      (¬pProto.isKey = true ∧ pProto.isCurrencyToken = true ∧
        x ∈ p.slotsSeen pProto pItem bag slot CURRENCYTOKEN_SLOT_START CURRENCYTOKEN_SLOT_END false) ∨
      x ∈ p.bagsSeen pProto pItem bag slot false false)}

/-- What the search for free slots looks at. -/
def freeSlotsSeen : Set Pos :=
  {x | x ∈ p.slotsSeen pProto pItem bag slot INVENTORY_SLOT_ITEM_START INVENTORY_SLOT_ITEM_END false ∨
    x ∈ p.bagsSeen pProto pItem bag slot false true}

end Seen

theorem visits_specificBag (swap : Bool) :
    Visits (p.room pProto pItem swap ⟨bag, slot⟩) total noSimilarCount (p.searchSpecificBag pProto pItem bag slot noSimilarCount)
      (p.specificBagSeen pProto pItem bag slot)
      (p.isFullBag pItem = true ∨ (¬bag = INVENTORY_SLOT_BAG_0 ∧ ¬p.BagGiven pProto pItem bag)) := by
  have hslots := @visits_searchSlots p pProto pItem bag slot noSimilarCount total
  have hbag := @visits_searchBag p pProto pItem bag slot noSimilarCount total
  have hstacks := Visits.ite (c := pProto.stackable ≠ 1)
    (Visits.ite (c := bag = INVENTORY_SLOT_BAG_0)
      ((hslots KEYRING_SLOT_START CURRENCYTOKEN_SLOT_END true swap).bind
        (hslots INVENTORY_SLOT_ITEM_START INVENTORY_SLOT_ITEM_END true swap))
      (hbag true swap)) .none
  have hfamily := Visits.ite (c := pProto.isKey = true)
    ((hslots KEYRING_SLOT_START (KEYRING_SLOT_START + getMaxKeyringSize) false swap).bind
      (hslots CURRENCYTOKEN_SLOT_START CURRENCYTOKEN_SLOT_END false swap))
    (Visits.ite (c := pProto.isCurrencyToken = true) (hslots CURRENCYTOKEN_SLOT_START CURRENCYTOKEN_SLOT_END false swap) .none)
  have hfree := Visits.ite (c := bag = INVENTORY_SLOT_BAG_0)
    (hfamily.bind (hslots INVENTORY_SLOT_ITEM_START INVENTORY_SLOT_ITEM_END false swap)) (hbag false swap)
  refine (hstacks.bind hfree).congr (fun x => ?_) ?_
  · simp only [specificBagSeen, Set.mem_union, Set.mem_ofPred_eq, Set.mem_empty_iff_false, and_false, or_false]
    by_cases hown : bag = INVENTORY_SLOT_BAG_0
    · simp only [hown, true_and, not_true, false_and, or_false, or_assoc]
    · simp only [hown, false_and, not_false_iff, true_and, false_or]
  · by_cases hown : bag = INVENTORY_SLOT_BAG_0
    · simp only [hown, true_and, not_true, false_and, or_false, and_false, or_self]
      tauto
    · simp only [hown, false_and, not_false_iff, true_and, false_or, and_false, or_false]
      tauto

theorem visits_stacks (swap : Bool) :
    Visits (p.room pProto pItem swap ⟨bag, slot⟩) total noSimilarCount (p.searchStacks pProto pItem bag slot noSimilarCount)
      (p.stacksSeen pProto pItem bag slot) (p.isFullBag pItem = true) := by
  have hslots := @visits_searchSlots p pProto pItem bag slot noSimilarCount total
  have hbags := @visits_searchBags p pProto pItem bag slot noSimilarCount total
  have hstacks := Visits.ite (c := pProto.stackable ≠ 1)
    ((hslots KEYRING_SLOT_START CURRENCYTOKEN_SLOT_END true swap).bind
      ((hslots INVENTORY_SLOT_ITEM_START INVENTORY_SLOT_ITEM_END true swap).bind
        ((Visits.ite (c := pProto.bagFamily ≠ 0) (hbags true false swap) .none).bind (hbags true true swap)))) .none
  refine hstacks.congr (fun x => ?_) ?_
  · simp only [stacksSeen, Set.mem_union, Set.mem_ofPred_eq, Set.mem_empty_iff_false]
    tauto
  · tauto

theorem visits_specialBags (swap : Bool) :
    Visits (p.room pProto pItem swap ⟨bag, slot⟩) total noSimilarCount (p.searchSpecialBags pProto pItem bag slot noSimilarCount)
      (p.specialBagsSeen pProto pItem bag slot) (p.isFullBag pItem = true) := by
  have hslots := @visits_searchSlots p pProto pItem bag slot noSimilarCount total
  have hbags := @visits_searchBags p pProto pItem bag slot noSimilarCount total
  have hfamily := Visits.ite (c := pProto.isKey = true)
    (hslots KEYRING_SLOT_START (KEYRING_SLOT_START + getMaxKeyringSize) false swap)
    (Visits.ite (c := pProto.isCurrencyToken = true) (hslots CURRENCYTOKEN_SLOT_START CURRENCYTOKEN_SLOT_END false swap) .none)
  refine (Visits.ite (c := pProto.bagFamily ≠ 0) (hfamily.bind (hbags false false swap)) .none).congr (fun x => ?_) ?_
  · simp only [specialBagsSeen, Set.mem_union, Set.mem_ofPred_eq, Set.mem_empty_iff_false]
    tauto
  · tauto

theorem visits_freeSlots (swap : Bool) :
    Visits (p.room pProto pItem swap ⟨bag, slot⟩) total noSimilarCount (p.searchFreeSlots pProto pItem bag slot noSimilarCount)
      (p.freeSlotsSeen pProto pItem bag slot) (p.isFullBag pItem = true) := by
  have hsearch := (@visits_searchSlots p pProto pItem bag slot noSimilarCount total INVENTORY_SLOT_ITEM_START
    INVENTORY_SLOT_ITEM_END false swap).bind (@visits_searchBags p pProto pItem bag slot noSimilarCount total false true swap)
  intro visited f hf
  rw [searchFreeSlots]
  split
  next hfull => exact .inr ⟨hfull, InventoryResult.noConfusion⟩
  next =>
  refine hsearch.congr (fun x => ?_) ?_ visited f hf
  · rfl
  · rw [or_false]
    exact id

variable (p pProto pItem) in
/-- The slot that was asked for takes the item, or some of it. -/
def SlotGiven (swap : Bool) (pos : Pos) : Prop :=
  ¬(p.isFullBag pItem && !isBagPos pos) = true ∧
    match p.itemBesides pItem pos with
    | none => p.fitsSlot pos pProto = true
    | some pItem2 => if swap = true then p.fitsSlot pos pProto = true else pItem2.canBeMergedPartlyWith pProto = .ok

theorem looks_specificSlot (swap : Bool) :
    Looks (p.room pProto pItem swap pos) (fun f => p.canStoreItem_InSpecificSlot pos pProto swap pItem f)
      (p.SlotGiven pProto pItem swap pos) {pos} := by
  have hplace : ∀ {total : Nat} {visited : Set Pos} {f : Fill Pos} {space : Nat},
      f.Full (p.room pProto pItem swap pos) total visited → space = p.room pProto pItem swap pos pos → 0 < space →
        (f.place pos space).Full (p.room pProto pItem swap pos) total (visited ∪ {pos}) ∨
          ((f.place pos space).count = 0 ∧
            Fill.Done (p.room pProto pItem swap pos) total (visited ∪ {pos}) (f.place pos space).dest) := by
    intro total visited f space hf hspace hpos
    rw [Set.union_singleton]
    subst hspace
    exact hf.place hpos
  constructor
  · intro f hnot
    rw [canStoreItem_InSpecificSlot]
    split
    next => exact ⟨InventoryResult.noConfusion, rfl⟩
    next hfull =>
    cases hbesides : p.itemBesides pItem pos with
    | none =>
      simp only
      split
      next hfits => exact absurd ⟨hfull, by rw [hbesides]; exact hfits⟩ hnot
      next => exact ⟨InventoryResult.noConfusion, rfl⟩
    | some pItem2 =>
      simp only
      split
      next hswap =>
        split
        next hfits => exact absurd ⟨hfull, by rw [hbesides]; exact (if_pos hswap).mpr hfits⟩ hnot
        next => exact ⟨InventoryResult.noConfusion, rfl⟩
      next hswap =>
      split
      next hmerge => exact ⟨hmerge, rfl⟩
      next hmerge => exact absurd ⟨hfull, by rw [hbesides]; exact (if_neg hswap).mpr (not_not.1 hmerge)⟩ hnot
  · rintro ⟨hfull, hgiven⟩ total visited f hf
    rw [canStoreItem_InSpecificSlot, if_neg hfull]
    have hswapped : swap = true → p.room pProto pItem swap pos pos = pProto.getMaxStackSize := by
      intro hswap
      rw [room, if_pos ⟨hswap, rfl⟩]
    cases hbesides : p.itemBesides pItem pos with
    | none =>
      rw [hbesides] at hgiven
      simp only at hgiven ⊢
      rw [if_pos hgiven]
      refine ⟨rfl, hplace hf ?_ pProto.getMaxStackSize_pos⟩
      rw [room, hbesides, ite_self]
    | some pItem2 =>
      rw [hbesides] at hgiven
      simp only at hgiven ⊢
      split
      next hswap =>
        rw [if_pos hswap] at hgiven
        rw [if_pos hgiven]
        exact ⟨rfl, hplace hf (hswapped hswap).symm pProto.getMaxStackSize_pos⟩
      next hswap =>
      rw [if_neg hswap] at hgiven
      rw [if_neg (not_not.2 hgiven)]
      refine ⟨rfl, hplace hf ?_ (Nat.sub_pos_of_lt (Item.lt_of_canBeMerged hgiven).2.2)⟩
      rw [room, if_neg fun h => hswap h.1, hbesides]
      exact (if_pos hgiven).symm

section Seen

variable (p pProto pItem bag slot)

/-- All that the cascade looks at. -/
def seen (swap : Bool) : Set Pos :=
  {x | ((bag ≠ NULL_BAG ∧ slot ≠ NULL_SLOT) ∧ p.SlotGiven pProto pItem swap ⟨bag, slot⟩ ∧ x = ⟨bag, slot⟩) ∨
    (bag ≠ NULL_BAG ∧ x ∈ p.specificBagSeen pProto pItem bag slot) ∨ x ∈ p.stacksSeen pProto pItem bag slot ∨
    x ∈ p.specialBagsSeen pProto pItem bag slot ∨ x ∈ p.freeSlotsSeen pProto pItem bag slot}

/-- The place that was asked for, if any, does not take the item, or it is a bag that is not empty. -/
def Refused (swap : Bool) : Prop :=
  ((bag ≠ NULL_BAG ∧ slot ≠ NULL_SLOT) ∧ ¬p.SlotGiven pProto pItem swap ⟨bag, slot⟩) ∨ p.isFullBag pItem = true ∨
    (bag ≠ NULL_BAG ∧ ¬bag = INVENTORY_SLOT_BAG_0 ∧ ¬p.BagGiven pProto pItem bag)

end Seen

theorem visits_searchAll (swap : Bool) :
    Visits (p.room pProto pItem swap ⟨bag, slot⟩) total noSimilarCount (p.searchAll pProto pItem bag slot noSimilarCount swap)
      (p.seen pProto pItem bag slot swap) (p.Refused pProto pItem bag slot swap) := by
  have hslot := Visits.ite (c := bag ≠ NULL_BAG ∧ slot ≠ NULL_SLOT)
    (@Looks.must _ total noSimilarCount _ _ _ (@looks_specificSlot p pProto pItem ⟨bag, slot⟩ swap)) .none
  have hbag := Visits.ite (c := bag ≠ NULL_BAG) (@visits_specificBag p pProto pItem bag slot noSimilarCount total swap) .none
  refine (hslot.bind (hbag.bind ((visits_stacks swap).bind ((visits_specialBags swap).bind (visits_freeSlots swap))))).congr
    (fun x => ?_) ?_
  · simp only [seen, Set.mem_union, Set.mem_ofPred_eq, Set.mem_empty_iff_false, Set.mem_singleton_iff, and_false, or_false]
  · rw [Refused]
    tauto

end Cascade

end Player

end AtlasWow.Storage
