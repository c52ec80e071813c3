/-
What `CanStoreItem` answers can be done: the slots of the list have room for
their parts once the item, and one it is swapped with, is out of its slot, and
`StoreItem` stores just what was asked for (`canStoreItem_storeItem`).

Two items are the same if they have the same guid.
-/
import AtlasWow.Entities.StoreItem

namespace AtlasWow.Storage

theorem StoreResult.finish_dest (noSimilarCount : Nat) (f : Fill Pos) : (finish noSimilarCount f).dest = f.dest := by
  rw [finish]
  split <;> rfl

namespace Player

/-- The player without the item that is in a slot, and without the one that is swapped. -/
def takenOut (p : Player) (src : Option Pos) (swap : Bool) (bag slot : Nat) : Player :=
  let p := src.elim p p.removeItem
  if swap = true ∧ bag ≠ NULL_BAG ∧ slot ≠ NULL_SLOT then p.removeItem ⟨bag, slot⟩ else p

/-- Slots for a number of units: they are different, have the units together, and each is free, or is that of the item, or was asked
for in a swap, or has a stack with enough room. -/
structure Answer (p : Player) (pProto : ItemTemplate) (src : Option Pos) (swap : Bool) (requested : Pos) (count : Nat)
    (dest : List (Pos × Nat)) : Prop where
  nodup : (dest.map Prod.fst).Nodup
  sum : (dest.map Prod.snd).sum = count
  place : ∀ e ∈ dest, e.1 ∈ p.storagePlaces
  pos : ∀ e ∈ dest, 0 < e.2
  room : ∀ e ∈ dest, p.getItemByPos e.1 = none ∨ src = some e.1 ∨ (swap = true ∧ e.1 = requested) ∨
    ∃ item, p.getItemByPos e.1 = some item ∧ item.canBeMergedPartlyWith pProto = .ok ∧ item.getEntry = pProto.itemId ∧
      item.count + e.2 ≤ pProto.getMaxStackSize

/-- A number of units was stored: each slot has its part of them more, in a stack that is not too large, and nothing else changed, but that
a bag has its own contents. -/
structure Conserved (p : Player) (pProto : ItemTemplate) (contents : Nat → Option Item) (count : Nat) (dest : List (Pos × Nat))
    (p' : Player) : Prop where
  parts : ∀ e ∈ dest, ∃ item, p'.getItemByPos e.1 = some item ∧ item.getEntry = pProto.itemId ∧ item.count = p.units e.1 + e.2 ∧
    item.count ≤ pProto.getMaxStackSize
  total : (dest.map fun e => p'.units e.1).sum = (dest.map fun e => p.units e.1).sum + count
  others : ∀ q, q ∉ dest.map Prod.fst → p'.getItemByPos q = p.getItemByPos q ∨
    ((∃ e ∈ dest, q.Inside e.1) ∧ p.getItemByPos q = none ∧ p'.getItemByPos q = contents q.slot)

variable {p : Player} {pProto : ItemTemplate} {pItem : Option Item} {item : Item} {src : Option Pos}
  {bag slot count nextGuid noSimilarCount : Nat} {swap : Bool} {pos x : Pos} {isBindedNotWith : Item → Bool}
  {similar : Option (InventoryResult × Nat)} {dest : List (Pos × Nat)}

/-! ## The answer -/

/-- What is looked at: the slot that was asked for, slots of the player, and bags that the item may go into. -/
theorem seen_cases (h : x ∈ p.seen pProto pItem bag slot swap) : x = ⟨bag, slot⟩ ∨ x.bag = INVENTORY_SLOT_BAG_0 ∨
    p.bagTakes pProto pItem x.bag = true := by
  by_contra hno
  rw [not_or, not_or] at hno
  obtain ⟨hne, hbag, htakes⟩ := hno
  have hnever : ∀ {i merge nonSpecialized skipBag}, x ∉ p.bagSeen pProto pItem slot i merge nonSpecialized skipBag :=
    fun hx => htakes (hx.2.1 ▸ hx.1.2.2.1)
  simp only [seen, specificBagSeen, stacksSeen, specialBagsSeen, freeSlotsSeen, bagsSeen, Set.mem_ofPred_eq,
    not_mem_slotsSeen hbag, hnever, hne, and_false, or_false] at h

/-- All of it is there. -/
theorem mem_storagePlaces_of_seen (h : x ∈ p.seen pProto pItem bag slot swap) : x ∈ p.storagePlaces := by
  by_contra hno
  have hgiven : ¬(p.SlotGiven pProto pItem swap ⟨bag, slot⟩ ∧ x = ⟨bag, slot⟩) := fun hx => hno (hx.2 ▸ hx.1.mem_storagePlaces)
  have hbags : ∀ {i merge nonSpecialized skipBag}, x ∉ p.bagSeen pProto pItem slot i merge nonSpecialized skipBag :=
    fun hx => hno (mem_storagePlaces.2 (.inr (hx.2.1 ▸ hx.2.2.1)))
  have hslots : ∀ slotBegin slotEnd, (∀ i, slotBegin ≤ i → i < slotEnd → isOwnSlot i = true) → ∀ merge,
      x ∉ p.slotsSeen pProto pItem bag slot slotBegin slotEnd merge := by
    intro slotBegin slotEnd hown merge hx
    obtain ⟨hbag, hbegin, hend⟩ := mem_ownPlaces.1 hx.2.1
    exact hno (mem_storagePlaces.2 (.inl ⟨hbag, hown _ hbegin hend⟩))
  have hown : ∀ i, isOwnSlot i = true ↔ i < BANK_SLOT_BAG_END ∨ (KEYRING_SLOT_START ≤ i ∧ i < CURRENCYTOKEN_SLOT_END) := by
    intro i
    simp [isOwnSlot]
  unfold BANK_SLOT_BAG_END at hown
  have hitems := hslots INVENTORY_SLOT_ITEM_START INVENTORY_SLOT_ITEM_END fun i _ hi => (hown i).2 (.inl (hi.trans (by decide)))
  have hkeyring := hslots KEYRING_SLOT_START CURRENCYTOKEN_SLOT_END fun i hi hi' => (hown i).2 (.inr ⟨hi, hi'⟩)
  have hkeys := hslots KEYRING_SLOT_START (KEYRING_SLOT_START + getMaxKeyringSize) fun i hi hi' =>
    (hown i).2 (.inr ⟨hi, hi'.trans (by decide)⟩)
  have htokens := hslots CURRENCYTOKEN_SLOT_START CURRENCYTOKEN_SLOT_END fun i hi hi' =>
    (hown i).2 (.inr ⟨le_trans (by decide) hi, hi'⟩)
  simp only [seen, specificBagSeen, stacksSeen, specialBagsSeen, freeSlotsSeen, bagsSeen, Set.mem_ofPred_eq,
    hbags, hitems, hkeyring, hkeys, htokens, hgiven, and_false, or_false] at h

/-- A swap takes the one slot that was asked for. -/
theorem search_swapped (hasked : bag ≠ NULL_BAG ∧ slot ≠ NULL_SLOT) (hle : count ≤ pProto.getMaxStackSize)
    (hok : (p.search bag slot [] pProto count noSimilarCount pItem true).result = .ok) :
    (p.search bag slot [] pProto count noSimilarCount pItem true).dest = [(⟨bag, slot⟩, count)] := by
  have hplace : (⟨[], count⟩ : Fill Pos).place ⟨bag, slot⟩ pProto.getMaxStackSize = ⟨[(⟨bag, slot⟩, count)], 0⟩ := by
    rw [Fill.place, Nat.min_eq_right hle, Nat.sub_self]
    exact if_neg List.not_mem_nil
  have hspecific : p.canStoreItem_InSpecificSlot ⟨bag, slot⟩ pProto true pItem ⟨[], count⟩ =
        (.ok, ⟨[(⟨bag, slot⟩, count)], 0⟩) ∨
      (p.canStoreItem_InSpecificSlot ⟨bag, slot⟩ pProto true pItem ⟨[], count⟩).1 ≠ .ok := by
    rw [canStoreItem_InSpecificSlot]
    split
    next => exact .inr InventoryResult.noConfusion
    next =>
    simp only [if_true, hplace]
    cases p.itemBesides pItem ⟨bag, slot⟩ <;> simp only <;> split
    · exact .inl rfl
    · exact .inr InventoryResult.noConfusion
    · exact .inl rfl
    · exact .inr InventoryResult.noConfusion
  rw [search, searchAll, if_pos hasked] at hok ⊢
  rcases hspecific with hspecific | hbad
  · rw [hspecific]
    rw [must, if_neg (not_not.2 rfl), if_pos rfl]
    exact StoreResult.finish_dest _ _
  · rw [must, if_pos hbad] at hok
    exact absurd hok hbad

/-- An item that may be stored passed all checks, and the search for slots for all of it ended well. -/
theorem canStoreItem_eq_search (hcount : 0 < count) (hmax : count < 2 ^ 32)
    (hsimilar : ∀ res n, similar = some (res, n) → res ≠ .ok ∧ n < 2 ^ 32)
    (hok : (p.canStoreItem bag slot [] (some pProto) count pItem isBindedNotWith similar swap).result = .ok) :
    (p.canStoreItem bag slot [] (some pProto) count pItem isBindedNotWith similar swap) =
      p.search bag slot [] pProto count 0 pItem swap := by
  unfold canStoreItem at hok ⊢
  simp only at hok ⊢
  split at hok
  next => cases hok
  next hloot =>
  split at hok
  next => cases hok
  next hbound =>
  rw [if_neg hloot, if_neg hbound]
  cases similar with
  | none => rfl
  | some s =>
    obtain ⟨res, n⟩ := s
    obtain ⟨hres, hn⟩ := hsimilar res n rfl
    simp only at hok ⊢
    split at hok
    next => exact absurd hok hres
    next hne =>
    -- something can be taken, so all of it has to be
    rw [if_neg hne]
    have hpos : 0 < (count + 2 ^ 32 - n) % 2 ^ 32 := by omega
    have hall : n = 0 := by
      rcases search_spec hpos p bag slot pProto n pItem swap with ⟨_, hiff⟩ | ⟨hnot, _⟩
      · exact hiff.1 hok
      · exact absurd hok hnot
    subst hall
    rw [Nat.sub_zero, Nat.add_mod_right, Nat.mod_eq_of_lt hmax]

section Moved

variable (hitem : (pItem = none ∧ src = none) ∨ pItem = some item)
  (hsrc : ∀ q, src = some q ↔ ∃ item', p.getItemByPos q = some item' ∧ item'.guid = item.guid)

include hitem hsrc

/-- The slot of the item itself is free, and no other one is because of it. -/
theorem itemBesides_none (h : p.itemBesides pItem pos = none) : p.getItemByPos pos = none ∨ src = some pos := by
  cases hpos : p.getItemByPos pos with
  | none => exact .inl rfl
  | some item' =>
    refine .inr ((hsrc pos).2 ⟨item', hpos, ?_⟩)
    rw [itemBesides, hpos, Option.filter_eq_none_iff] at h
    have hsame := h item' rfl
    rcases hitem with ⟨hnone, _⟩ | hsome
    · simp [hnone] at hsame
    · simp [hsome] at hsame
      exact hsame.symm

/-- Where the search ended well, its slots have room. -/
theorem Answer.of_done (h : Fill.Done (p.room pProto pItem swap ⟨bag, slot⟩) count (p.seen pProto pItem bag slot swap) dest) :
    p.Answer pProto src swap ⟨bag, slot⟩ count dest := by
  refine ⟨h.nodup, h.sum, fun e he => mem_storagePlaces_of_seen (h.taken e he).1, fun e he => (h.taken e he).2.2, fun e he => ?_⟩
  obtain ⟨_, hle, hpos⟩ := h.taken e he
  rw [Player.room] at hle
  split at hle
  next hswap => exact .inr (.inr (.inl hswap))
  next =>
  cases hbesides : p.itemBesides pItem e.1 with
  | none => exact (itemBesides_none hitem hsrc hbesides).imp_right .inl
  | some item2 =>
    rw [hbesides] at hle
    simp only at hle
    split at hle
    next hmerge =>
      obtain ⟨_, hentry, hlt⟩ := Item.lt_of_canBeMerged hmerge
      exact .inr (.inr (.inr ⟨item2, (Option.filter_eq_some_iff.1 hbesides).1, hmerge, hentry, by omega⟩))
    next => omega

/-- Nothing that is looked at is in the item itself. -/
theorem not_inside_src (hself : ∀ q, src = some q → ¬Pos.Inside ⟨bag, slot⟩ q) (h : x ∈ p.seen pProto pItem bag slot swap) {q : Pos}
    (hq : src = some q) : ¬x.Inside q := by
  intro hin
  obtain ⟨item', hitem', hguid⟩ := (hsrc q).1 hq
  rcases seen_cases h with rfl | hbag | htakes
  · exact hself q hq hin
  · rcases getItemByPos_cases hitem' with ⟨_, hown, _⟩ | ⟨hne, _⟩
    · rw [← hin.2, hbag] at hown
      cases hown
    · exact hne hin.1
  · rw [bagTakes, Option.any_eq_true] at htakes
    obtain ⟨pBag, hpBag, htakes⟩ := htakes
    rw [getBagByPos_eq] at hpBag
    split at hpBag
    next =>
      obtain ⟨bag', slot'⟩ := q
      obtain ⟨hown, hslot⟩ := hin
      simp only at hown hslot
      subst hown
      rw [hslot, hitem'] at hpBag
      obtain ⟨hpBag, _⟩ := Option.filter_eq_some_iff.1 hpBag
      cases hpBag
      rcases hitem with ⟨_, hnone⟩ | hsome
      · rw [hnone] at hq
        cases hq
      · rw [hsome] at htakes
        simp [hguid] at htakes
    next => cases hpBag

end Moved

/-! ## The items are taken out -/

/-- An emptied slot is empty, and so are the slots of a bag that was in it. -/
theorem getItemByPos_removeItem (hin : ¬x.Inside pos) :
    (p.removeItem pos).getItemByPos x = if x = pos then none else p.getItemByPos x := by
  rw [removeItem]
  split
  next hnone =>
    split
    next he => rw [he, hnone]
    next => rfl
  next item' hitem =>
  rw [getItemByPos_clear hitem]
  simp only [hin, or_false]

theorem getBagByPos_removeItem (hne : (⟨INVENTORY_SLOT_BAG_0, bag⟩ : Pos) ≠ pos) :
    (p.removeItem pos).getBagByPos bag = p.getBagByPos bag := by
  rw [removeItem]
  split
  next => rfl
  next item' hitem =>
  have hin : ¬Pos.Inside ⟨INVENTORY_SLOT_BAG_0, bag⟩ pos := by
    intro hin
    rcases getItemByPos_cases hitem with ⟨_, hown, _⟩ | ⟨hown, _⟩
    · rw [← hin.2] at hown
      cases hown
    · exact hown hin.1
  rw [getBagByPos_eq, getBagByPos_eq, getItemByPos_clear hitem, if_neg (not_or.2 ⟨hne, hin⟩)]

theorem Place.removeItem (h : p.Place item nextGuid x) (hin : ¬x.Inside pos) : (p.removeItem pos).Place item nextGuid x := by
  rcases h with hown | ⟨pBag, hpBag, hlt, hself, hold⟩
  · exact .inl hown
  refine .inr ⟨pBag, ?_, hlt, hself, hold⟩
  rw [getBagByPos_removeItem fun he => hin ?_, hpBag]
  subst he
  exact ⟨rfl, rfl⟩

section Moved

variable (hsrc : ∀ q, src = some q ↔ ∃ item', p.getItemByPos q = some item' ∧ item'.guid = item.guid)
  (hguids : ∀ q item', p.getItemByPos q = some item' → item'.guid < nextGuid)

include hsrc hguids

/-- A slot that is not in the item itself is still there when the item is taken out. -/
theorem Place.of_mem_storagePlaces (h : x ∈ p.storagePlaces) (hout : ∀ q, src = some q → ¬x.Inside q) : p.Place item nextGuid x := by
  rcases mem_storagePlaces.1 h with hown | ⟨pBag, hpBag, hlt⟩
  · exact .inl hown
  have hbag := hpBag
  rw [getBagByPos_eq] at hbag
  split at hbag
  next =>
    have hitem := (Option.filter_eq_some_iff.1 hbag).1
    exact .inr ⟨pBag, hpBag, hlt, fun hguid => hout _ ((hsrc _).2 ⟨pBag, hitem, hguid⟩) ⟨rfl, rfl⟩, hguids _ _ hitem⟩
  next => cases hbag

/-- With the items out of their slots, the slots of the answer take what they are given. -/
theorem Answer.takes (h : p.Answer pProto src swap ⟨bag, slot⟩ count dest) (htemplate : item.template = pProto)
    (hle : count ≤ pProto.getMaxStackSize) (hout : ∀ e ∈ dest, ∀ q, src = some q → ¬e.1.Inside q)
    (hasked : ∀ e ∈ dest, e.1 = ⟨bag, slot⟩ → bag ≠ NULL_BAG ∧ slot ≠ NULL_SLOT)
    (hswapped : swap = true → bag ≠ NULL_BAG ∧ slot ≠ NULL_SLOT → dest = [(⟨bag, slot⟩, count)]) {e : Pos × Nat} (he : e ∈ dest) :
    (p.takenOut src swap bag slot).Takes item nextGuid e := by
  have hplace := Place.of_mem_storagePlaces hsrc hguids (h.place e he) (hout e he)
  have hfits : e.2 ≤ item.template.getMaxStackSize := by
    rw [htemplate]
    exact (List.le_sum_of_mem (List.mem_map_of_mem he)).trans (h.sum.le.trans hle)
  -- without the item itself
  obtain ⟨p₁, hp₁, hplace₁, hitem₁⟩ : ∃ p₁ : Player, src.elim p p.removeItem = p₁ ∧ p₁.Place item nextGuid e.1 ∧
      p₁.getItemByPos e.1 = if src = some e.1 then none else p.getItemByPos e.1 := by
    cases src with
    | none => exact ⟨p, rfl, hplace, rfl⟩
    | some q =>
      refine ⟨p.removeItem q, rfl, hplace.removeItem (hout e he q rfl), ?_⟩
      rw [getItemByPos_removeItem (hout e he q rfl)]
      simp only [Option.some.injEq, eq_comm]
  rw [takenOut, hp₁]
  have hself : ¬e.1.Inside e.1 := fun hin => by
    have hown := hplace.own hin.1
    rw [← hin.2, hin.1] at hown
    cases hown
  split
  next hswap =>
    -- without the item that is swapped too: its slot takes all
    have hone := hswapped hswap.1 hswap.2
    rw [hone, List.mem_singleton] at he
    have hgone : (p₁.removeItem ⟨bag, slot⟩).getItemByPos e.1 = none := by
      subst he
      rw [getItemByPos_removeItem hself, if_pos rfl]
    have hplace₀ : (p₁.removeItem ⟨bag, slot⟩).Place item nextGuid e.1 := hplace₁.removeItem (by rw [he] at hself ⊢; exact hself)
    refine ⟨hplace₀, h.pos e (by rw [hone, he]; exact List.mem_cons_self), fun item' hitem' => ?_, ?_⟩
    · cases hgone.symm.trans hitem'
    · rw [units, hgone, Option.elim_none, Nat.zero_add]
      exact hfits
  next hswap =>
  by_cases hfree : p₁.getItemByPos e.1 = none
  · refine ⟨hplace₁, h.pos e he, fun item' hitem' => ?_, ?_⟩
    · cases hfree.symm.trans hitem'
    · rw [units, hfree, Option.elim_none, Nat.zero_add]
      exact hfits
  rw [hitem₁] at hfree
  split at hfree
  next => exact absurd rfl hfree
  next hsrc' =>
  rw [if_neg hsrc'] at hitem₁
  rcases h.room e he with hnone | hown | hrequested | ⟨item', hitem', _, hentry, hroom⟩
  · exact absurd hnone hfree
  · exact absurd hown hsrc'
  · exact absurd ⟨hrequested.1, hasked e he hrequested.2⟩ hswap
  · rw [hitem'] at hitem₁
    refine ⟨hplace₁, h.pos e he, fun item'' hitem'' => ?_, ?_⟩
    · cases hitem₁.symm.trans hitem''
      rw [hentry, ← htemplate]
      rfl
    · rw [units, hitem₁, Option.elim_some, htemplate]
      exact hroom

end Moved

/-! ## What is answered can be done -/

theorem getMaxStackSize_lt (h : pProto.stackable < 2 ^ 31) : pProto.getMaxStackSize < 2 ^ 32 := by
  rw [ItemTemplate.getMaxStackSize]
  split
  next => decide
  next => omega

/-- What slots can take is stored there, and that is all. -/
theorem conserved_storeItem (hmax : item.template.getMaxStackSize < 2 ^ 32) (contents : Nat → Option Item)
    (hnodup : (dest.map Prod.fst).Nodup) (hsum : (dest.map Prod.snd).sum = count) (htakes : ∀ e ∈ dest, p.Takes item nextGuid e) :
    p.Conserved item.template contents count dest (storeItem item contents dest nextGuid p) := by
  obtain ⟨hparts, hothers⟩ := storeItem_spec hmax contents dest nextGuid p hnodup htakes
  refine ⟨fun e he => ?_, ?_, hothers⟩
  · obtain ⟨item', hitem', hentry, hunits⟩ := hparts e he
    exact ⟨item', hitem', hentry, hunits, hunits.le.trans (htakes e he).room⟩
  · rw [← hsum, ← List.sum_map_add]
    refine congrArg List.sum (List.map_congr_left fun e he => ?_)
    obtain ⟨item', hitem', _, hunits⟩ := hparts e he
    rw [Player.units, hitem', Option.elim_some, hunits]

/-- If `CanStoreItem` answers that an item, new or from a slot, can be stored, then there is room for it in the slots of the list. `StoreItem`
stores it there once it was taken out of its slot, and so was what it is swapped with; but a bag cannot be stored in itself. -/
theorem canStoreItem_storeItem (p : Player) (item : Item) (pItem : Option Item) (src : Option Pos) (bag slot count nextGuid : Nat)
    (swap : Bool) (isBindedNotWith : Item → Bool) (similar : Option (InventoryResult × Nat)) (contents : Nat → Option Item)
    (hitem : (pItem = none ∧ src = none) ∨ pItem = some item)
    (hsrc : ∀ q, src = some q ↔ ∃ item', p.getItemByPos q = some item' ∧ item'.guid = item.guid)
    (hguids : ∀ q item', p.getItemByPos q = some item' → item'.guid < nextGuid) (hstack : item.template.stackable < 2 ^ 31)
    (hcount : 0 < count) (hle : count ≤ item.template.getMaxStackSize)
    (hsimilar : ∀ res n, similar = some (res, n) → res ≠ .ok ∧ n < 2 ^ 32)
    (hok : (p.canStoreItem bag slot [] (some item.template) count pItem isBindedNotWith similar swap).result = .ok) :
    p.Answer item.template src swap ⟨bag, slot⟩ count
        (p.canStoreItem bag slot [] (some item.template) count pItem isBindedNotWith similar swap).dest ∧
      ((∀ q, src = some q → ¬Pos.Inside ⟨bag, slot⟩ q) →
        (p.takenOut src swap bag slot).Conserved item.template contents count
          (p.canStoreItem bag slot [] (some item.template) count pItem isBindedNotWith similar swap).dest
          (storeItem item contents (p.canStoreItem bag slot [] (some item.template) count pItem isBindedNotWith similar swap).dest nextGuid
            (p.takenOut src swap bag slot))) := by
  have hmax := getMaxStackSize_lt hstack
  have hsearch := canStoreItem_eq_search hcount (hle.trans_lt hmax) hsimilar hok
  rw [hsearch] at hok ⊢
  rcases search_spec hcount p bag slot item.template 0 pItem swap with ⟨hdone, _⟩ | ⟨hnot, _⟩
  · have hanswer := Answer.of_done hitem hsrc hdone
    refine ⟨hanswer, fun hself => ?_⟩
    have hout : ∀ e ∈ (p.search bag slot [] item.template count 0 pItem swap).dest, ∀ q, src = some q → ¬e.1.Inside q :=
      fun e he q => not_inside_src hitem hsrc hself (hdone.taken e he).1
    have hasked : ∀ e ∈ (p.search bag slot [] item.template count 0 pItem swap).dest, e.1 = ⟨bag, slot⟩ →
        bag ≠ NULL_BAG ∧ slot ≠ NULL_SLOT := by
      intro e he hrequested
      have hseen := (hdone.taken e he).1
      rw [hrequested] at hseen
      exact (requested_mem_seen_iff.1 hseen).1
    have hswapped : swap = true → bag ≠ NULL_BAG ∧ slot ≠ NULL_SLOT →
        (p.search bag slot [] item.template count 0 pItem swap).dest = [(⟨bag, slot⟩, count)] := by
      rintro rfl hasked
      exact search_swapped hasked hle hok
    exact conserved_storeItem hmax contents hanswer.nodup hanswer.sum fun e he =>
      hanswer.takes hsrc hguids rfl hle hout hasked hswapped he
  · exact absurd hok hnot

end Player

/-! ## Potions for two bags -/

theorem twoBags_guids (q : Pos) (item : Item) (h : twoBags.getItemByPos q = some item) : item.guid < 30000 := by
  rcases Player.getItemByPos_cases h with ⟨_, _, hitem⟩ | ⟨_, _, b, hb, _, hlt, hitem⟩
  · simp only [twoBags] at hitem
    unfold INVENTORY_SLOT_ITEM_END at hitem
    split_ifs at hitem <;> cases hitem <;> simp only <;> omega
  have hsmall : (q.bag = 19 ∨ q.bag = 20) ∧ q.slot < 4 := by
    simp only [twoBags] at hb
    split_ifs at hb with hbags hitems
    · cases hb
      exact ⟨hbags, hlt⟩
    · cases hb
      exact absurd hlt (Nat.not_lt_zero _)
  simp only [twoBags] at hitem
  split_ifs at hitem <;> cases hitem <;> simp only <;> omega

/-- Ten new potions go to the others and to the free slot. -/
theorem storeItem_twoBags : (twoBags.takenOut none false NULL_BAG NULL_SLOT).Conserved potion (fun _ => none) 10
    [(⟨19, 2⟩, 5), (⟨20, 2⟩, 5)]
    (Player.storeItem ⟨30000, potion, 10, false, false⟩ (fun _ => none) [(⟨19, 2⟩, 5), (⟨20, 2⟩, 5)] 30001
      (twoBags.takenOut none false NULL_BAG NULL_SLOT)) := by
  have hanswer : twoBags.canStoreItem NULL_BAG NULL_SLOT [] (some potion) 10 none (fun _ => false) none false =
      ⟨.ok, [(⟨19, 2⟩, 5), (⟨20, 2⟩, 5)], none⟩ := by decide
  have hstored := (Player.canStoreItem_storeItem twoBags ⟨30000, potion, 10, false, false⟩ none none NULL_BAG NULL_SLOT 10 30001 false
    (fun _ => false) none (fun _ => none) (.inl ⟨rfl, rfl⟩)
    (fun q => ⟨fun h => (nomatch h), fun ⟨item, hitem, hguid⟩ => absurd hguid (twoBags_guids q item hitem).ne⟩)
    (fun q item h => (twoBags_guids q item h).trans (by decide)) (by decide) (by decide) (by decide) (fun _ _ h => (nomatch h))
    (congrArg StoreResult.result hanswer)).2 fun _ h => (nomatch h)
  rw [hanswer] at hstored
  exact hstored

/-- An empty bag that is worn, and a stone. -/
def oneBag : Player where
  items := fun i =>
    if i = 19 then some ⟨8, smallBag, 1, false, false⟩ else if i = 23 then some ⟨7, stone, 1, false, false⟩ else none
  bagItems := fun _ _ => none
  isCharmed := false
  isInCombat := false
  inArenaMatch := false

/-- For an item in the backpack its own slot may be answered, which is neither free nor has room. A bag may be stored in itself, and then
gets into the first slot for equipment. -/
theorem canStoreItem_own_slot :
    (oneBag.canStoreItem NULL_BAG NULL_SLOT [] (some stone) 1 (some ⟨7, stone, 1, false, false⟩) (fun _ => false) none false =
        ⟨.ok, [(⟨INVENTORY_SLOT_BAG_0, 23⟩, 1)], none⟩ ∧
      oneBag.getItemByPos ⟨INVENTORY_SLOT_BAG_0, 23⟩ = some ⟨7, stone, 1, false, false⟩ ∧
      Item.canBeMergedPartlyWith ⟨7, stone, 1, false, false⟩ stone ≠ .ok) ∧
    oneBag.canStoreItem 19 0 [] (some smallBag) 1 (some ⟨8, smallBag, 1, false, false⟩) (fun _ => false) none false =
        ⟨.ok, [(⟨19, 0⟩, 1)], none⟩ ∧
      (Player.storeItem ⟨8, smallBag, 1, false, false⟩ (fun _ => none) [(⟨19, 0⟩, 1)] 9
        (oneBag.takenOut (some ⟨INVENTORY_SLOT_BAG_0, 19⟩) false 19 0)).getItemByPos ⟨INVENTORY_SLOT_BAG_0, 0⟩ =
          some ⟨8, smallBag, 1, false, false⟩ := by
  refine ⟨⟨by decide, by decide, by decide⟩, by decide, by decide⟩

end AtlasWow.Storage
