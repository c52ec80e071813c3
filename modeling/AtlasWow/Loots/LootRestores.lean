/-
What a container offers after it has been stored: what was in it and has not
been taken (`Kept`), through takes, logins and restarts, if all of it could be
stored (`Storable`) and no two equal stacks are left when one is taken.
-/
import AtlasWow.Lib.OrderedMultimap
import AtlasWow.Loots.LootCount
import AtlasWow.Loots.LootItemStorage

namespace AtlasWow.Loots

variable {templates : Nat → Option ItemTemplate} {env : Env} {player viewer : Looter} {loot : Loot}

/-! The three forms of an item -/

/-- What is not stored of an item: nobody has won it, it is not looted, and it has no conditions. -/
structure LootItem.Bare (it : LootItem) : Prop where
  conditions : it.conditions = []
  winner : it.rollWinnerGUID = none
  unlooted : it.isLooted = false

theorem LootItem.ofStored_ofLootItem {it : LootItem} (h : it.Bare) : LootItem.ofStored (.ofLootItem it) = it := by
  obtain ⟨hconditions, hwinner, hunlooted⟩ := h
  cases it
  dsimp only at hconditions hwinner hunlooted
  subst hconditions hwinner hunlooted
  simp [LootItem.ofStored, StoredLootItem.ofLootItem]

/-- The restart loads into memory what was there. -/
@[simp] theorem StoredLootItem.ofLootItem_ofRow (it : LootItem) :
    StoredLootItem.ofLootItem (.ofRow (.ofLootItem it)) = .ofLootItem it := by
  simp [StoredLootItem.ofLootItem, LootItem.ofRow, LootItemRow.ofLootItem]

theorem copyConditions_eq {entries : List LootStoreItem} {li : LootItem}
    (h : (copyConditions entries li).conditions = li.conditions) : copyConditions entries li = li := by
  unfold copyConditions at h ⊢
  split at h
  next item _ =>
    dsimp only at h
    rw [h]
  next => rfl

/-- The elements of a container are those that are put in, in some order. -/
theorem perm_addAll {α : Type} (l : List α) (f : α → LootItem) (container : StoredLootContainer) :
    (l.foldl (fun c a => c.addLootItem env (f a)) container).lootItems.Perm
        (container.lootItems ++ l.map fun a => .ofLootItem (f a)) ∧
      (l.foldl (fun c a => c.addLootItem env (f a)) container).money = container.money := by
  induction l generalizing container with
  | nil => exact ⟨by simp, rfl⟩
  | cons a l ih =>
    obtain ⟨hperm, hmoney⟩ := ih (container.addLootItem env (f a))
    refine ⟨hperm.trans ?_, hmoney⟩
    rw [List.map_cons, List.append_cons]
    exact (env.elements.perm _).append_right _

/-! What is left -/

/-- An item that is for one player and without conditions, and that the player may have. -/
def isLeft (templates : Nat → Option ItemTemplate) (player : Looter) (it : LootItem) : Bool :=
  !it.isLooted && !it.freeforall && it.conditions.isEmpty && it.allowedForPlayer templates player

def Loot.left (templates : Nat → Option ItemTemplate) (player : Looter) (loot : Loot) : List LootItem :=
  loot.items.filter (isLeft templates player)

/-- The entries of the player in a list. -/
def listOf (map : NotNormalLootItemMap) (guid : Nat) : List NotNormalLootItem := (map.find? guid).getD []

/-- A list of the player has nothing in it that is not looted. -/
def allLooted (map : NotNormalLootItemMap) (guid : Nat) : Bool := (listOf map guid).all (·.isLooted)

/-- An item that may be stored and restored: it is for one player, nobody has won it, and its conditions are found where they are
copied from. -/
def isKept (templates : Nat → Option ItemTemplate) (env : Env) (it : LootItem) : Bool :=
  if (templates it.itemid).any (·.isCurrencyToken) then it.freeforall || it.isLooted
  else !it.freeforall && it.conditions.isEmpty && it.rollWinnerGUID.isNone &&
    env.lootTemplate.any fun entries => (copyConditions entries it).conditions.isEmpty

/-- Nothing in a loot is lost when it is stored. -/
structure Storable (templates : Nat → Option ItemTemplate) (env : Env) (player : Looter) (loot : Loot) : Prop where
  /-- A loot that counts as looted has nothing for the player. -/
  closed : (loot.isLooted && loot.items.any (isLeft templates player)) = false
  quest : allLooted loot.playerQuestItems player.guid = true
  ffa : allLooted loot.playerFFAItems player.guid = true
  conditional : allLooted loot.playerNonQuestNonFFAConditionalItems player.guid = true
  items : (loot.items.all fun it => !it.allowedForPlayer templates player || isKept templates env it) = true
  unlooted : (loot.items.all fun it => !it.isLooted) = true

theorem listedItems_eq_nil {map : NotNormalLootItemMap} {guid : Nat} {items : List LootItem} (h : allLooted map guid = true) :
    listedItems map guid items = [] := by
  rw [listedItems, List.filterMap_eq_nil_iff]
  intro e he
  have hlooted : e.isLooted = true := List.all_eq_true.1 h e he
  rw [Option.filter_eq_none_iff]
  intro it _
  simp [hlooted]

/-- What the player sees of a loot whose lists are done with. -/
theorem offered_eq (hquest : allLooted loot.playerQuestItems viewer.guid = true)
    (hffa : allLooted loot.playerFFAItems viewer.guid = true)
    (hconditional : allLooted loot.playerNonQuestNonFFAConditionalItems viewer.guid = true) :
    loot.offered templates viewer = loot.left templates viewer := by
  rw [Loot.offered, listedItems_eq_nil hquest, listedItems_eq_nil hffa, listedItems_eq_nil hconditional, List.append_nil,
    List.append_nil, List.append_nil]
  rfl

namespace Storage

variable {s : Storage} {it : LootItem} {α : Type} {i : Nat}

/-- The three forms agree, and with what was taken they are what was there. -/
structure Kept (templates : Nat → Option ItemTemplate) (env : Env) (player : Looter) (loot : Loot) (s : Storage) : Prop where
  quest : allLooted s.loot.playerQuestItems player.guid = true
  ffa : allLooted s.loot.playerFFAItems player.guid = true
  conditional : allLooted s.loot.playerNonQuestNonFFAConditionalItems player.guid = true
  items : ∀ it ∈ s.loot.items, it.allowedForPlayer templates player = true → isKept templates env it = true
  /-- In memory. -/
  stored : match s.stored with
    | some container => container.lootItems.Perm ((s.loot.left templates player).map .ofLootItem) ∧ container.money = s.loot.gold
    | none => s.loot.left templates player = [] ∧ s.loot.gold = 0
  /-- In the tables. -/
  rows : s.rows.Perm ((s.loot.left templates player).map .ofLootItem)
  moneyRow : s.moneyRow.getD 0 = s.loot.gold
  taken : (s.taken ++ s.loot.left templates player).Perm (loot.left templates player)
  takenMoney : s.takenMoney + s.loot.gold = loot.gold

theorem allowed_of_left (h : isLeft templates player it = true) : it.allowedForPlayer templates player = true := by
  simp only [isLeft, Bool.and_eq_true] at h
  exact h.2

/-- An item that is left is stored as it is. -/
theorem bare_of_left (hleft : isLeft templates player it = true) (hkept : isKept templates env it = true) :
    it.Bare ∧ (templates it.itemid).any (·.isCurrencyToken) = false ∧
      ∃ entries, env.lootTemplate = some entries ∧ copyConditions entries it = it := by
  simp only [isLeft, Bool.and_eq_true, Bool.not_eq_true'] at hleft
  obtain ⟨⟨⟨hlooted, hffa⟩, hconditions⟩, -⟩ := hleft
  unfold isKept at hkept
  split at hkept
  next => simp [hffa, hlooted] at hkept
  next hcurrency =>
  simp only [Bool.and_eq_true, Option.isNone_iff_eq_none, Option.any_eq_true] at hkept
  obtain ⟨⟨-, hwinner⟩, entries, htemplate, hcopied⟩ := hkept
  have hconditions := List.isEmpty_iff.1 hconditions
  refine ⟨⟨hconditions, hwinner, hlooted⟩, by simpa using hcurrency, entries, htemplate, copyConditions_eq ?_⟩
  rw [hconditions, List.isEmpty_iff.1 hcopied]

/-- What `AddNewStoredLoot` stores is what is left. -/
theorem saved_eq_left (h : Storable templates env player loot) :
    loot.items.filter (isSaved templates player) = loot.left templates player := by
  refine List.filter_congr fun it hit => ?_
  have hkept := List.all_eq_true.1 h.items it hit
  have hlooted : it.isLooted = false := by simpa using List.all_eq_true.1 h.unlooted it hit
  cases hallowed : it.allowedForPlayer templates player with
  | false => simp [isSaved, isLeft, hallowed]
  | true =>
    have hkept : isKept templates env it = true := by simpa [hallowed] using hkept
    have hsome : (templates it.itemid).isSome = true := by
      cases htemplate : templates it.itemid with
      | some proto => rfl
      | none => simp [LootItem.allowedForPlayer, htemplate] at hallowed
    obtain ⟨proto, hproto⟩ := Option.isSome_iff_exists.1 hsome
    simp only [isKept, hproto, Option.any_some, hlooted, Bool.or_false] at hkept
    split at hkept
    next hcurrency => simp [isSaved, isLeft, hallowed, hproto, hcurrency, hkept]
    next hcurrency =>
    simp only [Bool.and_eq_true, Bool.not_eq_true'] at hkept
    simp [isSaved, isLeft, hallowed, hproto, hcurrency, hlooted, hkept.1.1.1, hkept.1.1.2]

/-- After the loot is stored. -/
theorem kept_new (h : Storable templates env player loot) :
    ((new loot).addNewStoredLoot templates env player).Kept templates env player loot := by
  have hitems : ∀ it ∈ loot.items, it.allowedForPlayer templates player = true → isKept templates env it = true := by
    intro it hit hallowed
    simpa [hallowed] using List.all_eq_true.1 h.items it hit
  have hclosed := h.closed
  unfold addNewStoredLoot
  split
  next hlooted =>
    have hlooted : loot.isLooted = true := by simpa [new] using hlooted
    have hleft : loot.left templates player = [] := by
      rw [hlooted, Bool.true_and, List.any_eq_false] at hclosed
      exact List.filter_eq_nil_iff.2 hclosed
    have hgold : loot.gold = 0 := by
      simp only [Loot.isLooted, Bool.and_eq_true, decide_eq_true_eq] at hlooted
      exact hlooted.1
    exact ⟨h.quest, h.ffa, h.conditional, hitems, ⟨hleft, hgold⟩, by simp [new, hleft], by simp [new, hgold], .refl _, by simp [new]⟩
  next hlooted =>
  extract_lets saved
  have hsaved : saved = loot.left templates player := saved_eq_left h
  obtain ⟨hperm, hmoney⟩ := perm_addAll saved (fun it => it) { lootItems := [], money := loot.gold }
  refine ⟨h.quest, h.ffa, h.conditional, hitems, ⟨?_, hmoney⟩, ?_, ?_, .refl _, by simp [new]⟩
  · show List.Perm _ ((loot.left templates player).map StoredLootItem.ofLootItem)
    rw [← hsaved]
    exact hperm
  · show List.Perm _ ((loot.left templates player).map LootItemRow.ofLootItem)
    rw [← hsaved]
  · show (if loot.gold ≠ 0 then some loot.gold else none).getD 0 = loot.gold
    split
    next => rfl
    next hgold => exact (not_not.1 hgold).symm

/-- A loot that is filled from memory has what is left. -/
theorem Kept.loaded (h : s.Kept templates env player loot) :
    (s.relog env).loot.items.Perm (s.loot.left templates player) ∧ (s.relog env).loot.gold = s.loot.gold := by
  have hstored := h.stored
  unfold relog loadStoredLoot
  cases hs : s.stored with
  | none =>
    rw [hs] at hstored
    exact ⟨by rw [hstored.1]; exact .refl _, hstored.2.symm⟩
  | some container =>
    rw [hs] at hstored
    obtain ⟨hperm, hmoney⟩ := hstored
    cases htemplate : env.lootTemplate with
    | none =>
      refine ⟨?_, hmoney⟩
      have hleft : s.loot.left templates player = [] := by
        rw [List.eq_nil_iff_forall_not_mem]
        intro it hit
        obtain ⟨hmem, hleft⟩ := List.mem_filter.1 hit
        obtain ⟨-, -, entries, hentries, -⟩ := bare_of_left hleft (h.items it hmem (allowed_of_left hleft))
        rw [htemplate] at hentries
        cases hentries
      rw [hleft]
      exact .refl _
    | some entries =>
      refine ⟨?_, hmoney⟩
      show ([] ++ container.lootItems.map fun stored => copyConditions entries (.ofStored stored)).Perm _
      rw [List.nil_append]
      refine (hperm.map _).trans ?_
      rw [List.map_map]
      have hsame : (s.loot.left templates player).map
          ((fun stored => copyConditions entries (.ofStored stored)) ∘ StoredLootItem.ofLootItem) =
          (s.loot.left templates player).map id := by
        refine List.map_congr_left fun it hit => ?_
        obtain ⟨hmem, hleft⟩ := List.mem_filter.1 hit
        obtain ⟨hbare, -, entries', hentries, hcopied⟩ := bare_of_left hleft (h.items it hmem (allowed_of_left hleft))
        rw [htemplate, Option.some.injEq] at hentries
        rw [Function.comp, LootItem.ofStored_ofLootItem hbare, hentries, hcopied, id]
      rw [hsame, List.map_id]

theorem Kept.relog (h : s.Kept templates env player loot) : (s.relog env).Kept templates env player loot := by
  obtain ⟨hitems, hgold⟩ := h.loaded
  have hleft : ((s.relog env).loot.left templates player).Perm (s.loot.left templates player) := by
    refine (hitems.filter _).trans ?_
    rw [Loot.left, List.filter_filter]
    exact .of_eq (List.filter_congr fun it _ => by simp)
  have hlists : (s.relog env).loot.playerQuestItems = .empty ∧ (s.relog env).loot.playerFFAItems = .empty ∧
      (s.relog env).loot.playerNonQuestNonFFAConditionalItems = .empty := by
    unfold Storage.relog loadStoredLoot
    cases s.stored with
    | none => exact ⟨rfl, rfl, rfl⟩
    | some container => cases env.lootTemplate <;> exact ⟨rfl, rfl, rfl⟩
  refine ⟨by rw [hlists.1]; rfl, by rw [hlists.2.1]; rfl, by rw [hlists.2.2]; rfl, fun it hit => ?_, ?_,
    h.rows.trans (hleft.map _).symm, h.moneyRow.trans hgold.symm, ((hleft.append_left _).trans h.taken), ?_⟩
  · exact h.items it (List.mem_filter.1 (hitems.mem_iff.1 hit)).1
  · have hstored := h.stored
    show match s.stored with
      | some container => container.lootItems.Perm _ ∧ container.money = _
      | none => _ ∧ _
    split
    next container hs =>
      rw [hs] at hstored
      exact ⟨hstored.1.trans (hleft.map _).symm, hstored.2.trans hgold.symm⟩
    next hs =>
    rw [hs] at hstored
    exact ⟨List.Perm.eq_nil (hleft.trans (.of_eq hstored.1)), hgold.trans hstored.2⟩
  · rw [hgold]
    exact h.takenMoney

theorem Kept.loadStorageFromDB (h : s.Kept templates env player loot) :
    (s.loadStorageFromDB env).Kept templates env player loot := by
  refine ⟨h.quest, h.ffa, h.conditional, h.items, ?_, h.rows, h.moneyRow, h.taken, h.takenMoney⟩
  unfold Storage.loadStorageFromDB
  extract_lets container
  have hperm : container.lootItems.Perm ((s.loot.left templates player).map .ofLootItem) := by
    refine (perm_addAll (env.select.order s.rows) LootItem.ofRow { lootItems := [], money := 0 }).1.trans ?_
    rw [List.nil_append]
    refine ((env.select.perm s.rows).map _).trans ((h.rows.map _).trans ?_)
    rw [List.map_map]
    exact .of_eq (List.map_congr_left fun it _ => StoredLootItem.ofLootItem_ofRow it)
  dsimp only
  split
  next container' heq =>
    split at heq
    next => cases heq
    next =>
    cases heq
    exact ⟨hperm, h.moneyRow⟩
  next heq =>
  split at heq
  next hnone =>
    simp only [Bool.and_eq_true, List.isEmpty_iff, Option.isNone_iff_eq_none] at hnone
    have hrows := h.rows
    rw [hnone.1] at hrows
    have hmoney := h.moneyRow
    rw [hnone.2] at hmoney
    exact ⟨List.map_eq_nil_iff.1 hrows.symm.eq_nil, hmoney.symm⟩
  next => cases heq

theorem Kept.takeMoney (h : s.Kept templates env player loot) : s.takeMoney.Kept templates env player loot := by
  have hstored := h.stored
  have htaken : s.takenMoney + s.loot.gold + 0 = loot.gold := h.takenMoney
  unfold Storage.takeMoney
  extract_lets s₁
  split
  next hs =>
    have hs : s.stored = none := hs
    rw [hs] at hstored
    refine ⟨h.quest, h.ffa, h.conditional, h.items, ?_, h.rows, h.moneyRow.trans hstored.2, h.taken, htaken⟩
    show match s.stored with | some container => _ ∧ _ | none => _ ∧ _
    rw [hs]
    exact ⟨hstored.1, rfl⟩
  next container hs =>
  have hs : s.stored = some container := hs
  rw [hs] at hstored
  exact ⟨h.quest, h.ffa, h.conditional, h.items, ⟨hstored.1, rfl⟩, h.rows, rfl, h.taken, htaken⟩

/-! Takes -/

/-- An item that is looted, if it is for one player. -/
def looted (it : LootItem) : LootItem := if it.freeforall then it else { it with isLooted := true }

theorem isKept_looted (h : isKept templates env it = true) : isKept templates env (looted it) = true := by
  unfold looted
  split
  next => exact h
  next hffa =>
  unfold isKept at h ⊢
  split at h
  next hcurrency =>
    rw [if_pos hcurrency]
    simp
  next hcurrency =>
  rw [if_neg hcurrency]
  have hcopied (entries : List LootStoreItem) :
      (copyConditions entries { it with isLooted := true }).conditions = (copyConditions entries it).conditions := by
    unfold copyConditions
    dsimp only
    cases entries.find? (·.itemid = it.itemid) <;> rfl
  simpa [hcopied] using h

/-- A list without one of its elements that have a property. -/
theorem perm_filter_modify {p : α → Bool} {f : α → α} {l : List α} {a : α} (h : l[i]? = some a)
    (ha : p a = true) (hfa : p (f a) = false) : (l.filter p).Perm (a :: (l.modify i f).filter p) := by
  induction l generalizing i with
  | nil => cases h
  | cons b l ih =>
    cases i with
    | zero =>
      cases h
      rw [List.modify_zero_cons, List.filter_cons_of_pos ha, List.filter_cons_of_neg (by simp [hfa])]
    | succ i =>
      rw [List.modify_succ_cons, List.filter_cons, List.filter_cons]
      split
      next => exact ((ih h).cons b).trans (.swap a b _)
      next => exact ih h

theorem perm_filter_rest {q : α → Bool} {l l' : List α} {a : α} (h : l.Perm (a :: l')) (ha : q a = true)
    (hrest : ∀ x ∈ l', q x = false) : (l.filter fun x => !q x).Perm l' := by
  refine (h.filter _).trans ?_
  rw [List.filter_cons_of_neg (by simp [ha])]
  exact .of_eq (List.filter_eq_self.2 fun x hx => by simp [hrest x hx])

/-- Items that the storage takes for each other. -/
def sameStack (it it' : LootItem) : Bool := it'.itemid = it.itemid && it'.count = it.count

/-- A take that is made: by the owner, of an item that could be stored for him, and that is the only one of its id and count. -/
def Event.allowed (templates : Nat → Option ItemTemplate) (player : Looter) (s : Storage) : Event → Bool
  | .takeItem viewer lootSlot canStore => !canStore || (s.loot.stored templates viewer lootSlot).all fun slot =>
      viewer.guid = player.guid && Loot.takeAllowed slot && slot.item.allowedForPlayer templates player &&
        (s.loot.left templates player).countP (sameStack slot.item) ≤ 1
  | _ => true

/-- What a take does not change: the lists have nothing that is not looted, so an item without an entry is taken. -/
theorem Kept.plain {guid : Nat} {slot : Loot.Slot} (h : s.Kept templates env player loot) (hguid : guid = player.guid)
    (hslot : s.loot.lootItemInSlot i guid = some slot) (hok : Loot.takeAllowed slot = true)
    (hallowed : slot.item.allowedForPlayer templates player = true) :
    ∃ it, slot = .plain i it ∧ s.loot.items[i]? = some it ∧ isLeft templates player it = true := by
  have hentry {map : NotNormalLootItemMap} {l : List NotNormalLootItem} {pos : Nat} {e : NotNormalLootItem}
      (hmap : allLooted map player.guid = true) (hl : map.find? guid = some l) (he : l[pos]? = some e)
      (hlooted : e.isLooted = false) : False := by
    have hall := List.all_eq_true.1 hmap e (by rw [listOf, ← hguid, hl]; exact List.mem_of_getElem? he)
    rw [hlooted] at hall
    cases hall
  cases Loot.found hslot with
  | quest pos index it l e hl he hlooted => exact (hentry h.quest hl he hlooted).elim
  | ffa pos it l e hl he hlooted => exact (hentry h.ffa hl he hlooted).elim
  | conditional pos it hit hffa l e hl he hlooted => exact (hentry h.conditional hl he hlooted).elim
  | plain it hit hlooted =>
    refine ⟨it, rfl, hit, ?_⟩
    have hallowed : it.allowedForPlayer templates player = true := hallowed
    have hffa : it.freeforall = false := by simpa [Loot.takeAllowed] using hok
    have hkept := h.items it (List.mem_of_getElem? hit) hallowed
    unfold isKept at hkept
    split at hkept
    next => simp [hffa, hlooted] at hkept
    next =>
    simp only [Bool.and_eq_true] at hkept
    simp [isLeft, hlooted, hffa, hkept.1.1.2, hallowed]

theorem Kept.takeItem {lootSlot : Nat} {canStore : Bool} (h : s.Kept templates env player loot)
    (hok : Event.allowed templates player s (.takeItem viewer lootSlot canStore) = true) :
    (s.takeItem templates viewer lootSlot canStore).Kept templates env player loot := by
  unfold Storage.takeItem
  split
  next => exact h
  next slot hslot =>
  split
  next => exact h
  next hstore =>
  have hstore : canStore = true := by simpa using hstore
  have htake : s.loot.storeLootItem templates viewer lootSlot canStore = s.loot.take viewer.guid slot := by
    simp [Loot.storeLootItem, hslot, hstore]
  simp only [Event.allowed, hstore, Bool.not_true, Bool.false_or, hslot, Option.all_some, Bool.and_eq_true,
    decide_eq_true_eq] at hok
  obtain ⟨⟨⟨hguid, htakeAllowed⟩, hallowed⟩, hone⟩ := hok
  obtain ⟨it, rfl, hit, hleft⟩ := h.plain hguid (Option.filter_eq_some_iff.1 hslot).1 htakeAllowed hallowed
  have hlooted : isLeft templates player (looted it) = false := by
    simp only [isLeft, Bool.and_eq_true, Bool.not_eq_true'] at hleft
    simp [isLeft, looted, hleft.1.1.2]
  have hperm : (s.loot.left templates player).Perm (it :: (s.loot.items.modify lootSlot looted).filter (isLeft templates player)) :=
    perm_filter_modify hit hleft hlooted
  -- no other stack is like the one that is taken
  have hothers : ∀ x ∈ (s.loot.items.modify lootSlot looted).filter (isLeft templates player), sameStack it x = false := by
    rw [hperm.countP_eq, List.countP_cons_of_pos (by simp [sameStack, Loot.Slot.item])] at hone
    intro x hx
    have hzero := List.countP_eq_zero.1 (Nat.le_zero.1 (Nat.le_of_succ_le_succ hone)) x hx
    exact Bool.eq_false_iff.2 hzero
  have hitems : ∀ x ∈ s.loot.items.modify lootSlot looted, x.allowedForPlayer templates player = true →
      isKept templates env x = true := by
    intro x hx hallowed
    obtain ⟨k, hk⟩ := List.mem_iff_getElem?.1 hx
    rw [List.getElem?_modify] at hk
    obtain ⟨x₀, hx₀, heq⟩ := Option.map_eq_some_iff.1 hk
    have hmem := List.mem_of_getElem? hx₀
    split at heq
    next =>
      subst heq
      refine isKept_looted (h.items x₀ hmem ?_)
      rw [← hallowed]
      unfold looted
      split <;> rfl
    next =>
    subst heq
    exact h.items x₀ hmem hallowed
  have htaken : (it :: s.taken ++ (s.loot.items.modify lootSlot looted).filter (isLeft templates player)).Perm
      (loot.left templates player) := by
    refine (List.perm_middle.symm.trans (hperm.symm.append_left s.taken)).trans h.taken
  extract_lets itemId count s₁
  have hs₁ : s₁ = { s with loot := s.loot.take viewer.guid (.plain lootSlot it), taken := it :: s.taken } := by
    simp only [s₁, htake]
    rfl
  have hstored := h.stored
  rw [hs₁]
  split
  next hs =>
    -- nothing is stored, so nothing is left
    have hs : s.stored = none := hs
    rw [hs] at hstored
    rw [hstored.1] at hperm
    cases hperm.symm.eq_nil
  next container hs =>
  have hs : s.stored = some container := hs
  rw [hs] at hstored
  refine ⟨h.quest, h.ffa, h.conditional, hitems, ⟨?_, hstored.2⟩, ?_, h.moneyRow, htaken, h.takenMoney⟩
  · refine perm_eraseP (hstored.1.trans (hperm.map _)) (by simp [itemId, count, StoredLootItem.ofLootItem, Loot.Slot.item])
      fun x hx => ?_
    obtain ⟨y, hy, rfl⟩ := List.mem_map.1 hx
    have hother : (decide (y.itemid = it.itemid) && decide (y.count = it.count)) = false := hothers y hy
    show (decide (y.itemid = it.itemid) && decide (y.count.toNat = it.count.toNat)) = false
    simpa only [UInt8.toNat_inj] using hother
  · refine perm_filter_rest (h.rows.trans (hperm.map _)) (by simp [itemId, count, LootItemRow.ofLootItem, Loot.Slot.item])
      fun x hx => ?_
    obtain ⟨y, hy, rfl⟩ := List.mem_map.1 hx
    have hother : (decide (y.itemid = it.itemid) && decide (y.count = it.count)) = false := hothers y hy
    show (decide (y.itemid = it.itemid) && decide (y.count.toNat = it.count.toNat)) = false
    simpa only [UInt8.toNat_inj] using hother

theorem Kept.handle {event : Event} (h : s.Kept templates env player loot) (hok : event.allowed templates player s = true) :
    (s.handle templates env event).Kept templates env player loot := by
  cases event with
  | takeItem viewer lootSlot canStore => exact h.takeItem hok
  | takeMoney => exact h.takeMoney
  | relog => exact h.relog
  | restart => exact h.loadStorageFromDB.relog

/-- What the player is offered is what was in the loot and he has not taken. -/
theorem reaches_offered (hloot : Storable templates env player loot)
    (h : Reaches (fun event s => some (s.handle templates env event)) (fun event s => event.allowed templates player s = true)
      ((new loot).addNewStoredLoot templates env player) s) :
    (s.taken ++ s.loot.offered templates player).Perm (loot.offered templates player) ∧
      s.takenMoney + s.loot.gold = loot.gold := by
  have hkept := h.invariant (Kept templates env player loot)
    (fun event s s' hs hok hstep => by cases hstep; exact hs.handle hok) (kept_new hloot)
  rw [offered_eq hkept.quest hkept.ffa hkept.conditional, offered_eq hloot.quest hloot.ffa hloot.conditional]
  exact ⟨hkept.taken, hkept.takenMoney⟩

/-! A lockbox with gold -/

/-- Items that are for one player and stack up to 20. -/
def boxTemplates (_ : Nat) : Option ItemTemplate :=
  some
    { maxStackSize := 20, quality := 1, multiDrop := false, followLootRules := false, ignoreQuestStatus := false
      factionHorde := false, factionAlliance := false, hideUnusableRecipe := false, boundRecipe := false
      requiredSkill := 0, spell := 0, startQuest := 0, isCurrencyToken := false }

def boxOwner : Looter :=
  { guid := 1, team := .horde, group := none, meets := fun _ => true, hasSkill := fun _ => false, hasSpell := fun _ => false
    hasQuestStatus := fun _ => false, hasQuestForItem := fun _ => false }

def boxEnv : Env :=
  { lootTemplate := some [], elements := ⟨id, .refl⟩, select := ⟨List.reverse, List.reverse_perm⟩ }

/-- What drops: stacks of items, by id and count. -/
def box (stacked : List (Nat × Nat)) (gold : Nat) : Loot :=
  (Loot.empty gold).fillLoot boxTemplates boxOwner [] true
    (stacked.map fun e =>
      { item := { itemid := e.1, needsQuest := false, conditions := [] }, count := e.2, random := fun _ => (0, 0) })
    fun _ _ => true

def boxRun : List Event := [.takeItem boxOwner 1 true, .relog, .takeMoney, .restart, .takeItem boxOwner 1 true, .restart]

theorem reaches_offered_box :
    let s := boxRun.foldl (fun s event => s.handle boxTemplates boxEnv event)
      ((new (box [(7, 1), (8, 2), (7, 3)] 50)).addNewStoredLoot boxTemplates boxEnv boxOwner)
    (s.taken ++ s.loot.offered boxTemplates boxOwner).Perm
        ((box [(7, 1), (8, 2), (7, 3)] 50).offered boxTemplates boxOwner) ∧
      s.takenMoney + s.loot.gold = (box [(7, 1), (8, 2), (7, 3)] 50).gold :=
  reaches_offered ⟨by decide, by decide, by decide, by decide, by decide,
    by decide⟩ (Reaches.of_foldAllowed (by decide))

/-- One of two equal stacks is taken: after a restart, the other is gone too. -/
theorem equal_stacks_lost : ¬ ∀ (templates : Nat → Option ItemTemplate) (env : Env) (player : Looter) (drops : List Loot.Drop)
    (canStore : Nat → Nat → Bool) (gold : Nat) (s : Storage),
    let loot := (Loot.empty gold).fillLoot templates player [] true drops canStore
    Reaches (fun event s => some (handle templates env s event)) (fun _ _ => True)
      ((new loot).addNewStoredLoot templates env player) s →
    (s.taken ++ s.loot.offered templates player).Perm (loot.offered templates player) := by
  intro h
  have hlost := h boxTemplates boxEnv boxOwner _ (fun _ _ => true) 0 _
    (.tail .restart (.tail (.takeItem boxOwner 0 true) (.refl (s := (new (box [(7, 1), (7, 1)] 0)).addNewStoredLoot boxTemplates
      boxEnv boxOwner)) trivial rfl) trivial rfl)
  have hlength := hlost.length_eq
  revert hlength
  decide

end Storage

end AtlasWow.Loots
