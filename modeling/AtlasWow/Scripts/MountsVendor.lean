/-
The mounts vendor of the battle royale (`BattleroyaleMountsVendor_AI`): its
pages, by `GossipHello` and `GossipSelect`, and what `HandleGossipHelloOpcode`
and `HandleGossipSelectOptionOpcode` do around them. The position in the table
belongs to the creature, so that its customers turn each other's pages:
`undisturbed_iff` says exactly when one of them notices.

The table is a parameter. That the customer is near, and other menus that he
opens, are left out, and so are the messages about a purchase.
-/
import AtlasWow.Entities.ObjectGuid
import AtlasWow.Lib.OrderedMap

namespace AtlasWow.MountsVendor

structure Mount where
  spellId : Nat
  name : String
  cost : Nat
  icon : String

/-- `mounts_vendor`, by id. -/
abbrev MountsTable := OMap Nat Mount

structure GossipItem where
  message : String
  action : Nat

def NEXT_PAGE : GossipItem := ⟨"Next page", 1000⟩
def PREVIOUS_PAGE : GossipItem := ⟨"Previous page", 1001⟩

structure Customer where
  menu : List GossipItem
  /-- How many items 505050 he has. -/
  credits : Nat
  spells : List Nat

structure Vendor where
  lastId : UInt32
  players : ObjectGuid → Customer

variable (table : MountsTable)

/-- The option of a row. -/
def mountItem (row : Nat × Mount) : GossipItem :=
  ⟨"|TInterface\\icons\\" ++ row.2.icon ++ ":30:30:-18:0|t" ++ row.2.name ++ " | Cost : " ++ toString row.2.cost, row.1⟩

/-- `SELECT * FROM mounts_vendor WHERE id > lastId ORDER BY id LIMIT 10`. -/
def rowsAfter (lastId : UInt32) : List (Nat × Mount) := (table.entries.filter (lastId.toNat < ·.1)).take 10

def setMenu (player : ObjectGuid) (menu : List GossipItem) (s : Vendor) : Vendor :=
  { s with players := Function.update s.players player { s.players player with menu := menu } }

/-- `GossipHello`, and the menu that is shown. -/
def gossipHello (player : ObjectGuid) (s : Vendor) : Vendor × Option (List GossipItem) :=
  let s : Vendor := { s with lastId := 10 }
  let rows := table.entries.take 10
  if rows.isEmpty then (setMenu player [] s, none)
  else (setMenu player (rows.map mountItem ++ [NEXT_PAGE]) s, some (rows.map mountItem ++ [NEXT_PAGE]))

/-- Buying, again too if he knows the spell. Only rows that are there are offered, so that the queries find them. -/
def buy (id : Nat) (customer : Customer) : Customer :=
  match table.find? id with
  | none => customer
  | some mount =>
    if customer.credits < mount.cost then customer
    else { customer with credits := customer.credits - mount.cost, spells := customer.spells.insert mount.spellId }

/-- Where a page begins. -/
def pageStart (action : Nat) (s : Vendor) : UInt32 := if action = 1001 then s.lastId - 20 else s.lastId

/-- The page after a position: `none` if nothing is left. -/
def page (start : UInt32) : Option (List GossipItem) :=
  let rows := rowsAfter table start
  if rows.isEmpty then none
  else some (rows.map mountItem ++ (if rows.length = 10 then [NEXT_PAGE] else []) ++
    if 10 < start + 10 then [PREVIOUS_PAGE] else [])

def turnPage (player : ObjectGuid) (action : Nat) (s : Vendor) : Vendor × Option (List GossipItem) :=
  let start := pageStart action s
  match page table start with
  | none => ({ s with lastId := start }, none)
  | some menu => (setMenu player menu { s with lastId := start + 10 }, some menu)

/-- `GossipSelect`, with the action of the option. -/
def gossipSelect (player : ObjectGuid) (action : Nat) (s : Vendor) : Vendor × Option (List GossipItem) :=
  let s := setMenu player [] s
  if action < 1000 then ({ s with players := Function.update s.players player (buy table action (s.players player)) }, none)
  else turnPage table player action s

inductive Op where
  | hello (player : ObjectGuid)
  /-- An option of the menu he has; others are ignored. -/
  | select (player : ObjectGuid) (gossipListId : Nat)

def Op.player : Op → ObjectGuid
  | .hello player => player
  | .select player _ => player

def handle : Op → Vendor → Vendor × Option (List GossipItem)
  | .hello player, s => gossipHello table player s
  | .select player gossipListId, s =>
    match (s.players player).menu[gossipListId]? with
    | none => (s, none)
    | some item => gossipSelect table player item.action s

/-- What a player is shown, one answer for each of his actions. -/
def shown (player : ObjectGuid) : List Op → Vendor → List (Option (List GossipItem))
  | [], _ => []
  | op :: ops, s =>
    if op.player = player then (handle table op s).2 :: shown player ops (handle table op s).1
    else shown player ops (handle table op s).1

/-- The actions of a player alone. -/
def alone (player : ObjectGuid) (ops : List Op) : List Op := ops.filter (·.player = player)

/-! ## When a page is the right one -/

/-- No mount is between two positions, and there is a page before both or neither. -/
def SamePage (start start' : UInt32) : Prop :=
  (∀ id ∈ table.keys, start.toNat < id ↔ start'.toNat < id) ∧
    ((∃ id ∈ table.keys, start.toNat < id) → (10 < start + 10 ↔ 10 < start' + 10))

/-- The action of an option that turns the page. -/
def turning (s : Vendor) : Op → Option Nat
  | .hello _ => none
  | .select player gossipListId => ((s.players player).menu[gossipListId]?.map GossipItem.action).filter (1000 ≤ ·)

/-- Where a player turns the page, the vendor is where he would be for that player alone. -/
def Undisturbed (player : ObjectGuid) : List Op → Vendor → Vendor → Prop
  | [], _, _ => True
  | op :: ops, s, t =>
    (op.player = player → ∀ action, turning s op = some action → SamePage table (pageStart action s) (pageStart action t)) ∧
      Undisturbed player ops (handle table op s).1 (if op.player = player then (handle table op t).1 else t)

section

variable {table}

variable {start start' : UInt32}

theorem rowsAfter_eq_nil : rowsAfter table start = [] ↔ ∀ id ∈ table.keys, ¬ start.toNat < id := by
  unfold rowsAfter OMap.keys
  rw [List.take_eq_nil_iff, or_iff_right (by decide), List.filter_eq_nil_iff, List.forall_mem_map]
  simp only [decide_eq_true_eq]

/-- A page begins with the first row after its position. -/
theorem head_rowsAfter {row : Nat × Mount} {rows : List (Nat × Mount)} (h : rowsAfter table start = row :: rows) :
    start.toNat < row.1 ∧ ∀ id ∈ table.keys, start.toNat < id → row.1 ≤ id := by
  obtain ⟨later, hlater⟩ : ∃ later, table.entries.filter (start.toNat < ·.1) = row :: later := by
    unfold rowsAfter at h
    cases hf : table.entries.filter (start.toNat < ·.1) with
    | nil =>
      rw [hf] at h
      cases h
    | cons row' later =>
      rw [hf, List.take_succ_cons] at h
      exact ⟨later, by rw [(List.cons.inj h).1]⟩
  have hsorted := table.sorted.sublist (List.filter_sublist (p := (start.toNat < ·.1)))
  rw [hlater, List.pairwise_cons] at hsorted
  refine ⟨?_, fun id hid hlt => ?_⟩
  · have hmem : row ∈ table.entries.filter (start.toNat < ·.1) := hlater ▸ List.mem_cons_self
    exact of_decide_eq_true (List.mem_filter.1 hmem).2
  · obtain ⟨e, he, rfl⟩ := List.mem_map.1 hid
    have hmem : e ∈ row :: later := hlater ▸ List.mem_filter.2 ⟨he, decide_eq_true hlt⟩
    rcases List.mem_cons.1 hmem with rfl | hmem
    · exact Nat.le_refl _
    · exact (hsorted.1 e hmem).le

theorem rowsAfter_congr (h : ∀ id ∈ table.keys, start.toNat < id ↔ start'.toNat < id) :
    rowsAfter table start = rowsAfter table start' := by
  unfold rowsAfter
  congr 1
  exact List.filter_congr fun e he => decide_eq_decide.2 (h e.1 (List.mem_map_of_mem he))

/-- From the same rows the menus are the same exactly if both have a page before. -/
theorem page_eq_some (h : rowsAfter table start ≠ []) : page table start =
    some ((rowsAfter table start).map mountItem ++ (if (rowsAfter table start).length = 10 then [NEXT_PAGE] else []) ++
      if 10 < start + 10 then [PREVIOUS_PAGE] else []) := by
  unfold page
  rw [if_neg (by rwa [List.isEmpty_iff])]

theorem page_eq_none : page table start = none ↔ rowsAfter table start = [] := by
  unfold page
  by_cases h : (rowsAfter table start).isEmpty = true
  · rw [if_pos h]
    exact iff_of_true rfl (List.isEmpty_iff.1 h)
  · rw [if_neg h]
    exact iff_of_false nofun (by rwa [List.isEmpty_iff] at h)

/-- The pages are the same exactly from positions between which no mount is. -/
theorem page_eq_iff : page table start = page table start' ↔ SamePage table start start' := by
  constructor
  · intro h
    rcases hrows : rowsAfter table start with _ | ⟨row, rows⟩
    · have hnone := rowsAfter_eq_nil.1 hrows
      have hnone' := rowsAfter_eq_nil.1 (page_eq_none.1 (h ▸ page_eq_none.2 hrows))
      exact ⟨fun id hid => iff_of_false (hnone id hid) (hnone' id hid), fun ⟨id, hid, hlt⟩ => absurd hlt (hnone id hid)⟩
    have hne : rowsAfter table start ≠ [] := by rw [hrows]; exact List.cons_ne_nil _ _
    have hne' : rowsAfter table start' ≠ [] := fun h' => hne (page_eq_none.1 (h.trans (page_eq_none.2 h')))
    obtain ⟨row', rows', hrows'⟩ := List.exists_cons_of_ne_nil hne'
    rw [page_eq_some hne, page_eq_some hne'] at h
    have hmenu := Option.some_inj.1 h
    -- both pages begin with the same mount
    have hhead : row.1 = row'.1 := by
      rw [hrows, hrows'] at hmenu
      exact congrArg GossipItem.action (List.cons.inj hmenu).1
    obtain ⟨hlt, hfirst⟩ := head_rowsAfter hrows
    obtain ⟨hlt', hfirst'⟩ := head_rowsAfter hrows'
    have hbetween : ∀ id ∈ table.keys, start.toNat < id ↔ start'.toNat < id := fun id hid =>
      ⟨fun h => hlt'.trans_le (hhead ▸ hfirst id hid h), fun h => hlt.trans_le (hhead ▸ hfirst' id hid h)⟩
    refine ⟨hbetween, fun _ => ?_⟩
    rw [rowsAfter_congr hbetween] at hmenu
    have hprevious := List.append_cancel_left hmenu
    by_cases h₁ : 10 < start + 10
    · rw [if_pos h₁] at hprevious
      refine iff_of_true h₁ (Decidable.byContradiction fun h₂ => ?_)
      rw [if_neg h₂] at hprevious
      cases hprevious
    rw [if_neg h₁] at hprevious
    refine iff_of_false h₁ fun h₂ => ?_
    rw [if_pos h₂] at hprevious
    cases hprevious
  · rintro ⟨hbetween, hprevious⟩
    have hrows := rowsAfter_congr hbetween
    by_cases hnil : rowsAfter table start = []
    · rw [page_eq_none.2 hnil, page_eq_none.2 (hrows ▸ hnil)]
    obtain ⟨row, rows, hcons⟩ := List.exists_cons_of_ne_nil hnil
    obtain ⟨hlt, -⟩ := head_rowsAfter hcons
    have hmem : row ∈ table.entries := List.mem_of_mem_filter (List.mem_of_mem_take (hcons ▸ List.mem_cons_self))
    rw [page_eq_some hnil, page_eq_some (hrows ▸ hnil), hrows, if_congr (hprevious ⟨row.1, List.mem_map_of_mem hmem, hlt⟩) rfl rfl]

/-! ## Two runs -/

/-- Another customer's menu is left alone. -/
theorem handle_other {op : Op} {player : ObjectGuid} (h : op.player ≠ player) (s : Vendor) :
    (handle table op s).1.players player = s.players player := by
  have hmenu (op' : ObjectGuid) (ho : op' ≠ player) (menu : List GossipItem) (s : Vendor) :
      (setMenu op' menu s).players player = s.players player := Function.update_of_ne ho.symm ..
  cases op with
  | hello op' =>
    unfold handle gossipHello
    dsimp only
    split
    · exact hmenu op' h ..
    · exact hmenu op' h ..
  | select op' gossipListId =>
    unfold handle
    dsimp only
    split
    next => rfl
    next item _ =>
    unfold gossipSelect
    dsimp only
    split
    next => exact (Function.update_of_ne (Ne.symm h) ..).trans (hmenu op' h ..)
    next =>
    unfold turnPage
    dsimp only
    split
    next => exact hmenu op' h ..
    next => exact (hmenu op' h ..).trans (hmenu op' h ..)

theorem turnPage_spec (player : ObjectGuid) (action : Nat) (s : Vendor) :
    (turnPage table player action s).2 = page table (pageStart action s) ∧
      (turnPage table player action s).1.players player =
        { s.players player with menu := (page table (pageStart action s)).getD (s.players player).menu } := by
  unfold turnPage
  dsimp only
  split
  next hnone => exact ⟨hnone.symm, by rw [hnone]; rfl⟩
  next menu hmenu => exact ⟨hmenu.symm, by rw [hmenu]; exact Function.update_self ..⟩

/-- An action of a player: he is shown the same exactly where the vendor is in the same place for him, and then he has the same
menu. -/
theorem handle_own {op : Op} {s t : Vendor} (h : s.players op.player = t.players op.player) :
    ((handle table op s).2 = (handle table op t).2 ↔
        ∀ action, turning s op = some action → SamePage table (pageStart action s) (pageStart action t)) ∧
      ((handle table op s).2 = (handle table op t).2 →
        (handle table op s).1.players op.player = (handle table op t).1.players op.player) := by
  have hmenu (player : ObjectGuid) (menu : List GossipItem) (s : Vendor) :
      (setMenu player menu s).players player = { s.players player with menu := menu } := Function.update_self ..
  cases op with
  | hello player =>
    have h : s.players player = t.players player := h
    unfold handle gossipHello
    dsimp only
    split
    · refine ⟨iff_of_true rfl nofun, fun _ => ?_⟩
      show (setMenu player _ _).players player = (setMenu player _ _).players player
      rw [hmenu, hmenu, h]
    refine ⟨iff_of_true rfl nofun, fun _ => ?_⟩
    show (setMenu player _ _).players player = (setMenu player _ _).players player
    rw [hmenu, hmenu, h]
  | select player gossipListId =>
    have h : s.players player = t.players player := h
    unfold handle turning
    dsimp only
    rw [← h]
    cases hitem : (s.players player).menu[gossipListId]? with
    | none => exact ⟨iff_of_true rfl nofun, fun _ => h⟩
    | some item =>
      have hcleared : (setMenu player [] s).players player = (setMenu player [] t).players player := by rw [hmenu, hmenu, h]
      dsimp only
      unfold gossipSelect
      dsimp only
      by_cases haction : item.action < 1000
      · rw [if_pos haction, if_pos haction]
        refine ⟨iff_of_true rfl fun action ha => ?_, fun _ => ?_⟩
        · rw [Option.map_some, Option.filter_some, if_neg (by rw [decide_eq_true_eq]; omega)] at ha
          cases ha
        · show Function.update _ player _ player = Function.update _ player _ player
          rw [Function.update_self, Function.update_self, hcleared]
      rw [if_neg haction, if_neg haction]
      obtain ⟨hshown, hplayer⟩ := @turnPage_spec table player item.action (setMenu player [] s)
      obtain ⟨hshown', hplayer'⟩ := @turnPage_spec table player item.action (setMenu player [] t)
      rw [hshown, hshown']
      refine ⟨?_, fun hpage => ?_⟩
      · rw [page_eq_iff, Option.map_some, Option.filter_some, if_pos (by rw [decide_eq_true_eq]; omega)]
        exact ⟨fun hp action ha => Option.some_inj.1 ha ▸ hp, fun hp => hp item.action rfl⟩
      · show (turnPage table player item.action _).1.players player = (turnPage table player item.action _).1.players player
        rw [hplayer, hplayer', hpage, hcleared]

theorem shown_alone_iff {player : ObjectGuid} : ∀ {ops : List Op} {s t : Vendor}, s.players player = t.players player →
    (shown table player ops s = shown table player (alone player ops) t ↔ Undisturbed table player ops s t)
  | [], _, _, _ => iff_of_true rfl trivial
  | op :: ops, s, t, h => by
    rw [Undisturbed]
    by_cases hop : op.player = player
    · subst hop
      obtain ⟨hsame, hnext⟩ := @handle_own table op s t h
      have halone : alone op.player (op :: ops) = op :: alone op.player ops := List.filter_cons_of_pos (decide_eq_true rfl)
      rw [halone, shown, shown, if_pos rfl, if_pos rfl, if_pos rfl, List.cons.injEq, hsame, forall_prop_of_true rfl]
      exact and_congr_right fun hp => shown_alone_iff (hnext (hsame.2 hp))
    have halone : alone player (op :: ops) = alone player ops := List.filter_cons_of_neg (by rwa [decide_eq_true_eq])
    rw [halone, shown, if_neg hop, if_neg hop, and_iff_right fun ho => absurd ho hop]
    exact shown_alone_iff ((handle_other hop s).trans h)

/-- A player is shown what he would be shown alone, exactly if the vendor is where he would be for him whenever he turns the
page. -/
theorem undisturbed_iff (player : ObjectGuid) (ops : List Op) (s : Vendor) :
    shown table player ops s = shown table player (alone player ops) s ↔ Undisturbed table player ops s s :=
  shown_alone_iff rfl

end

/-- The actions of the options a player is shown. -/
def actions (pages : List (Option (List GossipItem))) : List (Option (List Nat)) := pages.map (Option.map (List.map GossipItem.action))

/-- Players 1 and 2 at a vendor of 25 mounts: 1 has turned to the second page when 2 comes, and gets it again instead of the
third. -/
theorem disturbed : ∃ (table : MountsTable) (s : Vendor) (ops : List Op), ops = [.hello 1, .select 1 10, .hello 2, .select 1 10] ∧
    shown table 1 ops s ≠ shown table 1 (alone 1 ops) s ∧
    actions (shown table 1 ops s) =
      [some [1, 2, 3, 4, 5, 6, 7, 8, 9, 10, 1000], some [11, 12, 13, 14, 15, 16, 17, 18, 19, 20, 1000, 1001],
        some [11, 12, 13, 14, 15, 16, 17, 18, 19, 20, 1000, 1001]] ∧
    actions (shown table 1 (alone 1 ops) s) =
      [some [1, 2, 3, 4, 5, 6, 7, 8, 9, 10, 1000], some [11, 12, 13, 14, 15, 16, 17, 18, 19, 20, 1000, 1001],
        some [21, 22, 23, 24, 25, 1001]] := by
  refine ⟨⟨(List.range' 1 25).map fun id => (id, ⟨id, "", 1, ""⟩), by decide⟩, ⟨10, fun _ => ⟨[], 0, []⟩⟩, _, rfl, fun h => ?_,
    by decide, by decide⟩
  have hactions := congrArg actions h
  revert hactions
  decide

end AtlasWow.MountsVendor
