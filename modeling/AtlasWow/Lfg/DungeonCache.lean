/-
The cache of the dungeon finder over runs of loads: it answers for the dungeons
that a load found an entrance for, of all the loads since the last one that
emptied it (`Follows.run`). So it agrees with the store when these loads found an
entrance for every dungeon that a random one can lead to (`run_agrees_iff`).
-/
import AtlasWow.Lfg.LfgDungeons

namespace AtlasWow.Lfg

/-! ### The client's table -/

/-- The dungeon of an id, as the client's table has it. -/
def DBCStorage.dungeon? (store : DBCStorage) (id : Nat) : Option LFGDungeonData :=
  ((store.lookupEntry id).filter fun dbc => isLfgType dbc.type).map .ofEntry

theorem DBCStorage.lookupEntry_ID {store : DBCStorage} {id : Nat} {dbc : LFGDungeonEntry}
    (h : store.lookupEntry id = some dbc) : dbc.ID = id ∧ id < store.getNumRows := by
  rw [lookupEntry, Option.join_eq_some_iff] at h
  exact ⟨store.indexed id dbc h, (List.getElem?_eq_some_iff.1 h).1⟩

theorem DBCStorage.dungeon?_id {store : DBCStorage} {id : Nat} {d : LFGDungeonData} (h : store.dungeon? id = some d) :
    d.id = id := by
  obtain ⟨dbc, hdbc, rfl⟩ := Option.map_eq_some_iff.1 h
  exact (lookupEntry_ID (Option.filter_eq_some_iff.1 hdbc).1).1

variable {pl : Placement Nat LFGDungeonData} {store : DBCStorage}

/-- One row changes what is found under its own number. -/
theorem find?_loadEntry (m : LFGDungeonContainer) (i id : Nat) :
    (loadEntry pl store m i).find? id = if id = i then (store.dungeon? i).or (m.find? i) else m.find? id := by
  rw [loadEntry, DBCStorage.dungeon?]
  split
  next hnone =>
    rw [hnone]
    split
    next heq => rw [heq]; rfl
    next => rfl
  next dungeon hsome =>
  rw [hsome, (DBCStorage.lookupEntry_ID hsome).1]
  split
  next htype =>
    rw [UMap.find?_insert]
    simp [Option.filter, htype]
  next htype =>
  have hfilter : ((some dungeon).filter fun dbc => isLfgType dbc.type) = none := by simp [Option.filter, htype]
  rw [hfilter]
  split
  next heq => rw [heq]; rfl
  next => rfl

theorem find?_loadEntries (id : Nat) : ∀ n,
    ((List.range n).foldl (loadEntry pl store) .empty).find? id = if id < n then store.dungeon? id else none
  | 0 => by simp
  | n + 1 => by
    have ih := find?_loadEntries id n
    rw [List.range_succ, List.foldl_append, List.foldl_cons, List.foldl_nil, find?_loadEntry]
    split
    next heq =>
      subst heq
      rw [ih, if_neg (by omega), if_pos (by omega), Option.or_none]
    next hne =>
    rw [ih]
    split
    next hlt => rw [if_pos (by omega)]
    next hle => rw [if_neg (by omega)]

theorem find?_filled (id : Nat) :
    ((List.range store.getNumRows).foldl (loadEntry pl store) .empty).find? id = store.dungeon? id := by
  rw [find?_loadEntries]
  split
  · rfl
  next hle =>
  cases hd : store.lookupEntry id with
  | none => rw [DBCStorage.dungeon?, hd]; rfl
  | some dbc => exact absurd (DBCStorage.lookupEntry_ID hd).2 hle

/-! ### Entrances -/

/-- What the cache goes by. -/
def LFGDungeonData.kind (d : LFGDungeonData) : Nat × Nat := (d.type, d.group)

/-- The row of the table that counts for a dungeon: the last one. -/
def WorldTables.row? (t : WorldTables) (id : Nat) : Option LfgDungeonTemplate :=
  t.template.reverse.find? (·.dungeonId = id)

/-- Whether the world's tables have an entrance for a dungeon: coordinates of its own or a trigger of its map. -/
def WorldTables.HasEntrance (t : WorldTables) (d : LFGDungeonData) : Prop :=
  (∃ row, t.row? d.id = some row ∧ atOrigin row.x row.y row.z = false) ∨ (t.getMapEntranceTrigger d.map).isSome

theorem find?_loadTemplate (m : LFGDungeonContainer) (fields : LfgDungeonTemplate) (id : Nat) :
    (loadTemplate pl m fields).find? id =
      (m.find? id).map fun d => if fields.dungeonId = id then d.place fields else d := by
  rw [loadTemplate]
  by_cases hid : fields.dungeonId = id
  · subst hid
    cases hm : m.find? fields.dungeonId with
    | none => simp [hm]
    | some data => simp
  simp only [if_neg hid, Option.map_id']
  cases m.find? fields.dungeonId with
  | none => rfl
  | some data => exact UMap.find?_insert_of_ne (Ne.symm hid)

/-- The rows of the table, by the one that counts. -/
theorem find?_placed (m : LFGDungeonContainer) (template : List LfgDungeonTemplate) (id : Nat) :
    (template.foldl (loadTemplate pl) m).find? id =
      (m.find? id).map fun d => (template.reverse.find? (·.dungeonId = id)).elim d d.place := by
  induction template using List.reverseRecOn with
  | nil => simp
  | append_singleton template fields ih =>
    rw [List.foldl_append, List.foldl_cons, List.foldl_nil, find?_loadTemplate, ih, Option.map_map, List.reverse_append,
      List.reverse_singleton, List.singleton_append, List.find?_cons]
    by_cases hid : fields.dungeonId = id
    · simp only [hid, decide_true, if_true]
      congr 1
      funext d
      cases template.reverse.find? (·.dungeonId = id) <;> rfl
    · simp only [hid, decide_false, if_false]
      rfl

/-- Whether a load puts a dungeon into the cache. -/
def WorldTables.Lists (t : WorldTables) (d : LFGDungeonData) : Prop := d.type = LFG_TYPE_RANDOM ∨ t.HasEntrance d

variable {t : WorldTables} {d d' : LFGDungeonData}

theorem findEntrance_kind (h : findEntrance t d = some d') : d'.id = d.id ∧ d'.kind = d.kind := by
  rw [findEntrance] at h
  split at h
  · obtain ⟨trigger, -, rfl⟩ := Option.map_eq_some_iff.1 h
    exact ⟨rfl, rfl⟩
  · obtain rfl := Option.some.inj h
    exact ⟨rfl, rfl⟩

theorem isSome_findEntrance : (findEntrance t d).isSome ↔
    d.type = LFG_TYPE_RANDOM ∨ atOrigin d.x d.y d.z = false ∨ (t.getMapEntranceTrigger d.map).isSome := by
  rw [findEntrance]
  split
  next h =>
    rw [Bool.and_eq_true, decide_eq_true_eq] at h
    simp [h.1, h.2]
  next h =>
  rw [Bool.and_eq_true, decide_eq_true_eq, not_and, Bool.not_eq_true] at h
  simp only [Option.isSome_some, true_iff]
  by_cases htype : d.type = LFG_TYPE_RANDOM
  · exact .inl htype
  · exact .inr (.inl (h htype))

/-- The dungeon with the row that counts for it. -/
def WorldTables.placed (t : WorldTables) (d : LFGDungeonData) : LFGDungeonData := (t.row? d.id).elim d d.place

theorem placed_kind : (t.placed d).id = d.id ∧ (t.placed d).kind = d.kind ∧ (t.placed d).map = d.map := by
  rw [WorldTables.placed]
  cases t.row? d.id <;> exact ⟨rfl, rfl, rfl⟩

/-- A dungeon of the client's table has no coordinates but those of its row. -/
theorem isSome_findEntrance_placed {id : Nat} (h : store.dungeon? id = some d) :
    (findEntrance t (t.placed d)).isSome ↔ t.Lists d := by
  obtain ⟨dbc, -, rfl⟩ := Option.map_eq_some_iff.1 h
  rw [isSome_findEntrance, WorldTables.Lists, WorldTables.HasEntrance, WorldTables.placed]
  cases t.row? (LFGDungeonData.ofEntry dbc).id with
  | none => simp [LFGDungeonData.ofEntry, atOrigin, FloatBits.isZero]
  | some row => simp [LFGDungeonData.place]

/-! ### The cache -/

variable {m : LfgCachedDungeonContainer} {g id : Nat}

theorem mem_cacheId (group i : Nat) : id ∈ cached (cacheId m group i) g ↔ id ∈ cached m g ∨ g = group ∧ id = i := by
  rw [cacheId, cached, OMap.find?_insert]
  split
  next heq =>
    subst heq
    simp [or_comm]
  next hne => simp [hne, cached]

/-- The sets that a dungeon is in. -/
def LFGDungeonData.InGroup (d : LFGDungeonData) (g : Nat) : Prop := g = 0 ∨ d.type ≠ LFG_TYPE_RANDOM ∧ d.group = g

theorem mem_cacheDungeon : id ∈ cached (cacheDungeon t m d) g ↔
    id ∈ cached m g ∨ (findEntrance t d).isSome ∧ d.id = id ∧ d.InGroup g := by
  rw [cacheDungeon]
  split
  next hnone => simp [hnone]
  next d' hsome =>
  obtain ⟨hid, hkind⟩ := findEntrance_kind hsome
  obtain ⟨htype, hgroup⟩ := Prod.mk.inj hkind
  rw [mem_cacheId, hid, htype, hgroup, hsome, LFGDungeonData.InGroup]
  split
  next hrandom =>
    rw [mem_cacheId]
    grind
  next hrandom => grind

theorem mem_cacheDungeons (l : List (Nat × LFGDungeonData)) :
    id ∈ cached (l.foldl (fun m itr => cacheDungeon t m itr.2) m) g ↔
      id ∈ cached m g ∨ ∃ itr ∈ l, (findEntrance t itr.2).isSome ∧ itr.2.id = id ∧ itr.2.InGroup g := by
  induction l generalizing m with
  | nil => simp
  | cons itr l ih => rw [List.foldl_cons, ih, mem_cacheDungeon, List.exists_mem_cons_iff, or_assoc]

/-! ### Loads -/

namespace DungeonStores

/-- The tables of the loads that the cache answers for, after one more call. -/
def keep (kept : List WorldTables) : Call → List WorldTables
  | .load t reload => if t.template.isEmpty then kept else if reload then [] else t :: kept
  | .get _ => kept

/-- The tables of the loads since the last one that emptied the cache. -/
def lasting (calls : List Call) : List WorldTables := calls.foldl keep []

/-- The store is that of the client's table, and the cache answers for the loads `kept`. -/
structure Follows (store : DBCStorage) (kept : List WorldTables) (s : DungeonStores) : Prop where
  kinds : ∀ id, (s.lfgDungeonStore.find? id).map (·.kind) = (store.dungeon? id).map (·.kind)
  listed : ∀ g id, id ∈ cached s.cachedDungeonMapStore g ↔
    ∃ d, store.dungeon? id = some d ∧ (∃ t ∈ kept, t.Lists d) ∧ d.InGroup g

variable {s : DungeonStores} {kept : List WorldTables} {reload : Bool}

/-- The store while the entrances are looked for. -/
theorem find?_placedStore (id : Nat) :
    (t.template.foldl (loadTemplate pl) ((List.range store.getNumRows).foldl (loadEntry pl store) .empty)).find? id =
      (store.dungeon? id).map t.placed := by
  rw [find?_placed, find?_filled]
  cases hd : store.dungeon? id with
  | none => rfl
  | some d =>
    rw [Option.map_some, Option.map_some, WorldTables.placed, WorldTables.row?, DBCStorage.dungeon?_id hd]

theorem kinds_load (s : DungeonStores) (t : WorldTables) (reload : Bool) (id : Nat) :
    ((s.loadLFGDungeons pl store t reload).lfgDungeonStore.find? id).map (·.kind) =
      (store.dungeon? id).map (·.kind) := by
  rw [loadLFGDungeons]
  extract_lets filled placed
  split
  · exact congrArg _ (find?_filled id)
  simp only [UMap.find?_mapValues]
  rw [find?_placedStore, Option.map_map, Option.map_map]
  congr 1
  funext d
  cases hfound : findEntrance t (t.placed d) with
  | none => simp [hfound, placed_kind.2.1]
  | some d' => simp [hfound, (findEntrance_kind hfound).2, placed_kind.2.1]

/-- What a load that leaves the cache lists: every dungeon with an entrance. -/
theorem exists_placed_entry : (∃ itr ∈ (t.template.foldl (loadTemplate pl)
        ((List.range store.getNumRows).foldl (loadEntry pl store) .empty)).entries,
      (findEntrance t itr.2).isSome ∧ itr.2.id = id ∧ itr.2.InGroup g) ↔
      ∃ d, store.dungeon? id = some d ∧ t.Lists d ∧ d.InGroup g := by
  have hgroup (d : LFGDungeonData) : (t.placed d).InGroup g ↔ d.InGroup g := by
    obtain ⟨htype, hgroup⟩ := Prod.mk.inj (placed_kind (t := t) (d := d)).2.1
    rw [LFGDungeonData.InGroup, LFGDungeonData.InGroup, htype, hgroup]
  constructor
  · rintro ⟨⟨i, d'⟩, hmem, hfound, hid, hin⟩
    rw [UMap.mem_entries, find?_placedStore, Option.map_eq_some_iff] at hmem
    obtain ⟨d, hd, rfl⟩ := hmem
    rw [placed_kind.1, DBCStorage.dungeon?_id hd] at hid
    subst hid
    exact ⟨d, hd, (isSome_findEntrance_placed hd).1 hfound, (hgroup d).1 hin⟩
  · rintro ⟨d, hd, hlists, hin⟩
    refine ⟨(id, t.placed d), ?_, (isSome_findEntrance_placed hd).2 hlists, ?_, (hgroup d).2 hin⟩
    · rw [UMap.mem_entries, find?_placedStore, hd, Option.map_some]
    · rw [placed_kind.1, DBCStorage.dungeon?_id hd]

theorem listed_load
    (h : ∀ g id, id ∈ cached s.cachedDungeonMapStore g ↔
      ∃ d, store.dungeon? id = some d ∧ (∃ t ∈ kept, t.Lists d) ∧ d.InGroup g) (g id : Nat) :
    id ∈ cached (s.loadLFGDungeons pl store t reload).cachedDungeonMapStore g ↔
      ∃ d, store.dungeon? id = some d ∧ (∃ t' ∈ keep kept (.load t reload), t'.Lists d) ∧ d.InGroup g := by
  rw [loadLFGDungeons, keep]
  extract_lets filled placed
  split
  · exact h g id
  dsimp only
  split
  · simp [cached]
  rw [mem_cacheDungeons, h, exists_placed_entry]
  simp only [List.exists_mem_cons_iff]
  constructor
  · rintro (⟨d, hd, hkept, hin⟩ | ⟨d, hd, hlists, hin⟩)
    · exact ⟨d, hd, .inr hkept, hin⟩
    · exact ⟨d, hd, .inl hlists, hin⟩
  · rintro ⟨d, hd, hlists | hkept, hin⟩
    · exact .inr ⟨d, hd, hlists, hin⟩
    · exact .inl ⟨d, hd, hkept, hin⟩

theorem cached_get (r g : Nat) : cached (s.getDungeonsByRandom r).2.cachedDungeonMapStore g =
    cached s.cachedDungeonMapStore g := by
  simp only [getDungeonsByRandom]
  rw [cached, OMap.find?_insert]
  split
  next heq => rw [heq]; rfl
  next => rfl

theorem Follows.step (h : Follows store kept s) : ∀ call, Follows store (keep kept call) (s.apply pl store call)
  | .load t reload => ⟨kinds_load s t reload, listed_load h.listed⟩
  | .get r => ⟨h.kinds, fun g id => by rw [apply, cached_get]; exact h.listed g id⟩

theorem Follows.run (t : WorldTables) (reload : Bool) (calls : List Call) :
    Follows store (lasting (.load t reload :: calls)) (run pl store (.load t reload :: calls)) := by
  have hfirst : Follows store (keep [] (.load t reload)) (empty.apply pl store (.load t reload)) :=
    ⟨kinds_load empty t reload, listed_load fun g id => by simp [empty, cached]⟩
  rw [lasting, DungeonStores.run, List.foldl_cons, List.foldl_cons]
  generalize keep [] (.load t reload) = kept at hfirst ⊢
  generalize empty.apply pl store (.load t reload) = s at hfirst ⊢
  induction calls generalizing kept s with
  | nil => exact hfirst
  | cons call calls ih => exact ih _ _ (hfirst.step call)

/-! ### Agreement -/

/-- The loads that the cache answers for found an entrance for every dungeon that a random one can lead to, and a random
dungeon without a group has no such load. -/
def Covered (store : DBCStorage) (kept : List WorldTables) : Prop :=
  ∀ r data, store.dungeon? r = some data → data.type = LFG_TYPE_RANDOM →
    (data.group = 0 → kept = []) ∧
      ∀ id d, store.dungeon? id = some d → d.type ≠ LFG_TYPE_RANDOM → d.group = data.group →
        ∃ t ∈ kept, t.HasEntrance d

/-- A dungeon of the store is one of the client's table of the same kind. -/
theorem Follows.exists_iff (h : Follows store kept s) (id : Nat) (p : Nat × Nat → Prop) :
    (∃ d, s.lfgDungeonStore.find? id = some d ∧ p d.kind) ↔ ∃ d, store.dungeon? id = some d ∧ p d.kind := by
  have hkind := h.kinds id
  cases hs : s.lfgDungeonStore.find? id with
  | none =>
    rw [hs, Option.map_none, eq_comm, Option.map_eq_none_iff] at hkind
    simp [hkind]
  | some d =>
    rw [hs, Option.map_some, eq_comm, Option.map_eq_some_iff] at hkind
    obtain ⟨d', hd', hkind⟩ := hkind
    simp [hd', hkind]

theorem Follows.agrees_iff (h : Follows store kept s) : s.Agrees ↔ Covered store kept := by
  have hget {r : Nat} {data : LFGDungeonData} (hr : s.lfgDungeonStore.find? r = some data) :
      (s.getDungeonsByRandom r).1 = cached s.cachedDungeonMapStore data.group := by
    rw [getDungeonsByRandom, hr]
    rfl
  constructor
  · intro hagrees r data hdata hrandom
    obtain ⟨data', hr, hkind⟩ := (h.exists_iff r (· = data.kind)).2 ⟨data, hdata, rfl⟩
    obtain ⟨htype, hgroup⟩ := Prod.mk.inj hkind
    have hset := hagrees r data' hr (htype.trans hrandom)
    rw [hget hr, hgroup] at hset
    refine ⟨fun hzero => ?_, fun id d hd hnot hsame => ?_⟩
    · -- the random dungeon itself is among those of group zero
      by_contra hkept
      obtain ⟨t, ht⟩ := List.exists_mem_of_ne_nil _ hkept
      obtain ⟨d, hd, hnot, -⟩ := (hset r).1 ((h.listed _ r).2 ⟨data, hdata, ⟨t, ht, .inl hrandom⟩, .inl hzero⟩)
      rw [hr] at hd
      obtain rfl := Option.some.inj hd
      exact hnot (htype.trans hrandom)
    · have hmem := (hset id).2 ((h.exists_iff id fun k => k.1 ≠ LFG_TYPE_RANDOM ∧ k.2 = data.group).2 ⟨d, hd, hnot, hsame⟩)
      obtain ⟨d', hd', ⟨t, ht, hlists⟩, -⟩ := (h.listed _ id).1 hmem
      rw [hd] at hd'
      obtain rfl := Option.some.inj hd'
      exact ⟨t, ht, hlists.resolve_left hnot⟩
  · intro hcovered r data' hr hrandom' id
    obtain ⟨data, hdata, hkind⟩ := (h.exists_iff r (· = data'.kind)).1 ⟨data', hr, rfl⟩
    obtain ⟨htype, hgroup⟩ := Prod.mk.inj hkind
    obtain ⟨hzero, hfound⟩ := hcovered r data hdata (htype.trans hrandom')
    rw [hget hr, h.listed, ← hgroup]
    refine Iff.trans ?_ (h.exists_iff id fun k => k.1 ≠ LFG_TYPE_RANDOM ∧ k.2 = data.group).symm
    constructor
    · rintro ⟨d, hd, ⟨t, ht, -⟩, hin⟩
      refine ⟨d, hd, hin.resolve_left fun hg => ?_⟩
      rw [hzero hg] at ht
      exact nomatch ht
    · rintro ⟨d, hd, hnot, hsame⟩
      obtain ⟨t, ht, hentrance⟩ := hfound id d hd hnot hsame
      exact ⟨d, hd, ⟨t, ht, .inr hentrance⟩, .inr ⟨hnot, hsame⟩⟩

/-- After a first load, whatever is loaded and asked then: the answers agree with the store if and only if the loads since
the last one that emptied the cache cover the random dungeons. -/
theorem run_agrees_iff (pl : Placement Nat LFGDungeonData) (store : DBCStorage) (t : WorldTables) (reload : Bool)
    (calls : List Call) :
    (run pl store (.load t reload :: calls)).Agrees ↔ Covered store (lasting (.load t reload :: calls)) :=
  (Follows.run t reload calls).agrees_iff

/-- A dungeon and a random one of its group. -/
def oneDungeon : DBCStorage where
  indexTable := [none, some ⟨1, 30, LFG_TYPE_DUNGEON, 7⟩, some ⟨2, 0, LFG_TYPE_RANDOM, 7⟩]
  indexed i dbc h := by
    rcases i with _ | _ | _ | i
    · exact nomatch h
    · cases h; rfl
    · cases h; rfl
    · exact nomatch h

/-- The place of the dungeon. -/
def onePlace : WorldTables := ⟨[⟨1, 0x3f800000#32, 0#32, 0#32, 0#32⟩], [], fun _ => false⟩

/-- A reload empties the cache. -/
theorem reload_empties : ¬ (run (.front _ _) oneDungeon [.load onePlace false, .load onePlace true]).Agrees := by
  intro h
  have hdungeon := h 2 ⟨2, 0, LFG_TYPE_RANDOM, 7, 0, 0, 0, 0⟩ rfl rfl 1
  have hmem := hdungeon.2 ⟨⟨1, 30, LFG_TYPE_DUNGEON, 7, 0x3f800000#32, 0#32, 0#32, 0#32⟩, rfl, by decide, rfl⟩
  exact absurd hmem (by decide)

end DungeonStores
end AtlasWow.Lfg
