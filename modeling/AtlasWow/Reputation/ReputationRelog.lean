/-
Reputation over a relog. Loading does not copy the flags of a row, it replays
them on the flags a new character has (`loadState_flags`), so that a relog gives
back each standing and the flags that are set, but declares war again on what
is hidden or hostile (`relog_restores`).
-/
import AtlasWow.Lib.Totals
import AtlasWow.Lib.UnorderedMap
import AtlasWow.Reputation.ReputationCounts

namespace AtlasWow.Reputation

open ReputationMgr

/-- `SetVisible`, but for the counter. -/
def FactionState.show (f : FactionState) : FactionState :=
  if f.staysHidden then f
  else if f.flags.visible then f
  else { f with flags := { f.flags with visible := true }, needSave := true }

/-- The flags of a row, replayed through the setters. -/
def replay (E : Env) (e : FactionEntry) (row : ReputationRow) (f : FactionState) : FactionState :=
  let f := if row.flags.visible then f.show else f
  let f := if row.flags.inactive then f.setInactive true else f
  let f := if row.flags.atWar then f.setAtWar true else if f.flags.visible then f.setAtWar false else f
  if reputationToRank (int32 (E.getBaseReputation e + row.standing)) ≤ .hostile then f.setAtWar true else f

/-- What a row makes of the state of its faction. -/
def loadState (E : Env) (e : FactionEntry) (row : ReputationRow) (f : FactionState) : FactionState :=
  let f := replay E e row { f with standing := row.standing }
  if f.flags = row.flags then { f with needSave := false } else f

/-- The sessions of a character, with the rows that are stored: from its creation, any requests, saves and logins. -/
inductive Session (E : Env) : ReputationMgr → OMap Nat ReputationRow → Prop
  | created : Session E (loadFromDB E []) .empty
  | setReputation {m m' : ReputationMgr} {table : OMap Nat ReputationRow} {e : FactionEntry} (standing : Int)
    (incremental spillOverOnly res : Bool) (h : Session E m table) (he : e ∈ E.store.entries)
    (hset : m.setReputation E e standing incremental spillOverOnly = some (res, m')) : Session E m' table
  | setVisible {m : ReputationMgr} {table : OMap Nat ReputationRow} (e : FactionEntry) (h : Session E m table) :
    Session E (m.setVisible e) table
  | setTemplateVisible {m : ReputationMgr} {table : OMap Nat ReputationRow} (faction : Nat) (h : Session E m table) :
    Session E (m.setTemplateVisible E faction) table
  | setAtWar {m : ReputationMgr} {table : OMap Nat ReputationRow} (repListID : Nat) (on : Bool) (h : Session E m table) :
    Session E (m.setAtWar repListID on) table
  | setInactive {m : ReputationMgr} {table : OMap Nat ReputationRow} (repListID : Nat) (on : Bool)
    (h : Session E m table) : Session E (m.setInactive repListID on) table
  | save {m : ReputationMgr} {table : OMap Nat ReputationRow} (h : Session E m table) :
    Session E (m.saveToDB table).1 (m.saveToDB table).2
  /-- The query gives the rows in any order. -/
  | login {m : ReputationMgr} {table : OMap Nat ReputationRow} {rows : List (Nat × ReputationRow)}
    (h : Session E m table) (hrows : rows.Perm table.entries) : Session E (loadFromDB E rows) table

/-- The war that a login declares: on a faction that is not shown and that the race starts at war with, and on a
hostile one, unless it is one of the own team. -/
def declaresWar (E : Env) (e : FactionEntry) (f : FactionState) : Bool :=
  !f.flags.visible && (E.getDefaultStateFlags e).atWar ||
    decide (reputationToRank (int32 (E.getBaseReputation e + f.standing)) ≤ .hostile) &&
      !((E.getDefaultStateFlags e).peaceForced && !(E.getDefaultStateFlags e).rival)

/-- What a new session has of the state of a faction. -/
structure Restored (E : Env) (e : FactionEntry) (f f' : FactionState) : Prop where
  standing : f'.standing = f.standing
  visible : f'.flags.visible = f.flags.visible
  atWar : f'.flags.atWar = (f.flags.atWar || declaresWar E e f)
  inactive : f.flags.inactive = true → f'.flags.inactive = true
  active : (E.getDefaultStateFlags e).inactive = false → f'.flags.inactive = f.flags.inactive

variable {E : Env} {m m' m'' : ReputationMgr} {table : OMap Nat ReputationRow} {e e' : FactionEntry} {k k' : Int}
  {f f' : FactionState} {D F : FactionFlags} {g h : FactionState → FactionState} {row : ReputationRow} {i : Bool}

/-! ## Flags -/

/-- What flags can become, from those of a new character. -/
structure Grown (D F : FactionFlags) : Prop where
  hidden : F.hidden = D.hidden
  invisibleForced : F.invisibleForced = D.invisibleForced
  peaceForced : F.peaceForced = D.peaceForced
  rival : F.rival = D.rival
  special : F.special = D.special
  shown : D.visible = true → F.visible = true
  visible : F.visible = true → D.visible = true ∨ ((D.invisibleForced || D.hidden) && !D.special) = false
  atWar : F.atWar = true → D.atWar = true ∨ (D.peaceForced && !D.rival) = false
  inactive : F.inactive = true → D.inactive = true ∨ (D.invisibleForced || D.hidden) = false ∧ F.visible = true

theorem Grown.refl (D : FactionFlags) : Grown D D := ⟨rfl, rfl, rfl, rfl, rfl, id, .inl, .inl, .inl⟩

/-- A write that keeps whose state it is, and after which a state that changed is saved. -/
structure Careful (g : FactionState → FactionState) : Prop where
  id : ∀ f, (g f).id = f.id
  grown : ∀ D f, Grown D f.flags → Grown D (g f).flags
  saved : ∀ f, (g f).needSave = false → g f = f

/-- The setters do not touch the standing. -/
structure Setter (g : FactionState → FactionState) : Prop extends Careful g where
  standing : ∀ f, (g f).standing = f.standing

theorem Careful.comp (hg : Careful g) (hh : Careful h) : Careful fun f => h (g f) where
  id f := (hh.id _).trans (hg.id f)
  grown D f hf := hh.grown D _ (hg.grown D f hf)
  saved f hf := by
    have hsame := hh.saved _ hf
    rw [hsame] at hf ⊢
    exact hg.saved f hf

theorem Setter.comp (hg : Setter g) (hh : Setter h) : Setter fun f => h (g f) :=
  ⟨hg.toCareful.comp hh.toCareful, fun f => (hh.standing _).trans (hg.standing f)⟩

theorem Setter.ite {p : FactionState → Prop} [DecidablePred p] (hg : Setter g)
    (hh : Setter h) : Setter fun f => if p f then g f else h f where
  id f := by
    split
    · exact hg.id f
    · exact hh.id f
  grown D f hf := by
    split
    · exact hg.grown D f hf
    · exact hh.grown D f hf
  saved f hf := by
    split at hf
    next h =>
      rw [if_pos h]
      exact hg.saved f hf
    next h =>
    rw [if_neg h]
    exact hh.saved f hf
  standing f := by
    split
    · exact hg.standing f
    · exact hh.standing f

theorem setter_id : Setter fun f => f := ⟨⟨fun _ => rfl, fun _ _ h => h, fun _ _ => rfl⟩, fun _ => rfl⟩

/-- The shape of the setters: a guard, nothing to do, or a write of flags. -/
theorem setter_write {p q : FactionState → Prop} [DecidablePred p] [DecidablePred q] {G : FactionFlags → FactionFlags}
    (hG : ∀ D f, ¬ p f → Grown D f.flags → Grown D (G f.flags)) :
    Setter fun f => if p f then f else if q f then f else { f with flags := G f.flags, needSave := true } where
  id f := by
    split
    · rfl
    · split <;> rfl
  grown D f hf := by
    split
    · exact hf
    next hguard =>
    split
    · exact hf
    · exact hG D f hguard hf
  saved f hf := by
    split at hf
    next h => rw [if_pos h]
    next h =>
    split at hf
    next h' => rw [if_neg h, if_pos h']
    next => cases hf
  standing f := by
    split
    · rfl
    · split <;> rfl

theorem setter_show : Setter FactionState.show :=
  @setter_write (fun f => f.staysHidden = true) (fun f => f.flags.visible = true) _ _ ({ · with visible := true }) fun
    D f hguard hf => by
    refine ⟨hf.hidden, hf.invisibleForced, hf.peaceForced, hf.rival, hf.special, fun _ => rfl, fun _ => .inr ?_, hf.atWar,
      fun hi => (hf.inactive hi).imp_right fun h => ⟨h.1, rfl⟩⟩
    unfold FactionState.staysHidden at hguard
    rw [hf.invisibleForced, hf.hidden, hf.special] at hguard
    exact Bool.eq_false_iff.2 hguard

theorem setter_setAtWar (on : Bool) : Setter (·.setAtWar on) :=
  @setter_write (fun f => (on && f.flags.peaceForced && !f.flags.rival) = true) (fun f => f.flags.atWar = on) _ _
    ({ · with atWar := on }) fun D f hguard hf => by
    refine ⟨hf.hidden, hf.invisibleForced, hf.peaceForced, hf.rival, hf.special, hf.shown, hf.visible, fun hon => .inr ?_,
      hf.inactive⟩
    dsimp only at hon
    rw [hon, Bool.true_and, hf.peaceForced, hf.rival] at hguard
    exact Bool.eq_false_iff.2 hguard

theorem setter_setInactive (on : Bool) : Setter (·.setInactive on) :=
  @setter_write (fun f => (on && (f.flags.invisibleForced || f.flags.hidden || !f.flags.visible)) = true)
    (fun f => f.flags.inactive = on) _ _ ({ · with inactive := on }) fun D f hguard hf => by
    refine ⟨hf.hidden, hf.invisibleForced, hf.peaceForced, hf.rival, hf.special, hf.shown, hf.visible, hf.atWar,
      fun hon => .inr ?_⟩
    dsimp only at hon
    rw [hon, Bool.true_and, hf.invisibleForced, hf.hidden, Bool.or_eq_true, not_or] at hguard
    exact ⟨Bool.eq_false_iff.2 hguard.1, by simpa using hguard.2⟩

theorem setter_replay (E : Env) (e : FactionEntry) (row : ReputationRow) : Setter (replay E e row) :=
  (((setter_show.ite setter_id (p := fun _ => row.flags.visible = true)).comp
    ((setter_setInactive true).ite setter_id (p := fun _ => row.flags.inactive = true))).comp
    ((setter_setAtWar true).ite ((setter_setAtWar false).ite setter_id (p := fun f => f.flags.visible = true))
      (p := fun _ => row.flags.atWar = true))).comp
    ((setter_setAtWar true).ite setter_id
      (p := fun _ => reputationToRank (int32 (E.getBaseReputation e + row.standing)) ≤ .hostile))

/-! ### The flags that a setter leaves -/

theorem show_flags (f : FactionState) :
    f.show.flags = { f.flags with visible := f.flags.visible || !f.staysHidden } := by
  unfold FactionState.show
  split
  next h => rw [h, Bool.not_true, Bool.or_false]
  next h =>
  rw [Bool.eq_false_iff.2 h, Bool.not_false, Bool.or_true]
  split
  next hv => rw [← hv]
  next => rfl

theorem setAtWar_flags (f : FactionState) :
    (f.setAtWar true).flags = { f.flags with atWar := f.flags.atWar || !(f.flags.peaceForced && !f.flags.rival) } := by
  unfold FactionState.setAtWar
  rw [Bool.true_and]
  split
  next h => rw [h, Bool.not_true, Bool.or_false]
  next h =>
  rw [Bool.eq_false_iff.2 h, Bool.not_false, Bool.or_true]
  split
  next hw => rw [← hw]
  next => rfl

theorem setPeace_flags (f : FactionState) : (f.setAtWar false).flags = { f.flags with atWar := false } := by
  unfold FactionState.setAtWar
  rw [Bool.false_and, Bool.false_and, if_neg Bool.false_ne_true]
  split
  next hw => rw [← hw]
  next => rfl

theorem setInactive_flags (f : FactionState) : (f.setInactive true).flags = { f.flags with
    inactive := f.flags.inactive || !(f.flags.invisibleForced || f.flags.hidden || !f.flags.visible) } := by
  unfold FactionState.setInactive
  rw [Bool.true_and]
  split
  next h => rw [h, Bool.not_true, Bool.or_false]
  next h =>
  rw [Bool.eq_false_iff.2 h, Bool.not_false, Bool.or_true]
  split
  next hi => rw [← hi]
  next => rfl

/-! ### The flags of a row, replayed on those of a new character -/

theorem load_visible (hG : Grown D F) (hf : f.flags = D) :
    (if F.visible then f.show else f).flags = { D with visible := F.visible } := by
  split
  next hv =>
    have hshown : (D.visible || !f.staysHidden) = true := by
      unfold FactionState.staysHidden
      rw [hf]
      rcases hG.visible hv with h | h
      · rw [h, Bool.true_or]
      · rw [h, Bool.not_false, Bool.or_true]
    rw [show_flags, hf, hshown, hv]
  next hv =>
  have hhidden : D.visible = false := Bool.eq_false_iff.2 fun h => hv (hG.shown h)
  rw [hf, Bool.eq_false_iff.2 hv, ← hhidden]

theorem load_inactive (hG : Grown D F) (hf : f.flags = { D with visible := F.visible }) :
    (if F.inactive then f.setInactive true else f).flags =
      { D with visible := F.visible, inactive := F.inactive || D.inactive } := by
  split
  next hi =>
    have hset : (D.inactive || !(D.invisibleForced || D.hidden || !F.visible)) = true := by
      rcases hG.inactive hi with h | ⟨h, hv⟩
      · rw [h, Bool.true_or]
      · rw [h, hv, Bool.not_true, Bool.or_false, Bool.not_false, Bool.or_true]
    rw [setInactive_flags, hf]
    dsimp only
    rw [hset, hi, Bool.true_or]
  next hi => rw [hf, Bool.eq_false_iff.2 hi, Bool.false_or]

theorem load_war (hG : Grown D F) (hf : f.flags = { D with visible := F.visible, inactive := i }) :
    (if F.atWar then f.setAtWar true else if f.flags.visible then f.setAtWar false else f).flags =
      { D with visible := F.visible, inactive := i, atWar := F.atWar || !F.visible && D.atWar } := by
  split
  next hw =>
    have hset : (D.atWar || !(D.peaceForced && !D.rival)) = true := by
      rcases hG.atWar hw with h | h
      · rw [h, Bool.true_or]
      · rw [h, Bool.not_false, Bool.or_true]
    rw [setAtWar_flags, hf]
    dsimp only
    rw [hset, hw, Bool.true_or]
  next hw =>
  rw [Bool.eq_false_iff.2 hw, Bool.false_or]
  split
  next hv =>
    rw [hf] at hv
    rw [setPeace_flags, hf, show F.visible = true from hv, Bool.not_true, Bool.false_and]
  next hv =>
  rw [hf] at hv
  rw [hf, show F.visible = false from Bool.eq_false_iff.2 hv, Bool.not_false, Bool.true_and]

theorem load_hostile {v w : Bool} (p : Prop) [Decidable p]
    (hf : f.flags = { D with visible := v, inactive := i, atWar := w }) :
    (if p then f.setAtWar true else f).flags =
      { D with visible := v, inactive := i, atWar := w || decide p && !(D.peaceForced && !D.rival) } := by
  split
  next hp => rw [setAtWar_flags, hf, decide_eq_true hp, Bool.true_and]
  next hp => rw [hf, decide_eq_false hp, Bool.false_and, Bool.or_false]

/-- A flag that was cleared comes back where a new character has it, and war with the hostile ones. -/
theorem loadState_flags (hG : Grown D row.flags) (hf : f.flags = D) :
    (loadState E e row f).flags = { D with
      visible := row.flags.visible
      inactive := row.flags.inactive || D.inactive
      atWar := row.flags.atWar || !row.flags.visible && D.atWar ||
        decide (reputationToRank (int32 (E.getBaseReputation e + row.standing)) ≤ .hostile) &&
          !(D.peaceForced && !D.rival) } := by
  have hflags := load_hostile (reputationToRank (int32 (E.getBaseReputation e + row.standing)) ≤ .hostile)
    (load_war hG (load_inactive hG (load_visible hG (f := { f with standing := row.standing }) hf)))
  unfold loadState
  dsimp only
  split <;> exact hflags

theorem loadState_standing (f : FactionState) : (loadState E e row f).standing = row.standing := by
  unfold loadState
  dsimp only
  split <;> exact (setter_replay E e row).standing _

/-! ## What an operation writes -/

/-- One state is written, if it is there. -/
structure Updates (k : Int) (g : FactionState → FactionState) (m m' : ReputationMgr) : Prop where
  find : ∀ k', m'.factions.find? k' = if k' = k then (m.factions.find? k).map g else m.factions.find? k'

theorem updates_modify (k : Int) (g : FactionState → FactionState) (m : ReputationMgr) : Updates k g m (m.modify k g) :=
  ⟨fun k' => find?_modify k k' g m⟩

theorem updates_id (k : Int) (m : ReputationMgr) : Updates k (fun f => f) m m := by
  refine ⟨fun k' => ?_⟩
  split
  next h => rw [h, Option.map_id']
  next => rfl

theorem Updates.comp (hg : Updates k g m m') (hh : Updates k h m' m'') : Updates k (fun f => h (g f)) m m'' := by
  refine ⟨fun k' => ?_⟩
  rw [hh.find k', hg.find k', hg.find k, if_pos rfl, Option.map_map]
  split <;> rfl

theorem Updates.ite {p : Prop} [Decidable p] (hg : Updates k g m m') (hh : Updates k h m m'') :
    Updates k (fun f => if p then g f else h f) m (if p then m' else m'') := by
  split
  · exact hg
  · exact hh

theorem updates_setVisibleState (k : Int) (m : ReputationMgr) : Updates k FactionState.show m (m.setVisibleState k) := by
  refine ⟨fun k' => ?_⟩
  unfold setVisibleState
  split
  next hf =>
    split
    next heq => rw [heq, hf, Option.map_none]
    next => rfl
  next f hf =>
  rw [hf, Option.map_some]
  unfold FactionState.show
  split
  next =>
    split
    next heq => rw [heq, hf]
    next => rfl
  next =>
  split
  next =>
    split
    next heq => rw [heq, hf]
    next => rfl
  next => exact OMap.find?_insert ..

theorem Updates.standingAt (hu : Updates k g m m') (hg : Setter g) (k' : Int) : standingAt m' k' = standingAt m k' := by
  unfold Reputation.standingAt
  rw [hu.find k']
  split
  next heq =>
    rw [heq, Option.map_map]
    exact congrArg (fun h => (m.factions.find? k).map h) (funext hg.standing)
  next => rfl

theorem updates_setOne (E : Env) (e : FactionEntry) (standing : Int) (incremental : Bool) (m : ReputationMgr) :
    ∃ g, Careful g ∧ Updates e.reputationListID g m (m.setOneFactionReputation E e standing incremental).2 := by
  cases hf : m.factions.find? e.reputationListID with
  | none =>
    rw [setOne_none hf]
    exact ⟨_, setter_id.toCareful, updates_id ..⟩
  | some f =>
    rw [setOne_some hf]
    generalize newStanding E e f standing incremental = v
    have hset : Careful fun f : FactionState =>
        { f with standing := int32 (v - E.getBaseReputation e), needSave := true } :=
      ⟨fun _ => rfl, fun _ _ h => h, fun _ h => Bool.noConfusion h⟩
    refine ⟨_, hset.comp (setter_show.comp ((setter_setAtWar true).ite setter_id
      (p := fun _ => reputationToRank v ≤ .hostile))).toCareful, ?_⟩
    have hstate : Updates e.reputationListID _ m (setOneState E e v m) :=
      ((updates_modify _ (fun f => { f with standing := int32 (v - E.getBaseReputation e), needSave := true }) _).comp
        (updates_setVisibleState ..)).comp
        ((updates_modify _ (·.setAtWar true) _).ite (updates_id ..) (p := reputationToRank v ≤ .hostile))
    exact ⟨hstate.find⟩

theorem updates_loadFlags (he : e ∈ E.listed) {s : Int} (hs : standingAt m e.reputationListID = some s)
    (flags : FactionFlags) :
    Updates e.reputationListID (fun f =>
      let f := replay E e ⟨s, flags⟩ f
      if f.flags = flags then { f with needSave := false } else f) m (loadFlags E e flags m) := by
  unfold loadFlags
  dsimp only
  generalize hm₁ : (if flags.visible then m.setVisibleState e.reputationListID else m) = m₁
  generalize hm₂ : (if flags.inactive then m₁.modify e.reputationListID (·.setInactive true) else m₁) = m₂
  generalize hm₃ : (if flags.atWar then m₂.modify e.reputationListID (·.setAtWar true)
    else m₂.modify e.reputationListID fun f => if f.flags.visible then f.setAtWar false else f) = m₃
  have h₁ : Updates e.reputationListID (fun f => if flags.visible then f.show else f) m m₁ := by
    rw [← hm₁]
    exact (updates_setVisibleState ..).ite (updates_id ..)
  have h₂ : Updates e.reputationListID (fun f => if flags.inactive then f.setInactive true else f) m₁ m₂ := by
    rw [← hm₂]
    exact (updates_modify ..).ite (updates_id ..)
  have h₃ : Updates e.reputationListID (fun f => if flags.atWar then f.setAtWar true
      else if f.flags.visible then f.setAtWar false else f) m₂ m₃ := by
    rw [← hm₃]
    exact (updates_modify ..).ite (updates_modify ..)
  have hrank : m₃.getRank E e = reputationToRank (int32 (E.getBaseReputation e + s)) := by
    refine getRank_of he ?_
    rw [h₃.standingAt ((setter_setAtWar true).ite ((setter_setAtWar false).ite setter_id
        (p := fun f => f.flags.visible = true)) (p := fun _ => flags.atWar = true)),
      h₂.standingAt ((setter_setInactive true).ite setter_id (p := fun _ => flags.inactive = true)),
      h₁.standingAt (setter_show.ite setter_id (p := fun _ => flags.visible = true)), hs]
  rw [hrank]
  exact (((h₁.comp h₂).comp h₃).comp ((updates_modify _ (·.setAtWar true) _).ite (updates_id ..)
    (p := reputationToRank (int32 (E.getBaseReputation e + s)) ≤ .hostile))).comp
    (updates_modify _ (fun f => if f.flags = flags then { f with needSave := false } else f) _)

/-- A row writes the state of its faction. -/
theorem updates_loadRow {r : Nat × ReputationRow} (he : e ∈ E.listed) (hlook : E.store.lookupEntry r.1 = some e) :
    Updates e.reputationListID (loadState E e r.2) m (loadRow E m r) := by
  have hstate : m.getState e = m.factions.find? e.reputationListID := by
    unfold getState
    rw [if_pos (List.mem_filter.1 he).2]
  cases hf : m.factions.find? e.reputationListID with
  | none =>
    rw [loadRow_none fun e' he' => by
      rw [← Option.some.inj (hlook.symm.trans he'), hstate, hf]]
    refine ⟨fun k' => ?_⟩
    split
    next heq => rw [heq, hf, Option.map_none]
    next => rfl
  | some f =>
    rw [loadRow_some hlook (hstate.trans hf)]
    have hstanding : standingAt (m.modify e.reputationListID fun f => { f with standing := r.2.standing })
        e.reputationListID = some r.2.standing := by
      rw [standingAt_modify, if_pos rfl, hf, Option.map_some]
    generalize hm₁ : (m.modify e.reputationListID fun f => { f with standing := r.2.standing }) = m₁ at hstanding ⊢
    have hset : Updates e.reputationListID (fun f => { f with standing := r.2.standing }) m
        (m₁.updateRankCounters (reputationToRank (E.getBaseReputation e))
          (reputationToRank (int32 (E.getBaseReputation e + r.2.standing)))) := by
      rw [← hm₁]
      exact ⟨(updates_modify ..).find⟩
    exact hset.comp (@updates_loadFlags E (m₁.updateRankCounters ..) e he r.2.standing hstanding r.2.flags)

/-! ## The invariant -/

/-- The state of a faction, against what is stored of it. -/
structure Kept (E : Env) (table : OMap Nat ReputationRow) (e : FactionEntry) (f : FactionState) : Prop where
  id : f.id = e.id
  grown : Grown (E.getDefaultStateFlags e) f.flags
  saved : f.needSave = false → table.find? e.id = some ⟨f.standing, f.flags⟩

/-- Rows are stored of the factions that have a state only. -/
def OwnRows (E : Env) (table : OMap Nat ReputationRow) : Prop :=
  ∀ id row, table.find? id = some row → ∃ e, E.owner e.reputationListID = some e ∧ e.id = id

structure Held (E : Env) (m : ReputationMgr) (table : OMap Nat ReputationRow) : Prop where
  owned : ∀ k f, m.factions.find? k = some f → ∃ e, E.owner k = some e ∧ Kept E table e f
  rows : OwnRows E table

theorem Held.update (h : Held E m table) (hu : Updates k g m m') (hg : Careful g) : Held E m' table := by
  refine ⟨fun k' f' hf' => ?_, h.rows⟩
  rw [hu.find k'] at hf'
  split at hf'
  next heq =>
    obtain ⟨f, hf, rfl⟩ := Option.map_eq_some_iff.1 hf'
    obtain ⟨e, he, hkept⟩ := h.owned k f hf
    refine ⟨e, heq ▸ he, (hg.id f).trans hkept.id, hg.grown _ f hkept.grown, fun hsaved => ?_⟩
    have hsame := hg.saved f hsaved
    rw [hsame] at hsaved ⊢
    exact hkept.saved hsaved
  next => exact h.owned k' f' hf'

theorem Held.setVisibleState (h : Held E m table) (k : Int) : Held E (m.setVisibleState k) table :=
  h.update (updates_setVisibleState k m) setter_show.toCareful

theorem Held.setReputation {standing : Int} {incremental spillOverOnly res : Bool} (h : Held E m table)
    (he : e ∈ E.store.entries) (hset : m.setReputation E e standing incremental spillOverOnly = some (res, m')) :
    Held E m' table :=
  setReputation_keeps (P := (Held E · table)) (fun e _ standing m h => by
    obtain ⟨g, hg, hu⟩ := updates_setOne E e standing incremental m
    exact h.update hu hg) he hset h

theorem Held.setAtWar (h : Held E m table) (repListID : Nat) (on : Bool) : Held E (m.setAtWar repListID on) table := by
  unfold ReputationMgr.setAtWar
  split
  · exact h
  split
  · exact h
  · exact h.update (updates_modify ..) (setter_setAtWar on).toCareful

theorem Held.setInactive (h : Held E m table) (repListID : Nat) (on : Bool) :
    Held E (m.setInactive repListID on) table :=
  h.update (updates_modify ..) (setter_setInactive on).toCareful

/-! ### A login -/

theorem owner_eq (he : E.owner k = some e) (he' : E.owner k' = some e') (h : e.id = e'.id) : e = e' :=
  FactionStore.eq_of_id (Env.mem_listed.1 (Env.owner_some he).1).1 (Env.mem_listed.1 (Env.owner_some he').1).1 h

theorem lookup_owner (he : E.owner k = some e) : E.store.lookupEntry e.id = some e :=
  FactionStore.lookupEntry_id (Env.mem_listed.1 (Env.owner_some he).1).1

/-- The rows of a character: one for a faction, of factions that have a state. -/
structure GoodRows (E : Env) (rows : List (Nat × ReputationRow)) : Prop where
  nodup : (rows.map Prod.fst).Nodup
  own : ∀ r ∈ rows, ∃ e, E.owner e.reputationListID = some e ∧ e.id = r.1

variable {rows : List (Nat × ReputationRow)}

/-- Each state is loaded from the row of its faction, if there is one. -/
theorem find?_loadFromDB (hrows : GoodRows E rows) (he : E.owner k = some e) :
    (loadFromDB E rows).factions.find? k = some (match rows.lookup e.id with
      | some row => loadState E e row (E.freshState e)
      | none => E.freshState e) := by
  have hfold : ∀ (rows : List (Nat × ReputationRow)) (m : ReputationMgr), GoodRows E rows →
      (rows.foldl (loadRow E) m).factions.find? k = (m.factions.find? k).map fun f =>
        match rows.lookup e.id with
        | some row => loadState E e row f
        | none => f := by
    intro rows
    induction rows with
    | nil => exact fun m _ => Option.map_id'.symm
    | cons r rows ih =>
      intro m hgood
      obtain ⟨hr, hnodup⟩ := List.nodup_cons.1 hgood.nodup
      obtain ⟨e', he', hid⟩ := hgood.own r List.mem_cons_self
      have hu := @updates_loadRow E m e' r (Env.owner_some he').1 (hid ▸ lookup_owner he')
      rw [List.foldl_cons, ih _ ⟨hnodup, fun r hr => hgood.own r (List.mem_cons_of_mem _ hr)⟩, hu.find k]
      by_cases hk : e.id = r.1
      · have heq := owner_eq he he' (hk.trans hid.symm)
        subst heq
        have hlist := (Env.owner_some he).2
        rw [if_pos hlist.symm, hlist, OMap.lookup_eq_none (hk ▸ hr), hk]
        rw [Option.map_map, show r = (r.1, r.2) from rfl, List.lookup_cons_self]
        rfl
      rw [if_neg fun heq => hk ?_]
      · rw [show r = (r.1, r.2) from rfl, List.lookup_cons, show (e.id == r.1) = false from beq_eq_false_iff_ne.2 hk]
      · rw [← heq, he] at he'
        rw [Option.some.inj he', hid]
  unfold loadFromDB
  rw [hfold rows _ hrows, find?_initializeFactions, he]
  rfl

theorem goodRows_of_perm (h : OwnRows E table) (hrows : rows.Perm table.entries) : GoodRows E rows where
  nodup := (hrows.map Prod.fst).nodup_iff.2 table.nodup_keys
  own r hr := h r.1 r.2 (OMap.mem_entries.1 (hrows.mem_iff.1 hr))

theorem lookup_of_perm (h : OwnRows E table) (hrows : rows.Perm table.entries)
    (id : Nat) : rows.lookup id = table.find? id := by
  refine Option.ext fun row => ?_
  rw [UMap.lookup_eq_some (goodRows_of_perm h hrows).nodup, hrows.mem_iff, OMap.mem_entries]

theorem find?_loadFromDB_none (hrows : GoodRows E rows) (hk : E.owner k = none) :
    (loadFromDB E rows).factions.find? k = none := by
  have hfold : ∀ (rows : List (Nat × ReputationRow)) (m : ReputationMgr), GoodRows E rows →
      m.factions.find? k = none → (rows.foldl (loadRow E) m).factions.find? k = none := by
    intro rows
    induction rows with
    | nil => exact fun m _ hm => hm
    | cons r rows ih =>
      intro m hgood hm
      obtain ⟨e', he', hid⟩ := hgood.own r List.mem_cons_self
      have hu := @updates_loadRow E m e' r (Env.owner_some he').1 (hid ▸ lookup_owner he')
      refine ih _ ⟨(List.nodup_cons.1 hgood.nodup).2, fun r hr => hgood.own r (List.mem_cons_of_mem _ hr)⟩ ?_
      rw [hu.find k]
      split
      next heq => rw [← heq, hm, Option.map_none]
      next => exact hm
  refine hfold rows _ hrows ?_
  rw [find?_initializeFactions, hk, Option.map_none]

theorem kept_loadState (h : table.find? e.id = some row) : Kept E table e (loadState E e row (E.freshState e)) := by
  have hreplay := setter_replay E e row
  have hgrown := hreplay.grown _ { E.freshState e with standing := row.standing } (Grown.refl (E.getDefaultStateFlags e))
  unfold loadState
  dsimp only
  split
  next hflags =>
    refine ⟨hreplay.id _, hgrown, fun _ => ?_⟩
    rw [h, hflags, hreplay.standing]
  next =>
  refine ⟨hreplay.id _, hgrown, fun hsaved => ?_⟩
  -- a new state is to be saved
  have hsame := hreplay.saved _ hsaved
  rw [hsame] at hsaved
  cases hsaved

theorem Held.login (h : OwnRows E table) (hrows : rows.Perm table.entries) : Held E (loadFromDB E rows) table := by
  refine ⟨fun k f hf => ?_, h⟩
  have hgood := goodRows_of_perm h hrows
  cases he : E.owner k with
  | none =>
    rw [find?_loadFromDB_none hgood he] at hf
    cases hf
  | some e =>
    refine ⟨e, rfl, ?_⟩
    rw [find?_loadFromDB hgood he, lookup_of_perm h hrows] at hf
    cases hrow : table.find? e.id with
    | none =>
      rw [hrow] at hf
      rw [← Option.some.inj hf]
      exact ⟨rfl, .refl _, fun hsaved => by cases hsaved⟩
    | some row =>
      rw [hrow] at hf
      rw [← Option.some.inj hf]
      exact kept_loadState hrow

/-! ### A save -/

/-- The rows that a save writes. -/
def newRows (m : ReputationMgr) : List (Nat × ReputationRow) :=
  (m.factions.entries.filter (·.2.needSave)).map fun f => (f.2.id, ⟨f.2.standing, f.2.flags⟩)

theorem saveToDB_table (m : ReputationMgr) (table : OMap Nat ReputationRow) :
    (m.saveToDB table).2 = table.insertAll (newRows m) := by
  unfold saveToDB OMap.insertAll newRows
  rw [List.foldl_map]

theorem mem_newRows {r : Nat × ReputationRow} :
    r ∈ newRows m ↔ ∃ k f, m.factions.find? k = some f ∧ f.needSave = true ∧ r = (f.id, ⟨f.standing, f.flags⟩) := by
  unfold newRows
  simp only [List.mem_map, List.mem_filter, Prod.exists, OMap.mem_entries, and_assoc, eq_comm]

theorem Held.nodup_newRows (h : Held E m table) : ((newRows m).map Prod.fst).Nodup := by
  unfold newRows
  rw [List.map_map]
  refine List.Nodup.map_on (fun p hp q hq heq => ?_) (m.factions.nodup_entries.filter _)
  obtain ⟨k, f⟩ := p
  obtain ⟨k', f'⟩ := q
  have hf := OMap.mem_entries.1 (List.mem_filter.1 hp).1
  have hf' := OMap.mem_entries.1 (List.mem_filter.1 hq).1
  obtain ⟨e, he, hkept⟩ := h.owned k f hf
  obtain ⟨e', he', hkept'⟩ := h.owned k' f' hf'
  have hsame := owner_eq he he' (hkept.id.symm.trans (Eq.trans heq hkept'.id))
  have hk : k = k' := by rw [← (Env.owner_some he).2, hsame, (Env.owner_some he').2]
  subst hk
  rw [Option.some.inj (hf.symm.trans hf')]

/-- After a save the table has a row for each state, equal to it. -/
theorem Held.find?_saved (h : Held E m table) (he : E.owner k = some e) (hf : m.factions.find? k = some f) :
    (m.saveToDB table).2.find? e.id = some ⟨f.standing, f.flags⟩ := by
  obtain ⟨e', he', hkept⟩ := h.owned k f hf
  rw [he] at he'
  cases he'
  rw [saveToDB_table, OMap.find?_insertAll h.nodup_newRows]
  cases hsave : f.needSave with
  | true =>
    have hmem : (e.id, (⟨f.standing, f.flags⟩ : ReputationRow)) ∈ newRows m :=
      mem_newRows.2 ⟨k, f, hf, hsave, by rw [hkept.id]⟩
    rw [(UMap.lookup_eq_some h.nodup_newRows).2 hmem]
    rfl
  | false =>
    have hnone : (newRows m).lookup e.id = none := by
      refine OMap.lookup_eq_none fun hmem => ?_
      obtain ⟨r, hr, hid⟩ := List.mem_map.1 hmem
      obtain ⟨k', f', hf', hsave', rfl⟩ := mem_newRows.1 hr
      obtain ⟨e', he', hkept'⟩ := h.owned k' f' hf'
      have hsame := owner_eq he he' (hid.symm.trans hkept'.id)
      have hk : k = k' := by rw [← (Env.owner_some he).2, hsame, (Env.owner_some he').2]
      subst hk
      rw [hf] at hf'
      cases hf'
      rw [hsave] at hsave'
      cases hsave'
    rw [hnone]
    exact hkept.saved hsave

theorem Held.save (h : Held E m table) : Held E (m.saveToDB table).1 (m.saveToDB table).2 := by
  refine ⟨fun k f hf => ?_, fun id row hrow => ?_⟩
  · have hfind : (m.saveToDB table).1.factions.find? k =
        (m.factions.find? k).map fun f => { f with needSave := false } := OMap.find?_mapValues ..
    rw [hfind] at hf
    obtain ⟨f₀, hf₀, rfl⟩ := Option.map_eq_some_iff.1 hf
    obtain ⟨e, he, hkept⟩ := h.owned k f₀ hf₀
    have hsaved := h.find?_saved he hf₀
    exact ⟨e, he, hkept.id, hkept.grown, fun _ => hsaved⟩
  · rw [saveToDB_table, OMap.find?_insertAll h.nodup_newRows, Option.or_eq_some_iff] at hrow
    rcases hrow with hnew | ⟨-, hold⟩
    · obtain ⟨k, f, hf, -, heq⟩ := mem_newRows.1 ((UMap.lookup_eq_some h.nodup_newRows).1 hnew)
      obtain ⟨e, he, hkept⟩ := h.owned k f hf
      rw [Prod.mk.injEq] at heq
      exact ⟨e, by rw [(Env.owner_some he).2, he], by rw [heq.1, hkept.id]⟩
    · exact h.rows id row hold

/-! ## Relogs -/

theorem Session.held (h : Session E m table) : Held E m table := by
  induction h with
  | created => exact .login (fun id row hrow => by cases hrow) .nil
  | setReputation standing incremental spillOverOnly res _ he hset ih => exact ih.setReputation he hset
  | setVisible e _ ih => exact setVisible_keeps (P := (Held E · _)) ih.setVisibleState ih e
  | setTemplateVisible faction _ ih =>
    exact setTemplateVisible_keeps (P := (Held E · _)) ih.setVisibleState ih faction
  | setAtWar repListID on _ ih => exact ih.setAtWar repListID on
  | setInactive repListID on _ ih => exact ih.setInactive repListID on
  | save _ ih => exact ih.save
  | login _ hrows ih => exact .login ih.rows hrows

theorem restored_loadState (hG : Grown (E.getDefaultStateFlags e) f.flags) :
    Restored E e f (loadState E e ⟨f.standing, f.flags⟩ (E.freshState e)) := by
  have hflags : (loadState E e ⟨f.standing, f.flags⟩ (E.freshState e)).flags = _ := loadState_flags hG rfl
  refine ⟨loadState_standing _, by rw [hflags], ?_, fun hi => ?_, fun hi => ?_⟩
  · rw [hflags]
    exact Bool.or_assoc ..
  · rw [hflags]
    exact Bool.or_eq_true_iff.2 (.inl hi)
  · rw [hflags]
    dsimp only
    rw [hi, Bool.or_false]

/-- What a new session makes of a state. -/
theorem find?_relog (h : Held E m table)
    (hrows : rows.Perm (m.saveToDB table).2.entries) (hf : m.factions.find? k = some f) (he : E.owner k = some e) :
    (loadFromDB E rows).factions.find? k = some (loadState E e ⟨f.standing, f.flags⟩ (E.freshState e)) := by
  rw [find?_loadFromDB (goodRows_of_perm h.save.rows hrows) he, lookup_of_perm h.save.rows hrows, h.find?_saved he hf]

/-- A relog gives back every faction, with the standing and the flags it had, but for the wars a login declares. -/
theorem relog_restores {rows : List (Nat × ReputationRow)} (h : Session E m table)
    (hrows : rows.Perm (m.saveToDB table).2.entries) (hf : m.factions.find? k = some f) :
    ∃ e f', E.owner k = some e ∧ (loadFromDB E rows).factions.find? k = some f' ∧ Restored E e f f' := by
  obtain ⟨e, he, hkept⟩ := h.held.owned k f hf
  exact ⟨e, _, he, find?_relog h.held hrows hf he, restored_loadState hkept.grown⟩

/-- A hated faction that the race starts at war with. -/
def enemyFaction : FactionEntry :=
  ⟨1, 0, fun _ => 1, fun _ => 0, fun _ => -42000, fun _ => { FactionFlags.none with visible := true, atWar := true }, 0, 1,
    0, 0⟩

def enemyEnv : Env where
  store := ⟨[enemyFaction], List.pairwise_singleton _ _, by simp [enemyFaction], by simp [enemyFaction]⟩
  getRepSpilloverTemplate _ := none
  gainRate := 1
  round := id
  raceMask := 1
  classMask := 1

theorem enemyEnv_row : enemyEnv.baseRow enemyFaction = some 0 := by
  unfold Env.baseRow
  rw [show List.finRange 4 = [0, 1, 2, 3] by decide, List.find?_cons_of_pos]
  simp [enemyFaction, enemyEnv]

theorem enemyEnv_flags :
    enemyEnv.getDefaultStateFlags enemyFaction = { FactionFlags.none with visible := true, atWar := true } := by
  unfold Env.getDefaultStateFlags
  rw [enemyEnv_row]
  rfl

/-- The player makes peace with it. -/
def enemyPeace : ReputationMgr := (loadFromDB enemyEnv []).setAtWar 0 false

theorem find?_enemyPeace :
    enemyPeace.factions.find? 0 = some ((enemyEnv.freshState enemyFaction).setAtWar false) := by
  have hfresh : (loadFromDB enemyEnv []).factions.find? (0 : Nat) = some (enemyEnv.freshState enemyFaction) :=
    find?_initializeFactions enemyEnv 0
  unfold enemyPeace ReputationMgr.setAtWar
  rw [hfresh]
  dsimp only
  rw [if_neg (by
    show ¬ ((enemyEnv.getDefaultStateFlags enemyFaction).invisibleForced ||
      (enemyEnv.getDefaultStateFlags enemyFaction).hidden) = true
    rw [enemyEnv_flags]
    decide)]
  exact (find?_modify ..).trans (congrArg (Option.map _) hfresh)

theorem relog_of_enemy : ∃ e f', enemyEnv.owner 0 = some e ∧
    (loadFromDB enemyEnv (enemyPeace.saveToDB .empty).2.entries).factions.find? 0 = some f' ∧
    Restored enemyEnv e ((enemyEnv.freshState enemyFaction).setAtWar false) f' :=
  relog_restores (.setAtWar 0 false .created) (.refl _) find?_enemyPeace

/-- Peace with a hated faction is war again after a relog. -/
theorem peace_undone : ∃ (E : Env) (m : ReputationMgr) (table : OMap Nat ReputationRow) (f f' : FactionState),
    Session E m table ∧ m.factions.find? 0 = some f ∧
    (loadFromDB E (m.saveToDB table).2.entries).factions.find? 0 = some f' ∧
    f.flags.atWar = false ∧ f'.flags.atWar = true := by
  have hsession : Session enemyEnv enemyPeace .empty := .setAtWar 0 false .created
  have howner : enemyEnv.owner 0 = some enemyFaction := rfl
  obtain ⟨e, he, hkept⟩ := hsession.held.owned 0 _ find?_enemyPeace
  rw [howner] at he
  cases he
  refine ⟨enemyEnv, enemyPeace, .empty, _, _, hsession, find?_enemyPeace,
    find?_relog hsession.held (.refl _) find?_enemyPeace howner, by rw [setPeace_flags], ?_⟩
  have hbase : enemyEnv.getBaseReputation enemyFaction = -42000 := by
    unfold Env.getBaseReputation
    rw [enemyEnv_row]
    rfl
  rw [(restored_loadState hkept.grown).atWar]
  unfold declaresWar
  rw [(setter_setAtWar false).standing, hbase, enemyEnv_flags, int32_of_range (by decide) (by decide)]
  exact Bool.or_eq_true_iff.2 (.inr (by decide))

end AtlasWow.Reputation
