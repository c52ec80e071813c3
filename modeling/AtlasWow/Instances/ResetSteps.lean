/-
The steps of the instance save manager keep the queue settled: an event that is
due (`Settled.processFirst`), so an update, which comes to an end; a new
instance; and a forced reset of the only map that is reset at fixed times.
-/
import AtlasWow.Instances.ResetTimes
import Mathlib.Algebra.BigOperators.Group.List.Basic
import Mathlib.Algebra.GroupWithZero.Nat

namespace AtlasWow.Instances.InstanceSaveManager

variable {data : Data} {s s' : InstanceSaveManager} {keys : List Nat} {types : Nat → Nat} {key : Nat} {now : Int}
  {individual individual' : List (Int × InstResetEvent)}

/-- Other events come and go. -/
theorem Settled.others (h : s.Settled data keys types individual) (htimes : s'.resetTimes = s.resetTimes)
    (hqueue : s'.resetTimeQueue.entries.Perm (individual' ++ keys.map (s.globalEntry types)))
    (hlog : ∃ l, s'.log = s.log ++ l ∧ ∀ key ∈ keys, historyOf key l = []) (hindividual : ∀ e ∈ individual', IsIndividual s'.log e) :
    s'.Settled data keys types individual' := by
  obtain ⟨l, hl, hnone⟩ := hlog
  have hget (key : Nat) : s'.getResetTimeFor key = s.getResetTimeFor key := by
    unfold getResetTimeFor
    rw [htimes]
  refine ⟨?_, hindividual, h.typed, fun key hkey => ?_, fun key hkey => ?_⟩
  · have hsame : s'.globalEntry types = s.globalEntry types := funext fun key => by rw [globalEntry, hget]; rfl
    rwa [hsame]
  · rw [htimes]
    exact h.times key hkey
  · have hhistory : historyOf key s'.log = historyOf key s.log := by
      rw [hl, historyOf, List.filter_append, ← historyOf, ← historyOf, hnone key hkey, List.append_nil]
    rw [hget, hhistory]
    exact h.timeline key hkey

/-! Warnings and resets -/

theorem resetOrWarnAll_warn (hkey : key ∈ data.resetKeys) (resetTime now : Int) (s : InstanceSaveManager) :
    s.resetOrWarnAll data (PAIR32_LOPART key) (PAIR32_HIPART key) true resetTime now =
      some { s with log := s.log ++ [.warned (PAIR32_LOPART key) (PAIR32_HIPART key) resetTime now] } := by
  unfold resetOrWarnAll
  rw [Data.resetKeys_instanceable hkey]
  rfl

theorem resetOrWarnAll_reset (hkey : key ∈ data.resetKeys) {resetTime next t : Int}
    (hnext : data.getSubsequentResetTime key resetTime = next) (hpos : next ≠ 0) (ht : s.resetTimes.find? key = some t) :
    s.resetOrWarnAll data (PAIR32_LOPART key) (PAIR32_HIPART key) false resetTime now =
      some
        { resetTimes := s.resetTimes.insert key next
          resetTimeQueue := s.resetTimeQueue.insert (next - resetTimeDelay 1) (globalEvent key 1)
          log := s.log ++ [.reset (PAIR32_LOPART key) (PAIR32_HIPART key) next now] } := by
  have hlt := Data.resetKeys_lt hkey
  unfold resetOrWarnAll
  rw [Data.resetKeys_instanceable hkey, MAKE_PAIR32_parts hlt, hnext]
  simp only [Bool.not_true, Bool.false_eq_true, if_false, if_neg hpos, setResetTimeFor, ht, Option.map_some, scheduleReset,
    new_globalEvent hlt (by omega : 1 ≤ 4), initializeResetTimeFor, resetTimeDelay_one]

/-! The first event -/

/-- How far the events of the queue are overdue. -/
def weight (now : Int) (l : List (Int × InstResetEvent)) : Nat := (l.map fun e => (now - e.1).toNat).sum

variable {l : List (Int × InstResetEvent)} {e : Int × InstResetEvent} {instanceId : Nat}

theorem weight_perm {l' : List (Int × InstResetEvent)} (h : l.Perm l') : weight now l = weight now l' :=
  (h.map _).sum_eq

theorem weight_cons (e : Int × InstResetEvent) (l : List (Int × InstResetEvent)) :
    weight now (e :: l) = (now - e.1).toNat + weight now l := rfl

/-- An overdue event comes back later. -/
theorem weight_later {e' : Int × InstResetEvent} (hdue : e.1 < now) (hlater : e.1 < e'.1) (l : List (Int × InstResetEvent)) :
    weight now (e' :: l) < weight now (e :: l) := by
  rw [weight_cons, weight_cons]
  omega

theorem key_globalEvent (h : key < MAX_RAID_DIFFICULTY * 2 ^ 16) (type : Nat) : (globalEvent key type).key = key :=
  MAKE_PAIR32_parts h

/-- An event for one instance is due. -/
theorem Settled.processIndividual
    (h : s.Settled data keys types individual) (hentries : s.resetTimeQueue.entries = e :: l) (he : e ∈ individual)
    (hdue : e.1 < now) : ∃ s', s.processFirst data now = some s' ∧ s'.Settled data keys types (individual.erase e) ∧
      weight now s'.resetTimeQueue.entries < weight now s.resetTimeQueue.entries := by
  obtain ⟨htype, -⟩ := h.individual e he
  have hprocess : s.processFirst data now =
      some { s.resetInstance data e.2.mapid e.2.instanceId with
        resetTimeQueue := (s.resetInstance data e.2.mapid e.2.instanceId).resetTimeQueue.popFirst } := by
    unfold processFirst
    rw [hentries]
    exact if_pos htype
  have hreset : ∃ l, s.resetInstance data e.2.mapid e.2.instanceId = { s with log := s.log ++ l } ∧ ∀ key, historyOf key l = [] := by
    unfold resetInstance
    split
    next => exact ⟨_, rfl, fun _ => rfl⟩
    next => exact ⟨[], by rw [List.append_nil], fun _ => rfl⟩
  obtain ⟨log, hlog, hnone⟩ := hreset
  have hqueue := h.queue
  rw [hentries] at hqueue
  refine ⟨_, hprocess, ?_, ?_⟩
  · rw [hlog]
    refine h.others rfl ?_ ⟨log, rfl, fun key _ => hnone key⟩ fun x hx => ?_
    · show s.resetTimeQueue.entries.tail.Perm _
      rw [hentries, List.tail_cons]
      exact (List.perm_cons _).1 (hqueue.trans ((List.perm_cons_erase he).append_right _))
    · exact (h.individual x (List.mem_of_mem_erase hx)).mono fun _ hx => List.mem_append_left log hx
  · rw [hlog]
    show weight now s.resetTimeQueue.entries.tail < _
    rw [hentries, List.tail_cons, weight_cons]
    omega

/-- A warning is due. -/
theorem Settled.processWarning (h : s.Settled data data.resetKeys types individual)
    (hkey : key ∈ data.resetKeys) (hentries : s.resetTimeQueue.entries = s.globalEntry types key :: l)
    (hdue : s.getResetTimeFor key - resetTimeDelay (types key) < now) (htype : types key < 4) :
    ∃ s', s.processFirst data now = some s' ∧
      s'.Settled data data.resetKeys (Function.update types key (types key + 1)) individual ∧
      weight now s'.resetTimeQueue.entries < weight now s.resetTimeQueue.entries := by
  have hlt := Data.resetKeys_lt hkey
  have hone := (h.typed key hkey).1
  have hperm := List.perm_cons_erase hkey
  obtain ⟨t, ht, hpos, hhour⟩ := h.times key hkey
  have hget : s.getResetTimeFor key = t := by rw [getResetTimeFor, ht]; rfl
  have hdelay : resetTimeDelay (types key + 1) < resetTimeDelay (types key) := by
    have hcases : types key = 1 ∨ types key = 2 ∨ types key = 3 := by omega
    rcases hcases with h | h | h <;> rw [h] <;> decide
  -- the queue with the next event, and the old one gone
  have hnext : ((s.resetTimeQueue.changeFirst fun _ => globalEvent key (types key + 1)).insert
      (t - resetTimeDelay (types key + 1)) (globalEvent key (types key + 1))).popFirst.entries =
      OMultimap.insertEntry (t - resetTimeDelay (types key + 1)) (globalEvent key (types key + 1)) l := by
    have hchanged : (s.resetTimeQueue.changeFirst fun _ => globalEvent key (types key + 1)).entries =
        (t - resetTimeDelay (types key), globalEvent key (types key + 1)) :: l := by
      show s.resetTimeQueue.entries.modifyHead _ = _
      rw [hentries, globalEntry, hget]
      rfl
    show List.tail (OMultimap.insert _ _ _).entries = _
    rw [OMultimap.insert_first hchanged (by dsimp only; omega), List.tail_cons]
  have hprocess : s.processFirst data now = some
      { s with
        log := s.log ++ [.warned (PAIR32_LOPART key) (PAIR32_HIPART key) t now]
        resetTimeQueue := ((s.resetTimeQueue.changeFirst fun _ => globalEvent key (types key + 1)).insert
          (t - resetTimeDelay (types key + 1)) (globalEvent key (types key + 1))).popFirst } := by
    unfold processFirst
    rw [hentries]
    show (if types key = 0 then _ else _) = _
    rw [if_neg (by omega), key_globalEvent hlt, hget]
    show Option.map _ (s.resetOrWarnAll data (PAIR32_LOPART key) (PAIR32_HIPART key) (decide (types key ≠ 4)) t now) = _
    rw [decide_eq_true (Nat.ne_of_lt htype), resetOrWarnAll_warn hkey, Option.map_some]
    simp only [globalEvent, if_pos (Nat.ne_of_lt htype), scheduleReset, Bool.not_true, Bool.false_eq_true, if_false, ne_eq]
  refine ⟨_, hprocess, ?_, ?_⟩
  · have hdrop := (h.perm hperm).drop (.of_eq hentries) (q := s.resetTimeQueue.popFirst) (.of_eq (by
      show s.resetTimeQueue.entries.tail = l
      rw [hentries, List.tail_cons]))
    have habout : ∀ x ∈ [Happening.warned (PAIR32_LOPART key) (PAIR32_HIPART key) t now], x.isAbout key = true := by
      simp [Happening.isAbout, MAKE_PAIR32_parts hlt]
    refine Settled.perm (hdrop.add (t := t) data.nodup_resetKeys.not_mem_erase (OMap.insert_find? ht).symm ?_
      ⟨_, rfl, fun other hother => historyOf_other habout hother⟩ ⟨by omega, by omega⟩ hpos hhour ?_) hperm.symm
    · show List.Perm (OMultimap.popFirst _).entries (_ :: s.resetTimeQueue.entries.tail)
      rw [hnext, hentries, List.tail_cons]
      exact OMultimap.perm_insertEntry ..
    · obtain ⟨start, hstart, htimeline⟩ := h.timeline key hkey
      rw [hget] at htimeline
      refine ⟨start, hstart, ?_⟩
      show Timeline data key start (historyOf key (s.log ++ _)) _
      rw [historyOf_append habout]
      exact htimeline.warned _ _ hone htype (hget ▸ hdue)
  · show weight now (OMultimap.popFirst _).entries < _
    rw [hnext, weight_perm (OMultimap.perm_insertEntry ..), hentries]
    refine weight_later hdue ?_ l
    show s.getResetTimeFor key - resetTimeDelay (types key) < _
    rw [hget]
    exact Int.sub_lt_sub_left hdelay t

/-- A reset is due. -/
theorem Settled.processReset (h : s.Settled data data.resetKeys types individual)
    (hdays : data.WholeDays) (hkey : key ∈ data.resetKeys) (hentries : s.resetTimeQueue.entries = s.globalEntry types key :: l)
    (hdue : s.getResetTimeFor key - resetTimeDelay (types key) < now) (htype : types key = 4) :
    ∃ s', s.processFirst data now = some s' ∧
      s'.Settled data data.resetKeys (Function.update types key 1) individual ∧
      weight now s'.resetTimeQueue.entries < weight now s.resetTimeQueue.entries := by
  have hlt := Data.resetKeys_lt hkey
  have hperm := List.perm_cons_erase hkey
  obtain ⟨t, ht, hpos, hhour⟩ := h.times key hkey
  have hget : s.getResetTimeFor key = t := by rw [getResetTimeFor, ht]; rfl
  have hsubsequent := hdays.next_eq hkey hhour
  have hmod := hdays.periodOf_mod hkey
  obtain ⟨hnextPos, hlater⟩ := data.next_period key hpos
  have hfirst : s.resetTimeQueue.entries = (t - resetTimeDelay 4, globalEvent key 4) :: l := by
    rw [hentries, globalEntry, hget, htype]
  have hnext : (s.resetTimeQueue.insert (t + data.periodOf key - resetTimeDelay 1) (globalEvent key 1)).popFirst.entries =
      OMultimap.insertEntry (t + data.periodOf key - resetTimeDelay 1) (globalEvent key 1) l := by
    show List.tail (OMultimap.insert _ _ _).entries = _
    rw [OMultimap.insert_first hfirst (Int.le_of_lt hlater), List.tail_cons]
  have hprocess : s.processFirst data now = some
      { resetTimes := s.resetTimes.insert key (t + data.periodOf key)
        resetTimeQueue := (s.resetTimeQueue.insert (t + data.periodOf key - resetTimeDelay 1) (globalEvent key 1)).popFirst
        log := s.log ++ [.reset (PAIR32_LOPART key) (PAIR32_HIPART key) (t + data.periodOf key) now] } := by
    unfold processFirst
    rw [hfirst]
    show (if (globalEvent key 4).type = 0 then _ else _) = _
    rw [if_neg (by simp [globalEvent]), key_globalEvent hlt, hget]
    show Option.map _ (s.resetOrWarnAll data (PAIR32_LOPART key) (PAIR32_HIPART key) false t now) = _
    rw [resetOrWarnAll_reset hkey hsubsequent (Int.ne_of_gt hnextPos) ht, Option.map_some]
    rfl
  refine ⟨_, hprocess, ?_, ?_⟩
  · have hdrop := (h.perm hperm).drop (.of_eq hentries) (q := s.resetTimeQueue.popFirst) (.of_eq (by
      show s.resetTimeQueue.entries.tail = l
      rw [hentries, List.tail_cons]))
    have habout : ∀ x ∈ [Happening.reset (PAIR32_LOPART key) (PAIR32_HIPART key) (t + data.periodOf key) now],
        x.isAbout key = true := by
      simp [Happening.isAbout, MAKE_PAIR32_parts hlt]
    refine Settled.perm (hdrop.add (t := t + data.periodOf key) data.nodup_resetKeys.not_mem_erase rfl ?_
      ⟨_, rfl, fun other hother => historyOf_other habout hother⟩ ⟨Nat.le_refl 1, by decide⟩ (Int.le_of_lt hnextPos) ?_ ?_) hperm.symm
    · show List.Perm (OMultimap.popFirst _).entries (_ :: s.resetTimeQueue.entries.tail)
      rw [hnext, hentries, List.tail_cons]
      exact OMultimap.perm_insertEntry ..
    · rw [Int.add_emod, hmod, Int.add_zero, Int.emod_emod]
      exact hhour
    · obtain ⟨start, hstart, htimeline⟩ := h.timeline key hkey
      rw [hget, htype] at htimeline
      refine ⟨start, hstart, ?_⟩
      show Timeline data key start (historyOf key (s.log ++ _)) _
      rw [historyOf_append habout]
      rw [hget, htype] at hdue
      exact htimeline.reset _ _ hdue
  · show weight now (OMultimap.popFirst _).entries < _
    rw [hnext, weight_perm (OMultimap.perm_insertEntry ..), hfirst]
    rw [hget, htype] at hdue
    exact weight_later hdue hlater l

/-! Updates -/

/-- The first event, if it is due. -/
theorem Settled.processFirst (h : s.Settled data data.resetKeys types individual) (hdays : data.WholeDays)
    (hdue : s.isDue now = true) :
    ∃ s' types' individual', s.processFirst data now = some s' ∧ s'.Settled data data.resetKeys types' individual' ∧
      weight now s'.resetTimeQueue.entries < weight now s.resetTimeQueue.entries := by
  unfold isDue at hdue
  cases hentries : s.resetTimeQueue.entries with
  | nil =>
    rw [hentries] at hdue
    cases hdue
  | cons e l =>
    rw [hentries] at hdue
    have hdue : e.1 < now := by simpa using hdue
    have hmem : e ∈ individual ++ data.resetKeys.map (s.globalEntry types) := by
      rw [← h.queue.mem_iff, hentries]
      exact List.mem_cons_self
    rcases List.mem_append.1 hmem with he | he
    · obtain ⟨s', hs', hsettled, hweight⟩ := h.processIndividual hentries he hdue
      exact ⟨s', _, _, hs', hsettled, hentries ▸ hweight⟩
    obtain ⟨key, hkey, rfl⟩ := List.mem_map.1 he
    rcases Nat.lt_or_eq_of_le (h.typed key hkey).2 with htype | htype
    · obtain ⟨s', hs', hsettled, hweight⟩ := h.processWarning hkey hentries hdue htype
      exact ⟨s', _, _, hs', hsettled, hentries ▸ hweight⟩
    · obtain ⟨s', hs', hsettled, hweight⟩ := h.processReset hdays hkey hentries hdue htype
      exact ⟨s', _, _, hs', hsettled, hentries ▸ hweight⟩

/-- Every map difficulty with a reset time has its event in the queue. -/
def IsSettled (data : Data) (s : InstanceSaveManager) : Prop := ∃ types individual, s.Settled data data.resetKeys types individual

/-- An update comes to an end, with no event left that is due. -/
theorem IsSettled.update_ends (h : s.IsSettled data) (hdays : data.WholeDays) (now : Int) :
    ∃ rounds s', s.update data rounds now = some s' ∧ s'.IsSettled data ∧ s'.isDue now = false := by
  obtain ⟨s', hrun, hsettled, hdue⟩ := whileLoop_ends (IsSettled data) (fun s => weight now s.resetTimeQueue.entries)
    (fun s hs hdue => by
      obtain ⟨types, individual, hs⟩ := hs
      obtain ⟨s', types', individual', hs', hsettled, hweight⟩ := hs.processFirst hdays hdue
      exact ⟨s', hs', ⟨types', individual', hsettled⟩, hweight⟩) h (Nat.le_refl _)
  exact ⟨_, s', hrun, hsettled, hdue⟩

theorem IsSettled.update (h : s.IsSettled data) (hdays : data.WholeDays) {rounds : Nat}
    (hupdate : s.update data rounds now = some s') : s'.IsSettled data :=
  (whileLoop_invariant (IsSettled data) (fun s s' hs hdue hs' => by
    obtain ⟨types, individual, hs⟩ := hs
    obtain ⟨s'', types', individual', hs'', hsettled, -⟩ := hs.processFirst hdays hdue
    rw [hs', Option.some.injEq] at hs''
    exact ⟨types', individual', hs'' ▸ hsettled⟩) h hupdate).1

/-! New instances -/

theorem Settled.scheduleInstance (h : s.Settled data keys types individual) (time : Int) (mapid difficulty : Nat)
    (hid : instanceId ≠ 0) (hlt : instanceId < 2 ^ 16) :
    (s.scheduleInstance time 0 mapid difficulty instanceId).Settled data keys types
      ((time, .new 0 mapid difficulty instanceId) :: individual) := by
  have hsame : (InstResetEvent.new 0 mapid difficulty instanceId).instanceId = instanceId := Nat.mod_eq_of_lt hlt
  refine h.others rfl ?_ ⟨_, rfl, fun _ _ => rfl⟩ fun e he => ?_
  · exact (OMultimap.perm_insert ..).trans (h.queue.cons _)
  · rcases List.mem_cons.1 he with rfl | he
    · refine ⟨rfl, ?_, mapid, difficulty, ?_, ?_⟩
      · rw [hsame]
        exact hid
      · rw [hsame]
        exact List.mem_append_right _ List.mem_cons_self
      · rw [hsame]
    · exact (h.individual e he).mono fun _ hx => List.mem_append_left _ hx

theorem IsSettled.addInstanceSave (h : s.IsSettled data) (mapId : Nat) (difficulty : Nat) (resetTime now : Int)
    (known : Bool) (hlt : instanceId < 2 ^ 16) :
    (s.addInstanceSave data mapId instanceId difficulty resetTime now known).IsSettled data := by
  unfold InstanceSaveManager.addInstanceSave
  split
  next => exact h
  next =>
  split
  next => exact h
  next mapType _ =>
  split
  next => exact h
  next hid =>
  generalize (if mapType = .mapRaid then MAX_RAID_DIFFICULTY else MAX_DUNGEON_DIFFICULTY) = limit
  split
  next => exact h
  next =>
  split
  next =>
    obtain ⟨types, individual, hsettled⟩ := h
    exact ⟨types, _, hsettled.scheduleInstance _ mapId difficulty hid hlt⟩
  next => exact h

/-! Forced resets -/

/-- What is cancelled is an event of instance 0, whichever it is: the only one there is. -/
theorem scheduleReset_cancel
    (h : s.resetTimeQueue.entries.Perm (e :: l)) (he : e.2.instanceId = 0) (hrest : ∀ x ∈ l, x.2.instanceId ≠ 0)
    (type mapid difficulty : Nat) :
    ∃ queue, s.scheduleReset false 0 (.new type mapid difficulty 0) = { s with resetTimeQueue := queue } ∧ queue.entries.Perm l := by
  have hequals (x : InstResetEvent) : x.equals (.new type mapid difficulty 0) = decide (0 = x.instanceId) := rfl
  unfold scheduleReset
  simp only [Bool.not_false, if_true]
  split
  next hany =>
    refine ⟨_, rfl, OMultimap.perm_eraseFirst h ?_ fun x hx => ?_⟩
    · obtain ⟨x, hx, hfound⟩ := List.any_eq_true.1 hany
      rw [hequals, Bool.and_eq_true, decide_eq_true_eq] at hfound
      -- an event of instance 0 is the only one
      rcases List.mem_cons.1 (h.mem_iff.1 hx) with rfl | hx
      · simp [hequals, hfound.1, hfound.2]
      · exact absurd (of_decide_eq_true hfound.2).symm (hrest x hx)
    · rw [hequals, decide_eq_false (hrest x hx).symm, Bool.and_false]
  next =>
  refine ⟨_, rfl, OMultimap.perm_eraseFirst h ?_ fun x hx => ?_⟩
  · rw [hequals, he]
    rfl
  · rw [hequals, decide_eq_false (hrest x hx).symm]

/-- There is nothing to cancel. -/
theorem scheduleReset_none (h : ∀ x ∈ s.resetTimeQueue.entries, x.2.instanceId ≠ 0) (type mapid difficulty : Nat) :
    ∃ queue, s.scheduleReset false 0 (.new type mapid difficulty 0) = { s with resetTimeQueue := queue } ∧
      queue.entries = s.resetTimeQueue.entries := by
  have hequals (x : InstResetEvent) : x.equals (.new type mapid difficulty 0) = decide (0 = x.instanceId) := rfl
  unfold scheduleReset
  simp only [Bool.not_false, if_true]
  split
  next =>
    refine ⟨_, rfl, OMultimap.eraseFirst_of_none fun x hx => ?_⟩
    rw [hequals, decide_eq_false (h x hx).symm, Bool.and_false]
  next =>
  refine ⟨_, rfl, OMultimap.eraseFirst_of_none fun x hx => ?_⟩
  rw [hequals, decide_eq_false (h x hx).symm]

/-- Nothing is reset at a fixed time, so nothing is cancelled or reset. -/
theorem IsSettled.forceNothing (h : s.IsSettled data) (hkeys : data.resetKeys = []) (mapId difficulty : Nat) (now : Int)
    (hforce : s.forceGlobalReset data mapId difficulty now = some s') : s'.IsSettled data := by
  obtain ⟨types, individual, hsettled⟩ := h
  rw [hkeys] at hsettled
  have hperm : s.resetTimeQueue.entries.Perm individual := by simpa using hsettled.queue
  have hids : ∀ x ∈ s.resetTimeQueue.entries, x.2.instanceId ≠ 0 :=
    fun x hx => (hsettled.individual x (hperm.mem_iff.1 hx)).2.1
  unfold InstanceSaveManager.forceGlobalReset at hforce
  split at hforce
  next =>
    cases hforce
    exact ⟨types, individual, by rwa [hkeys]⟩
  next d _ =>
  obtain ⟨queue₁, hs₁, hqueue₁⟩ := scheduleReset_none hids 1 mapId d
  obtain ⟨queue₂, hs₂, hqueue₂⟩ :=
    scheduleReset_none (s := { s with resetTimeQueue := queue₁ }) (by rw [hqueue₁]; exact hids) 4 mapId d
  dsimp only at hforce
  rw [hs₁, hs₂] at hforce
  have hnothing : data.getSubsequentResetTime (MAKE_PAIR32 mapId d) now = 0 := by
    unfold Data.getSubsequentResetTime
    split
    next => rfl
    next delay hfind =>
    refine if_pos (not_not.1 fun hdelay => ?_)
    have hmem : MAKE_PAIR32 mapId d ∈ data.resetKeys := Data.mem_resetKeys.2 ⟨delay, hfind, hdelay⟩
    rw [hkeys] at hmem
    cases hmem
  have hs' : s' = { s with resetTimeQueue := queue₂, log := s.log ++ [.forced mapId d now] } := by
    unfold resetOrWarnAll at hforce
    rw [hnothing] at hforce
    split at hforce
    next => exact (Option.some.inj hforce).symm
    next => exact (Option.some.inj hforce).symm
  rw [hs']
  refine ⟨types, individual, ?_⟩
  rw [hkeys]
  refine hsettled.others rfl ?_ ⟨_, rfl, nofun⟩ fun e he =>
    (hsettled.individual e he).mono fun _ hx => List.mem_append_left _ hx
  rw [List.map_nil, List.append_nil]
  exact (List.Perm.of_eq (hqueue₂.trans hqueue₁)).trans hperm

/-- The only map difficulty with a reset time is reset: a new period begins. -/
theorem IsSettled.forceOnly (h : s.IsSettled data) (hdays : data.WholeDays) (hkeys : data.resetKeys = [key]) {difficulty : Nat}
    (hdownscaled : data.downscaled (PAIR32_LOPART key) difficulty = some (PAIR32_HIPART key))
    (hlater : s.getResetTimeFor key < data.getSubsequentResetTime key now)
    (hforce : s.forceGlobalReset data (PAIR32_LOPART key) difficulty now = some s') : s'.IsSettled data := by
  have hkey : key ∈ data.resetKeys := by rw [hkeys]; exact List.mem_cons_self
  have hlt := Data.resetKeys_lt hkey
  obtain ⟨types, individual, hsettled⟩ := h
  rw [hkeys] at hsettled
  obtain ⟨t, ht, hpos, hhour⟩ := hsettled.times key List.mem_cons_self
  have hget : s.getResetTimeFor key = t := by rw [getResetTimeFor, ht]; rfl
  rw [hget] at hlater
  have hids : ∀ x ∈ individual, x.2.instanceId ≠ 0 := fun x hx => (hsettled.individual x hx).2.1
  have hperm : s.resetTimeQueue.entries.Perm (s.globalEntry types key :: individual) :=
    hsettled.queue.trans List.perm_append_comm
  obtain ⟨queue₁, hs₁, hqueue₁⟩ := scheduleReset_cancel hperm rfl hids 1 (PAIR32_LOPART key) (PAIR32_HIPART key)
  obtain ⟨queue₂, hs₂, hqueue₂⟩ := scheduleReset_none (s := { s with resetTimeQueue := queue₁ })
    (fun x hx => hids x (hqueue₁.mem_iff.1 hx)) 4 (PAIR32_LOPART key) (PAIR32_HIPART key)
  have hqueue : queue₂.entries.Perm individual := (List.Perm.of_eq hqueue₂).trans hqueue₁
  unfold InstanceSaveManager.forceGlobalReset at hforce
  rw [hdownscaled] at hforce
  dsimp only at hforce
  rw [hs₁, hs₂] at hforce
  dsimp only at hforce
  rw [resetOrWarnAll_reset hkey rfl (by omega) (by exact ht), Option.some.injEq] at hforce
  have hdrop := hsettled.drop hperm hqueue
  have habout : ∀ x ∈ [Happening.forced (PAIR32_LOPART key) (PAIR32_HIPART key) now,
      .reset (PAIR32_LOPART key) (PAIR32_HIPART key) (data.getSubsequentResetTime key now) now], x.isAbout key = true := by
    simp [Happening.isAbout, MAKE_PAIR32_parts hlt]
  refine ⟨Function.update types key 1, individual, ?_⟩
  rw [hkeys, ← hforce]
  refine hdrop.add (t := data.getSubsequentResetTime key now) List.not_mem_nil rfl (OMultimap.perm_insert ..)
    ⟨_, List.append_assoc .., fun other hother => historyOf_other habout hother⟩ ⟨Nat.le_refl 1, by decide⟩ (by omega)
    (hdays.next_mod hkey now) ?_
  obtain ⟨start, hstart, htimeline⟩ := hsettled.timeline key List.mem_cons_self
  rw [hget] at htimeline
  refine ⟨start, hstart, ?_⟩
  dsimp only
  rw [List.append_assoc, List.cons_append, List.nil_append, historyOf_append habout]
  exact htimeline.forced _ _ hlater (hdays.next_mod hkey now)

end AtlasWow.Instances.InstanceSaveManager
