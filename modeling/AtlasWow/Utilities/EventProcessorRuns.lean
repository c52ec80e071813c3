/-
What `KillAllEvents` keeps of the places of events (`Visit`: the entries the
iterator has passed, and the rest), that `Update` ends (`update_ends`), and what
holds of every run (`events_once`).
-/
import AtlasWow.Utilities.EventPlaces

namespace AtlasWow

namespace EventProcessor

variable {out mid : Option Nat} {m m' : EventProcessor} {event time : Nat} {force : Bool} {bodies : EventBodies}
  {w w' : Walk} {passed rest : List (Nat × Nat)}

/-! ## KillAllEvents -/

/-- The entries that stand for their events: when the queue is to be cleared, those that are passed are gone. -/
def standing (force : Bool) (passed rest : List (Nat × Nat)) (x : Nat) : Nat :=
  (if force then 0 else (passed.map (·.2)).count x) + (rest.map (·.2)).count x

/-- The iterator has passed some of the entries. -/
structure Visit (force : Bool) (passed rest : List (Nat × Nat)) (w : Walk) : Prop where
  entries : w.2.events.entries = passed ++ rest
  itr : w.1 = passed.length
  gone : force = true → ∀ e ∈ passed, .deleted e.2 ∈ w.2.log

/-- The iterator stands at an entry, which is out of the queue for the count: its event is being aborted or deleted. -/
def Stands (force : Bool) (time event : Nat) (out : Option Nat) (w : Walk) : Prop :=
  ∃ passed rest, Visit force passed ((time, event) :: rest) w ∧ Inv (standing force passed rest) out none w.2

theorem standing_passed (passed rest : List (Nat × Nat)) (x : Nat) :
    standing false passed rest x = (passed.map (·.2)).count x + (rest.map (·.2)).count x := rfl

theorem standing_pos {x : Nat} (hrest : x ∉ rest.map (·.2)) (hpassed : x ∉ passed.map (·.2)) :
    standing force passed rest x = 0 := by
  unfold standing
  rw [List.count_eq_zero_of_not_mem hrest, List.count_eq_zero_of_not_mem hpassed]
  split <;> rfl

/-- An entry is put among those of a walk. -/
theorem insert_visit (h : (passed ++ (time, event) :: rest).Pairwise fun p q => p.1 ≤ q.1)
    (time' event' : Nat) (hforce : force = true → time ≤ time') :
    ∃ passed' rest', OMultimap.insertEntry time' event' (passed ++ (time, event) :: rest) = passed' ++ (time, event) :: rest' ∧
      passed'.length = passed.length + (if time' < time then 1 else 0) ∧ (force = true → passed' = passed) ∧
      ∀ x, standing force passed' rest' x = standing force passed rest x + if x = event' then 1 else 0 := by
  by_cases hlt : time' < time
  · have hno : force = false := by
      cases force with
      | false => rfl
      | true => exact absurd (hforce rfl) (not_le.2 hlt)
    refine ⟨OMultimap.insertEntry time' event' passed, rest, OMultimap.insertEntry_before hlt event' passed rest, ?_, ?_, fun x => ?_⟩
    · rw [(OMultimap.perm_insertEntry time' event' passed).length_eq, List.length_cons, if_pos hlt]
    · rw [hno]
      nofun
    · rw [hno, standing_passed, standing_passed, count_insertEntry]
      omega
  refine ⟨passed, OMultimap.insertEntry time' event' rest, OMultimap.insertEntry_behind h (not_lt.1 hlt) event', ?_,
    fun _ => rfl, fun x => ?_⟩
  · rw [if_neg hlt]
    rfl
  · unfold standing
    rw [count_insertEntry]
    omega

/-- An entry, not the one the iterator stands at, is taken from those of a walk. -/
theorem erase_visit {passed rest : List (Nat × Nat)} {event' : Nat} (hne : event' ≠ event)
    (hmem : event' ∈ (passed ++ (time, event) :: rest).map (·.2)) (hforce : force = true → event' ∉ passed.map (·.2)) :
    ∃ passed' rest' j, (passed ++ (time, event) :: rest).findIdx? (fun e => e.2 = event') = some j ∧ j ≠ passed.length ∧
      (passed ++ (time, event) :: rest).eraseP (fun e => e.2 = event') = passed' ++ (time, event) :: rest' ∧
      passed'.length = (if j < passed.length then passed.length - 1 else passed.length) ∧ (force = true → passed' = passed) ∧
      ∀ x, standing force passed' rest' x + (if x = event' then 1 else 0) = standing force passed rest x := by
  have hfind : ∀ {l : List (Nat × Nat)}, event' ∈ l.map (·.2) → ∃ j, l.findIdx? (fun e => e.2 = event') = some j ∧ j < l.length := by
    intro l hl
    obtain ⟨e, he, hv⟩ := List.mem_map.1 hl
    cases hj : l.findIdx? (fun e => e.2 = event') with
    | none => simpa [hv] using List.findIdx?_eq_none_iff.1 hj e he
    | some j => exact ⟨j, rfl, (List.findIdx?_eq_some_iff_getElem.1 hj).1⟩
  by_cases hpassed : event' ∈ passed.map (·.2)
  · have hno : force = false := by
      cases force with
      | false => rfl
      | true => exact absurd hpassed (hforce rfl)
    obtain ⟨e, he, hv⟩ := List.mem_map.1 hpassed
    obtain ⟨j, hj, hlt⟩ := hfind hpassed
    have hlen := List.length_eraseP_of_mem (p := fun e : Nat × Nat => e.2 = event') he (by simpa using hv)
    refine ⟨passed.eraseP (fun e => e.2 = event'), rest, j, ?_, Nat.ne_of_lt hlt, ?_, ?_, ?_, fun x => ?_⟩
    · rw [List.findIdx?_append, hj, Option.some_or]
    · exact List.eraseP_append_left (by simpa using hv) _ he
    · rw [hlen, if_pos hlt]
    · rw [hno]
      nofun
    · rw [hno, standing_passed, standing_passed, ← count_eraseP hpassed x]
      omega
  · have hrest : event' ∈ rest.map (·.2) := by
      rw [List.map_append, List.map_cons, List.mem_append, List.mem_cons] at hmem
      exact (hmem.resolve_left hpassed).resolve_left hne
    have hnone : ∀ e ∈ passed, ¬ (decide (e.2 = event')) = true := fun e he hv =>
      hpassed (List.mem_map.2 ⟨e, he, of_decide_eq_true hv⟩)
    have hhead : decide (event = event') = false := decide_eq_false (Ne.symm hne)
    obtain ⟨j, hj, -⟩ := hfind hrest
    refine ⟨passed, rest.eraseP (fun e => e.2 = event'), j + 1 + passed.length, ?_, by omega, ?_, ?_, fun _ => rfl, fun x => ?_⟩
    · rw [List.findIdx?_append, List.findIdx?_eq_none_iff.2 fun e he => by simpa using hnone e he, Option.none_or,
        List.findIdx?_cons, if_neg (by simpa using Ne.symm hne), hj]
      rfl
    · rw [List.eraseP_append_right _ hnone, List.eraseP_cons_of_neg (by simpa using Ne.symm hne)]
    · rw [if_neg (by omega)]
    · have := count_eraseP hrest x
      unfold standing
      omega

variable {c : EventCall} {cs : List EventCall}

theorem Stands.call (h : Stands force time event out w) (hout : ∀ x, out = some x → x = event)
    (hfresh : Fresh none c w.2) (hbehind : Behind force time event c w.2) (hc : walkCall time c w = some w') :
    Stands force time event out w' := by
  obtain ⟨itr, m⟩ := w
  obtain ⟨passed, rest, hvisit, hinv⟩ := h
  have hentries : m.events.entries = passed ++ (time, event) :: rest := hvisit.entries
  have hitr : itr = passed.length := hvisit.itr
  have hsorted := m.events.sorted
  rw [hentries] at hsorted
  cases c with
  | addEvent event' time' setAddtime =>
    cases hc
    obtain ⟨hnew, hdel, -⟩ := hfresh
    obtain ⟨passed', rest', hins, hlen, hsame, hcount⟩ := insert_visit hsorted time' event' hbehind
    have hnew' : event' ∉ (passed ++ (time, event) :: rest).map (·.2) := by
      rw [← hentries]
      exact hnew
    rw [List.map_append, List.map_cons, List.mem_append, List.mem_cons, not_or, not_or] at hnew'
    refine ⟨passed', rest', ⟨?_, ?_, fun hf e he => List.mem_cons_of_mem _ (hvisit.gone hf e (hsame hf ▸ he))⟩, ?_⟩
    · show OMultimap.insertEntry time' event' m.events.entries = _
      rw [hentries, hins]
    · show (if time' < time then itr + 1 else itr) = passed'.length
      rw [hlen, hitr]
      split <;> rfl
    · have hadd := hinv.addEvent time' out (standing_pos hnew'.2.2 hnew'.1) hdel
        (fun he => hnew'.2.1 (hout event' he)) (fun _ _ => Iff.rfl) setAddtime
      exact hadd.congr fun x => (hcount x).symm
  | scheduleAbort event' =>
    obtain ⟨m', hm', rfl⟩ := Option.map_eq_some_iff.1 hc
    obtain ⟨hinv', hevents, hlog, -⟩ := hinv.scheduleAbort hm'
    exact ⟨passed, rest, ⟨hevents ▸ hvisit.entries, hvisit.itr, fun hf e he => hlog ▸ hvisit.gone hf e he⟩, hinv'⟩
  | modifyEventTime event' time' =>
    by_cases hmem : event' ∈ m.queued
    · obtain ⟨hne, hf⟩ := hbehind hmem
      have hmem' : event' ∈ (passed ++ (time, event) :: rest).map (·.2) := by
        rw [← hentries]
        exact hmem
      obtain ⟨passed₁, rest₁, j, hj, hjne, herase, hlen₁, hsame₁, hcount₁⟩ := @erase_visit _ _ force _ _ event' hne hmem' fun hforce hin => by
        obtain ⟨e, he, rfl⟩ := List.mem_map.1 hin
        exact (hf hforce).1 (hvisit.gone hforce e he)
      have hsorted₁ := hsorted.sublist (List.eraseP_sublist (p := fun e : Nat × Nat => e.2 = event'))
      rw [herase] at hsorted₁
      obtain ⟨passed₂, rest₂, hins, hlen₂, hsame₂, hcount₂⟩ :=
        insert_visit hsorted₁ time' event' fun hforce => (hf hforce).2
      have hmodify : m.modifyEventTime event' time' =
          { m.setEvent event' { m.basicEvent event' with execTime := time' } with
            events := (m.events.eraseFirst fun _ x => x = event').insert time' event' } := if_pos hmem
      unfold walkCall at hc
      dsimp only at hc
      rw [hentries, hj] at hc
      dsimp only at hc
      rw [hitr, if_neg hjne] at hc
      cases hc
      refine ⟨passed₂, rest₂, ⟨?_, ?_, fun hforce e he => ?_⟩, ?_⟩
      · show (m.modifyEventTime event' time').events.entries = _
        rw [hmodify]
        show OMultimap.insertEntry time' event' (m.events.entries.eraseP _) = _
        rw [hentries, herase, hins]
      · rw [hlen₂, hlen₁]
      · rw [hmodify]
        exact hvisit.gone hforce e (hsame₁ hforce ▸ hsame₂ hforce ▸ he)
      · refine (hinv.modifyEventTime time').congr fun x => ?_
        rw [hcount₂, hcount₁]
    · have hnone : m.events.entries.findIdx? (fun e => e.2 = event') = none := by
        rw [List.findIdx?_eq_none_iff]
        intro e he
        rw [decide_eq_false_iff_not]
        exact fun hx => hmem (List.mem_map.2 ⟨e, he, hx⟩)
      unfold walkCall at hc
      dsimp only at hc
      rw [hnone] at hc
      cases hc
      exact ⟨passed, rest, hvisit, hinv⟩

theorem mem_log_walkCall {trace : EventTrace} (h : trace ∈ w.2.log) (hc : walkCall time c w = some w') :
    trace ∈ w'.2.log := by
  obtain ⟨itr, m⟩ := w
  cases c with
  | addEvent event' time' setAddtime =>
    cases hc
    exact List.mem_cons_of_mem _ h
  | scheduleAbort event' =>
    obtain ⟨m', hm', rfl⟩ := Option.map_eq_some_iff.1 hc
    unfold EventProcessor.scheduleAbort at hm'
    split at hm'
    · cases hm'
      exact h
    · cases hm'
  | modifyEventTime event' time' =>
    unfold walkCall at hc
    dsimp only at hc
    split at hc
    · cases hc
      exact h
    split at hc
    · cases hc
    cases hc
    show trace ∈ (m.modifyEventTime event' time').log
    unfold EventProcessor.modifyEventTime
    split <;> exact h

theorem Stands.calls (h : Stands force time event out w) (hout : ∀ x, out = some x → x = event)
    (hok : AllSteps (walkCall time) (fun c w => Fresh none c w.2 ∧ Behind force time event c w.2) cs w)
    (hm : runSteps (walkCall time) cs w = some w') :
    Stands force time event out w' ∧ ∀ trace ∈ w.2.log, trace ∈ w'.2.log :=
  runSteps_invariant (fun w' => Stands force time event out w' ∧ ∀ trace ∈ w.2.log, trace ∈ w'.2.log)
    (fun _ _ _ ⟨ha, hlog⟩ hc hs => ⟨ha.call hout hc.1 hc.2 hs, fun trace ht => mem_log_walkCall (hlog trace ht) hs⟩)
    hok ⟨h, fun _ ht => ht⟩ hm

/-- Between two rounds the iterator stands before what is left. -/
def Between (force : Bool) (w : Walk) : Prop :=
  ∃ passed rest, Visit force passed rest w ∧ Inv (standing force passed rest) none none w.2

theorem Between.round (h : Between force w) (he : w.2.events.entries[w.1]? = some (time, event))
    (hok : KillRoundOrderly force time event bodies w) (hm : killRound force time event bodies w = some w') : Between force w' := by
  obtain ⟨passed, rest, hvisit, hinv⟩ := h
  obtain ⟨rest, rfl⟩ : ∃ l, rest = (time, event) :: l := by
    rw [hvisit.entries, hvisit.itr, List.getElem?_append_right le_rfl, Nat.sub_self] at he
    cases rest with
    | nil => cases he
    | cons e l =>
      cases he
      exact ⟨l, rfl⟩
  have hcount : ∀ (passed rest : List (Nat × Nat)) x, standing force passed ((time, event) :: rest) x =
      standing force passed rest x + if x = event then 1 else 0 := fun passed rest x => by
    unfold standing
    rw [List.map_cons, List.count_cons]
    simp only [beq_iff_eq, eq_comm (a := event)]
    omega
  have hstands : Stands force time event (some event) w := ⟨passed, rest, hvisit, (hinv.congr (hcount passed rest)).take⟩
  obtain ⟨w₁, hw₁, hm⟩ := Option.bind_eq_some_iff.1 hm
  have h₁ : Stands force time event (some event) w₁ := by
    unfold killAbort at hw₁
    split at hw₁
    next =>
      cases hw₁
      exact hstands
    next hstate =>
    obtain ⟨m₁, hm₁, hw₁⟩ := Option.bind_eq_some_iff.1 hw₁
    obtain ⟨passed, rest, hvisit, hinv⟩ := hstands
    obtain ⟨hinv₁, hevents, hlog, -⟩ := hinv.setAborted nofun hm₁
    have haborted := setAborted_state hm₁
    have hnot : EventTrace.aborted event ∉ m₁.log := hlog ▸ hinv.not_aborted hstate
    have hstart : Stands force time event (some event) (w.1, m₁.note (.aborted event)) :=
      ⟨passed, rest, ⟨hevents ▸ hvisit.entries, hvisit.itr, fun hf e he =>
        List.mem_cons_of_mem _ (hlog ▸ hvisit.gone hf e he)⟩, hinv₁.noteAborted rfl hnot (.inl haborted)⟩
    exact (hstart.calls (fun x hx => (Option.some.inj hx).symm) (hok.1 m₁ hm₁) hw₁).1
  split at hm
  next hskip =>
    -- the iterator goes on, the event is still there
    cases hm
    obtain ⟨passed, rest, hvisit, hinv⟩ := h₁
    have hno : force = false := by
      rw [Bool.and_eq_true, Bool.not_eq_true'] at hskip
      exact hskip.1
    refine ⟨passed ++ [(time, event)], rest, ⟨?_, ?_, fun hf => absurd hf (by rw [hno]; nofun)⟩, hinv.back.congr fun x => ?_⟩
    · rw [List.append_assoc]
      exact hvisit.entries
    · show w₁.1 + 1 = _
      rw [hvisit.itr, List.length_append]
      rfl
    · rw [hno, standing_passed, standing_passed, List.map_append, List.count_append, List.map_singleton, List.count_singleton]
      simp only [beq_iff_eq, eq_comm (a := event)]
      omega
  next hskip =>
  obtain ⟨w₂, hw₂, rfl⟩ := Option.map_eq_some_iff.1 hm
  have hdeleting : (force || bodies.deletable) = true := by
    cases force <;> cases hb : bodies.deletable <;> simp_all
  have hdeleted : Stands force time event none (w₁.1, w₁.2.deleted event) := by
    obtain ⟨passed, rest, hvisit, hinv⟩ := h₁
    exact ⟨passed, rest, ⟨hvisit.entries, hvisit.itr, fun hf e he => List.mem_cons_of_mem _ (hvisit.gone hf e he)⟩,
      hinv.deleted (fun x hx => (Option.some.inj hx).symm) (.inr rfl)⟩
  obtain ⟨⟨passed, rest, hvisit, hinv⟩, hlog⟩ := hdeleted.calls nofun (hok.2 w₁ hw₁ hdeleting) hw₂
  cases force with
  | true =>
    refine ⟨passed ++ [(time, event)], rest, ⟨?_, ?_, fun hf e he => ?_⟩, hinv.congr fun x => ?_⟩
    · rw [List.append_assoc]
      exact hvisit.entries
    · show w₂.1 + 1 = _
      rw [hvisit.itr, List.length_append]
      rfl
    · rcases List.mem_append.1 he with he | he
      · exact hvisit.gone hf e he
      · rw [List.mem_singleton.1 he]
        exact hlog _ List.mem_cons_self
    · rfl
  | false =>
    refine ⟨passed, rest, ⟨?_, hvisit.itr, nofun⟩, { hinv with }⟩
    show w₂.2.events.entries.eraseIdx w₂.1 = _
    rw [hvisit.entries, hvisit.itr, List.eraseIdx_append_of_length_le le_rfl, Nat.sub_self]
    rfl

theorem Between.rounds : ∀ {rounds : List EventBodies} {w w' : Walk}, Between force w → KillOrderly force rounds w →
    killRounds force rounds w = some w' → Between force w'
  | [], _, _, h, _, hm => by
    cases hm
    exact h
  | bodies :: rest, w, w', h, hok, hm => by
    unfold killRounds at hm
    unfold KillOrderly at hok
    split at hm
    next =>
      cases hm
      exact h
    next time event he =>
    rw [he] at hok
    obtain ⟨w₁, hw₁, hm⟩ := Option.bind_eq_some_iff.1 hm
    exact Between.rounds (h.round he hok.1 hw₁) (hok.2 w₁ hw₁) hm

theorem Inv.killAllEvents {rounds : List EventBodies} (h : Inv m.queued.count none none m) (hok : KillOrderly force rounds (0, m))
    (hm : m.killAllEvents force rounds = some m') : Inv m'.queued.count none none m' := by
  have hstart : Between force (0, m) := by
    refine ⟨[], m.events.entries, ⟨rfl, rfl, fun _ e he => (nomatch he)⟩, h.congr fun x => ?_⟩
    show m.queued.count x = (if force then 0 else 0) + m.queued.count x
    rw [ite_self, Nat.zero_add]
  unfold EventProcessor.killAllEvents at hm
  obtain ⟨w, hw, rfl⟩ := Option.map_eq_some_iff.1 hm
  obtain ⟨hw, hend⟩ := Option.filter_eq_some_iff.1 hw
  obtain ⟨passed, rest, hvisit, hinv⟩ := hstart.rounds hok hw
  have hlen := of_decide_eq_true hend
  rw [hvisit.entries, hvisit.itr, List.length_append] at hlen
  obtain rfl : rest = [] := List.length_eq_zero_iff.1 (by omega)
  cases force with
  | true => exact { hinv with }
  | false =>
    refine hinv.congr fun x => ?_
    show _ = w.2.queued.count x
    rw [queued, hvisit.entries, List.append_nil]
    rfl

/-! ## Update ends -/

/-- What a call makes is not due. -/
def Later (now : Nat) : EventCall → Prop
  | .addEvent _ time _ => now < time
  | .modifyEventTime _ time => now < time
  | .scheduleAbort _ => True

/-- Nothing that the bodies of a round make is due. -/
def BodiesLater (now : Nat) (bodies : EventBodies) : Prop :=
  ∀ c ∈ bodies.execute ++ bodies.abort ++ bodies.destroy, EventProcessor.Later now c

/-- The entries that are due. -/
def dueCount (m : EventProcessor) : Nat := m.events.entries.countP (·.1 ≤ m.time)

theorem countP_insertEntry (now k v : Nat) (l : List (Nat × Nat)) :
    (OMultimap.insertEntry k v l).countP (·.1 ≤ now) = l.countP (·.1 ≤ now) + if k ≤ now then 1 else 0 := by
  rw [(OMultimap.perm_insertEntry k v l).countP_eq, List.countP_cons]
  simp only [decide_eq_true_eq]

theorem dueCount_addEvent {setAddtime : Bool} (h : m.time < time) : (m.addEvent event time setAddtime).dueCount = m.dueCount := by
  show (OMultimap.insertEntry time event m.events.entries).countP (·.1 ≤ m.time) = _
  rw [countP_insertEntry, if_neg (not_le.2 h)]
  rfl

theorem call_time (hm : call c m = some m') : m'.time = m.time := by
  cases c with
  | addEvent event' time' setAddtime =>
    cases hm
    rfl
  | scheduleAbort event' =>
    unfold call EventProcessor.scheduleAbort at hm
    dsimp only at hm
    split at hm
    · cases hm
      rfl
    · cases hm
  | modifyEventTime event' time' =>
    cases hm
    unfold EventProcessor.modifyEventTime
    split <;> rfl

theorem calls_time (hm : runSteps call cs m = some m') : m'.time = m.time :=
  (Reaches.of_runSteps hm).invariant (fun m' => m'.time = m.time) (fun _ _ _ ha _ hs => (call_time hs).trans ha) rfl

theorem call_later (hc : Later m.time c) (hm : call c m = some m') : m'.dueCount ≤ m.dueCount := by
  cases c with
  | addEvent event' time' setAddtime =>
    cases hm
    exact (dueCount_addEvent hc).le
  | scheduleAbort event' =>
    unfold call EventProcessor.scheduleAbort at hm
    dsimp only at hm
    split at hm
    · cases hm
      exact le_rfl
    · cases hm
  | modifyEventTime event' time' =>
    cases hm
    unfold EventProcessor.modifyEventTime
    split
    next =>
      show (OMultimap.insertEntry time' event' (m.events.entries.eraseP _)).countP (·.1 ≤ m.time) ≤ _
      rw [countP_insertEntry, if_neg (not_le.2 hc)]
      exact List.eraseP_sublist.countP_le
    next => exact le_rfl

theorem calls_later (hcs : ∀ c ∈ cs, Later m.time c) (hm : runSteps call cs m = some m') : m'.dueCount ≤ m.dueCount :=
  (runSteps_invariant (fun m' => m'.time = m.time ∧ m'.dueCount ≤ m.dueCount)
    (fun c _ _ ⟨htime, hle⟩ (hc : Later m.time c) hs =>
      ⟨(call_time hs).trans htime, (call_later (htime.symm ▸ hc) hs).trans hle⟩)
    (AllSteps.of_forall (fun c hc _ => hcs c hc) m) ⟨rfl, le_rfl⟩ hm).2

theorem abortIfScheduled_spec (hm : m.abortIfScheduled event bodies = some m') :
    m'.time = m.time ∧ (BodiesLater m.time bodies → m'.dueCount ≤ m.dueCount) := by
  unfold abortIfScheduled at hm
  split at hm
  next =>
    obtain ⟨m₁, hm₁, hset⟩ := Option.bind_eq_some_iff.1 hm
    unfold EventProcessor.setAborted at hset
    split at hset
    · cases hset
      have htime : m₁.time = m.time := calls_time (m := m.note (.aborted event)) hm₁
      have hle : BodiesLater m.time bodies → m₁.dueCount ≤ m.dueCount := fun hlater =>
        calls_later (m := m.note (.aborted event)) (fun c hc => hlater c (by simp [hc])) hm₁
      exact ⟨htime, hle⟩
    · cases hset
  next =>
  cases hm
  exact ⟨rfl, fun _ => le_rfl⟩

/-- An event that is handled is not due again, if nothing is that its methods make. -/
theorem handle_spec (hm : handle event bodies m = some m') :
    m'.time = m.time ∧ (BodiesLater m.time bodies → m.time + 1 < 2 ^ 64 → m'.dueCount ≤ m.dueCount) := by
  unfold EventProcessor.handle at hm
  split at hm
  next =>
    obtain ⟨m₁, hm₁, hm⟩ := Option.bind_eq_some_iff.1 hm
    have htime₁ : m₁.time = m.time := calls_time (m := m.executing event) hm₁
    have hle₁ : BodiesLater m.time bodies → m₁.dueCount ≤ m.dueCount := fun hlater =>
      calls_later (m := m.executing event) (fun c hc => hlater c (by simp [hc])) hm₁
    split at hm
    next =>
      refine ⟨(calls_time (m := m₁.deleted event) hm).trans htime₁, fun hlater _ => le_trans ?_ (hle₁ hlater)⟩
      refine calls_later (m := m₁.deleted event) (fun c hc => ?_) hm
      show Later m₁.time c
      rw [htime₁]
      exact hlater c (by simp [hc])
    next =>
    cases hm
    exact ⟨htime₁, fun hlater _ => hle₁ hlater⟩
  next =>
  obtain ⟨m₁, hm₁, hm⟩ := Option.bind_eq_some_iff.1 hm
  obtain ⟨htime₁, hle₁⟩ := abortIfScheduled_spec hm₁
  split at hm
  next =>
    refine ⟨(calls_time (m := m₁.deleted event) hm).trans htime₁, fun hlater _ => le_trans ?_ (hle₁ hlater)⟩
    refine calls_later (m := m₁.deleted event) (fun c hc => ?_) hm
    show Later m₁.time c
    rw [htime₁]
    exact hlater c (by simp [hc])
  next =>
  cases hm
  refine ⟨htime₁, fun hlater hclock => ?_⟩
  have hnext : m₁.time < m₁.calculateTime 1 := by
    rw [calculateTime, htime₁, Nat.mod_eq_of_lt hclock]
    exact Nat.lt_succ_self _
  rw [dueCount_addEvent hnext]
  exact hle₁ hlater

theorem due_iff : m.due = true ↔ ∃ time event rest, m.events.entries = (time, event) :: rest ∧ time ≤ m.time := by
  unfold due
  cases m.events.entries with
  | nil => simp
  | cons e l => simp [Prod.ext_iff]

theorem updateRounds_of_not_due {rounds : List EventBodies} (h : m.due = false) : updateRounds rounds m = some m := by
  cases rounds with
  | nil => rfl
  | cons bodies rest =>
    unfold updateRounds
    split
    next => rfl
    next time event l he =>
    refine if_neg fun hle => ?_
    rw [due_iff.2 ⟨time, event, l, he, hle⟩] at h
    cases h

/-- Each round takes one entry that is due. -/
theorem updateRounds_ends {rounds : List EventBodies} (hlater : ∀ bodies ∈ rounds, BodiesLater m.time bodies)
    (hclock : m.time + 1 < 2 ^ 64) (hlen : m.dueCount ≤ rounds.length) (hm : updateRounds rounds m = some m') :
    m'.due = false := by
  induction rounds generalizing m with
  | nil =>
    cases hm
    rw [← Bool.not_eq_true, due_iff]
    rintro ⟨time, event, l, he, hle⟩
    have hpos : 0 < m'.dueCount := List.countP_pos_iff.2 ⟨(time, event), by rw [he]; exact List.mem_cons_self, decide_eq_true hle⟩
    exact absurd hlen (Nat.not_le.2 hpos)
  | cons bodies rest ih =>
    cases hdue : m.due with
    | false =>
      rw [updateRounds_of_not_due hdue] at hm
      cases hm
      exact hdue
    | true =>
      obtain ⟨time, event, l, he, hle⟩ := due_iff.1 hdue
      unfold updateRounds at hm
      rw [he] at hm
      dsimp only at hm
      rw [if_pos hle] at hm
      obtain ⟨m₁, hm₁, hm⟩ := Option.bind_eq_some_iff.1 hm
      obtain ⟨htime, hcount⟩ := handle_spec hm₁
      have hpop : ({ m with events := m.events.popFirst } : EventProcessor).dueCount + 1 = m.dueCount := by
        show m.events.entries.tail.countP (·.1 ≤ m.time) + 1 = m.events.entries.countP (·.1 ≤ m.time)
        rw [he, List.tail_cons, List.countP_cons, if_pos (decide_eq_true hle)]
      have hle₁ := hcount (hlater bodies List.mem_cons_self) hclock
      rw [List.length_cons] at hlen
      refine ih (fun b hb => ?_) (by rw [htime]; exact hclock) (by omega) hm
      rw [htime]
      exact hlater b (List.mem_cons_of_mem _ hb)

theorem updateRounds_time {rounds : List EventBodies} (hm : updateRounds rounds m = some m') : m'.time = m.time := by
  induction rounds generalizing m with
  | nil =>
    cases hm
    rfl
  | cons bodies rest ih =>
    unfold updateRounds at hm
    split at hm
    next =>
      cases hm
      rfl
    next =>
    split at hm
    next =>
      obtain ⟨m₁, hm₁, hm⟩ := Option.bind_eq_some_iff.1 hm
      exact (ih hm).trans (handle_spec hm₁).1
    next =>
    cases hm
    rfl

theorem updateRounds_append (rounds rounds' : List EventBodies) :
    updateRounds (rounds ++ rounds') m = (updateRounds rounds m).bind (updateRounds rounds') := by
  induction rounds generalizing m with
  | nil => rfl
  | cons bodies rest ih =>
    cases hdue : m.due with
    | false =>
      rw [updateRounds_of_not_due hdue, updateRounds_of_not_due hdue]
      exact (updateRounds_of_not_due hdue).symm
    | true =>
      obtain ⟨time, event, l, he, hle⟩ := due_iff.1 hdue
      rw [List.cons_append, updateRounds, updateRounds, he]
      dsimp only
      rw [if_pos hle, if_pos hle, Option.bind_assoc]
      exact congrArg _ (funext fun m₁ => ih)

/-- Where all but some first rounds make nothing that is due, `Update` ends, or an assertion fails. -/
theorem update_ends {pTime : Nat} (hclock : m.time + pTime + 1 < 2 ^ 64) (bodies : Nat → EventBodies) (first : Nat)
    (hlater : ∀ i, first ≤ i → BodiesLater (m.time + pTime) (bodies i)) :
    ∃ n, updateRounds ((List.range n).map bodies) { m with time := (m.time + pTime) % 2 ^ 64 } = none ∨
      ∃ m', m.update pTime ((List.range n).map bodies) = some m' := by
  obtain ⟨m₀, hm₀⟩ : ∃ m₀ : EventProcessor, m₀ = { m with time := (m.time + pTime) % 2 ^ 64 } := ⟨_, rfl⟩
  have htime₀ : m₀.time = m.time + pTime := by
    rw [hm₀]
    exact Nat.mod_eq_of_lt (by omega)
  cases hfirst : updateRounds ((List.range first).map bodies) m₀ with
  | none => exact ⟨first, .inl (hm₀ ▸ hfirst)⟩
  | some m₁ =>
    have htime₁ : m₁.time = m.time + pTime := (updateRounds_time hfirst).trans htime₀
    refine ⟨first + m₁.dueCount, ?_⟩
    have hsplit : updateRounds ((List.range (first + m₁.dueCount)).map bodies) m₀ =
        updateRounds ((List.range m₁.dueCount).map fun i => bodies (first + i)) m₁ := by
      rw [List.range_add, List.map_append, updateRounds_append, hfirst, List.map_map]
      rfl
    cases hrest : updateRounds ((List.range m₁.dueCount).map fun i => bodies (first + i)) m₁ with
    | none => exact .inl (hm₀ ▸ hsplit.trans hrest)
    | some m₂ =>
      right
      refine ⟨m₂, Option.filter_eq_some_iff.2 ⟨hm₀ ▸ hsplit.trans hrest, ?_⟩⟩
      rw [Bool.not_eq_true', updateRounds_ends ?_ ?_ ?_ hrest]
      · intro b hb
        obtain ⟨i, _, rfl⟩ := List.mem_map.1 hb
        rw [htime₁]
        exact hlater _ (Nat.le_add_right ..)
      · rw [htime₁]
        exact hclock
      · rw [List.length_map, List.length_range]

/-! ## Runs -/

theorem Inv.step {op : Op} (h : Inv m.queued.count none none m) (hok : op.Orderly m) (hm : step op m = some m') :
    Inv m'.queued.count none none m' := by
  cases op with
  | call c => exact (h.call nofun hok hm).1
  | update pTime rounds =>
    obtain ⟨hm, -⟩ := Option.filter_eq_some_iff.1 hm
    exact Inv.updateRounds (m := { m with time := (m.time + pTime) % 2 ^ 64 }) { h with } hok hm
  | killAllEvents force rounds => exact h.killAllEvents hok hm

/-- Every event is executed at most once for each time it is added and only while it is running, aborted at most once and
never executed afterwards, and at one place at a time, in every state of a run whose bodies add events that are nowhere
yet and, while the queue is being cleared, leave nothing before the entry at hand; and `Update` ends, unless the clock is
at its end. -/
theorem events_once (h : Reaches step Op.Orderly new m) :
    m.Once ∧ ∀ pTime, m.time + pTime + 1 < 2 ^ 64 → ∀ (bodies : Nat → EventBodies) first,
      (∀ i, first ≤ i → BodiesLater (m.time + pTime) (bodies i)) →
        ∃ n, updateRounds ((List.range n).map bodies) { m with time := (m.time + pTime) % 2 ^ 64 } = none ∨
          ∃ m', m.update pTime ((List.range n).map bodies) = some m' :=
  ⟨(h.invariant (fun m => Inv m.queued.count none none m) (fun _ _ _ ha hok hs => ha.step hok hs) inv_new).once,
    fun _ hclock bodies first hlater => update_ends hclock bodies first hlater⟩

/-- Event 1 is aborted by an update, and put back; then the queue is cleared of it and of what the bodies have added. -/
theorem events_once_cleared : (runSteps step
    [.call (.addEvent 1 5 true), .call (.scheduleAbort 1), .update 5 [⟨[], false, [.addEvent 2 6 true], false, []⟩],
      .killAllEvents true [⟨[], false, [.addEvent 3 6 true], true, []⟩, ⟨[], false, [], true, []⟩, ⟨[], false, [], true, []⟩]] new).any
        (fun m => m.queued = [] ∧ m.log.count (.deleted 2) = 1) = true ∧
    ∀ m, runSteps step
      [.call (.addEvent 1 5 true), .call (.scheduleAbort 1), .update 5 [⟨[], false, [.addEvent 2 6 true], false, []⟩],
        .killAllEvents true [⟨[], false, [.addEvent 3 6 true], true, []⟩, ⟨[], false, [], true, []⟩, ⟨[], false, [], true, []⟩]] new =
          some m → m.Once := by
  refine ⟨by decide, fun m hm => (events_once (Reaches.of_allSteps ?_ hm)).1⟩
  simp [AllSteps, runSteps, Op.Orderly, UpdateOrderly, HandleOrderly, KillOrderly, KillRoundOrderly, Fresh, Behind, step, call,
    new, queued, note, setEvent, addEvent, scheduleAbort, setAborted, calculateTime, update, updateRounds, handle,
    abortIfScheduled, due, killAbort, killRound, walkCall, deleted, OMultimap.empty, OMultimap.insert, OMultimap.insertEntry,
    OMultimap.popFirst]

/-- While the queue is being cleared of event 1, due at 5, event 2 is added at 1: it is dropped. -/
theorem events_fail : ∃ m, runSteps step [.call (.addEvent 1 5 true),
    .killAllEvents true [⟨[], false, [.addEvent 2 1 true], true, []⟩]] new = some m ∧
      EventTrace.added 2 ∈ m.log ∧ 2 ∉ m.queued ∧ EventTrace.deleted 2 ∉ m.log ∧ m.kept 2 = false ∧ ¬ m.Once := by
  refine ⟨_, rfl, by decide, by decide, by decide, by decide, fun h => ?_⟩
  have hplace := h.place 2
  revert hplace
  decide

end EventProcessor

end AtlasWow
