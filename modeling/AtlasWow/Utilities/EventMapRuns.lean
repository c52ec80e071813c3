/-
An event map does what a list of records does. A word holds the bits of its
record (`getLsbD_word`), so the masks ask of it what they would ask of the
record; and the words of each time stand in the order of the records
(`Agrees`), which every operation keeps.
-/
import AtlasWow.Utilities.EventMap

namespace AtlasWow

open EventMap EventList

/-! ## Words -/

namespace EventRecord

/-- What an entry of an event map can hold. -/
structure Fits (r : EventRecord) : Prop where
  id : r.id < 2 ^ 16
  group : ∀ g ∈ r.group, 0 < g ∧ g ≤ 8
  phase : ∀ p ∈ r.phase, 0 < p ∧ p ≤ 8

def word (r : EventRecord) : BitVec 32 := pack (BitVec.ofNat 32 r.id) (r.group.getD 0) (r.phase.getD 0)

end EventRecord

theorem getLsbD_pack (eventId : BitVec 32) (group phase i : Nat) : (pack eventId group phase).getLsbD i =
    (eventId.getLsbD i || decide (0 < group ∧ group ≤ 8 ∧ i = group + 15) || decide (0 < phase ∧ phase ≤ 8 ∧ i = phase + 23)) := by
  have hbit : ∀ (c : Prop) [Decidable c] (x : BitVec 32) (n : Nat), (c → n < 32) →
      (if c then x ||| BitVec.twoPow 32 n else x).getLsbD i = (x.getLsbD i || decide (c ∧ i = n)) := by
    intro c _ x n hn
    by_cases hc : c
    · rw [if_pos hc, BitVec.getLsbD_or, BitVec.getLsbD_twoPow]
      congr 1
      have := hn hc
      simp only [hc, true_and, this, decide_true, Bool.true_and]
      exact decide_eq_decide.2 eq_comm
    · rw [if_neg hc]
      simp [hc]
  unfold pack groupBit phaseBit
  dsimp only
  rw [hbit _ _ _ (by omega), hbit _ _ _ (by omega)]
  simp only [Nat.pos_iff_ne_zero, and_assoc]

namespace EventRecord

variable {r : EventRecord}

theorem getLsbD_word (hr : r.Fits) (i : Nat) : r.word.getLsbD i =
    (r.id.testBit i || decide (∃ g ∈ r.group, i = g + 15) || decide (∃ p ∈ r.phase, i = p + 23)) := by
  have hid : (BitVec.ofNat 32 r.id).getLsbD i = r.id.testBit i := by
    rw [BitVec.getLsbD_ofNat]
    by_cases hi : i < 32
    · simp [hi]
    · have hlt : r.id < 2 ^ i := lt_of_lt_of_le hr.id (Nat.pow_le_pow_right (by omega) (by omega))
      rw [Nat.testBit_lt_two_pow hlt, Bool.and_false]
  have hopt : ∀ (o : Option Nat) (n : Nat), (∀ g ∈ o, 0 < g ∧ g ≤ 8) →
      (decide (0 < o.getD 0 ∧ o.getD 0 ≤ 8 ∧ i = o.getD 0 + n)) = decide (∃ g ∈ o, i = g + n) := by
    intro o n ho
    cases o with
    | none => simp
    | some g =>
      obtain ⟨h0, h8⟩ := ho g rfl
      simp [h0, h8]
  rw [word, getLsbD_pack, hid, hopt _ _ hr.group, hopt _ _ hr.phase]

/-- Past the low half no id has a bit. -/
theorem testBit_id (hr : r.Fits) {i : Nat} (hi : 16 ≤ i) : r.id.testBit i = false :=
  Nat.testBit_lt_two_pow (lt_of_lt_of_le hr.id (Nat.pow_le_pow_right (by omega) hi))

theorem idOf_word (hr : r.Fits) : idOf r.word = BitVec.ofNat 32 r.id := by
  refine BitVec.eq_of_getLsbD_eq fun i hi => ?_
  have hmask : ∀ i < 32, (0x0000FFFF#32).getLsbD i = decide (i < 16) := by decide
  rw [idOf, BitVec.getLsbD_and, getLsbD_word hr, hmask i hi, BitVec.getLsbD_ofNat]
  by_cases hlow : i < 16
  · have hg : ¬ ∃ g ∈ r.group, i = g + 15 := fun ⟨g, hg, he⟩ => by
      have := (hr.group g hg).1
      omega
    have hp : ¬ ∃ p ∈ r.phase, i = p + 23 := fun ⟨p, _, he⟩ => by omega
    rw [decide_eq_false hg, decide_eq_false hp]
    simp [hi, hlow]
  · rw [testBit_id hr (by omega)]
    simp [hlow]

theorem toNat_idOf_word (hr : r.Fits) : (idOf r.word).toNat = r.id := by
  rw [idOf_word hr, BitVec.toNat_ofNat]
  exact Nat.mod_eq_of_lt (lt_of_lt_of_le hr.id (by decide))

theorem eq_idOf_word (hr : r.Fits) (eventId : BitVec 32) : eventId = idOf r.word ↔ r.id = eventId.toNat := by
  rw [← toNat_idOf_word hr, ← BitVec.toNat_inj]
  exact eq_comm

theorem groupBit_word (hr : r.Fits) {group : Nat} (h0 : 0 < group) (h8 : group ≤ 8) :
    r.word &&& groupBit group ≠ 0#32 ↔ r.group = some group := by
  have hbit : r.word.getLsbD (group + 15) = decide (r.group = some group) := by
    have hp : ¬ ∃ p ∈ r.phase, group + 15 = p + 23 := fun ⟨p, hp, he⟩ => by
      have := (hr.phase p hp).1
      omega
    have hg : (∃ g ∈ r.group, group + 15 = g + 15) ↔ r.group = some group := by
      simp [Option.mem_def]
    rw [getLsbD_word hr, testBit_id hr (by omega), decide_eq_false hp, Bool.or_false, Bool.false_or]
    exact decide_eq_decide.2 hg
  have hne : BitVec.twoPow 32 (group + 15) ≠ 0#32 := fun h => by
    have := congrArg (fun x => x.getLsbD (group + 15)) h
    simp only [BitVec.getLsbD_twoPow, BitVec.getLsbD_zero, decide_true, Bool.and_true, decide_eq_false_iff_not] at this
    omega
  rw [groupBit, BitVec.and_twoPow, hbit]
  by_cases hg : r.group = some group
  · simp [hg, hne]
  · simp [hg]

theorem ne_zero_iff {w : Nat} {x : BitVec w} : x ≠ 0#w ↔ ∃ i, x.getLsbD i = true := by
  rw [← not_iff_not, not_not, not_exists]
  constructor
  · rintro rfl i
    simp
  · exact fun h => BitVec.eq_of_getLsbD_eq fun i _ => by simpa using h i

/-- The phase of a word is asked for where the record has one, and found among the active ones where it is one of them. -/
theorem dropped_word (hr : r.Fits) {phase : BitVec 8} {phases : Finset Nat} (hphases : ∀ p ∈ phases, 0 < p ∧ p ≤ 8)
    (hbits : ∀ i < 8, phase.getLsbD i = decide (i + 1 ∈ phases)) : dropped phase r.word = inactive phases r := by
  have hset : phase ≠ 0#8 ↔ phases ≠ ∅ := by
    rw [ne_zero_iff, ← Finset.nonempty_iff_ne_empty]
    constructor
    · rintro ⟨i, hi⟩
      have hlt : i < 8 := BitVec.lt_of_getLsbD hi
      rw [hbits i hlt, decide_eq_true_eq] at hi
      exact ⟨i + 1, hi⟩
    · rintro ⟨p, hp⟩
      obtain ⟨h0, h8⟩ := hphases p hp
      refine ⟨p - 1, ?_⟩
      rw [hbits (p - 1) (by omega), decide_eq_true_eq, Nat.sub_add_cancel h0]
      exact hp
  have hbit : ∀ i, 24 ≤ i → (r.word.getLsbD i = true ↔ ∃ p ∈ r.phase, i = p + 23) := by
    intro i hi
    have hg : ¬ ∃ g ∈ r.group, i = g + 15 := fun ⟨g, hg, he⟩ => by
      have := (hr.group g hg).2
      omega
    rw [getLsbD_word hr, testBit_id hr (by omega), decide_eq_false hg, Bool.false_or, Bool.false_or, decide_eq_true_eq]
  have hmask : ∀ i < 32, (0xFF000000#32).getLsbD i = decide (24 ≤ i) := by decide
  have hhas : r.word &&& 0xFF000000#32 ≠ 0#32 ↔ r.phase.isSome = true := by
    rw [ne_zero_iff, Option.isSome_iff_exists]
    constructor
    · rintro ⟨i, hi⟩
      rw [BitVec.getLsbD_and, Bool.and_eq_true] at hi
      have hlt : i < 32 := BitVec.lt_of_getLsbD hi.1
      rw [hmask i hlt, decide_eq_true_eq] at hi
      obtain ⟨p, hp, -⟩ := (hbit i hi.2).1 hi.1
      exact ⟨p, hp⟩
    · rintro ⟨p, hp⟩
      obtain ⟨h0, h8⟩ := hr.phase p hp
      refine ⟨p + 23, ?_⟩
      rw [BitVec.getLsbD_and, Bool.and_eq_true, hmask _ (by omega), decide_eq_true_eq]
      exact ⟨(hbit _ (by omega)).2 ⟨p, hp, rfl⟩, by omega⟩
  have hin : r.word >>> 24 &&& phase.setWidth 32 ≠ 0#32 ↔ ∃ p ∈ r.phase, p ∈ phases := by
    rw [ne_zero_iff]
    constructor
    · rintro ⟨i, hi⟩
      rw [BitVec.getLsbD_and, BitVec.getLsbD_ushiftRight, BitVec.getLsbD_setWidth, Bool.and_eq_true, Bool.and_eq_true] at hi
      have hlt : i < 8 := BitVec.lt_of_getLsbD hi.2.2
      obtain ⟨p, hp, he⟩ := (hbit (24 + i) (by omega)).1 hi.1
      rw [hbits i hlt] at hi
      exact ⟨p, hp, (show p = i + 1 by omega) ▸ of_decide_eq_true hi.2.2⟩
    · rintro ⟨p, hp, hmem⟩
      obtain ⟨h0, h8⟩ := hr.phase p hp
      refine ⟨p - 1, ?_⟩
      rw [BitVec.getLsbD_and, BitVec.getLsbD_ushiftRight, BitVec.getLsbD_setWidth, Bool.and_eq_true, Bool.and_eq_true,
        hbits _ (by omega), decide_eq_true_eq, decide_eq_true_eq, Nat.sub_add_cancel h0]
      exact ⟨(hbit _ (by omega)).2 ⟨p, hp, by omega⟩, by omega, hmem⟩
  rw [Bool.eq_iff_iff, dropped, inactive]
  simp only [Bool.and_eq_true, decide_eq_true_eq]
  rw [hset]
  refine and_congr_right fun _ => ?_
  have hout : r.word >>> 24 &&& phase.setWidth 32 = 0#32 ↔ ¬ ∃ p ∈ r.phase, p ∈ phases := by rw [← hin, not_not]
  rw [hhas, hout, Option.any_eq_true]
  constructor
  · rintro ⟨hsome, hnot⟩
    obtain ⟨p, hp⟩ := Option.isSome_iff_exists.1 hsome
    exact ⟨p, hp, decide_eq_true fun hmem => hnot ⟨p, hp, hmem⟩⟩
  · rintro ⟨p, hp, hnot⟩
    refine ⟨Option.isSome_iff_exists.2 ⟨p, hp⟩, fun ⟨q, hq, hmem⟩ => ?_⟩
    rw [hp] at hq
    cases hq
    exact of_decide_eq_true hnot hmem

theorem pack_record {eventId : BitVec 32} {group phase : Nat} : (record eventId group phase).word = pack eventId group phase := by
  have hopt : ∀ n, (EventList.optional n).getD 0 = n := fun n => by
    unfold EventList.optional
    split
    next h => exact h.symm
    next => rfl
  unfold word record
  dsimp only
  rw [hopt, hopt, BitVec.ofNat_toNat, BitVec.setWidth_eq]

theorem fits_record {eventId : BitVec 32} {group phase : Nat} (hid : eventId.toNat < 2 ^ 16) (hg : group ≤ 8) (hp : phase ≤ 8) :
    (record eventId group phase).Fits := by
  have hopt : ∀ {n : Nat}, n ≤ 8 → ∀ g ∈ EventList.optional n, 0 < g ∧ g ≤ 8 := by
    intro n hn g hg
    unfold EventList.optional at hg
    split at hg
    next => cases hg
    next h => cases hg; exact ⟨Nat.pos_of_ne_zero h, hn⟩
  exact ⟨hid, hopt hg, hopt hp⟩

end EventRecord

/-! ## The relation -/

open OMultimap (valuesIn)

/-- The words of each time stand in the order of the records. -/
structure Agrees (m : EventMap) (a : EventList) : Prop where
  time : m.time = a.time
  phase : ∀ i < 8, m.phase.getLsbD i = decide (i + 1 ∈ a.phases)
  phases : ∀ p ∈ a.phases, 0 < p ∧ p ≤ 8
  events : ∀ k, m.eventMap.valuesAt k = (valuesIn k a.events).map EventRecord.word
  fits : ∀ e ∈ a.events, e.2.Fits
  last : m.lastEvent = a.last.word
  lastFits : a.last.Fits

variable {m : EventMap} {a : EventList} {r : EventRecord} {eventId : BitVec 32} {time group phase delay : Nat}

theorem agrees_new : Agrees .new .new where
  time := rfl
  phase i _ := by simp [EventMap.new, EventList.new]
  phases p hp := absurd hp (Finset.notMem_empty p)
  events _ := rfl
  fits e he := nomatch he
  last := rfl
  lastFits := ⟨by decide, fun g hg => (nomatch hg), fun p hp => (nomatch hp)⟩

theorem later_eq (h : time + delay < 2 ^ 32) : later time delay = time + delay := Nat.mod_eq_of_lt h

theorem Agrees.schedule (h : Agrees m a) (hr : r.Fits) (hw : a.time + time < 2 ^ 32) :
    Agrees { m with eventMap := m.eventMap.insert (later m.time time) r.word } (a.schedule r time) := by
  refine { h with events := fun k => ?_, fits := fun e he => ?_ }
  · show (m.eventMap.insert _ _).valuesAt k = (valuesIn k (a.events ++ [(a.time + time, r)])).map _
    rw [OMultimap.valuesAt_insert, OMultimap.valuesIn_append, h.time, later_eq hw, OMultimap.valuesIn_cons, List.map_append]
    by_cases hk : k = a.time + time
    · rw [if_pos hk, if_pos hk.symm, h.events, hk]
      rfl
    · rw [if_neg hk, if_neg (Ne.symm hk), h.events]
      exact (List.append_nil _).symm
  · rcases List.mem_append.1 he with he | he
    · exact h.fits e he
    · rw [List.mem_singleton.1 he]
      exact hr

variable {p : EventRecord → Bool} {q : BitVec 32 → Bool}

theorem filter_words (hpq : ∀ r, EventRecord.Fits r → q r.word = p r)
    {l : List EventRecord} (hl : ∀ r ∈ l, r.Fits) : (l.map EventRecord.word).filter q = (l.filter p).map EventRecord.word := by
  rw [List.filter_map]
  congr 1
  exact List.filter_congr fun r hr => hpq r (hl r hr)

theorem Agrees.fitsAt (h : Agrees m a) (k : Nat) : ∀ r ∈ valuesIn k a.events, r.Fits :=
  fun r hr => h.fits (k, r) (OMultimap.mem_valuesIn.1 hr)

theorem Agrees.filtered (h : Agrees m a) (hpq : ∀ r, EventRecord.Fits r → q r.word = p r) (k : Nat) :
    (m.eventMap.filter fun _ word => q word).valuesAt k =
      (valuesIn k (a.events.filter fun e => p e.2)).map EventRecord.word := by
  rw [OMultimap.valuesAt_filter, h.events, OMultimap.valuesIn_filter (fun _ r => p r), filter_words hpq (h.fitsAt k)]

theorem Agrees.keep (h : Agrees m a) (hpq : ∀ r, EventRecord.Fits r → q r.word = p r) :
    Agrees { m with eventMap := m.eventMap.filter fun _ word => q word } (a.keep p) := by
  exact { h with events := h.filtered hpq, fits := fun e he => h.fits e (List.mem_of_mem_filter he) }

/-- An empty map is the same without some of its entries. -/
theorem filter_of_empty (m : EventMap) (p : Nat → BitVec 32 → Bool) :
    (if m.empty then m else { m with eventMap := m.eventMap.filter p }) = { m with eventMap := m.eventMap.filter p } := by
  split
  next h =>
    obtain ⟨time, phase, ⟨entries, sorted⟩, last⟩ := m
    have hnil : entries = [] := List.isEmpty_iff.1 h
    subst hnil
    rfl
  next => rfl

theorem Agrees.cancel (h : Agrees m a) (eventId : BitVec 32) :
    Agrees (m.cancelEvent eventId) (a.keep fun r => r.id ≠ eventId.toNat) := by
  unfold EventMap.cancelEvent
  rw [filter_of_empty]
  exact h.keep (q := fun word => eventId ≠ idOf word) fun r hr => decide_eq_decide.2 (not_congr (EventRecord.eq_idOf_word hr eventId))

/-- No record is of group zero. -/
theorem Agrees.group_zero (h : Agrees m a) : ∀ e ∈ a.events, e.2.group ≠ some 0 := fun e he hg =>
  Nat.lt_irrefl 0 ((h.fits e he).group 0 hg).1

theorem Agrees.cancelGroup (h : Agrees m a) (hg : group ≤ 8) :
    Agrees (m.cancelEventGroup group) (a.keep fun r => r.group ≠ some group) := by
  unfold EventMap.cancelEventGroup
  by_cases h0 : group = 0
  · subst h0
    have hkeep : a.keep (fun r => r.group ≠ some 0) = a := by
      unfold EventList.keep
      rw [List.filter_eq_self.2 fun e he => decide_eq_true (h.group_zero e he)]
    rw [if_pos (.inl rfl), hkeep]
    exact h
  have hpos := Nat.pos_of_ne_zero h0
  simp only [h0, not_lt.2 hg, false_or]
  rw [filter_of_empty]
  exact h.keep (q := fun word => word &&& groupBit group = 0#32) fun r hr =>
    decide_eq_decide.2 (not_ne_iff.symm.trans (not_congr (EventRecord.groupBit_word hr hpos hg)))

/-- Where no time wraps, delaying moves the values of a time to a later one. -/
theorem valuesIn_delayed {υ : Type} {f : Nat → Nat} {l : List (Nat × υ)} (hf : ∀ e ∈ l, f e.1 = e.1 + delay) (k : Nat) :
    valuesIn k (l.map fun e => (f e.1, e.2)) = if delay ≤ k then valuesIn (k - delay) l else [] := by
  induction l with
  | nil => split <;> rfl
  | cons e l ih =>
    rw [List.map_cons, OMultimap.valuesIn_cons, OMultimap.valuesIn_cons, ih fun x hx => hf x (List.mem_cons_of_mem _ hx)]
    dsimp only
    rw [hf e List.mem_cons_self]
    by_cases hd : delay ≤ k
    · rw [if_pos hd, if_pos hd]
      by_cases he : e.1 = k - delay
      · rw [if_pos he, if_pos (by omega)]
      · rw [if_neg he, if_neg (by omega)]
    · rw [if_neg hd, if_neg hd, if_neg (by omega)]

theorem Agrees.mem (h : Agrees m a) {k : Nat} {word : BitVec 32} (hm : (k, word) ∈ m.eventMap.entries) :
    ∃ r, (k, r) ∈ a.events ∧ r.word = word := by
  have hv : word ∈ m.eventMap.valuesAt k := OMultimap.mem_valuesIn.2 hm
  rw [h.events] at hv
  obtain ⟨r, hr, he⟩ := List.mem_map.1 hv
  exact ⟨r, OMultimap.mem_valuesIn.1 hr, he⟩

theorem Agrees.nil (h : Agrees m a) (hm : m.eventMap.entries = []) : a.events = [] := by
  rw [List.eq_nil_iff_forall_not_mem]
  rintro ⟨k, r⟩ he
  have hv : r.word ∈ m.eventMap.valuesAt k := by
    rw [h.events]
    exact List.mem_map_of_mem (OMultimap.mem_valuesIn.2 he)
  have hmem := OMultimap.mem_valuesIn.1 hv
  rw [hm] at hmem
  cases hmem

theorem Agrees.delayGroup (h : Agrees m a) (hg : group ≤ 8)
    (hw : ∀ e ∈ a.events, e.2.group = some group → e.1 + delay < 2 ^ 32) :
    Agrees (m.delayGroup delay group) (a.delayGroup delay group) := by
  unfold EventMap.delayGroup
  by_cases h0 : group = 0
  · subst h0
    have hdelay : a.delayGroup delay 0 = a := by
      unfold EventList.delayGroup
      rw [List.filter_eq_self.2 fun e he => decide_eq_true (h.group_zero e he),
        List.filter_eq_nil_iff.2 fun e he => by simpa using h.group_zero e he]
      exact congrArg (fun l => ({ a with events := l } : EventList)) (List.append_nil _)
    rw [if_pos (.inl rfl), hdelay]
    exact h
  have hpos := Nat.pos_of_ne_zero h0
  have hin : ∀ r, EventRecord.Fits r → decide (r.word &&& groupBit group ≠ 0#32) = decide (r.group = some group) := fun r hr =>
    decide_eq_decide.2 (EventRecord.groupBit_word hr hpos hg)
  have hout : ∀ r, EventRecord.Fits r → (!decide (r.word &&& groupBit group ≠ 0#32)) = decide (r.group ≠ some group) :=
    fun r hr => by rw [hin r hr, decide_not]
  simp only [h0, not_lt.2 hg, false_or]
  split
  next hempty =>
    have hnil := h.nil (List.isEmpty_iff.1 hempty)
    have hdelay : a.delayGroup delay group = a := by
      obtain ⟨time, phases, events, last⟩ := a
      cases hnil
      rfl
    rw [hdelay]
    exact h
  next =>
  have hlater : ∀ e ∈ (m.eventMap.filter fun _ word => decide (word &&& groupBit group ≠ 0#32)).entries,
      later e.1 delay = e.1 + delay := by
    rintro ⟨k, word⟩ he
    obtain ⟨hmem, hword⟩ := List.mem_filter.1 he
    obtain ⟨r, hr, rfl⟩ := h.mem hmem
    refine later_eq (hw (k, r) hr ?_)
    exact (EventRecord.groupBit_word (h.fits (k, r) hr) hpos hg).1 (of_decide_eq_true hword)
  refine { h with events := fun k => ?_, fits := fun e he => ?_ }
  · show OMultimap.valuesAt (OMultimap.insertAll _ _) k = List.map _ (valuesIn k (_ ++ _))
    have hdelayed : ∀ l : List (Nat × BitVec 32), valuesIn k (OMultimap.empty.insertAll l).entries = valuesIn k l :=
      fun l => OMultimap.valuesAt_insertAll .empty l k
    rw [OMultimap.valuesAt_insertAll, OMultimap.valuesIn_append, List.map_append, h.filtered hout, hdelayed,
      valuesIn_delayed (f := fun t => later t delay) hlater, valuesIn_delayed (f := (· + delay)) fun _ _ => rfl]
    congr 1
    split
    next => exact h.filtered (p := fun r => r.group = some group) (q := fun word => word &&& groupBit group ≠ 0#32) hin (k - delay)
    next => rfl
  · rcases List.mem_append.1 he with he | he
    · exact h.fits e (List.mem_of_mem_filter he)
    · obtain ⟨e', he', rfl⟩ := List.mem_map.1 he
      exact h.fits e' (List.mem_of_mem_filter he')

/-! ## The next event -/

theorem takeFirst_none : ∀ {l : List (Nat × EventRecord)}, takeFirst l = none → l = []
  | [], _ => rfl
  | e :: l, h => by
    unfold takeFirst at h
    split at h
    · cases h
    · split at h <;> cases h

theorem takeFirst_some {e : Nat × EventRecord} {rest : List (Nat × EventRecord)} : ∀ {l : List (Nat × EventRecord)},
    takeFirst l = some (e, rest) → l.Perm (e :: rest) ∧ (∀ x ∈ rest, e.1 ≤ x.1) ∧
      ∀ k, valuesIn k l = if e.1 = k then e.2 :: valuesIn k rest else valuesIn k rest
  | [], h => nomatch h
  | x :: l, h => by
    unfold takeFirst at h
    split at h
    next hnone =>
      cases h
      rw [takeFirst_none hnone]
      exact ⟨.refl _, fun _ hx => (nomatch hx), fun k => OMultimap.valuesIn_cons k e []⟩
    next e' rest' hsome =>
    obtain ⟨hperm, hle, hvalues⟩ := takeFirst_some hsome
    split at h
    next hlt =>
      cases h
      refine ⟨(hperm.cons x).trans (.swap _ _ _), fun y hy => ?_, fun k => ?_⟩
      · rcases List.mem_cons.1 hy with rfl | hy
        · exact hlt.le
        · exact hle y hy
      · rw [OMultimap.valuesIn_cons, hvalues, OMultimap.valuesIn_cons]
        by_cases hk : e.1 = k
        · rw [if_pos hk, if_pos hk, if_neg (by omega), if_neg (by omega)]
        · rw [if_neg hk, if_neg hk]
    next hge =>
    cases h
    refine ⟨.refl _, fun y hy => ?_, fun k => OMultimap.valuesIn_cons k e rest⟩
    rcases List.mem_cons.1 (hperm.mem_iff.1 hy) with rfl | hy
    · exact not_lt.1 hge
    · exact (not_lt.1 hge).trans (hle y hy)

/-- The first entry of the map is the first record of the list. -/
theorem Agrees.first (h : Agrees m a) {word : BitVec 32} {l : List (Nat × BitVec 32)} (hm : m.eventMap.entries = (time, word) :: l) :
    ∃ r rest, takeFirst a.events = some ((time, r), rest) ∧ r.word = word ∧ r.Fits ∧
      Agrees { m with eventMap := m.eventMap.popFirst } { a with events := rest } := by
  obtain ⟨r₀, hr₀, -⟩ := h.mem (by rw [hm]; exact List.mem_cons_self)
  cases htake : takeFirst a.events with
  | none =>
    rw [takeFirst_none htake] at hr₀
    cases hr₀
  | some x =>
    obtain ⟨⟨t, r⟩, rest⟩ := x
    obtain ⟨hperm, hle, hvalues⟩ := takeFirst_some htake
    have hr : (t, r) ∈ a.events := hperm.mem_iff.2 List.mem_cons_self
    have ht : t = time := by
      refine Nat.le_antisymm ?_ (OMultimap.first_le hm (k := t) ?_)
      · rcases List.mem_cons.1 (hperm.mem_iff.1 hr₀) with he | hmem
        · exact le_of_eq (congrArg Prod.fst he).symm
        · exact hle _ hmem
      · rw [h.events, hvalues, if_pos rfl]
        exact List.cons_ne_nil _ _
    subst ht
    have hfirst : ∀ k, (if t = k then word :: m.eventMap.popFirst.valuesAt k else m.eventMap.popFirst.valuesAt k) =
        if t = k then r.word :: (valuesIn k rest).map EventRecord.word else (valuesIn k rest).map EventRecord.word := by
      intro k
      rw [← OMultimap.valuesAt_first hm k, h.events, hvalues]
      split <;> rfl
    have hword := hfirst t
    rw [if_pos rfl, if_pos rfl] at hword
    obtain ⟨hhead, htail⟩ := List.cons_eq_cons.1 hword
    refine ⟨r, rest, rfl, hhead.symm, h.fits _ hr, { h with events := fun k => ?_, fits := fun e he => ?_ }⟩
    · by_cases hk : t = k
      · exact hk ▸ htail
      · have := hfirst k
        rwa [if_neg hk, if_neg hk] at this
    · exact h.fits e (hperm.mem_iff.2 (List.mem_cons_of_mem _ he))

/-- Each round takes one entry, and one record. -/
theorem Agrees.rounds (n n' : Nat) : ∀ {m : EventMap} {a : EventList}, Agrees m a → m.eventMap.entries.length ≤ n →
    a.events.length ≤ n' → (EventMap.executeRounds n m).1 = (EventList.executeRounds n' a).1 ∧
      Agrees (EventMap.executeRounds n m).2 (EventList.executeRounds n' a).2 := by
  have hdone : ∀ (n n' : Nat) {m : EventMap} {a : EventList}, Agrees m a → m.eventMap.entries = [] →
      (EventMap.executeRounds n m).1 = (EventList.executeRounds n' a).1 ∧
        Agrees (EventMap.executeRounds n m).2 (EventList.executeRounds n' a).2 := by
    intro n n' m a h hm
    have h₁ : EventMap.executeRounds n m = (0, m) := by
      cases n with
      | zero => rfl
      | succ n => rw [EventMap.executeRounds, hm]
    have h₂ : EventList.executeRounds n' a = (0, a) := by
      cases n' with
      | zero => rfl
      | succ n' => rw [EventList.executeRounds, h.nil hm]; rfl
    rw [h₁, h₂]
    exact ⟨rfl, h⟩
  induction n generalizing n' with
  | zero =>
    intro m a h hn _
    exact hdone 0 n' h (List.length_eq_zero_iff.1 (Nat.le_zero.1 hn))
  | succ n ih =>
    intro m a h hn hn'
    cases hm : m.eventMap.entries with
    | nil => exact hdone (n + 1) n' h hm
    | cons e l =>
      obtain ⟨time, word⟩ := e
      obtain ⟨r, rest, htake, rfl, hr, hrest⟩ := h.first hm
      have hlen := (takeFirst_some htake).1.length_eq
      rw [List.length_cons] at hlen
      obtain ⟨n', rfl⟩ : ∃ k, n' = k + 1 := ⟨n' - 1, by omega⟩
      rw [EventMap.executeRounds, EventList.executeRounds, hm, htake]
      dsimp only
      rw [EventRecord.dropped_word hr h.phases h.phase]
      by_cases hdue : a.time < time
      · rw [if_pos hdue, if_pos (h.time.symm ▸ hdue)]
        exact ⟨rfl, h⟩
      rw [if_neg hdue, if_neg (h.time.symm ▸ hdue)]
      split
      next =>
        refine ih n' hrest ?_ ?_
        · rw [hm, List.length_cons] at hn
          show m.eventMap.entries.tail.length ≤ n
          rw [hm, List.tail_cons]
          omega
        · show rest.length ≤ n'
          omega
      next => exact ⟨EventRecord.toNat_idOf_word hr, { hrest with last := rfl, lastFits := hr }⟩

theorem Agrees.execute (h : Agrees m a) : m.executeEvent.1 = a.execute.1 ∧ Agrees m.executeEvent.2 a.execute.2 :=
  h.rounds _ _ le_rfl le_rfl

/-! ## Phases -/

theorem Agrees.setPhases (h : Agrees m a) {bits : BitVec 8} {phases : Finset Nat}
    (hbits : ∀ i < 8, bits.getLsbD i = decide (i + 1 ∈ phases)) (hphases : ∀ p ∈ phases, 0 < p ∧ p ≤ 8) :
    Agrees { m with phase := bits } { a with phases := phases } := { h with phase := hbits, phases := hphases }

theorem optional_pos {n : Nat} (h : n ≠ 0) : EventList.optional n = some n := if_neg h

/-- The bit of a phase. -/
theorem getLsbD_phase {p : Nat} (h0 : p ≠ 0) {i : Nat} (hi : i < 8) :
    (BitVec.twoPow 8 (p - 1)).getLsbD i = decide (i + 1 = p) := by
  rw [BitVec.getLsbD_twoPow, ← Bool.decide_and]
  exact decide_eq_decide.2 (by omega)

theorem Agrees.setPhase (h : Agrees m a) (hp : phase ≤ 8) :
    Agrees (m.setPhase phase) { a with phases := (EventList.optional phase).toFinset } := by
  unfold EventMap.setPhase
  by_cases h0 : phase = 0
  · subst h0
    rw [if_pos rfl]
    exact h.setPhases (fun i _ => by simp [EventList.optional]) fun p hp => by simp [EventList.optional] at hp
  rw [if_neg h0, if_pos hp, optional_pos h0]
  refine h.setPhases (fun i hi => ?_) fun p hp' => ?_
  · rw [getLsbD_phase h0 hi]
    simp
  · obtain rfl : p = phase := by simpa using hp'
    exact ⟨Nat.pos_of_ne_zero h0, hp⟩

theorem Agrees.addPhase (h : Agrees m a) (hp : phase ≤ 8) :
    Agrees (m.addPhase phase) { a with phases := a.phases ∪ (EventList.optional phase).toFinset } := by
  unfold EventMap.addPhase
  by_cases h0 : phase = 0
  · subst h0
    rw [if_neg fun h => h.1 rfl]
    have hsame : a.phases ∪ (EventList.optional 0).toFinset = a.phases := Finset.union_empty _
    rw [hsame]
    exact h
  rw [if_pos ⟨h0, hp⟩, optional_pos h0]
  refine h.setPhases (fun i hi => ?_) fun p hp' => ?_
  · rw [BitVec.getLsbD_or, h.phase i hi, getLsbD_phase h0 hi]
    simp [Bool.or_comm]
  · rcases Finset.mem_union.1 hp' with hp' | hp'
    · exact h.phases p hp'
    · obtain rfl : p = phase := by simpa using hp'
      exact ⟨Nat.pos_of_ne_zero h0, hp⟩

theorem Agrees.removePhase (h : Agrees m a) (hp : phase ≤ 8) :
    Agrees (m.removePhase phase) { a with phases := a.phases.erase phase } := by
  unfold EventMap.removePhase
  by_cases h0 : phase = 0
  · subst h0
    rw [if_neg fun h => h.1 rfl, Finset.erase_eq_of_notMem fun hmem => Nat.lt_irrefl 0 (h.phases 0 hmem).1]
    exact h
  rw [if_pos ⟨h0, hp⟩]
  refine h.setPhases (fun i hi => ?_) fun p hp' => h.phases p (Finset.mem_of_mem_erase hp')
  rw [BitVec.getLsbD_and, BitVec.getLsbD_not, h.phase i hi, getLsbD_phase h0 hi]
  by_cases he : i + 1 = phase
  · simp [he]
  · simp [he, hi]

/-! ## Runs -/

namespace EventMap

/-- Ids, groups and phases that an entry has room for. -/
def Op.InRange : Op → Prop
  | .schedule eventId _ group phase | .reschedule eventId _ group phase =>
    0 < eventId.toNat ∧ eventId.toNat ≤ 0xFFFF ∧ group ≤ 8 ∧ phase ≤ 8
  | .setPhase phase | .addPhase phase | .removePhase phase => phase ≤ 8
  | .delayGroup _ group | .cancelGroup group => group ≤ 8
  | .cancel eventId => 0 < eventId.toNat ∧ eventId.toNat ≤ 0xFFFF
  | _ => True

/-- No time that the operation makes wraps. -/
def Op.NoWrap : Op → EventList → Prop
  | .schedule _ time _ _, a | .reschedule _ time _ _, a | .again time, a | .update time, a => a.time + time < 2 ^ 32
  | .delayGroup delay group, a => ∀ e ∈ a.events, e.2.group = some group → e.1 + delay < 2 ^ 32
  | _, _ => True

end EventMap

theorem Agrees.step (h : Agrees m a) {op : EventMap.Op} (hr : op.InRange) (hw : op.NoWrap a) :
    (EventMap.step op m).1 = (EventList.step op a).1 ∧ Agrees (EventMap.step op m).2 (EventList.step op a).2 := by
  have hscheduled : ∀ {m : EventMap} {a : EventList} {eventId : BitVec 32} {time group phase : Nat}, Agrees m a →
      (0 < eventId.toNat ∧ eventId.toNat ≤ 0xFFFF ∧ group ≤ 8 ∧ phase ≤ 8) → a.time + time < 2 ^ 32 →
      Agrees (m.scheduleEvent eventId time group phase) (a.schedule (record eventId group phase) time) := by
    intro m a eventId time group phase h ⟨_, hid, hg, hp⟩ hw
    rw [EventMap.scheduleEvent, ← EventRecord.pack_record]
    exact h.schedule (EventRecord.fits_record (Nat.lt_succ_of_le hid) hg hp) hw
  cases op with
  | schedule eventId time group phase => exact ⟨rfl, hscheduled h hr hw⟩
  | reschedule eventId time group phase => exact ⟨rfl, hscheduled (h.cancel eventId) hr hw⟩
  | again time =>
    refine ⟨rfl, ?_⟩
    have hagain := h.schedule h.lastFits hw
    rw [← h.last] at hagain
    exact hagain
  | update time =>
    refine ⟨rfl, { h with time := ?_ }⟩
    show later m.time time = a.time + time
    rw [h.time, later_eq hw]
  | execute => exact ⟨congrArg some h.execute.1, h.execute.2⟩
  | setPhase phase => exact ⟨rfl, h.setPhase hr⟩
  | addPhase phase => exact ⟨rfl, h.addPhase hr⟩
  | removePhase phase => exact ⟨rfl, h.removePhase hr⟩
  | delayAll delay =>
    refine ⟨rfl, { h with time := ?_ }⟩
    show (if delay < m.time then m.time - delay else 0) = a.time - delay
    rw [h.time]
    split <;> omega
  | delayGroup delay group => exact ⟨rfl, h.delayGroup hr hw⟩
  | cancel eventId => exact ⟨rfl, h.cancel eventId⟩
  | cancelGroup group => exact ⟨rfl, h.cancelGroup hr⟩

theorem Agrees.run : ∀ (ops : List EventMap.Op) {m : EventMap} {a : EventList}, Agrees m a → (∀ op ∈ ops, op.InRange) →
    Along (fun op a => (EventList.step op a).2) EventMap.Op.NoWrap ops a →
    (EventMap.run EventMap.step ops m).1 = (EventMap.run EventList.step ops a).1 ∧
      Agrees (EventMap.run EventMap.step ops m).2 (EventMap.run EventList.step ops a).2
  | [], _, _, h, _, _ => ⟨rfl, h⟩
  | op :: ops, _, _, h, hr, hw => by
    obtain ⟨hout, hnext⟩ := h.step (hr op List.mem_cons_self) hw.1
    obtain ⟨houts, hlast⟩ := Agrees.run ops hnext (fun op hop => hr op (List.mem_cons_of_mem _ hop)) hw.2
    exact ⟨by rw [EventMap.run, EventMap.run, hout, houts], hlast⟩

/-- Over every run of operations with ids, groups and phases that there is room for and times that do not wrap, an event
map returns the ids that the list of records does, in the same order, and holds the same events. -/
theorem EventMap.run_agrees (ops : List EventMap.Op) (hr : ∀ op ∈ ops, op.InRange)
    (hw : Along (fun op a => (EventList.step op a).2) EventMap.Op.NoWrap ops .new) :
    (EventMap.run EventMap.step ops .new).1 = (EventMap.run EventList.step ops .new).1 ∧
      Agrees (EventMap.run EventMap.step ops .new).2 (EventMap.run EventList.step ops .new).2 :=
  agrees_new.run ops hr hw

/-- Event 1 is of the first phase, which is over when it is due. -/
theorem EventMap.run_phases : (EventMap.run EventMap.step
    [.schedule 1#32 5 2 1, .schedule 2#32 7 2 3, .setPhase 3, .delayGroup 1 2, .update 9, .execute, .again 0, .execute] .new).1 =
      [2, 2] := by
  refine (EventMap.run_agrees _ ?_ ?_).1.trans (by decide)
  · simp [EventMap.Op.InRange]
  · simp [Along, EventMap.Op.NoWrap, EventList.step, EventList.new, EventList.schedule, EventList.delayGroup, record,
      EventList.optional]
    decide

end AtlasWow
