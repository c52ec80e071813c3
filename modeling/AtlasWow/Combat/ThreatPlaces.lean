/-
Linking and unlinking threat references. A reference leaves its three places
at once (`unregisterAndFree_unlinked`), so each round of the loops that clear
lists takes one entry, and they end (`clearAllThreat_ends`,
`removeMeFromThreatLists_ends`). Target selection answers a reference of the
list, and its assertion does not fail (`updateVictim_succeeds`).
-/
import AtlasWow.Combat.ThreatInvariant

namespace AtlasWow.Combat

variable {P : Platform} {env : Env P} {s s' : ThreatState P}

/-- From `s` to `s'` the lists are the same; the cached pointers may differ. -/
structure SameLists (s s' : ThreatState P) : Prop where
  threatens : ∀ o v t, Threatens s' o v t ↔ Threatens s o v t
  list : ∀ o, (s'.mgr o).myThreatListEntries = (s.mgr o).myThreatListEntries
  byMe : ∀ o, (s'.mgr o).threatenedByMe = (s.mgr o).threatenedByMe
  canHave : ∀ o, (s'.mgr o).ownerCanHaveThreatList = (s.mgr o).ownerCanHaveThreatList

theorem SamePlaces.sameLists (h : SamePlaces s s') : SameLists s s' := ⟨h.threatens, h.list, h.byMe, h.canHave⟩

theorem SameLists.refl (s : ThreatState P) : SameLists s s :=
  ⟨fun _ _ _ => Iff.rfl, fun _ => rfl, fun _ => rfl, fun _ => rfl⟩

variable {s'' : ThreatState P} {o v : ObjectGuid} {m : ThreatManager P}

theorem SameLists.trans (h : SameLists s s') (h' : SameLists s' s'') : SameLists s s'' :=
  ⟨fun o v t => (h'.threatens o v t).trans (h.threatens o v t), fun o => (h'.list o).trans (h.list o),
    fun o => (h'.byMe o).trans (h.byMe o), fun o => (h'.canHave o).trans (h.canHave o)⟩

/-! ## Target selection -/

/-- The cached pointers of one manager are set to references of its list. -/
theorem ThreatInv.setPointers (hi : ThreatInv s)
    (h₁ : m.myThreatListEntries = (s.mgr o).myThreatListEntries) (h₂ : m.threatenedByMe = (s.mgr o).threatenedByMe)
    (h₃ : m.sortedThreatList = (s.mgr o).sortedThreatList)
    (h₄ : ∀ t, m.currentVictimRef = some t → OnList s o t) (h₅ : ∀ t, m.fixateRef = some t → OnList s o t) :
    ThreatInv (s.setMgr o m) where
  list := by
    intro u v t
    have : ((s.setMgr o m).mgr u).myThreatListEntries = (s.mgr u).myThreatListEntries := by
      by_cases hu : u = o
      · subst hu; simpa using h₁
      · simp [hu]
    rw [this]; exact hi.list u v t
  byMe := by
    intro u v t
    have : ((s.setMgr o m).mgr u).threatenedByMe = (s.mgr u).threatenedByMe := by
      by_cases hu : u = o
      · subst hu; simpa using h₂
      · simp [hu]
    rw [this]; exact hi.byMe u v t
  heap := by
    intro u t
    have : ((s.setMgr o m).mgr u).sortedThreatList = (s.mgr u).sortedThreatList := by
      by_cases hu : u = o
      · subst hu; simpa using h₃
      · simp [hu]
    rw [this]; exact hi.heap u t
  nodup := by
    intro u
    by_cases hu : u = o
    · subst hu; simpa [h₃] using hi.nodup u
    · simpa [hu] using hi.nodup u
  fresh := hi.fresh
  current := by
    intro u t
    by_cases hu : u = o
    · subst hu; simpa using h₄ t
    · simpa [hu] using hi.current u t
  fixate := by
    intro u t
    by_cases hu : u = o
    · subst hu; simpa using h₅ t
    · simpa [hu] using hi.fixate u t

theorem setPointers_sameLists
    (h₁ : m.myThreatListEntries = (s.mgr o).myThreatListEntries) (h₂ : m.threatenedByMe = (s.mgr o).threatenedByMe)
    (h₃ : m.ownerCanHaveThreatList = (s.mgr o).ownerCanHaveThreatList) : SameLists s (s.setMgr o m) := by
  refine ⟨fun _ _ _ => Iff.rfl, fun u => ?_, fun u => ?_, fun u => ?_⟩ <;>
    by_cases hu : u = o <;> (try subst hu) <;> simp_all

theorem onList_of_filter {t : ThreatId} {p : ThreatId → Bool} {x : Option ThreatId}
    (hx : ∀ t, x = some t → OnList s o t) (h : x.filter p = some t) : OnList s o t :=
  hx t (Option.filter_eq_some_iff.1 h).1

theorem nextMeleeTarget_mem {owner : ObjectGuid} {o : ThreatId} {old : ThreatReference P.fmt} :
    ∀ {l : List ThreatId} {t : ThreatId}, nextMeleeTarget env s owner o old l = some t → t = o ∨ t ∈ l
  | [], _, h => by cases h
  | next :: rest, t, h => by
    simp only [nextMeleeTarget] at h
    split at h
    · cases h; simp
    simp only [Option.bind_eq_bind, Option.bind_eq_some_iff] at h
    obtain ⟨ref, -, h⟩ := h
    split at h
    · cases h; simp
    split at h
    · cases h; simp
    rcases nextMeleeTarget_mem h with h | h
    · exact .inl h
    · exact .inr (List.mem_cons_of_mem _ h)

/-- The walk ends at the old victim at the latest. -/
theorem nextMeleeTarget_succeeds {owner : ObjectGuid} {o : ThreatId} {old : ThreatReference P.fmt} :
    ∀ {l : List ThreatId}, o ∈ l → (∀ t ∈ l, (s.refs t).isSome) →
      ∃ t, nextMeleeTarget env s owner o old l = some t
  | next :: rest, ho, hl => by
    simp only [nextMeleeTarget]
    split
    · exact ⟨_, rfl⟩
    next hne =>
    obtain ⟨ref, hr⟩ := Option.isSome_iff_exists.1 (hl next (by simp))
    simp only [hr, Option.bind_eq_bind, Option.bind_some]
    split
    · exact ⟨_, rfl⟩
    split
    · exact ⟨_, rfl⟩
    · have ho : o ∈ rest := by simpa [Ne.symm hne] using ho
      exact nextMeleeTarget_succeeds ho fun t ht => hl t (List.mem_cons_of_mem _ ht)

theorem selectVictim_onList {owner : ObjectGuid} {t : ThreatId} (hi : ThreatInv s)
    (h : selectVictim env s owner = some (some t)) : OnList s owner t := by
  simp only [selectVictim] at h
  split at h
  next f hf => cases h; exact onList_of_filter (hi.fixate owner) hf
  simp only [Option.bind_eq_bind, Option.bind_eq_some_iff] at h
  obtain ⟨highest, htop, ref, -, h⟩ := h
  have hhigh : OnList s owner highest := (hi.heap owner highest).1 (P.heap.top_mem _ _ htop)
  split at h
  · cases h
  split at h
  · cases h; exact hhigh
  next o ho =>
  have hold : OnList s owner o := onList_of_filter (hi.current owner) ho
  split at h
  · cases h; exact hhigh
  simp only [Option.bind_eq_some_iff] at h
  obtain ⟨old, -, h⟩ := h
  split at h
  · cases h; exact hold
  split at h
  · cases h; exact hhigh
  split at h
  · cases h; exact hhigh
  simp only [Option.map_eq_some_iff, Option.some.injEq] at h
  obtain ⟨a, h, rfl⟩ := h
  rcases nextMeleeTarget_mem h with rfl | hm
  · exact hold
  · exact (hi.heap owner a).1 ((P.heap.ordered_perm _ _).mem_iff.1 hm)

theorem selectVictim_succeeds {owner : ObjectGuid} (hi : ThreatInv s)
    (hne : P.heap.elems (s.mgr owner).sortedThreatList ≠ []) : ∃ v, selectVictim env s owner = some v := by
  simp only [selectVictim]
  split
  · exact ⟨_, rfl⟩
  cases htop : P.heap.top (s.mgr owner).sortedThreatList with
  | none => exact absurd (P.heap.top_eq_none _ htop) hne
  | some highest =>
    obtain ⟨ref, hr, -⟩ := (hi.heap owner highest).1 (P.heap.top_mem _ _ htop)
    simp only [hr, Option.bind_eq_bind, Option.bind_some]
    split
    · exact ⟨_, rfl⟩
    split
    · exact ⟨_, rfl⟩
    next o ho =>
    have hold : OnList s owner o := onList_of_filter (hi.current owner) ho
    obtain ⟨old, ho', -⟩ := id hold
    split
    · exact ⟨_, rfl⟩
    simp only [ho', Option.bind_some]
    split
    · exact ⟨_, rfl⟩
    split
    · exact ⟨_, rfl⟩
    split
    · exact ⟨_, rfl⟩
    obtain ⟨t, ht⟩ := (@nextMeleeTarget_succeeds _ env s owner _ old)
      ((P.heap.ordered_perm (compareThreat s) _).mem_iff.2 ((hi.heap owner o).2 hold))
      fun t ht => by
        obtain ⟨ref, hr, -⟩ := (hi.heap owner t).1 ((P.heap.ordered_perm _ _).mem_iff.1 ht)
        simp [hr]
    exact ⟨some t, by rw [ht]; rfl⟩

/-- An update of the online states succeeds on live references. -/
theorem updateOffline_succeeds {t : ThreatId} (h : (s.refs t).isSome) : ∃ s', updateOffline env s t = some s' := by
  obtain ⟨ref, hr⟩ := Option.isSome_iff_exists.1 h
  simp only [updateOffline, hr, Option.bind_eq_bind, Option.bind_some]
  split
  · exact ⟨_, rfl⟩
  split
  · exact ⟨_, by simp [heapNotifyDecreased, heapNotify, ThreatState.setRef]; rfl⟩
  · exact ⟨_, by simp [heapNotifyIncreased, heapNotify, ThreatState.setRef]; rfl⟩

theorem updateAllOffline_succeeds : ∀ {l : List (ObjectGuid × ThreatId)} {s : ThreatState P},
    (∀ e ∈ l, (s.refs e.2).isSome) → ∃ s', l.foldlM (fun s e => updateOffline env s e.2) s = some s'
  | [], s, _ => ⟨s, rfl⟩
  | e :: l, s, h => by
    obtain ⟨s₁, h₁⟩ := (@updateOffline_succeeds _ env) (h e (by simp))
    have hl := (SamePlaces.updateOffline h₁).live
    obtain ⟨s₂, h₂⟩ := updateAllOffline_succeeds (l := l) (s := s₁)
      fun e' he' => by rw [hl]; exact h e' (by simp [he'])
    exact ⟨s₂, by simp [h₁, h₂]⟩

theorem reselectVictim_spec {owner : ObjectGuid} {v : Option ThreatId} (hi : ThreatInv s)
    (h : reselectVictim env s owner = some (s', v)) : SamePlaces s s' ∧ ∀ t, v = some t → OnList s' owner t := by
  simp only [reselectVictim] at h
  split at h
  · cases h; exact ⟨.refl s, fun _ h => by cases h⟩
  simp only [Option.bind_eq_bind, Option.bind_eq_some_iff] at h
  obtain ⟨s₁, h₁, v', hv, h⟩ := h
  cases h
  have hs : SamePlaces s s' := SamePlaces.foldlM (fun _ _ _ => SamePlaces.updateOffline) h₁
  refine ⟨hs, fun t ht => ?_⟩
  subst ht
  exact selectVictim_onList (hs.inv hi) hv

/-- `UpdateVictim` leaves the lists alone and caches a reference of the list. -/
theorem updateVictim_inv {owner : ObjectGuid} (hi : ThreatInv s) (h : updateVictim env s owner = some s') :
    ThreatInv s' ∧ SameLists s s' := by
  simp only [updateVictim, Option.bind_eq_bind, Option.bind_eq_some_iff] at h
  obtain ⟨⟨s₁, v⟩, h₁, h⟩ := h
  cases h
  obtain ⟨hs, hv⟩ := reselectVictim_spec hi h₁
  have hi₁ := hs.inv hi
  exact ⟨hi₁.setPointers rfl rfl rfl hv (hi₁.fixate owner), hs.sameLists.trans (setPointers_sameLists rfl rfl rfl)⟩

/-- The assertion of `ReselectVictim` does not fail: the current victim is on the sorted list. -/
theorem updateVictim_succeeds {owner : ObjectGuid} (hi : ThreatInv s) : ∃ s', updateVictim env s owner = some s' := by
  have hsel : ∃ p, reselectVictim env s owner = some p := by
    simp only [reselectVictim]
    split
    · exact ⟨_, rfl⟩
    next hne =>
    have hlive : ∀ e ∈ (s.mgr owner).myThreatListEntries.entries, (s.refs e.2).isSome := by
      rintro ⟨v, t⟩ he
      obtain ⟨ref, hr, -⟩ := (hi.list owner v t).1 (UMap.mem_entries.1 he)
      simp [hr]
    obtain ⟨s₁, h₁⟩ := (@updateAllOffline_succeeds _ env) hlive
    have hs : SamePlaces s s₁ := SamePlaces.foldlM (fun _ _ _ => SamePlaces.updateOffline) h₁
    obtain ⟨v, hv⟩ := (@selectVictim_succeeds _ env _ owner) (hs.inv hi) fun he => by
      have := (hs.heap owner).length_eq
      rw [he] at this
      rw [List.isEmpty_iff] at hne
      exact hne (List.eq_nil_of_length_eq_zero this.symm)
    exact ⟨_, by simp [h₁, hv]; rfl⟩
  obtain ⟨p, hp⟩ := hsel
  exact ⟨_, by simp only [updateVictim, hp, Option.bind_eq_bind, Option.bind_some]; rfl⟩

/-! ## Unlinking -/

/-- `t`, on `o`'s list for `v`, has left its three places; the other references are where they were. -/
structure Unlinked (t : ThreatId) (o v : ObjectGuid) (s s' : ThreatState P) : Prop where
  inv : ThreatInv s'
  threatens : ∀ o' v' t', Threatens s' o' v' t' ↔ Threatens s o' v' t' ∧ t' ≠ t
  list_size : (s'.mgr o).myThreatListEntries.size + 1 = (s.mgr o).myThreatListEntries.size
  byMe_size : (s'.mgr v).threatenedByMe.size + 1 = (s.mgr v).threatenedByMe.size
  canHave : ∀ u, (s'.mgr u).ownerCanHaveThreatList = (s.mgr u).ownerCanHaveThreatList

theorem Unlinked.then {t : ThreatId} (h : Unlinked t o v s s')
    (hi : ThreatInv s'') (h' : SameLists s' s'') : Unlinked t o v s s'' where
  inv := hi
  threatens := fun o' v' t' => (h'.threatens o' v' t').trans (h.threatens o' v' t')
  list_size := by rw [h'.list]; exact h.list_size
  byMe_size := by rw [h'.byMe]; exact h.byMe_size
  canHave := fun u => (h'.canHave u).trans (h.canHave u)

section Unregister

variable {t : ThreatId} {ref : ThreatReference P.fmt}

/-- The manager of `u` after `UnregisterAndFree`. -/
def unregistered (s : ThreatState P) (t : ThreatId) (ref : ThreatReference P.fmt) (u : ObjectGuid) :
    ThreatManager P :=
  let m := s.mgr u
  { m with
    myThreatListEntries := if u = ref.owner then m.myThreatListEntries.erase ref.victim else m.myThreatListEntries
    sortedThreatList := if u = ref.owner then P.heap.erase (compareThreat s) m.sortedThreatList t
      else m.sortedThreatList
    fixateRef := if u = ref.owner ∧ m.fixateRef = some t then none else m.fixateRef
    currentVictimRef := if u = ref.owner ∧ m.currentVictimRef = some t then none else m.currentVictimRef
    threatenedByMe := if u = ref.victim then m.threatenedByMe.erase ref.owner else m.threatenedByMe }

theorem unregisterAndFree_eq (hi : ThreatInv s) (ht : s.refs t = some ref) :
    ∃ s', unregisterAndFree s t = some s' ∧ s'.refs = Function.update s.refs t none ∧ s'.nextRef = s.nextRef ∧
      (∀ u, s'.mgr u = unregistered s t ref u) ∧ s'.inPlace = s.inPlace ∧ s'.heapLog = s.heapLog := by
  have hfind := (hi.list _ _ _).2 (threatens_of_ref ht)
  refine ⟨_, by simp only [unregisterAndFree, ht, Option.bind_eq_bind, Option.bind_some]; rfl, ?_, ?_, fun u => ?_,
    ?_, ?_⟩
  · simp [purgeThreatListRef, purgeThreatenedByMeRef, hfind]
  · simp [purgeThreatListRef, purgeThreatenedByMeRef, hfind]
  · simp only [purgeThreatListRef, hfind, purgeThreatenedByMeRef, unregistered]
    by_cases hv : u = ref.victim <;> by_cases ho : u = ref.owner
    · subst hv; simp [← ho]
    · subst hv; simp [ho]
    · subst ho; simp [hv]
    · simp [hv, ho]
  · simp [purgeThreatListRef, purgeThreatenedByMeRef, hfind, ThreatState.setMgr]
  · simp [purgeThreatListRef, purgeThreatenedByMeRef, hfind, ThreatState.setMgr]

variable {o : ObjectGuid} {t' : ThreatId}

theorem ends_of_threatens (ht : s.refs t = some ref) (h : Threatens s o v t) : o = ref.owner ∧ v = ref.victim := by
  obtain ⟨ref', ht', rfl, rfl⟩ := h
  rw [ht] at ht'
  cases ht'
  exact ⟨rfl, rfl⟩

theorem owner_of_onList (ht : s.refs t = some ref) (h : OnList s o t) : o = ref.owner := by
  obtain ⟨ref', ht', rfl⟩ := h
  rw [ht] at ht'
  cases ht'
  rfl

theorem threatens_unregister (hr : s'.refs = Function.update s.refs t none) (o v : ObjectGuid) (t' : ThreatId) :
    Threatens s' o v t' ↔ Threatens s o v t' ∧ t' ≠ t := by
  unfold Threatens
  rw [hr]
  by_cases h : t' = t
  · subst h; simp
  · simp [h]

theorem onList_unregister (hr : s'.refs = Function.update s.refs t none) : OnList s' o t' ↔ OnList s o t' ∧ t' ≠ t := by
  unfold OnList
  rw [hr]
  by_cases h : t' = t
  · subst h; simp
  · simp [h]

/-- An entry of another key is not an entry for `t`. -/
theorem find?_purged {m : UMap ObjectGuid ThreatId} {k k' : ObjectGuid} (h : m.find? k = some t)
    (hk : ∀ k', m.find? k' = some t → k' = k) : (m.erase k).find? k' = some t' ↔ m.find? k' = some t' ∧ t' ≠ t := by
  rw [UMap.find?_erase]
  split
  · next hk' => subst hk'; simp [h, eq_comm]
  next hk' =>
  refine ⟨fun h' => ⟨h', ?_⟩, And.left⟩
  rintro rfl
  exact hk' (hk k' h')

theorem unregisterAndFree_list (hi : ThreatInv s) (ht : s.refs t = some ref) (o v : ObjectGuid) (t' : ThreatId) :
    (unregistered s t ref o).myThreatListEntries.find? v = some t' ↔
      (s.mgr o).myThreatListEntries.find? v = some t' ∧ t' ≠ t := by
  simp only [unregistered]
  split
  · next ho =>
    subst ho
    refine find?_purged ((hi.list _ _ _).2 (threatens_of_ref ht)) fun k hk => ?_
    exact (ends_of_threatens ht ((hi.list _ _ _).1 hk)).2
  next ho =>
  refine ⟨fun h => ⟨h, ?_⟩, And.left⟩
  rintro rfl
  exact ho (ends_of_threatens ht ((hi.list _ _ _).1 h)).1

theorem unregisterAndFree_byMe (hi : ThreatInv s) (ht : s.refs t = some ref) (v o : ObjectGuid) (t' : ThreatId) :
    (unregistered s t ref v).threatenedByMe.find? o = some t' ↔
      (s.mgr v).threatenedByMe.find? o = some t' ∧ t' ≠ t := by
  simp only [unregistered]
  split
  · next hv =>
    subst hv
    refine find?_purged ((hi.byMe _ _ _).2 (threatens_of_ref ht)) fun k hk => ?_
    exact (ends_of_threatens ht ((hi.byMe _ _ _).1 hk)).1
  next hv =>
  refine ⟨fun h => ⟨h, ?_⟩, And.left⟩
  rintro rfl
  exact hv (ends_of_threatens ht ((hi.byMe _ _ _).1 h)).2

theorem unregisterAndFree_heap (hi : ThreatInv s) (ht : s.refs t = some ref) (o : ObjectGuid) (t' : ThreatId) :
    t' ∈ P.heap.elems (unregistered s t ref o).sortedThreatList ↔
      t' ∈ P.heap.elems (s.mgr o).sortedThreatList ∧ t' ≠ t := by
  simp only [unregistered]
  split
  · rw [(P.heap.elems_erase _ _ _).mem_iff, (hi.nodup o).mem_erase_iff]
    exact and_comm
  next ho =>
  refine ⟨fun h => ⟨h, ?_⟩, And.left⟩
  rintro rfl
  exact ho (owner_of_onList ht ((hi.heap _ _).1 h))

/-- A cached pointer is not left behind. -/
theorem purged_pointer {x : Option ThreatId} (ht : s.refs t = some ref)
    (hx : ∀ t, x = some t → OnList s o t) (h : (if o = ref.owner ∧ x = some t then none else x) = some t') :
    OnList s o t' ∧ t' ≠ t := by
  split at h
  · cases h
  next hc =>
  refine ⟨hx t' h, ?_⟩
  rintro rfl
  exact hc ⟨owner_of_onList ht (hx _ h), h⟩

/-- A reference leaves its three places and the two cached pointers at once. -/
theorem unregisterAndFree_unlinked (hi : ThreatInv s) (ht : s.refs t = some ref) :
    ∃ s', unregisterAndFree s t = some s' ∧ Unlinked t ref.owner ref.victim s s' := by
  obtain ⟨s', h, hrefs, hnext, hmgr, -, -⟩ := unregisterAndFree_eq hi ht
  have hthr := threatens_unregister hrefs
  have hself := threatens_of_ref ht
  refine ⟨s', h, ⟨?_, ?_, ?_, ?_, ?_, ?_, ?_⟩, hthr, ?_, ?_, fun u => by rw [hmgr]; rfl⟩
  · intro o v t'
    rw [hmgr, hthr, ← hi.list]
    exact unregisterAndFree_list hi ht o v t'
  · intro v o t'
    rw [hmgr, hthr, ← hi.byMe]
    exact unregisterAndFree_byMe hi ht v o t'
  · intro o t'
    rw [hmgr, onList_unregister hrefs, ← hi.heap]
    exact unregisterAndFree_heap hi ht o t'
  · intro o
    rw [hmgr]
    simp only [unregistered]
    split
    · exact (P.heap.elems_erase _ _ _).nodup_iff.2 ((hi.nodup o).erase _)
    · exact hi.nodup o
  · intro t' ht'
    rw [hrefs]
    by_cases he : t' = t
    · subst he; simp
    · rw [Function.update_of_ne he]; exact hi.fresh t' (hnext ▸ ht')
  · intro o t' hp
    rw [hmgr] at hp
    exact (onList_unregister hrefs).2 (purged_pointer ht (hi.current o) hp)
  · intro o t' hp
    rw [hmgr] at hp
    exact (onList_unregister hrefs).2 (purged_pointer ht (hi.fixate o) hp)
  · rw [hmgr]
    simp only [unregistered, if_true]
    exact UMap.size_erase ((hi.list _ _ _).2 hself)
  · rw [hmgr]
    simp only [unregistered, if_true]
    exact UMap.size_erase ((hi.byMe _ _ _).2 hself)

end Unregister

/-- From `s` to `s'` no reference is added. -/
structure Fewer (s s' : ThreatState P) : Prop where
  threatens : ∀ o v t, Threatens s' o v t → Threatens s o v t
  canHave : ∀ u, (s'.mgr u).ownerCanHaveThreatList = (s.mgr u).ownerCanHaveThreatList

theorem Fewer.refl (s : ThreatState P) : Fewer s s := ⟨fun _ _ _ h => h, fun _ => rfl⟩

theorem Fewer.trans (h : Fewer s s') (h' : Fewer s' s'') : Fewer s s'' :=
  ⟨fun o v t ht => h.threatens o v t (h'.threatens o v t ht), fun u => (h'.canHave u).trans (h.canHave u)⟩

theorem SameLists.fewer (h : SameLists s s') : Fewer s s' := ⟨fun o v t => (h.threatens o v t).1, h.canHave⟩

theorem Unlinked.fewer {t : ThreatId} (h : Unlinked t o v s s') : Fewer s s' :=
  ⟨fun o v t ht => ((h.threatens o v t).1 ht).1, h.canHave⟩

theorem clearThreatRef_unlinked {owner : ObjectGuid} {t : ThreatId} {ref : ThreatReference P.fmt}
    (hi : ThreatInv s) (ht : s.refs t = some ref) :
    ∃ s', clearThreatRef env s owner t = some s' ∧ Unlinked t ref.owner ref.victim s s' := by
  obtain ⟨s₁, h₁, hu⟩ := unregisterAndFree_unlinked hi ht
  simp only [clearThreatRef, h₁, Option.bind_eq_bind, Option.bind_some]
  split
  · obtain ⟨s₂, h₂⟩ := (@updateVictim_succeeds _ env _ owner) hu.inv
    obtain ⟨hi₂, hs⟩ := updateVictim_inv hu.inv h₂
    exact ⟨s₂, h₂, hu.then hi₂ hs⟩
  · exact ⟨s₁, rfl, hu⟩

/-- `ClearThreat` takes the reference of the pair, and no other. -/
theorem clearThreat_spec (owner target : ObjectGuid) (hi : ThreatInv s) :
    ∃ s', clearThreat env s owner target = some s' ∧ ThreatInv s' ∧ Fewer s s' ∧ ∀ t, ¬ Threatens s' owner target t := by
  unfold clearThreat
  split
  next hf =>
    refine ⟨s, rfl, hi, .refl s, fun t ht => ?_⟩
    rw [(hi.list _ _ _).2 ht] at hf
    cases hf
  next t hf =>
  have hself := (hi.list _ _ _).1 hf
  obtain ⟨ref, ht, rfl, rfl⟩ := id hself
  obtain ⟨s', h, hu⟩ := (@clearThreatRef_unlinked _ env _ ref.owner) hi ht
  refine ⟨s', h, hu.inv, hu.fewer, fun t' ht' => ?_⟩
  obtain ⟨ht', hne⟩ := (hu.threatens _ _ _).1 ht'
  exact hne (hi.unique ht' hself)

/-! ## The loops -/

theorem head_of_not_isEmpty {κ υ : Type} {m : UMap κ υ} (h : (!m.isEmpty) = true) :
    ∃ k v, m.entries.head? = some (k, v) ∧ (k, v) ∈ m.entries := by
  cases he : m.entries with
  | nil => simp [UMap.isEmpty, he] at h
  | cons p l => exact ⟨p.1, p.2, by simp, by simp⟩

/-- A round of `ClearAllThreat` takes one entry. -/
theorem clearFirstEntry_unlinked {owner : ObjectGuid} (hi : ThreatInv s)
    (h : (!(s.mgr owner).myThreatListEntries.isEmpty) = true) :
    ∃ s' t v, clearFirstEntry owner s = some s' ∧ Unlinked t owner v s s' := by
  obtain ⟨v, t, hhead, hmem⟩ := head_of_not_isEmpty h
  obtain ⟨ref, ht, rfl, rfl⟩ := (hi.list owner v t).1 (UMap.mem_entries.1 hmem)
  obtain ⟨s', h', hu⟩ := unregisterAndFree_unlinked hi ht
  exact ⟨s', t, ref.victim, by simp [clearFirstEntry, hhead, h'], hu⟩

/-- A round of `RemoveMeFromThreatLists` takes one entry. -/
theorem leaveFirstThreatList_unlinked {me : ObjectGuid} (hi : ThreatInv s)
    (h : (!(s.mgr me).threatenedByMe.isEmpty) = true) :
    ∃ s' t o, leaveFirstThreatList env me s = some s' ∧ Unlinked t o me s s' := by
  obtain ⟨o, t, hhead, hmem⟩ := head_of_not_isEmpty h
  have hself := (hi.byMe me o t).1 (UMap.mem_entries.1 hmem)
  obtain ⟨ref, ht, rfl, rfl⟩ := id hself
  obtain ⟨s', h', hu⟩ := (@clearThreatRef_unlinked _ env _ ref.owner) hi ht
  refine ⟨s', t, ref.owner, ?_, hu⟩
  simp [leaveFirstThreatList, hhead, ht, clearThreat, (hi.list _ _ _).2 hself, h']

/-- `ClearAllThreat` ends, with an empty list. -/
theorem clearAllThreat_ends (owner : ObjectGuid) (hi : ThreatInv s) :
    ∃ s', clearAllThreat s owner = some s' ∧ ThreatInv s' ∧ Fewer s s' ∧
      (s'.mgr owner).myThreatListEntries.isEmpty = true := by
  obtain ⟨s', h, ⟨hi', hf⟩, hc⟩ := whileLoop_ends (fun a => ThreatInv a ∧ Fewer s a)
    (fun a => (a.mgr owner).myThreatListEntries.size) (fun a ⟨ha, hf⟩ hc => by
      obtain ⟨b, t, v, hb, hu⟩ := (@clearFirstEntry_unlinked _ _ owner) ha hc
      exact ⟨b, hb, ⟨hu.inv, hf.trans hu.fewer⟩, by have := hu.list_size; omega⟩) ⟨hi, .refl s⟩ (Nat.le_refl _)
  exact ⟨s', h, hi', hf, by simpa using hc⟩

/-- `RemoveMeFromThreatLists` ends, with an empty list. -/
theorem removeMeFromThreatLists_ends (me : ObjectGuid) (hi : ThreatInv s) :
    ∃ s', removeMeFromThreatLists env s me = some s' ∧ ThreatInv s' ∧ Fewer s s' ∧
      (s'.mgr me).threatenedByMe.isEmpty = true := by
  obtain ⟨s', h, ⟨hi', hf⟩, hc⟩ := whileLoop_ends (fun a => ThreatInv a ∧ Fewer s a)
    (fun a => (a.mgr me).threatenedByMe.size) (fun a ⟨ha, hf⟩ hc => by
      obtain ⟨b, t, o, hb, hu⟩ := (@leaveFirstThreatList_unlinked _ env _ me) ha hc
      exact ⟨b, hb, ⟨hu.inv, hf.trans hu.fewer⟩, by have := hu.byMe_size; omega⟩) ⟨hi, .refl s⟩ (Nat.le_refl _)
  exact ⟨s', h, hi', hf, by simpa using hc⟩

/-! ## Linking -/

/-- From `s` to `s'` at most a reference of `o` for `v` is added. -/
structure OneMore (o v : ObjectGuid) (s s' : ThreatState P) : Prop where
  threatens : ∀ o' v' t, Threatens s' o' v' t → Threatens s o' v' t ∨ (o' = o ∧ v' = v)
  canHave : ∀ u, (s'.mgr u).ownerCanHaveThreatList = (s.mgr u).ownerCanHaveThreatList

theorem OneMore.then (h : OneMore o v s s') (h' : Fewer s' s'') : OneMore o v s s'' :=
  ⟨fun o' v' t ht => h.threatens o' v' t (h'.threatens o' v' t ht), fun u => (h'.canHave u).trans (h.canHave u)⟩

section Link

variable {owner target : ObjectGuid} {ref : ThreatReference P.fmt} {s₂ : ThreatState P}

/-- The state with a new reference allocated. -/
def allocated (s : ThreatState P) (ref : ThreatReference P.fmt) : ThreatState P :=
  { s with refs := Function.update s.refs s.nextRef (some ref), nextRef := s.nextRef + 1 }

/-- The manager of `u` after the new reference has been put in its three places. -/
def linked (env : Env P) (s : ThreatState P) (ref : ThreatReference P.fmt) (u : ObjectGuid) : ThreatManager P :=
  let m := s.mgr u
  { m with
    needClientUpdate := if u = ref.owner then true else m.needClientUpdate
    myThreatListEntries := if u = ref.owner then m.myThreatListEntries.insert env.place ref.victim s.nextRef
      else m.myThreatListEntries
    sortedThreatList := if u = ref.owner
      then P.heap.push (compareThreat (allocated s ref)) m.sortedThreatList s.nextRef else m.sortedThreatList
    threatenedByMe := if u = ref.victim then m.threatenedByMe.insert env.place ref.owner s.nextRef
      else m.threatenedByMe }

theorem put_eq {s₁ s₂ : ThreatState P} (h₁ : putThreatListRef env (allocated s ref) ref.owner ref.victim s.nextRef = some s₁)
    (h₂ : putThreatenedByMeRef env s₁ ref.victim ref.owner s.nextRef = some s₂) :
    s₂.refs = Function.update s.refs s.nextRef (some ref) ∧ s₂.nextRef = s.nextRef + 1 ∧
    (∀ u, s₂.mgr u = linked env s ref u) ∧
    s₂.inPlace = Function.update s.inPlace s.nextRef (some ref.position) ∧ s₂.heapLog = s.heapLog := by
  simp only [putThreatListRef, allocated, Function.update_self, Option.bind_eq_bind, Option.bind_some] at h₁
  split at h₁
  · cases h₁
  cases h₁
  simp only [putThreatenedByMeRef] at h₂
  split at h₂
  · cases h₂
  cases h₂
  refine ⟨rfl, rfl, fun u => ?_, rfl, rfl⟩
  simp only [linked]
  by_cases hv : u = ref.victim <;> by_cases ho : u = ref.owner
  · subst hv; simp [← ho, ThreatState.setMgr, allocated]
  · subst hv; simp [ho, ThreatState.setMgr]
  · subst ho; simp [hv, ThreatState.setMgr, allocated]
  · simp [hv, ho, ThreatState.setMgr]

theorem threatens_link (hi : ThreatInv s)
    (hr : s₂.refs = Function.update s.refs s.nextRef (some ref)) (o v : ObjectGuid) (t : ThreatId) :
    Threatens s₂ o v t ↔ (t ≠ s.nextRef ∧ Threatens s o v t) ∨ (t = s.nextRef ∧ ref.owner = o ∧ ref.victim = v) := by
  unfold Threatens
  rw [hr]
  by_cases h : t = s.nextRef
  · subst h; simp [hi.fresh _ (Nat.le_refl _)]
  · simp [h]

theorem onList_link (hi : ThreatInv s) (hr : s₂.refs = Function.update s.refs s.nextRef (some ref)) {t : ThreatId} :
    OnList s₂ o t ↔ OnList s o t ∨ (t = s.nextRef ∧ ref.owner = o) := by
  unfold OnList
  rw [hr]
  by_cases h : t = s.nextRef
  · subst h; simp [hi.fresh _ (Nat.le_refl _)]
  · simp [h]

theorem Threatens.old {t : ThreatId} (hi : ThreatInv s) (h : Threatens s o v t) : t ≠ s.nextRef := by
  rintro rfl
  obtain ⟨ref, ht, -⟩ := h
  rw [hi.fresh _ (Nat.le_refl _)] at ht
  cases ht

/-- A lookup after a new entry for a new reference. -/
theorem find?_linked {m : UMap ObjectGuid ThreatId} {k k' : ObjectGuid} {n t : ThreatId} {pl}
    (hn : ∀ t, m.find? k' = some t → t ≠ n) (hk : m.find? k = none) :
    (m.insert pl k n).find? k' = some t ↔ (t ≠ n ∧ m.find? k' = some t) ∨ (t = n ∧ k = k') := by
  rw [UMap.find?_insert]
  split
  · next h => subst h; simp [hk, eq_comm]
  next h =>
  simp only [Ne.symm h, and_false, or_false]
  exact ⟨fun ht => ⟨hn t ht, ht⟩, And.right⟩

/-- A new reference is in its three places at once. -/
theorem put_inv {s₁ s₂ : ThreatState P} (hi : ThreatInv s) (hno : ∀ t, ¬ Threatens s ref.owner ref.victim t)
    (h₁ : putThreatListRef env (allocated s ref) ref.owner ref.victim s.nextRef = some s₁)
    (h₂ : putThreatenedByMeRef env s₁ ref.victim ref.owner s.nextRef = some s₂) :
    ThreatInv s₂ ∧ OneMore ref.owner ref.victim s s₂ := by
  obtain ⟨hrefs, hnext, hmgr, -, -⟩ := put_eq h₁ h₂
  have hthr := threatens_link hi hrefs
  have hlist : (s.mgr ref.owner).myThreatListEntries.find? ref.victim = none :=
    Option.eq_none_iff_forall_ne_some.2 fun t ht => hno t ((hi.list _ _ _).1 ht)
  have hbyMe : (s.mgr ref.victim).threatenedByMe.find? ref.owner = none :=
    Option.eq_none_iff_forall_ne_some.2 fun t ht => hno t ((hi.byMe _ _ _).1 ht)
  have hnew : ∀ o, s.nextRef ∉ P.heap.elems (s.mgr o).sortedThreatList := by
    intro o hm
    obtain ⟨r, hr, -⟩ := (hi.heap o _).1 hm
    rw [hi.fresh _ (Nat.le_refl _)] at hr
    cases hr
  refine ⟨⟨?_, ?_, ?_, ?_, ?_, ?_, ?_⟩, ⟨fun o v t ht => ?_, fun u => by rw [hmgr]; rfl⟩⟩
  · intro o v t
    rw [hmgr, hthr, ← hi.list]
    simp only [linked]
    split
    · next ho =>
      subst ho
      rw [find?_linked (fun t ht => Threatens.old hi ((hi.list _ _ _).1 ht)) hlist]
      simp
    next ho =>
    simp only [Ne.symm ho, false_and, and_false, or_false]
    exact ⟨fun ht => ⟨Threatens.old hi ((hi.list _ _ _).1 ht), ht⟩, And.right⟩
  · intro v o t
    rw [hmgr, hthr, ← hi.byMe]
    simp only [linked]
    split
    · next hv =>
      subst hv
      rw [find?_linked (fun t ht => Threatens.old hi ((hi.byMe _ _ _).1 ht)) hbyMe]
      simp
    next hv =>
    simp only [Ne.symm hv, and_false, or_false]
    exact ⟨fun ht => ⟨Threatens.old hi ((hi.byMe _ _ _).1 ht), ht⟩, And.right⟩
  · intro o t
    rw [hmgr, onList_link hi hrefs, ← hi.heap]
    simp only [linked]
    split
    · next ho =>
      subst ho
      rw [(P.heap.elems_push _ _ _).mem_iff]
      simp [or_comm]
    · next ho => simp [Ne.symm ho]
  · intro o
    rw [hmgr]
    simp only [linked]
    split
    · next ho => subst ho; exact (P.heap.elems_push _ _ _).nodup_iff.2 (List.nodup_cons.2 ⟨hnew _, hi.nodup _⟩)
    · exact hi.nodup o
  · intro t ht
    rw [hnext] at ht
    have ht' : s.nextRef < t := ht
    rw [hrefs, Function.update_of_ne (Nat.ne_of_gt ht')]
    exact hi.fresh t (Nat.le_of_lt ht')
  · intro o t h
    rw [hmgr] at h
    exact (onList_link hi hrefs).2 (.inl (hi.current o t h))
  · intro o t h
    rw [hmgr] at h
    exact (onList_link hi hrefs).2 (.inl (hi.fixate o t h))
  · rcases (hthr o v t).1 ht with ⟨-, ht⟩ | ⟨-, ho, hv⟩
    · exact .inl ht
    · exact .inr ⟨ho.symm, hv.symm⟩

theorem addThreatEntry_inv {amount : Fl P.fmt} (hi : ThreatInv s)
    (hno : (s.mgr owner).myThreatListEntries.find? target = none)
    (h : addThreatEntry env s owner target amount = some s') : ThreatInv s' ∧ OneMore owner target s s' := by
  simp only [addThreatEntry, Option.bind_eq_bind, Option.bind_eq_some_iff] at h
  obtain ⟨s₁, h₁, s₂, h₂, s₃, h₃, ref', -, h⟩ := h
  have hthr : ∀ t, ¬ Threatens s owner target t := by
    intro t ht
    rw [(hi.list _ _ _).2 ht] at hno
    cases hno
  obtain ⟨hi₂, hm⟩ := (@put_inv _ _ _ (newThreatReference env owner target)) hi hthr h₁ h₂
  have hs : SamePlaces s₂ s' := by
    refine (SamePlaces.updateOffline h₃).trans ?_
    split at h
    · exact SamePlaces.refAddThreat h
    · cases h; exact .refl _
  exact ⟨hs.inv hi₂, hm.then hs.sameLists.fewer⟩

end Link

/-! ## The remaining calls -/

theorem fixateTarget_inv {owner : ObjectGuid} {target : Option ObjectGuid} (hi : ThreatInv s) :
    ThreatInv (fixateTarget s owner target) ∧ SameLists s (fixateTarget s owner target) := by
  refine ⟨hi.setPointers rfl rfl rfl (hi.current owner) fun t ht => ?_, setPointers_sameLists rfl rfl rfl⟩
  simp only [Option.bind_eq_some_iff] at ht
  obtain ⟨v, -, ht⟩ := ht
  exact ((hi.list owner v t).1 ht).onList

theorem updateThreat_inv {owner : ObjectGuid} {tdiff : Nat} (hi : ThreatInv s)
    (h : updateThreat env s owner tdiff = some s') : ThreatInv s' ∧ SameLists s s' := by
  simp only [updateThreat] at h
  split at h
  · cases h; exact ⟨hi, .refl s⟩
  split at h
  · simp only [Option.bind_eq_bind, Option.bind_eq_some_iff] at h
    obtain ⟨s₁, h₁, h⟩ := h
    cases h
    obtain ⟨hi₁, hs⟩ := updateVictim_inv hi h₁
    exact ⟨hi₁.setPointers rfl rfl rfl (hi₁.current owner) (hi₁.fixate owner),
      hs.trans (setPointers_sameLists rfl rfl rfl)⟩
  · cases h
    exact ⟨hi.setPointers rfl rfl rfl (hi.current owner) (hi.fixate owner), setPointers_sameLists rfl rfl rfl⟩

theorem getCurrentVictim_inv {owner : ObjectGuid} (hi : ThreatInv s) (h : getCurrentVictim env s owner = some s') :
    ThreatInv s' ∧ SameLists s s' := by
  unfold getCurrentVictim at h
  split at h
  · exact updateVictim_inv hi h
  simp only [Option.bind_eq_bind, Option.bind_eq_some_iff] at h
  obtain ⟨ref, -, h⟩ := h
  split at h
  · exact updateVictim_inv hi h
  · cases h; exact ⟨hi, .refl s⟩

end AtlasWow.Combat
