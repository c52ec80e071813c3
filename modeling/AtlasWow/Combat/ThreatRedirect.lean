/-
Threat redirection. The list that `UpdateRedirectInfo` builds never gives away
more than the whole threat: its percentages add up to what is registered, up to
100. With exact arithmetic, what `AddThreat` adds for the units of that list and
for the target together is the modified amount, as long as threat can be added
to each of them; a target that gets none, because it is suppressed, keeps its
share from being added at all.
-/
import AtlasWow.Combat.ThreatAdded
import Mathlib.Algebra.BigOperators.Group.Finset.Basic
import Mathlib.Tactic.Ring
import Mathlib.Tactic.Positivity

namespace AtlasWow.Combat

/-! ## The redirections of a unit -/

section Redirections

variable {P : Platform} {s : ThreatState P}

/-- A call that registers or unregisters redirections of `me`. -/
inductive RedirectCall where
  | register (me : ObjectGuid) (spellId : Nat) (victim : ObjectGuid) (pct : Nat)
  | unregister (me : ObjectGuid) (spellId : Nat)
  | unregisterFor (me : ObjectGuid) (spellId : Nat) (victim : ObjectGuid)

def redirect (s : ThreatState P) (e : Env P × RedirectCall) : ThreatState P :=
  match e.2 with
  | .register me spellId victim pct => registerRedirectThreat e.1 s me spellId victim pct
  | .unregister me spellId => unregisterRedirectThreat s me spellId
  | .unregisterFor me spellId victim => unregisterRedirectThreatFor e.1 s me spellId victim

/-- All pairs of victim and percentage that are registered, in the order of the loops over them. -/
def ThreatManager.registered (m : ThreatManager P) : List (ObjectGuid × Nat) :=
  m.redirectRegistry.entries.flatMap fun e => e.2.entries

def totalPct (l : List (ObjectGuid × Nat)) : Nat := (l.map (·.2)).sum

/-- The assertions of `UpdateRedirectInfo`, in the loop of `redirectShares`. -/
def redirectAsserts (totalPct : Nat) : List (ObjectGuid × Nat) → Bool
  | [] => true
  | (_, pct) :: rest =>
    let thisPct := min (100 - totalPct) pct
    if 0 < thisPct then
      totalPct + thisPct ≤ 100 && (if totalPct + thisPct = 100 then true else redirectAsserts (totalPct + thisPct) rest)
    else redirectAsserts totalPct rest

theorem totalPct_cons (p : ObjectGuid × Nat) (l : List (ObjectGuid × Nat)) : totalPct (p :: l) = p.2 + totalPct l := rfl

/-- The shares use up what is left of 100%, or all that is registered. -/
theorem totalPct_redirectShares : ∀ (l : List (ObjectGuid × Nat)) {n : Nat}, n ≤ 100 →
    totalPct (redirectShares n l) = min (100 - n) (totalPct l)
  | [], n, _ => (Nat.min_zero _).symm
  | (victim, pct) :: rest, n, h => by
    rw [redirectShares, totalPct_cons]
    dsimp only
    split
    next hpos =>
      rw [totalPct_cons]
      dsimp only
      split
      next hfull =>
        show min (100 - n) pct + 0 = _
        omega
      next hleft =>
      rw [totalPct_redirectShares rest (by omega)]
      omega
    next hzero =>
    rw [totalPct_redirectShares rest h]
    omega

theorem redirectAsserts_true : ∀ (l : List (ObjectGuid × Nat)) {n : Nat}, n ≤ 100 → redirectAsserts n l = true
  | [], _, _ => rfl
  | (victim, pct) :: rest, n, h => by
    rw [redirectAsserts]
    split
    next hpos =>
      have hle : n + min (100 - n) pct ≤ 100 := by omega
      rw [decide_eq_true hle, Bool.true_and]
      split
      · rfl
      · exact redirectAsserts_true rest hle
    next => exact redirectAsserts_true rest h

/-- The redirections of every unit are those that are registered. -/
def RedirectsBuilt (s : ThreatState P) : Prop := ∀ u, (s.mgr u).redirectInfo = redirectShares 0 (s.mgr u).registered

theorem RedirectsBuilt.update {me : ObjectGuid} {m : ThreatManager P} (h : RedirectsBuilt s) :
    RedirectsBuilt (updateRedirectInfo (s.setMgr me m) me) := by
  intro u
  unfold updateRedirectInfo
  by_cases hu : u = me
  · subst hu
    simp only [ThreatState.mgr_setMgr_self]
    rfl
  · rw [ThreatState.mgr_setMgr_of_ne hu, ThreatState.mgr_setMgr_of_ne hu]
    exact h u

theorem RedirectsBuilt.redirect (h : RedirectsBuilt s) (e : Env P × RedirectCall) : RedirectsBuilt (redirect s e) := by
  unfold Combat.redirect
  split
  · exact h.update
  · unfold unregisterRedirectThreat
    dsimp only
    split
    · exact h
    · exact h.update
  · unfold unregisterRedirectThreatFor
    dsimp only
    split
    · exact h
    split
    · exact h
    · exact h.update

theorem redirectsBuilt_run (calls : List (Env P × RedirectCall)) (h : RedirectsBuilt s) :
    RedirectsBuilt (calls.foldl redirect s) := by
  induction calls generalizing s with
  | nil => exact h
  | cons e calls ih => exact ih (h.redirect e)

end Redirections

/-! ## Threat is conserved -/

variable {heap : HandleHeap ThreatId} {env : Env ⟨.exact, heap⟩} {w w' : World ⟨.exact, heap⟩} {owner target v : ObjectGuid}
  {amount : Fl FloatFormat.exact} {spell : Option SpellInfo} {im : Bool} {S : Finset ObjectGuid}

/-- The threat a list has for units, together. -/
def totalThreat (w : World ⟨.exact, heap⟩) (owner : ObjectGuid) (S : Finset ObjectGuid) : ℚ :=
  ∑ u ∈ S, (threatBase w.threat owner u).1

theorem Adds.totalThreat (h : Adds env owner v amount w w') (hv : v ∈ S) :
    totalThreat w' owner S = totalThreat w owner S + amount.1 := by
  have hothers : ∑ u ∈ S.erase v, (threatBase w'.threat owner u).1 = ∑ u ∈ S.erase v, (threatBase w.threat owner u).1 :=
    Finset.sum_congr rfl fun u hu => congrArg Subtype.val (h.others u (Finset.ne_of_mem_erase hu))
  have hself : (threatBase w'.threat owner v).1 = (threatBase w.threat owner v).1 + amount.1 := congrArg Subtype.val h.self
  unfold Combat.totalThreat
  rw [← Finset.add_sum_erase S _ hv, ← Finset.add_sum_erase S _ hv, hothers, hself]
  ring

theorem Adds.causesThreat (h : Adds env owner v amount w w') (hs : spellCausesNoThreat w owner spell = false) :
    spellCausesNoThreat w' owner spell = false := by
  unfold spellCausesNoThreat at *
  cases spell with
  | none => rfl
  | some sp =>
    rw [Option.any_some, Bool.or_eq_false_iff, Bool.and_eq_false_iff] at *
    refine ⟨hs.1, hs.2.imp_left fun he => ?_⟩
    rw [h.engaged (by simpa using he)]
    rfl

/-- `AddThreat` for a unit that redirects nothing. -/
theorem addThreat_adds (hi : WorldInv w) (hs : spellCausesNoThreat w owner spell = false)
    (hcan : w.canHaveThreatList owner = true) (ha : Able env w owner v) (hamount : 0 ≤ amount) (n : Nat) :
    ∃ w', addThreat env (n + 1) w owner v amount spell true true = some w' ∧ Adds env owner v amount w w' := by
  obtain ⟨w', hw'⟩ := (@applyThreat_succeeds _ env _) hi owner v amount
  refine ⟨w', ?_, applyThreat_adds hi ha hamount hw'⟩
  simp [addThreat, hs, threatToVehicle, ha.onFoot, hcan, modifyAmount, hw']

theorem val_calculatePct (amount : Fl FloatFormat.exact) (pct : Nat) : (calculatePct amount pct).1 = amount.1 * pct / 100 := by
  show amount.1 * ((pct : Int) : ℚ) / ((100 : Int) : ℚ) = _
  push_cast
  rfl

/-- Where the loop over the redirections is: what has been added and what is left are the amount, and enough is left for
the rest. -/
structure Redirecting (env : Env ⟨.exact, heap⟩) (owner : ObjectGuid) (spell : Option SpellInfo) (amount : Fl FloatFormat.exact)
    (S : Finset ObjectGuid) (w₀ : World ⟨.exact, heap⟩) (rest : List (ObjectGuid × Nat))
    (p : World ⟨.exact, heap⟩ × Fl FloatFormat.exact) : Prop where
  inv : WorldInv p.1
  causesThreat : spellCausesNoThreat p.1 owner spell = false
  canHave : p.1.canHaveThreatList owner = true
  able : ∀ u, Able env w₀ owner u → Able env p.1 owner u
  listed : ∀ u, ((w₀.threat.mgr owner).myThreatListEntries.find? u).isSome = true →
    ((p.1.threat.mgr owner).myThreatListEntries.find? u).isSome = true
  left : amount.1 * totalPct rest / 100 ≤ p.2.1
  total : totalThreat p.1 owner S + p.2.1 = totalThreat w₀ owner S + amount.1
  others : ∀ u, u ∉ S → threatBase p.1.threat owner u = threatBase w₀.threat owner u

/-- Threat is redirected to the units of a list, one after the other. -/
theorem redirectLoop (n : Nat) (hamount : 0 ≤ amount) {w₀ : World ⟨.exact, heap⟩} : ∀ (l : List (ObjectGuid × Nat))
    {p : World ⟨.exact, heap⟩ × Fl FloatFormat.exact}, Redirecting env owner spell amount S w₀ l p →
    (∀ e ∈ l, e.1 ∈ S ∧ Able env w₀ owner e.1 ∧
      (((w₀.threat.mgr owner).myThreatListEntries.find? e.1).isSome = true ∨ env.canFindUnit owner e.1 = true)) →
    ∃ p', l.foldlM (fun (p : World ⟨.exact, heap⟩ × Fl FloatFormat.exact) pair =>
      if ((p.1.threat.mgr owner).myThreatListEntries.find? pair.1).isSome || env.canFindUnit owner pair.1 then
        (addThreat env (n + 1) p.1 owner pair.1 (calculatePct amount pair.2) spell true true).map fun w =>
          (w, p.2 - calculatePct amount pair.2)
      else some (p.1, p.2)) p = some p' ∧ Redirecting env owner spell amount S w₀ [] p'
  | [], p, h, _ => ⟨p, rfl, h⟩
  | (v, pct) :: l, p, h, hl => by
    obtain ⟨hmem, hable, hfound⟩ := hl (v, pct) List.mem_cons_self
    have hamount' : (0 : ℚ) ≤ amount.1 := hamount
    have hshare : (0 : Fl FloatFormat.exact) ≤ calculatePct amount pct := by
      show (0 : ℚ) ≤ (calculatePct amount pct).1
      rw [val_calculatePct]
      positivity
    obtain ⟨w₁, hadd, hadds⟩ := addThreat_adds h.inv h.causesThreat h.canHave (h.able v hable) hshare n
    have hfound' : (((p.1.threat.mgr owner).myThreatListEntries.find? v).isSome || env.canFindUnit owner v) = true := by
      rw [Bool.or_eq_true]
      exact hfound.imp_left (h.listed v)
    rw [List.foldlM_cons, if_pos hfound', hadd, Option.map_some]
    refine redirectLoop n hamount l ⟨hadds.inv, hadds.causesThreat h.causesThreat, hadds.canHave.trans h.canHave,
      fun u hu => hadds.able u (h.able u hu), fun u hu => hadds.listed u (h.listed u hu), ?_, ?_, fun u hu => ?_⟩
      fun e he => hl e (List.mem_cons_of_mem _ he)
    · have hleft := h.left
      rw [totalPct_cons] at hleft
      show _ ≤ p.2.1 - (calculatePct amount pct).1
      rw [val_calculatePct]
      push_cast at hleft
      linarith
    · have htotal := h.total
      have hsum := hadds.totalThreat hmem
      show totalThreat w₁ owner S + (p.2.1 - (calculatePct amount pct).1) = _
      rw [hsum]
      linarith
    · exact (hadds.others u fun he => hu (he ▸ hmem)).trans (h.others u hu)

/-- The units that a redirecting target leads threat to, and the target. -/
def threatTargets (s : ThreatState ⟨.exact, heap⟩) (target : ObjectGuid) : Finset ObjectGuid :=
  insert target ((s.mgr target).redirectInfo.map (·.1)).toFinset

theorem modifyAmount_same (env : Env ⟨.exact, heap⟩) (s : ThreatState ⟨.exact, heap⟩) (amount : Fl FloatFormat.exact)
    (target : ObjectGuid) (spell : Option SpellInfo) (im : Bool) :
    (modifyAmount env s amount target spell im).1.refs = s.refs ∧
      ∀ u, ((modifyAmount env s amount target spell im).1.mgr u).redirectInfo = (s.mgr u).redirectInfo := by
  unfold modifyAmount
  split
  · exact ⟨rfl, fun _ => rfl⟩
  simp only [calculateModifiedThreat]
  split
  · exact ⟨rfl, fun _ => rfl⟩
  split
  · exact ⟨rfl, fun _ => rfl⟩
  refine ⟨rfl, fun u => ?_⟩
  by_cases hu : u = target
  · subst hu
    rw [ThreatState.mgr_setMgr_self]
  · rw [ThreatState.mgr_setMgr_of_ne hu]

theorem threatBase_congr {s s' : ThreatState ⟨.exact, heap⟩} (hs : SamePlaces s s') (hrefs : s'.refs = s.refs)
    (owner u : ObjectGuid) : threatBase s' owner u = threatBase s owner u := by
  unfold threatBase
  rw [hs.list, hrefs]

/-- What `AddThreat` adds to the target and to those it redirects to is the modified amount. -/
theorem addThreat_conserves (n : Nat) (hi : WorldInv w) (hs : spellCausesNoThreat w owner spell = false)
    (hcan : w.canHaveThreatList owner = true) (htarget : Able env w owner target)
    (hshares : totalPct (w.threat.mgr target).redirectInfo ≤ 100)
    (hredirects : ∀ e ∈ (w.threat.mgr target).redirectInfo, Able env w owner e.1 ∧
      (((w.threat.mgr owner).myThreatListEntries.find? e.1).isSome = true ∨ env.canFindUnit owner e.1 = true))
    (hmodified : 0 ≤ (modifyAmount env w.threat amount target spell im).2) :
    ∃ w', addThreat env (n + 2) w owner target amount spell im false = some w' ∧
      totalThreat w' owner (threatTargets w.threat target) = totalThreat w owner (threatTargets w.threat target) +
        (modifyAmount env w.threat amount target spell im).2.1 ∧
      ∀ u, u ∉ threatTargets w.threat target → threatBase w'.threat owner u = threatBase w.threat owner u := by
  set m := modifyAmount env w.threat amount target spell im with hm
  set S := threatTargets w.threat target with hS
  have hsame : SamePlaces w.threat m.1 := SamePlaces.modifyAmount env w.threat amount target spell im
  obtain ⟨hrefs, hinfo⟩ := modifyAmount_same env w.threat amount target spell im
  rw [← hm] at hrefs hinfo
  have hmem : target ∈ S := Finset.mem_insert_self _ _
  have hable : ∀ u, Able env w owner u → Able env ⟨w.combat, m.1⟩ owner u := fun u hu =>
    ⟨hu.onFoot, hu.fights, hu.acceptable, fun t ref ht => hu.listed t ref (by rw [← hrefs]; exact ht), fun hno =>
      hu.unlisted (by rw [← hsame.list]; exact hno)⟩
  have hbase : ∀ u, threatBase m.1 owner u = threatBase w.threat owner u := threatBase_congr hsame hrefs owner
  have hstart : Redirecting env owner spell m.2 S ⟨w.combat, m.1⟩ (m.1.mgr target).redirectInfo (⟨w.combat, m.1⟩, m.2) := by
    refine ⟨⟨hi.combat, hsame.inv hi.threat, hi.fighting.fewer hsame.sameLists.fewer⟩, hs, (hsame.canHave owner).trans hcan,
      fun _ h => h, fun _ h => h, ?_, rfl, fun _ _ => rfl⟩
    have hle : (totalPct (m.1.mgr target).redirectInfo : ℚ) ≤ 100 := by
      rw [hinfo]
      exact_mod_cast hshares
    have hpos : (0 : ℚ) ≤ m.2.1 := hmodified
    rw [div_le_iff₀ (by norm_num)]
    exact mul_le_mul_of_nonneg_left hle hpos
  obtain ⟨p, hloop, hp⟩ : ∃ p, (if !false && 0 < m.2 then
      threatToRedirects env (fun w victim amount => addThreat env (n + 1) w owner victim amount spell true true)
        ⟨w.combat, m.1⟩ owner target m.2 else some (⟨w.combat, m.1⟩, m.2)) = some p ∧
      Redirecting env owner spell m.2 S ⟨w.combat, m.1⟩ [] p := by
    split
    · refine redirectLoop n hmodified (m.1.mgr target).redirectInfo hstart fun e he => ?_
      rw [hinfo] at he
      obtain ⟨ha, hfound⟩ := hredirects e he
      refine ⟨?_, hable e.1 ha, hfound.imp_left fun h => by rw [hsame.list]; exact h⟩
      exact Finset.mem_insert_of_mem (List.mem_toFinset.2 (List.mem_map_of_mem he))
    refine ⟨_, rfl, { hstart with left := ?_ }⟩
    have hpos : (0 : ℚ) ≤ m.2.1 := hmodified
    simpa [totalPct] using hpos
  have hleft : (0 : Fl FloatFormat.exact) ≤ p.2 := by
    have h := hp.left
    rw [show totalPct [] = 0 from rfl, Nat.cast_zero, mul_zero, zero_div] at h
    exact h
  obtain ⟨w', happly⟩ := (@applyThreat_succeeds _ env _) hp.inv owner target p.2
  have hadds := applyThreat_adds hp.inv (hp.able target (hable target htarget)) hleft happly
  refine ⟨w', ?_, ?_, fun u hu => ?_⟩
  · rw [addThreat, if_neg (by rw [hs]; exact Bool.false_ne_true)]
    simp only [threatToVehicle, htarget.onFoot, Option.bind_eq_bind, Option.bind_some, Bool.false_eq_true, if_false, hcan,
      Bool.not_true, ← hm]
    rw [hloop, Option.bind_some]
    exact happly
  · have htotal := hp.total
    have hsum := hadds.totalThreat hmem
    have hsums : totalThreat ⟨w.combat, m.1⟩ owner S = totalThreat w owner S :=
      Finset.sum_congr rfl fun u _ => congrArg Subtype.val (hbase u)
    rw [hsum, htotal, hsums]
  · have hne : u ≠ target := fun he => hu (he ▸ hmem)
    exact (hadds.others u hne).trans ((hp.others u hu).trans (hbase u))

/-- After any registrations the list of every unit has the registered percentages up to 100, and its assertions hold. Threat
for a target whose list is built like that is conserved, if the target and all on its list can be given threat. -/
theorem redirection_conserves (P : Platform) (heap : HandleHeap ThreatId) :
    (∀ (can : ObjectGuid → Bool) (calls : List (Env P × RedirectCall)) (u : ObjectGuid),
      let m := (calls.foldl redirect (ThreatState.init P can)).mgr u
      m.redirectInfo = redirectShares 0 m.registered ∧ totalPct m.redirectInfo = min 100 (totalPct m.registered) ∧
        redirectAsserts 0 m.registered = true) ∧
    ∀ (env : Env ⟨.exact, heap⟩) (w : World ⟨.exact, heap⟩) (owner target : ObjectGuid) (amount : Fl FloatFormat.exact)
      (spell : Option SpellInfo) (im : Bool) (n : Nat),
      Reached w → (w.threat.mgr target).redirectInfo = redirectShares 0 (w.threat.mgr target).registered →
      spellCausesNoThreat w owner spell = false → w.canHaveThreatList owner = true → Able env w owner target →
      (∀ e ∈ (w.threat.mgr target).redirectInfo, Able env w owner e.1 ∧
        (((w.threat.mgr owner).myThreatListEntries.find? e.1).isSome = true ∨ env.canFindUnit owner e.1 = true)) →
      0 ≤ (modifyAmount env w.threat amount target spell im).2 →
      ∃ w', addThreat env (n + 2) w owner target amount spell im false = some w' ∧
        totalThreat w' owner (threatTargets w.threat target) = totalThreat w owner (threatTargets w.threat target) +
          (modifyAmount env w.threat amount target spell im).2.1 ∧
        ∀ u, u ∉ threatTargets w.threat target → threatBase w'.threat owner u = threatBase w.threat owner u := by
  refine ⟨fun can calls u => ?_, fun env w owner target amount spell im n hr hbuilt hs hcan htarget hredirects hmodified => ?_⟩
  · have hbuilt := redirectsBuilt_run calls (show RedirectsBuilt (ThreatState.init P can) from fun _ => rfl) u
    refine ⟨hbuilt, ?_, redirectAsserts_true _ (Nat.zero_le _)⟩
    rw [hbuilt]
    exact totalPct_redirectShares _ (Nat.zero_le _)
  · refine addThreat_conserves n (reached_worldInv hr) hs hcan htarget ?_ hredirects hmodified
    rw [hbuilt, totalPct_redirectShares _ (Nat.zero_le _)]
    exact Nat.min_le_left _ _

/-- Half of the threat of unit 9 goes to unit 8. -/
def halfRedirected : World .plain :=
  ⟨.init, registerRedirectThreat (Env.openField .plain) (ThreatState.init .plain fun u => u < 5) 9 1 8 50⟩

theorem halfRedirected_reached : Reached halfRedirected := by
  have h : step (Env.openField .plain, .registerRedirectThreat 9 1 8 50) (World.init .plain fun u => u < 5) =
      some halfRedirected := rfl
  exact ⟨_, .tail _ .refl trivial h⟩

theorem redirection_conserves_half :
    ∃ w', addThreat (Env.openField .plain) 2 halfRedirected 1 9 (.ofInt 100) none true false = some w' ∧
      totalThreat w' 1 (threatTargets halfRedirected.threat 9) =
        totalThreat halfRedirected 1 (threatTargets halfRedirected.threat 9) + 100 ∧
      ∀ u, u ∉ threatTargets halfRedirected.threat 9 → threatBase w'.threat 1 u = threatBase halfRedirected.threat 1 u := by
  have hable : ∀ u, u = 8 ∨ u = 9 → Able (Env.openField .plain) halfRedirected 1 u := by
    rintro u (rfl | rfl)
    · exact ⟨rfl, .inr (by decide), by decide, nofun, fun _ => by decide⟩
    · exact ⟨rfl, .inr (by decide), by decide, nofun, fun _ => by decide⟩
  have hinfo : (halfRedirected.threat.mgr 9).redirectInfo = [(8, 50)] := by decide
  refine (redirection_conserves .plain _).2 (Env.openField .plain) halfRedirected 1 9 (.ofInt 100) none true 0
    halfRedirected_reached rfl rfl rfl (hable 9 (.inr rfl)) (fun e he => ?_) (by decide)
  rw [hinfo, List.mem_singleton] at he
  subst he
  exact ⟨hable 8 (.inl rfl), .inr rfl⟩

/-- A confused target keeps its share from being added: its reference is suppressed. -/
def confused (v : ObjectGuid) : Env .plain := { Env.openField .plain with hasConfuseAura := fun u => u == v }

theorem redirection_loses : ¬ ∀ (env : Env .plain) (w w' : World .plain) (owner target : ObjectGuid) (amount : Fl FloatFormat.exact),
    Reached w → w.canHaveThreatList owner = true →
    (∀ e ∈ (w.threat.mgr target).redirectInfo, Able env w owner e.1 ∧ env.canFindUnit owner e.1 = true) →
    0 ≤ amount → addThreat env env.callDepth w owner target amount none true false = some w' →
    totalThreat w' owner (threatTargets w.threat target) = totalThreat w owner (threatTargets w.threat target) + amount.1 := by
  intro hall
  have h : (addThreat (confused 9) 4 halfRedirected 1 9 (.ofInt 100) none true false).any (fun w =>
      threatBase w.threat 1 8 = .ofInt 50 && threatBase w.threat 1 9 = 0) = true := by
    decide +kernel
  obtain ⟨w', hw', hb⟩ := (Option.any_eq_true _ _).1 h
  rw [Bool.and_eq_true, decide_eq_true_eq, decide_eq_true_eq] at hb
  have hinfo : (halfRedirected.threat.mgr 9).redirectInfo = [(8, 50)] := by decide
  have htotal := hall (confused 9) halfRedirected w' 1 9 (.ofInt 100) halfRedirected_reached rfl (fun e he => ?_) (by decide) hw'
  · have htargets : threatTargets halfRedirected.threat 9 = {9, 8} := by
      show insert 9 ((halfRedirected.threat.mgr 9).redirectInfo.map (·.1)).toFinset = _
      rw [hinfo]
      rfl
    have hsum : ∀ w : World .plain, totalThreat w 1 {9, 8} = (threatBase w.threat 1 9).1 + (threatBase w.threat 1 8).1 :=
      fun w => Finset.sum_pair (by decide)
    have hnone : ∀ u, threatBase halfRedirected.threat 1 u = 0 := fun u =>
      threatBase_none (reached_worldInv halfRedirected_reached).threat nofun
    rw [htargets, hsum, hsum, hb.1, hb.2, hnone, hnone] at htotal
    have hsums : (0 : ℚ) + ((50 : Int) : ℚ) = 0 + 0 + ((100 : Int) : ℚ) := htotal
    norm_num at hsums
  · rw [hinfo, List.mem_singleton] at he
    subst he
    exact ⟨⟨rfl, .inr (by decide), by decide, nofun, fun _ => by decide⟩, rfl⟩

end AtlasWow.Combat
