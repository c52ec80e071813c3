/-
The safe zone of a battle royale (`Battleroyale::update`, `calculateRadius`),
for one game while it lasts. The radius is computed in `int` and returned as a
`float` of 24 bits. The zone goes on shrinking when the counter has passed
`MAX_ITERATION`: `shrinks_iff` says exactly which runs stop in time.

Where the flag stands, the circle of tracers and the messages are left out.
-/
import AtlasWow.Lib.FloatRound
import AtlasWow.Lib.Machine
import AtlasWow.Lib.MachineInt

namespace AtlasWow.BattleroyaleZone

/-- A row of `battleroyale_areas`. -/
structure Config where
  MAX_ITERATION : UInt8
  radius : UInt32
  firstEventTimer : UInt32
  nextEventTimer : UInt32

structure Game where
  isStarted : Bool
  firstRound : Bool
  diff : UInt64
  iteration : UInt8
deriving DecidableEq

/-- A game that starts, as it was loaded. -/
def Game.begun : Game := ⟨true, false, 0, 0⟩

/-- `none` is a division by zero. -/
def calculateRadius (radius iteration MAX_ITERATION : Int) : Option Int :=
  if MAX_ITERATION = 0 then none
  else some (roundInt 24 (int32 (radius - int32 (iteration * radius.tdiv MAX_ITERATION))))

variable (cfg : Config)

/-- The radius of the zone. -/
def Game.zone (game : Game) : Option Int :=
  calculateRadius (int32 cfg.radius.toNat) game.iteration.toNat cfg.MAX_ITERATION.toNat

def increment : UInt8 :=
  if cfg.MAX_ITERATION = 9 then 3
  else if cfg.MAX_ITERATION = 12 then 4
  else if 15 ≤ cfg.MAX_ITERATION then 5
  else 0

/-- The timer goes on, and the first event begins it anew. -/
def elapse (diff : UInt64) (game : Game) : Game :=
  let game := { game with diff := game.diff + diff }
  if game.firstRound = false ∧ cfg.firstEventTimer.toUInt64 ≤ game.diff then { game with firstRound := true, diff := 0 } else game

/-- Whether the area gets smaller now. -/
def Reduces (diff : UInt64) (game : Game) : Prop :=
  game.isStarted = true ∧ cfg.nextEventTimer.toUInt64 ≤ (elapse cfg diff game).diff ∧ (elapse cfg diff game).firstRound = true

instance (diff : UInt64) (game : Game) : Decidable (Reduces cfg diff game) := inferInstanceAs (Decidable (_ ∧ _ ∧ _))

def update (diff : UInt64) (game : Game) : Option Game :=
  if game.isStarted = false then some game
  else if Reduces cfg diff game then
    let game := { elapse cfg diff game with iteration := game.iteration + increment cfg, diff := 0 }
    (game.zone cfg).map fun _ => game
  else some (elapse cfg diff game)

/-! ## Zones that only shrink -/

/-- The radius is there, not negative and no larger than the first one. -/
def Game.Within (game : Game) : Prop := ∃ radius, game.zone cfg = some radius ∧ 0 ≤ radius ∧ radius ≤ cfg.radius.toNat

/-- The zone stays within bounds over a run of updates, does not grow, and the counter does not wrap. -/
def Shrinks : List UInt64 → Game → Prop
  | [], game => game.Within cfg
  | diff :: diffs, game => game.Within cfg ∧ ∃ game', update cfg diff game = some game' ∧ game.iteration ≤ game'.iteration ∧
      (∀ radius radius', game.zone cfg = some radius → game'.zone cfg = some radius' → radius' ≤ radius) ∧ Shrinks diffs game'

/-- A configuration with iterations, and with a radius that an `int` holds and a `float` does not exceed. -/
def Config.Fits : Prop :=
  cfg.MAX_ITERATION ≠ 0 ∧ cfg.radius.toNat < 2 ^ 31 ∧ roundInt 24 cfg.radius.toNat ≤ cfg.radius.toNat

/-- After as many steps of the counter it still fits, and something is left of the radius. -/
def Config.Lasts (iteration : Nat) : Prop :=
  iteration ≤ 255 ∧ iteration * (cfg.radius.toNat / cfg.MAX_ITERATION.toNat) ≤ cfg.radius.toNat

/-- Each time the area gets smaller, the next iteration is one that lasts. -/
def InTime : List UInt64 → Game → Prop
  | [], _ => True
  | diff :: diffs, game => (Reduces cfg diff game → cfg.Lasts (game.iteration.toNat + (increment cfg).toNat)) ∧
      ∀ game', update cfg diff game = some game' → InTime diffs game'

section

variable {cfg} {game game' : Game} {diff : UInt64}

/-- The counter goes on by a third of the iterations at most. -/
theorem increment_le (cfg : Config) : 3 * (increment cfg).toNat ≤ cfg.MAX_ITERATION.toNat := by
  unfold increment
  split
  next h => rw [h]; decide
  next =>
  split
  next h => rw [h]; decide
  next =>
  split
  next h => exact UInt8.le_iff_toNat_le.1 h
  next => exact Nat.zero_le _

/-- While the radius is not far below zero it is what it is in whole numbers, as a `float`. -/
theorem zone_eq (hmax : cfg.MAX_ITERATION ≠ 0) (hradius : cfg.radius.toNat < 2 ^ 31)
    (hnear : 3 * (game.iteration.toNat * (cfg.radius.toNat / cfg.MAX_ITERATION.toNat)) ≤ 4 * cfg.radius.toNat) :
    game.zone cfg = some (roundInt 24 (cfg.radius.toNat -
      (game.iteration.toNat * (cfg.radius.toNat / cfg.MAX_ITERATION.toNat) : Nat))) := by
  have hmax' : (cfg.MAX_ITERATION.toNat : Int) ≠ 0 := fun h => hmax (UInt8.toNat_inj.1 (Int.ofNat_inj.1 h))
  obtain ⟨reduced, hreduced⟩ : ∃ reduced, reduced = game.iteration.toNat * (cfg.radius.toNat / cfg.MAX_ITERATION.toNat) := ⟨_, rfl⟩
  have hcast : (game.iteration.toNat : Int) * (cfg.radius.toNat : Int).tdiv cfg.MAX_ITERATION.toNat = (reduced : Int) := by
    rw [hreduced, Int.natCast_mul, Int.natCast_ediv, Int.tdiv_eq_ediv_of_nonneg (Int.natCast_nonneg _)]
  rw [← hreduced] at hnear ⊢
  unfold Game.zone calculateRadius
  rw [if_neg hmax', int32_small (Int.natCast_nonneg _) (by omega), hcast, int32_sub_int32, int32_of_range (by omega) (by omega)]

theorem zone_within (hfits : cfg.Fits)
    (hnear : 3 * (game.iteration.toNat * (cfg.radius.toNat / cfg.MAX_ITERATION.toNat)) ≤ 4 * cfg.radius.toNat) :
    game.Within cfg ↔ game.iteration.toNat * (cfg.radius.toNat / cfg.MAX_ITERATION.toNat) ≤ cfg.radius.toNat := by
  have hzone := zone_eq hfits.1 hfits.2.1 hnear
  constructor
  · rintro ⟨radius, hradius, hnonneg, -⟩
    rw [hzone] at hradius
    cases hradius
    have hpos := (roundInt_nonneg_iff (by decide)).1 hnonneg
    omega
  · intro hle
    refine ⟨_, hzone, (roundInt_nonneg_iff (by decide)).2 (by omega), ?_⟩
    refine le_trans (roundInt_mono (by decide) ?_) hfits.2.2
    omega

theorem elapse_iteration (diff : UInt64) (game : Game) : (elapse cfg diff game).iteration = game.iteration := by
  unfold elapse
  dsimp only
  split <;> rfl

theorem zone_isSome (hmax : cfg.MAX_ITERATION ≠ 0) (game : Game) : ∃ radius, game.zone cfg = some radius := by
  have hmax' : (cfg.MAX_ITERATION.toNat : Int) ≠ 0 := fun h => hmax (UInt8.toNat_inj.1 (Int.ofNat_inj.1 h))
  unfold Game.zone calculateRadius
  rw [if_neg hmax']
  exact ⟨_, rfl⟩

/-- An update, by whether the area gets smaller. -/
theorem update_cases (hmax : cfg.MAX_ITERATION ≠ 0) (diff : UInt64) (game : Game) : ∃ game', update cfg diff game = some game' ∧
    game'.iteration = if Reduces cfg diff game then game.iteration + increment cfg else game.iteration := by
  unfold update
  split
  next hno =>
    refine ⟨game, rfl, ?_⟩
    rw [if_neg fun h => ?_]
    rw [h.1] at hno
    cases hno
  next =>
  split
  next h =>
    obtain ⟨radius, hradius⟩ := zone_isSome hmax { elapse cfg diff game with iteration := game.iteration + increment cfg, diff := 0 }
    dsimp only
    rw [hradius]
    exact ⟨_, rfl, rfl⟩
  next h => exact ⟨_, rfl, elapse_iteration diff game⟩

/-- The counter does not wrap exactly if it stays below 256. -/
theorem le_add_increment_iff (iteration : UInt8) :
    iteration ≤ iteration + increment cfg ↔ iteration.toNat + (increment cfg).toNat ≤ 255 := by
  have hle := increment_le cfg
  have hmax := cfg.MAX_ITERATION.toNat_lt
  have hlt := iteration.toNat_lt
  rw [UInt8.le_iff_toNat_le, UInt8.toNat_add]
  omega

/-- One more reduction does not take much. -/
theorem near_add_increment {iteration : Nat}
    (h : iteration * (cfg.radius.toNat / cfg.MAX_ITERATION.toNat) ≤ cfg.radius.toNat) :
    3 * ((iteration + (increment cfg).toNat) * (cfg.radius.toNat / cfg.MAX_ITERATION.toNat)) ≤ 4 * cfg.radius.toNat := by
  have hthird : 3 * (increment cfg).toNat * (cfg.radius.toNat / cfg.MAX_ITERATION.toNat) ≤ cfg.radius.toNat :=
    (Nat.mul_le_mul_right _ (increment_le cfg)).trans (Nat.mul_div_le ..)
  rw [Nat.mul_assoc] at hthird
  rw [Nat.add_mul]
  omega

theorem Shrinks.within : ∀ {diffs : List UInt64}, Shrinks cfg diffs game → game.Within cfg
  | [], h => h
  | _ :: _, h => h.1

/-- From a zone that is still there. -/
theorem shrinks_iff_inTime (hfits : cfg.Fits) : ∀ {diffs : List UInt64} {game : Game},
    game.iteration.toNat * (cfg.radius.toNat / cfg.MAX_ITERATION.toNat) ≤ cfg.radius.toNat →
    (Shrinks cfg diffs game ↔ InTime cfg diffs game)
  | [], game, h => iff_of_true ((zone_within hfits (by omega)).2 h) trivial
  | diff :: diffs, game, h => by
    obtain ⟨game', hupdate, hiteration⟩ := update_cases hfits.1 diff game
    have hzone := @zone_eq cfg game hfits.1 hfits.2.1 (by omega)
    have honly : ∀ {game''}, update cfg diff game = some game'' → game'' = game' := fun h => by
      rw [hupdate] at h
      exact (Option.some_inj.1 h).symm
    rw [Shrinks, InTime, and_iff_right ((zone_within hfits (by omega)).2 h)]
    by_cases hreduces : Reduces cfg diff game
    · rw [if_pos hreduces] at hiteration
      have hnear := near_add_increment h
      constructor
      · rintro ⟨game'', hupdate', hle, -, hshrinks⟩
        cases honly hupdate'
        have hwrap := (le_add_increment_iff _).1 (hiteration ▸ hle)
        have hsum : game'.iteration.toNat = game.iteration.toNat + (increment cfg).toNat := by
          rw [hiteration, UInt8.toNat_add]
          omega
        have hlasts := (zone_within hfits (hsum ▸ hnear)).1 hshrinks.within
        refine ⟨fun _ => ⟨hwrap, hsum ▸ hlasts⟩, fun game'' hupdate'' => ?_⟩
        cases honly hupdate''
        exact (shrinks_iff_inTime hfits hlasts).1 hshrinks
      · rintro ⟨hlasts, hnext⟩
        obtain ⟨hwrap, hleft⟩ := hlasts hreduces
        have hsum : game'.iteration.toNat = game.iteration.toNat + (increment cfg).toNat := by
          rw [hiteration, UInt8.toNat_add]
          omega
        have hzone' := @zone_eq cfg game' hfits.1 hfits.2.1 (hsum ▸ hnear)
        refine ⟨game', hupdate, hiteration ▸ (le_add_increment_iff _).2 hwrap, fun radius radius' hr hr' => ?_,
          (shrinks_iff_inTime hfits (hsum ▸ hleft)).2 (hnext game' hupdate)⟩
        rw [hzone] at hr
        rw [hzone'] at hr'
        cases hr
        cases hr'
        refine roundInt_mono (by decide) ?_
        have hmore := Nat.mul_le_mul_right (cfg.radius.toNat / cfg.MAX_ITERATION.toNat) (hsum.ge.trans' (Nat.le_add_right ..))
        omega
    · rw [if_neg hreduces] at hiteration
      have hsame : game'.zone cfg = game.zone cfg := by
        unfold Game.zone
        rw [hiteration]
      constructor
      · rintro ⟨game'', hupdate', -, -, hshrinks⟩
        cases honly hupdate'
        refine ⟨fun hr => absurd hr hreduces, fun game'' hupdate'' => ?_⟩
        cases honly hupdate''
        exact (shrinks_iff_inTime hfits (hiteration ▸ h)).1 hshrinks
      · rintro ⟨-, hnext⟩
        refine ⟨game', hupdate, hiteration ▸ UInt8.le_refl _, fun radius radius' hr hr' => ?_,
          (shrinks_iff_inTime hfits (hiteration ▸ h)).2 (hnext game' hupdate)⟩
        rw [hsame, hr] at hr'
        exact (Option.some_inj.1 hr').ge

/-- The bounds hold in the state that a run reaches. -/
theorem Shrinks.reached : ∀ {diffs : List UInt64} {game game' : Game}, Shrinks cfg diffs game →
    runSteps (update cfg) diffs game = some game' → game'.Within cfg
  | [], _, _, h, hrun => by
    cases hrun
    exact h
  | diff :: diffs, game, game', h, hrun => by
    obtain ⟨-, next, hupdate, -, -, hshrinks⟩ := h
    rw [runSteps, hupdate, Option.bind_some] at hrun
    exact hshrinks.reached hrun

/-- A radius that a `float` holds is not rounded. -/
theorem Config.Fits.of_small (hmax : cfg.MAX_ITERATION ≠ 0) (h : cfg.radius.toNat < 2 ^ 24) : cfg.Fits :=
  ⟨hmax, by omega, (roundInt_exact (by decide) (by omega)).le⟩

/-- The first radius is within bounds exactly if the configuration fits. -/
theorem begun_within_iff : Game.begun.Within cfg ↔ cfg.Fits := by
  have hlt := cfg.radius.toNat_lt
  have hzone : cfg.MAX_ITERATION ≠ 0 → Game.begun.zone cfg = some (roundInt 24 (int32 cfg.radius.toNat)) := fun hmax => by
    have hmax' : (cfg.MAX_ITERATION.toNat : Int) ≠ 0 := fun h => hmax (UInt8.toNat_inj.1 (Int.ofNat_inj.1 h))
    have hzero : (Game.begun.iteration.toNat : Int) = 0 := rfl
    have hrange : -2 ^ 31 ≤ int32 cfg.radius.toNat ∧ int32 cfg.radius.toNat < 2 ^ 31 := by
      rw [int32_eq]
      split <;> omega
    unfold Game.zone calculateRadius
    rw [if_neg hmax', hzero, Int.zero_mul, int32_sub_int32, Int.sub_zero, int32_of_range hrange.1 hrange.2]
  constructor
  · rintro ⟨radius, hradius, hnonneg, hle⟩
    have hmax : cfg.MAX_ITERATION ≠ 0 := fun h => by
      unfold Game.zone calculateRadius at hradius
      have hzero : ((UInt8.toNat 0 : Nat) : Int) = 0 := rfl
      rw [h, if_pos hzero] at hradius
      cases hradius
    rw [hzone hmax] at hradius
    cases hradius
    have hpos := (roundInt_nonneg_iff (by decide)).1 hnonneg
    have hsmall : cfg.radius.toNat < 2 ^ 31 := by
      by_contra hbig
      rw [int32_eq] at hpos
      split at hpos <;> omega
    rw [int32_small (Int.natCast_nonneg _) (by omega)] at hle
    exact ⟨hmax, hsmall, hle⟩
  · rintro ⟨hmax, hsmall, hle⟩
    refine ⟨_, hzone hmax, ?_, ?_⟩
    · rw [int32_small (Int.natCast_nonneg _) (by omega)]
      exact (roundInt_nonneg_iff (by decide)).2 (Int.natCast_nonneg _)
    · rw [int32_small (Int.natCast_nonneg _) (by omega)]
      exact hle

/-- The zone of a game shrinks and nothing else, over all updates, exactly if its configuration fits and each time the area gets
smaller the counter lasts. -/
theorem shrinks_iff (cfg : Config) (diffs : List UInt64) : Shrinks cfg diffs .begun ↔ cfg.Fits ∧ InTime cfg diffs .begun := by
  have hbegun : Game.begun.iteration.toNat * (cfg.radius.toNat / cfg.MAX_ITERATION.toNat) ≤ cfg.radius.toNat :=
    (Nat.zero_mul _).trans_le (Nat.zero_le _)
  constructor
  · intro h
    have hfits := begun_within_iff.1 h.within
    exact ⟨hfits, (shrinks_iff_inTime hfits hbegun).1 h⟩
  · rintro ⟨hfits, h⟩
    exact (shrinks_iff_inTime hfits hbegun).2 h

end

/-- Fifteen iterations: the zone is gone after three reductions, and the fourth makes its radius negative. -/
theorem shrinks_fails : ∃ (cfg : Config) (game : Game), cfg.Fits ∧ cfg.MAX_ITERATION = 15 ∧ cfg.radius = 150 ∧
    runSteps (update cfg) [1, 1, 1, 1, 1] .begun = some game ∧ game.zone cfg = some (-50) ∧ ¬ Shrinks cfg [1, 1, 1, 1, 1] .begun := by
  have hrun : runSteps (update ⟨15, 150, 1, 1⟩) [1, 1, 1, 1, 1] .begun = some ⟨true, true, 0, 20⟩ := by decide
  have hzone : Game.zone ⟨15, 150, 1, 1⟩ ⟨true, true, 0, 20⟩ = some (-50) := by decide +kernel
  refine ⟨⟨15, 150, 1, 1⟩, _, .of_small (by decide) (by decide), rfl, rfl, hrun, hzone, fun h => ?_⟩
  obtain ⟨radius, hradius, hnonneg, -⟩ := h.reached hrun
  rw [hzone] at hradius
  cases hradius
  exact absurd hnonneg (by decide)

end AtlasWow.BattleroyaleZone
