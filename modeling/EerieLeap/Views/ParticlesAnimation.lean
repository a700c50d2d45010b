import EerieLeap.Views.Drawing
import Mathlib.Analysis.Real.Pi.Bounds
import Mathlib.Analysis.SpecialFunctions.Trigonometric.Bounds

/-!
# The particles animation

`ParticlesAnimation` moves 80 particles to the right, each up and down with the sum of two waves. What is added
to the row of the middle is converted to `uint16_t` before it is added, which is undefined when it is -1 or less.

* `animate` : a frame;
* `animate_eq_some_iff` : the frames that are defined, and what they show;
* `animate_defined` : with the real sine, some frame in every 240 is none of them.
-/

namespace EerieLeap.Views.ParticlesAnimation

open Lib.PartialLoop

/-! ## A frame -/

structure Dot where
  seedX : ℚ
  seedY : ℚ
  phaseOffset : ℚ

def numDots : ℕ := 80

/-- `dots` after `Initialize`, for the seeds that the generator draws. -/
def initializeDots (seeds : ℕ → ℚ × ℚ) : List Dot :=
  (List.range numDots).map fun i => ⟨(seeds i).1, (seeds i).2, i / numDots * pi * 2⟩

def time (frame : ℕ) : ℚ := frame / 120

/-- `fmodf(.., 1.0F)`, of a number that is not negative. -/
def progress (frame : ℕ) (dot : Dot) : ℚ := Int.fract (time frame + dot.phaseOffset / (pi * 2))

/-- `wave1 + wave2`. -/
def waves (m : MathFunctions) (frame : ℕ) (dot : Dot) (x : ℕ) : ℚ :=
  let freq₁ := 1 / 10 + dot.seedX * (5 / 100)
  let freq₂ := 15 / 100 + dot.seedY * (5 / 100)
  let wave₁ := m.sinf (x * freq₁ + time frame * pi * 2)
  let wave₂ := m.sinf (x * freq₂ - time frame * pi * 2 * (1 / 2))
  wave₁ + wave₂

/-- One turn of the loop of `AnimateSineParticles`. -/
def animateDot (m : MathFunctions) (screen : Screen) (frame : ℕ) (dot : Dot) : Option (List Command) := do
  let x ← toUint16 (progress frame dot * screen.width)
  let offset ← toUint16 (waves m frame dot x * 7)
  let y := (screen.height / 2 + offset) % 2 ^ 16
  if screen.Contains ⟨x, y⟩ then
    return [.drawPoint ⟨x, y⟩]
  else
    return []

/-- What `Animate` draws, and `frame_` after it. -/
def animate (m : MathFunctions) (screen : Screen) (dots : List Dot) (frame : ℕ) :
    Option (List Command × ℕ) := do
  let drawn ← dots.foldlM (fun drawn dot => do
    let commands ← animateDot m screen frame dot
    return drawn ++ commands) [.clear]
  return (drawn, (frame + 1) % 2 ^ 32)

/-! ## A particle -/

/-- The column of a particle. -/
def column (screen : Screen) (frame : ℕ) (dot : Dot) : ℕ := ⌊progress frame dot * screen.width⌋₊

/-- Where a particle is, when it is defined. -/
def position (m : MathFunctions) (screen : Screen) (frame : ℕ) (dot : Dot) : Coordinate :=
  ⟨column screen frame dot,
    screen.height / 2 + ⌊waves m frame dot (column screen frame dot) * 7⌋₊⟩

section
variable (m : MathFunctions) (screen : Screen) (frame : ℕ) (dot : Dot)

theorem toUint16_column : toUint16 (progress frame dot * screen.width) = some (column screen frame dot) := by
  have hprogress : 0 ≤ progress frame dot := Int.fract_nonneg _
  have hprogress' : progress frame dot < 1 := Int.fract_lt_one _
  have hwidth : (screen.width : ℚ) < 2 ^ 16 := by exact_mod_cast screen.width_lt
  have hwidth₀ : (0 : ℚ) ≤ screen.width := Nat.cast_nonneg _
  have hprod : 0 ≤ progress frame dot * screen.width := mul_nonneg hprogress hwidth₀
  have hle : progress frame dot * screen.width ≤ screen.width := mul_le_of_le_one_left hwidth₀ hprogress'.le
  exact toUint16_eq (by linarith) (by linarith)

theorem waves_le (x : ℕ) : waves m frame dot x ≤ 2 := by
  unfold waves
  dsimp only
  have h₁ := (m.sinf_mem (x * (1 / 10 + dot.seedX * (5 / 100)) + time frame * pi * 2)).2
  have h₂ := (m.sinf_mem (x * (15 / 100 + dot.seedY * (5 / 100)) - time frame * pi * 2 * (1 / 2))).2
  linarith

/-- The waves do not sum to less than what can be converted. -/
def IsDefined : Prop := -(1 / 7) < waves m frame dot (column screen frame dot)

theorem animateDot_of_isDefined (h : IsDefined m screen frame dot) :
    animateDot m screen frame dot =
      some (if screen.Contains (position m screen frame dot) then [.drawPoint (position m screen frame dot)]
        else []) := by
  have hwaves := waves_le m frame dot (column screen frame dot)
  unfold IsDefined at h
  have hoffset : ⌊waves m frame dot (column screen frame dot) * 7⌋₊ ≤ 14 :=
    Nat.floor_le_of_le (by push_cast; linarith)
  have hheight := screen.height_lt
  have hmod : (screen.height / 2 + ⌊waves m frame dot (column screen frame dot) * 7⌋₊) % 2 ^ 16 =
      screen.height / 2 + ⌊waves m frame dot (column screen frame dot) * 7⌋₊ := Nat.mod_eq_of_lt (by omega)
  unfold animateDot position
  simp only [toUint16_column, Option.bind_eq_bind, Option.bind_some]
  rw [toUint16_eq (by linarith) (by linarith), Option.bind_some, hmod]
  split_ifs <;> rfl

theorem animateDot_of_not_isDefined (h : ¬ IsDefined m screen frame dot) :
    animateDot m screen frame dot = none := by
  unfold IsDefined at h
  rw [not_lt] at h
  have hnone : toUint16 (waves m frame dot (column screen frame dot) * 7) = none :=
    if_neg fun hrange => absurd hrange.1 (by linarith)
  unfold animateDot
  simp only [toUint16_column, Option.bind_eq_bind, Option.bind_some, hnone]
  rfl

end

/-! ## Frames that are defined -/

theorem animate_eq_some_iff (m : MathFunctions) (screen : Screen) (dots : List Dot) (frame : ℕ)
    (shown : List Command × ℕ) :
    animate m screen dots frame = some shown ↔
      (∀ dot ∈ dots, IsDefined m screen frame dot) ∧
        shown = (.clear :: dots.flatMap fun dot =>
          if screen.Contains (position m screen frame dot) then [.drawPoint (position m screen frame dot)] else [],
          (frame + 1) % 2 ^ 32) := by
  unfold animate
  by_cases hall : ∀ dot ∈ dots, IsDefined m screen frame dot
  · rw [foldlM_append fun dot hdot => animateDot_of_isDefined m screen frame dot (hall dot hdot)]
    constructor
    · intro h
      exact ⟨hall, (Option.some.inj h).symm⟩
    · rintro ⟨-, rfl⟩
      rfl
  · have hnone : ∃ dot ∈ dots, animateDot m screen frame dot = none := by
      by_contra hno
      refine hall fun dot hdot => ?_
      by_contra hnot
      exact hno ⟨dot, hdot, animateDot_of_not_isDefined m screen frame dot hnot⟩
    rw [foldlM_append_none hnone]
    constructor
    · intro h
      cases h
    · rintro ⟨hdefined, -⟩
      exact absurd hdefined hall

/-! ## Frames that are not -/

theorem abs_pi_sub_le : |(pi : ℝ) - Real.pi| ≤ 1 / 10 ^ 12 := by
  have hlower := Real.pi_gt_d20
  have hupper := Real.pi_lt_d20
  rw [abs_le]
  norm_num [pi]
  constructor <;> linarith

/-- Every 240 frames. -/
theorem time_eq (k : ℕ) : time (90 + 240 * k) = 3 / 4 + 2 * k := by
  rw [time]
  push_cast
  ring

section
variable {k : ℕ} (hk : 90 + 240 * k < 2 ^ 32)

include hk in
/-- What the constant for π is off after `k` times 240 frames. -/
theorem abs_drift_le : |(3 / 4 + 2 * k) * ((pi : ℝ) - Real.pi)| ≤ 1 / 10 := by
  have hk' : (k : ℝ) ≤ 2 * 10 ^ 7 := by exact_mod_cast (by omega : k ≤ 2 * 10 ^ 7)
  have hk₀ : (0 : ℝ) ≤ k := Nat.cast_nonneg _
  rw [abs_mul, abs_of_nonneg (by positivity)]
  calc (3 / 4 + 2 * k) * |(pi : ℝ) - Real.pi| ≤ (3 / 4 + 2 * k) * (1 / 10 ^ 12) := by
        gcongr
        exact abs_pi_sub_le
    _ ≤ 1 / 10 := by linarith

include hk in
/-- The first wave is at its lowest point. -/
theorem sin_wave₁_le : Real.sin (((3 / 4 + 2 * k) * pi * 2 : ℚ) : ℝ) ≤ ((-(1 / 2) : ℚ) : ℝ) := by
  obtain ⟨hlower, hupper⟩ := abs_le.mp (abs_drift_le hk)
  have hphase : (((3 / 4 + 2 * k) * pi * 2 : ℚ) : ℝ) =
      (2 * ((3 / 4 + 2 * k) * ((pi : ℝ) - Real.pi)) + Real.pi + Real.pi / 2) + ((2 * k : ℕ) : ℝ) * (2 * Real.pi) := by
    push_cast
    ring
  have hcos := Real.one_sub_sq_div_two_le_cos (x := 2 * ((3 / 4 + 2 * k) * ((pi : ℝ) - Real.pi)))
  rw [hphase, Real.sin_add_nat_mul_two_pi, Real.sin_add_pi_div_two, Real.cos_add_pi]
  push_cast
  nlinarith

include hk in
/-- The second one is below the middle. -/
theorem sin_wave₂_le : Real.sin ((-((3 / 4 + 2 * k) * pi * 2 * (1 / 2)) : ℚ) : ℝ) ≤ ((0 : ℚ) : ℝ) := by
  obtain ⟨hlower, hupper⟩ := abs_le.mp (abs_drift_le hk)
  have hpi := Real.pi_gt_three
  have hphase : ((-((3 / 4 + 2 * k) * pi * 2 * (1 / 2)) : ℚ) : ℝ) =
      -(3 / 4 * Real.pi + (3 / 4 + 2 * k) * ((pi : ℝ) - Real.pi) + (k : ℝ) * (2 * Real.pi)) := by
    push_cast
    ring
  rw [hphase, Real.sin_neg, Real.sin_add_nat_mul_two_pi, Rat.cast_zero, neg_nonpos]
  exact Real.sin_nonneg_of_nonneg_of_le_pi (by linarith) (by linarith)

include hk in
theorem waves_roundedDown_le (seedX seedY phaseOffset : ℚ) :
    waves .roundedDown (90 + 240 * k) ⟨seedX, seedY, phaseOffset⟩ 0 ≤ -(1 / 2) := by
  have h₁ := MathFunctions.roundDown_le (sin_wave₁_le hk)
  have h₂ := MathFunctions.roundDown_le (sin_wave₂_le hk)
  have hwaves : waves .roundedDown (90 + 240 * k) ⟨seedX, seedY, phaseOffset⟩ 0 =
      MathFunctions.roundDown (Real.sin (((3 / 4 + 2 * k) * pi * 2 : ℚ) : ℝ)) +
        MathFunctions.roundDown (Real.sin ((-((3 / 4 + 2 * k) * pi * 2 * (1 / 2)) : ℚ) : ℝ)) := by
    unfold waves
    simp only [time_eq, Nat.cast_zero, zero_mul, zero_add, zero_sub]
    rfl
  rw [hwaves]
  linarith

end

/-- The particle that is back at the left edge. -/
theorem column_eq_zero (screen : Screen) (k : ℕ) (seedX seedY : ℚ) :
    column screen (90 + 240 * k) ⟨seedX, seedY, (20 : ℕ) / numDots * pi * 2⟩ = 0 := by
  have hprogress : progress (90 + 240 * k) ⟨seedX, seedY, (20 : ℕ) / numDots * pi * 2⟩ = 0 := by
    have hwhole : time (90 + 240 * k) + (20 : ℕ) / numDots * pi * 2 / (pi * 2) = ((1 + 2 * k : ℕ) : ℚ) := by
      rw [time_eq]
      norm_num [numDots, pi]
      ring
    rw [progress, hwhole, Int.fract_natCast]
  rw [column, hprogress, zero_mul, Nat.floor_zero]

/-- **Which frames are defined**: those where no two waves of a particle sum to -1/7 or less, and they show the
particles that are on the screen. With the real sine, rounded down, and the literal of π, every 240 frames one is
not, with whatever seeds and on whatever screen. -/
theorem animate_defined :
    (∀ m screen dots frame shown, animate m screen dots frame = some shown ↔
      (∀ dot ∈ dots, -(1 / 7) < waves m frame dot (column screen frame dot)) ∧
        shown = (.clear :: dots.flatMap fun dot =>
          if screen.Contains (position m screen frame dot) then [.drawPoint (position m screen frame dot)] else [],
          (frame + 1) % 2 ^ 32)) ∧
    ∀ seeds screen k, 90 + 240 * k < 2 ^ 32 →
      animate .roundedDown screen (initializeDots seeds) (90 + 240 * k) = none := by
  refine ⟨fun m screen dots frame shown => animate_eq_some_iff m screen dots frame shown, ?_⟩
  intro seeds screen k hk
  by_contra hsome
  obtain ⟨shown, hshown⟩ := Option.ne_none_iff_exists'.mp hsome
  obtain ⟨hall, -⟩ := (animate_eq_some_iff _ _ _ _ _).mp hshown
  have hdot : (⟨(seeds 20).1, (seeds 20).2, (20 : ℕ) / numDots * pi * 2⟩ : Dot) ∈ initializeDots seeds :=
    List.mem_map.mpr ⟨20, List.mem_range.mpr (by decide), rfl⟩
  have hdefined := hall _ hdot
  have hwaves := waves_roundedDown_le hk (seeds 20).1 (seeds 20).2 ((20 : ℕ) / numDots * pi * 2)
  rw [IsDefined, column_eq_zero] at hdefined
  linarith

end EerieLeap.Views.ParticlesAnimation
