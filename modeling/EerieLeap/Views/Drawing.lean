import EerieLeap.Lib.PartialLoop
import Mathlib.Analysis.SpecialFunctions.Trigonometric.Basic
import Mathlib.Analysis.Real.Sqrt
import Mathlib.Data.Rat.Floor
import Mathlib.Tactic.Linarith
import Mathlib.Tactic.Positivity

/-!
# What the animations draw with

The commands for the `Cfb`, and the conversion of a position to a pixel. As in the dot path, arithmetic is exact,
and constants are what their literals say; what the functions of `<cmath>` return is arbitrary in their range.

* `MathFunctions.roundedDown` : the real functions, rounded down to 24 binary places.
-/

namespace EerieLeap.Views

/-! ## Commands -/

structure Coordinate where
  x : ℕ
  y : ℕ
deriving DecidableEq, Repr

/-- A call of the `Cfb`. -/
inductive Command where
  | clear
  | drawPoint (p : Coordinate)
  | drawLine (p q : Coordinate)
  | drawCircle (p : Coordinate) (radius : ℕ)
deriving DecidableEq, Repr

/-- `GetXRes` and `GetYRes`. -/
structure Screen where
  width : ℕ
  height : ℕ
  width_lt : width < 2 ^ 16
  height_lt : height < 2 ^ 16

/-- A display of the usual width. -/
def display (height : Fin (2 ^ 16)) : Screen := ⟨128, height, by decide, height.isLt⟩

/-- The bounds check. -/
def Screen.Contains (screen : Screen) (p : Coordinate) : Prop := p.x < screen.width ∧ p.y < screen.height

instance (screen : Screen) (p : Coordinate) : Decidable (screen.Contains p) :=
  inferInstanceAs (Decidable (_ ∧ _))

/-! ## Numbers -/

/-- The functions of `<cmath>`, on what they are called with. -/
structure MathFunctions where
  cosf : ℚ → ℚ
  sinf : ℚ → ℚ
  expf : ℚ → ℚ
  sqrtf : ℚ → ℚ
  cosf_mem : ∀ x, -1 ≤ cosf x ∧ cosf x ≤ 1
  sinf_mem : ∀ x, -1 ≤ sinf x ∧ sinf x ≤ 1
  expf_mem : ∀ x ≤ 0, 0 ≤ expf x ∧ expf x ≤ 1
  /-- Small integers are floats, and the root is rounded correctly. -/
  le_sqrtf : ∀ n : ℕ, n < 2 ^ 16 → ∀ x, (n : ℚ) ^ 2 ≤ x → n ≤ sqrtf x

namespace MathFunctions

theorem sqrtf_nonneg (m : MathFunctions) {x : ℚ} (h : 0 ≤ x) : 0 ≤ m.sqrtf x := by
  simpa using m.le_sqrtf 0 (by norm_num) x (by simpa using h)

noncomputable def roundDown (x : ℝ) : ℚ := ⌊x * 2 ^ 24⌋ / 2 ^ 24

theorem le_roundDown {n : ℤ} {x : ℝ} (h : n ≤ x) : n ≤ roundDown x := by
  have hfloor : n * 2 ^ 24 ≤ ⌊x * 2 ^ 24⌋ := by
    have hle := mul_le_mul_of_nonneg_right h (by positivity : (0 : ℝ) ≤ 2 ^ 24)
    rw [Int.le_floor]
    exact_mod_cast hle
  rw [roundDown, le_div_iff₀ (by norm_num)]
  exact_mod_cast hfloor

theorem roundDown_le_self (x : ℝ) : roundDown x ≤ x := by
  have hfloor := Int.floor_le (x * 2 ^ 24)
  rw [roundDown]
  push_cast
  rw [div_le_iff₀ (by norm_num)]
  exact hfloor

theorem roundDown_le {q : ℚ} {x : ℝ} (h : x ≤ q) : roundDown x ≤ q := by
  exact_mod_cast (roundDown_le_self x).trans h

/-- The real functions. -/
noncomputable def roundedDown : MathFunctions where
  cosf x := roundDown (Real.cos x)
  sinf x := roundDown (Real.sin x)
  expf x := roundDown (Real.exp x)
  sqrtf x := roundDown √x
  cosf_mem x := by
    constructor
    · exact_mod_cast le_roundDown (n := -1) (by exact_mod_cast Real.neg_one_le_cos x)
    · exact roundDown_le (by exact_mod_cast Real.cos_le_one x)
  sinf_mem x := by
    constructor
    · exact_mod_cast le_roundDown (n := -1) (by exact_mod_cast Real.neg_one_le_sin x)
    · exact roundDown_le (by exact_mod_cast Real.sin_le_one x)
  expf_mem x h := by
    have hle : Real.exp x ≤ 1 := Real.exp_le_one_iff.mpr (by exact_mod_cast h)
    constructor
    · exact_mod_cast le_roundDown (n := 0) (by exact_mod_cast (Real.exp_pos x).le)
    · exact roundDown_le (by exact_mod_cast hle)
  le_sqrtf n _ x h := by
    have hroot : (n : ℝ) ≤ √x := Real.le_sqrt_of_sq_le (by exact_mod_cast h)
    exact_mod_cast le_roundDown (n := n) (by exact_mod_cast hroot)

end MathFunctions

/-- The literal of `AnimationMathHelpers::PI`, which the code rounds to a float. -/
def pi : ℚ := 314159265359 / 100000000000

/-- A quotient of floats; `none` stands for NaN or an infinity. -/
def divide (x y : ℚ) : Option ℚ := if y = 0 then none else some (x / y)

/-- `static_cast<uint16_t>`; `none` where the behaviour is undefined. -/
def toUint16 (x : ℚ) : Option ℕ := if -1 < x ∧ x < 2 ^ 16 then some ⌊x⌋₊ else none

theorem toUint16_eq {x : ℚ} (hlower : -1 < x) (hupper : x < 2 ^ 16) : toUint16 x = some ⌊x⌋₊ :=
  if_pos ⟨hlower, hupper⟩

end EerieLeap.Views
