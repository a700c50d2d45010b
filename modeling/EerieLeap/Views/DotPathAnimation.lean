import Mathlib.Data.Rat.Floor
import Mathlib.Tactic.Linarith
import Mathlib.Tactic.NormNum

/-!
# The dot path animation

`DotPathAnimation` walks 90 jumps over the screen from a point inside the margins, in one of eight
directions each time, and shows dots that move along the path. Its arithmetic is taken as exact. What
the random generator hands out are the draws of the model; of the sizes of the dots nothing is kept.

* `generatePath`, `dotPosition` : the path, and where a dot is shown in a frame.
-/

namespace EerieLeap.Views

/-! ## The path -/

@[ext] structure PVector where
  x : ℚ
  y : ℚ

def numberOfJumps : ℕ := 90

def dotCount : ℕ := 50

/-- What is drawn for a jump: `jump_dist` is on 10 to 40, and `direction_dist` on 0 to 7. -/
structure Draw where
  jumpLength : ℚ
  direction : ℕ
  jumpLength_mem : 10 ≤ jumpLength ∧ jumpLength ≤ 40
  direction_le : direction ≤ 7

/-- `empty_margin`. -/
def emptyMargin (screenWidth screenHeight : ℕ) : ℚ := min screenWidth screenHeight * (1 / 10)

/-- `DIAGONAL`. -/
def diagonal : ℚ := 707106781 / 1000000000

def applyJump (p : PVector) (jumpLength : ℚ) : ℕ → PVector
  | 0 => ⟨p.x + jumpLength, p.y⟩
  | 1 => ⟨p.x - jumpLength, p.y⟩
  | 2 => ⟨p.x, p.y + jumpLength⟩
  | 3 => ⟨p.x, p.y - jumpLength⟩
  | 4 => ⟨p.x + jumpLength * diagonal, p.y + jumpLength * diagonal⟩
  | 5 => ⟨p.x - jumpLength * diagonal, p.y + jumpLength * diagonal⟩
  | 6 => ⟨p.x + jumpLength * diagonal, p.y - jumpLength * diagonal⟩
  | 7 => ⟨p.x - jumpLength * diagonal, p.y - jumpLength * diagonal⟩
  | _ => p

/-- `ClampToBounds` on one axis. -/
def clampAxis (x jumpLength : ℚ) (screenSize : ℕ) (emptyMargin : ℚ) : ℚ :=
  if x > screenSize - emptyMargin then x - 2 * jumpLength
  else if x < emptyMargin then x + 2 * jumpLength
  else x

def clampToBounds (p : PVector) (jumpLength : ℚ) (screenWidth screenHeight : ℕ) (emptyMargin : ℚ) : PVector :=
  ⟨clampAxis p.x jumpLength screenWidth emptyMargin, clampAxis p.y jumpLength screenHeight emptyMargin⟩

/-- One turn of the loop of `GeneratePath`. -/
def jump (screenWidth screenHeight : ℕ) (emptyMargin : ℚ) (p : PVector) (d : Draw) : PVector :=
  clampToBounds (applyJump p d.jumpLength d.direction) d.jumpLength screenWidth screenHeight emptyMargin

/-- The positions that `GeneratePath` adds. -/
def generatePath (screenWidth screenHeight : ℕ) (emptyMargin : ℚ) : PVector → List Draw → List PVector
  | _, [] => []
  | p, d :: draws =>
    let p := jump screenWidth screenHeight emptyMargin p d
    p :: generatePath screenWidth screenHeight emptyMargin p draws

/-- `positions_` after `Initialize`, for the initial position and the draws of its jumps. -/
def initializePositions (screenWidth screenHeight : ℕ) (p : PVector) (draws : List Draw) : List PVector :=
  p :: generatePath screenWidth screenHeight (emptyMargin screenWidth screenHeight) p draws

/-! ## The dots -/

/-- `AnimationMathHelpers::EaseWithGamma`. -/
def easeWithGamma (p : ℚ) (g : ℕ) : ℚ :=
  if p < 1 / 2 then 1 / 2 * (2 * p) ^ g else 1 - 1 / 2 * (2 * (1 - p)) ^ g

/-- The point at `t` on the way from `p` to `q`. -/
def lerp (p q : PVector) (t : ℚ) : PVector := ⟨p.x + (q.x - p.x) * t, p.y + (q.y - p.y) * t⟩

/-- The position of `GetPositionAndSize`; `none` where it reads behind the end of `positions_`. -/
def getPosition (positions : List PVector) (p : ℚ) : Option PVector := do
  let floatIndex := p * numberOfJumps * (9999 / 10000)
  let i₁ := ⌊floatIndex⌋₊
  let i₂ := i₁ + 1
  let pos₁ ← positions[i₁]?
  let pos₂ ← positions[i₂]?
  return lerp pos₁ pos₂ (easeWithGamma (floatIndex - i₁) 4)

/-- `time_` when a frame is drawn. -/
def time : ℕ → ℚ
  | 0 => 0
  | frame + 1 =>
    let t := time frame + 1 / 50
    if t ≥ 1 then t - 1 else t

/-- Where `Animate` finds a dot in a frame. -/
def dotPosition (positions : List PVector) (frame dot : ℕ) : Option PVector :=
  getPosition positions ((dot + time frame) / dotCount)

/-- `static_cast<uint16_t>(x + 0.5F)`, before the conversion. -/
def pixel (x : ℚ) : ℤ := ⌊x + 1 / 2⌋

end EerieLeap.Views
