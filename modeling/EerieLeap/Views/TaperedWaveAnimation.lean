import EerieLeap.Views.Drawing
import Mathlib.Tactic.IntervalCases

/-!
# The tapered wave animation

`TaperedWaveAnimation` draws a wave over nine tenths of the width, thickest in the middle: a thick line is a
few parallel lines, and those are drawn without a bounds check. The columns are those of exact arithmetic; with the
floats of the code, a point may be in a column beside.

* `animate` : a frame;
* `drawThickLine_contains` : a thick line on the screen, when there is room at both ends;
* `animate_contains` : a frame is on the screen, and the wave is not interrupted.
-/

namespace EerieLeap.Views.TaperedWaveAnimation

open Lib.PartialLoop

/-! ## A thick line -/

/-- A sum of squares as an `int`; `none` where the behaviour is undefined. -/
def toInt (x : ℤ) : Option ℤ := if x < 2 ^ 31 then some x else none

theorem toInt_eq {x : ℤ} (h : x < 2 ^ 31) : toInt x = some x := if_pos h

/-- A line of `DrawThickLine`. -/
def parallelLine (p₁ p₂ : Coordinate) (perpX perpY : ℚ) (offset : ℤ) : Option Command := do
  let start : Coordinate :=
    ⟨← toUint16 (p₁.x + offset * perpX + 1 / 2), ← toUint16 (p₁.y + offset * perpY + 1 / 2)⟩
  let stop : Coordinate :=
    ⟨← toUint16 (p₂.x + offset * perpX + 1 / 2), ← toUint16 (p₂.y + offset * perpY + 1 / 2)⟩
  return .drawLine start stop

/-- From `-half_thickness` to `half_thickness`. -/
def offsets (halfThickness : ℕ) : List ℤ :=
  (List.range (2 * halfThickness + 1)).map fun k : ℕ => (k : ℤ) - halfThickness

def drawThickLine (m : MathFunctions) (p₁ p₂ : Coordinate) (thickness : ℚ) : Option (List Command) :=
  if thickness ≤ 3 / 2 then some [.drawLine p₁ p₂]
  else do
    let halfThickness := ⌊thickness / 2⌋₊
    let dx : ℤ := p₂.x - p₁.x
    let dy : ℤ := p₂.y - p₁.y
    let length := m.sqrtf (← toInt (dx * dx + dy * dy))
    if length < 1 / 10 then return [.drawPoint p₁]
    else (offsets halfThickness).mapM (parallelLine p₁ p₂ (-dy / length) (dx / length))

/-! ## A frame -/

/-- `THICKNESS`. -/
def maxThickness : ℚ := 14

def waveX (screen : Screen) (normalizedPosition : ℚ) : ℚ :=
  let range : ℚ := screen.width * (9 / 10)
  screen.width / 2 + (normalizedPosition - 1 / 2) * range

def waveY (m : MathFunctions) (screen : Screen) (time normalizedPosition : ℚ) : ℚ :=
  let amplitude : ℚ := screen.height * (3 / 10)
  screen.height / 2 + amplitude * m.sinf (pi * normalizedPosition - time * (15 / 1000))

def weight (normalizedPosition : ℚ) : ℚ := 1 + maxThickness * normalizedPosition * (1 - normalizedPosition)

/-- One turn of the loop of `Animate`. -/
def animateTurn (m : MathFunctions) (screen : Screen) (time : ℚ) (pen : Pen Coordinate Command) (i : ℕ) :
    Option (Pen Coordinate Command) := do
  let normalizedPosition ← divide i screen.width
  let screenX ← toUint16 (waveX screen normalizedPosition + 1 / 2)
  let screenY ← toUint16 (waveY m screen time normalizedPosition + 1 / 2)
  let p : Coordinate := ⟨screenX, screenY⟩
  if screen.Contains p then
    match pen.point with
    | some prevPoint =>
      let commands ← drawThickLine m prevPoint p (weight normalizedPosition)
      return ⟨some p, pen.drawn ++ commands⟩
    | none => return ⟨some p, pen.drawn⟩
  else
    return ⟨none, pen.drawn⟩

/-- What `Animate` draws, and `time_` after it. -/
def animate (m : MathFunctions) (screen : Screen) (time : ℚ) : Option (List Command × ℚ) := do
  let pen ← (List.range (screen.width + 1)).foldlM (animateTurn m screen time) ⟨none, []⟩
  return (.clear :: pen.drawn, time + 10)

/-! ## Room for a thick line -/

/-- There are `half` pixels around the point. -/
structure RoomAround (screen : Screen) (half : ℕ) (p : Coordinate) : Prop where
  x : half ≤ p.x ∧ p.x + half < screen.width
  y : half ≤ p.y ∧ p.y + half < screen.height

/-- What a command draws is on the screen. -/
def OnScreen (screen : Screen) : Command → Prop
  | .clear => True
  | .drawPoint p => screen.Contains p
  | .drawLine p q => screen.Contains p ∧ screen.Contains q
  | .drawCircle p _ => screen.Contains p

theorem toUint16_shift {c half size : ℕ} {d : ℚ} (hlower : half ≤ c) (hupper : c + half < size)
    (hsize : size < 2 ^ 16) (hd : |d| ≤ half) : ∃ c', toUint16 (c + d + 1 / 2) = some c' ∧ c' < size := by
  obtain ⟨hd₁, hd₂⟩ := abs_le.mp hd
  have h₁ : (half : ℚ) ≤ c := by exact_mod_cast hlower
  have h₂ : (c : ℚ) + half + 1 ≤ size := by exact_mod_cast hupper
  have h₃ : (size : ℚ) < 2 ^ 16 := by exact_mod_cast hsize
  refine ⟨_, toUint16_eq (by linarith) (by linarith), ?_⟩
  rw [Nat.floor_lt (by linarith)]
  linarith

theorem parallelLine_contains {screen : Screen} {half : ℕ} {p₁ p₂ : Coordinate}
    (h₁ : RoomAround screen half p₁) (h₂ : RoomAround screen half p₂) {perpX perpY : ℚ} (hx : |perpX| ≤ 1)
    (hy : |perpY| ≤ 1) {offset : ℤ} (hoffset : |offset| ≤ half) :
    ∃ command, parallelLine p₁ p₂ perpX perpY offset = some command ∧ OnScreen screen command := by
  have hshift : ∀ {perp : ℚ}, |perp| ≤ 1 → |offset * perp| ≤ half := by
    intro perp hperp
    have hoffset' : |(offset : ℚ)| ≤ half := by exact_mod_cast hoffset
    rw [abs_mul]
    exact (mul_le_of_le_one_right (abs_nonneg _) hperp).trans hoffset'
  obtain ⟨x₁, hx₁, hlt₁⟩ := toUint16_shift h₁.x.1 h₁.x.2 screen.width_lt (hshift hx)
  obtain ⟨y₁, hy₁, hlt₂⟩ := toUint16_shift h₁.y.1 h₁.y.2 screen.height_lt (hshift hy)
  obtain ⟨x₂, hx₂, hlt₃⟩ := toUint16_shift h₂.x.1 h₂.x.2 screen.width_lt (hshift hx)
  obtain ⟨y₂, hy₂, hlt₄⟩ := toUint16_shift h₂.y.1 h₂.y.2 screen.height_lt (hshift hy)
  refine ⟨.drawLine ⟨x₁, y₁⟩ ⟨x₂, y₂⟩, ?_, ⟨hlt₁, hlt₂⟩, ⟨hlt₃, hlt₄⟩⟩
  unfold parallelLine
  rw [hx₁, hy₁, hx₂, hy₂]
  rfl

theorem mem_offsets {half : ℕ} {offset : ℤ} : offset ∈ offsets half ↔ |offset| ≤ half := by
  rw [offsets, List.mem_map, abs_le]
  constructor
  · rintro ⟨k, hk, rfl⟩
    have hk := List.mem_range.mp hk
    omega
  · rintro ⟨hlower, hupper⟩
    refine ⟨(offset + half).toNat, List.mem_range.mpr ?_, ?_⟩ <;> omega

theorem toUint16_pixel {c size : ℕ} (h : c < size) (hsize : size < 2 ^ 16) :
    toUint16 ((c : ℚ) + 1 / 2) = some c := by
  have hc : (0 : ℚ) ≤ c := Nat.cast_nonneg _
  have hlt : (c : ℚ) + 1 ≤ 2 ^ 16 := by exact_mod_cast (by omega : c + 1 ≤ 2 ^ 16)
  rw [toUint16_eq (by linarith) (by linarith)]
  congr 1
  rw [Nat.floor_eq_iff (by linarith)]
  constructor <;> linarith

/-- The line in the middle. -/
theorem parallelLine_zero {screen : Screen} {p₁ p₂ : Coordinate} (h₁ : screen.Contains p₁)
    (h₂ : screen.Contains p₂) (perpX perpY : ℚ) : parallelLine p₁ p₂ perpX perpY 0 = some (.drawLine p₁ p₂) := by
  unfold parallelLine
  simp only [Int.cast_zero, zero_mul, add_zero, toUint16_pixel h₁.1 screen.width_lt,
    toUint16_pixel h₁.2 screen.height_lt, toUint16_pixel h₂.1 screen.width_lt,
    toUint16_pixel h₂.2 screen.height_lt]
  rfl

theorem RoomAround.contains {screen : Screen} {half : ℕ} {p : Coordinate} (h : RoomAround screen half p) :
    screen.Contains p := by
  obtain ⟨⟨-, hx⟩, ⟨-, hy⟩⟩ := h
  constructor <;> omega

theorem natAbs_le_length (m : MathFunctions) {d e : ℤ} (hd : d.natAbs < 2 ^ 16) :
    |(d : ℚ)| ≤ m.sqrtf ((d * d + e * e : ℤ) : ℚ) := by
  have hle : ((d.natAbs : ℕ) : ℚ) ^ 2 ≤ ((d * d + e * e : ℤ) : ℚ) := by
    rw [Nat.cast_natAbs, Int.cast_abs, sq_abs]
    push_cast
    linarith [mul_self_nonneg (e : ℚ), sq (d : ℚ)]
  have hroot := m.le_sqrtf _ hd _ hle
  rwa [Nat.cast_natAbs, Int.cast_abs] at hroot

/-- A perpendicular step is no longer than one pixel. -/
theorem abs_div_length_le {d length : ℚ} (h : |d| ≤ length) : |d / length| ≤ 1 := by
  rw [abs_div]
  exact div_le_one_of_le₀ (h.trans (le_abs_self _)) (abs_nonneg _)

/-- **A thick line** with room around its ends is on the screen, and has the line between them in the middle. -/
theorem drawThickLine_contains (m : MathFunctions) {screen : Screen} {p₁ p₂ : Coordinate} {thickness : ℚ}
    (h₁ : RoomAround screen ⌊thickness / 2⌋₊ p₁) (h₂ : RoomAround screen ⌊thickness / 2⌋₊ p₂)
    (hsquares : ((p₂.x - p₁.x) * (p₂.x - p₁.x) + (p₂.y - p₁.y) * (p₂.y - p₁.y) : ℤ) < 2 ^ 31) :
    ∃ commands, drawThickLine m p₁ p₂ thickness = some commands ∧ (∀ c ∈ commands, OnScreen screen c) ∧
      (.drawLine p₁ p₂ ∈ commands ∨ p₁ = p₂) := by
  have hc₁ := h₁.contains
  have hc₂ := h₂.contains
  unfold drawThickLine
  by_cases hthin : thickness ≤ 3 / 2
  · rw [if_pos hthin]
    refine ⟨_, rfl, ?_, Or.inl List.mem_cons_self⟩
    simpa [OnScreen] using ⟨hc₁, hc₂⟩
  rw [if_neg hthin]
  simp only [toInt_eq hsquares, Option.bind_eq_bind, Option.bind_some]
  have hdx := natAbs_le_length m (d := p₂.x - p₁.x) (e := p₂.y - p₁.y) (by
    have := hc₁.1
    have := hc₂.1
    have := screen.width_lt
    omega)
  have hdy := natAbs_le_length m (d := p₂.y - p₁.y) (e := p₂.x - p₁.x) (by
    have := hc₁.2
    have := hc₂.2
    have := screen.height_lt
    omega)
  rw [add_comm] at hdy
  generalize m.sqrtf _ = length at hdx hdy
  by_cases hshort : length < 1 / 10
  · rw [if_pos hshort]
    refine ⟨_, rfl, ?_, Or.inr ?_⟩
    · simpa [OnScreen] using hc₁
    · -- whole pixels nearer than one
      have hzero : ∀ d : ℤ, |(d : ℚ)| ≤ length → d = 0 := by
        intro d hd
        have : |(d : ℚ)| < 1 := by linarith
        exact Int.abs_lt_one_iff.mp (by exact_mod_cast this)
      have hx := hzero _ hdx
      have hy := hzero _ hdy
      obtain ⟨x₁, y₁⟩ := p₁
      obtain ⟨x₂, y₂⟩ := p₂
      simp only [Coordinate.mk.injEq] at *
      omega
  · rw [if_neg hshort]
    have hperpX := abs_div_length_le (by rwa [abs_neg] : |-((p₂.y - p₁.y : ℤ) : ℚ)| ≤ length)
    have hperpY := abs_div_length_le hdx
    obtain ⟨commands, hcommands, hall, hmem⟩ := mapM_some fun offset hoffset =>
      parallelLine_contains h₁ h₂ hperpX hperpY (mem_offsets.mp hoffset)
    refine ⟨commands, hcommands, hall, Or.inl ?_⟩
    exact hmem 0 (mem_offsets.mpr (by simp)) _ (parallelLine_zero hc₁ hc₂ _ _)

/-! ## The points of the wave -/

def column (screenWidth i : ℕ) : ℕ := ⌊(screenWidth * (1 / 20) + i * (9 / 10) + 1 / 2 : ℚ)⌋₊

def row (m : MathFunctions) (screen : Screen) (time : ℚ) (i : ℕ) : ℕ :=
  ⌊waveY m screen time (i / screen.width) + 1 / 2⌋₊

/-- The `i`th point of the wave. -/
def vertex (m : MathFunctions) (screen : Screen) (time : ℚ) (i : ℕ) : Coordinate :=
  ⟨column screen.width i, row m screen time i⟩

/-- `half_thickness` on the way to the `i`th point. -/
def halfThickness (screenWidth i : ℕ) : ℕ := ⌊weight (i / screenWidth) / 2⌋₊

theorem waveX_eq {screen : Screen} (hwidth : 0 < screen.width) (i : ℕ) :
    waveX screen (i / screen.width) = screen.width * (1 / 20) + i * (9 / 10) := by
  have hne : (screen.width : ℚ) ≠ 0 := by exact_mod_cast hwidth.ne'
  unfold waveX
  field_simp
  ring

theorem waveY_mem (m : MathFunctions) (screen : Screen) (time normalizedPosition : ℚ) :
    screen.height * (1 / 5) ≤ waveY m screen time normalizedPosition ∧
      waveY m screen time normalizedPosition ≤ screen.height * (4 / 5) := by
  have hheight : (0 : ℚ) ≤ screen.height := Nat.cast_nonneg _
  obtain ⟨hs, hs'⟩ := m.sinf_mem (pi * normalizedPosition - time * (15 / 1000))
  unfold waveY
  dsimp only
  generalize m.sinf _ = c at hs hs'
  constructor <;> nlinarith

/-- The thicker the line, the nearer to the middle. -/
theorem halfThickness_cases {n : ℚ} (h : 0 ≤ n ∧ n ≤ 1) : ⌊weight n / 2⌋₊ = 0 ∨
    (⌊weight n / 2⌋₊ = 1 ∧ 7 / 100 ≤ n ∧ n ≤ 93 / 100) ∨
    (⌊weight n / 2⌋₊ = 2 ∧ 3 / 10 ≤ n ∧ n ≤ 7 / 10) := by
  obtain ⟨h₀, h₁⟩ := h
  have hweight : weight n = 1 + 14 * (n * (1 - n)) := by
    rw [weight, maxThickness]
    ring
  have hprod : 0 ≤ n * (1 - n) := mul_nonneg h₀ (by linarith)
  have hhalf := Nat.floor_le (by linarith : 0 ≤ weight n / 2)
  have hlt : ⌊weight n / 2⌋₊ < 3 := by
    rw [Nat.floor_lt (by linarith), hweight]
    push_cast
    nlinarith [sq_nonneg (n - 1 / 2)]
  generalize ⌊weight n / 2⌋₊ = half at hhalf hlt
  rw [hweight] at hhalf
  interval_cases half
  · exact Or.inl rfl
  · refine Or.inr (Or.inl ⟨rfl, ?_, ?_⟩) <;> push_cast at hhalf <;> nlinarith
  · refine Or.inr (Or.inr ⟨rfl, ?_, ?_⟩) <;> push_cast at hhalf <;> nlinarith

/-- **Room at both ends** of a part of the wave, across the screen. -/
theorem column_room {screenWidth i j : ℕ} (hwidth : 14 ≤ screenWidth) (hi : i < screenWidth)
    (hj : i ≤ j ∧ j ≤ i + 1) :
    halfThickness screenWidth (i + 1) ≤ column screenWidth j ∧
      column screenWidth j + halfThickness screenWidth (i + 1) < screenWidth := by
  have hw : (14 : ℚ) ≤ screenWidth := by exact_mod_cast hwidth
  have hi' : (i : ℚ) + 1 ≤ screenWidth := by exact_mod_cast hi
  have hi₀ : (0 : ℚ) ≤ i := Nat.cast_nonneg _
  have hj₁ : (i : ℚ) ≤ j := by exact_mod_cast hj.1
  have hj₂ : (j : ℚ) ≤ i + 1 := by exact_mod_cast hj.2
  have hn : ((i + 1 : ℕ) : ℚ) / screenWidth * screenWidth = i + 1 := by
    rw [div_mul_cancel₀ _ (by linarith)]
    push_cast
    rfl
  have hn₀ : 0 ≤ ((i + 1 : ℕ) : ℚ) / screenWidth := by positivity
  have hn₁ : ((i + 1 : ℕ) : ℚ) / screenWidth ≤ 1 := by
    rw [div_le_one (by linarith)]
    exact_mod_cast hi
  have hcases := halfThickness_cases ⟨hn₀, hn₁⟩
  have hcolumn := Nat.floor_le (by linarith : (0 : ℚ) ≤ screenWidth * (1 / 20) + j * (9 / 10) + 1 / 2)
  unfold halfThickness
  generalize ((i + 1 : ℕ) : ℚ) / screenWidth = n at *
  have hroom : (⌊weight n / 2⌋₊ : ℚ) ≤ screenWidth * (1 / 20) + j * (9 / 10) + 1 / 2 ∧
      screenWidth * (1 / 20) + j * (9 / 10) + 1 / 2 + ⌊weight n / 2⌋₊ < (screenWidth : ℚ) := by
    rcases hcases with hhalf | ⟨hhalf, hlower, hupper⟩ | ⟨hhalf, hlower, hupper⟩
    · rw [hhalf]
      push_cast
      constructor <;> linarith
    · rw [hhalf]
      push_cast
      constructor <;> nlinarith
    · rw [hhalf]
      push_cast
      constructor <;> nlinarith
  obtain ⟨hlower, hupper⟩ := hroom
  rw [column]
  refine ⟨Nat.le_floor hlower, ?_⟩
  have : (⌊(screenWidth * (1 / 20) + j * (9 / 10) + 1 / 2 : ℚ)⌋₊ : ℚ) + ⌊weight n / 2⌋₊ < screenWidth := by
    linarith
  exact_mod_cast this

theorem halfThickness_le_two {screenWidth i : ℕ} (hi : i ≤ screenWidth) : halfThickness screenWidth i ≤ 2 := by
  have hi' : (i : ℚ) ≤ screenWidth := by exact_mod_cast hi
  have hcases := halfThickness_cases (n := i / screenWidth)
    ⟨by positivity, div_le_one_of_le₀ hi' (Nat.cast_nonneg _)⟩
  unfold halfThickness
  omega

section
variable (m : MathFunctions) (screen : Screen) (time : ℚ)

/-- The position of a row, and the row. -/
theorem row_mem (i : ℕ) : screen.height * (1 / 5) - 1 / 2 < (row m screen time i : ℚ) ∧
    (row m screen time i : ℚ) ≤ screen.height * (4 / 5) + 1 / 2 := by
  obtain ⟨hlower, hupper⟩ := waveY_mem m screen time (i / screen.width)
  have hheight : (0 : ℚ) ≤ screen.height := Nat.cast_nonneg _
  have hfloor := Nat.floor_le (by linarith : 0 ≤ waveY m screen time (i / screen.width) + 1 / 2)
  have hceil := Nat.lt_floor_add_one (waveY m screen time (i / screen.width) + 1 / 2)
  unfold row
  constructor <;> linarith

theorem row_room (i : ℕ) (hheight : 13 ≤ screen.height) :
    2 ≤ row m screen time i ∧ row m screen time i + 2 < screen.height := by
  obtain ⟨hlower, hupper⟩ := row_mem m screen time i
  have hh : (13 : ℚ) ≤ screen.height := by exact_mod_cast hheight
  have hrow : (1 : ℚ) < row m screen time i := by linarith
  have hrow' : (row m screen time i : ℚ) + 2 < screen.height := by linarith
  exact ⟨by exact_mod_cast hrow, by exact_mod_cast hrow'⟩

theorem vertex_room {i j : ℕ} (hwidth : 14 ≤ screen.width) (hheight : 13 ≤ screen.height)
    (hi : i < screen.width) (hj : i ≤ j ∧ j ≤ i + 1) :
    RoomAround screen (halfThickness screen.width (i + 1)) (vertex m screen time j) := by
  have hhalf := halfThickness_le_two (by omega : i + 1 ≤ screen.width)
  have hrow := row_room m screen time j hheight
  refine ⟨column_room hwidth hi hj, ?_⟩
  show _ ≤ row m screen time j ∧ row m screen time j + _ < _
  omega

theorem vertex_contains {i : ℕ} (hwidth : 14 ≤ screen.width) (hheight : 13 ≤ screen.height)
    (hi : i ≤ screen.width) : screen.Contains (vertex m screen time i) := by
  cases i with
  | zero => exact (vertex_room m screen time hwidth hheight (by omega : 0 < screen.width) (by omega)).contains
  | succ i => exact (vertex_room m screen time hwidth hheight hi (by omega)).contains

/-- A step of the wave is less than two columns. -/
theorem column_step (screenWidth i : ℕ) :
    |(column screenWidth (i + 1) : ℤ) - column screenWidth i| ≤ 1 := by
  have hfloor : ∀ j : ℕ, (column screenWidth j : ℚ) ≤ screenWidth * (1 / 20) + j * (9 / 10) + 1 / 2 :=
    fun j => Nat.floor_le (by positivity)
  have hceil : ∀ j : ℕ, (screenWidth * (1 / 20) + j * (9 / 10) + 1 / 2 : ℚ) < column screenWidth j + 1 :=
    fun j => Nat.lt_floor_add_one _
  have h₁ := hfloor i
  have h₂ := hfloor (i + 1)
  have h₃ := hceil i
  have h₄ := hceil (i + 1)
  push_cast at h₂ h₄
  have hlower : (column screenWidth i : ℚ) < column screenWidth (i + 1) + 1 := by linarith
  have hupper : (column screenWidth (i + 1) : ℚ) < column screenWidth i + 2 := by linarith
  have hlower' : column screenWidth i < column screenWidth (i + 1) + 1 := by exact_mod_cast hlower
  have hupper' : column screenWidth (i + 1) < column screenWidth i + 2 := by exact_mod_cast hupper
  rw [abs_le]
  constructor <;> omega

theorem row_step (i j : ℕ) : |(row m screen time i : ℤ) - row m screen time j| ≤ 39322 := by
  obtain ⟨h₁, h₂⟩ := row_mem m screen time i
  obtain ⟨h₃, h₄⟩ := row_mem m screen time j
  have hheight : (screen.height : ℚ) + 1 ≤ 2 ^ 16 := by exact_mod_cast screen.height_lt
  have hlower : (row m screen time i : ℚ) ≤ row m screen time j + 39322 := by linarith
  have hupper : (row m screen time j : ℚ) ≤ row m screen time i + 39322 := by linarith
  have hlower' : row m screen time i ≤ row m screen time j + 39322 := by exact_mod_cast hlower
  have hupper' : row m screen time j ≤ row m screen time i + 39322 := by exact_mod_cast hupper
  rw [abs_le]
  constructor <;> omega

theorem squares_lt (i : ℕ) :
    (((vertex m screen time (i + 1)).x - (vertex m screen time i).x) *
        ((vertex m screen time (i + 1)).x - (vertex m screen time i).x) +
      ((vertex m screen time (i + 1)).y - (vertex m screen time i).y) *
        ((vertex m screen time (i + 1)).y - (vertex m screen time i).y) : ℤ) < 2 ^ 31 := by
  have hx := sq_le_sq' (neg_le_of_abs_le (column_step screen.width i)) (le_of_abs_le (column_step screen.width i))
  have hy := sq_le_sq' (neg_le_of_abs_le (row_step m screen time (i + 1) i))
    (le_of_abs_le (row_step m screen time (i + 1) i))
  unfold vertex
  dsimp only
  rw [← sq, ← sq]
  linarith

/-! ## A frame on the screen -/

/-- What is drawn on the way to the `i`th point. -/
def thickLine : ℕ → List Command
  | 0 => []
  | i + 1 => (drawThickLine m (vertex m screen time i) (vertex m screen time (i + 1))
      (weight ((i + 1 : ℕ) / screen.width))).getD []

theorem thickLine_contains {i : ℕ} (hwidth : 14 ≤ screen.width) (hheight : 13 ≤ screen.height)
    (hi : i < screen.width) :
    drawThickLine m (vertex m screen time i) (vertex m screen time (i + 1))
        (weight ((i + 1 : ℕ) / screen.width)) = some (thickLine m screen time (i + 1)) ∧
      (∀ c ∈ thickLine m screen time (i + 1), OnScreen screen c) ∧
      (.drawLine (vertex m screen time i) (vertex m screen time (i + 1)) ∈ thickLine m screen time (i + 1) ∨
        vertex m screen time i = vertex m screen time (i + 1)) := by
  obtain ⟨commands, hcommands, hon, hmiddle⟩ := drawThickLine_contains m
    (vertex_room m screen time hwidth hheight hi (by omega : i ≤ i ∧ i ≤ i + 1))
    (vertex_room m screen time hwidth hheight hi (by omega : i ≤ i + 1 ∧ i + 1 ≤ i + 1))
    (squares_lt m screen time i)
  have heq : thickLine m screen time (i + 1) = commands := by rw [thickLine, hcommands, Option.getD_some]
  rw [heq]
  exact ⟨hcommands, hon, hmiddle⟩

theorem animateTurn_eq {i : ℕ} (hwidth : 14 ≤ screen.width) (hheight : 13 ≤ screen.height)
    (hi : i < screen.width + 1) (drawn : List Command) :
    animateTurn m screen time ⟨before (vertex m screen time) i, drawn⟩ i =
      some ⟨some (vertex m screen time i), drawn ++ thickLine m screen time i⟩ := by
  have hcontains := vertex_contains m screen time hwidth hheight (Nat.le_of_lt_succ hi)
  have hne : (screen.width : ℚ) ≠ 0 := by
    have : (14 : ℚ) ≤ screen.width := by exact_mod_cast hwidth
    linarith
  have hcolumn : toUint16 (waveX screen (i / screen.width) + 1 / 2) = some (column screen.width i) := by
    have hi' : (i : ℚ) ≤ screen.width := by exact_mod_cast Nat.le_of_lt_succ hi
    have hw : (14 : ℚ) ≤ screen.width := by exact_mod_cast hwidth
    have hw' : (screen.width : ℚ) < 2 ^ 16 := by exact_mod_cast screen.width_lt
    have hi₀ : (0 : ℚ) ≤ i := Nat.cast_nonneg _
    rw [waveX_eq (by omega)]
    exact toUint16_eq (by linarith) (by linarith)
  have hrow : toUint16 (waveY m screen time (i / screen.width) + 1 / 2) = some (row m screen time i) := by
    obtain ⟨hlower, hupper⟩ := waveY_mem m screen time (i / screen.width)
    have hh : (13 : ℚ) ≤ screen.height := by exact_mod_cast hheight
    have hh' : (screen.height : ℚ) < 2 ^ 16 := by exact_mod_cast screen.height_lt
    exact toUint16_eq (by linarith) (by linarith)
  unfold animateTurn divide
  rw [if_neg hne]
  simp only [Option.bind_eq_bind, Option.bind_some, hcolumn, hrow]
  rw [← vertex, if_pos hcontains]
  cases i with
  | zero => simp [before, thickLine]
  | succ i =>
    have hline := (thickLine_contains m screen time hwidth hheight (by omega : i < screen.width)).1
    simp only [before, hline, Option.bind_some]
    rfl

end

/-- **A frame of the wave**, in exact arithmetic: every line of it is on the screen, and no conversion is undefined;
the wave goes from a twentieth of the width to nineteen twentieths, without a gap. -/
theorem animate_contains (m : MathFunctions) (screen : Screen) (hwidth : 14 ≤ screen.width)
    (hheight : 13 ≤ screen.height) (time : ℚ) :
    ∃ (commands : List Command) (v : ℕ → Coordinate),
      animate m screen time = some (commands, time + 10) ∧ (∀ c ∈ commands, OnScreen screen c) ∧
      (∀ i ≤ screen.width, (v i).x = ⌊(screen.width * (1 / 20) + i * (9 / 10) + 1 / 2 : ℚ)⌋₊) ∧
      ∀ i < screen.width, .drawLine (v i) (v (i + 1)) ∈ commands ∨ v i = v (i + 1) := by
  have hpen := foldlM_pen fun i (hi : i < screen.width + 1) drawn =>
    animateTurn_eq m screen time hwidth hheight hi drawn
  refine ⟨.clear :: (List.range (screen.width + 1)).flatMap (thickLine m screen time), vertex m screen time,
    ?_, ?_, fun i _ => rfl, ?_⟩
  · unfold animate
    rw [hpen]
    rfl
  · rw [List.forall_mem_cons]
    refine ⟨trivial, ?_⟩
    intro c hc
    obtain ⟨i, hi, hmem⟩ := List.mem_flatMap.mp hc
    cases i with
    | zero => exact absurd hmem List.not_mem_nil
    | succ i =>
      have hi' : i < screen.width := by simpa using hi
      exact (thickLine_contains m screen time hwidth hheight hi').2.1 c hmem
  · intro i hi
    refine (thickLine_contains m screen time hwidth hheight hi).2.2.imp_left fun hmem => ?_
    exact List.mem_cons_of_mem _ (List.mem_flatMap.mpr ⟨i + 1, by simpa using hi, hmem⟩)

theorem animate_contains_128_32 : ∃ (commands : List Command) (v : ℕ → Coordinate),
    animate .roundedDown (display 32) 0 = some (commands, 0 + 10) ∧
    (∀ c ∈ commands, OnScreen (display 32) c) ∧
    (∀ i ≤ 128, (v i).x = ⌊((128 : ℕ) * (1 / 20) + i * (9 / 10) + 1 / 2 : ℚ)⌋₊) ∧
    ∀ i < 128, .drawLine (v i) (v (i + 1)) ∈ commands ∨ v i = v (i + 1) :=
  animate_contains .roundedDown (display 32) (by decide) (by decide) 0

end EerieLeap.Views.TaperedWaveAnimation
