import EerieLeap.Views.DotPathBounds
import EerieLeap.Views.Drawing

/-!
# The wave lines animation

`WaveLinesAnimation` draws four lines that swing by up to 0.12 of the height, 0.2 of the height apart. At the
same column, all four swing to the same side, so that they stay apart; but on a screen of less than 13 rows, their
pixels need not.

* `animate` : a frame;
* `wave_mem`, `wave_apart` : where the lines are;
* `drawWaveLine_eq` : a line is drawn in one go, in all columns but one;
* `animate_polylines` : what is on the screen.
-/

namespace EerieLeap.Views.WaveLinesAnimation

open Lib.PartialLoop

/-! ## A line -/

def linesCount : ℕ := 4

def waveCount : ℕ := 8

def yCenter (screen : Screen) (lineIndex : ℕ) : ℚ := (lineIndex + 1) * screen.height / (linesCount + 1)

def maxAmplitude (screen : Screen) : ℚ := screen.height * (12 / 10) / (2 * (linesCount + 1))

/-- `amplitude`, after the decay. -/
def amplitude (m : MathFunctions) (screen : Screen) (time x y : ℚ) : ℚ :=
  let centerX : ℚ := screen.width / 2
  let centerY : ℚ := screen.height / 2
  let dist := m.sqrtf ((x - centerX) * (x - centerX) + (y - centerY) * (y - centerY))
  let cosVal := m.cosf (pi * 2 * time - 2 / 100 * dist) * (11 / 10)
  (cosVal + 1) / 2 * m.expf (-(4 / 1000) * dist)

/-- The amplitude after easing. -/
def eased (amplitude : ℚ) : ℚ := easeWithGamma (1 - (1 - amplitude) * (1 - amplitude)) 3

/-- `y` of a line at `normalizedPosition`. -/
def wave (m : MathFunctions) (screen : Screen) (time : ℚ) (lineIndex : ℕ) (normalizedPosition : ℚ) : ℚ :=
  let x := normalizedPosition * screen.width
  let y := yCenter screen lineIndex
  let wavePhase := pi * 2 * waveCount * normalizedPosition
  y + eased (amplitude m screen time x y) * maxAmplitude screen * m.cosf wavePhase

/-- One turn of the loop of `DrawWaveLine`. -/
def drawWaveLineTurn (m : MathFunctions) (screen : Screen) (time : ℚ) (lineIndex : ℕ)
    (pen : Pen Coordinate Command) (i : ℕ) : Option (Pen Coordinate Command) := do
  let normalizedPosition ← divide i (screen.width - 1)
  let screenX ← toUint16 (normalizedPosition * screen.width + 1 / 2)
  let screenY ← toUint16 (wave m screen time lineIndex normalizedPosition + 1 / 2)
  let p : Coordinate := ⟨screenX, screenY⟩
  if screen.Contains p then
    match pen.point with
    | some prevPoint => return ⟨some p, pen.drawn ++ [.drawLine prevPoint p]⟩
    | none => return ⟨some p, pen.drawn ++ [.drawPoint p]⟩
  else
    return ⟨none, pen.drawn⟩

def drawWaveLine (m : MathFunctions) (screen : Screen) (time : ℚ) (lineIndex : ℕ) : Option (List Command) := do
  let pen ← (List.range screen.width).foldlM (drawWaveLineTurn m screen time lineIndex) ⟨none, []⟩
  return pen.drawn

/-! ## A frame -/

/-- `fmodf(frame_ / 100.0F, 1.0F)`. -/
def time (frame : ℕ) : ℚ := Int.fract (frame / 100 : ℚ)

/-- What `Animate` draws, and `frame_` after it. -/
def animate (m : MathFunctions) (screen : Screen) (frame : ℕ) : Option (List Command × ℕ) := do
  let drawn ← (List.range linesCount).foldlM (fun drawn line => do
    let commands ← drawWaveLine m screen (time frame + (line : ℕ) * (15 / 100)) line
    return drawn ++ commands) [.clear]
  return (drawn, (frame + 3) % 2 ^ 32)

/-! ## Where the lines are -/

theorem amplitude_mem (m : MathFunctions) (screen : Screen) (time x y : ℚ) :
    -(1 / 20) ≤ amplitude m screen time x y ∧ amplitude m screen time x y ≤ 21 / 20 := by
  unfold amplitude
  dsimp only
  have hsquares : 0 ≤ (x - screen.width / 2) * (x - screen.width / 2) +
      (y - screen.height / 2) * (y - screen.height / 2) :=
    add_nonneg (mul_self_nonneg _) (mul_self_nonneg _)
  have hdist := m.sqrtf_nonneg hsquares
  generalize m.sqrtf _ = dist at hdist
  obtain ⟨hcos, hcos'⟩ := m.cosf_mem (pi * 2 * time - 2 / 100 * dist)
  obtain ⟨hexp, hexp'⟩ := m.expf_mem (-(4 / 1000) * dist) (by linarith)
  generalize m.cosf _ = c at hcos hcos'
  generalize m.expf _ = e at hexp hexp'
  constructor <;> nlinarith

/-- A small amplitude below 0 stays one. -/
theorem eased_mem {a : ℚ} (h : -(1 / 20) ≤ a ∧ a ≤ 21 / 20) : -(5 / 1000) ≤ eased a ∧ eased a ≤ 1 := by
  obtain ⟨hlower, hupper⟩ := h
  have hmono : StrictMono fun x : ℚ => x ^ 3 := Odd.strictMono_pow (by decide)
  have hp : -(41 / 400) ≤ 1 - (1 - a) * (1 - a) := by nlinarith
  have hp' : 1 - (1 - a) * (1 - a) ≤ 1 := by nlinarith
  unfold eased easeWithGamma
  generalize 1 - (1 - a) * (1 - a) = p at hp hp'
  split_ifs with hhalf
  · have hcube : (-(41 / 200)) ^ 3 ≤ (2 * p) ^ 3 := hmono.monotone (by linarith)
    have hcube' : (2 * p) ^ 3 ≤ 1 ^ 3 := hmono.monotone (by linarith)
    constructor <;> linarith
  · rw [not_lt] at hhalf
    have hcube : 0 ^ 3 ≤ (2 * (1 - p)) ^ 3 := hmono.monotone (by linarith)
    have hcube' : (2 * (1 - p)) ^ 3 ≤ 1 ^ 3 := hmono.monotone (by linarith)
    constructor <;> linarith

section
variable (m : MathFunctions) (screen : Screen) (time : ℚ) (normalizedPosition : ℚ)

/-- What a line swings by: a part of the height that depends on the line, to a side that does not. -/
theorem wave_eq (lineIndex : ℕ) :
    ∃ e, (-(5 / 1000) ≤ e ∧ e ≤ 1) ∧ wave m screen time lineIndex normalizedPosition =
      screen.height * ((lineIndex + 1) / 5 + 12 / 100 * (e * m.cosf (pi * 2 * waveCount * normalizedPosition))) := by
  have hamplitude := amplitude_mem m screen time (normalizedPosition * screen.width) (yCenter screen lineIndex)
  refine ⟨_, eased_mem hamplitude, ?_⟩
  unfold wave
  dsimp only
  rw [maxAmplitude, linesCount]
  generalize eased _ = e
  rw [yCenter, linesCount]
  push_cast
  ring

theorem abs_mul_cosf_le {e b x : ℚ} (h : |e| ≤ b) : |e * m.cosf x| ≤ b := by
  have hc : |m.cosf x| ≤ 1 := abs_le.mpr (m.cosf_mem x)
  calc |e * m.cosf x| = |e| * |m.cosf x| := abs_mul _ _
    _ ≤ |e| := mul_le_of_le_one_right (abs_nonneg e) hc
    _ ≤ b := h

/-- **The lines stay on the screen**, 0.08 of its height from the edges. -/
theorem wave_mem {lineIndex : ℕ} (hline : lineIndex < linesCount) :
    screen.height * (8 / 100) ≤ wave m screen time lineIndex normalizedPosition ∧
      wave m screen time lineIndex normalizedPosition ≤ screen.height * (92 / 100) := by
  obtain ⟨e, ⟨he, he'⟩, heq⟩ := wave_eq m screen time normalizedPosition lineIndex
  have hline₀ : (0 : ℚ) ≤ lineIndex := Nat.cast_nonneg _
  have hline' : (lineIndex : ℚ) ≤ 3 := by exact_mod_cast Nat.le_of_lt_succ hline
  have hheight : (0 : ℚ) ≤ screen.height := Nat.cast_nonneg _
  have hswing := abs_mul_cosf_le m (x := pi * 2 * waveCount * normalizedPosition)
    (abs_le.mpr ⟨by linarith, he'⟩ : |e| ≤ 1)
  obtain ⟨hlower, hupper⟩ := abs_le.mp hswing
  rw [heq]
  constructor <;> apply mul_le_mul_of_nonneg_left _ hheight <;> linarith

/-- **Neighbouring lines are apart**, by 0.079 of the height, at whatever times. -/
theorem wave_apart (time' : ℚ) (lineIndex : ℕ) :
    wave m screen time lineIndex normalizedPosition + screen.height * (79 / 1000) ≤
      wave m screen time' (lineIndex + 1) normalizedPosition := by
  obtain ⟨e, ⟨he, he'⟩, heq⟩ := wave_eq m screen time normalizedPosition lineIndex
  obtain ⟨f, ⟨hf, hf'⟩, hfeq⟩ := wave_eq m screen time' normalizedPosition (lineIndex + 1)
  have hheight : (0 : ℚ) ≤ screen.height := Nat.cast_nonneg _
  have hswing := abs_mul_cosf_le m (x := pi * 2 * waveCount * normalizedPosition)
    (abs_le.mpr ⟨by linarith, by linarith⟩ : |f - e| ≤ 1005 / 1000)
  have hlower := (abs_le.mp hswing).1
  rw [heq, hfeq, ← mul_add]
  apply mul_le_mul_of_nonneg_left _ hheight
  push_cast
  linarith

end

/-! ## The pixels of a line -/

/-- The column of the `i`th pixel. -/
def column (screenWidth i : ℕ) : ℕ := if 2 * i < screenWidth - 1 then i else i + 1

theorem column_lt_column (screenWidth i : ℕ) : column screenWidth i < column screenWidth (i + 1) := by
  unfold column
  split_ifs <;> omega

theorem toUint16_column (screen : Screen) {i : ℕ} (hi : i < screen.width) (hwidth : 2 ≤ screen.width) :
    toUint16 ((i : ℚ) / (screen.width - 1) * screen.width + 1 / 2) = some (column screen.width i) := by
  have hlt := screen.width_lt
  generalize screen.width = w at *
  have hpos : (0 : ℚ) < w - 1 := by
    have : (2 : ℚ) ≤ w := by exact_mod_cast hwidth
    linarith
  have hi' : (i : ℚ) ≤ w - 1 := by
    have : (i : ℚ) + 1 ≤ w := by exact_mod_cast hi
    linarith
  have hw' : (w : ℚ) + 1 ≤ 2 ^ 16 := by exact_mod_cast hlt
  -- `i` and a part of a pixel
  have hsplit : (i : ℚ) / (w - 1) * w = i + i / (w - 1) := by
    field_simp
    ring
  have hpart₀ : 0 ≤ (i : ℚ) / (w - 1) := div_nonneg (Nat.cast_nonneg _) hpos.le
  have hpart₁ : (i : ℚ) / (w - 1) ≤ 1 := (div_le_one hpos).mpr hi'
  have hi₀ : (0 : ℚ) ≤ i := Nat.cast_nonneg _
  rw [hsplit, toUint16_eq (by linarith) (by linarith)]
  congr 1
  rw [Nat.floor_eq_iff (by linarith)]
  unfold column
  split_ifs with hhalf
  · have hlt : (i : ℚ) / (w - 1) < 1 / 2 := by
      have : 2 * (i : ℚ) + 1 < w := by exact_mod_cast (by omega : 2 * i + 1 < w)
      rw [div_lt_iff₀ hpos]
      linarith
    constructor <;> linarith
  · have hle : 1 / 2 ≤ (i : ℚ) / (w - 1) := by
      have : (w : ℚ) ≤ 2 * i + 1 := by exact_mod_cast (by omega : w ≤ 2 * i + 1)
      rw [le_div_iff₀ hpos]
      linarith
    push_cast
    constructor <;> linarith

/-- The row of the `i`th pixel. -/
def row (m : MathFunctions) (screen : Screen) (time : ℚ) (lineIndex i : ℕ) : ℕ :=
  ⌊wave m screen time lineIndex (i / (screen.width - 1)) + 1 / 2⌋₊

section
variable (m : MathFunctions) (screen : Screen) (time : ℚ)

theorem toUint16_row {lineIndex : ℕ} (hline : lineIndex < linesCount) (i : ℕ) :
    toUint16 (wave m screen time lineIndex (i / (screen.width - 1)) + 1 / 2) =
      some (row m screen time lineIndex i) := by
  obtain ⟨hlower, hupper⟩ := wave_mem m screen time (i / (screen.width - 1)) hline
  have hheight : (0 : ℚ) ≤ screen.height := Nat.cast_nonneg _
  have hheight' : (screen.height : ℚ) + 1 ≤ 2 ^ 16 := by exact_mod_cast screen.height_lt
  exact toUint16_eq (by linarith) (by linarith)

theorem row_lt {lineIndex : ℕ} (hline : lineIndex < linesCount) (i : ℕ) (hheight : 7 ≤ screen.height) :
    row m screen time lineIndex i < screen.height := by
  obtain ⟨hlower, hupper⟩ := wave_mem m screen time (i / (screen.width - 1)) hline
  have hheight' : (7 : ℚ) ≤ screen.height := by exact_mod_cast hheight
  rw [row, Nat.floor_lt (by linarith)]
  linarith

theorem row_apart (time' : ℚ) {lineIndex : ℕ} (hline : lineIndex < linesCount) (i : ℕ) :
    row m screen time lineIndex i + ⌊(screen.height * (79 / 1000) : ℚ)⌋₊ ≤
      row m screen time' (lineIndex + 1) i := by
  have hapart := wave_apart m screen time (i / (screen.width - 1)) time' lineIndex
  obtain ⟨hlower, -⟩ := wave_mem m screen time (i / (screen.width - 1)) hline
  have hheight : (0 : ℚ) ≤ screen.height := Nat.cast_nonneg _
  have hgap := Nat.floor_le (by linarith : 0 ≤ (screen.height : ℚ) * (79 / 1000))
  have hrow := Nat.floor_le (by linarith : 0 ≤ wave m screen time lineIndex (i / (screen.width - 1)) + 1 / 2)
  rw [row, row]
  apply Nat.le_floor
  push_cast
  linarith

theorem row_lt_row (time' : ℚ) {lineIndex : ℕ} (hline : lineIndex < linesCount) (i : ℕ)
    (hheight : 13 ≤ screen.height) : row m screen time lineIndex i < row m screen time' (lineIndex + 1) i := by
  have hapart := row_apart m screen time time' hline i
  have hheight' : (13 : ℚ) ≤ screen.height := by exact_mod_cast hheight
  have hgap : 1 ≤ ⌊(screen.height * (79 / 1000) : ℚ)⌋₊ := by
    apply Nat.le_floor
    push_cast
    linarith
  omega

end

/-! ## A line in one go -/

/-- A point, and from each point a line to the next. -/
def polyline : List Coordinate → List Command
  | [] => []
  | p :: ps => .drawPoint p :: List.zipWith .drawLine (p :: ps) ps

/-- What is drawn in a turn. -/
def stroke : Option Coordinate → Coordinate → Command
  | none, p => .drawPoint p
  | some prevPoint, p => .drawLine prevPoint p

theorem flatMap_stroke (v : ℕ → Coordinate) (n : ℕ) :
    (List.range n).flatMap (fun i => [stroke (before v i) (v i)]) = polyline ((List.range n).map v) := by
  rw [← List.map_eq_flatMap]
  cases n with
  | zero => rfl
  | succ n =>
    rw [List.range_succ_eq_map, List.map_cons, List.map_cons, List.map_map, List.map_map, polyline]
    congr 1
    apply List.ext_getElem
    · simp
    · intro i h₁ h₂
      rw [List.length_map, List.length_range] at h₁
      cases i with
      | zero => simp [stroke, before]
      | succ i => simp [stroke, before]

section
variable (m : MathFunctions) (screen : Screen) (time : ℚ) {lineIndex : ℕ}

/-- The `i`th point of a line. -/
def vertex (lineIndex i : ℕ) : Coordinate := ⟨column screen.width i, row m screen time lineIndex i⟩

theorem vertex_contains (hline : lineIndex < linesCount) {i : ℕ} (hi : i < screen.width - 1)
    (hheight : 7 ≤ screen.height) : screen.Contains (vertex m screen time lineIndex i) := by
  refine ⟨?_, row_lt m screen time hline i hheight⟩
  show column screen.width i < screen.width
  unfold column
  split_ifs <;> omega

/-- The turns but the last. -/
theorem drawWaveLineTurn_eq (hline : lineIndex < linesCount) (hheight : 7 ≤ screen.height) {i : ℕ}
    (hi : i < screen.width - 1) (point : Option Coordinate) (drawn : List Command) :
    drawWaveLineTurn m screen time lineIndex ⟨point, drawn⟩ i =
      some ⟨some (vertex m screen time lineIndex i),
        drawn ++ [stroke point (vertex m screen time lineIndex i)]⟩ := by
  have hcontains := vertex_contains m screen time hline hi hheight
  have hwidth : (screen.width : ℚ) - 1 ≠ 0 := by
    have : (2 : ℚ) ≤ screen.width := by exact_mod_cast (by omega : 2 ≤ screen.width)
    linarith
  unfold drawWaveLineTurn divide
  rw [if_neg hwidth]
  simp only [Option.bind_eq_bind, Option.bind_some, toUint16_column screen (by omega : i < screen.width) (by omega),
    toUint16_row m screen time hline]
  unfold vertex at hcontains ⊢
  rw [if_pos hcontains]
  cases point <;> rfl

/-- In the last turn, the column is behind the screen. -/
theorem drawWaveLineTurn_last (hline : lineIndex < linesCount) (hwidth : 2 ≤ screen.width)
    (pen : Pen Coordinate Command) :
    drawWaveLineTurn m screen time lineIndex pen (screen.width - 1) = some ⟨none, pen.drawn⟩ := by
  have hdivisor : (screen.width : ℚ) - 1 ≠ 0 := by
    have : (2 : ℚ) ≤ screen.width := by exact_mod_cast hwidth
    linarith
  have hcolumn : column screen.width (screen.width - 1) = screen.width := by
    unfold column
    split_ifs <;> omega
  unfold drawWaveLineTurn divide
  rw [if_neg hdivisor]
  simp only [Option.bind_eq_bind, Option.bind_some, toUint16_column screen (by omega : screen.width - 1 < screen.width)
    hwidth, toUint16_row m screen time hline, hcolumn]
  rw [if_neg (fun h => absurd h.1 (lt_irrefl _))]
  rfl

/-- **A line is drawn in one go**, up to the last column. -/
theorem drawWaveLine_eq (hline : lineIndex < linesCount) (hwidth : 2 ≤ screen.width)
    (hheight : 7 ≤ screen.height) :
    drawWaveLine m screen time lineIndex =
      some (polyline ((List.range (screen.width - 1)).map (vertex m screen time lineIndex))) := by
  have hrange : List.range screen.width = List.range (screen.width - 1) ++ [screen.width - 1] := by
    rw [← List.range_succ]
    congr 1
    omega
  have hpen := foldlM_pen fun i (hi : i < screen.width - 1) drawn =>
    drawWaveLineTurn_eq m screen time hline hheight hi (before (vertex m screen time lineIndex) i) drawn
  unfold drawWaveLine
  rw [hrange, List.foldlM_append, hpen, flatMap_stroke]
  simp [drawWaveLineTurn_last m screen time hline hwidth]

end

/-! ## What is on the screen -/

/-- **Four lines, one below the other**: each is drawn in one go, in the same columns, on the screen; and in each
column, the rows of neighbouring lines are 0.079 of the height apart, rounded down to whole rows, which is at
least one from 13 rows on. -/
theorem animate_polylines (m : MathFunctions) (screen : Screen) (hwidth : 2 ≤ screen.width)
    (hheight : 7 ≤ screen.height) (frame : ℕ) :
    ∃ row : ℕ → ℕ → ℕ,
      animate m screen frame = some (.clear :: (List.range 4).flatMap fun line =>
        polyline ((List.range (screen.width - 1)).map fun i => ⟨column screen.width i, row line i⟩),
        (frame + 3) % 2 ^ 32) ∧
      ∀ i < screen.width - 1,
        column screen.width i < screen.width ∧ column screen.width i < column screen.width (i + 1) ∧
        (∀ line < 4, row line i < screen.height) ∧
        (∀ line < 3, row line i + ⌊(screen.height * (79 / 1000) : ℚ)⌋₊ ≤ row (line + 1) i) ∧
        (13 ≤ screen.height → ∀ line < 3, row line i < row (line + 1) i) := by
  refine ⟨fun line i => row m screen (time frame + line * (15 / 100)) line i, ?_, ?_⟩
  · have hlines : ∀ line ∈ List.range linesCount, drawWaveLine m screen (time frame + line * (15 / 100)) line =
        some (polyline ((List.range (screen.width - 1)).map
          (vertex m screen (time frame + line * (15 / 100)) line))) :=
      fun line hline => drawWaveLine_eq m screen _ (List.mem_range.mp hline) hwidth hheight
    unfold animate
    rw [foldlM_append hlines]
    rfl
  · intro i hi
    refine ⟨?_, column_lt_column screen.width i, ?_, ?_, ?_⟩
    · exact (vertex_contains m screen (time frame) (by decide : 0 < linesCount) hi hheight).1
    · exact fun line hline => row_lt m screen _ hline i hheight
    · intro line hline
      exact row_apart m screen _ _ (hline.trans (by decide)) i
    · intro hrows line hline
      exact row_lt_row m screen _ _ (hline.trans (by decide)) i hrows

theorem animate_polylines_128_32 : ∃ row : ℕ → ℕ → ℕ,
    animate .roundedDown (display 32) 0 = some (.clear :: (List.range 4).flatMap fun line =>
      polyline ((List.range 127).map fun i => ⟨column 128 i, row line i⟩), 3) ∧
    ∀ i < 127, column 128 i < 128 ∧ column 128 i < column 128 (i + 1) ∧ (∀ line < 4, row line i < 32) ∧
      (∀ line < 3, row line i + ⌊((32 : ℕ) * (79 / 1000) : ℚ)⌋₊ ≤ row (line + 1) i) ∧
      (13 ≤ 32 → ∀ line < 3, row line i < row (line + 1) i) :=
  animate_polylines .roundedDown (display 32) (by decide) (by decide) 0

end EerieLeap.Views.WaveLinesAnimation
