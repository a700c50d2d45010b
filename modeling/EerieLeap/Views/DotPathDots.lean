import EerieLeap.Views.DotPathBounds
import EerieLeap.Views.Drawing

/-!
# The dots of the dot path

The dots have sizes between those drawn for the two positions they are between, and none at both ends of the
path. On a screen that no path leaves, a frame shows all dots but, at most, the first and the last. The arithmetic
is exact; what the floats of the code make of `time_` is on 0 to 1, too, but not the same for every frame.

* `animate` : a frame;
* `getPositionAndSize_eq` : the size of a dot in between;
* `animate_dots` : what a frame shows, at whatever time.
-/

namespace EerieLeap.Views.DotPathAnimation

open Lib.PartialLoop

/-! ## Sizes -/

/-- What is drawn at random for the sizes: `size_dist` is on 0.5 to 2.5, and not asked for the last jump. -/
structure SizeDraws where
  sizes : List ℚ
  sizes_mem : ∀ size ∈ sizes, 1 / 2 ≤ size ∧ size ≤ 5 / 2
  sizes_length : sizes.length = numberOfJumps - 1

/-- `sizes_`. -/
def SizeDraws.all (draws : SizeDraws) : List ℚ := 0 :: draws.sizes ++ [0]

/-- `GetPositionAndSize`; `none` where it reads behind the end. -/
def getPositionAndSize (positions : List PVector) (sizes : List ℚ) (p : ℚ) : Option (PVector × ℚ) := do
  let position ← getPosition positions p
  let floatIndex := p * numberOfJumps * (9999 / 10000)
  let i₁ := ⌊floatIndex⌋₊
  let i₂ := i₁ + 1
  let size₁ ← sizes[i₁]?
  let size₂ ← sizes[i₂]?
  return (position, size₁ + (size₂ - size₁) * easeWithGamma (floatIndex - i₁) 4)

/-! ## A frame -/

def drawDot (p : Coordinate) (size : ℚ) : Command :=
  if size ≤ 1 then .drawPoint p
  else
    let radius := ⌊size / 2 + 1 / 2⌋₊
    .drawCircle p radius

/-- One turn of the loop of `Animate`. -/
def animateDot (screen : Screen) (positions : List PVector) (sizes : List ℚ) (time : ℚ) (dot : ℕ) :
    Option (List Command) := do
  let (position, size) ← getPositionAndSize positions sizes ((dot + time) / dotCount)
  let screenX ← toUint16 (position.x + 1 / 2)
  let screenY ← toUint16 (position.y + 1 / 2)
  if position.x < screen.width ∧ position.y < screen.height ∧ size > 1 / 10 then
    return [drawDot ⟨screenX, screenY⟩ size]
  else
    return []

/-- What `Animate` draws, and `time_` after it. -/
def animate (screen : Screen) (positions : List PVector) (sizes : List ℚ) (time : ℚ) :
    Option (List Command × ℚ) := do
  let drawn ← (List.range dotCount).foldlM (fun drawn dot => do
    let commands ← animateDot screen positions sizes time dot
    return drawn ++ commands) [.clear]
  let time := time + 1 / 50
  return (drawn, if time ≥ 1 then time - 1 else time)

/-! ## The size of a dot -/

theorem SizeDraws.all_length (draws : SizeDraws) : draws.all.length = numberOfJumps + 1 := by
  rw [SizeDraws.all, List.length_append, List.length_cons, draws.sizes_length]
  rfl

theorem SizeDraws.all_mem (draws : SizeDraws) : ∀ size ∈ draws.all, 0 ≤ size ∧ size ≤ 5 / 2 := by
  intro size hsize
  rw [SizeDraws.all, List.mem_append, List.mem_cons, List.mem_singleton] at hsize
  rcases hsize with (rfl | hsize) | rfl
  · norm_num
  · obtain ⟨hlower, hupper⟩ := draws.sizes_mem size hsize
    constructor <;> linarith
  · norm_num

/-- Behind the first, and before the last. -/
theorem SizeDraws.all_inner (draws : SizeDraws) {i : ℕ} (hi : 1 ≤ i ∧ i < numberOfJumps) {size : ℚ}
    (h : draws.all[i]? = some size) : 1 / 2 ≤ size := by
  obtain ⟨k, rfl⟩ : ∃ k, i = k + 1 := ⟨i - 1, by omega⟩
  have hk : k < draws.sizes.length := by
    rw [draws.sizes_length]
    omega
  rw [SizeDraws.all, List.cons_append, List.getElem?_cons_succ, List.getElem?_append_left hk,
    List.getElem?_eq_getElem hk, Option.some_inj] at h
  exact h ▸ (draws.sizes_mem _ (List.getElem_mem hk)).1

theorem between_le {a b t l r : ℚ} (ha : l ≤ a ∧ a ≤ r) (hb : l ≤ b ∧ b ≤ r) (ht : 0 ≤ t ∧ t ≤ 1) :
    l ≤ a + (b - a) * t ∧ a + (b - a) * t ≤ r := by
  constructor <;> nlinarith

/-- **The size of a dot**: at most 2.5, and at least 0.5 away from the ends. -/
theorem getPositionAndSize_eq {positions : List PVector} (draws : SizeDraws) {p : ℚ} (hp : 0 ≤ p ∧ p < 1)
    {position : PVector} (hposition : getPosition positions p = some position) :
    ∃ size, getPositionAndSize positions draws.all p = some (position, size) ∧ 0 ≤ size ∧ size ≤ 5 / 2 ∧
      (1 / 50 ≤ p ∧ p < 49 / 50 → 1 / 2 ≤ size) := by
  obtain ⟨hp₀, hp₁⟩ := hp
  have hinner : 1 / 50 ≤ p ∧ p < 49 / 50 →
      1 ≤ p * numberOfJumps * (9999 / 10000) ∧ p * numberOfJumps * (9999 / 10000) < 89 := by
    rintro ⟨hlower, hupper⟩
    norm_num [numberOfJumps]
    constructor <;> linarith
  have hindex : 0 ≤ p * numberOfJumps * (9999 / 10000) := by positivity
  have hlt : p * numberOfJumps * (9999 / 10000) < 90 := by
    norm_num [numberOfJumps]
    linarith
  unfold getPositionAndSize
  rw [hposition]
  simp only [Option.bind_eq_bind, Option.bind_some]
  generalize p * numberOfJumps * (9999 / 10000) = floatIndex at *
  have hfloor := Nat.floor_le hindex
  have hceil := Nat.lt_floor_add_one floatIndex
  have hend : ⌊floatIndex⌋₊ < 90 := (Nat.floor_lt hindex).mpr (by exact_mod_cast hlt)
  have hlength := draws.all_length
  rw [numberOfJumps] at hlength
  have h₁ : draws.all[⌊floatIndex⌋₊]? = some draws.all[⌊floatIndex⌋₊] := List.getElem?_eq_getElem (by omega)
  have h₂ : draws.all[⌊floatIndex⌋₊ + 1]? = some draws.all[⌊floatIndex⌋₊ + 1] :=
    List.getElem?_eq_getElem (by omega)
  have hmem₁ := draws.all_mem _ (List.mem_of_getElem? h₁)
  have hmem₂ := draws.all_mem _ (List.mem_of_getElem? h₂)
  have hease := easeWithGamma_mem (p := floatIndex - ⌊floatIndex⌋₊) ⟨by linarith, by linarith⟩ 4
  rw [h₁, h₂]
  obtain ⟨hsize₀, hsize₁⟩ := between_le hmem₁ hmem₂ hease
  refine ⟨_, rfl, hsize₀, hsize₁, ?_⟩
  intro h
  obtain ⟨hlower, hupper⟩ := hinner h
  have hi : 1 ≤ ⌊floatIndex⌋₊ := Nat.le_floor (by exact_mod_cast hlower)
  have hi' : ⌊floatIndex⌋₊ < 89 := (Nat.floor_lt hindex).mpr (by exact_mod_cast hupper)
  have hhalf₁ := draws.all_inner ⟨hi, by rw [numberOfJumps]; omega⟩ h₁
  have hhalf₂ := draws.all_inner ⟨by omega, by rw [numberOfJumps]; omega⟩ h₂
  exact (between_le ⟨hhalf₁, hmem₁.2⟩ ⟨hhalf₂, hmem₂.2⟩ hease).1

/-- A dot is a point, or a circle with radius 1. -/
theorem drawDot_eq (p : Coordinate) {size : ℚ} (h : size ≤ 5 / 2) :
    drawDot p size = .drawPoint p ∨ drawDot p size = .drawCircle p 1 := by
  unfold drawDot
  split_ifs with hsmall
  · exact Or.inl rfl
  · rw [not_le] at hsmall
    have hradius : ⌊size / 2 + 1 / 2⌋₊ = 1 := by
      rw [Nat.floor_eq_iff (by linarith)]
      push_cast
      constructor <;> linarith
    exact Or.inr (by rw [hradius])

/-! ## What a frame shows -/

theorem toUint16_mem {x : ℚ} {size : ℕ} (h : 0 ≤ x ∧ x < size - 1 / 2) (hsize : size < 2 ^ 16) :
    ∃ c, toUint16 (x + 1 / 2) = some c ∧ c < size := by
  have hsize' : (size : ℚ) < 2 ^ 16 := by exact_mod_cast hsize
  refine ⟨_, toUint16_eq (by linarith) (by linarith), ?_⟩
  rw [Nat.floor_lt (by linarith)]
  linarith

/-- Nothing, at the ends of the path, or a dot on the screen. -/
def ShowsDot (screen : Screen) (dot : ℕ) (commands : List Command) : Prop :=
  commands = [] ∧ (dot = 0 ∨ dot = 49) ∨
    ∃ p, screen.Contains p ∧ (commands = [.drawPoint p] ∨ commands = [.drawCircle p 1])

theorem animateDot_shows {screen : Screen} (choices : Choices screen.width screen.height) (draws : SizeDraws)
    (hwidth : 90 ≤ screen.width) (hheight : 90 ≤ screen.height) {time : ℚ} (htime : 0 ≤ time ∧ time < 1) {dot : ℕ}
    (hdot : dot < dotCount) :
    ∃ commands, animateDot screen choices.positions draws.all time dot = some commands ∧
      ShowsDot screen dot commands := by
  have hroom : RoomFor (1 / 2) screen.width screen.height := roomFor (by norm_num) (by norm_num) hwidth hheight
  obtain ⟨position, hposition, hbox⟩ := choices.getPosition_inBox hroom htime hdot
  obtain ⟨htime₀, htime₁⟩ := htime
  have hdot₀ : (0 : ℚ) ≤ dot := Nat.cast_nonneg _
  have hdot₁ : (dot : ℚ) + 1 ≤ 50 := by exact_mod_cast hdot
  have hp : 0 ≤ (dot + time) / dotCount ∧ (dot + time) / dotCount < 1 := by
    norm_num [dotCount]
    constructor <;> linarith
  obtain ⟨size, hsize, hsize₀, hsize₁, hinner⟩ := getPositionAndSize_eq draws hp hposition
  obtain ⟨x, hx, hx'⟩ := toUint16_mem hbox.x screen.width_lt
  obtain ⟨y, hy, hy'⟩ := toUint16_mem hbox.y screen.height_lt
  have hinside : position.x < screen.width ∧ position.y < screen.height := by
    obtain ⟨-, hlt⟩ := hbox.x
    obtain ⟨-, hlt'⟩ := hbox.y
    constructor <;> linarith
  unfold animateDot
  simp only [hsize, hx, hy, Option.bind_eq_bind, Option.bind_some]
  by_cases hvisible : size > 1 / 10
  · rw [if_pos ⟨hinside.1, hinside.2, hvisible⟩]
    refine ⟨_, rfl, Or.inr ⟨⟨x, y⟩, ⟨hx', hy'⟩, ?_⟩⟩
    rcases drawDot_eq ⟨x, y⟩ hsize₁ with hdraw | hdraw
    · exact Or.inl (by rw [hdraw])
    · exact Or.inr (by rw [hdraw])
  · rw [if_neg fun h => hvisible h.2.2]
    refine ⟨_, rfl, Or.inl ⟨rfl, ?_⟩⟩
    -- the others are large enough to be seen
    by_contra hends
    have hdot₂ : (1 : ℚ) ≤ dot := by exact_mod_cast (by omega : 1 ≤ dot)
    have hdot₃ : (dot : ℚ) ≤ 48 := by exact_mod_cast (by rw [dotCount] at hdot; omega : dot ≤ 48)
    have hhalf := hinner (by
      norm_num [dotCount]
      constructor <;> linarith)
    linarith

/-- **The dots of a frame**: on a screen that no path leaves, all of them are on the screen, each is a point or a
circle with radius 1, and at most the first and the last are not drawn; and `time_` goes on within 0 to 1, where
it begins. -/
theorem animate_dots (screen : Screen) (choices : Choices screen.width screen.height) (draws : SizeDraws)
    (hwidth : 90 ≤ screen.width) (hheight : 90 ≤ screen.height) {time : ℚ} (htime : 0 ≤ time ∧ time < 1) :
    ∃ (dots : ℕ → List Command) (time' : ℚ),
      animate screen choices.positions draws.all time = some (.clear :: (List.range 50).flatMap dots, time') ∧
      (0 ≤ time' ∧ time' < 1) ∧
      ∀ dot < 50, (dots dot = [] ∧ (dot = 0 ∨ dot = 49)) ∨
        ∃ p, screen.Contains p ∧ (dots dot = [.drawPoint p] ∨ dots dot = [.drawCircle p 1]) := by
  have hshows : ∀ dot < dotCount, ∃ commands, animateDot screen choices.positions draws.all time dot = some commands ∧
      ShowsDot screen dot commands := fun dot hdot => animateDot_shows choices draws hwidth hheight htime hdot
  refine ⟨fun dot => (animateDot screen choices.positions draws.all time dot).getD [],
    if time + 1 / 50 ≥ 1 then time + 1 / 50 - 1 else time + 1 / 50, ?_, ?_, ?_⟩
  · have hdrawn : ∀ dot ∈ List.range dotCount, animateDot screen choices.positions draws.all time dot =
        some ((animateDot screen choices.positions draws.all time dot).getD []) := by
      intro dot hdot
      obtain ⟨commands, hcommands, -⟩ := hshows dot (List.mem_range.mp hdot)
      rw [hcommands]
      rfl
    unfold animate
    rw [foldlM_append hdrawn]
    rfl
  · obtain ⟨hlower, hupper⟩ := htime
    split_ifs with h
    · constructor <;> linarith
    · rw [ge_iff_le, not_le] at h
      constructor <;> linarith
  · intro dot hdot
    obtain ⟨commands, hcommands, hdot⟩ := hshows dot hdot
    dsimp only
    rw [hcommands]
    exact hdot

/-- Dots of one pixel. -/
def onePixel : SizeDraws where
  sizes := List.replicate 89 1
  sizes_mem := by
    intro size hsize
    rw [List.eq_of_mem_replicate hsize]
    norm_num
  sizes_length := by rw [List.length_replicate, numberOfJumps]

theorem animate_dots_128_96 : ∃ (dots : ℕ → List Command) (time' : ℚ),
    animate (display 96) (thrownOut 128 96).positions onePixel.all 0 =
      some (.clear :: (List.range 50).flatMap dots, time') ∧ (0 ≤ time' ∧ time' < 1) ∧
    ∀ dot < 50, (dots dot = [] ∧ (dot = 0 ∨ dot = 49)) ∨
      ∃ p, (display 96).Contains p ∧ (dots dot = [.drawPoint p] ∨ dots dot = [.drawCircle p 1]) :=
  animate_dots (display 96) (thrownOut 128 96) onePixel (by decide) (by decide) ⟨le_refl 0, one_pos⟩

end EerieLeap.Views.DotPathAnimation
