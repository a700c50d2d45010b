import EerieLeap.Views.DotPathAnimation
import Mathlib.Tactic.Positivity
import Mathlib.Tactic.Ring

/-!
# Whether the dot path stays on the screen

A jump that leaves the margins is taken back by twice its length, also when the margin on the other side
is nearer than that. A screen has to be wide enough for the jump back: 80 pixels between the margin on one
side and the edge on the other.

* `InBox.jump` : on such a screen, a jump from the screen ends on the screen;
* `InBox.getPosition` : so do all positions in between;
* `thrownOut_width`, `thrownOut_height` : on any other screen, the first jump may leave it;
* `dotPath_onScreen_iff` : the screens on which no path leaves the screen.
-/

namespace EerieLeap.Views

/-! ## One axis -/

/-- **One jump** on an axis. What is kept free behind the last pixel is `c`. -/
theorem clampAxis_mem {x x' jumpLength margin c : ℚ} {screenSize : ℕ} (hc : 0 ≤ c) (hmargin : c < margin)
    (hsize : 80 + c ≤ screenSize - margin) (hjump : 10 ≤ jumpLength ∧ jumpLength ≤ 40)
    (hx : 0 ≤ x ∧ x < screenSize - c) (hmove : |x' - x| ≤ jumpLength) :
    0 ≤ clampAxis x' jumpLength screenSize margin ∧
      clampAxis x' jumpLength screenSize margin < screenSize - c := by
  obtain ⟨hlower, hupper⟩ := abs_le.mp hmove
  unfold clampAxis
  split_ifs with habove hbelow
  · -- back from the far margin, at most 80
    constructor <;> linarith
  · constructor <;> linarith
  · rw [not_lt] at habove hbelow
    constructor <;> linarith

theorem abs_applyJump_sub_le (p : PVector) {jumpLength : ℚ} (h : 0 ≤ jumpLength) (direction : ℕ) :
    |(applyJump p jumpLength direction).x - p.x| ≤ jumpLength ∧
      |(applyJump p jumpLength direction).y - p.y| ≤ jumpLength := by
  have hdiagonal : 0 ≤ jumpLength * diagonal ∧ jumpLength * diagonal ≤ jumpLength := by
    constructor
    · exact mul_nonneg h (by norm_num [diagonal])
    · exact mul_le_of_le_one_right h (by norm_num [diagonal])
  obtain ⟨hpos, hle⟩ := hdiagonal
  unfold applyJump
  split <;> constructor <;> rw [abs_le] <;> constructor <;> (try dsimp only) <;> linarith

/-! ## The box -/

/-- The point is on the screen, and not behind the last `c` of it. -/
structure InBox (c : ℚ) (screenWidth screenHeight : ℕ) (p : PVector) : Prop where
  x : 0 ≤ p.x ∧ p.x < screenWidth - c
  y : 0 ≤ p.y ∧ p.y < screenHeight - c

/-- The screen is wide enough for a jump back. -/
structure RoomFor (c : ℚ) (screenWidth screenHeight : ℕ) : Prop where
  nonneg : 0 ≤ c
  margin : c < emptyMargin screenWidth screenHeight
  width : 80 + c ≤ screenWidth - emptyMargin screenWidth screenHeight
  height : 80 + c ≤ screenHeight - emptyMargin screenWidth screenHeight

variable {c : ℚ} {screenWidth screenHeight : ℕ}

theorem InBox.jump {p : PVector} (hroom : RoomFor c screenWidth screenHeight)
    (h : InBox c screenWidth screenHeight p) (d : Draw) :
    InBox c screenWidth screenHeight
      (jump screenWidth screenHeight (emptyMargin screenWidth screenHeight) p d) := by
  have hpos : 0 ≤ d.jumpLength := by linarith [d.jumpLength_mem.1]
  obtain ⟨hx, hy⟩ := abs_applyJump_sub_le p hpos d.direction
  exact ⟨clampAxis_mem hroom.nonneg hroom.margin hroom.width d.jumpLength_mem h.x hx,
    clampAxis_mem hroom.nonneg hroom.margin hroom.height d.jumpLength_mem h.y hy⟩

/-- **Every position** of a path. -/
theorem InBox.generatePath {p : PVector} (hroom : RoomFor c screenWidth screenHeight)
    (h : InBox c screenWidth screenHeight p) (draws : List Draw) :
    ∀ q ∈ generatePath screenWidth screenHeight (emptyMargin screenWidth screenHeight) p draws,
      InBox c screenWidth screenHeight q := by
  induction draws generalizing p with
  | nil => exact fun q hq => absurd hq List.not_mem_nil
  | cons d draws ih =>
    have hjump := h.jump hroom d
    intro q hq
    rcases List.mem_cons.mp hq with rfl | hq
    · exact hjump
    · exact ih hjump q hq

theorem length_generatePath (margin : ℚ) (p : PVector) (draws : List Draw) :
    (generatePath screenWidth screenHeight margin p draws).length = draws.length := by
  induction draws generalizing p with
  | nil => rfl
  | cons d draws ih => rw [generatePath, List.length_cons, ih, List.length_cons]

/-! ## Between two positions -/

theorem easeWithGamma_mem {p : ℚ} (h : 0 ≤ p ∧ p ≤ 1) (g : ℕ) :
    0 ≤ easeWithGamma p g ∧ easeWithGamma p g ≤ 1 := by
  unfold easeWithGamma
  split_ifs with hp
  · have hpow : (2 * p) ^ g ≤ 1 := pow_le_one₀ (by linarith) (by linarith)
    have hpos : 0 ≤ (2 * p) ^ g := pow_nonneg (by linarith) g
    constructor <;> linarith
  · rw [not_lt] at hp
    have hpow : (2 * (1 - p)) ^ g ≤ 1 := pow_le_one₀ (by linarith) (by linarith)
    have hpos : 0 ≤ (2 * (1 - p)) ^ g := pow_nonneg (by linarith) g
    constructor <;> linarith

theorem between_mem {a b t r : ℚ} (ha : 0 ≤ a ∧ a < r) (hb : 0 ≤ b ∧ b < r) (ht : 0 ≤ t ∧ t ≤ 1) :
    0 ≤ a + (b - a) * t ∧ a + (b - a) * t < r := by
  rcases le_total a b with hab | hba
  · have hlower : 0 ≤ (b - a) * t := mul_nonneg (by linarith) ht.1
    have hupper : (b - a) * t ≤ b - a := mul_le_of_le_one_right (by linarith) ht.2
    constructor <;> linarith
  · have hlower : 0 ≤ (a - b) * t := mul_nonneg (by linarith) ht.1
    have hupper : (a - b) * t ≤ a - b := mul_le_of_le_one_right (by linarith) ht.2
    have hneg : (b - a) * t = -((a - b) * t) := by ring
    constructor <;> linarith

theorem InBox.lerp {p q : PVector} (hp : InBox c screenWidth screenHeight p)
    (hq : InBox c screenWidth screenHeight q) {t : ℚ} (ht : 0 ≤ t ∧ t ≤ 1) :
    InBox c screenWidth screenHeight (lerp p q t) :=
  ⟨between_mem hp.x hq.x ht, between_mem hp.y hq.y ht⟩

/-- **Every position in between**; none is read behind the end. -/
theorem InBox.getPosition {positions : List PVector}
    (h : ∀ q ∈ positions, InBox c screenWidth screenHeight q)
    (hlength : positions.length = numberOfJumps + 1) {p : ℚ} (hp : 0 ≤ p ∧ p < 1) :
    ∃ q, getPosition positions p = some q ∧ InBox c screenWidth screenHeight q := by
  have hindex : 0 ≤ p * numberOfJumps * (9999 / 10000) := by
    have := hp.1
    positivity
  have hlt : p * numberOfJumps * (9999 / 10000) < 90 := by
    norm_num [numberOfJumps]
    linarith [hp.2]
  unfold Views.getPosition
  dsimp only
  generalize p * numberOfJumps * (9999 / 10000) = floatIndex at *
  have hfloor := Nat.floor_le hindex
  have hceil := Nat.lt_floor_add_one floatIndex
  have hend : ⌊floatIndex⌋₊ < 90 := (Nat.floor_lt hindex).mpr (by exact_mod_cast hlt)
  have h₁ : ⌊floatIndex⌋₊ < positions.length := by
    rw [hlength, numberOfJumps]
    omega
  have h₂ : ⌊floatIndex⌋₊ + 1 < positions.length := by
    rw [hlength, numberOfJumps]
    omega
  rw [List.getElem?_eq_getElem h₁, List.getElem?_eq_getElem h₂]
  refine ⟨_, rfl, (h _ (List.getElem_mem h₁)).lerp (h _ (List.getElem_mem h₂)) ?_⟩
  exact easeWithGamma_mem ⟨by linarith, by linarith⟩ 4

/-! ## Frames -/

theorem time_mem (frame : ℕ) : 0 ≤ time frame ∧ time frame < 1 := by
  induction frame with
  | zero => norm_num [time]
  | succ frame ih =>
    obtain ⟨hlower, hupper⟩ := ih
    unfold time
    dsimp only
    split_ifs with h
    · constructor <;> linarith
    · rw [ge_iff_le, not_le] at h
      constructor <;> linarith

/-- What is chosen at random: the initial position and the draws. -/
structure Choices (screenWidth screenHeight : ℕ) where
  start : PVector
  draws : List Draw
  start_x : emptyMargin screenWidth screenHeight ≤ start.x ∧
    start.x ≤ screenWidth - emptyMargin screenWidth screenHeight
  start_y : emptyMargin screenWidth screenHeight ≤ start.y ∧
    start.y ≤ screenHeight - emptyMargin screenWidth screenHeight
  draws_length : draws.length = numberOfJumps

/-- `positions_`. -/
def Choices.positions (choices : Choices screenWidth screenHeight) : List PVector :=
  initializePositions screenWidth screenHeight choices.start choices.draws

theorem Choices.inBox (choices : Choices screenWidth screenHeight)
    (hroom : RoomFor c screenWidth screenHeight) :
    ∀ q ∈ choices.positions, InBox c screenWidth screenHeight q := by
  have hmargin := hroom.margin
  have hc := hroom.nonneg
  have hstart : InBox c screenWidth screenHeight choices.start := by
    obtain ⟨hx, hx'⟩ := choices.start_x
    obtain ⟨hy, hy'⟩ := choices.start_y
    constructor <;> constructor <;> linarith
  intro q hq
  rcases List.mem_cons.mp hq with rfl | hq
  · exact hstart
  · exact hstart.generatePath hroom choices.draws q hq

/-- Every dot, at whatever time a frame is drawn. -/
theorem Choices.getPosition_inBox (choices : Choices screenWidth screenHeight)
    (hroom : RoomFor c screenWidth screenHeight) {time : ℚ} (htime : 0 ≤ time ∧ time < 1) {dot : ℕ}
    (hdot : dot < dotCount) :
    ∃ q, getPosition choices.positions ((dot + time) / dotCount) = some q ∧ InBox c screenWidth screenHeight q := by
  have hlength : choices.positions.length = numberOfJumps + 1 := by
    rw [Choices.positions, initializePositions, List.length_cons, length_generatePath, choices.draws_length]
  refine InBox.getPosition (choices.inBox hroom) hlength ?_
  obtain ⟨hlower, hupper⟩ := htime
  have hdot' : (dot : ℚ) + 1 ≤ 50 := by exact_mod_cast hdot
  have hpos : (0 : ℚ) ≤ dot := Nat.cast_nonneg dot
  rw [dotCount]
  constructor
  · positivity
  · rw [div_lt_one (by norm_num)]
    push_cast
    linarith

/-- **Every dot of every frame**. -/
theorem Choices.dotPosition_inBox (choices : Choices screenWidth screenHeight)
    (hroom : RoomFor c screenWidth screenHeight) (frame : ℕ) {dot : ℕ} (hdot : dot < dotCount) :
    ∃ q, dotPosition choices.positions frame dot = some q ∧ InBox c screenWidth screenHeight q :=
  choices.getPosition_inBox hroom (time_mem frame) hdot

/-! ## Screens with room -/

theorem emptyMargin_le (screenWidth screenHeight : ℕ) :
    emptyMargin screenWidth screenHeight ≤ screenWidth * (1 / 10) ∧
      emptyMargin screenWidth screenHeight ≤ screenHeight * (1 / 10) := by
  have hwidth : ((min screenWidth screenHeight : ℕ) : ℚ) ≤ screenWidth := by exact_mod_cast min_le_left _ _
  have hheight : ((min screenWidth screenHeight : ℕ) : ℚ) ≤ screenHeight := by exact_mod_cast min_le_right _ _
  unfold emptyMargin
  constructor <;> linarith

/-- Nine tenths of each side are enough. -/
theorem roomFor {n : ℕ} (hc : 0 ≤ c ∧ c ≤ 1) (hn : 80 + c ≤ n * (9 / 10)) (hwidth : n ≤ screenWidth)
    (hheight : n ≤ screenHeight) : RoomFor c screenWidth screenHeight := by
  obtain ⟨hmargin, hmargin'⟩ := emptyMargin_le screenWidth screenHeight
  have hwidth' : (n : ℚ) ≤ screenWidth := by exact_mod_cast hwidth
  have hheight' : (n : ℚ) ≤ screenHeight := by exact_mod_cast hheight
  have hmin : (n : ℚ) ≤ (min screenWidth screenHeight : ℕ) := by exact_mod_cast le_min hwidth hheight
  constructor
  · exact hc.1
  · unfold emptyMargin
    linarith
  · linarith
  · linarith

structure OnScreen (screenWidth screenHeight : ℕ) (p : PVector) : Prop where
  x : 0 ≤ p.x ∧ p.x < screenWidth
  y : 0 ≤ p.y ∧ p.y < screenHeight

/-- The pixel of the position is on the screen. -/
structure PixelOnScreen (screenWidth screenHeight : ℕ) (p : PVector) : Prop where
  x : 0 ≤ pixel p.x ∧ pixel p.x < screenWidth
  y : 0 ≤ pixel p.y ∧ pixel p.y < screenHeight

theorem InBox.onScreen {p : PVector} (h : InBox 0 screenWidth screenHeight p) :
    OnScreen screenWidth screenHeight p :=
  ⟨by simpa using h.x, by simpa using h.y⟩

theorem pixel_mem {x : ℚ} {n : ℕ} (h : 0 ≤ x ∧ x < n - 1 / 2) : 0 ≤ pixel x ∧ pixel x < n := by
  unfold pixel
  constructor
  · rw [Int.floor_nonneg]
    linarith
  · rw [Int.floor_lt]
    push_cast
    linarith

theorem InBox.pixelOnScreen {p : PVector} (h : InBox (1 / 2) screenWidth screenHeight p) :
    PixelOnScreen screenWidth screenHeight p := ⟨pixel_mem h.x, pixel_mem h.y⟩

/-- All positions of the path are on the screen, and those of the dots in all frames. -/
def Choices.StaysOnScreen (choices : Choices screenWidth screenHeight) : Prop :=
  (∀ q ∈ choices.positions, OnScreen screenWidth screenHeight q) ∧
    ∀ frame, ∀ dot < dotCount, ∃ q, dotPosition choices.positions frame dot = some q ∧
      OnScreen screenWidth screenHeight q

/-- The pixels of the dots are on the screen in all frames. -/
def Choices.PixelsOnScreen (choices : Choices screenWidth screenHeight) : Prop :=
  ∀ frame, ∀ dot < dotCount, ∃ q, dotPosition choices.positions frame dot = some q ∧
    PixelOnScreen screenWidth screenHeight q

/-! ## Screens without -/

/-- A jump of 39.9 pixels. -/
def longJump (direction : Fin 8) : Draw where
  jumpLength := 399 / 10
  direction := direction
  jumpLength_mem := by norm_num
  direction_le := by omega

/-- Back towards the near edge, from behind the middle of `n` pixels, and on to behind the other edge. -/
theorem clampAxis_longJump {n : ℕ} (hn : n ≤ 89) :
    clampAxis (n * (137 / 250) - 399 / 10) (399 / 10) n (n * (1 / 10)) = n * (137 / 250) + 399 / 10 := by
  have hn' : (n : ℚ) ≤ 89 := by exact_mod_cast hn
  have hpos : (0 : ℚ) ≤ n := Nat.cast_nonneg n
  unfold clampAxis
  rw [if_neg (by linarith), if_pos (by linarith)]
  ring

/-- On the shorter axis, from behind the middle towards the near edge. -/
def thrownOut (screenWidth screenHeight : ℕ) : Choices screenWidth screenHeight where
  start :=
    if screenWidth ≤ screenHeight then ⟨screenWidth * (137 / 250), emptyMargin screenWidth screenHeight⟩
    else ⟨emptyMargin screenWidth screenHeight, screenHeight * (137 / 250)⟩
  draws := longJump (if screenWidth ≤ screenHeight then 1 else 3) :: List.replicate 89 (longJump 0)
  start_x := by
    obtain ⟨hmargin, -⟩ := emptyMargin_le screenWidth screenHeight
    have hpos : (0 : ℚ) ≤ screenWidth := Nat.cast_nonneg _
    split_ifs <;> constructor <;> (try dsimp only) <;> linarith
  start_y := by
    obtain ⟨-, hmargin⟩ := emptyMargin_le screenWidth screenHeight
    have hpos : (0 : ℚ) ≤ screenHeight := Nat.cast_nonneg _
    split_ifs <;> constructor <;> (try dsimp only) <;> linarith
  draws_length := by simp [numberOfJumps]

/-- The coordinate on the shorter axis. -/
def shortAxis (screenWidth screenHeight : ℕ) (p : PVector) : ℚ :=
  if screenWidth ≤ screenHeight then p.x else p.y

theorem OnScreen.shortAxis_lt {p : PVector} (h : OnScreen screenWidth screenHeight p) :
    shortAxis screenWidth screenHeight p < (min screenWidth screenHeight : ℕ) := by
  unfold shortAxis
  split_ifs with hle
  · rw [min_eq_left hle]
    exact h.x.2
  · rw [min_eq_right (not_le.mp hle).le]
    exact h.y.2

theorem PixelOnScreen.shortAxis_lt {p : PVector} (h : PixelOnScreen screenWidth screenHeight p) :
    shortAxis screenWidth screenHeight p + 1 / 2 < (min screenWidth screenHeight : ℕ) := by
  have hlt : ∀ {x : ℚ} {n : ℕ}, pixel x < n → x + 1 / 2 < n := by
    intro x n hx
    exact_mod_cast Int.floor_lt.mp hx
  unfold shortAxis
  split_ifs with hle
  · rw [min_eq_left hle]
    exact hlt h.x.2
  · rw [min_eq_right (not_le.mp hle).le]
    exact hlt h.y.2

/-- The first jump. -/
theorem thrownOut_positions (h : min screenWidth screenHeight ≤ 89) :
    ∃ p q rest, (thrownOut screenWidth screenHeight).positions = p :: q :: rest ∧
      shortAxis screenWidth screenHeight p = (min screenWidth screenHeight : ℕ) * (137 / 250) ∧
      shortAxis screenWidth screenHeight q = (min screenWidth screenHeight : ℕ) * (137 / 250) + 399 / 10 := by
  refine ⟨_, _, _, rfl, ?_⟩
  have hthrown := clampAxis_longJump h
  unfold thrownOut shortAxis
  by_cases hle : screenWidth ≤ screenHeight
  · rw [min_eq_left hle] at hthrown
    have hmargin : emptyMargin screenWidth screenHeight = screenWidth * (1 / 10) := by
      rw [emptyMargin, min_eq_left hle]
    simp only [hle, if_true, min_eq_left, hmargin]
    exact ⟨trivial, hthrown⟩
  · have hlt : screenHeight ≤ screenWidth := (not_le.mp hle).le
    rw [min_eq_right hlt] at hthrown
    have hmargin : emptyMargin screenWidth screenHeight = screenHeight * (1 / 10) := by
      rw [emptyMargin, min_eq_right hlt]
    simp only [hle, if_false, min_eq_right hlt, hmargin]
    exact ⟨trivial, hthrown⟩

/-! ## A frame on the way -/

theorem time_eq {frame : ℕ} (h : frame < 50) : time frame = frame / 50 := by
  induction frame with
  | zero => norm_num [time]
  | succ frame ih =>
    have hlt : ((frame : ℚ) + 1) < 50 := by exact_mod_cast h
    unfold time
    dsimp only
    rw [ih (by omega), if_neg (by linarith)]
    push_cast
    ring

/-- Shortly before the first dot reaches the second position. -/
theorem dotPosition_27 (p q : PVector) (rest : List PVector) :
    ∃ t, 9999 / 10000 ≤ t ∧ dotPosition (p :: q :: rest) 27 0 = some (lerp p q t) := by
  have htime : time 27 = 27 / 50 := by
    rw [time_eq (by norm_num)]
    norm_num
  have hindex : ((0 : ℕ) + time 27) / dotCount * numberOfJumps * (9999 / 10000) = 2429757 / 2500000 := by
    rw [htime]
    norm_num [dotCount, numberOfJumps]
  have hfloor : ⌊(2429757 / 2500000 : ℚ)⌋₊ = 0 := by
    rw [Nat.floor_eq_zero]
    norm_num
  refine ⟨easeWithGamma (2429757 / 2500000) 4, ?_, ?_⟩
  · norm_num [easeWithGamma]
  · unfold dotPosition getPosition
    dsimp only
    rw [hindex, hfloor]
    simp

theorem shortAxis_lerp (p q : PVector) (t : ℚ) : shortAxis screenWidth screenHeight (lerp p q t) =
    shortAxis screenWidth screenHeight p +
      (shortAxis screenWidth screenHeight q - shortAxis screenWidth screenHeight p) * t := by
  unfold shortAxis lerp
  split_ifs <;> rfl

/-! ## All screens -/

theorem Choices.staysOnScreen (choices : Choices screenWidth screenHeight) (hwidth : 89 ≤ screenWidth)
    (hheight : 89 ≤ screenHeight) : choices.StaysOnScreen := by
  have hroom : RoomFor 0 screenWidth screenHeight := roomFor (by norm_num) (by norm_num) hwidth hheight
  refine ⟨fun q hq => (choices.inBox hroom q hq).onScreen, ?_⟩
  intro frame dot hdot
  obtain ⟨q, hq, hbox⟩ := choices.dotPosition_inBox hroom frame hdot
  exact ⟨q, hq, hbox.onScreen⟩

theorem Choices.pixelsOnScreen (choices : Choices screenWidth screenHeight) (hwidth : 90 ≤ screenWidth)
    (hheight : 90 ≤ screenHeight) : choices.PixelsOnScreen := by
  have hroom : RoomFor (1 / 2) screenWidth screenHeight :=
    roomFor (by norm_num) (by norm_num) hwidth hheight
  intro frame dot hdot
  obtain ⟨q, hq, hbox⟩ := choices.dotPosition_inBox hroom frame hdot
  exact ⟨q, hq, hbox.pixelOnScreen⟩

theorem thrownOut_not_staysOnScreen (h : min screenWidth screenHeight ≤ 88) :
    ¬ (thrownOut screenWidth screenHeight).StaysOnScreen := by
  rintro ⟨hpositions, -⟩
  obtain ⟨p, q, rest, heq, -, hq⟩ := thrownOut_positions (h.trans (by norm_num))
  rw [heq] at hpositions
  have hlt := (hpositions q (by simp)).shortAxis_lt
  have hmin : ((min screenWidth screenHeight : ℕ) : ℚ) ≤ 88 := by exact_mod_cast h
  linarith

theorem thrownOut_not_pixelsOnScreen (h : min screenWidth screenHeight ≤ 89) :
    ¬ (thrownOut screenWidth screenHeight).PixelsOnScreen := by
  intro hpixels
  obtain ⟨p, q, rest, heq, hp, hq⟩ := thrownOut_positions h
  obtain ⟨t, ht, hdot⟩ := dotPosition_27 p q rest
  obtain ⟨q', hdot', hon⟩ := hpixels 27 0 (by norm_num [dotCount])
  rw [heq, hdot] at hdot'
  obtain rfl := Option.some.inj hdot'
  have hlt := hon.shortAxis_lt
  have hmin : ((min screenWidth screenHeight : ℕ) : ℚ) ≤ 89 := by exact_mod_cast h
  rw [shortAxis_lerp, hp, hq] at hlt
  linarith

/-- **The screens that no path leaves**: the positions stay on the screen exactly when it has 89 pixels or
more each way; the pixels do from 90 pixels on, since a position in the last half pixel is rounded up. -/
theorem dotPath_onScreen_iff (screenWidth screenHeight : ℕ) :
    ((∀ choices : Choices screenWidth screenHeight, choices.StaysOnScreen) ↔
        89 ≤ screenWidth ∧ 89 ≤ screenHeight) ∧
      ((∀ choices : Choices screenWidth screenHeight, choices.PixelsOnScreen) ↔
        90 ≤ screenWidth ∧ 90 ≤ screenHeight) := by
  constructor
  · constructor
    · intro hall
      by_contra hnot
      exact thrownOut_not_staysOnScreen (by omega) (hall (thrownOut screenWidth screenHeight))
    · exact fun h choices => choices.staysOnScreen h.1 h.2
  · constructor
    · intro hall
      by_contra hnot
      exact thrownOut_not_pixelsOnScreen (by omega) (hall (thrownOut screenWidth screenHeight))
    · exact fun h choices => choices.pixelsOnScreen h.1 h.2

/-- The screen of 128 by 32 pixels is left. -/
theorem leaves_128_32 : ¬ ∀ screenWidth screenHeight : ℕ, 32 ≤ screenWidth → 32 ≤ screenHeight →
    ∀ choices : Choices screenWidth screenHeight, choices.StaysOnScreen := by
  intro hall
  exact thrownOut_not_staysOnScreen (by norm_num) (hall 128 32 (by norm_num) (by norm_num) (thrownOut 128 32))

end EerieLeap.Views
