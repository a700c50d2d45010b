import EerieLeap.Controllers.DisplayState
import Mathlib.Algebra.Order.BigOperators.Group.List
import Mathlib.Algebra.Order.Ring.Int
import Mathlib.Data.Finset.Sort
import Mathlib.Data.List.Chain
import Mathlib.Data.String.Basic

/-!
# What the display shows

Seen from outside the display shows an animation, a message, or a bar of all its statuses, and what it shows
follows from the operations alone: by the calls of `Cfb` that they make. The bar has a cell for each status,
in the order of their texts, side by side and up to the right edge.

* `IsBar` : the cells of a bar;
* `runAlone_updateStatuses_bar` : the loop of `UpdateStatuses` draws one;
* `Display.step` : the display as it is seen;
* `display_shows` : what the controller shows after every sequence of operations.
-/

namespace EerieLeap.Controllers

open EerieLeap.Lib EerieLeap.Lib.Proc EerieLeap.Lib.History

/-! ## The status bar -/

/-- The place of a status on the screen. -/
structure Cell where
  status : String
  left : ℤ
  right : ℤ
  deriving DecidableEq

/-- A character takes `fontWidth` pixels, and there is one on either side. -/
def statusWidth (fontWidth : ℤ) (status : String) : ℤ := status.utf8ByteSize * fontWidth + 2

/-- The cells of the statuses, from `x` on. -/
def cellsFrom (fontWidth : ℤ) : List String → ℤ → List Cell
  | [], _ => []
  | s :: rest, x =>
    ⟨s, x, x + statusWidth fontWidth s⟩ :: cellsFrom fontWidth rest (x + statusWidth fontWidth s)

/-- The calls for the cells, of which every second one is inverted. -/
def drawnFrom (yRes fontHeight : ℤ) : ℕ → List Cell → List CfbCall
  | _, [] => []
  | i, c :: cells =>
    .printStringLine (cStr c.status) (c.left + 1) (yRes - fontHeight - 1) ::
      (if i % 2 ≠ 0 then [.invertArea c.left (yRes - fontHeight - 2) c.right yRes] else []) ++
      drawnFrom yRes fontHeight (i + 1) cells

/-- The width of all cells. -/
def barWidth (fontWidth : ℤ) (statuses : List String) : ℤ := (statuses.map (statusWidth fontWidth)).sum

/-- The cells of a bar lie side by side up to the right edge, or from the left edge on where they are too
wide. -/
structure IsBar (cfb : Cfb) (statuses : List String) (cells : List Cell) : Prop where
  statuses_eq : cells.map Cell.status = statuses
  width : ∀ c ∈ cells, c.right = c.left + statusWidth cfb.getFontWidth c.status
  beside : cells.IsChain fun c c' => c.right = c'.left
  left : ∀ c ∈ cells.head?, c.left = max 0 (cfb.xRes - barWidth cfb.getFontWidth statuses)
  right : ∀ c ∈ cells.getLast?, c.right = max (barWidth cfb.getFontWidth statuses) cfb.xRes

section Cells

variable (fontWidth : ℤ)

theorem map_status_cellsFrom (statuses : List String) (x : ℤ) :
    (cellsFrom fontWidth statuses x).map Cell.status = statuses := by
  induction statuses generalizing x with
  | nil => rfl
  | cons s rest ih => exact congrArg (s :: ·) (ih _)

theorem width_cellsFrom (statuses : List String) (x : ℤ) :
    ∀ c ∈ cellsFrom fontWidth statuses x, c.right = c.left + statusWidth fontWidth c.status := by
  induction statuses generalizing x with
  | nil => exact fun c hc => absurd hc List.not_mem_nil
  | cons s rest ih => exact List.forall_mem_cons.mpr ⟨rfl, ih _⟩

theorem head_cellsFrom (statuses : List String) (x : ℤ) :
    ∀ c ∈ (cellsFrom fontWidth statuses x).head?, c.left = x := by
  cases statuses with
  | nil => simp [cellsFrom]
  | cons s rest => simp [cellsFrom]

theorem beside_cellsFrom (statuses : List String) (x : ℤ) :
    (cellsFrom fontWidth statuses x).IsChain fun c c' => c.right = c'.left := by
  induction statuses generalizing x with
  | nil => exact .nil
  | cons s rest ih =>
    refine List.isChain_cons.mpr ⟨?_, ih _⟩
    exact fun c hc => (head_cellsFrom fontWidth rest _ c hc).symm

theorem barWidth_cons (s : String) (rest : List String) :
    barWidth fontWidth (s :: rest) = statusWidth fontWidth s + barWidth fontWidth rest := by
  simp [barWidth]

variable {fontWidth} in
theorem statusWidth_pos (hwidth : 0 ≤ fontWidth) (status : String) : 0 < statusWidth fontWidth status := by
  have hchars := mul_nonneg (Int.natCast_nonneg status.utf8ByteSize) hwidth
  unfold statusWidth
  omega

variable {fontWidth} in
theorem barWidth_nonneg (hwidth : 0 ≤ fontWidth) (statuses : List String) : 0 ≤ barWidth fontWidth statuses := by
  induction statuses with
  | nil => exact le_refl 0
  | cons s rest ih =>
    have hs := statusWidth_pos hwidth s
    rw [barWidth_cons]
    omega

variable {fontWidth} in
/-- The cells lie between where they begin and where they end. -/
theorem bounds_cellsFrom (hwidth : 0 ≤ fontWidth) (statuses : List String) (x : ℤ) :
    ∀ c ∈ cellsFrom fontWidth statuses x,
      x ≤ c.left ∧ c.left < c.right ∧ c.right ≤ x + barWidth fontWidth statuses := by
  induction statuses generalizing x with
  | nil => exact fun c hc => absurd hc List.not_mem_nil
  | cons s rest ih =>
    have hs := statusWidth_pos hwidth s
    have hrest := barWidth_nonneg hwidth rest
    rw [barWidth_cons]
    intro c hc
    rcases List.mem_cons.mp hc with rfl | hc
    · exact ⟨le_refl x, by dsimp only; omega, by dsimp only; omega⟩
    · obtain ⟨hleft, hlt, hright⟩ := ih (x + statusWidth fontWidth s) c hc
      exact ⟨by omega, hlt, by omega⟩

theorem getLast_cellsFrom (statuses : List String) (x : ℤ) :
    ∀ c ∈ (cellsFrom fontWidth statuses x).getLast?, c.right = x + barWidth fontWidth statuses := by
  induction statuses generalizing x with
  | nil => simp [cellsFrom]
  | cons s rest ih =>
    intro c hc
    rw [barWidth_cons, ← add_assoc]
    cases rest with
    | nil =>
      obtain rfl : _ = c := by simpa [cellsFrom] using hc
      simp [barWidth]
    | cons s' rest => exact ih _ c (by simpa [cellsFrom] using hc)

end Cells

theorem isBar_cellsFrom (cfb : Cfb) (statuses : List String) : IsBar cfb statuses
    (cellsFrom cfb.getFontWidth statuses (max 0 (cfb.xRes - barWidth cfb.getFontWidth statuses))) where
  statuses_eq := map_status_cellsFrom _ _ _
  width := width_cellsFrom _ _ _
  beside := beside_cellsFrom _ _ _
  left := head_cellsFrom _ _ _
  right c hc := by
    rw [getLast_cellsFrom _ _ _ c hc]
    omega

/-- Only the width of the display and of a character matter. -/
theorem IsBar.of_eq {cfb cfb' : Cfb} {statuses : List String} {cells : List Cell} (h : IsBar cfb statuses cells)
    (hx : cfb'.xRes = cfb.xRes) (hwidth : cfb'.getFontWidth = cfb.getFontWidth) : IsBar cfb' statuses cells where
  statuses_eq := h.statuses_eq
  width := by rw [hwidth]; exact h.width
  beside := h.beside
  left := by rw [hx, hwidth]; exact h.left
  right := by rw [hx, hwidth]; exact h.right

/-- The cells together are as wide as an `int` can say, and so are the texts. -/
structure BarFits (cfb : Cfb) (statuses : List String) : Prop where
  width_pos : 0 < cfb.getFontWidth
  width_lt : barWidth cfb.getFontWidth statuses < 2 ^ 31

/-! ## The loop draws the cells -/

theorem barWidth_eq (fontWidth : ℤ) (statuses : List String) : barWidth fontWidth statuses =
    (statuses.map fun s => (s.utf8ByteSize : ℤ)).sum * fontWidth + statuses.length * 1 * 2 := by
  induction statuses with
  | nil => simp [barWidth]
  | cons s rest ih =>
    rw [barWidth_cons, ih, List.map_cons, List.sum_cons, List.length_cons, statusWidth]
    push_cast
    ring

/-- **The sums** of `UpdateStatuses` are then those of `int`: of the lengths of the texts it has come to, and
of what is left and right of the cells. -/
theorem BarFits.sums {cfb : Cfb} {statuses : List String} (h : BarFits cfb statuses)
    (hx : 0 ≤ cfb.xRes ∧ cfb.xRes < 2 ^ 31) :
    (∀ past rest, statuses = past ++ rest → (past.map fun s => (s.utf8ByteSize : ℤ)).sum < 2 ^ 31) ∧
      ∀ c ∈ cellsFrom cfb.getFontWidth statuses (max 0 (cfb.xRes - barWidth cfb.getFontWidth statuses)),
        0 ≤ c.left ∧ c.left < c.right ∧ c.right < 2 ^ 31 := by
  have hwidth := h.width_pos.le
  have hlt := h.width_lt
  constructor
  · rintro past rest rfl
    have hsum : barWidth cfb.getFontWidth (past ++ rest) =
        barWidth cfb.getFontWidth past + barWidth cfb.getFontWidth rest := by
      simp [barWidth]
    have hrest := barWidth_nonneg hwidth rest
    have hpast := barWidth_eq cfb.getFontWidth past
    have hnonneg : 0 ≤ (past.map fun s => (s.utf8ByteSize : ℤ)).sum :=
      List.sum_nonneg fun n hn => by
        obtain ⟨s, -, rfl⟩ := List.mem_map.mp hn
        exact Int.natCast_nonneg _
    have hchars := le_mul_of_one_le_right hnonneg h.width_pos
    omega
  · intro c hc
    obtain ⟨hleft, hcell, hright⟩ := bounds_cellsFrom hwidth statuses _ c hc
    omega

theorem runAlone_drawStatuses_cells (statuses : List String) (x : ℤ) (i : ℕ) (d : DisplayController) :
    runAlone (drawStatuses 1 (d.cfb.yRes - d.cfb.getFontHeight - 1) statuses x i) d =
      (.ok (), d.called (drawnFrom d.cfb.yRes d.cfb.getFontHeight i (cellsFrom d.cfb.getFontWidth statuses x))) := by
  induction statuses generalizing x i d with
  | nil => simp [drawStatuses, cellsFrom, drawnFrom, DisplayController.called]; rfl
  | cons s rest ih =>
    let y := d.cfb.yRes - d.cfb.getFontHeight - 1
    let next := x + statusWidth d.cfb.getFontWidth s
    let line := CfbCall.printStringLine (cStr s) (x + 1) y
    let area := CfbCall.invertArea x (y - 1) next (y + d.cfb.getFontHeight + 1)
    have harea : area = .invertArea x (d.cfb.yRes - d.cfb.getFontHeight - 2) next d.cfb.yRes := by
      simp only [area, y]
      congr 1 <;> ring
    unfold drawStatuses onCfb
    rw [runAlone_write_bind, runAlone_read_bind]
    by_cases hi : i % 2 ≠ 0
    · rw [if_pos hi, runAlone_write_bind]
      refine (ih next (i + 1) ((d.called [line]).called [area])).trans ?_
      rw [DisplayController.called_called, DisplayController.called_called, cellsFrom, drawnFrom, if_pos hi, harea]
      rfl
    · rw [if_neg hi]
      refine (ih next (i + 1) (d.called [line])).trans ?_
      rw [DisplayController.called_called, cellsFrom, drawnFrom, if_neg hi]
      rfl

/-- The cells of the bar for the statuses of the controller. -/
def DisplayController.barCells (d : DisplayController) : List Cell :=
  cellsFrom d.cfb.getFontWidth d.statuses (max 0 (d.cfb.xRes - barWidth d.cfb.getFontWidth d.statuses))

/-- The calls that draw it. -/
def DisplayController.barCalls (d : DisplayController) : List CfbCall :=
  drawnFrom d.cfb.yRes d.cfb.getFontHeight 0 d.barCells

theorem DisplayController.stopped_cfb (d : DisplayController) : d.stopped.cfb.xRes = d.cfb.xRes ∧
    d.stopped.cfb.yRes = d.cfb.yRes ∧ d.stopped.cfb.getFontWidth = d.cfb.getFontWidth ∧
    d.stopped.cfb.getFontHeight = d.cfb.getFontHeight := by
  unfold stopped
  split <;> exact ⟨rfl, rfl, rfl, rfl⟩

/-- **`UpdateStatuses`** with statuses draws the bar. -/
theorem runAlone_updateStatuses_bar {d : DisplayController} (hinit : d.isInitialized = true)
    (h : d.statuses ≠ []) : runAlone updateStatuses d =
      (.ok (), d.stopped.called (.clear :: d.barCalls ++ [.flush])) := by
  unfold updateStatuses
  rw [runAlone_read_bind, hinit]
  simp only [Bool.not_true, Bool.false_eq_true, if_false]
  rw [runAlone_read_bind, if_neg h, runAlone_read_bind, runAlone_bind, runAlone_stopAnimation]
  obtain ⟨-, hy, hwidth, hheight⟩ := d.stopped_cfb
  let cleared : DisplayController := d.stopped.called [.clear]
  have hrun := runAlone_drawStatuses_cells d.statuses
    (max 0 (d.cfb.xRes - barWidth d.cfb.getFontWidth d.statuses)) 0 cleared
  rw [show cleared.cfb.yRes = d.cfb.yRes from hy, show cleared.cfb.getFontHeight = d.cfb.getFontHeight from hheight,
    show cleared.cfb.getFontWidth = d.cfb.getFontWidth from hwidth] at hrun
  dsimp only
  rw [runAlone_call_bind, runAlone_bind, ← barWidth_eq, hrun]
  dsimp only
  rw [runAlone_call, DisplayController.called_called, DisplayController.called_called]
  rfl

/-! ## The display as it is seen -/

/-- What is on the screen; nothing is drawn while the display is off and after an animation was stopped. -/
inductive Picture
  | idle
  | animation (kind : AnimationKind)
  | message (str : String)
  | bar
  deriving DecidableEq

/-- Whether there is a display, whether it is on, the animation chosen last, the statuses, and the picture. -/
structure Display where
  present : Bool
  on : Bool
  chosen : AnimationKind
  statuses : Finset String
  picture : Picture

namespace Display

/-- Before any operation. -/
def dark (present : Bool) : Display := ⟨present, false, .waveLines, ∅, .idle⟩

variable (D : Display)

/-- The animation for an index; a negative one stands for the animation chosen last. -/
def kindOf? (animationIndex : ℤ) : Option AnimationKind :=
  if animationIndex < 0 then some D.chosen else (Animation.make? animationIndex).map Animation.kind

/-- An animation that is known is shown, whatever is on the screen. -/
def animate (kind? : Option AnimationKind) : Display :=
  match kind? with
  | some kind => { D with chosen := kind, picture := .animation kind }
  | none => D

/-- The bar is shown while there are statuses, and else the animation. -/
def withStatuses (statuses : Finset String) : Display :=
  { D with statuses := statuses, picture := if statuses = ∅ then .animation D.chosen else .bar }

/-- An animation is stopped. -/
def stop : Display :=
  match D.picture with
  | .animation _ => { D with picture := .idle }
  | .idle | .message _ | .bar => D

/-- An operation on a display that is on. -/
def change : DisplayOperation → Display
  | .initializeDisplay => D
  | .startAnimation animationIndex => D.animate (D.kindOf? animationIndex)
  | .stopAnimation => D.stop
  | .printStringLine str => { D with picture := .message str }
  | .addStatus status => D.withStatuses (insert status D.statuses)
  | .removeStatus status => D.withStatuses (D.statuses.erase status)
  | .clearStatuses => D.withStatuses ∅

/-- An operation; a display that is off can only be switched on. -/
def step (operation : DisplayOperation) : Display :=
  if D.on then D.change operation
  else
    match operation with
    | .initializeDisplay =>
      if D.present then { D with on := true, chosen := .waveLines, picture := .animation .waveLines } else D
    | .startAnimation _ | .stopAnimation | .printStringLine _ | .addStatus _ | .removeStatus _
    | .clearStatuses => D

variable {D}

theorem step_on (h : D.on = true) (operation : DisplayOperation) : D.step operation = D.change operation := by
  unfold step
  rw [if_pos h]

theorem step_off (h : D.on = false) {operation : DisplayOperation} (hother : operation ≠ .initializeDisplay) :
    D.step operation = D := by
  unfold step
  rw [h, if_neg Bool.false_ne_true]
  cases operation with
  | initializeDisplay => exact absurd rfl hother
  | _ => rfl

end Display

/-! ## The set of the statuses -/

/-- A list in increasing order is that of its elements. -/
theorem eq_sort {l : List String} {S : Finset String} (hlt : l.Pairwise (· < ·)) (hmem : ∀ s, s ∈ l ↔ s ∈ S) :
    l = S.sort := by
  have hS : l.toFinset = S := by
    ext s
    rw [List.mem_toFinset, hmem]
  have hnodup : l.Nodup := hlt.imp fun h => h.ne
  rw [← hS]
  exact ((List.toFinset_sort (· ≤ ·) hnodup).mpr (hlt.imp fun h => h.le)).symm

theorem pairwise_insertStatus {l : List String} (h : l.Pairwise (· < ·)) (status : String) :
    (insertStatus status l).Pairwise (· < ·) := by
  induction l with
  | nil => exact List.pairwise_singleton _ _
  | cons s rest ih =>
    obtain ⟨hs, hrest⟩ := List.pairwise_cons.mp h
    unfold insertStatus
    split_ifs with hlt heq
    · refine List.pairwise_cons.mpr ⟨?_, h⟩
      exact List.forall_mem_cons.mpr ⟨hlt, fun s' hs' => hlt.trans (hs s' hs')⟩
    · exact h
    · refine List.pairwise_cons.mpr ⟨?_, ih hrest⟩
      intro s' hs'
      rcases (mem_insertStatus status s' rest).mp hs' with rfl | hs'
      · exact lt_of_le_of_ne (not_lt.mp hlt) (Ne.symm heq)
      · exact hs s' hs'

theorem insertStatus_sort (S : Finset String) (status : String) :
    insertStatus status S.sort = (insert status S).sort := by
  refine eq_sort (pairwise_insertStatus S.sortedLT_sort.pairwise status) ?_
  intro s
  rw [mem_insertStatus, Finset.mem_sort, Finset.mem_insert]

theorem eraseStatus_sort (S : Finset String) (status : String) :
    eraseStatus status S.sort = (S.erase status).sort := by
  refine eq_sort (S.sortedLT_sort.pairwise.filter _) ?_
  intro s
  rw [mem_eraseStatus, Finset.mem_sort, Finset.mem_erase, and_comm]

/-! ## The controller shows what is seen -/

namespace DisplayController

/-- The controller shows the picture: the last calls of `Cfb` have drawn it, or it is left to the handler. -/
def ShowsPicture (d : DisplayController) : Picture → Prop
  | .idle => d.cfb.animating = false
  | .animation kind => d.cfb.animating = true ∧ d.animation = some ⟨kind, true⟩
  | .message str => d.cfb.animating = false ∧ [.clear, .printString (cStr str) 0 0, .flush] <:+ d.cfb.calls
  | .bar => d.cfb.animating = false ∧ (BarFits d.cfb d.statuses → ∃ cells, IsBar d.cfb d.statuses cells ∧
      .clear :: drawnFrom d.cfb.yRes d.cfb.getFontHeight 0 cells ++ [.flush] <:+ d.cfb.calls)

/-- The controller has the state of the display, whatever is on the screen. -/
structure Holds (d : DisplayController) (D : Display) : Prop where
  ready : d.Ready
  present : d.hasCfb = D.present
  on : d.isInitialized = D.on
  chosen : Animation.make? d.currentAnimationIndex = some ⟨D.chosen, false⟩
  statuses : d.statuses = D.statuses.sort

/-- It shows it, too. -/
structure Shows (d : DisplayController) (D : Display) : Prop extends Holds d D where
  picture : d.ShowsPicture D.picture

theorem shows_construct (hasCfb : Bool) {cfb : Cfb} (h : cfb.animating = false) :
    (construct hasCfb cfb).Shows (.dark hasCfb) where
  ready := .construct hasCfb h
  present := rfl
  on := rfl
  chosen := rfl
  statuses := (Finset.sort_empty _).symm
  picture := h

/-- The animation that `make?` makes is not initialised yet. -/
theorem make?_initialized {animationIndex : ℤ} {animation : Animation}
    (h : Animation.make? animationIndex = some animation) : animation = ⟨animation.kind, false⟩ := by
  unfold Animation.make? at h
  split_ifs at h <;> · obtain rfl := Option.some.inj h; rfl

variable {d : DisplayController} {D : Display}

theorem Holds.make?_chosenIndex (h : d.Holds D) (animationIndex : ℤ) :
    (Animation.make? (d.chosenIndex animationIndex)).map Animation.kind = D.kindOf? animationIndex := by
  unfold chosenIndex Display.kindOf?
  split
  · rw [h.chosen]
    rfl
  · rfl

/-- `StartAnimation` with an animation that is known. -/
theorem Holds.started (h : d.Holds D) (hon : D.on = true) {animationIndex : ℤ} {kind : AnimationKind}
    (hkind : D.kindOf? animationIndex = some kind) :
    (d.started animationIndex).Shows { D with chosen := kind, picture := .animation kind } := by
  obtain ⟨animation, hmake, rfl⟩ := Option.map_eq_some_iff.mp ((h.make?_chosenIndex animationIndex).trans hkind)
  have hready := h.ready.started animationIndex
  have heq : d.started animationIndex = { d with
      cfb := (d.cfb.setAnimationHandler 30).startAnimation
      animation := some animation.initializeAnimation
      isAnimationInProgress := true
      currentAnimationIndex := d.chosenIndex animationIndex } := by
    unfold DisplayController.started
    rw [if_pos (h.on.trans hon), hmake]
  rw [heq] at hready ⊢
  have hanimation := make?_initialized hmake
  refine ⟨⟨hready, h.present, h.on, hmake.trans (congrArg some hanimation), h.statuses⟩, rfl, ?_⟩
  show some animation.initializeAnimation = some ⟨animation.kind, true⟩
  rw [hanimation]
  rfl

/-- `StartAnimation`, whatever the index. -/
theorem Shows.started (h : d.Shows D) (hon : D.on = true) (animationIndex : ℤ) :
    (d.started animationIndex).Shows (D.animate (D.kindOf? animationIndex)) := by
  cases hkind : D.kindOf? animationIndex with
  | some kind => exact h.toHolds.started hon hkind
  | none =>
    have hmake := Option.map_eq_none_iff.mp ((h.make?_chosenIndex animationIndex).trans hkind)
    have heq : d.started animationIndex = d := by
      unfold DisplayController.started
      rw [hmake, ite_self]
    rw [heq]
    exact h

theorem Holds.stopped (h : d.Holds D) : d.stopped.Holds D := by
  have hready := h.ready.stopped.1
  unfold DisplayController.stopped at hready ⊢
  split
  · rename_i hrunning
    rw [if_pos hrunning] at hready
    exact ⟨hready, h.present, h.on, h.chosen, h.statuses⟩
  · exact h

theorem Ready.stopped_eq (h : d.Ready) (hidle : d.cfb.animating = false) : d.stopped = d := by
  unfold DisplayController.stopped
  rw [← h.animating, hidle, Bool.and_false, if_neg Bool.false_ne_true]

/-- `StopAnimation`. -/
theorem Shows.stopped (h : d.Shows D) : d.stopped.Shows D.stop := by
  have hpicture := h.picture
  unfold Display.stop
  cases hD : D.picture with
  | animation kind =>
    obtain ⟨hready, hpresent, hon, hchosen, hstatuses⟩ := h.toHolds.stopped
    exact ⟨⟨hready, hpresent, hon, hchosen, hstatuses⟩, h.ready.stopped.2.1⟩
  | idle =>
    rw [hD] at hpicture
    rw [h.ready.stopped_eq hpicture]
    exact h
  | message str =>
    rw [hD] at hpicture
    rw [h.ready.stopped_eq hpicture.1]
    exact h
  | bar =>
    rw [hD] at hpicture
    rw [h.ready.stopped_eq hpicture.1]
    exact h

/-- `PrintStringLine`. -/
theorem Holds.message (h : d.Holds D) (str : String) :
    (d.stopped.called [.clear, .printString (cStr str) 0 0, .flush]).Shows { D with picture := .message str } := by
  obtain ⟨hready, hpresent, hon, hchosen, hstatuses⟩ := h.stopped
  exact ⟨⟨Ready.stable.called _ _ hready, hpresent, hon, hchosen, hstatuses⟩, h.ready.stopped.2.1,
    List.suffix_append _ _⟩

/-- `UpdateStatuses`, once the statuses are changed. -/
theorem Holds.updateStatuses (h : d.Holds D) (hon : D.on = true) :
    (runAlone Controllers.updateStatuses d).2.Shows (D.withStatuses D.statuses) := by
  have hinit : d.isInitialized = true := h.on.trans hon
  unfold Display.withStatuses
  by_cases hempty : D.statuses = ∅
  · have hnil : d.statuses = [] := by rw [h.statuses, hempty, Finset.sort_empty]
    rw [runAlone_updateStatuses_nil hinit hnil, if_pos hempty]
    exact h.started hon rfl
  · have hne : d.statuses ≠ [] := by
      rw [h.statuses]
      intro hnil
      exact hempty (by rw [← Finset.sort_toFinset (r := (· ≤ ·)) (s := D.statuses), hnil, List.toFinset_nil])
    rw [runAlone_updateStatuses_bar hinit hne, if_neg hempty]
    obtain ⟨hready, hpresent, hon, hchosen, hstatuses⟩ := h.stopped
    refine ⟨⟨Ready.stable.called _ _ hready, hpresent, hon, hchosen, hstatuses⟩, h.ready.stopped.2.1,
      fun _ => ⟨d.barCells, ?_⟩⟩
    obtain ⟨hx, hy, hwidth, hheight⟩ := d.stopped_cfb
    have hbar : IsBar d.stopped.cfb d.stopped.statuses d.barCells := by
      rw [d.stopped_statuses.1]
      exact (isBar_cellsFrom d.cfb d.statuses).of_eq hx hwidth
    have hdrawn : d.barCalls = drawnFrom d.stopped.cfb.yRes d.stopped.cfb.getFontHeight 0 d.barCells := by
      rw [hy, hheight, barCalls]
    rw [hdrawn]
    exact ⟨hbar.of_eq rfl rfl, List.suffix_append _ _⟩

/-- An operation that changes the statuses. -/
theorem Shows.setStatuses (h : d.Shows D) (hon : D.on = true) {statuses : List String} {S : Finset String}
    (hS : statuses = S.sort) :
    (runAlone Controllers.updateStatuses (d.withStatuses statuses)).2.Shows (D.withStatuses S) := by
  have hholds : (d.withStatuses statuses).Holds { D with statuses := S } :=
    ⟨h.ready.withStatuses statuses, h.present, h.on, h.chosen, hS⟩
  exact hholds.updateStatuses hon

/-- **An operation** on a display that is on. -/
theorem Shows.change (h : d.Shows D) (hon : D.on = true) (operation : DisplayOperation) :
    (d.perform operation).Shows (D.change operation) := by
  have hinit : d.isInitialized = true := h.on.trans hon
  cases operation with
  | initializeDisplay =>
    have heq : d.perform .initializeDisplay = d := by
      show (runAlone Controllers.initializeDisplay d).2 = d
      unfold Controllers.initializeDisplay
      rw [runAlone_read_bind, hinit, Bool.or_true, if_pos rfl]
      rfl
    rw [heq]
    exact h
  | startAnimation animationIndex =>
    show (runAlone (Controllers.startAnimation animationIndex) d).2.Shows _
    rw [runAlone_startAnimation]
    exact h.started hon animationIndex
  | stopAnimation =>
    show (runAlone Controllers.stopAnimation d).2.Shows _
    rw [runAlone_stopAnimation]
    exact h.stopped
  | printStringLine str =>
    show (runAlone (Controllers.printStringLine str) d).2.Shows _
    rw [runAlone_printStringLine hinit]
    exact h.message str
  | addStatus status =>
    show (runAlone (addStatus status) d).2.Shows _
    rw [runAlone_addStatus hinit]
    exact h.setStatuses hon (by rw [h.statuses, insertStatus_sort])
  | removeStatus status =>
    show (runAlone (removeStatus status) d).2.Shows _
    rw [runAlone_removeStatus hinit]
    exact h.setStatuses hon (by rw [h.statuses, eraseStatus_sort])
  | clearStatuses =>
    show (runAlone clearStatuses d).2.Shows _
    rw [runAlone_clearStatuses hinit]
    exact h.setStatuses hon (Finset.sort_empty _).symm

/-- `Initialize` on a display that is off. -/
theorem Shows.initialize (h : d.Shows D) (hoff : D.on = false) :
    (d.perform .initializeDisplay).Shows (D.step .initializeDisplay) := by
  have hinit : d.isInitialized = false := h.on.trans hoff
  show (runAlone Controllers.initializeDisplay d).2.Shows _
  unfold Controllers.initializeDisplay Display.step onCfb
  rw [runAlone_read_bind, hinit, h.present, hoff, if_neg Bool.false_ne_true]
  cases hpresent : D.present with
  | true =>
    simp only [Bool.not_true, Bool.or_false, Bool.false_eq_true, if_false, if_true]
    rw [runAlone_write_bind, runAlone_write_bind, runAlone_startAnimation]
    have hholds : d.switchedOn.Holds { D with on := true } :=
      ⟨Ready.stable.switchedOn d h.ready, h.present, rfl, h.chosen, h.statuses⟩
    have hkind : ({ D with on := true } : Display).kindOf? 0 = some .waveLines := rfl
    have hshows := hholds.started rfl hkind
    rwa [hpresent] at hshows
  | false =>
    exact h

/-- A display that is off cannot be told anything else. -/
theorem perform_off (hoff : d.isInitialized = false) {operation : DisplayOperation}
    (hother : operation ≠ .initializeDisplay) : d.perform operation = d := by
  have hguard : ∀ {x : Operation}, (runAlone (do
      if ← .read fun d => !d.isInitialized then
        return
      else
        x : Operation) d).2 = d := by
    intro x
    rw [runAlone_read_bind, hoff]
    rfl
  cases operation with
  | initializeDisplay => exact absurd rfl hother
  | startAnimation animationIndex => exact hguard
  | stopAnimation => exact hguard
  | printStringLine str => exact hguard
  | addStatus status => exact hguard
  | removeStatus status => exact hguard
  | clearStatuses => exact hguard

/-- **Every operation**. -/
theorem Shows.step (h : d.Shows D) (operation : DisplayOperation) :
    (d.perform operation).Shows (D.step operation) := by
  cases hon : D.on with
  | true =>
    rw [Display.step_on hon]
    exact h.change hon operation
  | false =>
    rcases eq_or_ne operation .initializeDisplay with rfl | hother
    · exact h.initialize hon
    · rw [perform_off (h.on.trans hon) hother, Display.step_off hon hother]
      exact h

/-- **What the display shows**: after every sequence of operations the controller shows what is seen. -/
theorem display_shows (hasCfb : Bool) {cfb : Cfb} (h : cfb.animating = false)
    (operations : List DisplayOperation) :
    (operations.foldl perform (construct hasCfb cfb)).Shows (operations.foldl Display.step (.dark hasCfb)) := by
  have hrun : ∀ {d : DisplayController} {D : Display}, d.Shows D →
      (operations.foldl perform d).Shows (operations.foldl Display.step D) := by
    induction operations with
    | nil => exact id
    | cons operation operations ih => exact fun hd => ih (hd.step operation)
  exact hrun (shows_construct hasCfb h)

/-- Two statuses on a display of 128 by 64 pixels. -/
theorem twoStatuses_shown :
    let d := [.initializeDisplay, .addStatus "log", .addStatus "can"].foldl perform (construct true someCfb)
    ∃ cells, IsBar d.cfb ["can", "log"] cells ∧ .clear :: drawnFrom 64 8 0 cells ++ [.flush] <:+ d.cfb.calls := by
  intro d
  have hshows : d.Shows ([.initializeDisplay, .addStatus "log", .addStatus "can"].foldl Display.step (.dark true)) :=
    display_shows true rfl _
  have hstatuses : d.statuses = ["can", "log"] := by decide
  obtain ⟨cells, hbar, hcalls⟩ := hshows.picture.2 ⟨by decide, by decide⟩
  rw [hstatuses] at hbar
  exact ⟨cells, hbar, hcalls⟩

end DisplayController

end EerieLeap.Controllers
