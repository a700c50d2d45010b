import EerieLeap.Lib.Proc
import Mathlib.Algebra.Ring.Int.Defs

/-!
# The display controller

`DisplayController` shows either an animation or the set of statuses. Its operations are programs cut
into their statements, since the framebuffer `Cfb` calls the animation handler on a thread of its own.
`Cfb` is not part of the sources: what is kept of it is its font, whether it may call the handler, and
the calls by which the operations have drawn. What such a call puts on the screen is not modelled.

* `runAlone_startAnimation`, `runAlone_stopAnimation`, `runAlone_updateStatuses` : what an operation
  does when its statements are taken together;
* `Stable.perform` : what the parts of the operations keep, every operation keeps;
* `Ready` : what holds between operations.
-/

namespace EerieLeap.Controllers

open EerieLeap.Lib EerieLeap.Lib.Proc

/-! ## The framebuffer -/

/-- A call that clears, draws or shows what has been drawn. -/
inductive CfbCall
  | clear
  | printString (str : String) (x y : ℤ)
  | printStringLine (str : String) (x y : ℤ)
  | invertArea (x₀ y₀ x₁ y₁ : ℤ)
  | flush
deriving DecidableEq

/-- `s.c_str()`, as one who reads it to the first zero has it. -/
def cStr (s : String) : String := String.ofList (s.toList.takeWhile fun c => c.toNat ≠ 0)

/-- `animating` from the call of `StartAnimation` until `StopAnimation` returns: the handler may be called
at any moment meanwhile. `calls` are the calls so far. -/
structure Cfb where
  xRes : ℤ
  yRes : ℤ
  fontSize : ℕ → ℤ × ℤ
  font : ℕ
  animationPeriod : Option ℕ
  animating : Bool
  calls : List CfbCall

namespace Cfb

variable (cfb : Cfb)

def getFontWidth : ℤ := (cfb.fontSize cfb.font).1

def getFontHeight : ℤ := (cfb.fontSize cfb.font).2

def setFont (font : ℕ) : Cfb := { cfb with font := font }

/-- `SetAnimationHandler`; there is only one handler. -/
def setAnimationHandler (period : ℕ) : Cfb := { cfb with animationPeriod := some period }

def startAnimation : Cfb := { cfb with animating := true }

def stopAnimation : Cfb := { cfb with animating := false }

def call (c : CfbCall) : Cfb := { cfb with calls := cfb.calls ++ [c] }

end Cfb

/-- A framebuffer of 128 by 64 pixels. -/
def someCfb : Cfb := ⟨128, 64, fun _ => (8, 8), 0, none, false, []⟩

/-! ## The controller -/

inductive AnimationKind
  | waveLines
  | dotPath
  | particles
  | taperedWave
deriving DecidableEq

/-- An `IAnimation`, and whether its `Initialize` has completed. -/
structure Animation where
  kind : AnimationKind
  initialized : Bool
deriving DecidableEq

/-- The `switch` of `StartAnimation`. -/
def Animation.make? (animationIndex : ℤ) : Option Animation :=
  if animationIndex = 0 then some ⟨.waveLines, false⟩
  else if animationIndex = 1 then some ⟨.dotPath, false⟩
  else if animationIndex = 2 then some ⟨.particles, false⟩
  else if animationIndex = 3 then some ⟨.taperedWave, false⟩
  else none

/-- `Initialize` has completed. -/
def Animation.initializeAnimation (animation : Animation) : Animation := { animation with initialized := true }

/-- `hasCfb` is false where `cfb_` is null, and `statuses` in the order of the set. -/
structure DisplayController where
  hasCfb : Bool
  cfb : Cfb
  animation : Option Animation
  currentAnimationIndex : ℤ
  isAnimationInProgress : Bool
  statuses : List String
  isInitialized : Bool

/-- `DisplayController(cfb)`. -/
def DisplayController.construct (hasCfb : Bool) (cfb : Cfb) : DisplayController where
  hasCfb := hasCfb
  cfb := cfb
  animation := none
  currentAnimationIndex := 0
  isAnimationInProgress := false
  statuses := []
  isInitialized := false

/-- `statuses_.insert(status)`. -/
def insertStatus (status : String) : List String → List String
  | [] => [status]
  | s :: rest =>
    if status < s then status :: s :: rest
    else if status = s then s :: rest
    else s :: insertStatus status rest

/-- `statuses_.erase(status)`. -/
def eraseStatus (status : String) (statuses : List String) : List String :=
  statuses.filter fun s => s ≠ status

abbrev Operation := Proc DisplayController Empty Unit

def onCfb (f : Cfb → Cfb) : Operation := .write fun d => { d with cfb := f d.cfb }

/-- The index of the animation that `StartAnimation` is to start. -/
def DisplayController.chosenIndex (d : DisplayController) (animationIndex : ℤ) : ℤ :=
  if animationIndex < 0 then d.currentAnimationIndex else animationIndex

def startAnimation (animationIndex : ℤ) : Operation := do
  if ← .read fun d => !d.isInitialized then
    return
  else
    let animationIndex ← .read fun d => d.chosenIndex animationIndex
    match Animation.make? animationIndex with
    | none => return
    | some animation =>
      .write fun d => { d with animation := some animation }
      .write fun d => { d with animation := d.animation.map Animation.initializeAnimation }
      onCfb fun cfb => cfb.setAnimationHandler 30
      onCfb Cfb.startAnimation
      .write fun d => { d with isAnimationInProgress := true }
      .write fun d => { d with currentAnimationIndex := animationIndex }

/-- `DisplayController::Initialize`. -/
def initializeDisplay : Operation := do
  if ← .read fun d => !d.hasCfb || d.isInitialized then
    return
  else
    onCfb fun cfb => cfb.setFont 0
    .write fun d => { d with isInitialized := true }
    startAnimation 0

def stopAnimation : Operation := do
  if ← .read fun d => !d.isInitialized then
    return
  else if ← .read fun d => !d.isAnimationInProgress then
    return
  else
    onCfb Cfb.stopAnimation
    .write fun d => { d with animation := none }
    .write fun d => { d with isAnimationInProgress := false }

def printStringLine (str : String) : Operation := do
  if ← .read fun d => !d.isInitialized then
    return
  else
    stopAnimation
    onCfb fun cfb => cfb.call .clear
    onCfb fun cfb => cfb.call (.printString (cStr str) 0 0)
    onCfb fun cfb => cfb.call .flush

/-- The loop of `UpdateStatuses` over the statuses. -/
def drawStatuses (padding y : ℤ) : List String → ℤ → ℕ → Operation
  | [], _, _ => return
  | s :: rest, currentX, i => do
    onCfb fun cfb => cfb.call (.printStringLine (cStr s) (currentX + padding) y)
    let currentLength ← .read fun d => s.utf8ByteSize * d.cfb.getFontWidth + padding * 2
    if i % 2 ≠ 0 then
      onCfb fun cfb => cfb.call
        (.invertArea currentX (y - padding) (currentX + currentLength) (y + cfb.getFontHeight + padding))
    drawStatuses padding y rest (currentX + currentLength) (i + 1)

def updateStatuses : Operation := do
  if ← .read fun d => !d.isInitialized then
    return
  else
    let statuses ← .read (·.statuses)
    if statuses = [] then
      startAnimation (-1)
    else
      let lengthChars : ℤ := (statuses.map fun s => (s.utf8ByteSize : ℤ)).sum
      let padding : ℤ := 1
      let cfb ← .read (·.cfb)
      let length := lengthChars * cfb.getFontWidth + statuses.length * padding * 2
      let startX := max 0 (cfb.xRes - length)
      let y := cfb.yRes - cfb.getFontHeight - padding
      stopAnimation
      onCfb fun cfb => cfb.call .clear
      drawStatuses padding y statuses startX 0
      onCfb fun cfb => cfb.call .flush

def addStatus (status : String) : Operation := do
  if ← .read fun d => !d.isInitialized then
    return
  else
    .write fun d => { d with statuses := insertStatus status d.statuses }
    updateStatuses

def removeStatus (status : String) : Operation := do
  if ← .read fun d => !d.isInitialized then
    return
  else
    .write fun d => { d with statuses := eraseStatus status d.statuses }
    updateStatuses

def clearStatuses : Operation := do
  if ← .read fun d => !d.isInitialized then
    return
  else
    .write fun d => { d with statuses := [] }
    updateStatuses

/-- The public operations. -/
inductive DisplayOperation
  | initializeDisplay
  | startAnimation (animationIndex : ℤ)
  | stopAnimation
  | printStringLine (str : String)
  | addStatus (status : String)
  | removeStatus (status : String)
  | clearStatuses

def DisplayOperation.program : DisplayOperation → Operation
  | .initializeDisplay => Controllers.initializeDisplay
  | .startAnimation animationIndex => Controllers.startAnimation animationIndex
  | .stopAnimation => Controllers.stopAnimation
  | .printStringLine str => Controllers.printStringLine str
  | .addStatus status => Controllers.addStatus status
  | .removeStatus status => Controllers.removeStatus status
  | .clearStatuses => Controllers.clearStatuses

/-! ## The operations, their statements taken together -/

namespace DisplayController

variable (d : DisplayController)

/-- After the first statements of `Initialize`. -/
def switchedOn : DisplayController := { d with cfb := d.cfb.setFont 0, isInitialized := true }

/-- After `StartAnimation`. -/
def started (animationIndex : ℤ) : DisplayController :=
  if d.isInitialized then
    match Animation.make? (d.chosenIndex animationIndex) with
    | none => d
    | some animation =>
      { d with
        cfb := (d.cfb.setAnimationHandler 30).startAnimation
        animation := some animation.initializeAnimation
        isAnimationInProgress := true
        currentAnimationIndex := d.chosenIndex animationIndex }
  else d

/-- After `StopAnimation`. -/
def stopped : DisplayController :=
  if d.isInitialized && d.isAnimationInProgress then
    { d with cfb := d.cfb.stopAnimation, animation := none, isAnimationInProgress := false }
  else d

end DisplayController

theorem runAlone_startAnimation (animationIndex : ℤ) (d : DisplayController) :
    runAlone (startAnimation animationIndex) d = (.ok (), d.started animationIndex) := by
  obtain ⟨hasCfb, cfb, animation, index, inProgress, statuses, isInitialized⟩ := d
  unfold startAnimation DisplayController.started
  rw [runAlone_read_bind]
  cases isInitialized with
  | false => rfl
  | true =>
    simp only [Bool.not_true, Bool.false_eq_true, if_false, if_true]
    rw [runAlone_read_bind]
    generalize DisplayController.chosenIndex _ animationIndex = chosen
    cases Animation.make? chosen with
    | none => rfl
    | some animation => rfl

theorem runAlone_stopAnimation (d : DisplayController) :
    runAlone stopAnimation d = (.ok (), d.stopped) := by
  obtain ⟨hasCfb, cfb, animation, index, inProgress, statuses, isInitialized⟩ := d
  cases isInitialized with
  | false => rfl
  | true => cases inProgress <;> rfl

/-- The text of a status that is drawn. -/
def CfbCall.status? : CfbCall → Option String
  | .printStringLine str _ _ => some str
  | .clear | .printString _ _ _ | .invertArea _ _ _ _ | .flush => none

/-- More calls have been made. -/
def DisplayController.called (d : DisplayController) (calls : List CfbCall) : DisplayController :=
  { d with cfb := { d.cfb with calls := d.cfb.calls ++ calls } }

theorem DisplayController.called_called (d : DisplayController) (calls calls' : List CfbCall) :
    (d.called calls).called calls' = d.called (calls ++ calls') := by
  simp [called]

theorem runAlone_call_bind (c : CfbCall) (f : Unit → Operation) (d : DisplayController) :
    runAlone ((onCfb fun cfb => cfb.call c) >>= f) d = runAlone (f ()) (d.called [c]) := rfl

theorem runAlone_call (c : CfbCall) (d : DisplayController) :
    runAlone (onCfb fun cfb => cfb.call c) d = (.ok (), d.called [c]) := rfl

/-- The loop draws the statuses in their order. -/
theorem runAlone_drawStatuses (padding y : ℤ) (statuses : List String) (currentX : ℤ) (i : ℕ)
    (d : DisplayController) : ∃ calls : List CfbCall,
      calls.filterMap CfbCall.status? = statuses.map cStr ∧
      runAlone (drawStatuses padding y statuses currentX i) d = (.ok (), d.called calls) := by
  induction statuses generalizing currentX i d with
  | nil => exact ⟨[], rfl, by simp [DisplayController.called]; rfl⟩
  | cons s rest ih =>
    let line := CfbCall.printStringLine (cStr s) (currentX + padding) y
    let next := currentX + (s.utf8ByteSize * d.cfb.getFontWidth + padding * 2)
    let area := CfbCall.invertArea currentX (y - padding) next (y + d.cfb.getFontHeight + padding)
    unfold drawStatuses onCfb
    rw [runAlone_write_bind, runAlone_read_bind]
    by_cases hi : i % 2 ≠ 0
    · rw [if_pos hi, runAlone_write_bind]
      obtain ⟨calls, hstatuses, hrun⟩ := ih next (i + 1) ((d.called [line]).called [area])
      refine ⟨[line, area] ++ calls, ?_, hrun.trans ?_⟩
      · exact congrArg (cStr s :: ·) hstatuses
      · rw [DisplayController.called_called, DisplayController.called_called]
        rfl
    · rw [if_neg hi]
      obtain ⟨calls, hstatuses, hrun⟩ := ih next (i + 1) (d.called [line])
      refine ⟨[line] ++ calls, ?_, hrun.trans ?_⟩
      · exact congrArg (cStr s :: ·) hstatuses
      · rw [DisplayController.called_called]

theorem runAlone_updateStatuses_off {d : DisplayController} (h : d.isInitialized = false) :
    runAlone updateStatuses d = (.ok (), d) := by
  unfold updateStatuses
  rw [runAlone_read_bind, h]
  rfl

/-- `UpdateStatuses` without a status. -/
theorem runAlone_updateStatuses_nil {d : DisplayController} (hinit : d.isInitialized = true)
    (h : d.statuses = []) : runAlone updateStatuses d = (.ok (), d.started (-1)) := by
  unfold updateStatuses
  rw [runAlone_read_bind, hinit]
  simp only [Bool.not_true, Bool.false_eq_true, if_false]
  rw [runAlone_read_bind, if_pos h, runAlone_startAnimation]

/-- `UpdateStatuses` with statuses. -/
theorem runAlone_updateStatuses_cons {d : DisplayController} (hinit : d.isInitialized = true)
    (h : d.statuses ≠ []) : ∃ calls : List CfbCall,
      calls.filterMap CfbCall.status? = d.statuses.map cStr ∧
      runAlone updateStatuses d = (.ok (), d.stopped.called (.clear :: calls ++ [.flush])) := by
  unfold updateStatuses
  rw [runAlone_read_bind, hinit]
  simp only [Bool.not_true, Bool.false_eq_true, if_false]
  rw [runAlone_read_bind, if_neg h, runAlone_read_bind, runAlone_bind, runAlone_stopAnimation]
  obtain ⟨calls, hstatuses, hrun⟩ := runAlone_drawStatuses 1 (d.cfb.yRes - d.cfb.getFontHeight - 1) d.statuses
    (max 0 (d.cfb.xRes - ((d.statuses.map fun s => (s.utf8ByteSize : ℤ)).sum * d.cfb.getFontWidth +
      d.statuses.length * 1 * 2))) 0 (d.stopped.called [.clear])
  refine ⟨calls, hstatuses, ?_⟩
  dsimp only
  rw [runAlone_call_bind, runAlone_bind, hrun]
  dsimp only
  rw [runAlone_call, DisplayController.called_called, DisplayController.called_called]
  rfl

theorem runAlone_printStringLine_off {d : DisplayController} (h : d.isInitialized = false) (str : String) :
    runAlone (printStringLine str) d = (.ok (), d) := by
  unfold printStringLine
  rw [runAlone_read_bind, h]
  rfl

theorem runAlone_printStringLine {d : DisplayController} (h : d.isInitialized = true) (str : String) :
    runAlone (printStringLine str) d =
      (.ok (), d.stopped.called [.clear, .printString (cStr str) 0 0, .flush]) := by
  unfold printStringLine
  rw [runAlone_read_bind, h]
  simp only [Bool.not_true, Bool.false_eq_true, if_false]
  rw [runAlone_bind, runAlone_stopAnimation]
  dsimp only
  rw [runAlone_call_bind, runAlone_call_bind, runAlone_call, DisplayController.called_called,
    DisplayController.called_called]
  rfl

/-! ## Between operations -/

/-- The parts of the operations keep `I`, and it says nothing of the statuses and of what is drawn. -/
structure DisplayController.Stable (I : DisplayController → Prop) : Prop where
  switchedOn : ∀ d, I d → I d.switchedOn
  started : ∀ d animationIndex, I d → I (d.started animationIndex)
  stopped : ∀ d, I d → I d.stopped
  withStatuses : ∀ d statuses, I d → I { d with statuses := statuses }
  called : ∀ d calls, I d → I (d.called calls)

namespace DisplayController.Stable

variable {I : DisplayController → Prop} {d : DisplayController}

theorem updateStatuses (hI : Stable I) (h : I d) : I (runAlone Controllers.updateStatuses d).2 := by
  cases hinit : d.isInitialized with
  | false =>
    rw [runAlone_updateStatuses_off hinit]
    exact h
  | true =>
    by_cases hstatuses : d.statuses = []
    · rw [runAlone_updateStatuses_nil hinit hstatuses]
      exact hI.started d (-1) h
    · obtain ⟨calls, -, hrun⟩ := runAlone_updateStatuses_cons hinit hstatuses
      rw [hrun]
      exact hI.called _ _ (hI.stopped d h)

theorem setStatuses (hI : Stable I) (h : I d) (change : List String → List String) :
    I (runAlone (do
      if ← .read fun d => !d.isInitialized then
        return
      else
        .write fun d => { d with statuses := change d.statuses }
        Controllers.updateStatuses : Operation) d).2 := by
  rw [runAlone_read_bind]
  split
  · exact h
  · rw [runAlone_write_bind]
    exact hI.updateStatuses (hI.withStatuses d _ h)

/-- **Every operation** keeps it. -/
theorem perform (hI : Stable I) (h : I d) (operation : DisplayOperation) :
    I (runAlone operation.program d).2 := by
  cases operation with
  | initializeDisplay =>
    show I (runAlone Controllers.initializeDisplay d).2
    unfold Controllers.initializeDisplay onCfb
    rw [runAlone_read_bind]
    split
    · exact h
    · rw [runAlone_write_bind, runAlone_write_bind, runAlone_startAnimation]
      exact hI.started _ 0 (hI.switchedOn d h)
  | startAnimation animationIndex =>
    show I (runAlone (Controllers.startAnimation animationIndex) d).2
    rw [runAlone_startAnimation]
    exact hI.started d animationIndex h
  | stopAnimation =>
    show I (runAlone Controllers.stopAnimation d).2
    rw [runAlone_stopAnimation]
    exact hI.stopped d h
  | printStringLine str =>
    show I (runAlone (Controllers.printStringLine str) d).2
    cases hinit : d.isInitialized with
    | false =>
      rw [runAlone_printStringLine_off hinit]
      exact h
    | true =>
      rw [runAlone_printStringLine hinit]
      exact hI.called _ _ (hI.stopped d h)
  | addStatus status => exact hI.setStatuses h (insertStatus status)
  | removeStatus status => exact hI.setStatuses h (eraseStatus status)
  | clearStatuses => exact hI.setStatuses h fun _ => []

end DisplayController.Stable

/-- `animation_` points to an animation whose `Initialize` has completed. -/
def DisplayController.FindsInitialized (d : DisplayController) : Prop :=
  ∃ animation, d.animation = some animation ∧ animation.initialized = true

/-- What holds between operations. -/
structure DisplayController.Ready (d : DisplayController) : Prop where
  animating : d.cfb.animating = d.isAnimationInProgress
  finds : d.isAnimationInProgress = true → d.FindsInitialized
  index : ∃ animation, Animation.make? d.currentAnimationIndex = some animation
  off : d.isInitialized = false → d.isAnimationInProgress = false

namespace DisplayController.Ready

variable {d : DisplayController}

theorem construct (hasCfb : Bool) {cfb : Cfb} (h : cfb.animating = false) :
    (DisplayController.construct hasCfb cfb).Ready := ⟨h, nofun, ⟨_, rfl⟩, fun _ => rfl⟩

/-- The statuses do not matter. -/
theorem withStatuses (h : d.Ready) (statuses : List String) :
    ({ d with statuses := statuses } : DisplayController).Ready :=
  ⟨h.animating, h.finds, h.index, h.off⟩

theorem started (h : d.Ready) (animationIndex : ℤ) : (d.started animationIndex).Ready := by
  unfold DisplayController.started
  split
  · rename_i hinit
    split
    · exact h
    · rename_i animation hmake
      exact ⟨rfl, fun _ => ⟨_, rfl, rfl⟩, ⟨animation, hmake⟩,
        fun hoff => by rw [hinit] at hoff; cases hoff⟩
  · exact h

theorem stopped (h : d.Ready) : d.stopped.Ready ∧ d.stopped.cfb.animating = false ∧
    d.stopped.isInitialized = d.isInitialized := by
  unfold DisplayController.stopped
  split
  · exact ⟨⟨rfl, nofun, h.index, fun _ => rfl⟩, rfl, rfl⟩
  · rename_i hnot
    have hinProgress : d.isAnimationInProgress = false := by
      cases hinit : d.isInitialized with
      | false => exact h.off hinit
      | true => simpa [hinit] using hnot
    exact ⟨h, h.animating.trans hinProgress, rfl⟩

theorem stable : Stable Ready where
  switchedOn _ h := ⟨h.animating, h.finds, h.index, nofun⟩
  started _ animationIndex h := h.started animationIndex
  stopped _ h := h.stopped.1
  withStatuses _ statuses h := h.withStatuses statuses
  called _ _ h := ⟨h.animating, h.finds, h.index, h.off⟩

/-- **Every operation** keeps it. -/
theorem perform (h : d.Ready) (operation : DisplayOperation) :
    (runAlone operation.program d).2.Ready := stable.perform h operation

end DisplayController.Ready

end EerieLeap.Controllers
