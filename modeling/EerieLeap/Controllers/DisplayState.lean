import EerieLeap.Controllers.LogStatus

/-!
# The state of the display controller

Whether an animation runs is known in three places: the flag of the controller, its pointer to the
animation, and `Cfb`. `StartAnimation` returns early for an index that it does not know and remembers the
one before, so that there is always an animation to start when the last status goes.

* `Settled` : the three places agree, and there is an animation to start; every operation keeps it;
* `animating_perform_iff` : after an operation on the statuses, an animation runs where there is none left;
* `display_agrees` : every operation of a sequence.
-/

namespace EerieLeap.Controllers

open EerieLeap.Lib EerieLeap.Lib.Proc EerieLeap.Lib.History

/-- The operations on the statuses. -/
def DisplayOperation.changesStatuses : DisplayOperation → Bool
  | .addStatus _ => true
  | .removeStatus _ => true
  | .clearStatuses => true
  | .initializeDisplay | .startAnimation _ | .stopAnimation | .printStringLine _ => false

namespace DisplayController

/-- The controller after an operation. -/
def perform (d : DisplayController) (operation : DisplayOperation) : DisplayController :=
  (runAlone operation.program d).2

/-- The flag, `animation_` and `Cfb` say the same. -/
structure Agrees (d : DisplayController) : Prop where
  animation : d.animation.isSome = d.isAnimationInProgress
  animating : d.cfb.animating = d.isAnimationInProgress

/-- What holds between operations, of `animation_` too. -/
structure Settled (d : DisplayController) : Prop where
  ready : d.Ready
  animation : d.animation.isSome = d.isAnimationInProgress

/-! ## What every operation keeps -/

/-- `animation_` is set and reset together with the flag. -/
theorem animation_stable : Stable fun d => d.animation.isSome = d.isAnimationInProgress where
  switchedOn _ h := h
  started d animationIndex h := by
    unfold started
    split
    · split
      · exact h
      · rfl
    · exact h
  stopped d h := by
    unfold stopped
    split
    · rfl
    · exact h
  withStatuses _ _ h := h
  called _ _ h := h

theorem settled_construct (hasCfb : Bool) {cfb : Cfb} (h : cfb.animating = false) :
    (construct hasCfb cfb).Settled := ⟨.construct hasCfb h, rfl⟩

variable {d : DisplayController}

theorem Settled.perform (h : d.Settled) (operation : DisplayOperation) : (d.perform operation).Settled :=
  ⟨h.ready.perform operation, animation_stable.perform h.animation operation⟩

theorem Settled.agrees (h : d.Settled) : d.Agrees := ⟨h.animation, h.ready.animating⟩

/-! ## The statuses -/

theorem runAlone_clearStatuses (h : d.isInitialized = true) :
    runAlone clearStatuses d = runAlone updateStatuses (d.withStatuses []) := by
  unfold clearStatuses
  rw [runAlone_read_bind, h]
  rfl

/-- On a controller that is initialised, an operation on the statuses updates them on the screen. -/
theorem Ready.showsStatuses_perform (h : d.Ready) (hinit : d.isInitialized = true)
    {operation : DisplayOperation} (hchanges : operation.changesStatuses = true) :
    (d.perform operation).ShowsStatuses := by
  have hupdate : ∀ statuses, (runAlone updateStatuses (d.withStatuses statuses)).2.ShowsStatuses :=
    fun statuses => (h.withStatuses statuses).showsStatuses hinit
  cases operation with
  | addStatus status =>
    show (runAlone (addStatus status) d).2.ShowsStatuses
    rw [runAlone_addStatus hinit]
    exact hupdate _
  | removeStatus status =>
    show (runAlone (removeStatus status) d).2.ShowsStatuses
    rw [runAlone_removeStatus hinit]
    exact hupdate _
  | clearStatuses =>
    show (runAlone clearStatuses d).2.ShowsStatuses
    rw [runAlone_clearStatuses hinit]
    exact hupdate _
  | initializeDisplay => cases hchanges
  | startAnimation animationIndex => cases hchanges
  | stopAnimation => cases hchanges
  | printStringLine str => cases hchanges

/-- **The animation runs** exactly where there is no status. -/
theorem ShowsStatuses.animating_iff (h : d.ShowsStatuses) : d.cfb.animating = true ↔ d.statuses = [] := by
  unfold ShowsStatuses at h
  split at h
  · rename_i hnil
    exact iff_of_true h hnil
  · rename_i hne
    rw [h.1]
    exact iff_of_false Bool.false_ne_true hne

/-! ## Sequences of operations -/

/-- What is asked of an operation on the controller `d`. -/
structure Coherent (d : DisplayController) (operation : DisplayOperation) : Prop where
  agrees : (d.perform operation).Agrees
  statuses : operation.changesStatuses = true → d.isInitialized = true →
    ((d.perform operation).isAnimationInProgress = true ↔ (d.perform operation).statuses = [])

theorem Settled.coherent (h : d.Settled) (operation : DisplayOperation) : d.Coherent operation := by
  have hagrees := (h.perform operation).agrees
  refine ⟨hagrees, ?_⟩
  intro hchanges hinit
  rw [← hagrees.animating]
  exact (h.ready.showsStatuses_perform hinit hchanges).animating_iff

theorem settled_foldl (hasCfb : Bool) {cfb : Cfb} (h : cfb.animating = false)
    (operations : List DisplayOperation) :
    (operations.foldl perform (construct hasCfb cfb)).Settled := by
  have hstep : ∀ d operation, Settled d → Settled (perform d operation) :=
    fun _ operation h => h.perform operation
  exact foldl_invariant hstep (settled_construct hasCfb h) operations

/-- **The display agrees with itself** after every operation of a sequence, and after one on the statuses
of an initialised controller an animation is running exactly when there is no status. -/
theorem display_agrees (hasCfb : Bool) {cfb : Cfb} (h : cfb.animating = false)
    (operations : List DisplayOperation) :
    AtEach (fun before operation => (before.foldl perform (construct hasCfb cfb)).Coherent operation)
      operations :=
  fun before operation _ _ => (settled_foldl hasCfb h before).coherent operation

/-- An index that is not known, and a status that comes and goes: the animation runs before and after it. -/
theorem unknown_index_agrees :
    AtEach (fun before operation => (before.foldl perform (construct true someCfb)).Coherent operation)
        [.initializeDisplay, .startAnimation 7, .addStatus "log", .removeStatus "log"] ∧
      ([.initializeDisplay, .startAnimation 7].foldl perform (construct true someCfb)).isAnimationInProgress = true ∧
      ([.initializeDisplay, .startAnimation 7, .addStatus "log"].foldl perform
        (construct true someCfb)).isAnimationInProgress = false ∧
      ([.initializeDisplay, .startAnimation 7, .addStatus "log", .removeStatus "log"].foldl perform
        (construct true someCfb)).isAnimationInProgress = true :=
  ⟨display_agrees true rfl _, by decide, by decide, by decide⟩

end DisplayController

end EerieLeap.Controllers
