import EerieLeap.Controllers.DisplayController

/-!
# The animation handler

`Cfb` calls the animation handler on its own thread, at any moment between a call of `StartAnimation` and
the return of the following `StopAnimation`, so also between two statements of an operation. The handler
dereferences `animation_`, which `StartAnimation` replaces before it calls `Initialize`.

* `DisplayStep` : the statements of the operations, and the calls of the handler;
* `throughout_program_iff` : the operations in the middle of which the handler may find an animation that
  is not initialised;
* `ticks_find_initialized` : without those it never does, and with one of them it may.
-/

namespace EerieLeap.Controllers

open EerieLeap.Lib EerieLeap.Lib.Proc

/-! ## The system -/

/-- The controller, and what is left of the operation that runs. -/
structure DisplaySystem where
  display : DisplayController
  operation : Option Operation

/-- Before the first operation. -/
def DisplaySystem.constructed (hasCfb : Bool) (cfb : Cfb) : DisplaySystem :=
  ⟨.construct hasCfb cfb, none⟩

inductive DisplayLabel
  | call (operation : DisplayOperation)
  | proceed
  | tick

/-- An operation is called, makes its next access or returns, or the handler is called. What the handler
draws is no part of the state. -/
inductive DisplayStep : DisplaySystem → DisplayLabel → DisplaySystem → Prop
  | call {S : DisplaySystem} (h : S.operation = none) (operation : DisplayOperation) :
      DisplayStep S (.call operation) { S with operation := some operation.program }
  | access {S : DisplaySystem} {x x' : Operation} {d : DisplayController} (h : S.operation = some x)
      (hstep : Proc.Step (x, S.display) (x', d)) : DisplayStep S .proceed ⟨d, some x'⟩
  | finish {S : DisplaySystem} (h : S.operation = some (.done ())) :
      DisplayStep S .proceed { S with operation := none }
  | tick {S : DisplaySystem} (h : S.display.cfb.animating = true) : DisplayStep S .tick S

/-- Some run, all whose steps meet `P`, leads from one state to the other. -/
def DisplayRunsWhere (P : DisplaySystem → DisplayLabel → Prop) : DisplaySystem → DisplaySystem → Prop :=
  Relation.ReflTransGen fun S S' => ∃ l, P S l ∧ DisplayStep S l S'

/-- A tick finds an initialised animation. -/
def DisplayController.TickSafe (d : DisplayController) : Prop :=
  d.cfb.animating = true → d.FindsInitialized

/-- The operation starts an animation while one is in progress. -/
def DisplayController.Restarts (d : DisplayController) (operation : DisplayOperation) : Prop :=
  d.isAnimationInProgress = true ∧
    match operation with
    | .startAnimation animationIndex => Animation.make? (d.chosenIndex animationIndex) ≠ none
    | .removeStatus status => eraseStatus status d.statuses = []
    | .clearStatuses => True
    | _ => False

/-- No operation that is called starts an animation while one is in progress. -/
def Orderly (S : DisplaySystem) (l : DisplayLabel) : Prop :=
  ∀ operation, l = .call operation → ¬ S.display.Restarts operation

/-! ## In the middle of an operation -/

section Operations

variable {d : DisplayController}

theorem DisplayController.Ready.tickSafe (h : d.Ready) : d.TickSafe :=
  fun hanimating => h.finds (h.animating.symm.trans hanimating)

theorem DisplayController.tickSafe_of_not_animating (h : d.cfb.animating = false) : d.TickSafe := by
  intro hanimating
  rw [h] at hanimating
  cases hanimating

theorem initialized_of_make? {animationIndex : ℤ} {animation : Animation}
    (h : Animation.make? animationIndex = some animation) : animation.initialized = false := by
  unfold Animation.make? at h
  split_ifs at h <;> cases h <;> rfl

/-- **StartAnimation** lets a tick find an animation that is not initialised exactly when it replaces one
that is in progress. -/
theorem throughout_startAnimation_iff (h : d.Ready) (animationIndex : ℤ) :
    (startAnimation animationIndex).Throughout DisplayController.TickSafe d ↔
      ¬ (d.isAnimationInProgress = true ∧ Animation.make? (d.chosenIndex animationIndex) ≠ none) := by
  have hsafe := h.tickSafe
  unfold startAnimation onCfb
  rw [throughout_read_bind]
  cases hinit : d.isInitialized with
  | false =>
    refine iff_of_true ⟨hsafe, hsafe⟩ ?_
    rintro ⟨hinProgress, -⟩
    rw [h.off hinit] at hinProgress
    cases hinProgress
  | true =>
    simp only [Bool.not_true, Bool.false_eq_true, if_false]
    rw [throughout_read_bind]
    cases hmake : Animation.make? (d.chosenIndex animationIndex) with
    | none =>
      refine iff_of_true ⟨hsafe, hsafe, hsafe⟩ ?_
      exact fun hvalid => hvalid.2 rfl
    | some animation =>
      -- the object is replaced, and initialised by the next statement
      simp only [throughout_write_bind, throughout_write]
      constructor
      · rintro ⟨-, -, -, hreplaced, -⟩ ⟨hinProgress, -⟩
        obtain ⟨found, hfound, hinitialized⟩ := hreplaced (h.animating.trans hinProgress)
        obtain rfl := Option.some.inj hfound
        rw [initialized_of_make? hmake] at hinitialized
        cases hinitialized
      · intro hnot
        have hinProgress : d.isAnimationInProgress = false := by simpa using hnot
        have hanimating := h.animating.trans hinProgress
        refine ⟨hsafe, hsafe, hsafe, DisplayController.tickSafe_of_not_animating hanimating, ?_⟩
        exact ⟨fun _ => ⟨_, rfl, rfl⟩, fun _ => ⟨_, rfl, rfl⟩, fun _ => ⟨_, rfl, rfl⟩, fun _ => ⟨_, rfl, rfl⟩,
          fun _ => ⟨_, rfl, rfl⟩⟩

/-- **StopAnimation** removes the animation when the handler is not called any more. -/
theorem throughout_stopAnimation (h : d.Ready) :
    stopAnimation.Throughout DisplayController.TickSafe d := by
  have hsafe := h.tickSafe
  unfold stopAnimation onCfb
  rw [throughout_read_bind]
  refine ⟨hsafe, ?_⟩
  split
  · exact hsafe
  · rw [throughout_read_bind]
    refine ⟨hsafe, ?_⟩
    split
    · exact hsafe
    · exact ⟨hsafe, nofun, nofun, nofun⟩

theorem throughout_drawStatuses (padding y : ℤ) (statuses : List String) (currentX : ℤ) (i : ℕ)
    (h : d.cfb.animating = false) :
    (drawStatuses padding y statuses currentX i).Throughout DisplayController.TickSafe d := by
  have hsafe := DisplayController.tickSafe_of_not_animating h
  induction statuses generalizing currentX i d with
  | nil => exact hsafe
  | cons s rest ih =>
    unfold drawStatuses onCfb
    rw [throughout_write_bind, throughout_read_bind]
    refine ⟨hsafe, DisplayController.tickSafe_of_not_animating h, ?_⟩
    split
    · rw [throughout_write_bind]
      exact ⟨DisplayController.tickSafe_of_not_animating h,
        ih _ _ h (DisplayController.tickSafe_of_not_animating h)⟩
    · exact ih _ _ h (DisplayController.tickSafe_of_not_animating h)

theorem throughout_updateStatuses_iff (h : d.Ready) :
    updateStatuses.Throughout DisplayController.TickSafe d ↔
      ¬ (d.isAnimationInProgress = true ∧ d.statuses = []) := by
  have hsafe := h.tickSafe
  unfold updateStatuses onCfb
  rw [throughout_read_bind]
  cases hinit : d.isInitialized with
  | false =>
    refine iff_of_true ⟨hsafe, hsafe⟩ ?_
    rintro ⟨hinProgress, -⟩
    rw [h.off hinit] at hinProgress
    cases hinProgress
  | true =>
    simp only [Bool.not_true, Bool.false_eq_true, if_false]
    rw [throughout_read_bind]
    by_cases hstatuses : d.statuses = []
    · -- the current animation is started again
      obtain ⟨animation, hmake⟩ := h.index
      have hvalid : Animation.make? (d.chosenIndex (-1)) ≠ none := by
        rw [show d.chosenIndex (-1) = d.currentAnimationIndex from rfl, hmake]
        exact Option.some_ne_none _
      rw [if_pos hstatuses, throughout_startAnimation_iff h]
      simp [hsafe, hvalid, hstatuses]
    · refine iff_of_true ⟨hsafe, hsafe, ?_⟩ fun hempty => hstatuses hempty.2
      obtain ⟨-, hanimating, -⟩ := h.stopped
      have hstopped := DisplayController.tickSafe_of_not_animating hanimating
      rw [if_neg hstatuses, throughout_read_bind]
      refine ⟨hsafe, (throughout_bind _ _ _).mpr ⟨throughout_stopAnimation h, ?_⟩⟩
      intro _ d' hrun
      rw [runAlone_stopAnimation] at hrun
      obtain rfl := (Prod.mk.inj hrun).2
      rw [throughout_write_bind]
      refine ⟨hstopped, (throughout_bind _ _ _).mpr ⟨throughout_drawStatuses _ _ _ _ _ hanimating, ?_⟩⟩
      intro _ d'' hrun
      obtain ⟨calls, -, hdrawn⟩ := runAlone_drawStatuses _ _ d.statuses _ 0 _
      rw [hdrawn] at hrun
      obtain rfl := (Prod.mk.inj hrun).2
      exact ⟨DisplayController.tickSafe_of_not_animating hanimating,
        DisplayController.tickSafe_of_not_animating hanimating⟩

theorem throughout_setStatuses_iff (h : d.Ready) (change : List String → List String) :
    (do
      if ← .read fun d => !d.isInitialized then
        return
      else
        .write fun d => { d with statuses := change d.statuses }
        updateStatuses : Operation).Throughout DisplayController.TickSafe d ↔
      ¬ (d.isAnimationInProgress = true ∧ change d.statuses = []) := by
  have hsafe := h.tickSafe
  rw [throughout_read_bind]
  cases hinit : d.isInitialized with
  | false =>
    refine iff_of_true ⟨hsafe, hsafe⟩ ?_
    rintro ⟨hinProgress, -⟩
    rw [h.off hinit] at hinProgress
    cases hinProgress
  | true =>
    simp only [Bool.not_true, Bool.false_eq_true, if_false]
    rw [throughout_write_bind, throughout_updateStatuses_iff (h.withStatuses _)]
    exact ⟨fun hupdate => hupdate.2.2, fun hnot => ⟨hsafe, hsafe, hnot⟩⟩

theorem insertStatus_ne_nil (status : String) (statuses : List String) :
    insertStatus status statuses ≠ [] := by
  cases statuses with
  | nil => simp [insertStatus]
  | cons s rest =>
    unfold insertStatus
    split_ifs <;> simp

/-- **Every operation** is safe in the middle, unless it starts an animation while one is in progress. -/
theorem throughout_program_iff (h : d.Ready) (operation : DisplayOperation) :
    operation.program.Throughout DisplayController.TickSafe d ↔ ¬ d.Restarts operation := by
  have hsafe := h.tickSafe
  cases operation with
  | initializeDisplay =>
    refine iff_of_true ?_ fun hrestarts => hrestarts.2
    show initializeDisplay.Throughout _ d
    unfold initializeDisplay onCfb
    rw [throughout_read_bind]
    refine ⟨hsafe, ?_⟩
    split
    · exact hsafe
    · rename_i hoff
      obtain ⟨-, hinit⟩ : d.hasCfb = true ∧ d.isInitialized = false := by simpa using hoff
      have hon : d.switchedOn.Ready := ⟨h.animating, h.finds, h.index, nofun⟩
      rw [throughout_write_bind, throughout_write_bind]
      refine ⟨hsafe, hsafe, (throughout_startAnimation_iff hon 0).mpr ?_⟩
      rintro ⟨hinProgress, -⟩
      cases (h.off hinit).symm.trans hinProgress
  | startAnimation animationIndex => exact throughout_startAnimation_iff h animationIndex
  | stopAnimation => exact iff_of_true (throughout_stopAnimation h) fun hrestarts => hrestarts.2
  | printStringLine str =>
    refine iff_of_true ?_ fun hrestarts => hrestarts.2
    show (printStringLine str).Throughout _ d
    unfold printStringLine onCfb
    rw [throughout_read_bind]
    refine ⟨hsafe, ?_⟩
    split
    · exact hsafe
    · refine (throughout_bind _ _ _).mpr ⟨throughout_stopAnimation h, ?_⟩
      intro _ d' hrun
      rw [runAlone_stopAnimation] at hrun
      obtain rfl := (Prod.mk.inj hrun).2
      obtain ⟨-, hanimating, -⟩ := h.stopped
      have hstopped := DisplayController.tickSafe_of_not_animating hanimating
      exact ⟨hstopped, hstopped, hstopped, hstopped⟩
  | addStatus status =>
    refine (throughout_setStatuses_iff h (insertStatus status)).trans (iff_of_true ?_ fun h => h.2)
    exact fun hempty => insertStatus_ne_nil status d.statuses hempty.2
  | removeStatus status => exact throughout_setStatuses_iff h (eraseStatus status)
  | clearStatuses =>
    refine (throughout_setStatuses_iff h fun _ => []).trans (not_congr ?_)
    exact and_congr_right fun _ => iff_of_true rfl trivial

end Operations

/-! ## Runs -/

/-- What holds when every call has been orderly. -/
structure DisplaySystem.Safe (S : DisplaySystem) : Prop where
  idle : S.operation = none → S.display.Ready
  running : ∀ x, S.operation = some x →
    x.Throughout DisplayController.TickSafe S.display ∧ (runAlone x S.display).2.Ready

variable {S S' : DisplaySystem} {l : DisplayLabel}

theorem DisplaySystem.Safe.tickSafe (hS : S.Safe) : S.display.TickSafe := by
  cases hoperation : S.operation with
  | none => exact (hS.idle hoperation).tickSafe
  | some x => exact (hS.running x hoperation).1.first

/-- **Every step** keeps it. -/
theorem DisplaySystem.Safe.step (hS : S.Safe) (hl : Orderly S l) (h : DisplayStep S l S') : S'.Safe := by
  cases h with
  | call hidle operation =>
    have hready := hS.idle hidle
    refine ⟨nofun, ?_⟩
    rintro x hx
    obtain rfl := Option.some.inj hx
    exact ⟨(throughout_program_iff hready operation).mpr (hl operation rfl), hready.perform operation⟩
  | access hx hstep =>
    obtain ⟨hthroughout, hready⟩ := hS.running _ hx
    refine ⟨nofun, ?_⟩
    rintro x' hx'
    obtain rfl := Option.some.inj hx'
    refine ⟨hthroughout.step hstep, ?_⟩
    rwa [← hstep.runAlone]
  | finish hx => exact ⟨fun _ => (hS.running _ hx).2, nofun⟩
  | tick h => exact hS

theorem DisplaySystem.Safe.runs (hS : S.Safe) (h : DisplayRunsWhere Orderly S S') : S'.Safe := by
  induction h with
  | refl => exact hS
  | tail _ hstep ih =>
    obtain ⟨l, hl, hstep⟩ := hstep
    exact ih.step hl hstep

theorem DisplaySystem.safe_constructed (hasCfb : Bool) {cfb : Cfb} (h : cfb.animating = false) :
    (DisplaySystem.constructed hasCfb cfb).Safe :=
  ⟨fun _ => .construct hasCfb h, nofun⟩

/-- The accesses of an operation, as steps of the system. -/
theorem runs_of_steps {x x' : Operation} {d d' : DisplayController}
    (h : Relation.ReflTransGen Proc.Step (x, d) (x', d')) :
    DisplayRunsWhere (fun _ l => l = .proceed) ⟨d, some x⟩ ⟨d', some x'⟩ := by
  refine Relation.ReflTransGen.lift
    (fun p : Operation × DisplayController => (⟨p.2, some p.1⟩ : DisplaySystem)) ?_ _ _ h
  intro p p' hstep
  exact ⟨.proceed, rfl, .access rfl hstep⟩

/-- **The handler finds an initialised animation**, in every run in which no operation starts an animation
while one is in progress. Where one does, a tick in the middle of it finds an animation that is not. -/
theorem ticks_find_initialized (hasCfb : Bool) {cfb : Cfb} (h : cfb.animating = false) :
    (∀ S S', DisplayRunsWhere Orderly (.constructed hasCfb cfb) S → DisplayStep S .tick S' →
        S.display.FindsInitialized) ∧
      ∀ S operation, DisplayRunsWhere Orderly (.constructed hasCfb cfb) S → S.operation = none →
        S.display.Restarts operation →
        ∃ S₁ S₂, DisplayStep S (.call operation) S₁ ∧ DisplayRunsWhere (fun _ l => l = .proceed) S₁ S₂ ∧
          DisplayStep S₂ .tick S₂ ∧ ¬ S₂.display.FindsInitialized := by
  have hsafe : ∀ {S}, DisplayRunsWhere Orderly (.constructed hasCfb cfb) S → S.Safe :=
    fun hruns => (DisplaySystem.safe_constructed hasCfb h).runs hruns
  constructor
  · intro S S' hruns htick
    cases htick with
    | tick hanimating => exact (hsafe hruns).tickSafe hanimating
  · intro S operation hruns hidle hrestarts
    have hready := (hsafe hruns).idle hidle
    have hnot := mt (throughout_program_iff hready operation).mp (not_not_intro hrestarts)
    obtain ⟨x, d, hsteps, hd⟩ := exists_of_not_throughout hnot
    obtain ⟨hanimating, hfinds⟩ := Classical.not_imp.mp hd
    exact ⟨_, ⟨d, some x⟩, .call hidle operation, runs_of_steps hsteps, .tick hanimating, hfinds⟩

/-! ## A display -/

/-- After `Initialize`. -/
def someDisplay : DisplayController := (runAlone initializeDisplay (.construct true someCfb)).2

theorem ready_someDisplay : someDisplay.Ready :=
  DisplayController.Ready.perform (.construct true rfl) .initializeDisplay

theorem runs_someDisplay {P : DisplaySystem → DisplayLabel → Prop}
    (hcall : P (.constructed true someCfb) (.call .initializeDisplay)) (hproceed : ∀ S, P S .proceed) :
    DisplayRunsWhere P (.constructed true someCfb) ⟨someDisplay, none⟩ := by
  have hsteps := runs_of_steps (steps_runAlone initializeDisplay (.construct true someCfb))
  have hruns : DisplayRunsWhere P _ _ := Relation.ReflTransGen.mono
    (fun S S' ⟨_, hl, hstep⟩ => ⟨.proceed, hproceed S, hl ▸ hstep⟩) _ _ hsteps
  exact .head ⟨_, hcall, .call rfl .initializeDisplay⟩ (.tail hruns ⟨_, hproceed _, .finish rfl⟩)

/-- The animation that `Initialize` has started. -/
theorem someDisplay_findsInitialized : someDisplay.FindsInitialized := by
  have horderly : Orderly (.constructed true someCfb) (.call .initializeDisplay) := by
    rintro operation heq
    cases heq
    exact fun hrestarts => hrestarts.2
  exact (ticks_find_initialized true (rfl : someCfb.animating = false)).1 _ _
    (runs_someDisplay horderly fun _ => nofun) (.tick rfl)

/-- `StartAnimation(1)` while the first animation runs. -/
theorem startAnimation_while_in_progress : ¬ ∀ (hasCfb : Bool) (cfb : Cfb), cfb.animating = false →
    ∀ S S', DisplayRunsWhere (fun _ _ => True) (.constructed hasCfb cfb) S → DisplayStep S .tick S' →
      S.display.FindsInitialized := by
  intro hall
  have hnot : ¬ (startAnimation 1).Throughout DisplayController.TickSafe someDisplay := by
    rw [throughout_startAnimation_iff ready_someDisplay, not_not]
    exact ⟨rfl, by decide⟩
  obtain ⟨x, d, hsteps, hd⟩ := exists_of_not_throughout hnot
  obtain ⟨hanimating, hfinds⟩ := Classical.not_imp.mp hd
  have hruns : DisplayRunsWhere (fun _ _ => True) _ _ := Relation.ReflTransGen.mono
    (fun S S' ⟨l, _, hstep⟩ => ⟨l, trivial, hstep⟩) _ _ (runs_of_steps hsteps)
  exact hfinds (hall true someCfb rfl ⟨d, some x⟩ _ (.trans (runs_someDisplay trivial fun _ => trivial)
    (.head ⟨_, trivial, .call rfl (.startAnimation 1)⟩ hruns)) (.tick hanimating))

end EerieLeap.Controllers
