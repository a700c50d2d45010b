import EerieLeap.Controllers.LoggingController

/-!
# The status of the log

The status `log` is on the display from a command that has started the log writer until one that has
stopped it. A command that finds the writer as it asks reports success and leaves the display alone.

* `step_showsLog` : what an event does to the status;
* `statusTrue_iff` : when a command that reports success always leaves the status it should;
* `shows_of_carriesOut` : after a command that is carried out, the statuses have been drawn.
-/

namespace EerieLeap.Controllers

open EerieLeap.Lib EerieLeap.Lib.Proc EerieLeap.Lib.History
open EerieLeap.Http (Parts)

/-! ## The statuses -/

theorem mem_insertStatus (status s : String) (statuses : List String) :
    s ∈ insertStatus status statuses ↔ s = status ∨ s ∈ statuses := by
  induction statuses with
  | nil => simp [insertStatus]
  | cons s' rest ih =>
    unfold insertStatus
    split
    · simp
    · split
      · rename_i heq
        simp [heq]
      · simp [ih]
        tauto

theorem mem_eraseStatus (status s : String) (statuses : List String) :
    s ∈ eraseStatus status statuses ↔ s ∈ statuses ∧ s ≠ status := by
  simp [eraseStatus]

namespace DisplayController

variable {d : DisplayController}

theorem started_statuses (animationIndex : ℤ) : (d.started animationIndex).statuses = d.statuses ∧
    (d.started animationIndex).isInitialized = d.isInitialized := by
  unfold started
  split
  · split <;> exact ⟨rfl, rfl⟩
  · exact ⟨rfl, rfl⟩

theorem stopped_statuses : d.stopped.statuses = d.statuses ∧ d.stopped.isInitialized = d.isInitialized := by
  unfold stopped
  split <;> exact ⟨rfl, rfl⟩

/-- `UpdateStatuses` only draws. -/
theorem updateStatuses_statuses : (runAlone updateStatuses d).2.statuses = d.statuses ∧
    (runAlone updateStatuses d).2.isInitialized = d.isInitialized := by
  cases hinit : d.isInitialized with
  | false =>
    rw [runAlone_updateStatuses_off hinit]
    exact ⟨rfl, hinit⟩
  | true =>
    by_cases hstatuses : d.statuses = []
    · rw [runAlone_updateStatuses_nil hinit hstatuses, ← hinit]
      exact started_statuses (-1)
    · obtain ⟨calls, -, hrun⟩ := runAlone_updateStatuses_cons hinit hstatuses
      rw [hrun, ← hinit]
      exact stopped_statuses

/-- With the statuses changed. -/
def withStatuses (d : DisplayController) (statuses : List String) : DisplayController :=
  { d with statuses := statuses }

theorem runAlone_addStatus (h : d.isInitialized = true) (status : String) : runAlone (addStatus status) d =
    runAlone updateStatuses (d.withStatuses (insertStatus status d.statuses)) := by
  unfold addStatus
  rw [runAlone_read_bind, h]
  rfl

theorem runAlone_removeStatus (h : d.isInitialized = true) (status : String) :
    runAlone (removeStatus status) d =
      runAlone updateStatuses (d.withStatuses (eraseStatus status d.statuses)) := by
  unfold removeStatus
  rw [runAlone_read_bind, h]
  rfl

/-- The animation runs where there is no status, and where there are, they have been drawn last. -/
def ShowsStatuses (d : DisplayController) : Prop :=
  if d.statuses = [] then d.cfb.animating = true
  else d.cfb.animating = false ∧ ∃ calls, .clear :: calls ++ [.flush] <:+ d.cfb.calls ∧
    calls.filterMap CfbCall.status? = d.statuses.map cStr

theorem Ready.showsStatuses (h : d.Ready) (hinit : d.isInitialized = true) :
    (runAlone Controllers.updateStatuses d).2.ShowsStatuses := by
  unfold ShowsStatuses
  rw [updateStatuses_statuses.1]
  by_cases hstatuses : d.statuses = []
  · obtain ⟨animation, hmake⟩ := h.index
    rw [if_pos hstatuses, runAlone_updateStatuses_nil hinit hstatuses]
    unfold DisplayController.started
    rw [if_pos hinit, show d.chosenIndex (-1) = d.currentAnimationIndex from rfl, hmake]
    rfl
  · obtain ⟨calls, hcalls, hrun⟩ := runAlone_updateStatuses_cons hinit hstatuses
    rw [if_neg hstatuses, hrun]
    exact ⟨h.stopped.2.1, calls, List.suffix_append _ _, hcalls⟩

end DisplayController

/-! ## One event -/

section Step

variable {J κ : Type} {P : Parts J κ} {S : LoggingSystem κ} {e : LoggingEvent}

/-- The status `log` is displayed. -/
def LoggingSystem.showsLog (S : LoggingSystem κ) : Bool := "log" ∈ S.display.statuses

/-- The display after a command that is carried out, and after one that is not. -/
theorem LoggingSystem.handleCommand_display (command : CanbusComLoggingCommand) (res : ℤ) :
    (S.handleCommand res (some command)).2.display =
      if command.isStart ≠ S.writer.isRunning ∧ res = 0 then
        (runAlone (if command.isStart then addStatus "log" else removeStatus "log") S.display).2
      else S.display := by
  obtain ⟨device, ⟨isRunning, logger⟩, display⟩ := S
  obtain ⟨isStart⟩ := command
  unfold handleCommand logWriterStart logWriterStop onDisplay
  by_cases hres : res = 0 <;> cases isStart <;> cases isRunning <;> simp [hres]

/-- A command reports success when it is carried out, or finds the writer as it asks. -/
theorem LoggingSystem.handleCommand_succeeds (command : CanbusComLoggingCommand) (res : ℤ) :
    (S.handleCommand res (some command)).1 = true ↔ command.isStart = S.writer.isRunning ∨ res = 0 := by
  obtain ⟨device, ⟨isRunning, logger⟩, display⟩ := S
  obtain ⟨isStart⟩ := command
  unfold handleCommand logWriterStart logWriterStop
  cases isStart <;> cases isRunning <;> simp

/-- **The status** is what the last command that was carried out has made it. -/
theorem LoggingSystem.handleCommand_showsLog (h : S.display.isInitialized = true)
    (command : CanbusComLoggingCommand) (res : ℤ) :
    (S.handleCommand res (some command)).2.display.isInitialized = true ∧
      (S.handleCommand res (some command)).2.showsLog =
        if command.isStart ≠ S.writer.isRunning ∧ res = 0 then command.isStart else S.showsLog := by
  unfold showsLog
  rw [handleCommand_display]
  split
  · cases command.isStart with
    | true =>
      rw [if_pos rfl, DisplayController.runAlone_addStatus h, DisplayController.updateStatuses_statuses.1,
        DisplayController.updateStatuses_statuses.2]
      refine ⟨h, decide_eq_true ?_⟩
      exact (mem_insertStatus _ _ _).mpr (.inl rfl)
    | false =>
      rw [if_neg Bool.false_ne_true, DisplayController.runAlone_removeStatus h,
        DisplayController.updateStatuses_statuses.1, DisplayController.updateStatuses_statuses.2]
      refine ⟨h, decide_eq_false ?_⟩
      exact fun hmem => ((mem_eraseStatus _ _ _).mp hmem).2 rfl
  · exact ⟨h, rfl⟩

/-- The command of an event that is carried out, as whether it starts. -/
def LoggingSystem.carriedOut (S : LoggingSystem κ) (e : LoggingEvent) : Option Bool :=
  (S.writer.carriesOut e).map CanbusComLoggingCommand.isStart

theorem LoggingSystem.step_showsLog (h : S.display.isInitialized = true) :
    (S.step P e).display.isInitialized = true ∧
      (S.step P e).showsLog = (S.carriedOut e).getD S.showsLog := by
  cases e with
  | update body => exact ⟨h, rfl⟩
  | running isRunning => exact ⟨h, rfl⟩
  | command command res =>
    cases command with
    | none => exact ⟨h, rfl⟩
    | some command =>
      obtain ⟨hinit, hshows⟩ := LoggingSystem.handleCommand_showsLog h command res
      refine ⟨hinit, hshows.trans ?_⟩
      unfold carriedOut LogWriterService.carriesOut
      dsimp only
      split <;> rfl

end Step

/-! ## Runs -/

section Runs

variable {J κ : Type} (P : Parts J κ) (S : LoggingSystem κ)

/-- A command that reports success leaves the status that it should. -/
def LoggingSystem.StatusTrue (S : LoggingSystem κ) (e : LoggingEvent) : Prop :=
  ∀ command res, e = .command (some command) res → (S.handleCommand res (some command)).1 = true →
    ("log" ∈ (S.handleCommand res (some command)).2.display.statuses ↔ command.isStart = true)

/-- The last command that was carried out, as whether it started. -/
def lastCarriedOut (events : List LoggingEvent) : Option Bool :=
  History.last (LoggingSystem.step P) LoggingSystem.carriedOut S events

/-- A command that finds the writer as it asks is the same as the last one that was carried out; before
the first one, it finds the display as it asks. -/
def FindsOwnWork (before : List LoggingEvent) (e : LoggingEvent) : Prop :=
  ∀ command res, e = .command (some command) res →
    command.isStart = (before.foldl (LoggingSystem.step P) S).writer.isRunning →
    (lastCarriedOut P S before).getD S.showsLog = command.isStart

variable {S}

theorem LoggingSystem.foldl_showsLog (h : S.display.isInitialized = true) (events : List LoggingEvent) :
    (events.foldl (LoggingSystem.step P) S).display.isInitialized = true ∧
      (events.foldl (LoggingSystem.step P) S).showsLog = (lastCarriedOut P S events).getD S.showsLog :=
  ⟨foldl_invariant (I := fun S : LoggingSystem κ => S.display.isInitialized = true)
      (fun _ _ h => (LoggingSystem.step_showsLog h).1) h events,
    foldl_eq_last (I := fun S : LoggingSystem κ => S.display.isInitialized = true)
      (fun _ _ h => (LoggingSystem.step_showsLog h).1) (fun _ _ h => (LoggingSystem.step_showsLog h).2) h
      events⟩

/-- **The status tells the truth** after every command that reports success, exactly when a command only
ever finds the writer as it asks where the last command carried out has left it so. -/
theorem statusTrue_iff (h : S.display.isInitialized = true) (events : List LoggingEvent) :
    AtEach (fun before e => (before.foldl (LoggingSystem.step P) S).StatusTrue e) events ↔
      AtEach (FindsOwnWork P S) events := by
  refine atEach_congr (fun before e => ?_) events
  obtain ⟨hinit, hshows⟩ := LoggingSystem.foldl_showsLog P h before
  unfold FindsOwnWork
  rw [← hshows]
  generalize before.foldl (LoggingSystem.step P) S = S' at hinit
  refine forall₃_congr fun command res _ => ?_
  have hafter := (LoggingSystem.handleCommand_showsLog hinit command res).2
  have hmem : ∀ S'' : LoggingSystem κ, "log" ∈ S''.display.statuses ↔ S''.showsLog = true :=
    fun S'' => (decide_eq_true_iff).symm
  rw [LoggingSystem.handleCommand_succeeds, hmem, hafter, ← Bool.eq_iff_iff]
  by_cases hfinds : command.isStart = S'.writer.isRunning
  · simp [hfinds]
  · by_cases hres : res = 0 <;> simp [hfinds, hres]

/-- **The display** shows the statuses after a command that is carried out. -/
theorem shows_of_carriesOut (hready : S.display.Ready) (h : S.display.isInitialized = true)
    {e : LoggingEvent} {command : CanbusComLoggingCommand} (he : S.writer.carriesOut e = some command) :
    (S.step P e).display.ShowsStatuses := by
  rcases e with body | ⟨_ | command', res⟩ | isRunning
  · cases he
  · cases he
  · have hcarries : command'.isStart ≠ S.writer.isRunning ∧ res = 0 := by
      by_contra hnot
      unfold LogWriterService.carriesOut at he
      dsimp only at he
      rw [if_neg hnot] at he
      cases he
    show (S.handleCommand res (some command')).2.display.ShowsStatuses
    rw [LoggingSystem.handleCommand_display, if_pos hcarries]
    cases command'.isStart with
    | true =>
      rw [if_pos rfl, DisplayController.runAlone_addStatus h]
      exact (hready.withStatuses _).showsStatuses h
    | false =>
      rw [if_neg Bool.false_ne_true, DisplayController.runAlone_removeStatus h]
      exact (hready.withStatuses _).showsStatuses h
  · cases he

end Runs

/-- A display that is on, and a writer that has not been started. -/
def someLogging : LoggingSystem Bool :=
  .construct acceptingParts ⟨false, some false⟩ ⟨false, none⟩
    { DisplayController.construct true someCfb with isInitialized := true }

/-- A session that the writer ends when it is told to. -/
theorem session_statusTrue : AtEach (fun before e =>
      (before.foldl (LoggingSystem.step acceptingParts) someLogging).StatusTrue e)
    [.command (some ⟨true⟩) 0, .command (some ⟨false⟩) 0] := by
  refine (statusTrue_iff acceptingParts (S := someLogging) rfl _).mpr ?_
  rw [atEach_cons, atEach_cons]
  refine ⟨?_, ?_, atEach_nil _⟩
  · rintro command res heq hfinds
    cases heq
    cases hfinds
  · rintro command res heq hfinds
    cases heq
    cases hfinds

/-- The writer is started and stops by itself: the command that stops it reports success, and the status
stays. -/
theorem stops_by_itself : ¬ ∀ (P : Parts Unit Bool) (S : LoggingSystem Bool),
    S.display.isInitialized = true → ∀ events,
      AtEach (fun before e => (before.foldl (LoggingSystem.step P) S).StatusTrue e) events := by
  intro hall
  have hevents := hall acceptingParts someLogging rfl
    [.command (some ⟨true⟩) 0, .running false, .command (some ⟨false⟩) 0]
  have htrue := hevents [.command (some ⟨true⟩) 0, .running false] _ [] rfl ⟨false⟩ 0 rfl rfl
  have hshows := (LoggingSystem.foldl_showsLog acceptingParts (S := someLogging) rfl
    [.command (some ⟨true⟩) 0, .running false]).2
  exact Bool.false_ne_true (htrue.mp (decide_eq_true_iff.mp hshows))

end EerieLeap.Controllers
