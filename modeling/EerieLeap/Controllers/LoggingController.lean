import EerieLeap.Controllers.DisplayController
import EerieLeap.Http.FailedUpdate
import EerieLeap.Lib.History

/-!
# The logging controller

`LoggingController` starts and stops the log writer on commands from the CAN bus, and tells the display.
The logger of the writer is built once, from the sensors that are configured then, while the HTTP
server goes on to store what it is sent. The log writer and the logger are not part of the sources: a
logger describes the sensors it was given, and the writer uses the logger it was given last.

* `LoggingSystem.step` : an update that is posted, a command, and a writer that starts or stops without
  one;
* `usesCurrentSensors_iff` : when the writer is only ever started on a logger that describes the stored
  sensors.
-/

namespace EerieLeap.Controllers

open EerieLeap.Lib EerieLeap.Lib.Proc EerieLeap.Lib.Effect EerieLeap.Lib.History
open EerieLeap.Http (Device Parts updateDevice)

/-! ## The controller -/

/-- A logger, which describes the sensors passed to its constructor. -/
structure Mdf4LoggerSensorReading (κ : Type) where
  sensors : κ
deriving DecidableEq

structure LogWriterService (κ : Type) where
  isRunning : Bool
  logger : Option (Mdf4LoggerSensorReading κ)
deriving DecidableEq

/-- A `CanbusComLoggingCommand`, which starts or stops. -/
structure CanbusComLoggingCommand where
  isStart : Bool
deriving DecidableEq

/-- What the controller shares with the HTTP server and the display. -/
structure LoggingSystem (κ : Type) where
  device : Device κ
  writer : LogWriterService κ
  display : DisplayController

variable {J κ : Type}

namespace LogWriterService

variable (writer : LogWriterService κ)

def setLogger (logger : Mdf4LoggerSensorReading κ) : LogWriterService κ :=
  { writer with logger := some logger }

/-- `LogWriterStart` of the writer, when it returns `res`. -/
def logWriterStart (res : ℤ) : LogWriterService κ :=
  if res = 0 then { writer with isRunning := true } else writer

/-- `LogWriterStop` of the writer, when it returns `res`. -/
def logWriterStop (res : ℤ) : LogWriterService κ :=
  if res = 0 then { writer with isRunning := false } else writer

end LogWriterService

namespace LoggingSystem

/-- The constructor of `LoggingController`. -/
def construct (P : Parts J κ) (device : Device κ) (writer : LogWriterService κ)
    (display : DisplayController) : LoggingSystem κ :=
  ⟨device, writer.setLogger ⟨P.manager.get device⟩, display⟩

variable (S : LoggingSystem κ)

/-- An operation of the display. The handler of the animation, which may run meanwhile, changes nothing
of its state. -/
def onDisplay (operation : Operation) : LoggingSystem κ :=
  { S with display := (runAlone operation S.display).2 }

/-- `LoggingController::LogWriterStart`, where the writer returns `res` if it is called. -/
def logWriterStart (res : ℤ) : ℤ × LoggingSystem κ :=
  if S.writer.isRunning then (0, S)
  else
    let started := { S with writer := S.writer.logWriterStart res }
    (res, if res = 0 then started.onDisplay (addStatus "log") else started)

/-- `LoggingController::LogWriterStop`, where the writer returns `res` if it is called. -/
def logWriterStop (res : ℤ) : ℤ × LoggingSystem κ :=
  if !S.writer.isRunning then (0, S)
  else
    let stopped := { S with writer := S.writer.logWriterStop res }
    (res, if res = 0 then stopped.onDisplay (removeStatus "log") else stopped)

/-- The command handler that the constructor sets. -/
def handleCommand (res : ℤ) : Option CanbusComLoggingCommand → Bool × LoggingSystem κ
  | none => (false, S)
  | some command =>
    if command.isStart then ((S.logWriterStart res).1 == 0, (S.logWriterStart res).2)
    else ((S.logWriterStop res).1 == 0, (S.logWriterStop res).2)

end LoggingSystem

/-- A body is complete at the HTTP server, a command arrives, or the writer has started or stopped
without one. -/
inductive LoggingEvent
  | update (body : List UInt8)
  | command (command : Option CanbusComLoggingCommand) (res : ℤ)
  | running (isRunning : Bool)

def LoggingSystem.step (P : Parts J κ) (S : LoggingSystem κ) : LoggingEvent → LoggingSystem κ
  | .update body => { S with device := (exec (updateDevice P.json P.pointers body) S.device).2 }
  | .command command res => (S.handleCommand res command).2
  | .running isRunning => { S with writer := { S.writer with isRunning := isRunning } }

/-- The command that the writer carries out: it starts when it does not run, or stops when it does. -/
def LogWriterService.carriesOut (writer : LogWriterService κ) : LoggingEvent → Option CanbusComLoggingCommand
  | .command (some command) res =>
    if command.isStart ≠ writer.isRunning ∧ res = 0 then some command else none
  | _ => none

/-! ## What a step changes -/

section Step

variable (P : Parts J κ) (S : LoggingSystem κ) (e : LoggingEvent)

theorem LoggingSystem.logWriterStart_device (res : ℤ) :
    (S.logWriterStart res).2.device = S.device ∧
      (S.logWriterStart res).2.writer.logger = S.writer.logger := by
  unfold logWriterStart LogWriterService.logWriterStart onDisplay
  split
  · exact ⟨rfl, rfl⟩
  · split <;> exact ⟨rfl, rfl⟩

theorem LoggingSystem.logWriterStop_device (res : ℤ) :
    (S.logWriterStop res).2.device = S.device ∧
      (S.logWriterStop res).2.writer.logger = S.writer.logger := by
  unfold logWriterStop LogWriterService.logWriterStop onDisplay
  split
  · exact ⟨rfl, rfl⟩
  · split <;> exact ⟨rfl, rfl⟩

/-- Commands leave the stored configuration and the logger alone. -/
theorem LoggingSystem.handleCommand_device (res : ℤ) (command : Option CanbusComLoggingCommand) :
    (S.handleCommand res command).2.device = S.device ∧
      (S.handleCommand res command).2.writer.logger = S.writer.logger := by
  cases command with
  | none => exact ⟨rfl, rfl⟩
  | some command =>
    unfold handleCommand
    dsimp only
    split
    · exact S.logWriterStart_device res
    · exact S.logWriterStop_device res

/-- **The logger** is never replaced. -/
theorem LoggingSystem.step_logger : (S.step P e).writer.logger = S.writer.logger := by
  cases e with
  | update body => rfl
  | command command res => exact (S.handleCommand_device res command).2
  | running isRunning => rfl

/-- The configuration that an update stores, where the manager accepts it. -/
def accepted (P : Parts J κ) (S : LoggingSystem κ) : LoggingEvent → Option κ
  | .update body =>
    match P.configOf body with
    | .error _ => none
    | .ok new =>
      match P.update new S.device with
      | .stores => some new
      | .refuses => none
      | .throws _ => none
  | _ => none

/-- **The stored configuration** changes with the updates that are accepted. -/
theorem LoggingSystem.step_stored :
    (S.step P e).device.stored = (accepted P S e).getD S.device.stored := by
  cases e with
  | update body =>
    unfold step accepted
    dsimp only
    rw [P.exec_updateDevice]
    rcases P.configOf body with what | new
    · rfl
    · dsimp only
      rcases P.update new S.device with _ | _ | what
      · dsimp only
        rcases P.stop ⟨new, S.device.running⟩ with _ | ⟨what, stopped⟩
        · dsimp only
          rcases P.start ⟨new, none⟩ with _ | what <;> rfl
        · rfl
      · rfl
      · rfl
  | command command res => exact congrArg Device.stored (S.handleCommand_device res command).1
  | running isRunning => rfl

end Step

/-! ## The logger and the stored sensors -/

section Sensors

variable (P : Parts J κ) (device : Device κ) (writer : LogWriterService κ) (display : DisplayController)

/-- After the events, from the constructor on. -/
def LoggingSystem.after (events : List LoggingEvent) : LoggingSystem κ :=
  events.foldl (LoggingSystem.step P) (.construct P device writer display)

/-- The configuration of the last update that was accepted. -/
def lastAccepted (events : List LoggingEvent) : Option κ :=
  History.last (LoggingSystem.step P) (accepted P) (.construct P device writer display) events

/-- The event starts the log writer. -/
def LoggingSystem.Starts (S : LoggingSystem κ) (e : LoggingEvent) : Prop :=
  S.writer.carriesOut e = some ⟨true⟩

/-- The writer's logger was built from the sensors that are stored. -/
def LoggingSystem.UsesCurrentSensors (S : LoggingSystem κ) : Prop :=
  S.writer.logger = some ⟨S.device.stored⟩

theorem LoggingSystem.after_logger (events : List LoggingEvent) :
    (LoggingSystem.after P device writer display events).writer.logger = some ⟨device.stored⟩ :=
  foldl_invariant (I := fun S : LoggingSystem κ => S.writer.logger = some ⟨device.stored⟩)
    (fun S e h => (S.step_logger P e).trans h) rfl events

theorem LoggingSystem.after_stored (events : List LoggingEvent) :
    (LoggingSystem.after P device writer display events).device.stored =
      (lastAccepted P device writer display events).getD device.stored :=
  foldl_eq_last (I := fun _ => True) (g := fun S : LoggingSystem κ => S.device.stored)
    (fun _ _ _ => trivial) (fun S e _ => S.step_stored P e) trivial events

/-- **The sensors of the log**: the writer is only started on a logger of the stored sensors, exactly
when it is only started while the last update accepted has stored what the constructor found. -/
theorem usesCurrentSensors_iff (events : List LoggingEvent) :
    AtEach (fun before e => (LoggingSystem.after P device writer display before).Starts e →
        (LoggingSystem.after P device writer display before).UsesCurrentSensors) events ↔
      AtEach (fun before e => (LoggingSystem.after P device writer display before).Starts e →
        ∀ new, lastAccepted P device writer display before = some new → new = device.stored) events := by
  refine atEach_congr (fun before e => imp_congr_right fun _ => ?_) events
  unfold LoggingSystem.UsesCurrentSensors
  rw [LoggingSystem.after_logger, LoggingSystem.after_stored]
  cases lastAccepted P device writer display before with
  | none => simp
  | some new => simp [eq_comm]

end Sensors

/-- A device that reads every body as the configuration `true` and stores it. -/
def acceptingParts : Parts Unit Bool := { Http.cyclicParts with start := fun _ => .returns }

/-- `true` is stored after the constructor has built the logger from `false`, and the writer is started
on that logger. -/
theorem update_then_start : ¬ ∀ (P : Parts Unit Bool) (device : Device Bool) (writer : LogWriterService Bool)
    (display : DisplayController) (events : List LoggingEvent),
    AtEach (fun before e => (LoggingSystem.after P device writer display before).Starts e →
      (LoggingSystem.after P device writer display before).UsesCurrentSensors) events := by
  intro hall
  have hevents := hall acceptingParts ⟨false, some false⟩ ⟨false, none⟩ (.construct true someCfb)
    [.update [], .command (some ⟨true⟩) 0]
  have hcurrent := hevents [.update []] _ [] rfl rfl
  unfold LoggingSystem.UsesCurrentSensors at hcurrent
  rw [LoggingSystem.after_logger, LoggingSystem.after_stored] at hcurrent
  cases hcurrent

end EerieLeap.Controllers
