import EerieLeap.Lib.Proc

/-!
# One run of a CAN bus task

`processCanbusWorkTask` is what the worker of the scheduler runs for a task: it builds the frame from
the readings that are held, lets the processors replace its data, and hands it to the bus. Other
threads may run between any two of its accesses.

The state notes what a claim about the past needs: when a reading was recorded and a frame was sent,
counted in calls of `ClearReadings`, and which readings the task that runs has looked up.

* `ProcessorAccess`, `TaskAccess` : the accesses of a processor and of a task, with what each of them sees;
  the readings are seen by looking one up only, and what is noted is not seen;
* `TaskMay` : what a task may do to the state;
* `uses_processCanbusWorkTask`, `changes_processCanbusWorkTask` : it does no more than that.
-/

namespace EerieLeap.Canbus

open EerieLeap.Lib EerieLeap.Lib.Proc

/-- A `float`, by its bits. -/
abbrev Value := BitVec 32

/-! ## What is configured -/

/-- A Lua script, by its address. -/
structure LuaScript where
  address : ℕ
deriving DecidableEq

structure CanMessageConfiguration where
  frameId : UInt32
  sendIntervalMs : Option ℕ
  luaScript : Option LuaScript
deriving DecidableEq

/-- The channels in iteration order. -/
structure CanbusConfiguration where
  channelConfigurations : List (UInt8 × List CanMessageConfiguration)

/-- `EncodeMessage`: it ends with the bytes of the frame or throws, and asks for the signals it needs. -/
inductive Encoding
  | bytes (data : List UInt8)
  | throws (what : String)
  | signal (nameHash : ℕ) (next : Value → Encoding)

structure Dbc where
  hasMessage : UInt32 → Bool
  getMessage : UInt32 → Encoding

/-- A `CanbusProxy`, by its address. -/
structure CanbusProxy where
  address : ℕ
deriving DecidableEq

/-- What `CanbusService` answers: the bus of a channel, and the DBC that is loaded for it. -/
structure CanbusService where
  getCanbus : UInt8 → Option CanbusProxy
  dbc : UInt8 → Option Dbc

/-- The frame builder and the processors are those of the service, the same for every task. -/
structure CanbusTask where
  sendIntervalMs : ℕ
  busChannel : UInt8
  messageConfiguration : CanMessageConfiguration
  canbus : CanbusProxy
deriving DecidableEq

/-- A `k_timeout_t`. -/
inductive Timeout
  | noWait
  | msec (n : ℕ)
deriving DecidableEq

structure WorkQueueTaskResult where
  reschedule : Bool
  delay : Timeout
deriving DecidableEq

/-! ## The state the threads share -/

/-- A reading that is held; `epoch` counts the calls of `ClearReadings` before it was recorded. -/
structure Reading where
  signal : ℕ
  value : Value
  epoch : ℕ
deriving DecidableEq

/-- A frame handed to `SendFrame`, with the readings looked up for it; `epoch` counts the calls of
`ClearReadings` before that. -/
structure SentFrame where
  canbus : CanbusProxy
  frameId : UInt32
  data : List UInt8
  seen : List Reading
  epoch : ℕ
deriving DecidableEq

/-- What tasks do that others can tell. -/
inductive Event
  | lookup (signal : ℕ) (found : Option Reading)
  | sent (frame : SentFrame)
deriving DecidableEq

/-- `lua` is the state of the scripts, `sendError` what `SendFrame` throws if it does, `seen` the
readings looked up since the running task has started. -/
structure World (L : Type) where
  configuration : CanbusConfiguration
  service : CanbusService
  readings : List Reading
  epoch : ℕ
  busValid : CanbusProxy → Bool
  sendError : Option String
  lua : L
  trace : List Event
  seen : List Reading

namespace World

variable {L : Type} (w : World L)

def reading? (signal : ℕ) : Option Reading := w.readings.find? fun r => r.signal = signal

def value? (signal : ℕ) : Option Value := (w.reading? signal).map Reading.value

/-- `SensorReadingsFrame::TryGetReadingValue`, called by a task. -/
def lookUp (signal : ℕ) : World L :=
  { w with
    trace := w.trace ++ [.lookup signal (w.reading? signal)]
    seen := w.seen ++ (w.reading? signal).toList }

/-- `SensorReadingsFrame` with a reading recorded, in place of an earlier one of its signal. -/
def record (signal : ℕ) (value : Value) : World L :=
  { w with readings := ⟨signal, value, w.epoch⟩ :: w.readings.filter fun r => r.signal ≠ signal }

/-- `SensorReadingsFrame::ClearReadings`. -/
def clearReadings : World L := { w with readings := [], epoch := w.epoch + 1 }

def hand (canbus : CanbusProxy) (frameId : UInt32) (data : List UInt8) : World L :=
  { w with trace := w.trace ++ [.sent ⟨canbus, frameId, data, w.seen, w.epoch⟩] }

/-- A task starts. -/
def enter : World L := { w with seen := [] }

end World

abbrev Handler (L : Type) := Proc (World L) String

variable {L : Type}

/-! ## What a task may do -/

/-- What a processor may do: run its script, and look up and update readings from there. -/
inductive ProcessorMay : World L → World L → Prop
  | script (w : World L) (lua : L) : ProcessorMay w { w with lua := lua }
  | lookUp (w : World L) (signal : ℕ) : ProcessorMay w (w.lookUp signal)
  | record (w : World L) (signal : ℕ) (value : Value) : ProcessorMay w (w.record signal value)

/-- What a task may do: what a processor may, and hand a frame to the bus. -/
inductive TaskMay : World L → World L → Prop
  | processor {w w' : World L} (h : ProcessorMay w w') : TaskMay w w'
  | send (w : World L) (canbus : CanbusProxy) (frameId : UInt32) (data : List UInt8) :
      TaskMay w (w.hand canbus frameId data)

/-- The worlds differ in no more than the readings that are held and what is noted. -/
structure World.SameButReadings (w w' : World L) : Prop where
  configuration : w'.configuration = w.configuration
  service : w'.service = w.service
  busValid : w'.busValid = w.busValid
  sendError : w'.sendError = w.sendError
  lua : w'.lua = w.lua

/-- The accesses of a processor: a script goes on, and it looks a reading up or updates one. Of the readings
it sees the value it looks up. -/
inductive ProcessorAccess : (World L → World L) → (World L → World L → Prop) → Prop
  | script (lua : World L → L) (h : ∀ w w', w.SameButReadings w' → lua w = lua w') :
      ProcessorAccess (fun w => { w with lua := lua w }) World.SameButReadings
  | lookUp (signal : ℕ) : ProcessorAccess (fun w => w.lookUp signal)
      fun w w' => w.SameButReadings w' ∧ w'.value? signal = w.value? signal
  | record (signal : ℕ) (value : Value) :
      ProcessorAccess (fun w => w.record signal value) World.SameButReadings

/-- The accesses of a task. -/
inductive TaskAccess : (World L → World L) → (World L → World L → Prop) → Prop
  | processor {act : World L → World L} {same : World L → World L → Prop} (h : ProcessorAccess act same) :
      TaskAccess act same
  | send (canbus : CanbusProxy) (frameId : UInt32) (data : List UInt8) :
      TaskAccess (fun w => w.hand canbus frameId data) World.SameButReadings

/-- An access that only reads what a script may. -/
theorem ProcessorAccess.read : ProcessorAccess (L := L) id World.SameButReadings :=
  .script (fun w => w.lua) fun _ _ h => h.lua.symm

theorem ProcessorAccess.may {act : World L → World L} {same : World L → World L → Prop} (w : World L)
    (h : ProcessorAccess act same) : ProcessorMay w (act w) := by
  cases h with
  | script lua h => exact .script w _
  | lookUp signal => exact .lookUp w signal
  | record signal value => exact .record w signal value

theorem TaskAccess.may {act : World L → World L} {same : World L → World L → Prop} (w : World L)
    (h : TaskAccess act same) : TaskMay w (act w) := by
  cases h with
  | processor h => exact .processor (h.may w)
  | send canbus frameId data => exact .send w canbus frameId data

/-- What a task leaves as it is. -/
def World.SameSetup (w w' : World L) : Prop :=
  w'.configuration = w.configuration ∧ w'.service = w.service

theorem TaskMay.sameSetup {w w₁ w₂ : World L} (h : TaskMay w₁ w₂) (hw : w.SameSetup w₁) :
    w.SameSetup w₂ := by
  cases h with
  | processor h => cases h <;> exact hw
  | send canbus frameId data => exact hw

theorem ProcessorMay.refl (w : World L) : ProcessorMay w w := .script w w.lua

theorem TaskMay.refl (w : World L) : TaskMay w w := .processor (.refl w)

/-- A frame processor, which does no more than processors may, and sees no more. -/
structure ICanFrameProcessor (L : Type) where
  process : CanMessageConfiguration → List UInt8 → Handler L (List UInt8)
  uses : ∀ message data, (process message data).Uses ProcessorAccess

theorem ICanFrameProcessor.may (processor : ICanFrameProcessor L) (message : CanMessageConfiguration)
    (data : List UInt8) : (processor.process message data).Changes ProcessorMay :=
  (processor.uses message data).changes fun _ _ w => ProcessorAccess.may w

/-! ## The handler -/

def tryGetReadingValue (signal : ℕ) : Handler L (Option Value) :=
  atomic fun w => (.ok (w.value? signal), w.lookUp signal)

/-- `EncodeMessage` with the getter of `Build`, for which a signal without a reading is `0.0f`. -/
def encodeMessage : Encoding → Handler L (List UInt8)
  | .bytes data => pure data
  | .throws what => .fail what
  | .signal nameHash next => do
    let reading ← tryGetReadingValue nameHash
    encodeMessage (next (reading.getD 0))

/-- The `try` block of `CanFrameDbcBuilder::Build`. -/
def buildBlock (busChannel : UInt8) (frameId : UInt32) : Handler L (List UInt8) := do
  match ← Proc.read fun w => w.service.dbc busChannel with
  | none => .fail "DBC not loaded"
  | some dbc => encodeMessage (dbc.getMessage frameId)

/-- `CanFrameDbcBuilder::Build`. -/
def build (busChannel : UInt8) (frameId : UInt32) : Handler L (List UInt8) :=
  Proc.handle (buildBlock busChannel frameId) fun _ => pure []

/-- The loop over the processors: data that is not empty replaces what there was. -/
def processFrame (message : CanMessageConfiguration) :
    List (ICanFrameProcessor L) → List UInt8 → Handler L (List UInt8)
  | [], canFrameData => pure canFrameData
  | processor :: processors, canFrameData => do
    let processedData ← processor.process message canFrameData
    processFrame message processors (if processedData.isEmpty then canFrameData else processedData)

/-- `CanbusProxy::SendFrame`, which is handed the frame also when it throws. -/
def sendFrame (canbus : CanbusProxy) (frameId : UInt32) (data : List UInt8) : Handler L Unit :=
  atomic fun w =>
    (match w.sendError with
      | none => .ok ()
      | some what => .error what, w.hand canbus frameId data)

/-- `CanbusSchedulerService::ProcessCanbusWorkTask`. -/
def processCanbusWorkTask (processors : List (ICanFrameProcessor L)) (task : CanbusTask) :
    Handler L WorkQueueTaskResult :=
  Proc.handle (do
    let valid ← Proc.read fun w => w.busValid task.canbus
    if !valid then
      return ⟨false, .noWait⟩
    else
      let canFrameData ← build task.busChannel task.messageConfiguration.frameId
      let canFrameData ← processFrame task.messageConfiguration processors canFrameData
      if 0 < canFrameData.length then
        sendFrame task.canbus task.messageConfiguration.frameId canFrameData
      return ⟨true, .msec task.sendIntervalMs⟩)
    fun _ => pure ⟨true, .msec task.sendIntervalMs⟩

/-! ## It does no more than it may -/

theorem uses_tryGetReadingValue (signal : ℕ) : (tryGetReadingValue (L := L) signal).Uses ProcessorAccess :=
  uses_atomic (.lookUp signal) fun _ _ h => congrArg Except.ok h.2.symm

theorem uses_encodeMessage (e : Encoding) : (encodeMessage (L := L) e).Uses ProcessorAccess := by
  induction e with
  | bytes data => trivial
  | throws what => trivial
  | signal nameHash next ih => exact uses_bind (uses_tryGetReadingValue nameHash) fun v => ih _

/-- The builder does what a processor may. -/
theorem uses_build (busChannel : UInt8) (frameId : UInt32) :
    (build (L := L) busChannel frameId).Uses ProcessorAccess := by
  refine uses_handle (uses_bind (uses_read .read ?_) fun dbc => ?_) fun _ => trivial
  · intro w w' h
    rw [h.service]
  · cases dbc with
    | none => trivial
    | some dbc => exact uses_encodeMessage _

theorem changes_build (busChannel : UInt8) (frameId : UInt32) :
    (build (L := L) busChannel frameId).Changes ProcessorMay :=
  (uses_build busChannel frameId).changes fun _ _ w => ProcessorAccess.may w

theorem uses_processFrame (message : CanMessageConfiguration)
    (processors : List (ICanFrameProcessor L)) (data : List UInt8) :
    (processFrame message processors data).Uses ProcessorAccess := by
  induction processors generalizing data with
  | nil => trivial
  | cons processor processors ih => exact uses_bind (processor.uses message data) fun _ => ih _

theorem uses_sendFrame (canbus : CanbusProxy) (frameId : UInt32) (data : List UInt8) :
    (sendFrame (L := L) canbus frameId data).Uses TaskAccess := by
  refine uses_atomic (.send canbus frameId data) fun w w' h => ?_
  rw [h.sendError]

/-- **A task** does no more than it may, and sees no more. -/
theorem uses_processCanbusWorkTask (processors : List (ICanFrameProcessor L)) (task : CanbusTask) :
    (processCanbusWorkTask processors task).Uses TaskAccess := by
  have hprocessor {α : Type} {x : Handler L α} (hx : x.Uses ProcessorAccess) : x.Uses TaskAccess :=
    hx.mono fun _ _ => .processor
  refine uses_handle (uses_bind (hprocessor (uses_read .read ?_)) fun valid => ?_) fun _ => trivial
  · intro w w' h
    rw [h.busValid]
  cases valid with
  | false => trivial
  | true =>
    refine uses_bind (hprocessor (uses_build _ _)) fun built =>
      uses_bind (hprocessor (uses_processFrame _ _ _)) fun data => ?_
    split
    · exact uses_bind (uses_sendFrame _ _ _) fun _ => trivial
    · trivial

theorem changes_processCanbusWorkTask (processors : List (ICanFrameProcessor L)) (task : CanbusTask) :
    (processCanbusWorkTask processors task).Changes TaskMay :=
  (uses_processCanbusWorkTask processors task).changes fun _ _ w => TaskAccess.may w

end EerieLeap.Canbus
