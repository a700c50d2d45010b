import EerieLeap.Lib.WorkQueue
import EerieLeap.Canbus.CanbusTask

/-!
# The scheduler of the CAN bus tasks

`CanbusSchedulerService` keeps a list of tasks, which `Start`, `Pause`, `Resume` and `Restart` create,
schedule, cancel and discard, while the worker of its queue runs them. `Step` interleaves the
statements of the operation that runs with the accesses of the worker, and with the changes that others
make to the readings, the configuration and the bus.

* `CanbusConfiguration.mem_entries`, `getElem?_entries` : the entries and their order;
* `createTask` : the task of an entry of the configuration, or none;
* `createTask_cases` : the entries that get one, and which entry it is for;
* `Step` : the steps of the system;
* `Step.changing`, `Step.uses` : the worker is always at a task;
* `Step.sameTasks` : what the steps of other threads leave as it is.
-/

namespace EerieLeap.Canbus

open EerieLeap.Lib EerieLeap.Lib.Proc

variable {L : Type}

/-! ## Tasks for entries -/

/-- A message of the configuration, with the channel it is for. -/
abbrev Entry := UInt8 × CanMessageConfiguration

/-- The entries in the order in which the two loops of `Start` come to them. -/
def CanbusConfiguration.entries (configuration : CanbusConfiguration) : List Entry :=
  configuration.channelConfigurations.flatMap fun channel =>
    channel.2.map fun message => (channel.1, message)

theorem CanbusConfiguration.mem_entries {configuration : CanbusConfiguration} {channel : UInt8}
    {message : CanMessageConfiguration} : (channel, message) ∈ configuration.entries ↔
      ∃ messages, (channel, messages) ∈ configuration.channelConfigurations ∧ message ∈ messages := by
  simp only [entries, List.mem_flatMap, List.mem_map, Prod.mk.injEq]
  constructor
  · rintro ⟨⟨channel', messages⟩, hchannel, message', hmessage, rfl, rfl⟩
    exact ⟨messages, hchannel, hmessage⟩
  · rintro ⟨messages, hchannel, hmessage⟩
    exact ⟨(channel, messages), hchannel, message, hmessage, rfl, rfl⟩

/-- The messages of a channel stand in their order, after those of the channels before it. -/
theorem CanbusConfiguration.getElem?_entries {before after : List (UInt8 × List CanMessageConfiguration)}
    {channel : UInt8} {messages : List CanMessageConfiguration} {j : ℕ} (hj : j < messages.length) :
    (⟨before ++ (channel, messages) :: after⟩ : CanbusConfiguration).entries[
      (⟨before⟩ : CanbusConfiguration).entries.length + j]? =
        messages[j]?.map fun message => (channel, message) := by
  simp only [entries]
  rw [List.flatMap_append, List.flatMap_cons, List.getElem?_append_right (by omega),
    Nat.add_sub_cancel_left, List.getElem?_append_left (by simpa using hj), List.getElem?_map]

/-- A `WorkQueueTask`; `id` tells two apart that are for the same entry. -/
structure WorkQueueTask where
  id : ℕ
  userdata : CanbusTask
deriving DecidableEq

def WorkQueueTask.entry (task : WorkQueueTask) : Entry :=
  (task.userdata.busChannel, task.userdata.messageConfiguration)

/-- What `GlobalFunctionsRegistry` does to the state of a script. -/
structure GlobalFunctionsRegistry (L : Type) where
  registerGetSensorValue : LuaScript → L → L
  registerUpdateSensorValue : LuaScript → L → L

/-- What the service is made with. -/
structure Parts (L : Type) where
  registry : GlobalFunctionsRegistry L
  canFrameProcessors : List (ICanFrameProcessor L)

variable (parts : Parts L)

def initializeScript (message : CanMessageConfiguration) (lua : L) : L :=
  match message.luaScript with
  | none => lua
  | some script =>
    parts.registry.registerUpdateSensorValue script (parts.registry.registerGetSensorValue script lua)

/-- `CanbusSchedulerService::CreateTask`, where `none` stands for `nullptr`. -/
def createTask (entry : Entry) (w : World L) : Option CanbusTask × World L :=
  match w.service.getCanbus entry.1 with
  | none => (none, w)
  | some canbus =>
    match w.service.dbc entry.1 with
    | none => (none, w)
    | some dbc =>
      if !dbc.hasMessage entry.2.frameId then (none, w)
      else
        match entry.2.sendIntervalMs with
        | none => (none, w)
        | some interval =>
          (some ⟨interval, entry.1, entry.2, canbus⟩,
            { w with lua := initializeScript parts entry.2 w.lua })

/-- The entries that get a task: there is a bus, the DBC is loaded and has the message, and the message
has an interval. -/
structure Schedulable (service : CanbusService) (entry : Entry) : Prop where
  canbus : ∃ canbus, service.getCanbus entry.1 = some canbus
  dbc : ∃ dbc, service.dbc entry.1 = some dbc ∧ dbc.hasMessage entry.2.frameId = true
  interval : ∃ interval, entry.2.sendIntervalMs = some interval

instance (service : CanbusService) (entry : Entry) : Decidable (Schedulable service entry) :=
  decidable_of_iff ((service.getCanbus entry.1).isSome ∧
      (service.dbc entry.1).any (fun dbc => dbc.hasMessage entry.2.frameId) ∧
      entry.2.sendIntervalMs.isSome) <| by
    simp only [Option.isSome_iff_exists, Option.any_eq_true]
    exact ⟨fun h => ⟨h.1, h.2.1, h.2.2⟩, fun h => ⟨h.canbus, h.dbc, h.interval⟩⟩

/-- The task is for the entry, with its interval and the bus of its channel. -/
structure TaskFor (service : CanbusService) (entry : Entry) (task : WorkQueueTask) : Prop where
  entry_eq : task.entry = entry
  interval : entry.2.sendIntervalMs = some task.userdata.sendIntervalMs
  canbus : service.getCanbus entry.1 = some task.userdata.canbus

theorem createTask_cases (entry : Entry) (w : World L) :
    (¬ Schedulable w.service entry ∧ createTask parts entry w = (none, w)) ∨
      (Schedulable w.service entry ∧ ∃ task lua,
        createTask parts entry w = (some task, { w with lua := lua }) ∧
        (task.busChannel, task.messageConfiguration) = entry ∧
        entry.2.sendIntervalMs = some task.sendIntervalMs ∧
        w.service.getCanbus entry.1 = some task.canbus) := by
  unfold createTask
  cases hcanbus : w.service.getCanbus entry.1 with
  | none =>
    refine Or.inl ⟨fun h => ?_, rfl⟩
    obtain ⟨canbus, hsome⟩ := h.canbus
    simp [hcanbus] at hsome
  | some canbus =>
    cases hdbc : w.service.dbc entry.1 with
    | none =>
      refine Or.inl ⟨fun h => ?_, rfl⟩
      obtain ⟨dbc, hsome, -⟩ := h.dbc
      simp [hdbc] at hsome
    | some dbc =>
      cases hmessage : dbc.hasMessage entry.2.frameId with
      | false =>
        refine Or.inl ⟨fun h => ?_, by simp [hmessage]⟩
        obtain ⟨dbc', hsome, hhas⟩ := h.dbc
        obtain rfl := Option.some.inj (hdbc.symm.trans hsome)
        simp [hmessage] at hhas
      | true =>
        cases hinterval : entry.2.sendIntervalMs with
        | none =>
          refine Or.inl ⟨fun h => ?_, by simp [hmessage]⟩
          obtain ⟨interval, hsome⟩ := h.interval
          simp [hinterval] at hsome
        | some interval =>
          exact Or.inr ⟨⟨⟨canbus, hcanbus⟩, ⟨dbc, hdbc, hmessage⟩, ⟨interval, hinterval⟩⟩,
            _, _, by simp [hmessage]; exact ⟨rfl, rfl⟩, rfl, rfl, rfl⟩

/-! ## The system -/

inductive Operation
  | start
  | restart
  | pause
  | resume
deriving DecidableEq

/-- Where the thread that calls the operations is. -/
inductive Control
  /-- Between operations, after the given one, if any. -/
  | returned (operation : Option Operation)
  /-- In the loop of `Pause`, which `Restart` calls too, with the tasks it has not got to yet. -/
  | pausing (operation : Operation) (rest : List WorkQueueTask)
  /-- In `Restart`, after `work_queue_tasks_.clear()` and before `ClearReadings`. -/
  | clearingReadings
  /-- In the two loops of `Start`, which `Restart` calls too. -/
  | creating (operation : Operation) (rest : List Entry)
  /-- In the loop of `StartTasks` or `Resume`. -/
  | scheduling (operation : Operation) (rest : List WorkQueueTask)

structure Scheduler (L : Type) where
  control : Control
  workQueueTasks : List WorkQueueTask
  nextId : ℕ
  queue : WorkQueue WorkQueueTask (Handler L WorkQueueTaskResult)
  /-- Every call of `Schedule` so far. -/
  scheduleCalls : List WorkQueueTask
  world : World L

/-- Before anything is recorded or sent. -/
def World.initial (configuration : CanbusConfiguration) (service : CanbusService)
    (busValid : CanbusProxy → Bool) (lua : L) : World L where
  configuration := configuration
  service := service
  readings := []
  epoch := 0
  busValid := busValid
  sendError := none
  lua := lua
  trace := []
  seen := []

/-- After `Initialize`. -/
def Scheduler.initialized (world : World L) : Scheduler L := ⟨.returned none, [], 0, .empty, [], world⟩

namespace Scheduler

variable (S : Scheduler L)

/-- `Start`, from where it reads the configuration. -/
def startFrom (operation : Operation) : Scheduler L :=
  { S with control := .creating operation S.world.configuration.entries }

/-- The body of the loops of `Start`, for one entry. -/
def create (parts : Parts L) (operation : Operation) (entry : Entry) (rest : List Entry) : Scheduler L :=
  match createTask parts entry S.world with
  | (none, world) => { S with control := .creating operation rest, world := world }
  | (some task, world) =>
    { S with
      control := .creating operation rest
      workQueueTasks := S.workQueueTasks ++ [⟨S.nextId, task⟩]
      nextId := S.nextId + 1
      world := world }

/-- The body of the loops of `StartTasks` and `Resume`, for one task. -/
def schedule (operation : Operation) (task : WorkQueueTask) (rest : List WorkQueueTask) : Scheduler L :=
  { S with
    control := .scheduling operation rest
    queue := S.queue.schedule task
    scheduleCalls := S.scheduleCalls ++ [task] }

theorem create_spec (operation : Operation) (entry : Entry) (rest : List Entry) :
    (¬ Schedulable S.world.service entry ∧
        S.create parts operation entry rest = { S with control := .creating operation rest }) ∨
      (Schedulable S.world.service entry ∧ ∃ (task : WorkQueueTask) (lua : L),
        TaskFor S.world.service entry task ∧ task.id = S.nextId ∧
        S.create parts operation entry rest =
          { S with
            control := .creating operation rest
            workQueueTasks := S.workQueueTasks ++ [task]
            nextId := S.nextId + 1
            world := { S.world with lua := lua } }) := by
  unfold create
  rcases createTask_cases parts entry S.world with
    ⟨hnot, hcreate⟩ | ⟨hyes, task, lua, hcreate, hentry, hinterval, hcanbus⟩
  · rw [hcreate]
    exact Or.inl ⟨hnot, rfl⟩
  · rw [hcreate]
    exact Or.inr ⟨hyes, ⟨S.nextId, task⟩, lua, ⟨hentry, hinterval, hcanbus⟩, rfl, rfl⟩

theorem create_cases (operation : Operation) (entry : Entry) (rest : List Entry) :
    (¬ Schedulable S.world.service entry ∧
        S.create parts operation entry rest = { S with control := .creating operation rest }) ∨
      (Schedulable S.world.service entry ∧ ∃ (task : WorkQueueTask) (lua : L), task.entry = entry ∧
        S.create parts operation entry rest =
          { S with
            control := .creating operation rest
            workQueueTasks := S.workQueueTasks ++ [task]
            nextId := S.nextId + 1
            world := { S.world with lua := lua } }) := by
  rcases S.create_spec parts operation entry rest with h | ⟨hyes, task, lua, htask, -, heq⟩
  · exact Or.inl h
  · exact Or.inr ⟨hyes, task, lua, htask.entry_eq, heq⟩

/-- Creating a task leaves the queue as it is. -/
theorem create_queue (operation : Operation) (entry : Entry) (rest : List Entry) :
    (S.create parts operation entry rest).queue = S.queue := by
  rcases S.create_cases parts operation entry rest with ⟨-, heq⟩ | ⟨-, task, lua, -, heq⟩
  · rw [heq]
  · rw [heq]

/-- And the world, but for its script. -/
theorem create_world (operation : Operation) (entry : Entry) (rest : List Entry) :
    ∃ lua, (S.create parts operation entry rest).world = { S.world with lua := lua } := by
  rcases S.create_cases parts operation entry rest with ⟨-, heq⟩ | ⟨-, task, lua, -, heq⟩
  · exact ⟨S.world.lua, by rw [heq]⟩
  · exact ⟨lua, by rw [heq]⟩

end Scheduler

/-- `main` calls an operation, the operation goes on, the worker makes a step, a reading is recorded, the
configuration or the service's answers change, or the bus does. -/
inductive Label
  | call (operation : Operation)
  | proceed
  | work
  | record (signal : ℕ) (value : Value)
  | configure (configuration : CanbusConfiguration) (service : CanbusService)
  | bus (busValid : CanbusProxy → Bool) (sendError : Option String)

/-- The steps of the system. `Cancel` may answer `true` at any time, and `false` only when the task does
not run; that it is not pending any more it sees to itself. The configuration and the service's answers
may change at any time, but not while `Start` goes through them. -/
inductive Step : Scheduler L → Label → Scheduler L → Prop
  | start {S : Scheduler L} {last : Option Operation} (h : S.control = .returned last) :
      Step S (.call .start) (S.startFrom .start)
  | restart {S : Scheduler L} {last : Option Operation} (h : S.control = .returned last) :
      Step S (.call .restart) { S with control := .pausing .restart S.workQueueTasks }
  | pause {S : Scheduler L} {last : Option Operation} (h : S.control = .returned last) :
      Step S (.call .pause) { S with control := .pausing .pause S.workQueueTasks }
  | resume {S : Scheduler L} {last : Option Operation} (h : S.control = .returned last) :
      Step S (.call .resume) { S with control := .scheduling .resume S.workQueueTasks }
  | cancelAgain {S : Scheduler L} {operation : Operation} {task : WorkQueueTask}
      {rest : List WorkQueueTask} (h : S.control = .pausing operation (task :: rest)) :
      Step S .proceed { S with queue := S.queue.cancel task }
  | cancelled {S : Scheduler L} {operation : Operation} {task : WorkQueueTask}
      {rest : List WorkQueueTask} (h : S.control = .pausing operation (task :: rest))
      (hidle : ¬ S.queue.Runs task) :
      Step S .proceed { S with control := .pausing operation rest, queue := S.queue.cancel task }
  | paused {S : Scheduler L} (h : S.control = .pausing .pause []) :
      Step S .proceed { S with control := .returned (some .pause) }
  | clearTasks {S : Scheduler L} (h : S.control = .pausing .restart []) :
      Step S .proceed { S with control := .clearingReadings, workQueueTasks := [] }
  | clearReadings {S : Scheduler L} (h : S.control = .clearingReadings) :
      Step S .proceed (({ S with world := S.world.clearReadings } : Scheduler L).startFrom .restart)
  | create {S : Scheduler L} {operation : Operation} {entry : Entry} {rest : List Entry}
      (h : S.control = .creating operation (entry :: rest)) :
      Step S .proceed (S.create parts operation entry rest)
  | created {S : Scheduler L} {operation : Operation} (h : S.control = .creating operation []) :
      Step S .proceed { S with control := .scheduling operation S.workQueueTasks }
  | schedule {S : Scheduler L} {operation : Operation} {task : WorkQueueTask}
      {rest : List WorkQueueTask} (h : S.control = .scheduling operation (task :: rest)) :
      Step S .proceed (S.schedule operation task rest)
  | scheduled {S : Scheduler L} {operation : Operation} (h : S.control = .scheduling operation []) :
      Step S .proceed { S with control := .returned (some operation) }
  | work {S : Scheduler L} {world : World L}
      {queue : WorkQueue WorkQueueTask (Handler L WorkQueueTaskResult)}
      (h : WorkQueue.Work (fun task => processCanbusWorkTask parts.canFrameProcessors task.userdata)
        WorkQueueTaskResult.reschedule World.enter (S.world, S.queue) (world, queue)) :
      Step S .work { S with world := world, queue := queue }
  | record (S : Scheduler L) (signal : ℕ) (value : Value) :
      Step S (.record signal value) { S with world := S.world.record signal value }
  | configure {S : Scheduler L} (configuration : CanbusConfiguration) (service : CanbusService)
      (h : ∀ operation rest, S.control ≠ .creating operation rest) :
      Step S (.configure configuration service)
        { S with world := { S.world with configuration := configuration, service := service } }
  | bus (S : Scheduler L) (busValid : CanbusProxy → Bool) (sendError : Option String) :
      Step S (.bus busValid sendError)
        { S with world := { S.world with busValid := busValid, sendError := sendError } }

/-- Some run, all whose steps meet `P`, leads from one state to the other. -/
def RunsWhere (P : Scheduler L → Label → Prop) : Scheduler L → Scheduler L → Prop :=
  Relation.ReflTransGen fun S S' => ∃ l, P S l ∧ Step parts S l S'

/-- Some run leads from one state to the other. -/
def Runs : Scheduler L → Scheduler L → Prop := RunsWhere parts fun _ _ => True

variable {parts} {S S' : Scheduler L} {l : Label}

/-- What is left of the task the worker is at meets what every task meets and no access ends. -/
theorem Step.holds {P : Handler L WorkQueueTaskResult → Prop} (h : Step parts S l S') (hS : S.queue.Holds P)
    (hprogram : ∀ task, P (processCanbusWorkTask parts.canFrameProcessors task))
    (hP : ∀ x x' w w', P x → Proc.Step (x, w) (x', w') → P x') : S'.queue.Holds P := by
  cases h with
  | cancelAgain h => exact hS.cancel _
  | cancelled h hidle => exact hS.cancel _
  | create h =>
    rw [Scheduler.create_queue]
    exact hS
  | schedule h => exact hS.schedule _
  | work h => exact h.holds hS (fun _ => hprogram _) hP
  | _ => exact hS

/-- The worker is always at a task. -/
theorem Step.changing (h : Step parts S l S') (hS : S.queue.Changing TaskMay) :
    S'.queue.Changing TaskMay :=
  h.holds hS (changes_processCanbusWorkTask _) fun _ _ _ _ hx hstep => (hx.step hstep).2

theorem Step.uses (h : Step parts S l S') (hS : S.queue.Holds (Uses TaskAccess)) :
    S'.queue.Holds (Uses TaskAccess) :=
  h.holds hS (uses_processCanbusWorkTask _) fun _ _ _ _ hx hstep => hx.step hstep

/-- What the worker does by itself is a run. -/
theorem runs_work {P : Scheduler L → Label → Prop} (hP : ∀ S, P S .work) {world : World L}
    {queue : WorkQueue WorkQueueTask (Handler L WorkQueueTaskResult)}
    (h : Relation.ReflTransGen
      (WorkQueue.Work (fun task => processCanbusWorkTask parts.canFrameProcessors task.userdata)
        WorkQueueTaskResult.reschedule World.enter) (S.world, S.queue) (world, queue)) :
    RunsWhere parts P S { S with world := world, queue := queue } := by
  refine Relation.ReflTransGen.lift
    (fun p : World L × WorkQueue WorkQueueTask (Handler L WorkQueueTaskResult) =>
      ({ S with world := p.1, queue := p.2 } : Scheduler L)) ?_ _ _ h
  intro p p' hwork
  exact ⟨.work, hP _, .work hwork⟩

/-- The only task that is pending may run from its beginning to its end, and be pending again. -/
theorem runs_tick {P : Scheduler L → Label → Prop} (hP : ∀ S, P S .work) {task : WorkQueueTask}
    {result : WorkQueueTaskResult} {world : World L} (hqueue : S.queue = ⟨[task], none⟩)
    (hrun : runAlone (processCanbusWorkTask parts.canFrameProcessors task.userdata) S.world.enter =
      (.ok result, world)) (hagain : result.reschedule = true) :
    RunsWhere parts P S { S with world := world } := by
  have hwork : Relation.ReflTransGen
      (WorkQueue.Work (fun task => processCanbusWorkTask parts.canFrameProcessors task.userdata)
        WorkQueueTaskResult.reschedule World.enter) (S.world, S.queue) (world, S.queue) := by
    rw [hqueue]
    exact WorkQueue.Work.runs_alone hrun hagain
  exact runs_work hP hwork

/-- What neither an operation nor a call of one changes. -/
structure Scheduler.SameTasks (S S' : Scheduler L) : Prop where
  control : S'.control = S.control
  workQueueTasks : S'.workQueueTasks = S.workQueueTasks
  scheduleCalls : S'.scheduleCalls = S.scheduleCalls
  nextId : S'.nextId = S.nextId

/-- **Other threads** leave the operation and the list as they are, and only `configure` changes what the
operation reads. -/
theorem Step.sameTasks (h : Step parts S l S') (hS : S.queue.Changing TaskMay)
    (hcall : ∀ operation, l ≠ .call operation) (hproceed : l ≠ .proceed) :
    S.SameTasks S' ∧ ((∀ configuration service, l ≠ .configure configuration service) →
      S.world.SameSetup S'.world) := by
  cases h with
  | start h => exact absurd rfl (hcall _)
  | restart h => exact absurd rfl (hcall _)
  | pause h => exact absurd rfl (hcall _)
  | resume h => exact absurd rfl (hcall _)
  | work h =>
    have hsetup := h.keeps_always (I := S.world.SameSetup) hS (fun _ hw => hw)
      (fun _ _ h hw => h.sameSetup hw) ⟨rfl, rfl⟩
    exact ⟨⟨rfl, rfl, rfl, rfl⟩, fun _ => hsetup⟩
  | record signal value => exact ⟨⟨rfl, rfl, rfl, rfl⟩, fun _ => ⟨rfl, rfl⟩⟩
  | configure configuration service h =>
    exact ⟨⟨rfl, rfl, rfl, rfl⟩, fun hconfigure => absurd rfl (hconfigure _ _)⟩
  | bus busValid sendError => exact ⟨⟨rfl, rfl, rfl, rfl⟩, fun _ => ⟨rfl, rfl⟩⟩
  | _ => exact absurd rfl hproceed

theorem changing_initialized (w : World L) : (Scheduler.initialized w).queue.Changing TaskMay := by
  simp [Scheduler.initialized, WorkQueue.empty, WorkQueue.Changing]

/-! ## One message -/

/-- A message that is sent every 100 ms. -/
def oneMessage : CanMessageConfiguration := ⟨0x10, some 100, none⟩

def oneConfiguration : CanbusConfiguration := ⟨[(0, [oneMessage])]⟩

/-- A bus and a DBC for every channel, which has every message, each with the low byte of a signal. -/
def oneService : CanbusService where
  getCanbus _ := some ⟨0⟩
  dbc _ := some ⟨fun _ => true, fun _ => .signal 7 fun value => .bytes [UInt8.ofNat value.toNat]⟩

/-- No scripts and no processors. -/
def noParts : Parts Unit := ⟨⟨fun _ => id, fun _ => id⟩, []⟩

def oneWorld : World Unit := .initial oneConfiguration oneService (fun _ => true) ()

def oneTask (id : ℕ) : WorkQueueTask := ⟨id, 100, 0, oneMessage, ⟨0⟩⟩

/-- The scheduler with one task, after `Start`. -/
def oneStarted : Scheduler Unit :=
  ⟨.returned (some .start), [oneTask 0], 1, ⟨[oneTask 0], none⟩, [oneTask 0], oneWorld⟩

/-- The scheduler with one task, after `Start` and `Pause`. -/
def onePaused : Scheduler Unit :=
  ⟨.returned (some .pause), [oneTask 0], 1, ⟨[], none⟩, [oneTask 0], oneWorld⟩

theorem runs_oneStarted {P : Scheduler Unit → Label → Prop}
    (hstart : P (.initialized oneWorld) (.call .start)) (hproceed : ∀ S, P S .proceed) :
    RunsWhere noParts P (.initialized oneWorld) oneStarted :=
  .tail (.tail (.tail (.tail (.tail .refl ⟨_, hstart, .start rfl⟩) ⟨_, hproceed _, .create rfl⟩)
    ⟨_, hproceed _, .created rfl⟩) ⟨_, hproceed _, .schedule rfl⟩) ⟨_, hproceed _, .scheduled rfl⟩

theorem not_runs_oneStarted (t : WorkQueueTask) : ¬ oneStarted.queue.Runs t := by
  rintro ⟨r, hr, -⟩
  cases hr

theorem runs_onePaused : Runs noParts (.initialized oneWorld) onePaused :=
  (runs_oneStarted trivial fun _ => trivial).trans <|
    .tail (.tail (.tail .refl ⟨_, trivial, .pause rfl⟩)
    ⟨_, trivial, .cancelled rfl (not_runs_oneStarted _)⟩) ⟨_, trivial, .paused rfl⟩

end EerieLeap.Canbus
