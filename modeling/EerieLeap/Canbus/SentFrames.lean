import EerieLeap.Canbus.CanbusSchedulerService

/-!
# Only configured frames are sent

The bus and the frame id of a task are those of the entry it was created for, the entry was configured at
that moment, and the worker only runs tasks that were created. So whatever the operations, the worker and
the others do, no frame is sent that was never configured for its bus, and none that is empty.

* `Sends F` : the changes that only send frames that meet `F`;
* `Scheduler.Configured` : the invariant of the runs in which what is configured meets `F`;
* `sent_configured` : the result.
-/

namespace EerieLeap.Canbus

open EerieLeap.Lib EerieLeap.Lib.Proc

variable {L : Type} (F : CanbusProxy → UInt32 → Prop)

/-! ## What a task sends -/

/-- A frame meets `F` and is not empty. -/
def SentFrame.Meets (frame : SentFrame) : Prop := F frame.canbus frame.frameId ∧ frame.data ≠ []

/-- Every frame that is sent meets `F`. -/
def World.SentMeet (w : World L) : Prop := ∀ frame, Event.sent frame ∈ w.trace → frame.Meets F

/-- If the frames sent before meet `F`, so do those sent after. -/
def Sends (w w' : World L) : Prop := w.SentMeet F → w'.SentMeet F

def WorkQueueTask.Meets (t : WorkQueueTask) : Prop :=
  F t.userdata.canbus t.userdata.messageConfiguration.frameId

variable {F}

theorem ProcessorMay.sends {w w' : World L} (h : ProcessorMay w w') : Sends F w w' := by
  intro hw frame hframe
  cases h with
  | script lua => exact hw frame hframe
  | lookUp signal => exact hw frame (by simpa [World.lookUp] using hframe)
  | record signal value => exact hw frame hframe

theorem sends_hand {w : World L} {canbus : CanbusProxy} {frameId : UInt32} {data : List UInt8}
    (hF : F canbus frameId) (hdata : data ≠ []) : Sends F w (w.hand canbus frameId data) := by
  intro hw frame hframe
  rcases List.mem_append.mp hframe with hframe | hframe
  · exact hw frame hframe
  · obtain rfl := Event.sent.inj (List.mem_singleton.mp hframe)
    exact ⟨hF, hdata⟩

theorem changes_processFrame_sends (message : CanMessageConfiguration)
    (processors : List (ICanFrameProcessor L)) (data : List UInt8) :
    (processFrame message processors data).Changes (Sends F) := by
  induction processors generalizing data with
  | nil => trivial
  | cons processor processors ih =>
    exact changes_bind ((processor.may message data).mono fun _ _ => ProcessorMay.sends) fun _ => ih _

/-- **A task** only sends its own frame, and none that is empty. -/
theorem changes_processCanbusWorkTask_sends (processors : List (ICanFrameProcessor L)) {task : CanbusTask}
    (hF : F task.canbus task.messageConfiguration.frameId) :
    (processCanbusWorkTask processors task).Changes (Sends F) := by
  refine changes_handle (changes_bind (changes_read fun _ => id) fun valid => ?_) fun _ => trivial
  cases valid with
  | false => trivial
  | true =>
    refine changes_bind ((changes_build _ _).mono fun _ _ => ProcessorMay.sends) fun built =>
      changes_bind (changes_processFrame_sends _ _ _) fun data => ?_
    split
    · rename_i hlength
      exact changes_bind (changes_atomic fun w => sends_hand hF (List.length_pos_iff.mp hlength))
        fun _ => trivial
    · trivial

/-! ## The invariant -/

variable (F) in
/-- What is configured meets `F`. -/
def World.ConfiguredMeet (w : World L) : Prop :=
  ∀ entry ∈ w.configuration.entries, Schedulable w.service entry →
    ∀ canbus, w.service.getCanbus entry.1 = some canbus → F canbus entry.2.frameId

variable (F) in
/-- What the loops are still to come to is configured, or meets `F`. -/
def Control.Configured (w : World L) : Control → Prop
  | .creating _ rest => ∀ entry ∈ rest, entry ∈ w.configuration.entries
  | .scheduling _ rest => ∀ t ∈ rest, t.Meets F
  | _ => True

variable (F) in
structure Scheduler.Configured (S : Scheduler L) : Prop where
  tasks : ∀ t ∈ S.workQueueTasks, t.Meets F
  pending : ∀ t ∈ S.queue.pending, t.Meets F
  runs : ∀ t, S.queue.Runs t → t.Meets F
  sends : S.queue.Changing (Sends F)
  changing : S.queue.Changing TaskMay
  sent : S.world.SentMeet F
  control : S.control.Configured F S.world

variable {parts : Parts L} {S S' : Scheduler L} {l : Label}

theorem Scheduler.configured_initialized (configuration : CanbusConfiguration) (service : CanbusService)
    (busValid : CanbusProxy → Bool) (lua : L) :
    (Scheduler.initialized (.initial configuration service busValid lua)).Configured F where
  tasks := fun _ ht => absurd ht List.not_mem_nil
  pending := fun _ ht => absurd ht List.not_mem_nil
  runs := by
    rintro t ⟨r, hr, -⟩
    cases hr
  sends := fun r hr => by cases hr
  changing := changing_initialized _
  sent := fun _ hframe => absurd hframe List.not_mem_nil
  control := trivial

theorem Scheduler.Configured.of_control {control : Control} (hS : S.Configured F) (h : S.control = control) :
    control.Configured F S.world := h ▸ hS.control

/-- A step that leaves the queue and the frames as they are. -/
theorem Scheduler.Configured.of_queue (hS : S.Configured F) (hqueue : S'.queue = S.queue)
    (htrace : S'.world.trace = S.world.trace) (htasks : ∀ t ∈ S'.workQueueTasks, t.Meets F)
    (hcontrol : S'.control.Configured F S'.world) : S'.Configured F where
  tasks := htasks
  pending := by
    rw [hqueue]
    exact hS.pending
  runs := by
    rw [hqueue]
    exact hS.runs
  sends := by
    rw [hqueue]
    exact hS.sends
  changing := by
    rw [hqueue]
    exact hS.changing
  sent := by
    unfold World.SentMeet
    rw [htrace]
    exact hS.sent
  control := hcontrol

theorem Scheduler.Configured.cancel (hS : S.Configured F) (task : WorkQueueTask) {control : Control}
    (hcontrol : control.Configured F S.world) :
    ({ S with control := control, queue := S.queue.cancel task } : Scheduler L).Configured F where
  tasks := hS.tasks
  pending := fun t ht => hS.pending t (List.mem_filter.mp ht).1
  runs := fun t ht => hS.runs t (WorkQueue.runs_cancel.mp ht)
  sends := hS.sends.cancel task
  changing := hS.changing.cancel task
  sent := hS.sent
  control := hcontrol

theorem Scheduler.Configured.schedule {operation : Operation} {task : WorkQueueTask}
    {rest : List WorkQueueTask} (hS : S.Configured F) (h : S.control = .scheduling operation (task :: rest)) :
    (S.schedule operation task rest).Configured F := by
  have hmeets : ∀ t ∈ task :: rest, t.Meets F := hS.of_control h
  refine ⟨hS.tasks, ?_, ?_, hS.sends.schedule task, hS.changing.schedule task, hS.sent, ?_⟩
  · intro t ht
    rcases WorkQueue.mem_pending_schedule.mp ht with ht | rfl
    · exact hS.pending t ht
    · exact hmeets t List.mem_cons_self
  · intro t ht
    exact hS.runs t (by simpa [WorkQueue.Runs, Scheduler.schedule] using ht)
  · exact fun t ht => hmeets t (List.mem_cons_of_mem task ht)

/-- A task is created for an entry that is configured. -/
theorem Scheduler.Configured.create {operation : Operation} {entry : Entry} {rest : List Entry}
    (hS : S.Configured F) (hF : S.world.ConfiguredMeet F)
    (h : S.control = .creating operation (entry :: rest)) :
    (S.create parts operation entry rest).Configured F := by
  have hentries : ∀ e ∈ entry :: rest, e ∈ S.world.configuration.entries := hS.of_control h
  have hrest : ∀ e ∈ rest, e ∈ S.world.configuration.entries := fun e he =>
    hentries e (List.mem_cons_of_mem entry he)
  rcases S.create_spec parts operation entry rest with ⟨-, heq⟩ | ⟨hyes, task, lua, htask, -, heq⟩
  · rw [heq]
    exact hS.of_queue rfl rfl hS.tasks hrest
  · rw [heq]
    refine hS.of_queue rfl rfl ?_ hrest
    intro t ht
    rcases List.mem_append.mp ht with ht | ht
    · exact hS.tasks t ht
    · obtain rfl := List.mem_singleton.mp ht
      have hmeets := hF entry (hentries entry List.mem_cons_self) hyes _ htask.canbus
      rw [← htask.entry_eq] at hmeets
      exact hmeets

/-- **The worker** runs what was created. -/
theorem Scheduler.Configured.work (hS : S.Configured F) {world : World L}
    {queue : WorkQueue WorkQueueTask (Handler L WorkQueueTaskResult)}
    (h : WorkQueue.Work (fun task => processCanbusWorkTask parts.canFrameProcessors task.userdata)
      WorkQueueTaskResult.reschedule World.enter (S.world, S.queue) (world, queue)) :
    ({ S with world := world, queue := queue } : Scheduler L).Configured F := by
  have hchanging := h.changing hS.changing fun _ => changes_processCanbusWorkTask _ _
  have hsetup := h.keeps_always (I := S.world.SameSetup) hS.changing (fun _ hw => hw)
    (fun _ _ h hw => h.sameSetup hw) ⟨rfl, rfl⟩
  have hsent := h.keeps_always (I := World.SentMeet F) hS.sends (fun _ hw => hw) (fun _ _ h hw => h hw) hS.sent
  have hcontrol : S.control.Configured F world := by
    have hbefore := hS.control
    cases hc : S.control with
    | creating operation rest =>
      rw [hc] at hbefore
      intro entry hentry
      rw [hsetup.1]
      exact hbefore entry hentry
    | scheduling operation rest =>
      rw [hc] at hbefore
      exact hbefore
    | returned last => trivial
    | pausing operation rest => trivial
    | clearingReadings => trivial
  cases h with
  | start hidle ht =>
    refine ⟨hS.tasks, fun t ht' => hS.pending t (List.mem_filter.mp ht').1, ?_, ?_, hchanging, hsent, hcontrol⟩
    · rintro u ⟨r, hr, rfl⟩
      obtain rfl := Option.some.inj hr
      exact hS.pending _ ht
    · intro r hr
      obtain rfl := Option.some.inj hr
      exact changes_processCanbusWorkTask_sends _ (hS.pending _ ht)
  | access hr hstep =>
    refine ⟨hS.tasks, hS.pending, ?_, ?_, hchanging, hsent, hcontrol⟩
    · rintro u ⟨r', hr', rfl⟩
      obtain rfl := Option.some.inj hr'
      exact hS.runs _ ⟨_, hr, rfl⟩
    · intro r' hr'
      obtain rfl := Option.some.inj hr'
      exact ((hS.sends _ hr).step hstep).2
  | finish hr ha =>
    refine ⟨hS.tasks, ?_, ?_, ?_, hchanging, hsent, hcontrol⟩
    · intro t ht
      rcases WorkQueue.mem_pending_finish.mp ht with ht | ⟨rfl, -⟩
      · exact hS.pending t ht
      · exact hS.runs _ ⟨_, hr, rfl⟩
    · rintro u ⟨r', hr', -⟩
      simp at hr'
    · intro r' hr'
      simp at hr'

/-- **Every step** keeps the invariant, while what is configured meets `F`. -/
theorem Scheduler.Configured.step (hS : S.Configured F) (hF : S.world.ConfiguredMeet F)
    (h : Step parts S l S') : S'.Configured F := by
  cases h with
  | start h => exact hS.of_queue rfl rfl hS.tasks fun _ => id
  | restart h => exact hS.of_queue rfl rfl hS.tasks trivial
  | pause h => exact hS.of_queue rfl rfl hS.tasks trivial
  | resume h => exact hS.of_queue rfl rfl hS.tasks hS.tasks
  | cancelAgain h => exact hS.cancel _ hS.control
  | cancelled h hidle => exact hS.cancel _ trivial
  | paused h => exact hS.of_queue rfl rfl hS.tasks trivial
  | clearTasks h => exact hS.of_queue rfl rfl (fun _ ht => absurd ht List.not_mem_nil) trivial
  | clearReadings h => exact hS.of_queue rfl rfl hS.tasks fun _ => id
  | create h => exact hS.create hF h
  | created h => exact hS.of_queue rfl rfl hS.tasks hS.tasks
  | schedule h => exact hS.schedule h
  | scheduled h => exact hS.of_queue rfl rfl hS.tasks trivial
  | work h => exact hS.work h
  | record signal value => exact hS.of_queue rfl rfl hS.tasks hS.control
  | configure configuration service h =>
    refine hS.of_queue rfl rfl hS.tasks ?_
    have hbefore := hS.control
    cases hc : S.control with
    | creating operation rest => exact absurd hc (h operation rest)
    | scheduling operation rest =>
      rw [hc] at hbefore
      exact hbefore
    | returned last => trivial
    | pausing operation rest => trivial
    | clearingReadings => trivial
  | bus busValid sendError => exact hS.of_queue rfl rfl hS.tasks hS.control

/-- **Only configured frames are sent**: whatever a configured entry and the bus of its channel meet at every
moment of a run, every frame that was sent meets, and none of them is empty. -/
theorem sent_configured {configuration : CanbusConfiguration} {service : CanbusService}
    {busValid : CanbusProxy → Bool} {lua : L}
    (h : RunsWhere parts (fun S _ => S.world.ConfiguredMeet F)
      (.initialized (.initial configuration service busValid lua)) S) : S.world.SentMeet F := by
  have hS : S.Configured F := by
    induction h with
    | refl => exact Scheduler.configured_initialized configuration service busValid lua
    | tail _ hstep ih =>
      obtain ⟨l, hF, hstep⟩ := hstep
      exact ih.step hF hstep
  exact hS.sent

/-- The bus and the frame id of the one message. -/
def OneMeets (canbus : CanbusProxy) (frameId : UInt32) : Prop := canbus = ⟨0⟩ ∧ frameId = 0x10

theorem oneWorld_meets {w : World Unit} (h : oneWorld.SameSetup w) : w.ConfiguredMeet OneMeets := by
  unfold World.ConfiguredMeet
  rw [h.1, h.2]
  intro entry hentry hyes canbus hcanbus
  obtain rfl := List.mem_singleton.mp hentry
  exact ⟨(Option.some.inj hcanbus).symm, rfl⟩

/-- The one task has sent its frame. -/
theorem oneTask_sent : ∃ S, RunsWhere noParts (fun S _ => S.world.ConfiguredMeet OneMeets)
    (.initialized oneWorld) S ∧ .sent ⟨⟨0⟩, 0x10, [0], [], 0⟩ ∈ S.world.trace := by
  have hmeets : ∀ {S : Scheduler Unit}, oneWorld.SameSetup S.world → S.world.ConfiguredMeet OneMeets :=
    oneWorld_meets
  refine ⟨_, .tail (.tail (.tail (.tail (.tail (.tail (.tail (.tail (.tail (.tail .refl
    ⟨_, hmeets ⟨rfl, rfl⟩, .start rfl⟩) ⟨_, hmeets ⟨rfl, rfl⟩, .create rfl⟩)
    ⟨_, hmeets ⟨rfl, rfl⟩, .created rfl⟩) ⟨_, hmeets ⟨rfl, rfl⟩, .schedule rfl⟩)
    ⟨_, hmeets ⟨rfl, rfl⟩, .scheduled rfl⟩)
    ⟨_, hmeets ⟨rfl, rfl⟩, .work (.start rfl List.mem_cons_self)⟩)
    ⟨_, hmeets ⟨rfl, rfl⟩, .work (.access rfl (.access _ _ _))⟩)
    ⟨_, hmeets ⟨rfl, rfl⟩, .work (.access rfl (.access _ _ _))⟩)
    ⟨_, hmeets ⟨rfl, rfl⟩, .work (.access rfl (.access _ _ _))⟩)
    ⟨_, hmeets ⟨rfl, rfl⟩, .work (.access rfl (.access _ _ _))⟩, ?_⟩
  exact List.mem_cons_of_mem _ List.mem_cons_self

theorem oneTask_sent_configured : ∃ S : Scheduler Unit,
    .sent ⟨⟨0⟩, 0x10, [0], [], 0⟩ ∈ S.world.trace ∧ S.world.SentMeet OneMeets := by
  obtain ⟨S, hruns, hsent⟩ := oneTask_sent
  exact ⟨S, hsent, sent_configured hruns⟩

end EerieLeap.Canbus
