import EerieLeap.Canbus.Restart
import EerieLeap.Canbus.Tick

/-!
# No task is lost

A task asks to be scheduled again whenever its bus is valid, also when the frame cannot be built or sent,
and only `Pause` cancels tasks. So `Start`, `Resume` and `Restart` leave every task of the list pending or
running, however often the worker has run it since and whatever it runs at that moment.

* `wp_processCanbusWorkTask` : a task whose bus stays valid asks to be scheduled again;
* `Scheduler.Lively` : the invariant of the runs in which the bus of a task stays valid;
* `no_task_lost` : the result.
-/

namespace EerieLeap.Canbus

open EerieLeap.Lib EerieLeap.Lib.Proc

variable {L : Type}

/-! ## The worker asks for the task again -/

/-- What other threads do while a task runs: they hand nothing over, and leave a valid bus valid. -/
def StaysValid (canbus : CanbusProxy) (w w' : World L) : Prop :=
  w'.handed = w.handed ∧ (w.busValid canbus = true → w'.busValid canbus = true)

theorem StaysValid.refl (canbus : CanbusProxy) (w : World L) : StaysValid canbus w w := ⟨rfl, id⟩

theorem StaysValid.trans {canbus : CanbusProxy} {w₁ w₂ w₃ : World L} (h : StaysValid canbus w₁ w₂)
    (h' : StaysValid canbus w₂ w₃) : StaysValid canbus w₁ w₃ :=
  ⟨h'.1.trans h.1, fun hvalid => h'.2 (h.2 hvalid)⟩

/-- What is left of a run of the task ends with a result that asks for it again. -/
abbrev AsksAgain (canbus : CanbusProxy) : Handler L WorkQueueTaskResult → World L → Prop :=
  wp (StaysValid canbus) (fun result _ => result.reschedule = true) fun _ _ => False

theorem wp_processCanbusWorkTask (processors : List (ICanFrameProcessor L)) (task : CanbusTask) {w : World L}
    (hvalid : w.busValid task.canbus = true) :
    AsksAgain task.canbus (processCanbusWorkTask processors task) w := by
  refine (wp_iff_ends _ _).mpr ?_
  intro r w' hends
  obtain ⟨w₀, hw₀, hresult⟩ := ends_processCanbusWorkTask (fun _ _ h => h.1) hends
  have hvalid₀ : w₀.busValid task.canbus = true := hw₀.2 hvalid
  rw [if_neg (by simp [hvalid₀])] at hresult
  obtain ⟨rfl, -⟩ := hresult
  rfl

theorem AsksAgain.of_staysValid {canbus : CanbusProxy} {x : Handler L WorkQueueTaskResult} {w w' : World L}
    (h : AsksAgain canbus x w) (hw : StaysValid canbus w w') : AsksAgain canbus x w' :=
  wp_of_rely (fun _ _ _ h₁ h₂ => h₁.trans h₂) (fun _ _ _ _ => id) (fun _ _ _ _ => id) h hw

theorem TaskMay.busValid {w w' : World L} (h : TaskMay w w') : w'.busValid = w.busValid := by
  cases h with
  | processor h => cases h <;> rfl
  | send canbus frameId data => rfl

/-! ## The invariant -/

/-- The bus of the task is valid while the task is in the list. -/
def Scheduler.BusValid (t : WorkQueueTask) (S : Scheduler L) : Prop :=
  t ∈ S.workQueueTasks → S.world.busValid t.userdata.canbus = true

/-- What an operation has done for the task. -/
def Control.Lively (S : Scheduler L) (t : WorkQueueTask) : Control → Prop
  | .returned last => (∃ operation, last = some operation ∧ operation ≠ .pause) → t ∈ S.workQueueTasks →
      S.queue.Live t
  | .pausing _ rest => ∀ u ∈ rest, u ∈ S.workQueueTasks
  | .scheduling _ rest => t ∈ S.workQueueTasks → t ∈ rest ∨ S.queue.Live t
  | _ => True

/-- In the loop of `Pause`. -/
def Control.Pausing : Control → Prop
  | .pausing _ _ => True
  | _ => False

structure Scheduler.Lively (S : Scheduler L) (t : WorkQueueTask) : Prop where
  asksAgain : ∀ r, S.queue.running = some r → r.task = t → S.world.busValid t.userdata.canbus = true →
    AsksAgain t.userdata.canbus r.rest S.world
  /-- Only `Pause` and `Restart` cancel, and they wait for the task to be idle. -/
  uncancelled : ¬ S.control.Pausing → ∀ r, S.queue.running = some r → r.cancelled = false
  control : S.control.Lively S t

variable {parts : Parts L} {S S' : Scheduler L} {l : Label} {t : WorkQueueTask}

theorem Scheduler.lively_initialized (w : World L) (t : WorkQueueTask) :
    (Scheduler.initialized w).Lively t where
  asksAgain := fun r hr => by cases hr
  uncancelled := fun _ r hr => by cases hr
  control := by
    rintro ⟨operation, hlast, -⟩
    cases hlast

section Control

variable {control : Control}

theorem Scheduler.Lively.of_control (hS : S.Lively t) (h : S.control = control) : control.Lively S t :=
  h ▸ hS.control

theorem Scheduler.Lively.uncancelled_of_control (hS : S.Lively t) (h : S.control = control)
    (hcontrol : ¬ control.Pausing) : ∀ r, S.queue.running = some r → r.cancelled = false :=
  hS.uncancelled (h ▸ hcontrol)

end Control

/-- The worker is at a task of the list. -/
theorem Scheduler.Lively.mem_of_runs (hS : S.Lively t) (hsafe : S.Safe) {u : WorkQueueTask}
    (h : S.queue.Runs u) : u ∈ S.workQueueTasks := by
  have hactive := hsafe.within.2 u h
  have hlively := hS.control
  cases hcontrol : S.control with
  | returned last =>
    rw [hcontrol] at hactive
    exact Control.active_returned_subset _ last u hactive
  | pausing operation rest =>
    rw [hcontrol] at hactive hlively
    exact hlively u hactive
  | clearingReadings =>
    rw [hcontrol] at hactive
    exact absurd hactive List.not_mem_nil
  | creating operation rest =>
    rw [hcontrol] at hactive
    exact hactive
  | scheduling operation rest =>
    rw [hcontrol] at hactive
    exact hactive

/-- What other threads do to the world leaves the task as it is. -/
theorem Scheduler.Lively.of_world (hS : S.Lively t) (hsafe : S.Safe) (hvalid : S.BusValid t) {w : World L}
    (hhanded : w.handed = S.world.handed) : ({ S with world := w } : Scheduler L).Lively t := by
  refine ⟨?_, hS.uncancelled, ?_⟩
  · intro r hr hrt hw
    have hmem : t ∈ S.workQueueTasks := hS.mem_of_runs hsafe ⟨r, hr, hrt⟩
    exact (hS.asksAgain r hr hrt (hvalid hmem)).of_staysValid ⟨hhanded, fun _ => hw⟩
  · have hcontrol := hS.control
    cases hc : S.control <;> rw [hc] at hcontrol <;> exact hcontrol

/-- A cancel only marks the run of its task. -/
theorem Scheduler.Lively.asksAgain_cancel (hS : S.Lively t) (task : WorkQueueTask)
    (r : Run WorkQueueTask (Handler L WorkQueueTaskResult)) (hr : (S.queue.cancel task).running = some r)
    (hrt : r.task = t) (hvalid : S.world.busValid t.userdata.canbus = true) :
    AsksAgain t.userdata.canbus r.rest S.world := by
  obtain ⟨r', hr', rfl⟩ := Option.map_eq_some_iff.mp hr
  exact hS.asksAgain r' hr' hrt hvalid

/-- **The worker** loses no task. -/
theorem Scheduler.Lively.work (hS : S.Lively t) (hsafe : S.Safe) (hvalid : S.BusValid t) {world : World L}
    {queue : WorkQueue WorkQueueTask (Handler L WorkQueueTaskResult)}
    (h : WorkQueue.Work (fun task => processCanbusWorkTask parts.canFrameProcessors task.userdata)
      WorkQueueTaskResult.reschedule World.enter (S.world, S.queue) (world, queue)) :
    ({ S with world := world, queue := queue } : Scheduler L).Lively t := by
  have hagain : ∀ r a, S.queue.running = some r → r.task = t → r.rest = .done a → a.reschedule = true := by
    intro r a hr hrt ha
    have hasks := hS.asksAgain r hr hrt (hvalid (hS.mem_of_runs hsafe ⟨r, hr, hrt⟩))
    rw [ha] at hasks
    exact hasks
  have hlive : S.queue.Live t → queue.Live t := fun ht => h.live ht hagain
  refine ⟨?_, ?_, ?_⟩
  · intro r hr hrt hw
    cases h with
    | start hidle ht =>
      obtain rfl := Option.some.inj hr
      obtain rfl := hrt
      exact wp_processCanbusWorkTask _ _ hw
    | access hr' hstep =>
      obtain rfl := Option.some.inj hr
      have hmay := ((hsafe.changing _ hr').step hstep).1
      have hbefore := hS.asksAgain _ hr' hrt (by rw [← hmay.busValid]; exact hw)
      exact wp_step (fun w => StaysValid.refl _ w) hbefore hstep
    | finish hr' ha => simp at hr
  · intro hcontrol r hr
    cases h with
    | start hidle ht =>
      obtain rfl := Option.some.inj hr
      rfl
    | @access _ _ _ r' _ hr' hstep =>
      obtain rfl := Option.some.inj hr
      exact hS.uncancelled hcontrol r' hr'
    | finish hr' ha => simp at hr
  · have hbefore := hS.control
    cases hc : S.control with
    | returned last =>
      rw [hc] at hbefore
      exact fun hlast ht => hlive (hbefore hlast ht)
    | pausing operation rest =>
      rw [hc] at hbefore
      exact hbefore
    | clearingReadings => trivial
    | creating operation rest => trivial
    | scheduling operation rest =>
      rw [hc] at hbefore
      exact fun ht => (hbefore ht).imp_right hlive

/-- **Every step** keeps the invariant, while the bus is valid. -/
theorem Scheduler.Lively.step (hS : S.Lively t) (hsafe : S.Safe) (hvalid : S.BusValid t)
    (h : Step parts S l S') : S'.Lively t := by
  -- an operation that begins or goes on without touching the queue
  have hidleRunning : S.queue.Idle → ∀ r, S.queue.running ≠ some r := by
    intro hidle r hr
    cases hidle.2.symm.trans hr
  cases h with
  | start h => exact ⟨hS.asksAgain, fun _ => hS.uncancelled_of_control h not_false, trivial⟩
  | restart h => exact ⟨hS.asksAgain, fun hne => absurd trivial hne, fun _ => id⟩
  | pause h => exact ⟨hS.asksAgain, fun hne => absurd trivial hne, fun _ => id⟩
  | resume h =>
    exact ⟨hS.asksAgain, fun _ => hS.uncancelled_of_control h not_false, fun ht => .inl ht⟩
  | cancelAgain h =>
    have hrest := hS.of_control h
    refine ⟨hS.asksAgain_cancel _, fun hne => absurd (h ▸ trivial) hne, ?_⟩
    show S.control.Lively _ t
    rw [h]
    exact hrest
  | @cancelled operation task rest h hidle =>
    have hrest : ∀ u ∈ task :: rest, u ∈ S.workQueueTasks := hS.of_control h
    refine ⟨hS.asksAgain_cancel _, fun hne => absurd trivial hne, ?_⟩
    exact fun u hu => hrest u (List.mem_cons_of_mem task hu)
  | paused h =>
    have hidle : S.queue.Idle := WorkQueue.within_nil.mp (hsafe.within_of_control h)
    refine ⟨hS.asksAgain, fun _ r hr => absurd hr (hidleRunning hidle r), ?_⟩
    rintro ⟨operation, hlast, hne⟩
    exact absurd (Option.some.inj hlast).symm hne
  | clearTasks h =>
    have hidle : S.queue.Idle := WorkQueue.within_nil.mp (hsafe.within_of_control h)
    exact ⟨hS.asksAgain, fun _ r hr => absurd hr (hidleRunning hidle r), trivial⟩
  | clearReadings h =>
    have hidle := hidleRunning (hsafe.idle_of_clearingReadings h)
    exact ⟨fun r hr => absurd hr (hidle r), fun _ r hr => absurd hr (hidle r), trivial⟩
  | @create operation entry rest h =>
    have huncancelled := hS.uncancelled_of_control h not_false
    rcases S.create_cases parts operation entry rest with ⟨-, heq⟩ | ⟨-, task, lua, -, heq⟩
    · rw [heq]
      exact ⟨hS.asksAgain, fun _ => huncancelled, trivial⟩
    · rw [heq]
      have hworld := hS.of_world hsafe hvalid (w := { S.world with lua := lua }) rfl
      exact ⟨hworld.asksAgain, fun _ => huncancelled, trivial⟩
  | created h =>
    exact ⟨hS.asksAgain, fun _ => hS.uncancelled_of_control h not_false, fun ht => .inl ht⟩
  | @schedule operation task rest h =>
    have hlively : t ∈ S.workQueueTasks → t ∈ task :: rest ∨ S.queue.Live t := hS.of_control h
    refine ⟨fun r hr => hS.asksAgain r (by simpa [Scheduler.schedule] using hr), fun _ r hr => ?_, fun ht => ?_⟩
    · exact hS.uncancelled_of_control h not_false r (by simpa [Scheduler.schedule] using hr)
    · rcases hlively ht with hmem | hlive
      · rcases List.mem_cons.mp hmem with rfl | hmem
        · exact .inr (WorkQueue.live_schedule _ _)
        · exact .inl hmem
      · exact .inr (hlive.schedule task)
  | @scheduled operation h =>
    have hlively : t ∈ S.workQueueTasks → t ∈ [] ∨ S.queue.Live t := hS.of_control h
    refine ⟨hS.asksAgain, fun _ => hS.uncancelled_of_control h not_false, ?_⟩
    exact fun _ ht => (hlively ht).resolve_left List.not_mem_nil
  | work h => exact hS.work hsafe hvalid h
  | record signal value => exact hS.of_world hsafe hvalid rfl
  | configure configuration service h => exact hS.of_world hsafe hvalid rfl
  | bus busValid sendError => exact hS.of_world hsafe hvalid rfl

theorem Scheduler.Lively.runs (hS : S.Lively t) (hsafe : S.Safe)
    (h : RunsWhere parts (fun S _ => S.BusValid t) S S') : S'.Lively t ∧ S'.Safe := by
  induction h with
  | refl => exact ⟨hS, hsafe⟩
  | tail _ hstep ih =>
    obtain ⟨l, hvalid, hstep⟩ := hstep
    exact ⟨ih.1.step ih.2 hvalid hstep, ih.2.step hstep⟩

/-- **No task is lost**: while the bus of a task is valid, the task is pending or running, and not cancelled,
whenever an operation other than `Pause` has returned last, and the worker can get to it without anybody's
help. -/
theorem no_task_lost {configuration : CanbusConfiguration} {service : CanbusService}
    {busValid : CanbusProxy → Bool} {lua : L} {operation : Operation}
    (h : RunsWhere parts (fun S _ => S.BusValid t)
      (.initialized (.initial configuration service busValid lua)) S)
    (hvalid : S.BusValid t) (hcontrol : S.control = .returned (some operation)) (hoperation : operation ≠ .pause)
    (ht : t ∈ S.workQueueTasks) :
    S.queue.Live t ∧ ∃ world queue, Relation.ReflTransGen
      (WorkQueue.Work (fun task => processCanbusWorkTask parts.canFrameProcessors task.userdata)
        WorkQueueTaskResult.reschedule World.enter) (S.world, S.queue) (world, queue) ∧
      queue.running = some ⟨t, false, processCanbusWorkTask parts.canFrameProcessors t.userdata⟩ := by
  have hfresh := World.fresh_initial configuration service busValid lua
  obtain ⟨hS, hsafe⟩ := (Scheduler.lively_initialized _ t).runs (Scheduler.safe_initialized hfresh) h
  have hsound := (Scheduler.sound_initialized hfresh).runs h
  have hlive : S.queue.Live t := hS.of_control hcontrol ⟨operation, rfl, hoperation⟩ ht
  refine ⟨hlive, hlive.exists_started hsound.neverFails ?_⟩
  intro r a world hr hrt ha
  have hasks := (wp_iff_ends _ _).mp (hS.asksAgain r hr hrt (hvalid ht)) _ _
    (ends_runAlone (StaysValid.refl _) r.rest S.world)
  rw [ha] at hasks
  exact hasks

/-- The one task, after `Start`. -/
theorem oneStarted_live : oneStarted.queue.Live (oneTask 0) := by
  have hrun : RunsWhere noParts (fun S _ => S.BusValid (oneTask 0)) (.initialized oneWorld) oneStarted :=
    .tail (.tail (.tail (.tail (.tail .refl ⟨_, fun _ => rfl, .start rfl⟩) ⟨_, fun _ => rfl, .create rfl⟩)
      ⟨_, fun _ => rfl, .created rfl⟩) ⟨_, fun _ => rfl, .schedule rfl⟩) ⟨_, fun _ => rfl, .scheduled rfl⟩
  exact (no_task_lost hrun (fun _ => rfl) rfl (by decide) List.mem_cons_self).1

end EerieLeap.Canbus
