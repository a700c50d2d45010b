import EerieLeap.Canbus.CanbusSchedulerService

/-!
# At most one task for an entry

`Restart` discards the tasks before it creates new ones, and `Pause` and `Resume` create none. `Start`
adds to the list, so it creates a second task for an entry that has one.

* `FreshStart` : no entry that `Start` would create a task for has one;
* `Scheduler.Distinct` : the invariant of the runs in which every `Start` is fresh;
* `atMostOne_of_freshStarts` : in those no entry ever has two tasks, and a `Start` that is not fresh
  creates a second one.
-/

namespace EerieLeap.Canbus

variable {L : Type}

/-- No entry has two tasks in `work_queue_tasks_`. -/
def Scheduler.AtMostOne (S : Scheduler L) : Prop := (S.workQueueTasks.map WorkQueueTask.entry).Nodup

/-- No entry that `Start` would create a task for has one. -/
def Scheduler.FreshStart (S : Scheduler L) : Prop :=
  ∀ entry ∈ S.world.configuration.entries, Schedulable S.world.service entry →
    ∀ task ∈ S.workQueueTasks, task.entry ≠ entry

/-- A `Start` is fresh, and a configuration lists every entry once. -/
def Guard (S : Scheduler L) : Label → Prop
  | .call .start => S.FreshStart
  | .configure configuration _ => configuration.entries.Nodup
  | _ => True

/-! ## The invariant -/

/-- What holds of the entries that are still to come. -/
def Scheduler.Upcoming (S : Scheduler L) : Control → Prop
  | .clearingReadings => S.workQueueTasks = []
  | .creating _ rest => rest.Nodup ∧ ∀ entry ∈ rest, Schedulable S.world.service entry →
      ∀ task ∈ S.workQueueTasks, task.entry ≠ entry
  | _ => True

structure Scheduler.Distinct (S : Scheduler L) : Prop where
  listed : S.world.configuration.entries.Nodup
  atMostOne : S.AtMostOne
  upcoming : S.Upcoming S.control
  changing : S.queue.Changing TaskMay

variable {parts : Parts L} {S S' : Scheduler L} {l : Label}

theorem Scheduler.distinct_initialized {w : World L} (h : w.configuration.entries.Nodup) :
    (Scheduler.initialized w).Distinct := ⟨h, List.nodup_nil, trivial, changing_initialized w⟩

theorem Scheduler.Distinct.upcoming_of_control {control : Control} (hS : S.Distinct)
    (h : S.control = control) : S.Upcoming control := h ▸ hS.upcoming

theorem nodup_push {tasks : List WorkQueueTask} {task : WorkQueueTask} :
    ((tasks ++ [task]).map WorkQueueTask.entry).Nodup ↔
      (tasks.map WorkQueueTask.entry).Nodup ∧ ∀ t ∈ tasks, t.entry ≠ task.entry := by
  simp [List.nodup_append]

theorem Scheduler.Distinct.create {operation : Operation} {entry : Entry} {rest : List Entry}
    (hS : S.Distinct) (h : S.control = .creating operation (entry :: rest)) :
    (S.create parts operation entry rest).Distinct := by
  obtain ⟨hlisted, hnew⟩ := hS.upcoming_of_control h
  obtain ⟨hnotin, hrest⟩ := List.nodup_cons.mp hlisted
  rcases S.create_cases parts operation entry rest with ⟨-, heq⟩ | ⟨hyes, task, lua, rfl, heq⟩
  · rw [heq]
    refine ⟨hS.listed, hS.atMostOne, ⟨hrest, ?_⟩, hS.changing⟩
    intro e he
    exact hnew e (List.mem_cons_of_mem entry he)
  · rw [heq]
    have hfirst := hnew _ List.mem_cons_self hyes
    refine ⟨hS.listed, nodup_push.mpr ⟨hS.atMostOne, hfirst⟩, ⟨hrest, ?_⟩, hS.changing⟩
    intro e he hyes' t ht
    rcases List.mem_append.mp ht with ht | ht
    · exact hnew e (List.mem_cons_of_mem _ he) hyes' t ht
    · rw [List.mem_singleton.mp ht]
      rintro rfl
      exact hnotin he

/-- Entries are still to come as before when the list and the service are the same. -/
theorem Scheduler.Upcoming.congr {control : Control} (h : S.Upcoming control)
    (htasks : S'.workQueueTasks = S.workQueueTasks) (hservice : S'.world.service = S.world.service) :
    S'.Upcoming control := by
  cases control with
  | clearingReadings => exact htasks.trans h
  | creating operation rest => exact ⟨h.1, by rw [htasks, hservice]; exact h.2⟩
  | returned last => trivial
  | pausing operation rest => trivial
  | scheduling operation rest => trivial

/-- **Every step** that is guarded keeps the invariant. -/
theorem Scheduler.Distinct.step (hS : S.Distinct) (hl : Guard S l) (h : Step parts S l S') :
    S'.Distinct := by
  have hchanging := h.changing hS.changing
  cases h with
  | start h => exact ⟨hS.listed, hS.atMostOne, ⟨hS.listed, hl⟩, hchanging⟩
  | restart h => exact ⟨hS.listed, hS.atMostOne, trivial, hchanging⟩
  | pause h => exact ⟨hS.listed, hS.atMostOne, trivial, hchanging⟩
  | resume h => exact ⟨hS.listed, hS.atMostOne, trivial, hchanging⟩
  | cancelAgain h => exact ⟨hS.listed, hS.atMostOne, hS.upcoming.congr rfl rfl, hchanging⟩
  | cancelled h hidle => exact ⟨hS.listed, hS.atMostOne, trivial, hchanging⟩
  | paused h => exact ⟨hS.listed, hS.atMostOne, trivial, hchanging⟩
  | clearTasks h => exact ⟨hS.listed, List.nodup_nil, rfl, hchanging⟩
  | clearReadings h =>
    have hnil : S.workQueueTasks = [] := hS.upcoming_of_control h
    refine ⟨hS.listed, hS.atMostOne, ⟨hS.listed, ?_⟩, hchanging⟩
    intro entry _ _ task htask
    exact absurd (hnil ▸ htask) List.not_mem_nil
  | create h => exact hS.create h
  | created h => exact ⟨hS.listed, hS.atMostOne, trivial, hchanging⟩
  | schedule h => exact ⟨hS.listed, hS.atMostOne, trivial, hchanging⟩
  | scheduled h => exact ⟨hS.listed, hS.atMostOne, trivial, hchanging⟩
  | @work world queue h =>
    have hsetup : S.world.SameSetup world :=
      h.keeps_always hS.changing (fun _ hw => hw) (fun _ _ h hw => h.sameSetup hw) ⟨rfl, rfl⟩
    refine ⟨?_, hS.atMostOne, hS.upcoming.congr rfl hsetup.2, hchanging⟩
    rw [hsetup.1]
    exact hS.listed
  | record signal value => exact ⟨hS.listed, hS.atMostOne, hS.upcoming.congr rfl rfl, hchanging⟩
  | configure configuration service h =>
    refine ⟨hl, hS.atMostOne, ?_, hchanging⟩
    cases hcontrol : S.control with
    | creating operation rest => exact absurd hcontrol (h operation rest)
    | clearingReadings => exact hS.upcoming_of_control hcontrol
    | returned last => trivial
    | pausing operation rest => trivial
    | scheduling operation rest => trivial
  | bus busValid sendError => exact ⟨hS.listed, hS.atMostOne, hS.upcoming.congr rfl rfl, hchanging⟩

theorem Scheduler.Distinct.runs (hS : S.Distinct) (h : RunsWhere parts Guard S S') : S'.Distinct := by
  induction h with
  | refl => exact hS
  | tail _ hstep ih =>
    obtain ⟨l, hl, hstep⟩ := hstep
    exact ih.step hl hstep

/-! ## A Start that is not fresh -/

/-- The loops of `Start` come to an entry that has a task, and create a second one. -/
theorem Scheduler.runs_duplicate {operation : Operation} {entry : Entry} {rest : List Entry}
    {task : WorkQueueTask} (hcontrol : S.control = .creating operation rest) (hentry : entry ∈ rest)
    (hyes : Schedulable S.world.service entry) (htask : task ∈ S.workQueueTasks)
    (heq : task.entry = entry) : ∃ S', RunsWhere parts (fun _ l => l = .proceed) S S' ∧ ¬ S'.AtMostOne := by
  induction rest generalizing S with
  | nil => exact absurd hentry List.not_mem_nil
  | cons e rest ih =>
    have hstep : Step parts S .proceed (S.create parts operation e rest) := .create hcontrol
    rcases S.create_cases parts operation e rest with ⟨hnot, hcreate⟩ | ⟨-, added, lua, hadded, hcreate⟩
    · rcases List.mem_cons.mp hentry with rfl | hentry
      · exact absurd hyes hnot
      · obtain ⟨S', hruns, hdup⟩ := ih (S := S.create parts operation e rest) (by rw [hcreate]) hentry
          (by rw [hcreate]; exact hyes) (by rw [hcreate]; exact htask)
        exact ⟨S', .head ⟨_, rfl, hstep⟩ hruns, hdup⟩
    · rcases List.mem_cons.mp hentry with rfl | hentry
      · refine ⟨_, .head ⟨_, rfl, hstep⟩ .refl, fun hnodup => ?_⟩
        rw [hcreate] at hnodup
        exact (nodup_push.mp hnodup).2 task htask (heq.trans hadded.symm)
      · obtain ⟨S', hruns, hdup⟩ := ih (S := S.create parts operation e rest) (by rw [hcreate]) hentry
          (by rw [hcreate]; exact hyes) (by rw [hcreate]; exact List.mem_append_left _ htask)
        exact ⟨S', .head ⟨_, rfl, hstep⟩ hruns, hdup⟩

theorem Scheduler.runs_duplicate_of_not_freshStart (h : ¬ S.FreshStart) :
    ∃ S', RunsWhere parts (fun _ l => l = .proceed) (S.startFrom .start) S' ∧ ¬ S'.AtMostOne := by
  unfold FreshStart at h
  push Not at h
  obtain ⟨entry, hentry, hyes, task, htask, heq⟩ := h
  have hcontrol : (S.startFrom .start).control = .creating .start S.world.configuration.entries := rfl
  exact Scheduler.runs_duplicate hcontrol hentry hyes htask heq

/-- **At most one task for an entry**, in every run in which every `Start` is fresh. A `Start` that is not
creates a second task for some entry, whatever came before. -/
theorem atMostOne_of_freshStarts {w : World L} (hw : w.configuration.entries.Nodup) :
    (∀ S, RunsWhere parts Guard (.initialized w) S → S.AtMostOne) ∧
      ∀ (S : Scheduler L) (last : Option Operation), S.control = .returned last → ¬ S.FreshStart →
        ∃ S', Step parts S (.call .start) (S.startFrom .start) ∧
          RunsWhere parts (fun _ l => l = .proceed) (S.startFrom .start) S' ∧ ¬ S'.AtMostOne := by
  constructor
  · intro S h
    exact ((Scheduler.distinct_initialized hw).runs h).atMostOne
  intro S last hcontrol h
  obtain ⟨S', hruns, hdup⟩ := Scheduler.runs_duplicate_of_not_freshStart h
  exact ⟨S', .start hcontrol, hruns, hdup⟩

/-- Another configuration, for a `Start` that is fresh. -/
def otherConfiguration : CanbusConfiguration := ⟨[(0, [⟨0x20, some 50, none⟩])]⟩

/-- After Start, Pause, Resume, Restart, and a Start with the other configuration. -/
def otherStarted : Scheduler Unit :=
  ⟨.returned (some .start), [oneTask 1, ⟨2, 50, 0, ⟨0x20, some 50, none⟩, ⟨0⟩⟩], 3,
    ⟨[oneTask 1, ⟨2, 50, 0, ⟨0x20, some 50, none⟩, ⟨0⟩⟩], none⟩,
    [oneTask 0, oneTask 0, oneTask 1, oneTask 1, ⟨2, 50, 0, ⟨0x20, some 50, none⟩, ⟨0⟩⟩],
    { oneWorld.clearReadings with configuration := otherConfiguration }⟩

theorem runs_otherStarted : RunsWhere noParts Guard (.initialized oneWorld) otherStarted := by
  have hstarted : RunsWhere noParts Guard (.initialized oneWorld) oneStarted :=
    runs_oneStarted (fun _ _ _ task htask => absurd htask List.not_mem_nil) fun _ => trivial
  have hresumed : RunsWhere noParts Guard oneStarted
      ⟨.returned (some .resume), [oneTask 0], 1, ⟨[oneTask 0], none⟩, [oneTask 0, oneTask 0], oneWorld⟩ :=
    .tail (.tail (.tail (.tail (.tail (.tail .refl ⟨.call .pause, trivial, .pause rfl⟩)
      ⟨.proceed, trivial, .cancelled rfl (not_runs_oneStarted _)⟩) ⟨.proceed, trivial, .paused rfl⟩)
      ⟨.call .resume, trivial, .resume rfl⟩) ⟨.proceed, trivial, .schedule rfl⟩)
      ⟨.proceed, trivial, .scheduled rfl⟩
  have hrestarted : RunsWhere noParts Guard
      ⟨.returned (some .resume), [oneTask 0], 1, ⟨[oneTask 0], none⟩, [oneTask 0, oneTask 0], oneWorld⟩
      ⟨.returned (some .restart), [oneTask 1], 2, ⟨[oneTask 1], none⟩, [oneTask 0, oneTask 0, oneTask 1],
        oneWorld.clearReadings⟩ :=
    .tail (.tail (.tail (.tail (.tail (.tail (.tail (.tail .refl ⟨.call .restart, trivial, .restart rfl⟩)
      ⟨.proceed, trivial, .cancelled rfl (not_runs_oneStarted _)⟩) ⟨.proceed, trivial, .clearTasks rfl⟩)
      ⟨.proceed, trivial, .clearReadings rfl⟩) ⟨.proceed, trivial, .create rfl⟩)
      ⟨.proceed, trivial, .created rfl⟩) ⟨.proceed, trivial, .schedule rfl⟩) ⟨.proceed, trivial, .scheduled rfl⟩
  have hcontrol : ∀ operation rest, Control.returned (some .restart) ≠ .creating operation rest := nofun
  have hlisted : otherConfiguration.entries.Nodup := by decide
  have hconfigured := (hstarted.trans (hresumed.trans hrestarted)).tail
    ⟨.configure otherConfiguration oneService, hlisted, .configure _ _ hcontrol⟩
  have hfresh : ∀ entry ∈ otherConfiguration.entries, ∀ task ∈ [oneTask 1], task.entry ≠ entry := by decide
  have hstartedAgain := hconfigured.tail
    ⟨.call .start, fun entry hentry _ task htask => hfresh entry hentry task htask, .start rfl⟩
  exact .tail (.tail (.tail (.tail (.tail hstartedAgain ⟨.proceed, trivial, .create rfl⟩)
    ⟨.proceed, trivial, .created rfl⟩) ⟨.proceed, trivial, .schedule rfl⟩) ⟨.proceed, trivial, .schedule rfl⟩)
    ⟨.proceed, trivial, .scheduled rfl⟩

/-- A `Start` that is fresh, after every other operation, and every message has one task. -/
theorem otherStarted_atMostOne : otherStarted.AtMostOne ∧ otherStarted.workQueueTasks.length = 2 :=
  ⟨(atMostOne_of_freshStarts (by decide)).1 otherStarted runs_otherStarted, rfl⟩

/-- A second `Start`, after a `Pause`, gives the message a second task. -/
theorem startAgain_duplicates : oneWorld.configuration.entries.Nodup ∧
    ¬ ∀ S, Runs noParts (.initialized oneWorld) S → S.AtMostOne := by
  refine ⟨by decide, fun hall => ?_⟩
  have hruns : Runs noParts (.initialized oneWorld) _ :=
    .tail (.tail runs_onePaused ⟨_, trivial, .start rfl⟩) ⟨_, trivial, .create rfl⟩
  have hdup : ¬ [(oneTask 0).entry, (oneTask 1).entry].Nodup := by decide
  exact hdup (hall _ hruns)

end EerieLeap.Canbus
