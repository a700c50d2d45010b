import EerieLeap.Canbus.Quiescence
import Mathlib.Data.List.Forall2
import Mathlib.Data.List.Nodup

/-!
# Restart installs the current configuration

`Restart` empties the list of tasks and fills it again from the configuration that it reads after
`ClearReadings`. Whatever the scheduler has done before, the list is then that of the entries which can
be scheduled, in their order, and each task has been scheduled once.

* `Installed` : what the list of tasks is after a `Restart`;
* `Scheduler.Sound` : the invariant of all runs, kept by every step (`Sound.step`);
* `Emptying`, `Filling` : where a `Restart` is, before and after it reads the configuration;
* `Filling.exists_returned`, `Sound.exists_returned` : it can always get to its end;
* `restart_installs` : the result.
-/

namespace EerieLeap.Canbus

open EerieLeap.Lib EerieLeap.Lib.Proc

variable {L : Type}

/-- The entries that are scheduled, in their order. -/
def CanbusService.scheduled (service : CanbusService) (configuration : CanbusConfiguration) : List Entry :=
  configuration.entries.filter fun entry => Schedulable service entry

/-- What a `Restart` that began in `S` and read this configuration leaves. -/
structure Installed (S : Scheduler L) (configuration : CanbusConfiguration) (service : CanbusService)
    (S' : Scheduler L) : Prop where
  /-- One task for each entry that can be scheduled, in their order. -/
  tasks : List.Forall₂ (TaskFor service) (service.scheduled configuration) S'.workQueueTasks
  /-- Since then every task of the list has been scheduled, one after the other, and no other. -/
  scheduleCalls : S'.scheduleCalls = S.scheduleCalls ++ S'.workQueueTasks
  nodup : S'.workQueueTasks.Nodup
  /-- No task of the list was there before, or had ever been scheduled. -/
  new : ∀ task ∈ S'.workQueueTasks, task ∉ S.workQueueTasks ∧ task ∉ S.scheduleCalls
  /-- No other task is pending or running. -/
  within : S'.queue.Within S'.workQueueTasks

/-! ## The invariant -/

structure Scheduler.Sound (S : Scheduler L) : Prop where
  safe : S.Safe
  /-- The tasks are numbered. -/
  tasks_lt : ∀ task ∈ S.workQueueTasks, task.id < S.nextId
  calls_lt : ∀ task ∈ S.scheduleCalls, task.id < S.nextId
  neverFails : S.queue.Holds NeverFails

variable {parts : Parts L} {S S' : Scheduler L} {l : Label}

theorem neverFails_processCanbusWorkTask (processors : List (ICanFrameProcessor L)) (task : CanbusTask) :
    (processCanbusWorkTask processors task).NeverFails := by
  apply neverFails_handle
  intro e
  trivial

theorem Scheduler.sound_initialized {w : World L} (h : w.Fresh) : (Scheduler.initialized w).Sound where
  safe := Scheduler.safe_initialized h
  tasks_lt := fun _ ht => absurd ht List.not_mem_nil
  calls_lt := fun _ ht => absurd ht List.not_mem_nil
  neverFails := fun r hr => by cases hr

/-- The worker is never at a program that fails. -/
theorem Step.neverFails (h : Step parts S l S') (hS : S.queue.Holds NeverFails) :
    S'.queue.Holds NeverFails :=
  h.holds hS (neverFails_processCanbusWorkTask _) fun _ _ _ _ hx hstep => hx.step hstep

/-- **Every step** keeps the invariant. -/
theorem Scheduler.Sound.step (hS : S.Sound) (h : Step parts S l S') : S'.Sound := by
  have hsafe := hS.safe.step h
  have hneverFails := h.neverFails hS.neverFails
  cases h with
  | clearTasks h => exact ⟨hsafe, fun _ ht => absurd ht List.not_mem_nil, hS.calls_lt, hneverFails⟩
  | @create operation entry rest h =>
    rcases S.create_spec parts operation entry rest with ⟨-, heq⟩ | ⟨-, task, lua, -, hid, heq⟩
    · rw [heq] at hsafe hneverFails ⊢
      exact ⟨hsafe, hS.tasks_lt, hS.calls_lt, hneverFails⟩
    · rw [heq] at hsafe hneverFails ⊢
      refine ⟨hsafe, ?_, ?_, hneverFails⟩
      · intro t ht
        rcases List.mem_append.mp ht with ht | ht
        · exact Nat.lt_succ_of_lt (hS.tasks_lt t ht)
        · rw [List.mem_singleton.mp ht, hid]
          exact Nat.lt_succ_self _
      · intro t ht
        exact Nat.lt_succ_of_lt (hS.calls_lt t ht)
  | @schedule operation task rest h =>
    refine ⟨hsafe, hS.tasks_lt, ?_, hneverFails⟩
    intro t ht
    rcases List.mem_append.mp ht with ht | ht
    · exact hS.calls_lt t ht
    · rw [List.mem_singleton.mp ht]
      have hmem := (hS.safe.coherent_of_control h).2 task List.mem_cons_self
      exact hS.tasks_lt task hmem
  | _ => exact ⟨hsafe, hS.tasks_lt, hS.calls_lt, hneverFails⟩

theorem Scheduler.Sound.runs {P : Scheduler L → Label → Prop} (hS : S.Sound)
    (h : RunsWhere parts P S S') : S'.Sound := by
  induction h with
  | refl => exact hS
  | tail _ hstep ih =>
    obtain ⟨l, -, hstep⟩ := hstep
    exact ih.step hstep

/-! ## Where a Restart is -/

/-- A `Restart` that began in `S`, before it reads the configuration. -/
structure Emptying (S T : Scheduler L) : Prop where
  control : (∃ rest, T.control = .pausing .restart rest) ∨
    (T.control = .clearingReadings ∧ T.workQueueTasks = [])
  scheduleCalls : T.scheduleCalls = S.scheduleCalls
  nextId : T.nextId = S.nextId

/-- What the loops have done of a `Restart` that read the configuration in `M`. -/
def Scheduler.Done (M T : Scheduler L) : Control → Prop
  | .creating operation rest =>
    operation = .restart ∧ T.world.service = M.world.service ∧ T.scheduleCalls = M.scheduleCalls ∧
      ∃ past, M.world.configuration.entries = past ++ rest ∧
        List.Forall₂ (TaskFor M.world.service)
          (past.filter fun entry => Schedulable M.world.service entry) T.workQueueTasks
  | .scheduling operation rest =>
    operation = .restart ∧
      List.Forall₂ (TaskFor M.world.service) (M.world.service.scheduled M.world.configuration)
        T.workQueueTasks ∧
      ∃ past, T.workQueueTasks = past ++ rest ∧ T.scheduleCalls = M.scheduleCalls ++ past
  | .returned last =>
    last = some .restart ∧
      List.Forall₂ (TaskFor M.world.service) (M.world.service.scheduled M.world.configuration)
        T.workQueueTasks ∧
      T.scheduleCalls = M.scheduleCalls ++ T.workQueueTasks
  | _ => False

/-- A `Restart` that read the configuration in `M`, after that. -/
structure Filling (M T : Scheduler L) : Prop where
  done : M.Done T T.control
  nextId_le : M.nextId ≤ T.nextId
  tasks_ge : ∀ task ∈ T.workQueueTasks, M.nextId ≤ task.id
  nodup : T.workQueueTasks.Nodup

/-- A call of an operation. -/
def Label.IsCall (l : Label) : Prop := ∃ operation, l = .call operation

variable {T T' : Scheduler L}

theorem Emptying.step (hT : Emptying S T) (hchanging : T.queue.Changing TaskMay)
    (h : Step parts T l T') (hl : ¬ l.IsCall) :
    Emptying S T' ∨ (T.control = .clearingReadings ∧ l = .proceed ∧ Filling T T') := by
  by_cases hproceed : l = .proceed
  · subst hproceed
    cases h with
    | cancelAgain h => exact Or.inl ⟨hT.control, hT.scheduleCalls, hT.nextId⟩
    | @cancelled operation task rest h hidle =>
      rcases hT.control with ⟨rest', hc⟩ | ⟨hc, -⟩
      · cases h.symm.trans hc
        exact Or.inl ⟨Or.inl ⟨rest, rfl⟩, hT.scheduleCalls, hT.nextId⟩
      · cases h.symm.trans hc
    | clearTasks h => exact Or.inl ⟨Or.inr ⟨rfl, rfl⟩, hT.scheduleCalls, hT.nextId⟩
    | clearReadings h =>
      rcases hT.control with ⟨rest', hc⟩ | ⟨-, hnil⟩
      · cases h.symm.trans hc
      · -- the list is empty, and all entries are still to come
        refine Or.inr ⟨h, rfl, ⟨rfl, rfl, rfl, [], rfl, ?_⟩, Nat.le_refl _, ?_, ?_⟩
        · show List.Forall₂ (TaskFor T.world.service) [] T.workQueueTasks
          rw [hnil]
          exact .nil
        · intro task htask
          exact absurd (hnil ▸ htask) List.not_mem_nil
        · exact hnil ▸ List.nodup_nil
    | paused h => rcases hT.control with ⟨rest', hc⟩ | ⟨hc, -⟩ <;> cases h.symm.trans hc
    | create h => rcases hT.control with ⟨rest', hc⟩ | ⟨hc, -⟩ <;> cases h.symm.trans hc
    | created h => rcases hT.control with ⟨rest', hc⟩ | ⟨hc, -⟩ <;> cases h.symm.trans hc
    | schedule h => rcases hT.control with ⟨rest', hc⟩ | ⟨hc, -⟩ <;> cases h.symm.trans hc
    | scheduled h => rcases hT.control with ⟨rest', hc⟩ | ⟨hc, -⟩ <;> cases h.symm.trans hc
  · obtain ⟨hsame, -⟩ := h.sameTasks hchanging (fun operation heq => hl ⟨operation, heq⟩) hproceed
    refine Or.inl ⟨?_, hsame.scheduleCalls.trans hT.scheduleCalls, hsame.nextId.trans hT.nextId⟩
    rw [hsame.control, hsame.workQueueTasks]
    exact hT.control

theorem Emptying.not_returned {last : Option Operation} (hT : Emptying S T) :
    T.control ≠ .returned last := by
  intro h
  rcases hT.control with ⟨rest, hc⟩ | ⟨hc, -⟩
  · cases h.symm.trans hc
  · cases h.symm.trans hc

/-- What the loops have done does not depend on what other threads change. -/
theorem Scheduler.Done.congr {M : Scheduler L} {control : Control} (h : M.Done T control)
    (hsame : T.SameTasks T')
    (hservice : ∀ operation rest, control = .creating operation rest →
      T'.world.service = T.world.service) : M.Done T' control := by
  cases control with
  | creating operation rest =>
    obtain ⟨hoperation, hsetup, hcalls, past, hentries, htasks⟩ := h
    refine ⟨hoperation, (hservice _ _ rfl).trans hsetup, hsame.scheduleCalls.trans hcalls, past, hentries,
      ?_⟩
    rwa [hsame.workQueueTasks]
  | scheduling operation rest =>
    unfold Done
    rwa [hsame.workQueueTasks, hsame.scheduleCalls]
  | returned last =>
    unfold Done
    rwa [hsame.workQueueTasks, hsame.scheduleCalls]
  | pausing operation rest => exact h.elim
  | clearingReadings => exact h.elim

theorem Filling.done_of_control {M : Scheduler L} {control : Control} (hT : Filling M T)
    (h : T.control = control) : M.Done T control := h ▸ hT.done

theorem Filling.create {M : Scheduler L} {operation : Operation} {entry : Entry} {rest : List Entry}
    (hT : Filling M T) (hlt : ∀ task ∈ T.workQueueTasks, task.id < T.nextId)
    (h : T.control = .creating operation (entry :: rest)) :
    Filling M (T.create parts operation entry rest) := by
  obtain ⟨hoperation, hservice, hcalls, past, hentries, htasks⟩ := hT.done_of_control h
  have hentries' : M.world.configuration.entries = (past ++ [entry]) ++ rest := by
    rw [hentries, List.append_assoc, List.singleton_append]
  rcases T.create_spec parts operation entry rest with ⟨hnot, heq⟩ | ⟨hyes, task, lua, htask, hid, heq⟩
  · rw [heq]
    refine ⟨⟨hoperation, hservice, hcalls, past ++ [entry], hentries', ?_⟩, hT.nextId_le, hT.tasks_ge,
      hT.nodup⟩
    rw [hservice] at hnot
    have hsingle : [entry].filter (fun entry => Schedulable M.world.service entry) = [] := by
      simp [hnot]
    rw [List.filter_append, hsingle, List.append_nil]
    exact htasks
  · rw [heq]
    rw [hservice] at hyes htask
    refine ⟨⟨hoperation, hservice, hcalls, past ++ [entry], hentries', ?_⟩,
      Nat.le_succ_of_le hT.nextId_le, ?_, ?_⟩
    · have hsingle : [entry].filter (fun entry => Schedulable M.world.service entry) = [entry] := by
        simp [hyes]
      rw [List.filter_append, hsingle]
      exact List.rel_append htasks (.cons htask .nil)
    · intro t ht
      rcases List.mem_append.mp ht with ht | ht
      · exact hT.tasks_ge t ht
      · rw [List.mem_singleton.mp ht, hid]
        exact hT.nextId_le
    · -- the numbers of the old tasks are smaller
      refine List.nodup_append.mpr ⟨hT.nodup, List.nodup_singleton task, ?_⟩
      intro t ht t' ht' hsame
      have hlt := hlt t ht
      rw [hsame, List.mem_singleton.mp ht', hid] at hlt
      exact Nat.lt_irrefl _ hlt

/-- **Every step** of a `Restart` gets it on. -/
theorem Filling.step {M : Scheduler L} (hT : Filling M T) (hsound : T.Sound) (h : Step parts T l T')
    (hl : ¬ l.IsCall) : Filling M T' := by
  by_cases hproceed : l = .proceed
  · subst hproceed
    cases h with
    | create h => exact hT.create hsound.tasks_lt h
    | created h =>
      obtain ⟨hoperation, -, hcalls, past, hentries, htasks⟩ := hT.done_of_control h
      refine ⟨⟨hoperation, ?_, [], rfl, by rw [List.append_nil]; exact hcalls⟩, hT.nextId_le, hT.tasks_ge,
        hT.nodup⟩
      rw [List.append_nil] at hentries
      rw [CanbusService.scheduled, hentries]
      exact htasks
    | @schedule operation task rest h =>
      obtain ⟨hoperation, htasks, past, hpast, hcalls⟩ := hT.done_of_control h
      refine ⟨⟨hoperation, htasks, past ++ [task], ?_, ?_⟩, hT.nextId_le, hT.tasks_ge, hT.nodup⟩
      · rw [List.append_assoc, List.singleton_append]
        exact hpast
      · show T.scheduleCalls ++ [task] = _
        rw [hcalls, List.append_assoc]
    | scheduled h =>
      obtain ⟨rfl, htasks, past, hpast, hcalls⟩ := hT.done_of_control h
      rw [List.append_nil] at hpast
      refine ⟨⟨rfl, htasks, ?_⟩, hT.nextId_le, hT.tasks_ge, hT.nodup⟩
      show T.scheduleCalls = M.scheduleCalls ++ T.workQueueTasks
      rw [hcalls, hpast]
    | cancelAgain h => exact (hT.done_of_control h).elim
    | cancelled h hidle => exact (hT.done_of_control h).elim
    | paused h => exact (hT.done_of_control h).elim
    | clearTasks h => exact (hT.done_of_control h).elim
    | clearReadings h => exact (hT.done_of_control h).elim
  · obtain ⟨hsame, hsetup⟩ :=
      h.sameTasks hsound.safe.changing (fun operation heq => hl ⟨operation, heq⟩) hproceed
    refine ⟨?_, Nat.le_trans hT.nextId_le (Nat.le_of_eq hsame.nextId.symm), ?_, ?_⟩
    · rw [hsame.control]
      refine hT.done.congr hsame fun operation rest hcreating => (hsetup ?_).2
      -- the configuration does not change in the middle of the loops
      rintro configuration service rfl
      cases h with
      | configure _ _ hnot => exact hnot operation rest hcreating
    · rw [hsame.workQueueTasks]
      exact hT.tasks_ge
    · rw [hsame.workQueueTasks]
      exact hT.nodup

/-! ## It gets to its end -/

variable (parts)

/-- A step of the operation or of the worker. -/
def Label.Own (l : Label) : Prop := l = .proceed ∨ l = .work

theorem create_control (operation : Operation) (entry : Entry) (rest : List Entry) :
    (T.create parts operation entry rest).control = .creating operation rest := by
  rcases T.create_cases parts operation entry rest with ⟨-, heq⟩ | ⟨-, task, lua, -, heq⟩
  · rw [heq]
  · rw [heq]

theorem exists_returned_of_scheduling {operation : Operation} {rest : List WorkQueueTask}
    (h : T.control = .scheduling operation rest) :
    ∃ T', RunsWhere parts (fun _ l => l.Own) T T' ∧ T'.control = .returned (some operation) := by
  induction rest generalizing T with
  | nil => exact ⟨_, .single ⟨_, Or.inl rfl, .scheduled h⟩, rfl⟩
  | cons task rest ih =>
    obtain ⟨T', hruns, hreturned⟩ := ih (T := T.schedule operation task rest) rfl
    exact ⟨T', .head ⟨_, Or.inl rfl, .schedule h⟩ hruns, hreturned⟩

theorem exists_returned_of_creating {operation : Operation} {rest : List Entry}
    (h : T.control = .creating operation rest) :
    ∃ T', RunsWhere parts (fun _ l => l.Own) T T' ∧ T'.control = .returned (some operation) := by
  induction rest generalizing T with
  | nil =>
    obtain ⟨T', hruns, hreturned⟩ := exists_returned_of_scheduling parts
      (T := { T with control := .scheduling operation T.workQueueTasks }) rfl
    exact ⟨T', .head ⟨_, Or.inl rfl, .created h⟩ hruns, hreturned⟩
  | cons entry rest ih =>
    obtain ⟨T', hruns, hreturned⟩ := ih (create_control parts operation entry rest)
    exact ⟨T', .head ⟨_, Or.inl rfl, .create h⟩ hruns, hreturned⟩

theorem exists_returned_of_clearingReadings (h : T.control = .clearingReadings) :
    ∃ T', RunsWhere parts (fun _ l => l.Own) T T' ∧ T'.control = .returned (some .restart) := by
  obtain ⟨T', hruns, hreturned⟩ := exists_returned_of_creating parts
    (T := ({ T with world := T.world.clearReadings } : Scheduler L).startFrom .restart) rfl
  exact ⟨T', .head ⟨_, Or.inl rfl, .clearReadings h⟩ hruns, hreturned⟩

/-- The worker comes to the end of the task it is at. -/
theorem Scheduler.Sound.exists_idle (hT : T.Sound) : ∃ world queue,
    RunsWhere parts (fun _ l => l.Own) T { T with world := world, queue := queue } ∧
      queue.running = none := by
  have hwork : ∃ world queue, Relation.ReflTransGen
      (WorkQueue.Work (fun task => processCanbusWorkTask parts.canFrameProcessors task.userdata)
        WorkQueueTaskResult.reschedule World.enter) (T.world, T.queue) (world, queue) ∧
      queue.running = none := WorkQueue.Work.exists_idle hT.neverFails
  obtain ⟨world, queue, hwork, hidle⟩ := hwork
  exact ⟨world, queue, runs_work (fun _ => .inr rfl) hwork, hidle⟩

theorem Scheduler.Sound.exists_returned_of_pausing {rest : List WorkQueueTask} (hT : T.Sound)
    (h : T.control = .pausing .restart rest) :
    ∃ T', RunsWhere parts (fun _ l => l.Own) T T' ∧ T'.control = .returned (some .restart) := by
  induction rest generalizing T with
  | nil =>
    obtain ⟨T', hruns, hreturned⟩ := exists_returned_of_clearingReadings parts
      (T := { T with control := .clearingReadings, workQueueTasks := [] }) rfl
    exact ⟨T', .head ⟨_, Or.inl rfl, .clearTasks h⟩ hruns, hreturned⟩
  | cons task rest ih =>
    -- `Cancel` answers `false` once the worker is through with the task
    obtain ⟨world, queue, hruns, hidle⟩ := hT.exists_idle parts
    have hnot : ¬ queue.Runs task := by
      rintro ⟨r, hr, -⟩
      rw [hidle] at hr
      cases hr
    have hstep : Step parts { T with world := world, queue := queue } .proceed
        { T with world := world, control := .pausing .restart rest, queue := queue.cancel task } :=
      .cancelled h hnot
    obtain ⟨T', hruns', hreturned⟩ := ih ((hT.runs hruns).step hstep) rfl
    exact ⟨T', hruns.trans (.head ⟨_, Or.inl rfl, hstep⟩ hruns'), hreturned⟩

theorem Filling.exists_returned {M : Scheduler L} (hT : Filling M T) :
    ∃ T', RunsWhere parts (fun _ l => l.Own) T T' ∧ T'.control = .returned (some .restart) := by
  cases hcontrol : T.control with
  | creating operation rest =>
    obtain ⟨rfl, -⟩ := hT.done_of_control hcontrol
    exact exists_returned_of_creating parts hcontrol
  | scheduling operation rest =>
    obtain ⟨rfl, -⟩ := hT.done_of_control hcontrol
    exact exists_returned_of_scheduling parts hcontrol
  | returned last =>
    obtain ⟨rfl, -⟩ := hT.done_of_control hcontrol
    exact ⟨T, .refl, hcontrol⟩
  | pausing operation rest => exact (hT.done_of_control hcontrol).elim
  | clearingReadings => exact (hT.done_of_control hcontrol).elim

variable {parts}

/-! ## The result -/

/-- Runs in which `main` calls nothing. -/
def RunsUncalled (parts : Parts L) : Scheduler L → Scheduler L → Prop :=
  RunsWhere parts fun _ l => ¬ l.IsCall

/-- Runs in which `main` calls nothing and the configuration stays as it is. -/
def RunsSteady (parts : Parts L) : Scheduler L → Scheduler L → Prop :=
  RunsWhere parts fun _ l => ¬ l.IsCall ∧ ∀ configuration service, l ≠ .configure configuration service

/-- A `Restart` that began in `S` has not read the configuration yet, or has read it in some `M`. -/
theorem restart_phases {P : Scheduler L → Label → Prop} {S₁ : Scheduler L}
    (hP : ∀ S l, P S l → ¬ l.IsCall) (hS : S.Sound) (hcall : Step parts S (.call .restart) S₁)
    (h : RunsWhere parts P S₁ T) :
    Emptying S T ∨ ∃ M M', RunsWhere parts P S₁ M ∧ Emptying S M ∧ M.control = .clearingReadings ∧
      Step parts M .proceed M' ∧ RunsWhere parts P M' T ∧ Filling M T := by
  have hcalled := hS.step hcall
  induction h with
  | refl =>
    cases hcall
    exact Or.inl ⟨Or.inl ⟨_, rfl⟩, rfl, rfl⟩
  | @tail T T' hruns hstep ih =>
    obtain ⟨l, hl, hstep⟩ := hstep
    have hT := hcalled.runs hruns
    rcases ih with hemptying | ⟨M, M', hM, hemptying, hclearing, hread, hruns', hfilling⟩
    · rcases hemptying.step hT.safe.changing hstep (hP _ _ hl) with hT' | ⟨hclearing, rfl, hfilling⟩
      · exact Or.inl hT'
      · exact Or.inr ⟨T, T', hruns, hemptying, hclearing, hstep, .refl, hfilling⟩
    · exact Or.inr ⟨M, M', hM, hemptying, hclearing, hread, .tail hruns' ⟨l, hl, hstep⟩,
        hfilling.step hT hstep (hP _ _ hl)⟩

/-- **What a `Restart` has installed** when it returns. -/
theorem Filling.installed {M : Scheduler L} (hfilling : Filling M T) (hemptying : Emptying S M)
    (hS : S.Sound) (hT : T.Sound) (hreturned : T.control = .returned (some .restart)) :
    Installed S M.world.configuration M.world.service T := by
  obtain ⟨-, htasks, hcalls⟩ := hfilling.done_of_control hreturned
  rw [hemptying.scheduleCalls] at hcalls
  refine ⟨htasks, hcalls, hfilling.nodup, ?_, hT.safe.within_of_returned hreturned⟩
  intro task htask
  have hge : S.nextId ≤ task.id := hemptying.nextId ▸ hfilling.tasks_ge task htask
  constructor
  · intro hold
    exact Nat.not_lt.mpr hge (hS.tasks_lt task hold)
  · intro hold
    exact Nat.not_lt.mpr hge (hS.calls_lt task hold)

/-- A step that is no change of the configuration leaves it, and what the service answers. -/
theorem Step.sameSetup (h : Step parts S l S') (hS : S.queue.Changing TaskMay)
    (hl : ∀ configuration service, l ≠ .configure configuration service) :
    S.world.SameSetup S'.world := by
  cases h with
  | @create operation entry rest h =>
    obtain ⟨lua, hworld⟩ := S.create_world parts operation entry rest
    rw [hworld]
    exact ⟨rfl, rfl⟩
  | work h =>
    exact ((Step.work (S := S) h).sameTasks hS (fun _ => nofun) nofun).2 hl
  | configure configuration service h => exact absurd rfl (hl _ _)
  | _ => exact ⟨rfl, rfl⟩

theorem Scheduler.Sound.sameSetup (hS : S.Sound) (h : RunsSteady parts S T) :
    S.world.SameSetup T.world := by
  induction h with
  | refl => exact ⟨rfl, rfl⟩
  | tail hruns hstep ih =>
    obtain ⟨l, ⟨-, hl⟩, hstep⟩ := hstep
    obtain ⟨hconfiguration, hservice⟩ := hstep.sameSetup (hS.runs hruns).safe.changing hl
    exact ⟨hconfiguration.trans ih.1, hservice.trans ih.2⟩

/-- **Restart** installs the configuration that it finds, whatever the scheduler has done before: when
the configuration stays as it is meanwhile, it is the one there was at the call, and else the one there
is when it reads it, after `ClearReadings`. It can always get to its end. -/
theorem restart_installs {configuration : CanbusConfiguration} {service : CanbusService}
    {busValid : CanbusProxy → Bool} {lua : L} {S₁ S₂ : Scheduler L}
    (h : Runs parts (.initialized (.initial configuration service busValid lua)) S)
    (hcall : Step parts S (.call .restart) S₁) (hruns : RunsUncalled parts S₁ S₂) :
    (∃ S₃, RunsWhere parts (fun _ l => l.Own) S₂ S₃ ∧ S₃.control = .returned (some .restart)) ∧
      (S₂.control = .returned (some .restart) →
        (∃ M M', RunsUncalled parts S₁ M ∧ M.control = .clearingReadings ∧ Step parts M .proceed M' ∧
          RunsUncalled parts M' S₂ ∧ Installed S M.world.configuration M.world.service S₂) ∧
        (RunsSteady parts S₁ S₂ → Installed S S.world.configuration S.world.service S₂)) := by
  have hS : S.Sound := (Scheduler.sound_initialized (World.fresh_initial _ _ _ _)).runs h
  have hS₁ := hS.step hcall
  have hS₂ := hS₁.runs hruns
  refine ⟨?_, ?_⟩
  · rcases restart_phases (fun _ _ hl => hl) hS hcall hruns with
      hemptying | ⟨M, -, -, -, -, -, -, hfilling⟩
    · rcases hemptying.control with ⟨rest, hpausing⟩ | ⟨hclearing, -⟩
      · exact hS₂.exists_returned_of_pausing parts hpausing
      · exact exists_returned_of_clearingReadings parts hclearing
    · exact hfilling.exists_returned parts
  intro hreturned
  constructor
  · rcases restart_phases (fun _ _ hl => hl) hS hcall hruns with
      hemptying | ⟨M, M', hM, hemptying, hclearing, hread, hruns', hfilling⟩
    · exact (hemptying.not_returned hreturned).elim
    · exact ⟨M, M', hM, hclearing, hread, hruns', hfilling.installed hemptying hS hS₂ hreturned⟩
  · intro hsteady
    rcases restart_phases (fun _ _ hl => hl.1) hS hcall hsteady with
      hemptying | ⟨M, M', hM, hemptying, -, -, -, hfilling⟩
    · exact (hemptying.not_returned hreturned).elim
    · have hinstalled := hfilling.installed hemptying hS hS₂ hreturned
      obtain ⟨hconfiguration, hservice⟩ := hS₁.sameSetup hM
      rw [hconfiguration, hservice] at hinstalled
      cases hcall
      exact hinstalled

theorem not_isCall_proceed : ¬ Label.IsCall .proceed := by
  rintro ⟨operation, h⟩
  cases h

/-- A message without an interval, and one with. -/
def twoConfiguration : CanbusConfiguration := ⟨[(0, [⟨0x11, none, none⟩, oneMessage])]⟩

def twoWorld : World Unit := .initial twoConfiguration oneService (fun _ => true) ()

/-- After `Start`. -/
def twoStarted : Scheduler Unit :=
  ⟨.returned (some .start), [oneTask 0], 1, ⟨[oneTask 0], none⟩, [oneTask 0], twoWorld⟩

theorem runs_twoStarted : Runs noParts (.initialized twoWorld) twoStarted :=
  .tail (.tail (.tail (.tail (.tail (.tail .refl ⟨_, trivial, .start rfl⟩) ⟨_, trivial, .create rfl⟩)
    ⟨_, trivial, .create rfl⟩) ⟨_, trivial, .created rfl⟩) ⟨_, trivial, .schedule rfl⟩)
    ⟨_, trivial, .scheduled rfl⟩

/-- After `Start` and `Restart`. -/
def twoRestarted : Scheduler Unit :=
  ⟨.returned (some .restart), [oneTask 1], 2, ⟨[oneTask 1], none⟩, [oneTask 0, oneTask 1],
    twoWorld.clearReadings⟩

theorem runs_twoRestarted {P : Scheduler Unit → Label → Prop} (hproceed : ∀ S, P S .proceed) :
    RunsWhere noParts P { twoStarted with control := .pausing .restart [oneTask 0] } twoRestarted := by
  have hidle : ¬ twoStarted.queue.Runs (oneTask 0) := not_runs_oneStarted (oneTask 0)
  exact .tail (.tail (.tail (.tail (.tail (.tail (.tail (.tail .refl
    ⟨_, hproceed _, .cancelled rfl hidle⟩) ⟨_, hproceed _, .clearTasks rfl⟩)
    ⟨_, hproceed _, .clearReadings rfl⟩) ⟨_, hproceed _, .create rfl⟩) ⟨_, hproceed _, .create rfl⟩)
    ⟨_, hproceed _, .created rfl⟩) ⟨_, hproceed _, .schedule rfl⟩) ⟨_, hproceed _, .scheduled rfl⟩

/-- The message without an interval is skipped, and the new task of the other takes the place of the old one. -/
theorem twoRestarted_installed : Installed twoStarted twoConfiguration oneService twoRestarted ∧
    oneService.scheduled twoConfiguration = [(0, oneMessage)] := by
  have hruns : RunsUncalled noParts _ twoRestarted := runs_twoRestarted fun _ => not_isCall_proceed
  have hsteady : RunsSteady noParts _ twoRestarted :=
    runs_twoRestarted fun _ => ⟨not_isCall_proceed, nofun⟩
  exact ⟨((restart_installs runs_twoStarted (.restart rfl) hruns).2 rfl).2 hsteady, by decide⟩

end EerieLeap.Canbus
