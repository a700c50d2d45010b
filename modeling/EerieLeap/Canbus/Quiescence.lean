import EerieLeap.Canbus.CanbusSchedulerService

/-!
# After Pause nothing runs, and Restart leaves no old reading to look up

`Pause` cancels the tasks one after the other while the worker goes on with the rest, and with the one
that is being cancelled. A task that it has passed is idle and stays so, since nothing schedules it, and
the worker only goes on with what is pending or running.

* `Control.active` : the tasks that may be pending or running, given where the operation is;
* `World.Fresh`, `World.SeenFresh` : the readings that are held, were sent or have been looked up were
  recorded after the last `ClearReadings`;
* `Scheduler.Safe` : the invariant, kept by every step (`Safe.step`);
* `Scheduler.Quiet.runs` : what is quiet stays so until something makes tasks run again;
* `Scheduler.Safe.sent_after_clearReadings` : the readings looked up for frames that are sent afterwards.
-/

namespace EerieLeap.Canbus

open EerieLeap.Lib EerieLeap.Lib.Proc

variable {L : Type}

/-! ## Fresh readings -/

/-- No reading that is held or was sent is older than the last `ClearReadings` before. -/
structure World.Fresh (w : World L) : Prop where
  readings : ∀ r ∈ w.readings, r.epoch = w.epoch
  sent : ∀ frame, Event.sent frame ∈ w.trace → ∀ r ∈ frame.seen, r.epoch = frame.epoch

/-- Nor is one that the task that runs has looked up. -/
def World.SeenFresh (w : World L) : Prop := ∀ r ∈ w.seen, r.epoch = w.epoch

theorem World.Fresh.record {w : World L} (h : w.Fresh) (signal : ℕ) (value : Value) :
    (w.record signal value).Fresh := by
  refine ⟨?_, h.sent⟩
  intro r hr
  rcases List.mem_cons.mp hr with rfl | hr
  · rfl
  · exact h.readings r (List.mem_filter.mp hr).1

theorem World.Fresh.clearReadings {w : World L} (h : w.Fresh) : w.clearReadings.Fresh :=
  ⟨fun _ hr => absurd hr List.not_mem_nil, h.sent⟩

theorem World.Fresh.enter {w : World L} (h : w.Fresh) : w.enter.Fresh ∧ w.enter.SeenFresh :=
  ⟨⟨h.readings, h.sent⟩, fun _ hr => absurd hr List.not_mem_nil⟩

/-- **A task** looks up and sends nothing older. -/
theorem TaskMay.fresh (w w' : World L) (h : TaskMay w w') (hw : w.Fresh) (hseen : w.SeenFresh) :
    w'.Fresh ∧ w'.SeenFresh := by
  cases h with
  | processor h =>
    cases h with
    | script lua => exact ⟨⟨hw.readings, hw.sent⟩, hseen⟩
    | lookUp signal =>
      refine ⟨⟨hw.readings, ?_⟩, ?_⟩
      · intro frame hframe
        exact hw.sent frame (by simpa [World.lookUp] using hframe)
      · intro r hr
        rcases List.mem_append.mp hr with hr | hr
        · exact hseen r hr
        · exact hw.readings r (List.mem_of_find?_eq_some (Option.mem_toList.mp hr))
    | record signal value => exact ⟨hw.record signal value, hseen⟩
  | send canbus frameId data =>
    refine ⟨⟨hw.readings, ?_⟩, hseen⟩
    intro frame hframe
    rcases List.mem_append.mp hframe with hframe | hframe
    · exact hw.sent frame hframe
    · obtain rfl := Event.sent.inj (List.mem_singleton.mp hframe)
      exact hseen

/-! ## The invariant -/

/-- The tasks of `tasks` that may be pending or running. -/
def Control.active (tasks : List WorkQueueTask) : Control → List WorkQueueTask
  | .returned none => []
  | .returned (some .pause) => []
  | .returned (some _) => tasks
  | .pausing _ rest => rest
  | .clearingReadings => []
  | .creating _ _ => tasks
  | .scheduling _ _ => tasks

theorem Control.active_returned_subset (tasks : List WorkQueueTask) (last : Option Operation) :
    ∀ t ∈ active tasks (.returned last), t ∈ tasks := by
  intro t ht
  match last with
  | none => exact absurd ht List.not_mem_nil
  | some .pause => exact absurd ht List.not_mem_nil
  | some .start | some .restart | some .resume => exact ht

/-- The loops that come to `Schedule` are not those of `Pause`, and go through tasks of the list. -/
def Control.Coherent (tasks : List WorkQueueTask) : Control → Prop
  | .creating operation _ => operation ≠ .pause
  | .scheduling operation rest => operation ≠ .pause ∧ ∀ t ∈ rest, t ∈ tasks
  | _ => True

structure Scheduler.Safe (S : Scheduler L) : Prop where
  /-- The tasks that `Pause` has passed are idle. -/
  within : S.queue.Within (S.control.active S.workQueueTasks)
  coherent : S.control.Coherent S.workQueueTasks
  changing : S.queue.Changing TaskMay
  fresh : S.world.Fresh
  seen : S.queue.running ≠ none → S.world.SeenFresh

variable {parts : Parts L} {S S' : Scheduler L} {l : Label}

theorem Scheduler.safe_initialized {w : World L} (h : w.Fresh) : (Scheduler.initialized w).Safe where
  within := WorkQueue.within_nil.mpr ⟨rfl, rfl⟩
  coherent := trivial
  changing := changing_initialized w
  fresh := h
  seen := fun hne => absurd rfl hne

theorem Scheduler.Safe.within_of_control {control : Control} (hS : S.Safe) (h : S.control = control) :
    S.queue.Within (control.active S.workQueueTasks) := h ▸ hS.within

theorem Scheduler.Safe.coherent_of_control {control : Control} (hS : S.Safe) (h : S.control = control) :
    control.Coherent S.workQueueTasks := h ▸ hS.coherent

/-- Between operations only tasks of the list are pending or running. -/
theorem Scheduler.Safe.within_of_returned {last : Option Operation} (hS : S.Safe)
    (h : S.control = .returned last) : S.queue.Within S.workQueueTasks :=
  (hS.within_of_control h).mono (Control.active_returned_subset _ last)

theorem Scheduler.Safe.idle_of_clearingReadings (hS : S.Safe) (h : S.control = .clearingReadings) :
    S.queue.Idle := WorkQueue.within_nil.mp (hS.within_of_control h)

theorem Scheduler.Safe.idle_of_paused (hS : S.Safe) (h : S.control = .returned (some .pause)) :
    S.queue.Idle := WorkQueue.within_nil.mp (hS.within_of_control h)

theorem Scheduler.Safe.cancel {task : WorkQueueTask} (hS : S.Safe) :
    ({ S with queue := S.queue.cancel task } : Scheduler L).Safe := by
  refine ⟨hS.within.cancel task, hS.coherent, hS.changing.cancel task, hS.fresh, ?_⟩
  intro hne
  exact hS.seen (by simpa [WorkQueue.cancel] using hne)

theorem Scheduler.Safe.create {operation : Operation} {entry : Entry} {rest : List Entry}
    (hS : S.Safe) (h : S.control = .creating operation (entry :: rest)) :
    (S.create parts operation entry rest).Safe := by
  have hwithin : S.queue.Within S.workQueueTasks := hS.within_of_control h
  have hoperation : operation ≠ .pause := hS.coherent_of_control h
  rcases S.create_cases parts operation entry rest with ⟨-, heq⟩ | ⟨-, task, lua, -, heq⟩
  · rw [heq]
    exact ⟨hwithin, hoperation, hS.changing, hS.fresh, hS.seen⟩
  · rw [heq]
    refine ⟨hwithin.mono fun t ht => List.mem_append_left _ ht, hoperation, hS.changing, ?_, hS.seen⟩
    exact ⟨hS.fresh.readings, hS.fresh.sent⟩

theorem Scheduler.Safe.schedule {operation : Operation} {task : WorkQueueTask}
    {rest : List WorkQueueTask} (hS : S.Safe) (h : S.control = .scheduling operation (task :: rest)) :
    (S.schedule operation task rest).Safe := by
  have hwithin : S.queue.Within S.workQueueTasks := hS.within_of_control h
  obtain ⟨hoperation, hmem⟩ : operation ≠ .pause ∧ ∀ t ∈ task :: rest, t ∈ S.workQueueTasks :=
    hS.coherent_of_control h
  have hrest : ∀ t ∈ rest, t ∈ S.workQueueTasks := fun t ht => hmem t (List.mem_cons_of_mem task ht)
  refine ⟨WorkQueue.within_schedule hwithin (hmem task List.mem_cons_self), ⟨hoperation, hrest⟩,
    hS.changing.schedule task, hS.fresh, ?_⟩
  intro hne
  exact hS.seen (by simpa [Scheduler.schedule] using hne)

/-- **Every step** keeps the invariant. -/
theorem Scheduler.Safe.step (hS : S.Safe) (h : Step parts S l S') : S'.Safe := by
  cases h with
  | start h =>
    have hoperation : Operation.start ≠ .pause := by decide
    exact ⟨hS.within_of_returned h, hoperation, hS.changing, hS.fresh, hS.seen⟩
  | restart h => exact ⟨hS.within_of_returned h, trivial, hS.changing, hS.fresh, hS.seen⟩
  | pause h => exact ⟨hS.within_of_returned h, trivial, hS.changing, hS.fresh, hS.seen⟩
  | resume h =>
    exact ⟨hS.within_of_returned h, ⟨by decide, fun _ => id⟩, hS.changing, hS.fresh, hS.seen⟩
  | cancelAgain h => exact hS.cancel
  | @cancelled operation task rest h hidle =>
    have hwithin : S.queue.Within (task :: rest) := hS.within_of_control h
    have hcancel : ({ S with queue := S.queue.cancel task } : Scheduler L).Safe := hS.cancel
    exact ⟨WorkQueue.within_cancel hwithin hidle, trivial, hcancel.changing, hcancel.fresh, hcancel.seen⟩
  | paused h =>
    have hwithin : S.queue.Within [] := hS.within_of_control h
    exact ⟨hwithin, trivial, hS.changing, hS.fresh, hS.seen⟩
  | clearTasks h =>
    have hwithin : S.queue.Within [] := hS.within_of_control h
    exact ⟨hwithin, trivial, hS.changing, hS.fresh, hS.seen⟩
  | clearReadings h =>
    have hidle := hS.idle_of_clearingReadings h
    have hoperation : Operation.restart ≠ .pause := by decide
    exact ⟨(WorkQueue.within_nil.mpr hidle).mono fun t ht => absurd ht List.not_mem_nil, hoperation,
      hS.changing, hS.fresh.clearReadings, fun hne => absurd hidle.2 hne⟩
  | create h => exact hS.create h
  | created h =>
    have hwithin : S.queue.Within S.workQueueTasks := hS.within_of_control h
    have hoperation := hS.coherent_of_control h
    exact ⟨hwithin, ⟨hoperation, fun _ => id⟩, hS.changing, hS.fresh, hS.seen⟩
  | schedule h => exact hS.schedule h
  | @scheduled operation h =>
    have hwithin : S.queue.Within S.workQueueTasks := hS.within_of_control h
    obtain ⟨hoperation, -⟩ := hS.coherent_of_control h
    refine ⟨?_, trivial, hS.changing, hS.fresh, hS.seen⟩
    cases operation with
    | pause => exact absurd rfl hoperation
    | start | restart | resume => exact hwithin
  | work h =>
    obtain ⟨hfresh, hseen⟩ := h.keeps (I := World.Fresh) (J := World.SeenFresh) hS.changing
      (fun _ => World.Fresh.enter) TaskMay.fresh hS.fresh hS.seen
    exact ⟨h.within hS.within, hS.coherent,
      h.changing hS.changing fun _ => changes_processCanbusWorkTask _ _, hfresh, hseen⟩
  | record signal value =>
    exact ⟨hS.within, hS.coherent, hS.changing, hS.fresh.record signal value, hS.seen⟩
  | configure configuration service h =>
    exact ⟨hS.within, hS.coherent, hS.changing, ⟨hS.fresh.readings, hS.fresh.sent⟩, hS.seen⟩
  | bus busValid sendError =>
    exact ⟨hS.within, hS.coherent, hS.changing, ⟨hS.fresh.readings, hS.fresh.sent⟩, hS.seen⟩

theorem Scheduler.Safe.runs (hS : S.Safe) (h : Runs parts S S') : S'.Safe := by
  induction h with
  | refl => exact hS
  | tail _ hstep ih =>
    obtain ⟨l, -, hstep⟩ := hstep
    exact ih.step hstep

/-! ## Quiescence -/

/-- Where nothing is pending or running, a step of the system makes no reading be looked up and no frame
be sent. -/
theorem Step.trace_of_idle (h : Step parts S l S') (hidle : S.queue.Idle) :
    S'.world.trace = S.world.trace := by
  cases h with
  | create h =>
    obtain ⟨lua, hworld⟩ := S.create_world parts _ _ _
    rw [hworld]
  | work h => exact absurd hidle h.not_idle
  | _ => rfl

/-- `Pause` has returned, or has been called again. -/
def Control.Paused : Control → Prop
  | .returned last => last = some .pause
  | .pausing operation _ => operation = .pause
  | _ => False

/-- The calls that make tasks run again. -/
def Label.Resumes (l : Label) : Prop := l = .call .start ∨ l = .call .resume ∨ l = .call .restart

/-- Nothing is pending or running, and nothing is about to be. -/
structure Scheduler.Quiet (S : Scheduler L) : Prop where
  idle : S.queue.Idle
  paused : S.control.Paused

theorem Scheduler.Quiet.step (hS : S.Quiet) (h : Step parts S l S') (hl : ¬ l.Resumes) : S'.Quiet := by
  have hcontrol : ∀ {control : Control}, S.control = control → control.Paused := fun h => h ▸ hS.paused
  cases h with
  | start h => exact absurd (Or.inl rfl) hl
  | restart h => exact absurd (Or.inr (Or.inr rfl)) hl
  | resume h => exact absurd (Or.inr (Or.inl rfl)) hl
  | pause h => exact ⟨hS.idle, rfl⟩
  | cancelAgain h => exact ⟨hS.idle.cancel _, hS.paused⟩
  | cancelled h hidle =>
    have hpaused := hcontrol h
    exact ⟨hS.idle.cancel _, hpaused⟩
  | paused h => exact ⟨hS.idle, rfl⟩
  | clearTasks h => cases hcontrol h
  | clearReadings h => cases hcontrol h
  | create h => cases hcontrol h
  | created h => cases hcontrol h
  | schedule h => cases hcontrol h
  | scheduled h => cases hcontrol h
  | work h => exact absurd hS.idle h.not_idle
  | record signal value => exact ⟨hS.idle, hS.paused⟩
  | configure configuration service h => exact ⟨hS.idle, hS.paused⟩
  | bus busValid sendError => exact ⟨hS.idle, hS.paused⟩

/-- Runs in which nothing makes tasks run again. -/
def RunsUnresumed (parts : Parts L) : Scheduler L → Scheduler L → Prop :=
  RunsWhere parts fun _ l => ¬ l.Resumes

theorem Scheduler.Quiet.runs (hS : S.Quiet) (h : RunsUnresumed parts S S') :
    S'.Quiet ∧ S'.world.trace = S.world.trace := by
  induction h with
  | refl => exact ⟨hS, rfl⟩
  | tail _ hstep ih =>
    obtain ⟨l, hl, hstep⟩ := hstep
    exact ⟨ih.1.step hstep hl, (hstep.trace_of_idle ih.1.idle).trans ih.2⟩

/-! ## Restart -/

/-- From `w` to `w'` nothing is taken back, and what has been sent meanwhile is not older than `w`. -/
structure World.Later (w w' : World L) : Prop where
  epoch_le : w.epoch ≤ w'.epoch
  trace_eq : ∃ new, w'.trace = w.trace ++ new ∧ ∀ frame, Event.sent frame ∈ new → w.epoch ≤ frame.epoch

theorem World.Later.of_eq {w w₁ w₂ : World L} (h : w.Later w₁) (hepoch : w₁.epoch ≤ w₂.epoch)
    (htrace : w₂.trace = w₁.trace) : w.Later w₂ :=
  ⟨Nat.le_trans h.epoch_le hepoch, htrace ▸ h.trace_eq⟩

theorem World.Later.append {w w₁ w₂ : World L} (h : w.Later w₁) (event : Event)
    (hsent : ∀ frame, event = .sent frame → frame.epoch = w₁.epoch) (hepoch : w₁.epoch ≤ w₂.epoch)
    (htrace : w₂.trace = w₁.trace ++ [event]) : w.Later w₂ := by
  obtain ⟨new, heq, hnew⟩ := h.trace_eq
  refine ⟨Nat.le_trans h.epoch_le hepoch, new ++ [event], ?_, ?_⟩
  · rw [htrace, heq, List.append_assoc]
  intro frame hframe
  rcases List.mem_append.mp hframe with hframe | hframe
  · exact hnew frame hframe
  · rw [hsent frame (List.mem_singleton.mp hframe).symm]
    exact h.epoch_le

theorem TaskMay.later {w w₁ w₂ : World L} (h : TaskMay w₁ w₂) (hw : w.Later w₁) : w.Later w₂ := by
  cases h with
  | processor h =>
    cases h with
    | script lua => exact hw.of_eq (Nat.le_refl _) rfl
    | lookUp signal => exact hw.append _ (fun _ heq => by cases heq) (Nat.le_refl _) rfl
    | record signal value => exact hw.of_eq (Nat.le_refl _) rfl
  | send canbus frameId data =>
    refine hw.append _ (fun frame heq => ?_) (Nat.le_refl _) rfl
    obtain rfl := Event.sent.inj heq
    rfl

theorem Step.later {w : World L} (h : Step parts S l S') (hS : S.queue.Changing TaskMay)
    (hw : w.Later S.world) : w.Later S'.world := by
  cases h with
  | create h =>
    obtain ⟨lua, hworld⟩ := S.create_world parts _ _ _
    rw [hworld]
    exact hw.of_eq (Nat.le_refl _) rfl
  | clearReadings h => exact hw.of_eq (Nat.le_succ _) rfl
  | work h =>
    exact h.keeps_always hS (fun _ hw₁ => hw₁.of_eq (Nat.le_refl _) rfl) (fun _ _ h hw₁ => h.later hw₁) hw
  | record signal value => exact hw.of_eq (Nat.le_refl _) rfl
  | configure configuration service h => exact hw.of_eq (Nat.le_refl _) rfl
  | bus busValid sendError => exact hw.of_eq (Nat.le_refl _) rfl
  | _ => exact hw

theorem Scheduler.Safe.later (hS : S.Safe) (h : Runs parts S S') : S.world.Later S'.world := by
  induction h with
  | refl => exact ⟨Nat.le_refl _, [], by simp, by simp⟩
  | tail hruns hstep ih =>
    obtain ⟨l, -, hstep⟩ := hstep
    exact hstep.later (hS.runs hruns).changing ih

/-- **After a Restart** no reading is looked up for a frame that was recorded before it cleared them. -/
theorem Scheduler.Safe.sent_after_clearReadings {S₁ : Scheduler L} (hS : S.Safe)
    (h : S.control = .clearingReadings) (hstep : Step parts S .proceed S₁) (hruns : Runs parts S₁ S') :
    ∃ new, S'.world.trace = S.world.trace ++ new ∧
      ∀ frame, .sent frame ∈ new → ∀ r ∈ frame.seen, S.world.epoch < r.epoch := by
  have hS₁ := hS.step hstep
  have hepoch : S₁.world.epoch = S.world.epoch + 1 ∧ S₁.world.trace = S.world.trace := by
    cases hstep with
    | clearReadings _ => exact ⟨rfl, rfl⟩
    | _ h' => cases h.symm.trans h'
  obtain ⟨new, htrace, hnew⟩ := (hS₁.later hruns).trace_eq
  refine ⟨new, by rw [htrace, hepoch.2], ?_⟩
  intro frame hframe r hr
  have hsent : r.epoch = frame.epoch :=
    (hS₁.runs hruns).fresh.sent frame (htrace ▸ List.mem_append_right _ hframe) r hr
  have hlater := hnew frame hframe
  omega

theorem World.fresh_initial (configuration : CanbusConfiguration) (service : CanbusService)
    (busValid : CanbusProxy → Bool) (lua : L) :
    (World.initial configuration service busValid lua).Fresh :=
  ⟨by simp [World.initial], by simp [World.initial]⟩

end EerieLeap.Canbus
