import EerieLeap.Canbus.CanbusSchedulerService

/-!
# One tick of the scheduler

What one call of `ProcessCanbusWorkTask` hands to the bus, whatever the builder and the processors return
or throw, and whatever other threads do meanwhile.

* `Called` : which processors are called, on which data, and how each call ends;
* `ends_processFrame` : what the loop over the processors makes of that;
* `processCanbusWorkTask_ticks` : the frame that is handed over and the result of the task.
-/

namespace EerieLeap.Canbus

open EerieLeap.Lib EerieLeap.Lib.Proc

variable {L : Type}

/-! ## The frames that are handed over -/

/-- The arguments of a `SendFrame`. -/
def Event.handed? : Event → Option (CanbusProxy × UInt32 × List UInt8)
  | .sent frame => some (frame.canbus, frame.frameId, frame.data)
  | .lookup _ _ => none

/-- The frames that tasks have handed to the bus. -/
def World.handed (w : World L) : List (CanbusProxy × UInt32 × List UInt8) :=
  w.trace.filterMap Event.handed?

theorem World.handed_hand (w : World L) (canbus : CanbusProxy) (frameId : UInt32) (data : List UInt8) :
    (w.hand canbus frameId data).handed = w.handed ++ [(canbus, frameId, data)] := by
  unfold handed hand
  rw [List.filterMap_append]
  rfl

theorem World.handed_lookUp (w : World L) (signal : ℕ) : (w.lookUp signal).handed = w.handed := by
  unfold handed lookUp
  rw [List.filterMap_append]
  exact List.append_nil _

/-- Processors hand no frame over. -/
theorem ProcessorMay.handed {w w' : World L} (h : ProcessorMay w w') : w'.handed = w.handed := by
  cases h with
  | script lua => rfl
  | lookUp signal => exact w.handed_lookUp signal
  | record signal value => rfl

section Runs

variable {R : World L → World L → Prop} {w w' : World L}

theorem handed_of_ends {α : Type} {x : Handler L α} {r : Except String α} (hx : x.Changes ProcessorMay)
    (hR : ∀ w w', R w w' → w'.handed = w.handed) (h : x.Ends R w r w') : w'.handed = w.handed := by
  refine h.keeps (T := fun w w' => w'.handed = w.handed) hx hR ?_ (fun _ => rfl) ?_
  · intro w₁ w₂ hmay
    exact hmay.handed
  · intro w₁ w₂ w₃ h₁ h₂
    exact h₂.trans h₁

/-! ## The builder -/

/-- What `Build` makes of the end of its `try` block. -/
def builtFrom : Except String (List UInt8) → List UInt8
  | .ok data => data
  | .error _ => []

/-- **The builder** ends with what is encoded, and with no data where that fails. -/
theorem ends_build {busChannel : UInt8} {frameId : UInt32} {r : Except String (List UInt8)} :
    (build busChannel frameId).Ends R w r w' ↔ ∃ encoded : Except String (List UInt8),
      (buildBlock busChannel frameId).Ends R w encoded w' ∧ r = .ok (builtFrom encoded) := by
  have hbuilt : ∀ encoded : Except String (List UInt8), builtFrom encoded = encoded.toOption.getD [] := by
    intro encoded
    cases encoded <;> rfl
  simp only [hbuilt]
  exact ends_handle_pure _ _

/-! ## The processors -/

/-- Data that is not empty replaces what there was. -/
def replaced (canFrameData processedData : List UInt8) : List UInt8 :=
  if processedData.isEmpty then canFrameData else processedData

/-- How the calls of the processors end, one after the other until one throws: each processor is given the
data as those before it have left it. -/
inductive Called (R : World L → World L → Prop) (message : CanMessageConfiguration) :
    List (ICanFrameProcessor L) → List UInt8 → World L → List (Except String (List UInt8)) → World L → Prop
  | nil (data : List UInt8) (w : World L) : Called R message [] data w [] w
  | returned {processor : ICanFrameProcessor L} {processors : List (ICanFrameProcessor L)}
      {data processed : List UInt8} {w w₁ w' : World L} {outcomes : List (Except String (List UInt8))}
      (h : (processor.process message data).Ends R w (.ok processed) w₁)
      (hrest : Called R message processors (replaced data processed) w₁ outcomes w') :
      Called R message (processor :: processors) data w (.ok processed :: outcomes) w'
  | threw {processor : ICanFrameProcessor L} (processors : List (ICanFrameProcessor L))
      {data : List UInt8} {w w' : World L} {what : String}
      (h : (processor.process message data).Ends R w (.error what) w') :
      Called R message (processor :: processors) data w [.error what] w'

def Threw (outcomes : List (Except String (List UInt8))) : Prop := ∃ what, .error what ∈ outcomes

/-- The left fold of the outcomes. -/
def folded (data : List UInt8) (outcomes : List (Except String (List UInt8))) : List UInt8 :=
  outcomes.foldl (fun data outcome => match outcome with
    | .ok processed => replaced data processed
    | .error _ => data) data

/-- What is left of the loop when the calls have ended. -/
def Outcome (data : List UInt8) (outcomes : List (Except String (List UInt8)))
    (r : Except String (List UInt8)) : Prop :=
  (¬ Threw outcomes ∧ r = .ok (folded data outcomes)) ∨ (Threw outcomes ∧ ∃ what, r = .error what)

theorem threw_cons_ok (processed : List UInt8) (outcomes : List (Except String (List UInt8))) :
    Threw (.ok processed :: outcomes) ↔ Threw outcomes := by
  simp [Threw]

/-- **The loop** calls the processors, and ends with the fold unless one of them throws. -/
theorem ends_processFrame {message : CanMessageConfiguration} {processors : List (ICanFrameProcessor L)}
    {data : List UInt8} {r : Except String (List UInt8)}
    (h : (processFrame message processors data).Ends R w r w') :
    ∃ outcomes, Called R message processors data w outcomes w' ∧ Outcome data outcomes r := by
  induction processors generalizing data w with
  | nil =>
    obtain ⟨rfl, rfl⟩ := h
    exact ⟨[], .nil data w', .inl ⟨by simp [Threw], rfl⟩⟩
  | cons processor processors ih =>
    unfold processFrame at h
    rcases (ends_bind _ _).mp h with ⟨processed, w₁, hprocessed, hrest⟩ | ⟨what, rfl, hthrew⟩
    · obtain ⟨outcomes, hcalled, houtcome⟩ := ih hrest
      refine ⟨.ok processed :: outcomes, .returned hprocessed hcalled, ?_⟩
      unfold Outcome
      rw [threw_cons_ok]
      exact houtcome
    · exact ⟨[.error what], .threw processors hthrew, .inr ⟨⟨what, by simp⟩, what, rfl⟩⟩

theorem Called.handed {message : CanMessageConfiguration} {processors : List (ICanFrameProcessor L)}
    {data : List UInt8} {outcomes : List (Except String (List UInt8))}
    (h : Called R message processors data w outcomes w') (hR : ∀ w w', R w w' → w'.handed = w.handed) :
    w'.handed = w.handed := by
  induction h with
  | nil data w => rfl
  | @returned processor _ data _ _ _ _ _ h hrest ih =>
    exact ih.trans (handed_of_ends (processor.may message data) hR h)
  | @threw processor _ data _ _ _ h => exact handed_of_ends (processor.may message data) hR h

/-! ## The task -/

/-- The frame with the data, where there is any. -/
def CanbusTask.frames (task : CanbusTask) (data : List UInt8) : List (CanbusProxy × UInt32 × List UInt8) :=
  if data = [] then [] else [(task.canbus, task.messageConfiguration.frameId, data)]

/-- The end of the `try` block of `ProcessCanbusWorkTask`. -/
def sendBlock (task : CanbusTask) (canFrameData : List UInt8) : Handler L WorkQueueTaskResult := do
  if 0 < canFrameData.length then
    sendFrame task.canbus task.messageConfiguration.frameId canFrameData
  return ⟨true, .msec task.sendIntervalMs⟩

/-- The `try` block of `ProcessCanbusWorkTask`. -/
def tryBlock (processors : List (ICanFrameProcessor L)) (task : CanbusTask) :
    Handler L WorkQueueTaskResult := do
  let valid ← Proc.read fun w => w.busValid task.canbus
  if !valid then
    return ⟨false, .noWait⟩
  else
    let canFrameData ← build task.busChannel task.messageConfiguration.frameId
    let canFrameData ← processFrame task.messageConfiguration processors canFrameData
    sendBlock task canFrameData

theorem processCanbusWorkTask_eq (processors : List (ICanFrameProcessor L)) (task : CanbusTask) :
    processCanbusWorkTask processors task =
      (tryBlock processors task).handle fun _ => pure ⟨true, .msec task.sendIntervalMs⟩ := rfl

/-- The calls that a task makes from `w` on, and the frame that it hands over by `w'`: the fold of what the
processors have returned, from what is encoded or from no data where that has failed, unless one of them has
thrown or it is empty. -/
def Ticks (R : World L → World L → Prop) (processors : List (ICanFrameProcessor L)) (task : CanbusTask)
    (w w' : World L) : Prop :=
  ∃ encoded w₁ outcomes w₂,
    (buildBlock task.busChannel task.messageConfiguration.frameId).Ends R w encoded w₁ ∧
    Called R task.messageConfiguration processors (builtFrom encoded) w₁ outcomes w₂ ∧
    ((Threw outcomes ∨ folded (builtFrom encoded) outcomes = []) ∧ w'.handed = w.handed ∨
      ¬ Threw outcomes ∧ folded (builtFrom encoded) outcomes ≠ [] ∧ w'.handed =
        w.handed ++ [(task.canbus, task.messageConfiguration.frameId, folded (builtFrom encoded) outcomes)])

/-- Data that is not empty is handed over, also when `SendFrame` throws. -/
theorem ends_sendBlock (hR : ∀ w w', R w w' → w'.handed = w.handed) {task : CanbusTask}
    {data : List UInt8} {r : Except String WorkQueueTaskResult} (h : (sendBlock task data).Ends R w r w') :
    (∀ result, r = .ok result → result = ⟨true, .msec task.sendIntervalMs⟩) ∧
      w'.handed = w.handed ++ task.frames data := by
  unfold sendBlock at h
  unfold CanbusTask.frames
  by_cases hempty : data = []
  · subst hempty
    obtain ⟨rfl, rfl⟩ := h
    exact ⟨fun result hresult => (Except.ok.inj hresult).symm, (List.append_nil _).symm⟩
  · rw [if_pos (List.length_pos_iff.mpr hempty)] at h
    rw [if_neg hempty]
    have hsent : ∀ {sent w₁}, (sendFrame task.canbus task.messageConfiguration.frameId data).Ends R w sent w₁ →
        w₁.handed = w.handed ++ [(task.canbus, task.messageConfiguration.frameId, data)] := by
      intro sent w₁ hends
      obtain ⟨w₂, hw₂, -, rfl⟩ := (ends_atomic _).mp hends
      rw [World.handed_hand, hR w w₂ hw₂]
    rcases (ends_bind _ _).mp h with ⟨_, w₁, hends, rfl, rfl⟩ | ⟨what, rfl, hends⟩
    · exact ⟨fun result hresult => (Except.ok.inj hresult).symm, hsent hends⟩
    · exact ⟨nofun, hsent hends⟩

/-- With the bus valid, the block ends with the interval of the task or throws. -/
theorem ends_tryBlock (hR : ∀ w w', R w w' → w'.handed = w.handed)
    {processors : List (ICanFrameProcessor L)} {task : CanbusTask} {r : Except String WorkQueueTaskResult}
    (h : (tryBlock processors task).Ends R w r w') : ∃ w₀, R w w₀ ∧
      if w₀.busValid task.canbus = false then r = .ok ⟨false, .noWait⟩ ∧ w' = w₀
      else (∀ result, r = .ok result → result = ⟨true, .msec task.sendIntervalMs⟩) ∧
        Ticks R processors task w₀ w' := by
  unfold tryBlock at h
  obtain ⟨w₀, hw₀, h⟩ := (ends_read_bind _ _).mp h
  refine ⟨w₀, hw₀, ?_⟩
  cases hvalid : w₀.busValid task.canbus with
  | false =>
    rw [hvalid] at h
    exact h
  | true =>
    rw [hvalid] at h
    simp only [Bool.not_true, Bool.false_eq_true, if_false, Bool.true_eq_false] at h ⊢
    rcases (ends_bind _ _).mp h with ⟨data, w₁, hbuilt, h⟩ | ⟨what, -, hbuilt⟩
    · have hhanded₁ : w₁.handed = w₀.handed := handed_of_ends (changes_build _ _) hR hbuilt
      obtain ⟨encoded, hencoded, heq⟩ := ends_build.mp hbuilt
      obtain rfl := Except.ok.inj heq
      rcases (ends_bind _ _).mp h with ⟨data, w₂, hdata, h⟩ | ⟨what, rfl, hthrew⟩
      · obtain ⟨outcomes, hcalled, houtcome⟩ := ends_processFrame hdata
        have hhanded₂ := (hcalled.handed hR).trans hhanded₁
        rcases houtcome with ⟨hreturned, heq⟩ | ⟨-, what, heq⟩
        · obtain rfl := Except.ok.inj heq
          obtain ⟨hresult, hhanded⟩ := ends_sendBlock hR h
          refine ⟨hresult, encoded, w₁, outcomes, w₂, hencoded, hcalled, ?_⟩
          rw [hhanded, hhanded₂]
          unfold CanbusTask.frames
          by_cases hempty : folded (builtFrom encoded) outcomes = []
          · exact .inl ⟨.inr hempty, by rw [if_pos hempty, List.append_nil]⟩
          · exact .inr ⟨hreturned, hempty, by rw [if_neg hempty]⟩
        · cases heq
      · obtain ⟨outcomes, hcalled, houtcome⟩ := ends_processFrame hthrew
        rcases houtcome with ⟨-, heq⟩ | ⟨hthrew, -⟩
        · cases heq
        · refine ⟨nofun, encoded, w₁, outcomes, w', hencoded, hcalled, .inl ⟨.inl hthrew, ?_⟩⟩
          exact (hcalled.handed hR).trans hhanded₁
    · -- the builder does not throw
      obtain ⟨encoded, -, heq⟩ := ends_build.mp hbuilt
      cases heq

theorem ends_processCanbusWorkTask (hR : ∀ w w', R w w' → w'.handed = w.handed)
    {processors : List (ICanFrameProcessor L)} {task : CanbusTask} {r : Except String WorkQueueTaskResult}
    (h : (processCanbusWorkTask processors task).Ends R w r w') : ∃ w₀, R w w₀ ∧
      if w₀.busValid task.canbus = false then r = .ok ⟨false, .noWait⟩ ∧ w' = w₀
      else r = .ok ⟨true, .msec task.sendIntervalMs⟩ ∧ Ticks R processors task w₀ w' := by
  rw [processCanbusWorkTask_eq] at h
  obtain ⟨r₀, hblock, rfl⟩ := (ends_handle_pure _ _).mp h
  obtain ⟨w₀, hw₀, hends⟩ := ends_tryBlock hR hblock
  refine ⟨w₀, hw₀, ?_⟩
  split_ifs at hends ⊢
  · obtain ⟨rfl, rfl⟩ := hends
    exact ⟨rfl, rfl⟩
  · refine ⟨?_, hends.2⟩
    cases r₀ with
    | error what => rfl
    | ok result => exact congrArg Except.ok (hends.1 result rfl)

/-- **A tick** comes to its end. With an invalid bus nothing is done and the task does not come again; with a
valid one it comes again after its interval, and at most one frame is handed over. -/
theorem processCanbusWorkTask_ticks (hrefl : ∀ w, R w w) (hR : ∀ w w', R w w' → w'.handed = w.handed)
    (processors : List (ICanFrameProcessor L)) (task : CanbusTask) (w : World L) :
    (∃ r w', (processCanbusWorkTask processors task).Ends R w r w') ∧
      ∀ r w', (processCanbusWorkTask processors task).Ends R w r w' → ∃ w₀, R w w₀ ∧
        if w₀.busValid task.canbus = false then r = .ok ⟨false, .noWait⟩ ∧ w' = w₀
        else r = .ok ⟨true, .msec task.sendIntervalMs⟩ ∧ Ticks R processors task w₀ w' :=
  ⟨⟨_, _, ends_runAlone hrefl (processCanbusWorkTask processors task) w⟩,
    fun _ _ h => ends_processCanbusWorkTask hR h⟩

end Runs

/-! ## A tick that nothing interrupts -/

/-- The world after a run of the task. -/
def World.ticked (w : World L) (processors : List (ICanFrameProcessor L)) (task : CanbusTask) : World L :=
  (runAlone (processCanbusWorkTask processors task) w.enter).2

theorem runAlone_processCanbusWorkTask {w : World L} (processors : List (ICanFrameProcessor L))
    {task : CanbusTask} (hvalid : w.busValid task.canbus = true) :
    (runAlone (processCanbusWorkTask processors task) w).1 = .ok ⟨true, .msec task.sendIntervalMs⟩ := by
  have hends := ends_runAlone (R := Eq) (fun _ => rfl) (processCanbusWorkTask processors task) w
  obtain ⟨w₀, rfl, htick⟩ := ends_processCanbusWorkTask (fun w w' h => h ▸ rfl) hends
  rw [hvalid, if_neg (by decide)] at htick
  exact htick.1

/-- The only task that is pending may run, and be pending again. -/
theorem runs_ticked {parts : Parts L} {S : Scheduler L} {P : Scheduler L → Label → Prop}
    (hP : ∀ S, P S .work) (task : WorkQueueTask) (hqueue : S.queue = ⟨[task], none⟩)
    (hvalid : S.world.busValid task.userdata.canbus = true) :
    RunsWhere parts P S { S with world := S.world.ticked parts.canFrameProcessors task.userdata } := by
  have hresult := runAlone_processCanbusWorkTask (w := S.world.enter) parts.canFrameProcessors hvalid
  exact runs_tick hP hqueue (Prod.ext hresult rfl) rfl

/-- The frame that is handed over when the only processor has ended. -/
def CanbusTask.framesAfter (task : CanbusTask) (built : List UInt8) :
    Except String (List UInt8) → List (CanbusProxy × UInt32 × List UInt8)
  | .ok processed => task.frames (replaced built processed)
  | .error _ => []

/-- **A tick with one processor**, that nothing interrupts. -/
theorem handed_of_one {task : CanbusTask} {processor : ICanFrameProcessor L} {w w₁ w₂ : World L}
    {built : List UInt8} {r : Except String (List UInt8)} (hvalid : w.busValid task.canbus = true)
    (hbuild : runAlone (build task.busChannel task.messageConfiguration.frameId) w = (.ok built, w₁))
    (hprocess : runAlone (processor.process task.messageConfiguration built) w₁ = (r, w₂)) :
    (runAlone (processCanbusWorkTask [processor] task) w).2.handed =
      w.handed ++ task.framesAfter built r := by
  have hends := ends_runAlone (R := Eq) (fun _ => rfl) (processCanbusWorkTask [processor] task) w
  obtain ⟨w₀, rfl, htick⟩ := ends_processCanbusWorkTask (fun w w' h => h ▸ rfl) hends
  rw [hvalid, if_neg (by decide)] at htick
  obtain ⟨-, encoded, w₁', outcomes, w₂', hencoded, hcalled, hhanded⟩ := htick
  have hbuilt := (ends_eq_iff _).mp (ends_build.mpr ⟨encoded, hencoded, rfl⟩)
  rw [hbuild] at hbuilt
  obtain ⟨hdata, rfl⟩ := Prod.mk.inj hbuilt
  obtain rfl := Except.ok.inj hdata
  cases hcalled with
  | returned h hrest =>
    have hreturned := (ends_eq_iff _).mp h
    rw [hprocess] at hreturned
    obtain ⟨rfl, rfl⟩ := Prod.mk.inj hreturned
    cases hrest
    change _ = w.handed ++ task.frames (folded (builtFrom encoded) [.ok _])
    unfold CanbusTask.frames
    rcases hhanded with ⟨hthrew | hempty, hhanded⟩ | ⟨-, hdata, hhanded⟩
    · obtain ⟨what, hwhat⟩ := hthrew
      simp at hwhat
    · rw [hhanded, if_pos hempty, List.append_nil]
    · rw [hhanded, if_neg hdata]
  | threw processors h =>
    have hthrew := (ends_eq_iff _).mp h
    rw [hprocess] at hthrew
    obtain ⟨rfl, rfl⟩ := Prod.mk.inj hthrew
    simpa [Threw, CanbusTask.framesAfter] using hhanded

/-- A processor that always returns the same data. -/
def constantProcessor (data : List UInt8) : ICanFrameProcessor Unit := ⟨fun _ _ => pure data, fun _ _ => trivial⟩

def someTask : CanbusTask := ⟨100, 0, oneMessage, ⟨0⟩⟩

/-- A tick with a processor that keeps the frame and one that replaces it. -/
theorem someTask_ticks :
    Ticks Eq [constantProcessor [], constantProcessor [1, 2]] someTask oneWorld.enter
        (oneWorld.ticked [constantProcessor [], constantProcessor [1, 2]] someTask) ∧
      (oneWorld.ticked [constantProcessor [], constantProcessor [1, 2]] someTask).handed =
        [(⟨0⟩, 0x10, [1, 2])] := by
  have hticks := (processCanbusWorkTask_ticks (R := Eq) (fun _ => rfl) (fun w w' h => h ▸ rfl)
    [constantProcessor [], constantProcessor [1, 2]] someTask oneWorld.enter).2 _ _
    (ends_runAlone (fun _ => rfl) _ _)
  obtain ⟨w₀, rfl, htick⟩ := hticks
  rw [if_neg (show ¬ oneWorld.enter.busValid someTask.canbus = false from nofun)] at htick
  exact ⟨htick.2, by decide +kernel⟩

end EerieLeap.Canbus
