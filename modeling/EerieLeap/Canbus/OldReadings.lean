import EerieLeap.Canbus.Quiescence
import EerieLeap.Canbus.ScriptResults
import EerieLeap.Lib.Bits

/-!
# What becomes of the readings that are cleared

A task sees a reading when it looks it up and not otherwise, and `ClearReadings` leaves none to be looked
up. So what is sent afterwards is the same whatever readings were held before, as long as the scripts are in
the same state: they alone remember.

* `Steps` : a run with the labels of its steps;
* `World.Alike` : what tasks see of two worlds is the same, and so are the frames handed over meanwhile;
* `Step.alike`, `Steps.alike` : steps and runs from such worlds go in step;
* `alike_after_clearReadings` : the runs from `ClearReadings` on do;
* `paused_quiescent` : what holds of `Pause` and `Restart` in every state the system gets to;
* `caching_sendsOld` : a script that remembers.
-/

namespace EerieLeap.Canbus

open EerieLeap.Lib EerieLeap.Lib.Bits EerieLeap.Lib.Proc EerieLeap.Lib.Lua

variable {L : Type}

/-! ## Worlds that look the same -/

/-- The readings that are held, without what is noted of them. -/
def World.held (w : World L) : List (ℕ × Value) := w.readings.map fun r => (r.signal, r.value)

theorem World.value?_eq_held (w : World L) (signal : ℕ) :
    w.value? signal = (w.held.find? fun r => r.1 = signal).map Prod.snd := by
  unfold value? reading? held
  rw [List.find?_map, Option.map_map]
  rfl

theorem World.held_record (w : World L) (signal : ℕ) (value : Value) :
    (w.record signal value).held = (signal, value) :: w.held.filter fun r => r.1 ≠ signal := by
  unfold held record
  rw [List.filter_map]
  rfl

/-- The worlds differ in no more than what is noted, and the same frames were handed over since those of
`sent` and of `sent'`. -/
structure World.Alike (sent sent' : List (CanbusProxy × UInt32 × List UInt8)) (w w' : World L) : Prop
    extends w.SameButReadings w' where
  held : w'.held = w.held
  handed : ∃ new, w.handed = sent ++ new ∧ w'.handed = sent' ++ new

variable {sent sent' : List (CanbusProxy × UInt32 × List UInt8)} {w w' : World L}

/-- Readings that are held may change, and what is noted. -/
theorem World.SameButReadings.change (h : w.SameButReadings w') {readings readings' : List Reading}
    {epoch epoch' : ℕ} {trace trace' : List Event} {seen seen' : List Reading} :
    World.SameButReadings { w with readings := readings, epoch := epoch, trace := trace, seen := seen }
      { w' with readings := readings', epoch := epoch', trace := trace', seen := seen' } :=
  ⟨h.configuration, h.service, h.busValid, h.sendError, h.lua⟩

/-- An access of a processor keeps worlds alike, and does not tell them apart. -/
theorem ProcessorAccess.alike {act : World L → World L} {same : World L → World L → Prop}
    (h : ProcessorAccess act same) (hw : w.Alike sent sent' w') :
    same w w' ∧ (act w).Alike sent sent' (act w') := by
  have hsame := hw.toSameButReadings
  cases h with
  | script lua hlua =>
    have hlua' : lua w' = lua w := (hlua w w' hsame).symm
    exact ⟨hsame, ⟨hsame.configuration, hsame.service, hsame.busValid, hsame.sendError, hlua'⟩,
      hw.held, hw.handed⟩
  | lookUp signal =>
    have hvalue : w'.value? signal = w.value? signal := by
      rw [World.value?_eq_held, World.value?_eq_held, hw.held]
    refine ⟨⟨hsame, hvalue⟩, hsame.change, hw.held, ?_⟩
    rw [World.handed_lookUp, World.handed_lookUp]
    exact hw.handed
  | record signal value =>
    refine ⟨hsame, hsame.change, ?_, hw.handed⟩
    rw [World.held_record, World.held_record, hw.held]

/-- Nor does an access of a task. -/
theorem TaskAccess.alike (act : World L → World L) (same : World L → World L → Prop) (w w' : World L)
    (h : TaskAccess act same) (hw : w.Alike sent sent' w') :
    same w w' ∧ (act w).Alike sent sent' (act w') := by
  cases h with
  | processor h => exact h.alike hw
  | send canbus frameId data =>
    have hsame := hw.toSameButReadings
    refine ⟨hsame, hsame.change, hw.held, ?_⟩
    obtain ⟨new, hnew, hnew'⟩ := hw.handed
    refine ⟨new ++ [(canbus, frameId, data)], ?_, ?_⟩
    · rw [World.handed_hand, hnew, List.append_assoc]
    · rw [World.handed_hand, hnew', List.append_assoc]

/-! ## Runs in step -/

variable (parts : Parts L)

/-- A run, with the labels of its steps. -/
inductive Steps : Scheduler L → List Label → Scheduler L → Prop
  | refl (S : Scheduler L) : Steps S [] S
  | tail {S S' S'' : Scheduler L} {labels : List Label} {l : Label} (h : Steps S labels S')
      (hstep : Step parts S' l S'') : Steps S (labels ++ [l]) S''

/-- The state with another world. -/
def Scheduler.inWorld (S : Scheduler L) (w : World L) : Scheduler L := { S with world := w }

variable {parts} {S S' : Scheduler L} {l : Label}

variable (parts) in
theorem createTask_alike (entry : Entry) (hw : w.SameButReadings w') :
    createTask parts entry w' =
      ((createTask parts entry w).1, { w' with lua := (createTask parts entry w).2.lua }) := by
  cases w'
  obtain ⟨rfl, rfl, rfl, rfl, rfl⟩ := hw
  unfold createTask
  dsimp only
  split
  · rfl
  · split
    · rfl
    · split
      · rfl
      · split <;> rfl

theorem Scheduler.create_inWorld (operation : Operation) (entry : Entry) (rest : List Entry)
    (hw : S.world.SameButReadings w) : (S.inWorld w).create parts operation entry rest =
      (S.create parts operation entry rest).inWorld
        { w with lua := (S.create parts operation entry rest).world.lua } := by
  have htask := createTask_alike parts entry hw
  unfold create inWorld
  rw [htask]
  rcases createTask parts entry S.world with ⟨task, world⟩
  cases task <;> rfl

theorem Scheduler.startFrom_inWorld (operation : Operation) (hw : w.configuration = S.world.configuration) :
    (S.inWorld w).startFrom operation = (S.startFrom operation).inWorld w := by
  show Scheduler.inWorld { S with control := .creating operation w.configuration.entries } w = _
  rw [hw]
  rfl

/-- `ClearReadings` does the same in both worlds. -/
theorem Step.clearReadings_inWorld (h : S.control = .clearingReadings)
    (hw : w.configuration = S.world.configuration) : Step parts (S.inWorld w) .proceed
      ((({ S with world := S.world.clearReadings } : Scheduler L).startFrom .restart).inWorld w.clearReadings) := by
  have hstart := Scheduler.startFrom_inWorld (S := { S with world := S.world.clearReadings })
    (w := w.clearReadings) .restart hw
  rw [← hstart]
  exact .clearReadings h

theorem Steps.runs {labels : List Label} (h : Steps parts S labels S') : Runs parts S S' := by
  induction h with
  | refl => exact .refl
  | tail _ hstep ih => exact .tail ih ⟨_, trivial, hstep⟩

theorem Runs.exists_steps (h : Runs parts S S') : ∃ labels, Steps parts S labels S' := by
  induction h with
  | refl => exact ⟨[], .refl S⟩
  | tail _ hstep ih =>
    obtain ⟨labels, hsteps⟩ := ih
    obtain ⟨l, -, hstep⟩ := hstep
    exact ⟨labels ++ [l], .tail hsteps hstep⟩

/-- **A step** is also one from a world that looks the same, and leads to one. -/
theorem Step.alike (h : Step parts S l S') (hS : S.queue.Holds (Uses TaskAccess))
    (hw : S.world.Alike sent sent' w) :
    ∃ w', Step parts (S.inWorld w) l (S'.inWorld w') ∧ S'.world.Alike sent sent' w' := by
  have hsame := hw.toSameButReadings
  cases h with
  | start h =>
    have hstart := Scheduler.startFrom_inWorld .start hsame.configuration
    exact ⟨w, hstart ▸ .start h, hw⟩
  | restart h => exact ⟨w, .restart h, hw⟩
  | pause h => exact ⟨w, .pause h, hw⟩
  | resume h => exact ⟨w, .resume h, hw⟩
  | cancelAgain h => exact ⟨w, .cancelAgain h, hw⟩
  | cancelled h hidle => exact ⟨w, .cancelled h hidle, hw⟩
  | paused h => exact ⟨w, .paused h, hw⟩
  | clearTasks h => exact ⟨w, .clearTasks h, hw⟩
  | clearReadings h =>
    exact ⟨w.clearReadings, .clearReadings_inWorld h hsame.configuration,
      hsame.change, rfl, hw.handed⟩
  | @create operation entry rest h =>
    have hstep : Step parts (S.inWorld w) .proceed ((S.inWorld w).create parts operation entry rest) := .create h
    rw [Scheduler.create_inWorld _ _ _ hsame] at hstep
    refine ⟨_, hstep, ?_⟩
    obtain ⟨lua, hworld⟩ := S.create_world parts operation entry rest
    rw [hworld]
    exact ⟨⟨hsame.configuration, hsame.service, hsame.busValid, hsame.sendError, rfl⟩, hw.held, hw.handed⟩
  | created h => exact ⟨w, .created h, hw⟩
  | schedule h => exact ⟨w, .schedule h, hw⟩
  | scheduled h => exact ⟨w, .scheduled h, hw⟩
  | work h =>
    have henter : ∀ w w' : World L, w.Alike sent sent' w' → w.enter.Alike sent sent' w'.enter := by
      intro w w' hw
      exact ⟨hw.toSameButReadings.change, hw.held, hw.handed⟩
    obtain ⟨w', hwork, hw'⟩ := h.alike hS henter TaskAccess.alike hw
    exact ⟨w', .work hwork, hw'⟩
  | record signal value =>
    have haccess : ProcessorAccess (L := L) _ _ := .record signal value
    exact ⟨w.record signal value, .record _ signal value, (haccess.alike hw).2⟩
  | configure configuration service h =>
    exact ⟨_, .configure configuration service h,
      ⟨rfl, rfl, hsame.busValid, hsame.sendError, hsame.lua⟩, hw.held, hw.handed⟩
  | bus busValid sendError =>
    exact ⟨_, .bus _ busValid sendError,
      ⟨hsame.configuration, hsame.service, rfl, rfl, hsame.lua⟩, hw.held, hw.handed⟩

theorem Steps.uses {labels : List Label} (h : Steps parts S labels S')
    (hS : S.queue.Holds (Uses TaskAccess)) : S'.queue.Holds (Uses TaskAccess) := by
  induction h with
  | refl => exact hS
  | tail _ hstep ih => exact hstep.uses ih

/-- **A run** is also one from a world that looks the same, with the same labels. -/
theorem Steps.alike {labels : List Label} (h : Steps parts S labels S')
    (hS : S.queue.Holds (Uses TaskAccess)) (hw : S.world.Alike sent sent' w) :
    ∃ w', Steps parts (S.inWorld w) labels (S'.inWorld w') ∧ S'.world.Alike sent sent' w' := by
  induction h with
  | refl => exact ⟨w, .refl _, hw⟩
  | tail hsteps hstep ih =>
    obtain ⟨w₁, hsteps₁, hw₁⟩ := ih
    obtain ⟨w₂, hstep₂, hw₂⟩ := hstep.alike (hsteps.uses hS) hw₁
    exact ⟨w₂, .tail hsteps₁ hstep₂, hw₂⟩

/-- **After `ClearReadings`** the same frames are handed over, whatever readings were held. -/
theorem alike_after_clearReadings {S₁ : Scheduler L} {labels : List Label}
    (hS : S.queue.Holds (Uses TaskAccess)) (h : S.control = .clearingReadings)
    (hstep : Step parts S .proceed S₁) (hsteps : Steps parts S₁ labels S')
    (hw : S.world.SameButReadings w) :
    ∃ w₁ w' new, Step parts (S.inWorld w) .proceed (S₁.inWorld w₁) ∧
      Steps parts (S₁.inWorld w₁) labels (S'.inWorld w') ∧
      S'.world.handed = S.world.handed ++ new ∧ w'.handed = w.handed ++ new := by
  have hS₁ := hstep.uses hS
  have hw₁ : Step parts (S.inWorld w) .proceed (S₁.inWorld w.clearReadings) ∧
      S₁.world.Alike S.world.handed w.handed w.clearReadings := by
    cases hstep with
    | clearReadings _ =>
      refine ⟨.clearReadings_inWorld h hw.configuration, hw.change, rfl, [], ?_, ?_⟩
      · exact (List.append_nil _).symm
      · exact (List.append_nil _).symm
    | _ h' => cases h.symm.trans h'
  obtain ⟨w', hsteps', hw'⟩ := hsteps.alike hS₁ hw₁.2
  obtain ⟨new, hnew, hnew'⟩ := hw'.handed
  exact ⟨w.clearReadings, w', new, hw₁.1, hsteps', hnew, hnew'⟩

theorem Runs.uses (h : Runs parts S S') (hS : S.queue.Holds (Uses TaskAccess)) :
    S'.queue.Holds (Uses TaskAccess) := by
  induction h with
  | refl => exact hS
  | tail _ hstep ih =>
    obtain ⟨l, -, hstep⟩ := hstep
    exact hstep.uses ih

/-! ## The result -/

/-- **Quiescence.** Once `Pause` has returned, nothing is pending or running, no reading is looked up and
no frame sent until the next `Start`, `Resume` or `Restart`. While `Restart` has discarded the tasks and
not cleared the readings yet, neither happens. The readings recorded until then are of its epoch or before,
and those looked up for the frames sent from then on are later ones; and the frames are those that would be
sent if any other readings had been recorded until then, with the scripts in the same state. -/
theorem paused_quiescent {configuration : CanbusConfiguration} {service : CanbusService}
    {busValid : CanbusProxy → Bool} {lua : L}
    (h : Runs parts (.initialized (.initial configuration service busValid lua)) S) :
    (S.control = .returned (some .pause) → S.queue.Idle ∧
        ∀ S', RunsUnresumed parts S S' → S'.queue.Idle ∧ S'.world.trace = S.world.trace) ∧
      (S.control = .clearingReadings → S.queue.Idle ∧ (∀ r ∈ S.world.readings, r.epoch ≤ S.world.epoch) ∧
        (∀ l S', Step parts S l S' → S'.world.trace = S.world.trace) ∧
        (∀ S₁ S', Step parts S .proceed S₁ → Runs parts S₁ S' →
          ∃ new, S'.world.trace = S.world.trace ++ new ∧
            ∀ frame, .sent frame ∈ new → ∀ r ∈ frame.seen, S.world.epoch < r.epoch) ∧
        ∀ w S₁ labels S', S.world.SameButReadings w → Step parts S .proceed S₁ → Steps parts S₁ labels S' →
          ∃ w₁ w' new, Step parts (S.inWorld w) .proceed (S₁.inWorld w₁) ∧
            Steps parts (S₁.inWorld w₁) labels (S'.inWorld w') ∧
            S'.world.handed = S.world.handed ++ new ∧ w'.handed = w.handed ++ new) := by
  have hS : S.Safe := (Scheduler.safe_initialized (World.fresh_initial _ _ _ _)).runs h
  constructor
  · intro hpaused
    have hidle := hS.idle_of_paused hpaused
    have hquiet : S.Quiet := ⟨hidle, by rw [hpaused]; rfl⟩
    refine ⟨hidle, ?_⟩
    intro S' hruns
    obtain ⟨hquiet', htrace⟩ := hquiet.runs hruns
    exact ⟨hquiet'.idle, htrace⟩
  · intro hclearing
    have hidle := hS.idle_of_clearingReadings hclearing
    refine ⟨hidle, ?_, ?_, ?_, ?_⟩
    · intro r hr
      exact Nat.le_of_eq (hS.fresh.readings r hr)
    · intro l S' hstep
      exact hstep.trace_of_idle hidle
    · intro S₁ S' hstep hruns
      exact hS.sent_after_clearReadings hclearing hstep hruns
    · intro w S₁ labels S' hw hstep hsteps
      have huses : S.queue.Holds (Uses TaskAccess) := h.uses fun r hr => by cases hr
      exact alike_after_clearReadings huses hclearing hstep hsteps hw

/-- The world of the one message, with a reading recorded and sent. -/
def oneSent (w : World Unit) (value : Value) : World Unit := (w.record 7 value).ticked [] (oneTask 0).userdata

theorem runs_oneSent (w : World Unit) (value : Value) (hvalid : w.busValid ⟨0⟩ = true)
    (operation : Operation) (id n : ℕ) (calls : List WorkQueueTask) : Runs noParts
      ⟨.returned (some operation), [oneTask id], n, ⟨[oneTask id], none⟩, calls, w⟩
      ⟨.returned (some operation), [oneTask id], n, ⟨[oneTask id], none⟩, calls, oneSent w value⟩ := by
  have hticked : Runs noParts
      ⟨.returned (some operation), [oneTask id], n, ⟨[oneTask id], none⟩, calls, w.record 7 value⟩
      ⟨.returned (some operation), [oneTask id], n, ⟨[oneTask id], none⟩, calls, oneSent w value⟩ :=
    runs_ticked (fun _ => trivial) (oneTask id) rfl hvalid
  exact .head ⟨_, trivial, .record _ 7 value⟩ hticked

/-- After Start, a frame, and most of Restart. -/
def oneClearing : Scheduler Unit :=
  ⟨.clearingReadings, [], 1, ⟨[], none⟩, [oneTask 0], oneSent oneWorld 42⟩

theorem runs_oneClearing : Runs noParts (.initialized oneWorld) oneClearing := by
  have hclearing (w : World Unit) : Runs noParts
      ⟨.returned (some .start), [oneTask 0], 1, ⟨[oneTask 0], none⟩, [oneTask 0], w⟩
      ⟨.clearingReadings, [], 1, ⟨[], none⟩, [oneTask 0], w⟩ :=
    .tail (.tail (.tail .refl ⟨_, trivial, .restart rfl⟩)
      ⟨_, trivial, .cancelled rfl (not_runs_oneStarted _)⟩) ⟨_, trivial, .clearTasks rfl⟩
  have hsent := (runs_oneStarted trivial fun _ => trivial).trans (runs_oneSent oneWorld 42 rfl .start 0 1 [oneTask 0])
  exact hsent.trans (hclearing _)

/-- `ClearReadings` leaves what was sent. -/
def oneCleared (w : World Unit) : World Unit := { oneWorld with epoch := 1, trace := w.trace, seen := w.seen }

/-- After the rest of Restart, and a frame of the new task. -/
def oneSentAgain : Scheduler Unit :=
  ⟨.returned (some .restart), [oneTask 1], 2, ⟨[oneTask 1], none⟩, [oneTask 0, oneTask 1],
    oneSent (oneCleared oneClearing.world) 17⟩

theorem runs_oneSentAgain : Runs noParts ⟨.creating .restart oneConfiguration.entries, [], 1, ⟨[], none⟩,
    [oneTask 0], oneCleared oneClearing.world⟩ oneSentAgain := by
  have hrestarted (w : World Unit) : Runs noParts
      ⟨.creating .restart oneConfiguration.entries, [], 1, ⟨[], none⟩, [oneTask 0], oneCleared w⟩
      ⟨.returned (some .restart), [oneTask 1], 2, ⟨[oneTask 1], none⟩, [oneTask 0, oneTask 1], oneCleared w⟩ :=
    .tail (.tail (.tail (.tail .refl ⟨_, trivial, .create rfl⟩) ⟨_, trivial, .created rfl⟩)
      ⟨_, trivial, .schedule rfl⟩) ⟨_, trivial, .scheduled rfl⟩
  exact (hrestarted _).trans (runs_oneSent _ 17 rfl .restart 1 2 [oneTask 0, oneTask 1])

/-- And after a Pause. -/
def oneSentPaused : Scheduler Unit :=
  { oneSentAgain with control := .returned (some .pause), queue := ⟨[], none⟩ }

theorem runs_oneSentPaused : Runs noParts oneSentAgain oneSentPaused := by
  have hidle : ¬ oneSentAgain.queue.Runs (oneTask 1) := by
    rintro ⟨r, hr, -⟩
    cases hr
  exact .tail (.tail (.tail .refl ⟨_, trivial, .pause rfl⟩) ⟨_, trivial, .cancelled rfl hidle⟩)
    ⟨_, trivial, .paused rfl⟩

theorem step_oneClearing : Step noParts oneClearing .proceed ⟨.creating .restart oneConfiguration.entries, [], 1,
    ⟨[], none⟩, [oneTask 0], oneCleared oneClearing.world⟩ := .clearReadings rfl

/-- A frame before a Restart and one after it, which is the same when 99 had been recorded before. -/
theorem oneSentAgain_quiescent :
    oneClearing.world.handed = [(⟨0⟩, 0x10, [42])] ∧
      oneSentAgain.world.handed = [(⟨0⟩, 0x10, [42]), (⟨0⟩, 0x10, [17])] ∧
      (∀ S, RunsUnresumed noParts oneSentPaused S → S.world.trace = oneSentAgain.world.trace) ∧
      (∃ new, oneSentAgain.world.trace = oneClearing.world.trace ++ new ∧
        ∀ frame, .sent frame ∈ new → ∀ r ∈ frame.seen, 0 < r.epoch) ∧
      ∃ S₁ S', Step noParts (oneClearing.inWorld { oneClearing.world with readings := [⟨7, 99, 0⟩] }) .proceed S₁ ∧
        Runs noParts S₁ S' ∧ S'.world.handed = [(⟨0⟩, 0x10, [42]), (⟨0⟩, 0x10, [17])] := by
  have hhanded : oneSentAgain.world.handed = [(⟨0⟩, 0x10, [42]), (⟨0⟩, 0x10, [17])] := by decide +kernel
  have hagain := (runs_oneClearing.tail ⟨_, trivial, step_oneClearing⟩).trans runs_oneSentAgain
  have hpaused := (paused_quiescent (hagain.trans runs_oneSentPaused)).1 rfl
  obtain ⟨-, -, -, hseen, hsame⟩ := (paused_quiescent runs_oneClearing).2 rfl
  obtain ⟨labels, hsteps⟩ := runs_oneSentAgain.exists_steps
  obtain ⟨w₁, w', new, hstep, hsteps', hnew, hnew'⟩ := hsame { oneClearing.world with readings := [⟨7, 99, 0⟩] }
    _ _ _ ⟨rfl, rfl, rfl, rfl, rfl⟩ step_oneClearing hsteps
  refine ⟨by decide +kernel, hhanded, fun S hS => (hpaused.2 S hS).2, hseen _ _ step_oneClearing runs_oneSentAgain,
    _, _, hstep, hsteps'.runs, ?_⟩
  exact (hnew'.trans hnew.symm).trans hhanded

/-! ## A script that remembers -/

/-- The script sets a global. -/
def World.setGlobal (w : World LuaStates) (luaScript : LuaScript) (name : String) (value : LuaValue) :
    World LuaStates :=
  w.withLuaState luaScript { w.luaState luaScript with
    globals := Function.update (w.luaState luaScript).globals name value }

theorem sameStacks_setGlobal (w : World LuaStates) (luaScript : LuaScript) (name : String) (value : LuaValue) :
    SameStacks w (w.setGlobal luaScript name value) := by
  intro luaScript'
  have hstate : (w.setGlobal luaScript name value).luaState luaScript' =
      if luaScript' = luaScript then { w.luaState luaScript with
        globals := Function.update (w.luaState luaScript).globals name value }
      else w.luaState luaScript' := Function.update_apply _ _ _ _
  rw [hstate]
  split_ifs with h
  · rw [h]
    exact ⟨rfl, rfl, rfl⟩
  · exact ⟨rfl, rfl, rfl⟩

theorem processorAccess_setGlobal (luaScript : LuaScript) (name : String) (value : LuaValue) :
    ProcessorAccess (fun w => w.setGlobal luaScript name value) World.SameButReadings := by
  refine .script (fun w => (w.setGlobal luaScript name value).lua) fun w w' h => ?_
  unfold World.setGlobal World.withLuaState
  rw [h.luaState, h.lua]

/-- `if not cached then cached = string.pack("<f", get_sensor_value(7)) end return cached`, where `cached` is a
global of the script. -/
def caching : Interpreter where
  call luaScript _ _ := do
    match ← Proc.read fun w => (w.luaState luaScript).globals "cached" with
    | .nil =>
      let reading ← atomic fun w => (.ok (w.value? 7), w.lookUp 7)
      let cached : LuaValue := .string (toLE 4 (reading.getD 0).toNat)
      Proc.write fun w => w.setGlobal luaScript "cached" cached
      return cached
    | cached => return cached
  uses luaScript _ _ := by
    have hkeeps : ∀ w : World LuaStates, SameStacks w w := fun w luaScript' => ⟨rfl, rfl, rfl⟩
    refine uses_bind (uses_read ⟨.read, hkeeps⟩ fun w w' h => ?_) fun cached => ?_
    · rw [h.luaState]
    split
    · refine uses_bind (uses_atomic ⟨.lookUp 7, fun w luaScript' => ⟨rfl, rfl, rfl⟩⟩ fun w w' h => ?_)
        fun reading => ?_
      · rw [h.2]
      · exact uses_bind (uses_atomic ⟨processorAccess_setGlobal _ _ _, fun w => sameStacks_setGlobal w _ _ _⟩
          fun _ _ _ => rfl) fun _ => trivial
    · trivial

/-- Frames that the script makes. -/
def cachingService : CanbusService where
  getCanbus _ := some ⟨0⟩
  dbc _ := some ⟨fun _ => true, fun _ => .bytes [0]⟩

def cachingParts : Parts LuaStates :=
  ⟨⟨fun _ => id, fun _ => id⟩, [scriptProcessor caching "process_can_frame"]⟩

/-- The script has been loaded. -/
def cachingWorld : World LuaStates :=
  .initial ⟨[(0, [scriptTask.messageConfiguration])]⟩ cachingService (fun _ => true)
    ⟨fun _ => true, fun _ => ⟨someFormat, fun name => if name = "process_can_frame" then .function 0 else .nil,
      [], []⟩⟩

/-- In some run the reading `value` is held when `Restart` comes to `ClearReadings`; afterwards nothing is
recorded, and a new task sends `data` without looking a reading up. -/
def SendsOld (value : Value) (data : List UInt8) : Prop :=
  ∃ S S₁ S', Runs cachingParts (.initialized cachingWorld) S ∧ S.control = .clearingReadings ∧
    S.world.readings = [⟨7, value, 0⟩] ∧ Step cachingParts S .proceed S₁ ∧
    RunsWhere cachingParts (fun _ l => l = .proceed ∨ l = .work) S₁ S' ∧
    S'.world.trace = S.world.trace ++ [.sent ⟨⟨0⟩, 0x10, data, [], 1⟩]

def cachingTask (id : ℕ) : WorkQueueTask := ⟨id, scriptTask⟩

/-- After `Start`, a reading and a run of the task, in the middle of `Restart`. -/
def cachingClearing (value : Value) : Scheduler LuaStates :=
  ⟨.clearingReadings, [], 1, ⟨[], none⟩, [cachingTask 0],
    (cachingWorld.record 7 value).ticked cachingParts.canFrameProcessors scriptTask⟩

theorem runs_cachingClearing (value : Value) :
    Runs cachingParts (.initialized cachingWorld) (cachingClearing value) := by
  have hstarted : Runs cachingParts (.initialized cachingWorld)
      ⟨.returned (some .start), [cachingTask 0], 1, ⟨[cachingTask 0], none⟩, [cachingTask 0], cachingWorld⟩ :=
    .tail (.tail (.tail (.tail (.tail .refl ⟨_, trivial, .start rfl⟩) ⟨_, trivial, .create rfl⟩)
      ⟨_, trivial, .created rfl⟩) ⟨_, trivial, .schedule rfl⟩) ⟨_, trivial, .scheduled rfl⟩
  have hticked : Runs cachingParts
      ⟨.returned (some .start), [cachingTask 0], 1, ⟨[cachingTask 0], none⟩, [cachingTask 0],
        cachingWorld.record 7 value⟩
      ⟨.returned (some .start), [cachingTask 0], 1, ⟨[cachingTask 0], none⟩, [cachingTask 0],
        (cachingWorld.record 7 value).ticked cachingParts.canFrameProcessors scriptTask⟩ :=
    runs_ticked (fun _ => trivial) (cachingTask 0) rfl rfl
  have hidle : ∀ t, ¬ (⟨[cachingTask 0], none⟩ : WorkQueue WorkQueueTask
      (Handler LuaStates WorkQueueTaskResult)).Runs t := by
    rintro t ⟨r, hr, -⟩
    cases hr
  have hclearing (w : World LuaStates) : Runs cachingParts
      ⟨.returned (some .start), [cachingTask 0], 1, ⟨[cachingTask 0], none⟩, [cachingTask 0], w⟩
      ⟨.clearingReadings, [], 1, ⟨[], none⟩, [cachingTask 0], w⟩ :=
    .tail (.tail (.tail .refl ⟨_, trivial, .restart rfl⟩) ⟨_, trivial, .cancelled rfl (hidle _)⟩)
      ⟨_, trivial, .clearTasks rfl⟩
  exact ((hstarted.tail ⟨_, trivial, .record _ 7 value⟩).trans hticked).trans (hclearing _)

/-- The world after `ClearReadings`, which leaves the setup as it was. -/
def World.cleared (w : World LuaStates) : World LuaStates :=
  { cachingWorld with epoch := 1, lua := w.lua, trace := w.trace, seen := w.seen }

/-- The rest of `Restart`, and a run of the new task. -/
theorem runs_cachingRestarted (w : World LuaStates) :
    RunsWhere cachingParts (fun _ l => l = .proceed ∨ l = .work)
      ⟨.creating .restart w.cleared.configuration.entries, [], 1, ⟨[], none⟩, [cachingTask 0], w.cleared⟩
      ⟨.returned (some .restart), [cachingTask 1], 2, ⟨[cachingTask 1], none⟩, [cachingTask 0, cachingTask 1],
        w.cleared.ticked cachingParts.canFrameProcessors scriptTask⟩ := by
  have hrestarted : RunsWhere cachingParts (fun _ l => l = .proceed ∨ l = .work)
      ⟨.creating .restart w.cleared.configuration.entries, [], 1, ⟨[], none⟩, [cachingTask 0], w.cleared⟩
      ⟨.returned (some .restart), [cachingTask 1], 2, ⟨[cachingTask 1], none⟩, [cachingTask 0, cachingTask 1],
        w.cleared⟩ :=
    .tail (.tail (.tail (.tail .refl ⟨_, .inl rfl, .create rfl⟩)
      ⟨_, .inl rfl, .created rfl⟩) ⟨_, .inl rfl, .schedule rfl⟩) ⟨_, .inl rfl, .scheduled rfl⟩
  have hticked : RunsWhere cachingParts (fun _ l => l = .proceed ∨ l = .work)
      ⟨.returned (some .restart), [cachingTask 1], 2, ⟨[cachingTask 1], none⟩, [cachingTask 0, cachingTask 1],
        w.cleared⟩
      ⟨.returned (some .restart), [cachingTask 1], 2, ⟨[cachingTask 1], none⟩, [cachingTask 0, cachingTask 1],
        w.cleared.ticked cachingParts.canFrameProcessors scriptTask⟩ :=
    runs_ticked (fun _ => .inr rfl) (cachingTask 1) rfl rfl
  exact hrestarted.trans hticked

theorem clearReadings_cachingClearing (value : Value) :
    (cachingClearing value).world.clearReadings = (cachingClearing value).world.cleared := rfl

theorem sendsOld_of_trace {value : Value} {data : List UInt8}
    (hreadings : (cachingClearing value).world.readings = [⟨7, value, 0⟩])
    (htrace : ((cachingClearing value).world.cleared.ticked cachingParts.canFrameProcessors scriptTask).trace =
      (cachingClearing value).world.trace ++ [.sent ⟨⟨0⟩, 0x10, data, [], 1⟩]) : SendsOld value data := by
  have hstep : Step cachingParts (cachingClearing value) .proceed
      (({ cachingClearing value with world := (cachingClearing value).world.clearReadings } :
        Scheduler LuaStates).startFrom .restart) := .clearReadings rfl
  rw [clearReadings_cachingClearing] at hstep
  exact ⟨_, _, _, runs_cachingClearing value, rfl, hreadings, hstep, runs_cachingRestarted _, htrace⟩

/-- **A script that remembers** sends the readings that were cleared. -/
theorem caching_sendsOld :
    SendsOld 0x42280000#32 [0x00, 0x00, 0x28, 0x42] ∧ SendsOld 0x41880000#32 [0x00, 0x00, 0x88, 0x41] := by
  refine ⟨sendsOld_of_trace ?_ ?_, sendsOld_of_trace ?_ ?_⟩ <;> decide +kernel

end EerieLeap.Canbus
