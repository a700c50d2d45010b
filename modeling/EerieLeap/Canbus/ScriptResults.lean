import EerieLeap.Canbus.ScriptProcessor

/-!
# What becomes of a script's result

A script that fails leaves an error object on the stack, and `Process` takes it off before it reads the text
of the error. A script that returns leaves a value, which goes to the bus where `lua_isstring` accepts it.

* `not_reportsError` : it is never the error of the script, read from where it was left;
* `runAlone_scriptProcessor_ok` : what is returned of a value;
* `onlyStrings_iff` : the values of which only binary data reaches the bus.
-/

namespace EerieLeap.Canbus

open EerieLeap.Lib EerieLeap.Lib.Proc EerieLeap.Lib.Lua

variable {interpreter : Interpreter} {functionName : String} {message : CanMessageConfiguration}
  {luaScript : LuaScript} {canFrameData : List UInt8} {w w₁ : World LuaStates} {address : ℕ}

/-! ## Errors -/

/-- An error is reported as that of the script. -/
structure ReportsError (errorObject : LuaValue) (before after : LuaState)
    (r : Except ScriptFailure (List UInt8)) : Prop where
  reports : ∃ what, r = .error (.runtimeError what) ∧ ∀ bytes, errorObject = .string bytes → bytes <:+: what
  /-- Only slots that the processor has pushed are read. -/
  ownSlots : ∀ slot ∈ after.reads.drop before.reads.length, before.height < slot
  notNull : r ≠ .error .nullString
  kept : after.stack = before.stack

/-- **The error of a script** is never reported from where it was left. -/
theorem not_reportsError (hscript : message.luaScript = some luaScript)
    (hstate : w.lua.hasState luaScript = true)
    (hfunction : (w.luaState luaScript).globals functionName = .function address) {errorObject : LuaValue}
    (hcall : runAlone (interpreter.call luaScript address (arguments message.frameId canFrameData))
      (w.calling luaScript functionName message.frameId canFrameData) = (.error errorObject, w₁)) :
    ¬ ReportsError errorObject (w.luaState luaScript)
      ((runAlone (process interpreter functionName message canFrameData) w).2.luaState luaScript)
      (runAlone (process interpreter functionName message canFrameData) w).1 := by
  obtain ⟨state, hstack, hreads, hrun⟩ := runAlone_process_error hscript hstate hfunction hcall
  rw [hrun, World.luaState_withLuaState]
  intro hreports
  have hheight : state.height = (w.luaState luaScript).height := congrArg List.length hstack
  have hslot := hreports.ownSlots (w.luaState luaScript).height (by
    rw [LuaState.toLString_reads, hreads, hheight, List.append_assoc, List.drop_left]
    simp)
  exact Nat.lt_irrefl _ hslot

/-! ## Results -/

/-- **A value** that has a text is returned as that, and no other is. -/
theorem runAlone_scriptProcessor_ok (hscript : message.luaScript = some luaScript)
    (hstate : w.lua.hasState luaScript = true)
    (hfunction : (w.luaState luaScript).globals functionName = .function address) {value : LuaValue}
    (hcall : runAlone (interpreter.call luaScript address (arguments message.frameId canFrameData))
      (w.calling luaScript functionName message.frameId canFrameData) = (.ok value, w₁)) :
    (runAlone ((scriptProcessor interpreter functionName).process message canFrameData) w).1 =
      match (w.luaState luaScript).format.textOf value with
        | some bytes => .ok bytes
        | none => .error noBinaryData.what := by
  obtain ⟨state, -, hrun⟩ := runAlone_process_ok hscript hstate hfunction hcall
  show (runAlone ((process interpreter functionName message canFrameData).mapError ScriptFailure.what) w).1 = _
  rw [runAlone_mapError, hrun]
  cases (w.luaState luaScript).format.textOf value <;> rfl

/-- A tick in which the script has been given the frame of the DBC and has returned a value. -/
structure ScriptTick (interpreter : Interpreter) (functionName : String) (luaScript : LuaScript)
    (address : ℕ) (task : CanbusTask) (w : World LuaStates) (built : List UInt8) (value : LuaValue) where
  script : task.messageConfiguration.luaScript = some luaScript
  valid : w.busValid task.canbus = true
  afterBuild : World LuaStates
  build : runAlone (build task.busChannel task.messageConfiguration.frameId) w = (.ok built, afterBuild)
  state : afterBuild.lua.hasState luaScript = true
  function : (afterBuild.luaState luaScript).globals functionName = .function address
  afterCall : World LuaStates
  call : runAlone (interpreter.call luaScript address (arguments task.messageConfiguration.frameId built))
    (afterBuild.calling luaScript functionName task.messageConfiguration.frameId built) = (.ok value, afterCall)

namespace ScriptTick

variable {task : CanbusTask} {built : List UInt8} {value : LuaValue}
  (t : ScriptTick interpreter functionName luaScript address task w built value)

/-- How `Process` ends in this tick. -/
def processed : Except String (List UInt8) :=
  (runAlone ((scriptProcessor interpreter functionName).process task.messageConfiguration built)
    t.afterBuild).1

/-- The state that the tick leaves. -/
def after (_ : ScriptTick interpreter functionName luaScript address task w built value) : World LuaStates :=
  (runAlone (processCanbusWorkTask [scriptProcessor interpreter functionName] task) w).2

theorem processed_eq : t.processed =
    match (t.afterBuild.luaState luaScript).format.textOf value with
      | some bytes => .ok bytes
      | none => .error noBinaryData.what :=
  runAlone_scriptProcessor_ok t.script t.state t.function t.call

theorem handed_eq : t.after.handed = w.handed ++ task.framesAfter built t.processed :=
  handed_of_one t.valid t.build rfl

/-- A string goes to the bus byte for byte, or the frame of the DBC where it is empty; with any other value
`Process` throws, and nothing is sent. -/
def OnlyStrings : Prop :=
  (∀ bytes, value = .string bytes →
      t.after.handed = w.handed ++ task.frames (if bytes = [] then built else bytes)) ∧
    ((∀ bytes, value ≠ .string bytes) →
      (∃ what, t.processed = .error what) ∧ t.after.handed = w.handed)

/-- Without a text `Process` throws. -/
theorem onlyStrings_of_no_text (hvalue : ∀ bytes, value ≠ .string bytes)
    (h : (t.afterBuild.luaState luaScript).format.textOf value = none) : t.OnlyStrings := by
  have hthrew : t.processed = .error noBinaryData.what := by
    rw [t.processed_eq, h]
  refine ⟨fun bytes heq => absurd heq (hvalue bytes), fun _ => ⟨⟨_, hthrew⟩, ?_⟩⟩
  rw [t.handed_eq, hthrew]
  exact List.append_nil _

/-- A number goes to the bus as its text. -/
theorem handed_of_number {n : LuaNumber} (h : value = .number n) : t.after.handed =
    w.handed ++ [(task.canbus, task.messageConfiguration.frameId,
      (t.afterBuild.luaState luaScript).format.text n)] := by
  subst h
  have htext := (t.afterBuild.luaState luaScript).format.text_ne_nil n
  have hreturned : t.processed = .ok ((t.afterBuild.luaState luaScript).format.text n) := t.processed_eq
  rw [t.handed_eq, hreturned]
  unfold CanbusTask.framesAfter CanbusTask.frames replaced
  simp [htext]

/-- **Only binary strings** reach the bus, unless the script returns a number. -/
theorem onlyStrings_iff : t.OnlyStrings ↔ ∀ n, value ≠ .number n := by
  have hprocessed := t.processed_eq
  cases value with
  | string bytes =>
    have hreturned : t.processed = .ok bytes := hprocessed
    refine iff_of_true ⟨?_, fun hnot => absurd rfl (hnot bytes)⟩ nofun
    rintro bytes' heq
    cases heq
    rw [t.handed_eq, hreturned]
    unfold CanbusTask.framesAfter replaced
    simp only [List.isEmpty_iff]
  | number n =>
    have hreturned : t.processed = .ok _ := hprocessed
    refine iff_of_false ?_ fun hnot => hnot n rfl
    rintro ⟨-, hthrows⟩
    obtain ⟨⟨what, hwhat⟩, -⟩ := hthrows nofun
    rw [hreturned] at hwhat
    cases hwhat
  | nil => exact iff_of_true (t.onlyStrings_of_no_text nofun rfl) nofun
  | boolean b => exact iff_of_true (t.onlyStrings_of_no_text nofun rfl) nofun
  | function address' => exact iff_of_true (t.onlyStrings_of_no_text nofun rfl) nofun
  | other address' => exact iff_of_true (t.onlyStrings_of_no_text nofun rfl) nofun

end ScriptTick

/-! ## A script -/

/-- The text of the number 42. -/
def someFormat : NumberFormat := ⟨fun _ => [0x34, 0x32], fun _ => nofun⟩

/-- Every script has the same function under every name, and an empty stack. -/
def scriptWorld : World LuaStates :=
  .initial oneConfiguration oneService (fun _ => true)
    ⟨fun _ => true, fun _ => ⟨someFormat, fun _ => .function 0, [], []⟩⟩

def scriptTask : CanbusTask := ⟨100, 0, ⟨0x10, some 100, some ⟨0⟩⟩, ⟨0⟩⟩

/-- The functions raise this error object. -/
def raising (errorObject : LuaValue) : Interpreter := ⟨fun _ _ _ => .fail errorObject, fun _ _ _ => trivial⟩

/-- The functions return this value. -/
def returning (value : LuaValue) : Interpreter := ⟨fun _ _ _ => .done value, fun _ _ _ => trivial⟩

theorem boom_not_reported : ¬ ReportsError (.string "boom".toUTF8.toList) (scriptWorld.luaState ⟨0⟩)
    ((runAlone (process (raising (.string "boom".toUTF8.toList)) "process_can_frame"
      scriptTask.messageConfiguration [1]) scriptWorld).2.luaState ⟨0⟩)
    (runAlone (process (raising (.string "boom".toUTF8.toList)) "process_can_frame"
      scriptTask.messageConfiguration [1]) scriptWorld).1 :=
  not_reportsError rfl rfl rfl rfl

/-- On an empty stack a string is made of a null pointer. -/
theorem boom_nullString : ¬ ∀ (interpreter : Interpreter) (functionName : String)
    (message : CanMessageConfiguration) (luaScript : LuaScript) (canFrameData : List UInt8)
    (w w₁ : World LuaStates) (address : ℕ) (errorObject : LuaValue),
    message.luaScript = some luaScript → w.lua.hasState luaScript = true →
    (w.luaState luaScript).globals functionName = .function address →
    runAlone (interpreter.call luaScript address (arguments message.frameId canFrameData))
      (w.calling luaScript functionName message.frameId canFrameData) = (.error errorObject, w₁) →
    ReportsError errorObject (w.luaState luaScript)
      ((runAlone (process interpreter functionName message canFrameData) w).2.luaState luaScript)
      (runAlone (process interpreter functionName message canFrameData) w).1 := by
  intro hall
  have hreports := hall (raising (.string "boom".toUTF8.toList)) "process_can_frame"
    scriptTask.messageConfiguration ⟨0⟩ [1] scriptWorld _ 0 _ rfl rfl rfl rfl
  have hcall : runAlone ((raising (.string "boom".toUTF8.toList)).call ⟨0⟩ 0
      (arguments scriptTask.messageConfiguration.frameId [1])) (scriptWorld.calling ⟨0⟩ "process_can_frame"
      scriptTask.messageConfiguration.frameId [1]) = (.error (.string "boom".toUTF8.toList), _) := rfl
  obtain ⟨state, hstack, -, hrun⟩ := runAlone_process_error
    (show scriptTask.messageConfiguration.luaScript = some ⟨0⟩ from rfl) rfl rfl hcall
  rw [hrun, LuaState.toLString_nil hstack] at hreports
  exact hreports.notNull rfl

/-- A tick in which the script returns the value. -/
def someTick (value : LuaValue) :
    ScriptTick (returning value) "process_can_frame" ⟨0⟩ 0 scriptTask scriptWorld [0] value where
  script := rfl
  valid := rfl
  afterBuild := _
  build := rfl
  state := rfl
  function := rfl
  afterCall := _
  call := rfl

/-- A string with a zero byte. -/
theorem string_onlyStrings : (someTick (.string [0x00, 0x41])).OnlyStrings :=
  (ScriptTick.onlyStrings_iff _).mpr nofun

/-- A number is sent as its text. -/
theorem number_transmitted : ¬ ∀ (interpreter : Interpreter) (functionName : String)
    (luaScript : LuaScript) (address : ℕ) (task : CanbusTask) (w : World LuaStates) (built : List UInt8)
    (value : LuaValue) (t : ScriptTick interpreter functionName luaScript address task w built value),
    t.OnlyStrings := by
  intro hall
  have honly := hall _ _ _ _ _ _ _ _ (someTick (.number (.integer 42)))
  have hsilent := (honly.2 nofun).2
  rw [(someTick (.number (.integer 42))).handed_of_number rfl] at hsilent
  simp at hsilent

end EerieLeap.Canbus
