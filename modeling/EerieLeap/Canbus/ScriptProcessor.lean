import EerieLeap.Canbus.Tick
import EerieLeap.Lib.Lua

/-!
# The script processor

`ScriptProcessor` hands a frame to a function of the message's Lua script and takes what it returns for the
new data. What the function does is up to the script: it may use the host's functions to look readings up
and to record them, and it returns a value or raises an error object.

* `process` : the calls of the Lua API, in the order of the source;
* `uses_process` : it does and sees what a processor may, and `scriptProcessor` is one;
* `runAlone_process_off`, `runAlone_process_missing` : what it does when there is no function to call;
* `runAlone_process_error`, `runAlone_process_ok` : what it does when the function raises an error object and
  when it returns.
-/

namespace EerieLeap.Canbus

open EerieLeap.Lib EerieLeap.Lib.Proc EerieLeap.Lib.Lua

/-! ## The states of the scripts -/

/-- The Lua states of the scripts; `hasState` is false where `GetState` returns null. -/
structure LuaStates where
  hasState : LuaScript → Bool
  state : LuaScript → LuaState

namespace World

variable (w : World LuaStates) (luaScript : LuaScript)

def luaState : LuaState := w.lua.state luaScript

def withLuaState (state : LuaState) : World LuaStates :=
  { w with lua := { w.lua with state := Function.update w.lua.state luaScript state } }

@[simp] theorem luaState_withLuaState (state : LuaState) :
    (w.withLuaState luaScript state).luaState luaScript = state :=
  Function.update_self _ _ _

@[simp] theorem withLuaState_withLuaState (state state' : LuaState) :
    (w.withLuaState luaScript state).withLuaState luaScript state' = w.withLuaState luaScript state' := by
  unfold withLuaState
  simp only [Function.update_idem]

variable {w} in
theorem SameButReadings.luaState {w' : World LuaStates} (h : w.SameButReadings w') :
    w'.luaState luaScript = w.luaState luaScript := by
  unfold World.luaState
  rw [h.lua]

end World

/-- What a function of a script leaves of the stacks that the host sees. -/
def SameStacks (w w' : World LuaStates) : Prop :=
  ∀ luaScript, (w'.luaState luaScript).stack = (w.luaState luaScript).stack ∧
    (w'.luaState luaScript).reads = (w.luaState luaScript).reads ∧
    (w'.luaState luaScript).format = (w.luaState luaScript).format

/-- The functions of the scripts, each with its arguments in their order. They do what a processor may and
see no more, and use no stack of the host. -/
structure Interpreter where
  call : LuaScript → ℕ → List LuaValue → Proc (World LuaStates) LuaValue LuaValue
  uses : ∀ luaScript address arguments, (call luaScript address arguments).Uses
    fun act same => ProcessorAccess act same ∧ ∀ w, SameStacks w (act w)

theorem Interpreter.keeps (interpreter : Interpreter) (luaScript : LuaScript) (address : ℕ)
    (arguments : List LuaValue) : (interpreter.call luaScript address arguments).Changes SameStacks :=
  (interpreter.uses luaScript address arguments).changes fun _ _ w h => h.2 w

/-! ## The processor -/

/-- How `Process` fails: with a `runtime_error`, or because a string is made of a null pointer. -/
inductive ScriptFailure
  | runtimeError (what : List UInt8)
  | nullString

abbrev Script := Proc (World LuaStates) ScriptFailure

/-- A call of the Lua API. -/
def onState {α : Type} (luaScript : LuaScript) (f : LuaState → α × LuaState) : Script α :=
  atomic fun w => (.ok (f (w.luaState luaScript)).1, w.withLuaState luaScript (f (w.luaState luaScript)).2)

def onStack (luaScript : LuaScript) (f : LuaState → LuaState) : Script Unit :=
  onState luaScript fun state => ((), f state)

/-- The value below the arguments is called. -/
def callBelow (interpreter : Interpreter) (luaScript : LuaScript) (nargs : ℕ) (stack : List LuaValue) :
    Proc (World LuaStates) LuaValue LuaValue :=
  match stack.drop nargs with
  | .function address :: _ => interpreter.call luaScript address (stack.take nargs).reverse
  | _ => .fail (.string "attempt to call a value that is not a function".toUTF8.toList)

/-- The result or the error object. -/
def valueLeft : Except LuaValue LuaValue → LuaValue
  | .ok value => value
  | .error errorObject => errorObject

/-- `lua_pcall(nargs, 1, 0)`, and whether it returns `LUA_OK`. -/
def pcall (interpreter : Interpreter) (luaScript : LuaScript) (nargs : ℕ) : Script Bool := do
  let stack ← .read fun w => (w.luaState luaScript).stack
  let outcome ← attempt (callBelow interpreter luaScript nargs stack)
  onStack luaScript fun state => state.called nargs (valueLeft outcome)
  return outcome.isOk

/-- `std::runtime_error("Error calling Lua function: " + std::string(text))`. -/
def errorCalling : Option (List UInt8) → ScriptFailure
  | none => .nullString
  | some text => .runtimeError ("Error calling Lua function: ".toUTF8.toList ++ text.takeWhile (· ≠ 0))

def noBinaryData : ScriptFailure :=
  .runtimeError "Function didn't return a string (binary data).".toUTF8.toList

/-- What `Process` does when `lua_pcall` has returned. -/
def takeResult (luaScript : LuaScript) (ok : Bool) : Script (List UInt8) := do
  if !ok then
    onStack luaScript fun state => state.pop 1
    let text ← onState luaScript LuaState.toLString
    .fail (errorCalling text)
  else if !(← onState luaScript LuaState.isString) then
    onStack luaScript fun state => state.pop 1
    .fail noBinaryData
  else
    let data ← onState luaScript LuaState.toLString
    onStack luaScript fun state => state.pop 1
    return data.getD []

/-- What `Process` does with the function on the top of the stack. -/
def callFunction (interpreter : Interpreter) (luaScript : LuaScript) (frameId : UInt32)
    (canFrameData : List UInt8) : Script (List UInt8) := do
  onStack luaScript fun state => state.pushInteger frameId.toNat
  onStack luaScript fun state => state.pushLString canFrameData
  let ok ← pcall interpreter luaScript 2
  takeResult luaScript ok

/-- `ScriptProcessor::Process`. -/
def process (interpreter : Interpreter) (functionName : String) (message : CanMessageConfiguration)
    (canFrameData : List UInt8) : Script (List UInt8) :=
  match message.luaScript with
  | none => return []
  | some luaScript => do
    if ← .read fun w => !w.lua.hasState luaScript then
      return []
    else
      onStack luaScript fun state => state.getGlobal functionName
      if !(← onState luaScript LuaState.isFunction) then
        onStack luaScript fun state => state.pop 1
        return []
      else
        callFunction interpreter luaScript message.frameId canFrameData

/-- `what()`; a string of a null pointer is undefined, and the library throws. -/
def ScriptFailure.what : ScriptFailure → String
  | .runtimeError what => String.ofList (what.map Char.ofUInt8)
  | .nullString => "basic_string: construction from null is not valid"

/-! ## What it may do -/

theorem uses_onState {α : Type} (luaScript : LuaScript) (f : LuaState → α × LuaState) :
    (onState luaScript f).Uses ProcessorAccess := by
  refine uses_atomic (.script (fun w => (w.withLuaState luaScript (f (w.luaState luaScript)).2).lua) ?_) ?_
  · intro w w' h
    unfold World.withLuaState
    rw [h.luaState, h.lua]
  · intro w w' h
    rw [h.luaState]

theorem changes_callBelow (interpreter : Interpreter) (luaScript : LuaScript) (nargs : ℕ)
    (stack : List LuaValue) : (callBelow interpreter luaScript nargs stack).Changes SameStacks := by
  unfold callBelow
  split
  · exact interpreter.keeps _ _ _
  · trivial

theorem uses_callBelow (interpreter : Interpreter) (luaScript : LuaScript) (nargs : ℕ)
    (stack : List LuaValue) : (callBelow interpreter luaScript nargs stack).Uses ProcessorAccess := by
  unfold callBelow
  split
  · exact (interpreter.uses _ _ _).mono fun _ _ h => h.1
  · trivial

theorem uses_pcall (interpreter : Interpreter) (luaScript : LuaScript) (nargs : ℕ) :
    (pcall interpreter luaScript nargs).Uses ProcessorAccess := by
  refine uses_bind (uses_read .read ?_) fun stack =>
    uses_bind (uses_attempt (uses_callBelow _ _ _ _)) fun outcome => uses_bind (uses_onState _ _) fun _ => trivial
  intro w w' h
  rw [h.luaState]

theorem uses_takeResult (luaScript : LuaScript) (ok : Bool) :
    (takeResult luaScript ok).Uses ProcessorAccess := by
  unfold takeResult
  split
  · exact uses_bind (uses_onState _ _) fun _ => uses_bind (uses_onState _ _) fun _ => trivial
  · refine uses_bind (uses_onState _ _) fun isString => ?_
    split
    · exact uses_bind (uses_onState _ _) fun _ => trivial
    · exact uses_bind (uses_onState _ _) fun _ => uses_bind (uses_onState _ _) fun _ => trivial

/-- **Process** does and sees what a processor may. -/
theorem uses_process (interpreter : Interpreter) (functionName : String)
    (message : CanMessageConfiguration) (canFrameData : List UInt8) :
    (process interpreter functionName message canFrameData).Uses ProcessorAccess := by
  unfold process
  cases message.luaScript with
  | none => trivial
  | some luaScript =>
    refine uses_bind (uses_read .read ?_) fun missing => ?_
    · intro w w' h
      rw [h.lua]
    split
    · trivial
    · refine uses_bind (uses_onState _ _) fun _ => uses_bind (uses_onState _ _) fun isFunction => ?_
      split
      · exact uses_bind (uses_onState _ _) fun _ => trivial
      · exact uses_bind (uses_onState _ _) fun _ => uses_bind (uses_onState _ _) fun _ =>
          uses_bind (uses_pcall _ _ _) fun ok => uses_takeResult _ ok

/-- The processor as the scheduler has it. -/
def scriptProcessor (interpreter : Interpreter) (functionName : String) : ICanFrameProcessor LuaStates where
  process message canFrameData :=
    (process interpreter functionName message canFrameData).mapError ScriptFailure.what
  uses message canFrameData := uses_mapError (uses_process interpreter functionName message canFrameData)

/-! ## What it does -/

section Runs

variable {interpreter : Interpreter} {functionName : String} {message : CanMessageConfiguration}
  {luaScript : LuaScript} {canFrameData : List UInt8} {w w₁ : World LuaStates} {address : ℕ}

theorem runAlone_onState_bind {α β : Type} (f : LuaState → α × LuaState) (g : α → Script β) :
    runAlone (onState luaScript f >>= g) w =
      runAlone (g (f (w.luaState luaScript)).1) (w.withLuaState luaScript (f (w.luaState luaScript)).2) := rfl

theorem runAlone_onStack_bind {β : Type} (f : LuaState → LuaState) (g : Unit → Script β) :
    runAlone (onStack luaScript f >>= g) w =
      runAlone (g ()) (w.withLuaState luaScript (f (w.luaState luaScript))) := rfl

/-- With the function found and its arguments on the stack. -/
def World.calling (w : World LuaStates) (luaScript : LuaScript) (functionName : String)
    (frameId : UInt32) (canFrameData : List UInt8) : World LuaStates :=
  w.withLuaState luaScript ((((w.luaState luaScript).getGlobal functionName).isFunction.2.pushInteger
    frameId.toNat).pushLString canFrameData)

/-- The arguments of the function. -/
def arguments (frameId : UInt32) (canFrameData : List UInt8) : List LuaValue :=
  [.number (.integer frameId.toNat), .string canFrameData]

/-- A function that is called leaves the stacks of the host alone. -/
theorem sameStacks_of_call {outcome : Except LuaValue LuaValue} {values : List LuaValue}
    (h : runAlone (interpreter.call luaScript address values) w = (outcome, w₁)) : SameStacks w w₁ := by
  have hends := ends_runAlone (R := Eq) (fun _ => rfl) (interpreter.call luaScript address values) w
  rw [h] at hends
  refine hends.keeps (interpreter.keeps luaScript address values) ?_ (fun _ _ h => h) ?_ ?_
  · rintro w w' rfl luaScript'
    exact ⟨rfl, rfl, rfl⟩
  · exact fun w luaScript' => ⟨rfl, rfl, rfl⟩
  · intro w₁ w₂ w₃ h₁ h₂ luaScript'
    obtain ⟨hstack₁, hreads₁, hformat₁⟩ := h₁ luaScript'
    obtain ⟨hstack₂, hreads₂, hformat₂⟩ := h₂ luaScript'
    exact ⟨hstack₂.trans hstack₁, hreads₂.trans hreads₁, hformat₂.trans hformat₁⟩

/-- **A call** puts what the function returns or raises in place of it and its arguments. -/
theorem runAlone_pcall {outcome : Except LuaValue LuaValue} {first second : LuaValue}
    {rest : List LuaValue} (hstack : (w.luaState luaScript).stack = second :: first :: .function address :: rest)
    (hcall : runAlone (interpreter.call luaScript address [first, second]) w = (outcome, w₁)) :
    runAlone (pcall interpreter luaScript 2) w = (.ok outcome.isOk,
      w₁.withLuaState luaScript ((w₁.luaState luaScript).called 2 (valueLeft outcome))) := by
  have hbelow : callBelow interpreter luaScript 2 (w.luaState luaScript).stack =
      interpreter.call luaScript address [first, second] := by
    rw [hstack]
    rfl
  unfold pcall
  rw [runAlone_read_bind, hbelow, runAlone_bind, runAlone_attempt, hcall]
  rfl

/-- A message without a script, or with one that has no state, is left alone. -/
theorem runAlone_process_off (h : ∀ luaScript, message.luaScript = some luaScript →
      w.lua.hasState luaScript = false) :
    runAlone (process interpreter functionName message canFrameData) w = (.ok [], w) := by
  unfold process
  cases hscript : message.luaScript with
  | none => rfl
  | some luaScript =>
    dsimp only
    rw [runAlone_read_bind, h luaScript hscript]
    rfl

/-- The result is on the top of the stack of the call. -/
theorem called_spec {values : List LuaValue} {outcome : Except LuaValue LuaValue} {frameId : UInt32}
    (hcall : runAlone (interpreter.call luaScript address values)
      (w.calling luaScript functionName frameId canFrameData) = (outcome, w₁)) (value : LuaValue) :
    ((w₁.luaState luaScript).called 2 value).stack = value :: (w.luaState luaScript).stack ∧
      ((w₁.luaState luaScript).called 2 value).reads =
        (w.luaState luaScript).reads ++ [(w.luaState luaScript).height + 1] ∧
      ((w₁.luaState luaScript).called 2 value).format = (w.luaState luaScript).format := by
  obtain ⟨hstack, hreads, hformat⟩ := sameStacks_of_call hcall luaScript
  unfold World.calling at hstack hreads hformat
  rw [World.luaState_withLuaState] at hstack hreads hformat
  refine ⟨?_, hreads, hformat⟩
  show value :: (w₁.luaState luaScript).stack.drop 3 = _
  rw [hstack]
  rfl

/-- After an error the slot below the error object is read. -/
theorem runAlone_takeResult_false : runAlone (takeResult luaScript false) w =
    (.error (errorCalling ((w.luaState luaScript).pop 1).toLString.1),
      w.withLuaState luaScript ((w.luaState luaScript).pop 1).toLString.2) := by
  unfold takeResult
  simp only [Bool.not_false, if_true]
  rw [runAlone_onStack_bind, runAlone_onState_bind]
  simp only [World.luaState_withLuaState, World.withLuaState_withLuaState]
  rfl

/-- What `Process` makes of the text of a result. -/
def textOrError : Option (List UInt8) → Except ScriptFailure (List UInt8)
  | some bytes => .ok bytes
  | none => .error noBinaryData

/-- A result that has a text is returned as that. -/
theorem runAlone_takeResult_true {value : LuaValue} {rest : List LuaValue}
    (hstack : (w.luaState luaScript).stack = value :: rest) : ∃ state, state.stack = rest ∧
      runAlone (takeResult luaScript true) w =
        (textOrError ((w.luaState luaScript).format.textOf value), w.withLuaState luaScript state) := by
  have hread : (w.luaState luaScript).isString.2 = (w.luaState luaScript).readTop := rfl
  unfold takeResult
  rw [if_neg (by decide), runAlone_onState_bind, LuaState.isString_eq_isSome hstack, hread]
  cases htext : (w.luaState luaScript).format.textOf value with
  | none =>
    refine ⟨(w.luaState luaScript).readTop.pop 1, by simp [hstack], ?_⟩
    simp only [Option.isSome_none, Bool.not_false, if_true]
    rw [runAlone_onStack_bind]
    simp only [World.luaState_withLuaState, World.withLuaState_withLuaState]
    rfl
  | some bytes =>
    refine ⟨(w.luaState luaScript).readTop.toLString.2.pop 1, ?_, ?_⟩
    · rw [LuaState.pop_stack, LuaState.toLString_drop, LuaState.readTop_stack, hstack]
      rfl
    · simp only [Option.isSome_some, Bool.not_true, Bool.false_eq_true, if_false]
      rw [runAlone_onState_bind, runAlone_onStack_bind]
      simp only [World.luaState_withLuaState, World.withLuaState_withLuaState]
      have hread' : (w.luaState luaScript).readTop.stack = value :: rest := hstack
      have hvalue : (w.luaState luaScript).readTop.toLString.1 = some bytes :=
        (LuaState.toLString_cons hread').trans htext
      rw [hvalue]
      rfl

section Script

variable (hscript : message.luaScript = some luaScript) (hstate : w.lua.hasState luaScript = true)

include hscript hstate

/-- A global that is not a function is taken off the stack again. -/
theorem runAlone_process_missing
    (h : ((w.luaState luaScript).getGlobal functionName).isFunction.1 = false) :
    ∃ state, state.stack = (w.luaState luaScript).stack ∧
      runAlone (process interpreter functionName message canFrameData) w =
        (.ok [], w.withLuaState luaScript state) := by
  refine ⟨((w.luaState luaScript).getGlobal functionName).isFunction.2.pop 1, rfl, ?_⟩
  unfold process
  rw [hscript]
  dsimp only
  rw [runAlone_read_bind, hstate]
  simp only [Bool.not_true, Bool.false_eq_true, if_false]
  rw [runAlone_onStack_bind, runAlone_onState_bind, World.luaState_withLuaState, h]
  simp only [Bool.not_false, if_true]
  rw [runAlone_onStack_bind, World.luaState_withLuaState, World.withLuaState_withLuaState,
    World.withLuaState_withLuaState]
  rfl

/-- **The function is called** where there is one, and what it leaves is taken. -/
theorem runAlone_process (hfunction : (w.luaState luaScript).globals functionName = .function address)
    {outcome : Except LuaValue LuaValue}
    (hcall : runAlone (interpreter.call luaScript address (arguments message.frameId canFrameData))
      (w.calling luaScript functionName message.frameId canFrameData) = (outcome, w₁)) :
    runAlone (process interpreter functionName message canFrameData) w =
      runAlone (takeResult luaScript outcome.isOk)
        (w₁.withLuaState luaScript ((w₁.luaState luaScript).called 2 (valueLeft outcome))) := by
  have hisFunction : ((w.luaState luaScript).getGlobal functionName).isFunction.1 = true :=
    LuaState.isFunction_eq_true_iff.mpr ⟨address, (w.luaState luaScript).stack, congrArg (· :: _) hfunction⟩
  have hstack : ((w.calling luaScript functionName message.frameId canFrameData).luaState luaScript).stack =
      .string canFrameData :: .number (.integer message.frameId.toNat) :: .function address ::
        (w.luaState luaScript).stack := by
    rw [World.calling, World.luaState_withLuaState, ← hfunction]
    rfl
  have hpcall := runAlone_pcall hstack hcall
  rw [World.calling] at hpcall
  unfold process
  rw [hscript]
  dsimp only
  rw [runAlone_read_bind, hstate]
  simp only [Bool.not_true, Bool.false_eq_true, if_false]
  rw [runAlone_onStack_bind, runAlone_onState_bind, World.luaState_withLuaState, hisFunction]
  simp only [Bool.not_true, Bool.false_eq_true, if_false]
  unfold callFunction
  rw [runAlone_onStack_bind, runAlone_onStack_bind]
  simp only [World.luaState_withLuaState, World.withLuaState_withLuaState]
  rw [runAlone_bind, hpcall]

/-- **An error**: the text is that of the value below the error object, which was on the stack before. -/
theorem runAlone_process_error
    (hfunction : (w.luaState luaScript).globals functionName = .function address) {errorObject : LuaValue}
    (hcall : runAlone (interpreter.call luaScript address (arguments message.frameId canFrameData))
      (w.calling luaScript functionName message.frameId canFrameData) = (.error errorObject, w₁)) :
    ∃ state : LuaState, state.stack = (w.luaState luaScript).stack ∧
      state.reads = (w.luaState luaScript).reads ++ [(w.luaState luaScript).height + 1] ∧
      runAlone (process interpreter functionName message canFrameData) w =
        (.error (errorCalling state.toLString.1), w₁.withLuaState luaScript state.toLString.2) := by
  obtain ⟨hstack, hreads, -⟩ := called_spec hcall errorObject
  refine ⟨((w₁.luaState luaScript).called 2 errorObject).pop 1, ?_, hreads, ?_⟩
  · rw [LuaState.pop_stack, hstack]
    rfl
  · rw [runAlone_process hscript hstate hfunction hcall]
    refine runAlone_takeResult_false.trans ?_
    rw [World.luaState_withLuaState, World.withLuaState_withLuaState]
    rfl

/-- **A value** that has a text is returned as that, and no other is. -/
theorem runAlone_process_ok
    (hfunction : (w.luaState luaScript).globals functionName = .function address) {value : LuaValue}
    (hcall : runAlone (interpreter.call luaScript address (arguments message.frameId canFrameData))
      (w.calling luaScript functionName message.frameId canFrameData) = (.ok value, w₁)) :
    ∃ state : LuaState, state.stack = (w.luaState luaScript).stack ∧
      runAlone (process interpreter functionName message canFrameData) w =
        (textOrError ((w.luaState luaScript).format.textOf value), w₁.withLuaState luaScript state) := by
  obtain ⟨hstack, -, hformat⟩ := called_spec hcall value
  rw [← hformat, runAlone_process hscript hstate hfunction hcall]
  have hon : ((w₁.withLuaState luaScript ((w₁.luaState luaScript).called 2 value)).luaState luaScript).stack =
      value :: (w.luaState luaScript).stack := by
    rw [World.luaState_withLuaState, hstack]
  obtain ⟨state, hrest, hrun⟩ := runAlone_takeResult_true hon
  refine ⟨state, hrest, hrun.trans ?_⟩
  rw [World.luaState_withLuaState, World.withLuaState_withLuaState]

end Script

end Runs

end EerieLeap.Canbus
