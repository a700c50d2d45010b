import EerieLeap.Canbus.ScriptResults
import Mathlib.Order.Nat

/-!
# The Lua stack of a script

`Process` leaves the stack as high as it was, however it ends, and needs three slots in between.

* `throughout_process` : the height at every moment of a call;
* `height_process` : the height after a call;
* `height_of_calls` : both, after any number of calls.
-/

namespace EerieLeap.Canbus

open EerieLeap.Lib EerieLeap.Lib.Proc EerieLeap.Lib.Lua

variable {interpreter : Interpreter} {functionName : String} {message : CanMessageConfiguration}
  {luaScript : LuaScript} {canFrameData : List UInt8} {w w' : World LuaStates} {n : ℕ}

/-- The height of the stack of a script. -/
def World.height (w : World LuaStates) (luaScript : LuaScript) : ℕ := (w.luaState luaScript).height

/-- The stack is not higher than `n`. -/
def Within (luaScript : LuaScript) (n : ℕ) (w : World LuaStates) : Prop := w.height luaScript ≤ n

theorem height_withLuaState (state : LuaState) :
    (w.withLuaState luaScript state).height luaScript = state.height := by
  unfold World.height
  rw [World.luaState_withLuaState]

/-! ## At every moment of a call -/

theorem throughout_onStack_bind {I : World LuaStates → Prop} {β : Type} (f : LuaState → LuaState)
    (g : Unit → Script β) : (onStack luaScript f >>= g).Throughout I w ↔
      I w ∧ (g ()).Throughout I (w.withLuaState luaScript (f (w.luaState luaScript))) := Iff.rfl

theorem throughout_onState_bind {I : World LuaStates → Prop} {α β : Type} (f : LuaState → α × LuaState)
    (g : α → Script β) : (onState luaScript f >>= g).Throughout I w ↔
      I w ∧ (g (f (w.luaState luaScript)).1).Throughout I
        (w.withLuaState luaScript (f (w.luaState luaScript)).2) := Iff.rfl

theorem height_pop_le (state : LuaState) (k : ℕ) : (state.pop k).height ≤ state.height := by
  unfold LuaState.height
  rw [LuaState.pop_stack, List.length_drop]
  omega

/-- What is left of a call after `lua_pcall` pushes nothing. -/
theorem throughout_takeResult (ok : Bool) (h : Within luaScript n w) :
    (takeResult luaScript ok).Throughout (Within luaScript n) w := by
  have hpop : ∀ {w : World LuaStates}, Within luaScript n w →
      Within luaScript n (w.withLuaState luaScript ((w.luaState luaScript).pop 1)) := by
    intro w hw
    unfold Within
    rw [height_withLuaState]
    exact le_trans (height_pop_le _ 1) hw
  have htext : ∀ {w : World LuaStates}, Within luaScript n w →
      Within luaScript n (w.withLuaState luaScript (w.luaState luaScript).toLString.2) := by
    intro w hw
    unfold Within
    rw [height_withLuaState, LuaState.toLString_height]
    exact hw
  have hisString : Within luaScript n (w.withLuaState luaScript (w.luaState luaScript).isString.2) := by
    unfold Within
    rw [height_withLuaState]
    exact h
  unfold takeResult
  split
  · rw [throughout_onStack_bind, throughout_onState_bind]
    exact ⟨h, hpop h, htext (hpop h)⟩
  · rw [throughout_onState_bind]
    refine ⟨h, ?_⟩
    split
    · rw [throughout_onStack_bind]
      exact ⟨hisString, hpop hisString⟩
    · rw [throughout_onState_bind, throughout_onStack_bind]
      exact ⟨hisString, htext hisString, hpop (htext hisString)⟩

/-- `lua_pcall` leaves a value in place of three. -/
theorem throughout_pcall (h : Within luaScript n w) (hpos : 0 < w.height luaScript) :
    (pcall interpreter luaScript 2).Throughout (Within luaScript n) w := by
  -- the function that is called keeps the height
  have hcall : (callBelow interpreter luaScript 2 (w.luaState luaScript).stack).Throughout
      (fun w' => w'.height luaScript = w.height luaScript) w := by
    refine (changes_callBelow _ _ _ _).throughout (fun w₁ w₂ hkept hw₁ => ?_) rfl
    exact (congrArg List.length (hkept luaScript).1).trans hw₁
  unfold pcall
  rw [throughout_read_bind, throughout_bind, throughout_attempt]
  refine ⟨h, hcall.mono fun w' hw' => hw'.le.trans h, fun outcome w' hrun => ?_⟩
  rw [runAlone_attempt] at hrun
  obtain rfl := (Prod.mk.inj hrun).2
  have hheight := hcall.last
  generalize ((callBelow interpreter luaScript 2 (w.luaState luaScript).stack).runAlone w).2 = w' at hheight ⊢
  refine (throughout_onStack_bind _ _).mpr ⟨hheight.le.trans h, ?_⟩
  show Within luaScript n _
  unfold Within
  rw [height_withLuaState]
  have hdrop : ((w'.luaState luaScript).called 2 (valueLeft outcome)).height =
      w'.height luaScript - 3 + 1 := congrArg (· + 1) List.length_drop
  have hle : w.height luaScript ≤ n := h
  omega

/-- **At no moment** of a call is the stack more than three slots higher than before it. -/
theorem throughout_process (hscript : message.luaScript = some luaScript) :
    (process interpreter functionName message canFrameData).Throughout
      (Within luaScript (w.height luaScript + 3)) w := by
  have hstart : Within luaScript (w.height luaScript + 3) w := Nat.le_add_right _ 3
  have hheight : ∀ state : LuaState, state.height ≤ w.height luaScript + 3 →
      Within luaScript (w.height luaScript + 3) (w.withLuaState luaScript state) := by
    intro state hstate
    unfold Within
    rwa [height_withLuaState]
  unfold process
  rw [hscript]
  dsimp only
  rw [throughout_read_bind]
  refine ⟨hstart, ?_⟩
  split
  · exact hstart
  · rw [throughout_onStack_bind, throughout_onState_bind]
    simp only [World.luaState_withLuaState, World.withLuaState_withLuaState]
    have hfound : ((w.luaState luaScript).getGlobal functionName).height ≤ w.height luaScript + 3 :=
      Nat.add_le_add_left (by decide : 1 ≤ 3) _
    refine ⟨hstart, hheight _ hfound, ?_⟩
    split
    · refine (throughout_onStack_bind _ _).mpr ⟨hheight _ hfound, ?_⟩
      simp only [World.luaState_withLuaState, World.withLuaState_withLuaState]
      exact hheight _ (le_trans (height_pop_le _ 1) hfound)
    · unfold callFunction
      rw [throughout_onStack_bind, throughout_onStack_bind]
      simp only [World.luaState_withLuaState, World.withLuaState_withLuaState]
      refine ⟨hheight _ hfound, hheight _ (Nat.add_le_add_left (by decide : 2 ≤ 3) _), ?_⟩
      -- the function and its arguments are the three slots
      have hpushed : ((((w.luaState luaScript).getGlobal functionName).isFunction.2.pushInteger
          message.frameId.toNat).pushLString canFrameData).height = w.height luaScript + 3 := rfl
      generalize (((w.luaState luaScript).getGlobal functionName).isFunction.2.pushInteger
        message.frameId.toNat).pushLString canFrameData = pushed at hpushed ⊢
      have hpcall : (pcall interpreter luaScript 2).Throughout (Within luaScript (w.height luaScript + 3))
          (w.withLuaState luaScript pushed) := by
        apply throughout_pcall (hheight pushed hpushed.le)
        rw [height_withLuaState, hpushed]
        exact Nat.succ_pos _
      refine (throughout_bind _ _ _).mpr ⟨hpcall, fun ok w' hrun => throughout_takeResult ok ?_⟩
      have hlast := hpcall.last
      rwa [hrun] at hlast

/-! ## After a call -/

theorem height_of_stack_eq {state : LuaState} (h : state.stack = (w.luaState luaScript).stack) :
    (w'.withLuaState luaScript state).height luaScript = w.height luaScript := by
  rw [height_withLuaState]
  exact congrArg List.length h

/-- **After a call** the stack is as high as before it. -/
theorem height_process (hscript : message.luaScript = some luaScript) :
    (runAlone (process interpreter functionName message canFrameData) w).2.height luaScript =
      w.height luaScript := by
  cases hstate : w.lua.hasState luaScript with
  | false =>
    rw [runAlone_process_off]
    intro luaScript' hscript'
    rw [hscript] at hscript'
    obtain rfl := Option.some.inj hscript'
    exact hstate
  | true =>
    cases hisFunction : ((w.luaState luaScript).getGlobal functionName).isFunction.1 with
    | false =>
      obtain ⟨state, hstack, hrun⟩ : ∃ state : LuaState, state.stack = (w.luaState luaScript).stack ∧
          runAlone (process interpreter functionName message canFrameData) w =
            (.ok [], w.withLuaState luaScript state) := runAlone_process_missing hscript hstate hisFunction
      rw [hrun]
      exact height_of_stack_eq hstack
    | true =>
      obtain ⟨address, rest, hfunction⟩ := LuaState.isFunction_eq_true_iff.mp hisFunction
      obtain ⟨hfunction, -⟩ := List.cons.inj hfunction
      rcases hcall : runAlone (interpreter.call luaScript address (arguments message.frameId canFrameData))
        (w.calling luaScript functionName message.frameId canFrameData) with ⟨outcome, w₁⟩
      cases outcome with
      | error errorObject =>
        obtain ⟨state, hstack, -, hrun⟩ := runAlone_process_error hscript hstate hfunction hcall
        rw [hrun, height_withLuaState, LuaState.toLString_height]
        exact congrArg List.length hstack
      | ok value =>
        obtain ⟨state, hstack, hrun⟩ := runAlone_process_ok hscript hstate hfunction hcall
        rw [hrun]
        exact height_of_stack_eq hstack

/-! ## Any number of calls -/

/-- A call of `Process` on the script, or a change of the rest of the world. -/
inductive CallStep (luaScript : LuaScript) : World LuaStates → World LuaStates → Prop
  | call (interpreter : Interpreter) (functionName : String) {message : CanMessageConfiguration}
      (canFrameData : List UInt8) (w : World LuaStates) (hscript : message.luaScript = some luaScript) :
      CallStep luaScript w (runAlone (process interpreter functionName message canFrameData) w).2
  | other {w w' : World LuaStates} (h : w'.height luaScript = w.height luaScript) : CallStep luaScript w w'

/-- **The stack never leaks**: after any number of calls it is as high as before them, and at no moment of
one more is it higher by more than three. -/
theorem height_of_calls (h : Relation.ReflTransGen (CallStep luaScript) w w') :
    w'.height luaScript = w.height luaScript ∧
      ∀ (interpreter : Interpreter) (functionName : String) (message : CanMessageConfiguration)
        (canFrameData : List UInt8), message.luaScript = some luaScript →
        (process interpreter functionName message canFrameData).Throughout
          (fun w'' => w''.height luaScript ≤ w.height luaScript + 3) w' := by
  have hheight : w'.height luaScript = w.height luaScript := by
    induction h with
    | refl => rfl
    | tail _ hstep ih =>
      cases hstep with
      | call interpreter functionName canFrameData _ hscript => exact (height_process hscript).trans ih
      | other h => exact h.trans ih
  refine ⟨hheight, fun interpreter functionName message canFrameData hscript => ?_⟩
  rw [← hheight]
  exact throughout_process hscript

/-- A call that fails, on an empty stack. -/
theorem boom_keeps_height : (runAlone (process (raising (.string "boom".toUTF8.toList)) "process_can_frame"
    scriptTask.messageConfiguration [1]) scriptWorld).2.height ⟨0⟩ = 0 :=
  (height_of_calls (.single (.call _ _ _ _ rfl))).1

end EerieLeap.Canbus
