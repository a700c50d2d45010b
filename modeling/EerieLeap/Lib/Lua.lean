import Mathlib.Data.Int.Notation
import Mathlib.Tactic.Common

/-!
# The Lua stack

The part of Lua's C API that a host needs to call a function of a script with arguments and to read what
it returns, as functions on a `LuaState`. The stack is a list, its top first. Which slots the host has
read through the API is noted, so that one can say which it had no business with.

* `LuaState.isString`, `LuaState.toLString` : reading the top as text, which turns a number into a string
  where it stands;
* `isString_eq_isSome`, `toLString_cons` : what they accept, and the text they read;
* `toLString_drop`, `toLString_reads`, `toLString_height` : what they leave of the rest.
-/

namespace EerieLeap.Lib.Lua

inductive LuaNumber
  | integer (n : ℤ)
  | float (bits : UInt64)
deriving DecidableEq

/-- Functions and the values that are none of the other kinds are known by their address. -/
inductive LuaValue
  | nil
  | boolean (b : Bool)
  | number (n : LuaNumber)
  | string (bytes : List UInt8)
  | function (address : ℕ)
  | other (address : ℕ)
deriving DecidableEq

/-- The decimal text of numbers, which is never empty. -/
structure NumberFormat where
  text : LuaNumber → List UInt8
  text_ne_nil : ∀ n, text n ≠ []

/-- `reads` are the slots that were read, counted from the bottom; `0` is read where there is no slot. -/
structure LuaState where
  format : NumberFormat
  globals : String → LuaValue
  stack : List LuaValue
  reads : List ℕ

/-- The text of a string or a number. -/
def NumberFormat.textOf (format : NumberFormat) : LuaValue → Option (List UInt8)
  | .string bytes => some bytes
  | .number n => some (format.text n)
  | _ => none

namespace LuaState

variable (state : LuaState)

/-- `lua_gettop`. -/
def height : ℕ := state.stack.length

def push (value : LuaValue) : LuaState := { state with stack := value :: state.stack }

/-- `lua_pop`. -/
def pop (n : ℕ) : LuaState := { state with stack := state.stack.drop n }

/-- `lua_getglobal`. -/
def getGlobal (name : String) : LuaState := state.push (state.globals name)

/-- `lua_pushinteger`. -/
def pushInteger (n : ℤ) : LuaState := state.push (.number (.integer n))

/-- `lua_pushlstring`. -/
def pushLString (bytes : List UInt8) : LuaState := state.push (.string bytes)

/-- The slot on the top is read. -/
def readTop : LuaState := { state with reads := state.reads ++ [state.height] }

/-- `lua_isfunction(-1)`. -/
def isFunction : Bool × LuaState :=
  (match state.stack with
    | .function _ :: _ => true
    | _ => false, state.readTop)

/-- `lua_isstring(-1)`, which is also true of a number. -/
def isString : Bool × LuaState :=
  (match state.stack with
    | .string _ :: _ => true
    | .number _ :: _ => true
    | _ => false, state.readTop)

/-- `lua_tolstring(-1)`: null where the top is not a string or a number, and where there is none; a number
becomes a string where it stands. -/
def toLString : Option (List UInt8) × LuaState :=
  match state.stack with
  | .string bytes :: _ => (some bytes, state.readTop)
  | .number n :: rest =>
    (some (state.format.text n),
      { state.readTop with stack := .string (state.format.text n) :: rest })
  | _ => (none, state.readTop)

/-- What `lua_pcall(nargs, 1)` leaves: one value in place of the function and its arguments, a result or an
error object. -/
def called (nargs : ℕ) (value : LuaValue) : LuaState := (state.pop (nargs + 1)).push value

/-! ## What the functions leave -/

@[simp] theorem pop_stack (n : ℕ) : (state.pop n).stack = state.stack.drop n := rfl

@[simp] theorem readTop_stack : state.readTop.stack = state.stack := rfl

variable {state}

theorem isFunction_eq_true_iff :
    state.isFunction.1 = true ↔ ∃ address rest, state.stack = .function address :: rest := by
  unfold isFunction
  split
  · rename_i address rest heq
    exact iff_of_true rfl ⟨address, rest, heq⟩
  · rename_i hnot
    refine iff_of_false Bool.false_ne_true ?_
    rintro ⟨address, rest, heq⟩
    exact hnot address rest heq

/-- What `lua_isstring` accepts is what `lua_tolstring` has a text for. -/
theorem isString_eq_isSome {value : LuaValue} {rest : List LuaValue} (h : state.stack = value :: rest) :
    state.isString.1 = (state.format.textOf value).isSome := by
  unfold isString
  rw [h]
  cases value <;> rfl

theorem toLString_cons {value : LuaValue} {rest : List LuaValue} (h : state.stack = value :: rest) :
    state.toLString.1 = state.format.textOf value := by
  unfold toLString
  rw [h]
  cases value <;> rfl

theorem toLString_nil (h : state.stack = []) : state.toLString = (none, state.readTop) := by
  unfold toLString
  rw [h]

theorem toLString_reads : state.toLString.2.reads = state.reads ++ [state.height] := by
  unfold toLString
  split <;> rfl

theorem toLString_drop : state.toLString.2.stack.drop 1 = state.stack.drop 1 := by
  unfold toLString
  split
  · rfl
  · rename_i heq
    rw [heq]
    rfl
  · rfl

theorem toLString_height : state.toLString.2.height = state.height := by
  unfold toLString height
  split
  · rfl
  · rename_i heq
    rw [heq]
    rfl
  · rfl

end LuaState

end EerieLeap.Lib.Lua
