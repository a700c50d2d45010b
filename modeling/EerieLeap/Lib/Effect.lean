import Mathlib.Data.List.Basic
import Mathlib.Tactic.Common

/-!
# State, exceptions and reading loops

Programs that read from a state and may raise are written in `Eff σ ε`; the state an exception
leaves is kept. `exec` runs them, and the `exec_` lemmas compute a run step by step.

A `Source` is a program that hands out one value after another until it hands out none, and takes
something off the state for each. `Source.drain` is what it hands out, how it ended and the state it
left; `Source.loop` is the loop of a program around it (`while x := next(): body`).

* `loop_eq_drain` : when the body never raises, the loop sees what `drain` says and the body's
  own state is the fold of the body over it;
* `drain_eq_of_stop`, `drain_cons`, `drain_flatMap_append` : computing `drain` over encoded values;
* `not_next_forever` : no source hands out values forever;
* `drain_decomposes` : a source that only hands out decodings leaves a tail of its input that it
  stops on;
* `drain_append` : more input does not change what was handed out before, it is read behind the tail.
-/

namespace EerieLeap.Lib.Effect

variable {σ ι ο ε α β : Type}

/-- Programs over a state `σ` that return a value or raise an `ε`. -/
abbrev Eff (σ ε α : Type) := ExceptT ε (StateM σ) α

/-- The run of a program from a state: what it returned or raised, and the state it left. -/
def exec (x : Eff σ ε α) (s : σ) : Except ε α × σ := x.run.run s

@[simp] theorem exec_pure (a : α) (s : σ) : exec (pure a : Eff σ ε α) s = (.ok a, s) := rfl

theorem exec_bind (x : Eff σ ε α) (f : α → Eff σ ε β) (s : σ) :
    exec (x >>= f) s = match exec x s with
      | (.ok a, s') => exec (f a) s'
      | (.error e, s') => (.error e, s') := by
  unfold exec
  rw [ExceptT.run_bind, StateT.run_bind]
  rcases h : x.run.run s with ⟨_ | _, s'⟩ <;> rfl

theorem exec_bind_ok {x : Eff σ ε α} {f : α → Eff σ ε β} {s s' : σ} {a : α}
    (h : exec x s = (.ok a, s')) : exec (x >>= f) s = exec (f a) s' := by
  rw [exec_bind, h]

@[simp] theorem exec_liftM (x : Except ε α) (s : σ) : exec (liftM x : Eff σ ε α) s = (x, s) := by
  cases x <;> rfl

theorem exec_liftM_bind (x : Except ε α) (f : α → Eff σ ε β) (s : σ) :
    exec (liftM x >>= f) s = match x with
      | .ok a => exec (f a) s
      | .error e => (.error e, s) := by
  cases x <;> rfl

theorem exec_ite (c : Prop) [Decidable c] (x y : Eff σ ε α) (s : σ) :
    exec (if c then x else y) s = if c then exec x s else exec y s := by
  split <;> rfl

/-! ## Programs on one half of the state -/

/-- A program on the first half of a state. -/
def onFst (x : Eff ι ε α) : Eff (ι × ο) ε α :=
  ExceptT.mk fun s => ((exec x s.1).1, ((exec x s.1).2, s.2))

/-- A program on the second half of a state. -/
def onSnd (x : Eff ο ε α) : Eff (ι × ο) ε α :=
  ExceptT.mk fun s => ((exec x s.2).1, (s.1, (exec x s.2).2))

@[simp] theorem exec_onFst (x : Eff ι ε α) (s : ι × ο) :
    exec (onFst x) s = ((exec x s.1).1, ((exec x s.1).2, s.2)) := rfl

@[simp] theorem exec_onSnd (x : Eff ο ε α) (s : ι × ο) :
    exec (onSnd x) s = ((exec x s.2).1, (s.1, (exec x s.2).2)) := rfl

/-! ## Sources and loops -/

/-- A program that hands out values until it hands out none, taking something off the state for
each value. -/
structure Source (ι ε α : Type) where
  next : Eff ι ε (Option α)
  size : ι → ℕ
  size_lt : ∀ {i a i'}, exec next i = (.ok (some a), i') → size i' < size i

namespace Source

variable (S : Source ι ε α)

/-- No source hands out values forever. -/
theorem not_next_forever (t : ℕ → ι) : ¬ ∀ k, ∃ a, exec S.next (t k) = (.ok (some a), t (k + 1)) := by
  intro hall
  have hdec : ∀ k, S.size (t k) + k ≤ S.size (t 0) := by
    intro k
    induction k with
    | zero => exact Nat.le_refl _
    | succ k ih =>
      obtain ⟨a, hnext⟩ := hall k
      have := S.size_lt hnext
      omega
  have := hdec (S.size (t 0) + 1)
  omega

/-- The values a source hands out, how it ended, and the state it left. -/
def drain (i : ι) : List α × Except ε Unit × ι :=
  match h : exec S.next i with
  | (.ok none, i') => ([], .ok (), i')
  | (.error e, i') => ([], .error e, i')
  | (.ok (some a), i') =>
    have := S.size_lt h
    (a :: (drain i').1, (drain i').2)
termination_by S.size i

/-- The loop `while a := next(): b = body(b, a)` over a source, where the body works on a state of
its own; it returns the values the loop variable has taken. -/
def loopFrom (body : β → α → Eff ο ε β) (b : β) (i : ι) (o : ο) : Except ε (List α) × ι × ο :=
  match h : exec S.next i with
  | (.ok none, i') => (.ok [], i', o)
  | (.error e, i') => (.error e, i', o)
  | (.ok (some a), i') =>
    have := S.size_lt h
    match exec (body b a) o with
    | (.error e, o') => (.error e, i', o')
    | (.ok b', o') =>
      match loopFrom body b' i' o' with
      | (.ok as, t) => (.ok (a :: as), t)
      | (.error e, t) => (.error e, t)
termination_by S.size i

/-- The loop as a program on the two states. -/
def loop (body : β → α → Eff ο ε β) (b : β) : Eff (ι × ο) ε (List α) :=
  ExceptT.mk fun s => S.loopFrom body b s.1 s.2

@[simp] theorem exec_loop (body : β → α → Eff ο ε β) (b : β) (s : ι × ο) :
    exec (S.loop body b) s = S.loopFrom body b s.1 s.2 := rfl

/-! ### Computing `drain` -/

variable {S}

theorem drain_of_none {i i' : ι} (h : exec S.next i = (.ok none, i')) :
    S.drain i = ([], .ok (), i') := by
  rw [drain]
  split
  all_goals rename_i h'
  all_goals rw [h] at h'
  all_goals cases h'
  rfl

theorem drain_of_error {i i' : ι} {e : ε} (h : exec S.next i = (.error e, i')) :
    S.drain i = ([], .error e, i') := by
  rw [drain]
  split
  all_goals rename_i h'
  all_goals rw [h] at h'
  all_goals cases h'
  rfl

theorem drain_of_some {i i' : ι} {a : α} (h : exec S.next i = (.ok (some a), i')) :
    S.drain i = (a :: (S.drain i').1, (S.drain i').2) := by
  rw [drain]
  split
  all_goals rename_i h'
  all_goals rw [h] at h'
  all_goals cases h'
  rfl

/-- A source that stops at once hands out nothing, and ends as its program does. -/
theorem drain_eq_of_stop {i : ι} (h : ∀ a i', exec S.next i ≠ (.ok (some a), i')) :
    S.drain i = ([], (exec S.next i).1.map fun _ => (), (exec S.next i).2) := by
  rcases hx : exec S.next i with ⟨e | a | a, i'⟩
  · exact drain_of_error hx
  · exact drain_of_none hx
  · exact absurd hx (h a i')

/-! ### Encoded values -/

section Encoded

variable {τ : Type} {S : Source (List τ) ε α} {enc : α → List τ}

/-- Values that the source decodes are handed out in order. -/
theorem drain_flatMap_append {as : List α} (tail : List τ)
    (h : ∀ a ∈ as, ∀ t, exec S.next (enc a ++ t) = (.ok (some a), t)) :
    S.drain (as.flatMap enc ++ tail) = (as ++ (S.drain tail).1, (S.drain tail).2) := by
  induction as with
  | nil => simp
  | cons a as ih =>
    have ih := ih fun x hx => h x (List.mem_cons_of_mem _ hx)
    rw [List.flatMap_cons, List.append_assoc, drain_of_some (h a (List.mem_cons_self ..) _), ih]
    rfl

/-- **A decoding source leaves a tail it stops on**: if every value handed out is a decoding of what
was taken off the input, the input is the encoding of the values handed out and a tail, and the
source ends on the tail as its program does. -/
theorem drain_decomposes {P : α → Prop}
    (h : ∀ i a i', exec S.next i = (.ok (some a), i') → i = enc a ++ i' ∧ P a) (i : List τ) :
    ∃ tail, i = (S.drain i).1.flatMap enc ++ tail ∧ (∀ a ∈ (S.drain i).1, P a) ∧
      (∀ a i', exec S.next tail ≠ (.ok (some a), i')) ∧
      (S.drain i).2 = ((exec S.next tail).1.map fun _ => (), (exec S.next tail).2) := by
  induction hn : S.size i using Nat.strongRecOn generalizing i with
  | ind n ih =>
    subst hn
    by_cases hstop : ∀ a i', exec S.next i ≠ (.ok (some a), i')
    · exact ⟨i, by rw [drain_eq_of_stop hstop]; rfl, by rw [drain_eq_of_stop hstop]; simp, hstop,
        by rw [drain_eq_of_stop hstop]⟩
    · push Not at hstop
      obtain ⟨a, i', hnext⟩ := hstop
      obtain ⟨tail, h1, h2, h3, h4⟩ := ih _ (S.size_lt hnext) i' rfl
      obtain ⟨henc, hP⟩ := h i a i' hnext
      rw [drain_of_some hnext]
      refine ⟨tail, ?_, ?_, h3, h4⟩
      · rw [List.flatMap_cons, List.append_assoc, ← h1]
        exact henc
      · intro x hx
        rcases List.mem_cons.mp hx with rfl | hx
        · exact hP
        · exact h2 x hx

/-- **More input** behind the input is read behind the tail that was left. -/
theorem drain_append {P : α → Prop}
    (h : ∀ i a i', exec S.next i = (.ok (some a), i') → i = enc a ++ i' ∧ P a)
    (hdecodes : ∀ a, P a → ∀ t, exec S.next (enc a ++ t) = (.ok (some a), t)) (i t : List τ) :
    ∃ tail, i = (S.drain i).1.flatMap enc ++ tail ∧
      S.drain (i ++ t) = ((S.drain i).1 ++ (S.drain (tail ++ t)).1, (S.drain (tail ++ t)).2) := by
  obtain ⟨tail, hi, hP, -⟩ := drain_decomposes h i
  refine ⟨tail, hi, ?_⟩
  conv_lhs => rw [hi, List.append_assoc]
  exact drain_flatMap_append (tail ++ t) fun a ha => hdecodes a (hP a ha)

end Encoded

/-! ### The loop -/

section Loop

variable {body : β → α → Eff ο ε β}

/-- The body's state after a list of values, when the body does not raise. -/
def foldBody (upd : β → α → ο → β × ο) : β → List α → ο → ο
  | _, [], o => o
  | b, a :: as, o => foldBody upd (upd b a o).1 as (upd b a o).2

/-- **The loop sees what the source hands out**: when the body raises on none of the values, the
loop returns them and leaves the fold of the body. -/
theorem loop_eq_drain {upd : β → α → ο → β × ο} {P : α → Prop}
    (hP : ∀ i a i', exec S.next i = (.ok (some a), i') → P a)
    (hbody : ∀ a, P a → ∀ b o, exec (body b a) o = (.ok (upd b a o).1, (upd b a o).2))
    (b : β) (i : ι) (o : ο) :
    S.loopFrom body b i o =
      ((S.drain i).2.1.map fun _ => (S.drain i).1, (S.drain i).2.2, foldBody upd b (S.drain i).1 o) := by
  induction hn : S.size i using Nat.strongRecOn generalizing i b o with
  | ind n ih =>
    subst hn
    rw [loopFrom]
    split
    · rename_i i' h
      rw [drain_of_none h]
      rfl
    · rename_i e i' h
      rw [drain_of_error h]
      rfl
    · rename_i a i' h
      rw [hbody a (hP _ _ _ h), drain_of_some h]
      simp only []
      rw [ih _ (S.size_lt h) _ _ _ rfl]
      rcases hd : (S.drain i').2.1 with e | u <;> simp [Except.map, foldBody]

end Loop

end Source

end EerieLeap.Lib.Effect
