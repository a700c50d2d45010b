import Mathlib.Data.List.Basic
import Mathlib.Tactic.Common

/-!
# Histories

A system is moved from state to state by events, as `step` says; its run over a list of events is the
fold of `step`.

* `AtEach` : a property of every event of a history and of the events before it;
* `foldl_invariant` : what every event keeps is kept by a run;
* `last`, `foldl_eq_last` : a part of the state that only some events set is what the last of them has
  set it to.
-/

namespace EerieLeap.Lib.History

variable {σ ε β : Type}

/-- `P before e` for every event `e` of the history. -/
def AtEach (P : List ε → ε → Prop) (events : List ε) : Prop :=
  ∀ before e after, events = before ++ e :: after → P before e

theorem atEach_congr {P Q : List ε → ε → Prop} (h : ∀ before e, P before e ↔ Q before e)
    (events : List ε) : AtEach P events ↔ AtEach Q events :=
  forall₄_congr fun before e _ _ => h before e

theorem atEach_nil (P : List ε → ε → Prop) : AtEach P [] := by
  intro before e after heq
  cases before <;> cases heq

theorem atEach_cons (P : List ε → ε → Prop) (e : ε) (events : List ε) :
    AtEach P (e :: events) ↔ P [] e ∧ AtEach (fun before => P (e :: before)) events := by
  constructor
  · exact fun h => ⟨h [] e events rfl, fun before e' after heq => h (e :: before) e' after (by rw [heq]; rfl)⟩
  · rintro ⟨hfirst, hrest⟩ (_ | ⟨e₀, before⟩) e' after heq
    · obtain ⟨rfl, -⟩ := List.cons.inj heq
      exact hfirst
    · obtain ⟨rfl, rfl⟩ := List.cons.inj heq
      exact hrest before e' after rfl

section Run

variable {step : σ → ε → σ} {I : σ → Prop}

theorem foldl_invariant (hI : ∀ s e, I s → I (step s e)) {s : σ} (hs : I s) (events : List ε) :
    I (events.foldl step s) := by
  induction events generalizing s with
  | nil => exact hs
  | cons e events ih => exact ih (hI s e hs)

/-- What is noted last in a run, where `note` says what is noted of an event. -/
def last (step : σ → ε → σ) (note : σ → ε → Option β) : σ → List ε → Option β
  | _, [] => none
  | s, e :: events => (last step note (step s e) events).or (note s e)

/-- **The last note**: a part of the state that an event sets to what is noted of it, and leaves alone
where nothing is. -/
theorem foldl_eq_last {note : σ → ε → Option β} {g : σ → β} (hI : ∀ s e, I s → I (step s e))
    (hg : ∀ s e, I s → g (step s e) = (note s e).getD (g s)) {s : σ} (hs : I s)
    (events : List ε) : g (events.foldl step s) = (last step note s events).getD (g s) := by
  induction events generalizing s with
  | nil => rfl
  | cons e events ih =>
    rw [List.foldl_cons, ih (hI s e hs), hg s e hs]
    show _ = ((last step note (step s e) events).or (note s e)).getD (g s)
    cases last step note (step s e) events <;> rfl

end Run

end EerieLeap.Lib.History
