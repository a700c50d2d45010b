import Mathlib.Data.List.Forall2

/-!
# Simulation of what answers events

A system answers each event it gets and moves to another state, as `step` says. One system simulates
another when related states answer an event alike and stay related; then they answer every list of events
alike.

* `next`, `answers` : the state after an event, and the answers to a list of events;
* `Simulates.foldl`, `Simulates.answers` : the states after a list of events, and the answers to it.
-/

namespace EerieLeap.Lib.Simulation

variable {σ τ ι ο ο' : Type}

/-- The state after an event. -/
def next (step : σ → ι → ο × σ) (s : σ) (e : ι) : σ := (step s e).2

/-- The answers to the events, one after the other. -/
def answers (step : σ → ι → ο × σ) : σ → List ι → List ο
  | _, [] => []
  | s, e :: events => (step s e).1 :: answers step (next step s e) events

/-- Related states answer alike, and stay related. -/
def Simulates (step : σ → ι → ο × σ) (step' : τ → ι → ο' × τ) (R : σ → τ → Prop) (Q : ο → ο' → Prop) : Prop :=
  ∀ s t e, R s t → Q (step s e).1 (step' t e).1 ∧ R (step s e).2 (step' t e).2

section Run

variable {step : σ → ι → ο × σ} {step' : τ → ι → ο' × τ} {R : σ → τ → Prop} {Q : ο → ο' → Prop} {s : σ} {t : τ}

/-- **The states** after a list of events. -/
theorem Simulates.foldl (h : Simulates step step' R Q) (hR : R s t) (events : List ι) :
    R (events.foldl (next step) s) (events.foldl (next step') t) := by
  induction events generalizing s t with
  | nil => exact hR
  | cons e events ih => exact ih (h s t e hR).2

/-- **The answers** to a list of events. -/
theorem Simulates.answers (h : Simulates step step' R Q) (hR : R s t) (events : List ι) :
    List.Forall₂ Q (answers step s events) (Simulation.answers step' t events) := by
  induction events generalizing s t with
  | nil => exact .nil
  | cons e events ih =>
    obtain ⟨hanswer, hnext⟩ := h s t e hR
    exact .cons hanswer (ih hnext)

end Run

end EerieLeap.Lib.Simulation
