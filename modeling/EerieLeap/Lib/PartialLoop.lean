import Mathlib.Data.List.Basic

/-!
# Loops with steps that may be undefined

A loop over a list whose turns may be undefined is undefined as soon as one turn is. Some loops add to what they
have put out; others carry a pen, too, which a turn puts to the next point or lifts.

* `mapM_some`, `foldlM_append`, `foldlM_append_none` : loops that put out;
* `foldlM_pen` : what a loop has put out whose pen is never lifted.
-/

namespace EerieLeap.Lib.PartialLoop

variable {ι π β : Type}

/-! ## Loops that put out -/

theorem mapM_some {f : ι → Option β} {P : β → Prop} {l : List ι} (h : ∀ i ∈ l, ∃ b, f i = some b ∧ P b) :
    ∃ bs, l.mapM f = some bs ∧ (∀ b ∈ bs, P b) ∧ ∀ i ∈ l, ∀ b, f i = some b → b ∈ bs := by
  induction l with
  | nil => exact ⟨[], rfl, by simp, by simp⟩
  | cons i l ih =>
    obtain ⟨b, hb, hP⟩ := h i List.mem_cons_self
    obtain ⟨bs, hbs, hall, hmem⟩ := ih fun x hx => h x (List.mem_cons_of_mem i hx)
    refine ⟨b :: bs, ?_, ?_, ?_⟩
    · simp [hb, hbs]
    · exact List.forall_mem_cons.mpr ⟨hP, hall⟩
    · intro x hx y hy
      rcases List.mem_cons.mp hx with rfl | hx
      · rw [hb] at hy
        exact Option.some.inj hy ▸ List.mem_cons_self
      · exact List.mem_cons_of_mem b (hmem x hx y hy)

theorem foldlM_append {f : ι → Option (List β)} {g : ι → List β} {l : List ι}
    (h : ∀ i ∈ l, f i = some (g i)) (out : List β) :
    l.foldlM (fun out i => do
      let more ← f i
      return out ++ more) out = some (out ++ l.flatMap g) := by
  induction l generalizing out with
  | nil => simp
  | cons i l ih =>
    have hi := h i List.mem_cons_self
    have ih := ih (fun j hj => h j (List.mem_cons_of_mem i hj)) (out ++ g i)
    rw [List.foldlM_cons, hi]
    simpa using ih

theorem foldlM_append_none {f : ι → Option (List β)} {l : List ι} (h : ∃ i ∈ l, f i = none) (out : List β) :
    l.foldlM (fun out i => do
      let more ← f i
      return out ++ more) out = none := by
  induction l generalizing out with
  | nil => simp at h
  | cons i l ih =>
    rw [List.foldlM_cons]
    cases hi : f i with
    | none => rfl
    | some more =>
      obtain ⟨j, hj, hnone⟩ := h
      rcases List.mem_cons.mp hj with rfl | hj
      · simp [hi] at hnone
      · exact ih ⟨j, hj, hnone⟩ (out ++ more)

/-! ## Loops with a pen -/

/-- Where the pen is, if it is not lifted, and what has been put out. -/
structure Pen (π β : Type) where
  point : Option π
  drawn : List β

/-- Where the pen is before turn `i`, when turn `j` puts it to `v j`. -/
def before (v : ℕ → π) : ℕ → Option π
  | 0 => none
  | i + 1 => some (v i)

/-- **A pen that is never lifted**. -/
theorem foldlM_pen {turn : Pen π β → ℕ → Option (Pen π β)} {n : ℕ} {v : ℕ → π} {draws : ℕ → List β}
    (hturn : ∀ i < n, ∀ drawn, turn ⟨before v i, drawn⟩ i = some ⟨some (v i), drawn ++ draws i⟩) :
    (List.range n).foldlM turn ⟨none, []⟩ = some ⟨before v n, (List.range n).flatMap draws⟩ := by
  induction n with
  | zero => rfl
  | succ n ih =>
    have ih := ih fun i hi => hturn i (by omega)
    have hlast := hturn n (by omega) ((List.range n).flatMap draws)
    rw [List.range_succ, List.foldlM_append, ih, List.flatMap_append]
    simp only [List.foldlM_cons, List.foldlM_nil, Option.bind_eq_bind, Option.bind_some, hlast]
    simp [before]

end EerieLeap.Lib.PartialLoop
