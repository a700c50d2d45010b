import Mathlib.Logic.Relation
import Mathlib.Tactic.Common

/-!
# Programs that other threads interrupt

A `Proc σ ε α` is a program on a shared state, cut into its atomic accesses: between two of them other
threads may run. It returns an `α` or fails with an `ε`.

* `runAlone` is the run that nothing interrupts, and `Step` one access of a run that may be;
* `Throughout I` says that every state of the run alone meets `I`;
* `Changes G` says that every access changes the state as the relation `G` allows, `NeverFails` that it
  fails nowhere;
* `Uses K` says that every access is of a kind of `K`, which also says what it sees of the state;
* `Uses.alike` : in states whose difference no such access sees, a program does the same;
* `Ends R` is a run before each of whose accesses other threads make a change allowed by `R`; the `ends_`
  lemmas take it apart, and `Ends.keeps` says what both sides together keep;
* `wp R Q E` is the weakest precondition under interference: whatever changes allowed by `R` other
  threads make before each access, the program ends in `Q` or fails in `E`;
* `wp_iff_ends` : in terms of the runs that others interrupt;
* `wp_step`, `wp_of_rely` : it is kept by the program's own steps and by those of the others.
-/

namespace EerieLeap.Lib

/-- Programs on a shared state, cut into atomic accesses. An access changes the state by `act`, and
the program goes on with what it has seen there. -/
inductive Proc (σ ε α : Type) : Type
  | done (a : α)
  | fail (e : ε)
  | access (act : σ → σ) (next : σ → Proc σ ε α)

namespace Proc

variable {σ ε α β : Type}

def bind : Proc σ ε α → (α → Proc σ ε β) → Proc σ ε β
  | done a, f => f a
  | fail e, _ => fail e
  | access act next, f => access act fun s => (next s).bind f

instance : Monad (Proc σ ε) where
  pure := done
  bind := bind

/-- `try x catch (e) { h e }`. -/
def handle : Proc σ ε α → (ε → Proc σ ε α) → Proc σ ε α
  | done a, _ => done a
  | fail e, h => h e
  | access act next, h => access act fun s => (next s).handle h

/-- The program, with its exceptions as results. -/
def attempt {ε' : Type} : Proc σ ε α → Proc σ ε' (Except ε α)
  | done a => done (.ok a)
  | fail e => done (.error e)
  | access act next => access act fun s => (next s).attempt

/-- What is left of a program whose result is known. -/
def ofExcept : Except ε α → Proc σ ε α
  | .ok a => done a
  | .error e => fail e

/-- The program, with its exceptions in other terms. -/
def mapError {ε' : Type} (f : ε → ε') (x : Proc σ ε α) : Proc σ ε' α :=
  x.attempt >>= fun r => ofExcept (r.mapError f)

/-- One access, which may fail. -/
def atomic (x : σ → Except ε α × σ) : Proc σ ε α := access (fun s => (x s).2) fun s => ofExcept (x s).1

/-- An access that only reads. -/
def read (g : σ → α) : Proc σ ε α := atomic fun s => (.ok (g s), s)

/-- An access that only writes. -/
def write (f : σ → σ) : Proc σ ε Unit := atomic fun s => (.ok (), f s)

/-! ## Runs -/

/-- The run that nothing interrupts. -/
def runAlone : Proc σ ε α → σ → Except ε α × σ
  | done a, s => (.ok a, s)
  | fail e, s => (.error e, s)
  | access act next, s => (next s).runAlone (act s)

@[simp] theorem runAlone_ofExcept (x : Except ε α) (s : σ) : runAlone (ofExcept x) s = (x, s) := by
  cases x <;> rfl

@[simp] theorem runAlone_atomic (x : σ → Except ε α × σ) (s : σ) : runAlone (atomic x) s = x s :=
  runAlone_ofExcept _ _

theorem runAlone_bind (x : Proc σ ε α) (f : α → Proc σ ε β) (s : σ) :
    runAlone (x >>= f) s = match runAlone x s with
      | (.ok a, s') => runAlone (f a) s'
      | (.error e, s') => (.error e, s') := by
  induction x generalizing s with
  | done a => rfl
  | fail e => rfl
  | access act next ih => exact ih s (act s)

theorem runAlone_read_bind (g : σ → β) (f : β → Proc σ ε α) (s : σ) :
    runAlone (read g >>= f) s = runAlone (f (g s)) s := rfl

theorem runAlone_write_bind (g : σ → σ) (f : Unit → Proc σ ε α) (s : σ) :
    runAlone (write g >>= f) s = runAlone (f ()) (g s) := rfl

theorem runAlone_handle (x : Proc σ ε α) (h : ε → Proc σ ε α) (s : σ) :
    runAlone (x.handle h) s = match runAlone x s with
      | (.ok a, s') => (.ok a, s')
      | (.error e, s') => runAlone (h e) s' := by
  induction x generalizing s with
  | done a => rfl
  | fail e => rfl
  | access act next ih => exact ih s (act s)

theorem runAlone_attempt {ε' : Type} (x : Proc σ ε α) (s : σ) :
    runAlone (x.attempt : Proc σ ε' (Except ε α)) s = (.ok (runAlone x s).1, (runAlone x s).2) := by
  induction x generalizing s with
  | done a => rfl
  | fail e => rfl
  | access act next ih => exact ih s (act s)

theorem runAlone_mapError {ε' : Type} (f : ε → ε') (x : Proc σ ε α) (s : σ) :
    runAlone (x.mapError f) s = ((runAlone x s).1.mapError f, (runAlone x s).2) := by
  unfold mapError
  rw [runAlone_bind, runAlone_attempt]
  exact runAlone_ofExcept _ _

/-- One access of a program. -/
inductive Step : Proc σ ε α × σ → Proc σ ε α × σ → Prop
  | access (act : σ → σ) (next : σ → Proc σ ε α) (s : σ) : Step (.access act next, s) (next s, act s)

/-- A program after its first access, or all of it where it makes none. -/
def first : Proc σ ε α → σ → Proc σ ε α × σ
  | access act next, s => (next s, act s)
  | done a, s => (done a, s)
  | fail e, s => (fail e, s)

theorem first_atomic_bind (x : σ → Except ε β × σ) (f : β → Proc σ ε α) (s : σ) :
    first (atomic x >>= f) s = ((ofExcept (x s).1).bind f, (x s).2) := rfl

/-- A program gets to the end of its run when nothing interrupts it. -/
theorem steps_runAlone (x : Proc σ ε α) (s : σ) :
    Relation.ReflTransGen Step (x, s) (ofExcept (runAlone x s).1, (runAlone x s).2) := by
  induction x generalizing s with
  | done a => exact .refl
  | fail e => exact .refl
  | access act next ih => exact .head (.access act next s) (ih s (act s))

/-! ## What a program changes -/

/-- Every access changes the state as `G` allows. -/
def Changes (G : σ → σ → Prop) : Proc σ ε α → Prop
  | done _ => True
  | fail _ => True
  | access act next => ∀ s, G s (act s) ∧ (next s).Changes G

section Changes

variable {G : σ → σ → Prop}

theorem changes_bind {x : Proc σ ε α} {f : α → Proc σ ε β} (hx : x.Changes G)
    (hf : ∀ a, (f a).Changes G) : (x >>= f).Changes G := by
  induction x with
  | done a => exact hf a
  | fail e => trivial
  | access act next ih => exact fun s => ⟨(hx s).1, ih s (hx s).2⟩

theorem changes_ofExcept (x : Except ε α) : (ofExcept x : Proc σ ε α).Changes G := by
  cases x <;> trivial

theorem changes_atomic {x : σ → Except ε α × σ} (h : ∀ s, G s (x s).2) : (atomic x).Changes G :=
  fun s => ⟨h s, changes_ofExcept _⟩

theorem changes_handle {x : Proc σ ε α} {h : ε → Proc σ ε α} (hx : x.Changes G)
    (hh : ∀ e, (h e).Changes G) : (x.handle h).Changes G := by
  induction x with
  | done a => trivial
  | fail e => exact hh e
  | access act next ih => exact fun s => ⟨(hx s).1, ih s (hx s).2⟩

theorem changes_read {g : σ → α} (h : ∀ s, G s s) : (read g : Proc σ ε α).Changes G :=
  changes_atomic h

theorem changes_write {f : σ → σ} (h : ∀ s, G s (f s)) : (write f : Proc σ ε Unit).Changes G :=
  changes_atomic h

/-- After its first access a program has changed the state as allowed, and goes on to. -/
theorem Changes.first {x : Proc σ ε α} (hx : x.Changes G) (hrefl : ∀ s, G s s) (s : σ) :
    G s (x.first s).2 ∧ (x.first s).1.Changes G := by
  cases x with
  | done a => exact ⟨hrefl s, trivial⟩
  | fail e => exact ⟨hrefl s, trivial⟩
  | access act next => exact hx s

theorem Changes.mono {G' : σ → σ → Prop} {x : Proc σ ε α} (hx : x.Changes G)
    (h : ∀ s s', G s s' → G' s s') : x.Changes G' := by
  induction x with
  | done a => trivial
  | fail e => trivial
  | access act next ih => exact fun s => ⟨h _ _ (hx s).1, ih s (hx s).2⟩

theorem Changes.step {x x' : Proc σ ε α} {s s' : σ} (hx : x.Changes G) (h : Step (x, s) (x', s')) :
    G s s' ∧ x'.Changes G := by
  cases h
  exact hx s

end Changes

/-! ## What a program sees -/

/-- Every access is of a kind of `K`: what it does to the state, and which states look the same to it. The
program goes on in the same way in two that do. -/
def Uses (K : (σ → σ) → (σ → σ → Prop) → Prop) : Proc σ ε α → Prop
  | done _ => True
  | fail _ => True
  | access act next =>
    (∃ same, K act same ∧ ∀ s t, same s t → next s = next t) ∧ ∀ s, (next s).Uses K

section Uses

variable {K : (σ → σ) → (σ → σ → Prop) → Prop}

theorem uses_ofExcept (x : Except ε α) : (ofExcept x : Proc σ ε α).Uses K := by
  cases x <;> trivial

theorem uses_atomic {x : σ → Except ε α × σ} {same : σ → σ → Prop} (hK : K (fun s => (x s).2) same)
    (hsame : ∀ s t, same s t → (x s).1 = (x t).1) : (atomic x).Uses K :=
  ⟨⟨same, hK, fun s t h => congrArg ofExcept (hsame s t h)⟩, fun _ => uses_ofExcept _⟩

theorem uses_read {g : σ → α} {same : σ → σ → Prop} (hK : K id same) (hsame : ∀ s t, same s t → g s = g t) :
    (read g : Proc σ ε α).Uses K :=
  uses_atomic hK fun s t h => congrArg Except.ok (hsame s t h)

theorem uses_bind {x : Proc σ ε α} {f : α → Proc σ ε β} (hx : x.Uses K) (hf : ∀ a, (f a).Uses K) :
    (x >>= f).Uses K := by
  induction x with
  | done a => exact hf a
  | fail e => trivial
  | access act next ih =>
    obtain ⟨⟨same, hK, hsame⟩, hnext⟩ := hx
    exact ⟨⟨same, hK, fun s t h => congrArg (Proc.bind · f) (hsame s t h)⟩, fun s => ih s (hnext s)⟩

theorem uses_handle {x : Proc σ ε α} {h : ε → Proc σ ε α} (hx : x.Uses K) (hh : ∀ e, (h e).Uses K) :
    (x.handle h).Uses K := by
  induction x with
  | done a => trivial
  | fail e => exact hh e
  | access act next ih =>
    obtain ⟨⟨same, hK, hsame⟩, hnext⟩ := hx
    exact ⟨⟨same, hK, fun s t hst => congrArg (Proc.handle · h) (hsame s t hst)⟩, fun s => ih s (hnext s)⟩

theorem uses_attempt {ε' : Type} {x : Proc σ ε α} (hx : x.Uses K) :
    (x.attempt : Proc σ ε' (Except ε α)).Uses K := by
  induction x with
  | done a => trivial
  | fail e => trivial
  | access act next ih =>
    obtain ⟨⟨same, hK, hsame⟩, hnext⟩ := hx
    exact ⟨⟨same, hK, fun s t h => congrArg Proc.attempt (hsame s t h)⟩, fun s => ih s (hnext s)⟩

theorem uses_mapError {ε' : Type} {f : ε → ε'} {x : Proc σ ε α} (hx : x.Uses K) :
    (x.mapError f).Uses K :=
  uses_bind (uses_attempt hx) fun _ => uses_ofExcept _

theorem Uses.mono {K' : (σ → σ) → (σ → σ → Prop) → Prop} {x : Proc σ ε α} (hx : x.Uses K)
    (h : ∀ act same, K act same → K' act same) : x.Uses K' := by
  induction x with
  | done a => trivial
  | fail e => trivial
  | access act next ih =>
    obtain ⟨⟨same, hK, hsame⟩, hnext⟩ := hx
    exact ⟨⟨same, h _ _ hK, hsame⟩, fun s => ih s (hnext s)⟩

/-- What the kinds of accesses change. -/
theorem Uses.changes {G : σ → σ → Prop} {x : Proc σ ε α} (hx : x.Uses K)
    (h : ∀ act same s, K act same → G s (act s)) : x.Changes G := by
  induction x with
  | done a => trivial
  | fail e => trivial
  | access act next ih =>
    obtain ⟨⟨same, hK, -⟩, hnext⟩ := hx
    exact fun s => ⟨h act same s hK, ih s (hnext s)⟩

theorem Uses.step {x x' : Proc σ ε α} {s s' : σ} (hx : x.Uses K) (h : Step (x, s) (x', s')) : x'.Uses K := by
  cases h
  exact hx.2 s

/-- **In states that no access tells apart** a program makes the same access. -/
theorem Uses.alike {A : σ → σ → Prop} {x x' : Proc σ ε α} {s s' t : σ} (hx : x.Uses K)
    (h : Step (x, s) (x', s')) (hK : ∀ act same s t, K act same → A s t → same s t ∧ A (act s) (act t))
    (hA : A s t) : ∃ t', Step (x, t) (x', t') ∧ A s' t' := by
  cases h with
  | access act next s =>
    obtain ⟨⟨same, hkind, hsame⟩, -⟩ := hx
    obtain ⟨hst, hact⟩ := hK act same s t hkind hA
    refine ⟨act t, ?_, hact⟩
    rw [hsame s t hst]
    exact .access act next t

end Uses

/-! ## The states of a run -/

/-- Every state of the run that nothing interrupts meets `I`, the first and the last included. -/
def Throughout (I : σ → Prop) : Proc σ ε α → σ → Prop
  | done _, s => I s
  | fail _, s => I s
  | access act next, s => I s ∧ (next s).Throughout I (act s)

section Throughout

variable {I : σ → Prop}

theorem throughout_read_bind (g : σ → β) (f : β → Proc σ ε α) (s : σ) :
    (read g >>= f).Throughout I s ↔ I s ∧ (f (g s)).Throughout I s := Iff.rfl

theorem throughout_write_bind (g : σ → σ) (f : Unit → Proc σ ε α) (s : σ) :
    (write g >>= f).Throughout I s ↔ I s ∧ (f ()).Throughout I (g s) := Iff.rfl

theorem throughout_write (g : σ → σ) (s : σ) :
    (write g : Proc σ ε Unit).Throughout I s ↔ I s ∧ I (g s) := Iff.rfl

theorem Throughout.first {x : Proc σ ε α} {s : σ} (h : x.Throughout I s) : I s := by
  cases x with
  | done a => exact h
  | fail e => exact h
  | access act next => exact h.1

theorem Throughout.step {x x' : Proc σ ε α} {s s' : σ} (hx : x.Throughout I s)
    (h : Step (x, s) (x', s')) : x'.Throughout I s' := by
  cases h
  exact hx.2

theorem throughout_bind (x : Proc σ ε α) (f : α → Proc σ ε β) (s : σ) :
    (x >>= f).Throughout I s ↔
      x.Throughout I s ∧ ∀ a s', x.runAlone s = (.ok a, s') → (f a).Throughout I s' := by
  induction x generalizing s with
  | done a =>
    constructor
    · intro h
      refine ⟨Throughout.first h, ?_⟩
      rintro a' s' heq
      cases heq
      exact h
    · rintro ⟨-, h⟩
      exact h a s rfl
  | fail e => exact ⟨fun h => ⟨h, nofun⟩, fun h => h.1⟩
  | access act next ih =>
    have ih := ih s (act s)
    exact ⟨fun h => ⟨⟨h.1, (ih.mp h.2).1⟩, (ih.mp h.2).2⟩, fun h => ⟨h.1.1, ih.mpr ⟨h.1.2, h.2⟩⟩⟩

theorem throughout_attempt {ε' : Type} (x : Proc σ ε α) (s : σ) :
    (x.attempt : Proc σ ε' (Except ε α)).Throughout I s ↔ x.Throughout I s := by
  induction x generalizing s with
  | done a => rfl
  | fail e => rfl
  | access act next ih => exact and_congr_right fun _ => ih s (act s)

/-- What every change keeps holds throughout. -/
theorem Changes.throughout {G : σ → σ → Prop} {x : Proc σ ε α} (hx : x.Changes G)
    (hI : ∀ s s', G s s' → I s → I s') {s : σ} (hs : I s) : x.Throughout I s := by
  induction x generalizing s with
  | done a => exact hs
  | fail e => exact hs
  | access act next ih => exact ⟨hs, ih s (hx s).2 (hI _ _ (hx s).1 hs)⟩

theorem Throughout.mono {J : σ → Prop} {x : Proc σ ε α} {s : σ} (h : x.Throughout I s)
    (hJ : ∀ s, I s → J s) : x.Throughout J s := by
  induction x generalizing s with
  | done a => exact hJ s h
  | fail e => exact hJ s h
  | access act next ih => exact ⟨hJ s h.1, ih s h.2⟩

theorem Throughout.last {x : Proc σ ε α} {s : σ} (h : x.Throughout I s) : I (x.runAlone s).2 := by
  induction x generalizing s with
  | done a => exact h
  | fail e => exact h
  | access act next ih => exact ih s h.2

/-- Where some state does not meet `I`, the run comes to it. -/
theorem exists_of_not_throughout {x : Proc σ ε α} {s : σ} (h : ¬ x.Throughout I s) :
    ∃ x' s', Relation.ReflTransGen Step (x, s) (x', s') ∧ ¬ I s' := by
  induction x generalizing s with
  | done a => exact ⟨_, s, .refl, h⟩
  | fail e => exact ⟨_, s, .refl, h⟩
  | access act next ih =>
    by_cases hs : I s
    · obtain ⟨x', s', hsteps, hs'⟩ := ih s fun hnext => h ⟨hs, hnext⟩
      exact ⟨x', s', .head (.access act next s) hsteps, hs'⟩
    · exact ⟨_, s, .refl, hs⟩

end Throughout

theorem Step.runAlone {x x' : Proc σ ε α} {s s' : σ} (h : Step (x, s) (x', s')) :
    x.runAlone s = x'.runAlone s' := by
  cases h
  rfl

/-! ## Programs that never fail -/

/-- The program does not fail, whatever it sees. -/
def NeverFails : Proc σ ε α → Prop
  | done _ => True
  | fail _ => False
  | access _ next => ∀ s, (next s).NeverFails

/-- What is caught does not get out. -/
theorem neverFails_handle {x : Proc σ ε α} {h : ε → Proc σ ε α} (hh : ∀ e, (h e).NeverFails) :
    (x.handle h).NeverFails := by
  induction x with
  | done a => trivial
  | fail e => exact hh e
  | access act next ih => exact ih

theorem NeverFails.step {x x' : Proc σ ε α} {s s' : σ} (hx : x.NeverFails)
    (h : Step (x, s) (x', s')) : x'.NeverFails := by
  cases h
  exact hx s

theorem NeverFails.runAlone {x : Proc σ ε α} (hx : x.NeverFails) (s : σ) :
    ∃ a s', x.runAlone s = (.ok a, s') := by
  induction x generalizing s with
  | done a => exact ⟨a, s, rfl⟩
  | fail e => exact hx.elim
  | access act next ih => exact ih s (hx s) (act s)

/-! ## Interrupted runs -/

/-- A run before each of whose accesses other threads make a change allowed by `R`. -/
def Ends (R : σ → σ → Prop) : Proc σ ε α → σ → Except ε α → σ → Prop
  | done a, s, r, s' => r = .ok a ∧ s' = s
  | fail e, s, r, s' => r = .error e ∧ s' = s
  | access act next, s, r, s' => ∃ s₁, R s s₁ ∧ (next s₁).Ends R (act s₁) r s'

section Ends

variable {R : σ → σ → Prop} {s s' : σ} {r : Except ε α}

theorem ends_ofExcept (x : Except ε α) : (ofExcept x).Ends R s r s' ↔ r = x ∧ s' = s := by
  cases x <;> rfl

theorem ends_atomic (x : σ → Except ε α × σ) :
    (atomic x).Ends R s r s' ↔ ∃ s₁, R s s₁ ∧ r = (x s₁).1 ∧ s' = (x s₁).2 :=
  exists_congr fun _ => and_congr_right fun _ => ends_ofExcept _

theorem ends_read_bind (g : σ → β) (f : β → Proc σ ε α) :
    (read g >>= f).Ends R s r s' ↔ ∃ s₁, R s s₁ ∧ (f (g s₁)).Ends R s₁ r s' := Iff.rfl

theorem ends_bind (x : Proc σ ε β) (f : β → Proc σ ε α) : (x >>= f).Ends R s r s' ↔
    (∃ b s₁, x.Ends R s (.ok b) s₁ ∧ (f b).Ends R s₁ r s') ∨
      ∃ e, r = .error e ∧ x.Ends R s (.error e) s' := by
  induction x generalizing s with
  | done b =>
    constructor
    · exact fun h => .inl ⟨b, s, ⟨rfl, rfl⟩, h⟩
    · rintro (⟨b', s₁, ⟨hb, rfl⟩, h⟩ | ⟨e, -, he, -⟩)
      · cases hb
        exact h
      · cases he
  | fail e =>
    constructor
    · rintro ⟨rfl, rfl⟩
      exact .inr ⟨e, rfl, rfl, rfl⟩
    · rintro (⟨b, s₁, ⟨hb, -⟩, -⟩ | ⟨e', rfl, he, rfl⟩)
      · cases hb
      · cases he
        exact ⟨rfl, rfl⟩
  | access act next ih =>
    constructor
    · rintro ⟨s₀, hs₀, h⟩
      rcases (ih s₀).mp h with ⟨b, s₁, hx, hf⟩ | ⟨e, rfl, hx⟩
      · exact .inl ⟨b, s₁, ⟨s₀, hs₀, hx⟩, hf⟩
      · exact .inr ⟨e, rfl, s₀, hs₀, hx⟩
    · rintro (⟨b, s₁, ⟨s₀, hs₀, hx⟩, hf⟩ | ⟨e, rfl, s₀, hs₀, hx⟩)
      · exact ⟨s₀, hs₀, (ih s₀).mpr (.inl ⟨b, s₁, hx, hf⟩)⟩
      · exact ⟨s₀, hs₀, (ih s₀).mpr (.inr ⟨e, rfl, hx⟩)⟩

theorem ends_handle (x : Proc σ ε α) (h : ε → Proc σ ε α) : (x.handle h).Ends R s r s' ↔
    (∃ a, r = .ok a ∧ x.Ends R s (.ok a) s') ∨
      ∃ e s₁, x.Ends R s (.error e) s₁ ∧ (h e).Ends R s₁ r s' := by
  induction x generalizing s with
  | done a =>
    constructor
    · rintro ⟨rfl, rfl⟩
      exact .inl ⟨a, rfl, rfl, rfl⟩
    · rintro (⟨a', rfl, ha, rfl⟩ | ⟨e, s₁, ⟨he, -⟩, -⟩)
      · cases ha
        exact ⟨rfl, rfl⟩
      · cases he
  | fail e =>
    constructor
    · exact fun hh => .inr ⟨e, s, ⟨rfl, rfl⟩, hh⟩
    · rintro (⟨a, -, ha, -⟩ | ⟨e', s₁, ⟨he, rfl⟩, hh⟩)
      · cases ha
      · cases he
        exact hh
  | access act next ih =>
    constructor
    · rintro ⟨s₀, hs₀, hnext⟩
      rcases (ih s₀).mp hnext with ⟨a, rfl, hx⟩ | ⟨e, s₁, hx, hh⟩
      · exact .inl ⟨a, rfl, s₀, hs₀, hx⟩
      · exact .inr ⟨e, s₁, ⟨s₀, hs₀, hx⟩, hh⟩
    · rintro (⟨a, rfl, s₀, hs₀, hx⟩ | ⟨e, s₁, ⟨s₀, hs₀, hx⟩, hh⟩)
      · exact ⟨s₀, hs₀, (ih s₀).mpr (.inl ⟨a, rfl, hx⟩)⟩
      · exact ⟨s₀, hs₀, (ih s₀).mpr (.inr ⟨e, s₁, hx, hh⟩)⟩

/-- A program whose exceptions are all caught for the same result. -/
theorem ends_handle_pure (x : Proc σ ε α) (a : α) : (x.handle fun _ => pure a).Ends R s r s' ↔
    ∃ r₀ : Except ε α, x.Ends R s r₀ s' ∧ r = .ok (r₀.toOption.getD a) := by
  rw [ends_handle]
  constructor
  · rintro (⟨b, rfl, h⟩ | ⟨e, s₁, h, rfl, rfl⟩)
    · exact ⟨.ok b, h, rfl⟩
    · exact ⟨.error e, h, rfl⟩
  · rintro ⟨e | b, h, rfl⟩
    · exact .inr ⟨e, s', h, rfl, rfl⟩
    · exact .inl ⟨b, rfl, h⟩

/-- The run that nothing interrupts is one of them. -/
theorem ends_runAlone (hrefl : ∀ s, R s s) (x : Proc σ ε α) (s : σ) :
    x.Ends R s (x.runAlone s).1 (x.runAlone s).2 := by
  induction x generalizing s with
  | done a => exact ⟨rfl, rfl⟩
  | fail e => exact ⟨rfl, rfl⟩
  | access act next ih => exact ⟨s, hrefl s, ih s (act s)⟩

/-- Where no other thread changes anything, it is the only one. -/
theorem ends_eq_iff (x : Proc σ ε α) : x.Ends Eq s r s' ↔ x.runAlone s = (r, s') := by
  induction x generalizing s with
  | done a => simp [Ends, runAlone, eq_comm]
  | fail e => simp [Ends, runAlone, eq_comm]
  | access act next ih =>
    constructor
    · rintro ⟨s₁, rfl, hnext⟩
      exact (ih s).mp hnext
    · exact fun h => ⟨s, rfl, (ih s).mpr h⟩

/-- **Program and others** keep a relation that the changes of both are in. -/
theorem Ends.keeps {G T : σ → σ → Prop} {x : Proc σ ε α} (h : x.Ends R s r s') (hx : x.Changes G)
    (hR : ∀ s s', R s s' → T s s') (hG : ∀ s s', G s s' → T s s') (hrefl : ∀ s, T s s)
    (htrans : ∀ s₁ s₂ s₃, T s₁ s₂ → T s₂ s₃ → T s₁ s₃) : T s s' := by
  induction x generalizing s with
  | done a =>
    obtain ⟨-, rfl⟩ := h
    exact hrefl s'
  | fail e =>
    obtain ⟨-, rfl⟩ := h
    exact hrefl s'
  | access act next ih =>
    obtain ⟨s₁, hs₁, hnext⟩ := h
    have hact := htrans s s₁ (act s₁) (hR s s₁ hs₁) (hG _ _ (hx s₁).1)
    exact htrans s (act s₁) s' hact (ih s₁ hnext (hx s₁).2)

end Ends

/-! ## Weakest preconditions under interference -/

/-- Under interference by `R` before each access, the program ends in `Q` or fails in `E`. -/
def wp (R : σ → σ → Prop) (Q : α → σ → Prop) (E : ε → σ → Prop) : Proc σ ε α → σ → Prop
  | done a, s => Q a s
  | fail e, s => E e s
  | access act next, s => ∀ s', R s s' → (next s').wp R Q E (act s')

section Wp

variable {R : σ → σ → Prop} {Q : α → σ → Prop} {E : ε → σ → Prop}

@[simp] theorem wp_pure (a : α) (s : σ) : wp R Q E (pure a) s ↔ Q a s := Iff.rfl

theorem wp_ofExcept (x : Except ε α) (s : σ) :
    wp R Q E (ofExcept x) s ↔ match x with
      | .ok a => Q a s
      | .error e => E e s := by
  cases x <;> rfl

theorem wp_atomic (x : σ → Except ε α × σ) (s : σ) :
    wp R Q E (atomic x) s ↔ ∀ s', R s s' → wp R Q E (ofExcept (x s').1) (x s').2 := Iff.rfl

theorem wp_read (g : σ → α) (s : σ) : wp R Q E (read g) s ↔ ∀ s', R s s' → Q (g s') s' := Iff.rfl

theorem wp_write {Q : Unit → σ → Prop} (f : σ → σ) (s : σ) :
    wp R Q E (write f) s ↔ ∀ s', R s s' → Q () (f s') := Iff.rfl

theorem wp_bind (x : Proc σ ε β) (f : β → Proc σ ε α) (s : σ) :
    wp R Q E (x >>= f) s ↔ wp R (fun b s' => wp R Q E (f b) s') E x s := by
  induction x generalizing s with
  | done b => rfl
  | fail e => rfl
  | access act next ih => exact forall₂_congr fun s' _ => ih s' (act s')

theorem wp_handle (x : Proc σ ε α) (h : ε → Proc σ ε α) (s : σ) :
    wp R Q E (x.handle h) s ↔ wp R Q (fun e s' => wp R Q E (h e) s') x s := by
  induction x generalizing s with
  | done a => rfl
  | fail e => rfl
  | access act next ih => exact forall₂_congr fun s' _ => ih s' (act s')

/-- The precondition is about how the runs end that others may interrupt. -/
theorem wp_iff_ends (x : Proc σ ε α) (s : σ) :
    wp R Q E x s ↔ ∀ r s', x.Ends R s r s' → match r with
      | .ok a => Q a s'
      | .error e => E e s' := by
  induction x generalizing s with
  | done a =>
    constructor
    · rintro h _ _ ⟨rfl, rfl⟩
      exact h
    · exact fun h => h (.ok a) s ⟨rfl, rfl⟩
  | fail e =>
    constructor
    · rintro h _ _ ⟨rfl, rfl⟩
      exact h
    · exact fun h => h (.error e) s ⟨rfl, rfl⟩
  | access act next ih =>
    constructor
    · rintro h r s' ⟨s₁, hs₁, hends⟩
      exact (ih s₁ (act s₁)).mp (h s₁ hs₁) r s' hends
    · exact fun h s₁ hs₁ => (ih s₁ (act s₁)).mpr fun r s' hends => h r s' ⟨s₁, hs₁, hends⟩

/-- **Own steps** keep the precondition. -/
theorem wp_step (hrefl : ∀ s, R s s) {x x' : Proc σ ε α} {s s' : σ} (h : wp R Q E x s)
    (hstep : Step (x, s) (x', s')) : wp R Q E x' s' := by
  cases hstep
  exact h s (hrefl s)

/-- **Steps of other threads** keep the precondition, when they keep the two ends. -/
theorem wp_of_rely (htrans : ∀ s₁ s₂ s₃, R s₁ s₂ → R s₂ s₃ → R s₁ s₃)
    (hQ : ∀ a s s', R s s' → Q a s → Q a s') (hE : ∀ e s s', R s s' → E e s → E e s')
    {x : Proc σ ε α} {s s' : σ} (h : wp R Q E x s) (hs : R s s') : wp R Q E x s' := by
  cases x with
  | done a => exact hQ a s s' hs h
  | fail e => exact hE e s s' hs h
  | access act next => exact fun s₂ h₂ => h s₂ (htrans s s' s₂ hs h₂)

end Wp

end Proc

end EerieLeap.Lib
