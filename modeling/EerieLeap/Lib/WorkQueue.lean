import EerieLeap.Lib.Proc

/-!
# A work queue with one worker

Tasks are scheduled, and one worker starts them in any order, one at a time. The program of a task is
interrupted between any two of its accesses; when it is done the task may be pending again, unless it
was cancelled while it ran.

* `schedule`, `cancel` : what the owner of the queue does to it;
* `Work` : the steps of the worker;
* `Within q l` : every task that is pending or running is in `l`;
* `within_cancel` : a cancel that finds its task idle takes it out of `l`, for good;
* `Work.within` : the worker adds nothing to `l`;
* `Work.not_idle` : where nothing is pending or running, the worker does nothing;
* `Work.keeps`, `Work.keeps_always` : it keeps what the programs keep, from where each of them starts;
* `Work.alike` : in states whose difference the programs do not see, it does the same;
* `Work.exists_idle` : it can always come to the end of a task that never fails;
* `Work.live`, `Live.exists_started` : it loses no task that asks for itself again, and can get to it.
-/

namespace EerieLeap.Lib

open Proc

/-- What the worker is at: the task, if it was cancelled since it began, and what is left to do. -/
structure Run (τ π : Type) where
  task : τ
  cancelled : Bool
  rest : π

structure WorkQueue (τ π : Type) where
  pending : List τ
  running : Option (Run τ π)

namespace WorkQueue

variable {τ π σ ε ρ : Type}

def empty : WorkQueue τ π := ⟨[], none⟩

def Runs (q : WorkQueue τ π) (t : τ) : Prop := ∃ r, q.running = some r ∧ r.task = t

/-- Nothing is pending or running. -/
def Idle (q : WorkQueue τ π) : Prop := q.pending = [] ∧ q.running = none

/-- The task is pending, or runs and has not been cancelled. -/
def Live (q : WorkQueue τ π) (t : τ) : Prop :=
  t ∈ q.pending ∨ ∃ r, q.running = some r ∧ r.task = t ∧ r.cancelled = false

/-- Every task that is pending or running is in `l`. -/
def Within (q : WorkQueue τ π) (l : List τ) : Prop := (∀ t ∈ q.pending, t ∈ l) ∧ ∀ t, q.Runs t → t ∈ l

theorem within_nil {q : WorkQueue τ π} : q.Within [] ↔ q.Idle := by
  constructor
  · rintro ⟨hpending, hruns⟩
    refine ⟨List.eq_nil_iff_forall_not_mem.mpr fun t ht => by simpa using hpending t ht, ?_⟩
    cases hq : q.running with
    | none => rfl
    | some r => simpa using hruns r.task ⟨r, hq, rfl⟩
  · rintro ⟨hpending, hrunning⟩
    refine ⟨by simp [hpending], fun t ht => ?_⟩
    obtain ⟨r, hr, -⟩ := ht
    simp [hrunning] at hr

theorem Within.mono {q : WorkQueue τ π} {l l' : List τ} (h : q.Within l) (hl : ∀ t ∈ l, t ∈ l') :
    q.Within l' :=
  ⟨fun t ht => hl t (h.1 t ht), fun t ht => hl t (h.2 t ht)⟩

variable [DecidableEq τ]

/-! ## The owner -/

/-- A task that is pending already stays as it is. -/
def schedule (q : WorkQueue τ π) (t : τ) : WorkQueue τ π :=
  if t ∈ q.pending then q else { q with pending := q.pending ++ [t] }

/-- A pending run is removed, and one that has begun is marked. -/
def cancel (q : WorkQueue τ π) (t : τ) : WorkQueue τ π where
  pending := q.pending.filter (· ≠ t)
  running := q.running.map fun r => { r with cancelled := r.cancelled || decide (r.task = t) }

theorem mem_pending_schedule {q : WorkQueue τ π} {t u : τ} :
    u ∈ (q.schedule t).pending ↔ u ∈ q.pending ∨ u = t := by
  unfold schedule
  split
  · constructor
    · exact Or.inl
    · rintro (h | rfl) <;> assumption
  · simp

@[simp] theorem running_schedule (q : WorkQueue τ π) (t : τ) : (q.schedule t).running = q.running := by
  unfold schedule
  split <;> rfl

theorem runs_cancel {q : WorkQueue τ π} {t u : τ} : (q.cancel t).Runs u ↔ q.Runs u := by
  unfold Runs cancel
  cases q.running <;> simp

theorem within_schedule {q : WorkQueue τ π} {l : List τ} {t : τ} (h : q.Within l) (ht : t ∈ l) :
    (q.schedule t).Within l := by
  refine ⟨fun u hu => ?_, fun u hu => h.2 u (by simpa [Runs] using hu)⟩
  rcases mem_pending_schedule.mp hu with hu | rfl
  · exact h.1 u hu
  · exact ht

theorem Within.cancel {q : WorkQueue τ π} {l : List τ} (h : q.Within l) (t : τ) :
    (q.cancel t).Within l :=
  ⟨fun u hu => h.1 u (List.mem_filter.mp hu).1, fun u hu => h.2 u (runs_cancel.mp hu)⟩

theorem Idle.cancel {q : WorkQueue τ π} (h : q.Idle) (t : τ) : (q.cancel t).Idle :=
  within_nil.mp ((within_nil.mpr h).cancel t)

theorem live_schedule (q : WorkQueue τ π) (t : τ) : (q.schedule t).Live t :=
  .inl (mem_pending_schedule.mpr (.inr rfl))

theorem Live.schedule {q : WorkQueue τ π} {t : τ} (h : q.Live t) (u : τ) : (q.schedule u).Live t := by
  rcases h with ht | ⟨r, hr, hrt⟩
  · exact .inl (mem_pending_schedule.mpr (.inl ht))
  · exact .inr ⟨r, by simpa using hr, hrt⟩

/-- **A cancel that finds its task idle** takes it out of the active ones. -/
theorem within_cancel {q : WorkQueue τ π} {l : List τ} {t : τ} (h : q.Within (t :: l))
    (ht : ¬ q.Runs t) : (q.cancel t).Within l := by
  constructor
  · intro u hu
    obtain ⟨hu, hne⟩ := List.mem_filter.mp hu
    exact (List.mem_cons.mp (h.1 u hu)).resolve_left (by simpa using hne)
  · intro u hu
    have hu := runs_cancel.mp hu
    refine (List.mem_cons.mp (h.2 u hu)).resolve_left fun heq => ht ?_
    rwa [heq] at hu

/-! ## The worker -/

def start (q : WorkQueue τ π) (t : τ) (x : π) : WorkQueue τ π where
  pending := q.pending.filter (· ≠ t)
  running := some ⟨t, false, x⟩

def advance (q : WorkQueue τ π) (r : Run τ π) (x : π) : WorkQueue τ π :=
  { q with running := some { r with rest := x } }

/-- The task is pending again when its result asks for it and nothing cancelled it meanwhile. -/
def finish (q : WorkQueue τ π) (r : Run τ π) (again : Bool) : WorkQueue τ π :=
  if again && !r.cancelled then { q with running := none }.schedule r.task
  else { q with running := none }

theorem within_finish {q : WorkQueue τ π} {l : List τ} {r : Run τ π} (h : q.Within l)
    (hr : q.running = some r) (again : Bool) : (q.finish r again).Within l := by
  have hdone : ({ q with running := none } : WorkQueue τ π).Within l :=
    ⟨h.1, fun u ⟨r', hr', _⟩ => by simp at hr'⟩
  unfold finish
  split
  · exact within_schedule hdone (h.2 r.task ⟨r, hr, rfl⟩)
  · exact hdone

theorem mem_pending_finish {q : WorkQueue τ π} {r : Run τ π} {again : Bool} {t : τ} :
    t ∈ (q.finish r again).pending ↔ t ∈ q.pending ∨ t = r.task ∧ again = true ∧ r.cancelled = false := by
  unfold finish
  cases again <;> cases r.cancelled <;> simp [mem_pending_schedule]

section Work

variable (program : τ → Proc σ ε ρ) (again : ρ → Bool) (enter : σ → σ)

/-- The worker starts a pending task, makes an access of the one it is at, or ends it. `enter` is what
is noted in the shared state when a task starts. -/
inductive Work : σ × WorkQueue τ (Proc σ ε ρ) → σ × WorkQueue τ (Proc σ ε ρ) → Prop
  | start {s : σ} {q : WorkQueue τ (Proc σ ε ρ)} {t : τ} (hidle : q.running = none)
      (ht : t ∈ q.pending) : Work (s, q) (enter s, q.start t (program t))
  | access {s s' : σ} {q : WorkQueue τ (Proc σ ε ρ)} {r : Run τ (Proc σ ε ρ)} {x : Proc σ ε ρ}
      (hr : q.running = some r) (h : Proc.Step (r.rest, s) (x, s')) : Work (s, q) (s', q.advance r x)
  | finish {s : σ} {q : WorkQueue τ (Proc σ ε ρ)} {r : Run τ (Proc σ ε ρ)} {a : ρ}
      (hr : q.running = some r) (ha : r.rest = .done a) : Work (s, q) (s, q.finish r (again a))

variable {program again enter} {s s' : σ} {q q' : WorkQueue τ (Proc σ ε ρ)}

/-- **The worker adds no task** to the active ones. -/
theorem Work.within {l : List τ} (h : Work program again enter (s, q) (s', q')) (hl : q.Within l) :
    q'.Within l := by
  cases h with
  | start hidle ht =>
    refine ⟨fun u hu => hl.1 u (List.mem_filter.mp hu).1, ?_⟩
    rintro u ⟨r, hr, rfl⟩
    obtain rfl := Option.some.inj hr
    exact hl.1 _ ht
  | access hr h =>
    refine ⟨hl.1, ?_⟩
    rintro u ⟨r', hr', rfl⟩
    obtain rfl := Option.some.inj hr'
    exact hl.2 _ ⟨_, hr, rfl⟩
  | finish hr ha => exact within_finish hl hr _

/-- **A task that is live** stays so, when it ends with a result that asks for it again. -/
theorem Work.live {t : τ} (h : Work program again enter (s, q) (s', q')) (ht : q.Live t)
    (hagain : ∀ r a, q.running = some r → r.task = t → r.rest = .done a → again a = true) : q'.Live t := by
  cases h with
  | @start _ _ u hidle hu =>
    have hpending : t ∈ q.pending := by
      rcases ht with ht | ⟨r, hr, -⟩
      · exact ht
      · cases hidle.symm.trans hr
    by_cases htu : t = u
    · exact .inr ⟨_, rfl, htu.symm, rfl⟩
    · exact .inl (List.mem_filter.mpr ⟨hpending, by simpa using htu⟩)
  | access hr h =>
    rcases ht with ht | ⟨r', hr', hrt⟩
    · exact .inl ht
    · obtain rfl := Option.some.inj (hr.symm.trans hr')
      exact .inr ⟨_, rfl, hrt⟩
  | finish hr ha =>
    refine .inl (mem_pending_finish.mpr ?_)
    rcases ht with ht | ⟨r', hr', hrt, hcancelled⟩
    · exact .inl ht
    · obtain rfl := Option.some.inj (hr.symm.trans hr')
      exact .inr ⟨hrt.symm, hagain _ _ hr hrt ha, hcancelled⟩

theorem Work.not_idle (h : Work program again enter (s, q) (s', q')) : ¬ q.Idle := by
  rintro ⟨hpending, hrunning⟩
  cases h with
  | start hidle ht => simp [hpending] at ht
  | access hr h => simp [hrunning] at hr
  | finish hr ha => simp [hrunning] at hr

/-- What is left of the program the worker is at meets `P`. -/
def Holds (P : Proc σ ε ρ → Prop) (q : WorkQueue τ (Proc σ ε ρ)) : Prop :=
  ∀ r, q.running = some r → P r.rest

section Holds

variable {P : Proc σ ε ρ → Prop}

theorem Holds.schedule (h : q.Holds P) (t : τ) : (q.schedule t).Holds P :=
  fun r hr => h r (by simpa using hr)

theorem Holds.cancel (h : q.Holds P) (t : τ) : (q.cancel t).Holds P := by
  intro r hr
  obtain ⟨r', hr', rfl⟩ := Option.map_eq_some_iff.mp hr
  exact h r' hr'

@[simp] theorem running_finish (q : WorkQueue τ π) (r : Run τ π) (again : Bool) :
    (q.finish r again).running = none := by
  unfold WorkQueue.finish
  split <;> simp

theorem Work.holds (h : Work program again enter (s, q) (s', q')) (hq : q.Holds P)
    (hprogram : ∀ t, P (program t)) (hP : ∀ x x' s s', P x → Proc.Step (x, s) (x', s') → P x') :
    q'.Holds P := by
  intro r hr
  cases h with
  | start hidle ht =>
    obtain rfl := Option.some.inj hr
    exact hprogram _
  | access hr' h =>
    obtain rfl := Option.some.inj hr
    exact hP _ _ _ _ (hq _ hr') h
  | finish hr' ha => simp at hr

end Holds

/-- The program the worker is at changes the shared state as `G` allows. -/
def Changing (G : σ → σ → Prop) (q : WorkQueue τ (Proc σ ε ρ)) : Prop :=
  ∀ r, q.running = some r → r.rest.Changes G

theorem Changing.schedule {G : σ → σ → Prop} (h : q.Changing G) (t : τ) : (q.schedule t).Changing G :=
  Holds.schedule h t

theorem Changing.cancel {G : σ → σ → Prop} (h : q.Changing G) (t : τ) : (q.cancel t).Changing G :=
  Holds.cancel h t

theorem Work.changing {G : σ → σ → Prop} (h : Work program again enter (s, q) (s', q'))
    (hq : q.Changing G) (hprogram : ∀ t, (program t).Changes G) : q'.Changing G :=
  h.holds hq hprogram fun _ _ _ _ hx hstep => (hx.step hstep).2

/-- **The worker keeps `I`**, and `J` as long as a task runs, when the programs keep both and `J` holds
once a task has started. -/
theorem Work.keeps {G : σ → σ → Prop} {I J : σ → Prop} (h : Work program again enter (s, q) (s', q'))
    (hq : q.Changing G) (henter : ∀ s, I s → I (enter s) ∧ J (enter s))
    (hG : ∀ s s', G s s' → I s → J s → I s' ∧ J s') (hI : I s) (hJ : q.running ≠ none → J s) :
    I s' ∧ (q'.running ≠ none → J s') := by
  cases h with
  | start hidle ht => exact ⟨(henter s hI).1, fun _ => (henter s hI).2⟩
  | access hr h =>
    obtain ⟨hI', hJ'⟩ := hG _ _ ((hq _ hr).step h).1 hI (hJ (by simp [hr]))
    exact ⟨hI', fun _ => hJ'⟩
  | finish hr ha => exact ⟨hI, fun hne => absurd (running_finish _ _ _) hne⟩

/-- **The worker keeps** what every access keeps. -/
theorem Work.keeps_always {G : σ → σ → Prop} {I : σ → Prop}
    (h : Work program again enter (s, q) (s', q')) (hq : q.Changing G) (henter : ∀ s, I s → I (enter s))
    (hG : ∀ s s', G s s' → I s → I s') (hI : I s) : I s' :=
  (h.keeps (I := I) (J := fun _ => True) hq (fun s hs => ⟨henter s hs, trivial⟩)
    (fun s s' h hs _ => ⟨hG s s' h hs, trivial⟩) hI fun _ => trivial).1

/-- **In states that the programs do not tell apart** the worker makes the same step. -/
theorem Work.alike {K : (σ → σ) → (σ → σ → Prop) → Prop} {A : σ → σ → Prop} {t : σ}
    (h : Work program again enter (s, q) (s', q')) (hq : q.Holds (Proc.Uses K))
    (henter : ∀ s t, A s t → A (enter s) (enter t))
    (hK : ∀ act same s t, K act same → A s t → same s t ∧ A (act s) (act t)) (hA : A s t) :
    ∃ t', Work program again enter (t, q) (t', q') ∧ A s' t' := by
  cases h with
  | start hidle ht => exact ⟨enter t, .start hidle ht, henter s t hA⟩
  | access hr h =>
    obtain ⟨t', hstep, hA'⟩ := (hq _ hr).alike h hK hA
    exact ⟨t', .access hr hstep, hA'⟩
  | finish hr ha => exact ⟨t, .finish hr ha, hA⟩

/-! ### The worker gets on -/

omit [DecidableEq τ] in
theorem advance_rest {r : Run τ (Proc σ ε ρ)} (hr : q.running = some r) : q.advance r r.rest = q := by
  cases q
  cases hr
  rfl

theorem Work.accesses {r : Run τ (Proc σ ε ρ)} {x : Proc σ ε ρ} (hr : q.running = some r)
    (h : Relation.ReflTransGen Proc.Step (r.rest, s) (x, s')) :
    Relation.ReflTransGen (Work program again enter) (s, q) (s', q.advance r x) := by
  generalize hp : (x, s') = p at h
  induction h generalizing x s' with
  | refl =>
    cases hp
    rw [advance_rest hr]
  | @tail mid _ _ hstep ih =>
    subst hp
    exact .tail (ih rfl) (.access (r := { r with rest := mid.1 }) rfl hstep)

/-- **The worker comes to the end of a task** that never fails. -/
theorem Work.exists_idle (hq : q.Holds Proc.NeverFails) :
    ∃ s' q', Relation.ReflTransGen (Work program again enter) (s, q) (s', q') ∧ q'.running = none := by
  cases hr : q.running with
  | none => exact ⟨s, q, .refl, hr⟩
  | some r =>
    obtain ⟨a, s', ha⟩ := (hq r hr).runAlone s
    have hsteps := Proc.steps_runAlone r.rest s
    rw [ha] at hsteps
    refine ⟨s', (q.advance r (.done a)).finish { r with rest := .done a } (again a), ?_, by simp⟩
    exact .tail (Work.accesses hr hsteps) (.finish rfl rfl)

/-- The worker runs its only task from beginning to end, and it is pending again. -/
theorem Work.runs_alone {t : τ} {a : ρ} (hrun : (program t).runAlone (enter s) = (.ok a, s'))
    (hagain : again a = true) :
    Relation.ReflTransGen (Work program again enter) (s, ⟨[t], none⟩) (s', ⟨[t], none⟩) := by
  have hsteps := Proc.steps_runAlone (program t) (enter s)
  rw [hrun] at hsteps
  have hstart : Work program again enter (s, ⟨[t], none⟩)
      (enter s, (⟨[t], none⟩ : WorkQueue τ (Proc σ ε ρ)).start t (program t)) :=
    .start rfl List.mem_cons_self
  have hfinish : Work program again enter (s', ⟨[], some ⟨t, false, .done a⟩⟩)
      (s', (⟨[], some ⟨t, false, .done a⟩⟩ : WorkQueue τ (Proc σ ε ρ)).finish ⟨t, false, .done a⟩ (again a)) :=
    .finish rfl rfl
  have hpending : (⟨[t], none⟩ : WorkQueue τ (Proc σ ε ρ)).start t (program t) =
      ⟨[], some ⟨t, false, program t⟩⟩ := by
    simp [WorkQueue.start]
  rw [hpending] at hstart
  rw [hagain] at hfinish
  exact .head hstart (.tail (Work.accesses rfl hsteps) hfinish)

/-- **The worker gets to a task that is live**, when the one it is at never fails, and asks for itself again
if it is that task. -/
theorem Live.exists_started {t : τ} (ht : q.Live t) (hq : q.Holds Proc.NeverFails)
    (hagain : ∀ r a s', q.running = some r → r.task = t → r.rest.runAlone s = (.ok a, s') → again a = true) :
    ∃ s' q', Relation.ReflTransGen (Work program again enter) (s, q) (s', q') ∧
      q'.running = some ⟨t, false, program t⟩ := by
  cases hr : q.running with
  | none =>
    have hpending : t ∈ q.pending := by
      rcases ht with ht | ⟨r, hr', -⟩
      · exact ht
      · cases hr.symm.trans hr'
    exact ⟨enter s, q.start t (program t), .single (.start hr hpending), rfl⟩
  | some r =>
    obtain ⟨a, s', ha⟩ := (hq r hr).runAlone s
    have hsteps := Proc.steps_runAlone r.rest s
    rw [ha] at hsteps
    have hfinished : Relation.ReflTransGen (Work program again enter) (s, q)
        (s', (q.advance r (.done a)).finish { r with rest := .done a } (again a)) :=
      .tail (Work.accesses hr hsteps) (.finish rfl rfl)
    have hpending : t ∈ ((q.advance r (.done a)).finish { r with rest := .done a } (again a)).pending := by
      refine mem_pending_finish.mpr ?_
      rcases ht with ht | ⟨r', hr', hrt, hcancelled⟩
      · exact .inl ht
      · obtain rfl := Option.some.inj (hr.symm.trans hr')
        exact .inr ⟨hrt.symm, hagain _ _ _ hr hrt ha, hcancelled⟩
    exact ⟨enter s', _, .tail hfinished (.start (by simp) hpending), rfl⟩

end Work

end WorkQueue

end EerieLeap.Lib
