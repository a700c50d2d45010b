import EerieLeap.Http.Reassembly

/-!
# Updates that fail half way

The POST handler answers 500 whenever `UpdateSensorsConfig` throws, also when the configuration is
stored by then and the processing service is stopped. The device is the stored configuration and the
configuration the service runs on; what the classes of the device do is sorted by how their calls end.

* `exec_updateDevice` : how an update ends, and in which state of the device;
* `leavesNothingHalfDone_iff` : when a final callback either changes nothing and answers 500, or
  stores the new configuration and leaves the service running on it.
-/

namespace EerieLeap.Http

open EerieLeap.Lib EerieLeap.Lib.Effect EerieLeap.Lib.Proc

/-! ## The device -/

/-- The stored configuration, and the one the processing service runs on, if it runs. -/
structure Device (κ : Type) where
  stored : κ
  running : Option κ
  deriving DecidableEq

/-- How `SensorsConfigurationManager::Update` can end. -/
inductive UpdateOutcome
  | stores
  | refuses
  | throws (what : String)

/-- How `SensorsProcessingService::Stop` can end; one that throws may have stopped the service or
not. -/
inductive StopOutcome
  | returns
  | throws (what : String) (stopped : Bool)

/-- How `SensorsProcessingService::Start` can end. -/
inductive StartOutcome
  | returns
  | throws (what : String)

/-- The classes of a device, by how their calls end in each state of it. -/
structure Parts (J κ : Type) where
  json : JsonSerializer J
  parser : SensorsJsonParser J κ
  update : κ → Device κ → UpdateOutcome
  stop : Device κ → StopOutcome
  start : Device κ → StartOutcome

variable {J κ : Type}

namespace Parts

variable (P : Parts J κ)

def manager : SensorsConfigurationManager κ (Device κ) where
  get := Device.stored
  update new := ExceptT.mk fun d =>
    match P.update new d with
    | .stores => (.ok true, { d with stored := new })
    | .refuses => (.ok false, d)
    | .throws what => (.error what, d)

def service : SensorsProcessingService (Device κ) where
  stop := ExceptT.mk fun d =>
    match P.stop d with
    | .returns => (.ok (), { d with running := none })
    | .throws what stopped => (.error what, if stopped then { d with running := none } else d)
  start := ExceptT.mk fun d =>
    match P.start d with
    | .returns => (.ok (), { d with running := some d.stored })
    | .throws what => (.error what, { d with running := none })

def pointers : Pointers J κ (Device κ) := ⟨P.parser, P.manager, P.service⟩

/-- The configuration a body spells. -/
def configOf (body : List UInt8) : Except String κ :=
  (P.json.deserialize body).bind fun config => P.parser.deserialize config 16 16

/-- **How an update ends**, and what it leaves. -/
theorem exec_updateDevice (body : List UInt8) (d : Device κ) :
    exec (updateDevice P.json P.pointers body) d =
      match P.configOf body with
      | .error what => (.error what, d)
      | .ok new =>
        match P.update new d with
        | .refuses => (.error "Failed to update sensors configuration.", d)
        | .throws what => (.error what, d)
        | .stores =>
          match P.stop ⟨new, d.running⟩ with
          | .throws what stopped => (.error what, ⟨new, if stopped then none else d.running⟩)
          | .returns =>
            match P.start ⟨new, none⟩ with
            | .throws what => (.error what, ⟨new, none⟩)
            | .returns => (.ok (), ⟨new, some new⟩) := by
  have hupdate : ∀ new, exec (P.pointers.manager.update new) d = match P.update new d with
      | .stores => (.ok true, ⟨new, d.running⟩)
      | .refuses => (.ok false, d)
      | .throws what => (.error what, d) := fun _ => rfl
  have hstop : ∀ d', exec P.pointers.service.stop d' = match P.stop d' with
      | .returns => (.ok (), ⟨d'.stored, none⟩)
      | .throws what stopped =>
        (.error what, if stopped then { d' with running := none } else d') := fun _ => rfl
  have hstart : ∀ d', exec P.pointers.service.start d' = match P.start d' with
      | .returns => (.ok (), ⟨d'.stored, some d'.stored⟩)
      | .throws what => (.error what, ⟨d'.stored, none⟩) := fun _ => rfl
  have hparser : P.pointers.parser = P.parser := rfl
  unfold updateDevice configOf
  rw [exec_bind, exec_liftM, hparser]
  rcases P.json.deserialize body with what | config
  · rfl
  simp only [Except.bind]
  rw [exec_bind, exec_liftM]
  rcases P.parser.deserialize config 16 16 with what | new
  · rfl
  simp only []
  rw [exec_bind, hupdate]
  rcases P.update new d with _ | _ | what
  · simp only [Bool.true_eq_false, if_false]
    rw [exec_bind, hstop]
    rcases P.stop ⟨new, d.running⟩ with _ | ⟨what, stopped⟩
    · simp only []
      rw [hstart]
      rcases P.start ⟨new, none⟩ with _ | what <;> rfl
    · cases stopped <;> rfl
  · rfl
  · rfl

end Parts

/-! ## The final callback -/

/-- A final callback that is about to be delivered: its transaction has delivered `received`, and the
last chunk fits behind it. -/
structure FinalCallback (P : Parts J κ) (w : ℕ) where
  statics : Statics J κ (Device κ)
  received : List UInt8
  receiving : Receiving P.pointers statics received
  request : RequestCtx w
  fits : (received ++ request.data).length ≤ sensorsConfigPostBufferSize

namespace FinalCallback

variable {P : Parts J κ} {w : ℕ} (c : FinalCallback P w)

/-- The body that is complete with this callback. -/
def body : List UInt8 := c.received ++ c.request.data

def before : Device κ := c.statics.device

def run : Except Failure (ℤ × ResponseCtx) × Statics J κ (Device κ) :=
  runAlone (sensorsConfigPostHandler P.json .requestDataFinal c.request .cleared) c.statics

def after : Device κ := c.run.2.device

def Answers500 : Prop :=
  ∃ ret response, c.run.1 = .ok (ret, response) ∧ response.status = internalServerError

/-- The device is left as the update leaves it, and an exception is answered with 500. -/
theorem run_outcome :
    c.after = (exec (updateDevice P.json P.pointers c.body) c.before).2 ∧
      (c.Answers500 ↔ ∃ what, (exec (updateDevice P.json P.pointers c.body) c.before).1 = .error what) := by
  have hcopied := c.receiving.copied c.fits
  have hfits := c.fits
  rw [List.length_append] at hfits
  have hrun := runAlone_post_final P.json c.request .cleared
    c.receiving.buffer_length c.receiving.pointsTo (by rw [c.receiving.cursor_eq]; omega)
  simp only [hcopied.cursor_eq, hcopied.take_eq] at hrun
  unfold after Answers500 run body before
  rw [hrun]
  rcases exec (updateDevice P.json P.pointers (c.received ++ c.request.data)) c.statics.device with
    ⟨what | u, d⟩
  · exact ⟨rfl, iff_of_true ⟨_, _, rfl, rfl⟩ ⟨what, rfl⟩⟩
  · refine ⟨rfl, iff_of_false ?_ ?_⟩
    · rintro ⟨ret, response, hok, hstatus⟩
      obtain ⟨-, rfl⟩ := Prod.mk.inj (Except.ok.inj hok)
      exact absurd hstatus (by decide)
    · rintro ⟨what, hwhat⟩
      cases hwhat

/-- After an answer of 500 the device stores and runs what it did; after any other answer it stores
the new configuration and runs on it. -/
def LeavesNothingHalfDone : Prop :=
  (c.Answers500 →
      c.after.stored = c.before.stored ∧ c.after.running.isSome = c.before.running.isSome) ∧
    (¬ c.Answers500 → ∃ new, P.configOf c.body = .ok new ∧ c.after = ⟨new, some new⟩)

/-- If the body is stored, neither `Stop` nor `Start` throws, or nothing has changed by then: the
configuration is the one that was stored, and a service that is stopped was not running. -/
def NothingCommitted : Prop :=
  ∀ new, P.configOf c.body = .ok new → P.update new c.before = .stores →
    match P.stop ⟨new, c.before.running⟩ with
    | .throws _ stopped => new = c.before.stored ∧ (stopped = true → c.before.running = none)
    | .returns =>
      match P.start ⟨new, none⟩ with
      | .throws _ => new = c.before.stored ∧ c.before.running = none
      | .returns => True

/-- **Failed updates**: a final callback leaves nothing half done exactly when no call throws after
something has changed. -/
theorem leavesNothingHalfDone_iff : c.LeavesNothingHalfDone ↔ c.NothingCommitted := by
  obtain ⟨hafter, hanswer⟩ := c.run_outcome
  unfold LeavesNothingHalfDone NothingCommitted
  rw [hanswer, hafter, P.exec_updateDevice]
  rcases P.configOf c.body with what | new
  · simp
  simp only [Except.ok.injEq, forall_eq']
  rcases P.update new c.before with _ | _ | what
  · -- the new configuration is stored
    simp only [forall_const]
    rcases P.stop ⟨new, c.before.running⟩ with _ | ⟨what, stopped⟩
    · rcases P.start ⟨new, none⟩ with _ | what
      · simp
      · cases hrunning : c.before.running <;> simp
    · cases stopped <;> cases hrunning : c.before.running <;> simp
  · simp
  · simp

end FinalCallback

/-- A device that reads every body as the configuration `true`, and whose service does not start on
it. -/
def cyclicParts : Parts Unit Bool where
  json := ⟨fun _ => "\x7b\x7d", fun _ => .ok ()⟩
  parser := ⟨fun _ _ _ => (), fun _ _ _ => .ok true⟩
  update _ _ := .stores
  stop _ := .returns
  start d := if d.stored then .throws "Circular dependency." else .returns

/-- The first callback after the constructor, with a whole body, while the service runs on `false`. -/
def cyclicCallback : FinalCallback cyclicParts 32 where
  statics := constructed cyclicParts.pointers ⟨false, some false⟩
  received := []
  receiving := receiving_constructed _ _
  request := ⟨[0x7B, 0x7D], (by decide : 2 + sensorsConfigPostBufferSize < 2 ^ 32)⟩
  fits := by decide

/-- The service does not start on the new configuration: the answer is 500, and the configuration
stays stored while the service is stopped. -/
theorem cyclicCallback_half_done :
    ¬ ∀ c : FinalCallback cyclicParts 32, c.LeavesNothingHalfDone := by
  intro hall
  obtain ⟨hafter, hanswer⟩ := cyclicCallback.run_outcome
  rw [Parts.exec_updateDevice] at hafter hanswer
  have h500 : cyclicCallback.Answers500 := hanswer.mpr ⟨_, rfl⟩
  have hstored := ((hall cyclicCallback).1 h500).1
  rw [hafter] at hstored
  cases hstored

end EerieLeap.Http
