import EerieLeap.Http.FailedUpdate
import EerieLeap.Http.Startup
import EerieLeap.Lib.History
import EerieLeap.Lib.Simulation

/-!
# The configuration resource

What clients see of the sensors configuration: a resource that holds the body received so far, of any
length, and the device. The handlers answer every sequence of callbacks as it does, chunks of a POST and
GETs in any order, although they keep the body in a buffer of fixed size behind a cursor of `size_t`.

* `Resource.step` : the resource;
* `serve_simulates` : the handlers answer as it does;
* `serve_answers` : so they answer every sequence of callbacks;
* `get_answers_last_stored` : a GET is answered with the configuration that was stored last.
-/

namespace EerieLeap.Http

open EerieLeap.Lib EerieLeap.Lib.Effect EerieLeap.Lib.Proc EerieLeap.Lib.History EerieLeap.Lib.Simulation

variable {J κ δ : Type} {w : ℕ}

/-! ## The resource -/

/-- The body received so far, and the device. -/
structure Resource (δ : Type) where
  received : List UInt8
  device : δ

section Resource

variable (json : JsonSerializer J) (p : Pointers J κ δ)

/-- What a whole body does to the device, and how it is answered. -/
def put (body : List UInt8) (device : δ) : (ℤ × ResponseCtx) × Resource δ :=
  match exec (updateDevice json p body) device with
  | (.ok (), device) => ((0, .cleared), ⟨[], device⟩)
  | (.error what, device) =>
    ((0, ⟨internalServerError, "Failed to parse JSON: " ++ what, true⟩), ⟨[], device⟩)

/-- The answer to a GET. -/
def representation (device : δ) : ResponseCtx where
  status := 0
  body := json.serialize (p.parser.serialize (p.manager.get device) 16 16)
  finalChunk := true

/-- The answer of the resource to a callback, and the resource after it. -/
def Resource.step (R : Resource δ) (r : Request w) : (ℤ × ResponseCtx) × Resource δ :=
  match r.method, r.status with
  | .get, .requestDataFinal => ((0, representation json p R.device), R)
  | .get, _ => ((0, .cleared), R)
  | .post, .transactionAborted => ((0, .cleared), { R with received := [] })
  | .post, .requestDataMore =>
    if sensorsConfigPostBufferSize < (R.received ++ r.ctx.data).length then
      ((-ENOMEM, .cleared), { R with received := [] })
    else ((0, .cleared), { R with received := R.received ++ r.ctx.data })
  | .post, .requestDataFinal =>
    if sensorsConfigPostBufferSize < (R.received ++ r.ctx.data).length then
      ((-ENOMEM, .cleared), { R with received := [] })
    else put json p (R.received ++ r.ctx.data) R.device
  | .other, _ => ((-EINVAL, .cleared), R)

/-- A callback of the handlers that nothing interrupts. -/
def serve (s : Statics J κ δ) (r : Request w) : Except Failure (ℤ × ResponseCtx) × Statics J κ δ :=
  runAlone (r.handler json) s

/-! ## The handlers answer as the resource does -/

/-- The buffer holds what the resource has received, on the same device. -/
structure Holds (s : Statics J κ δ) (R : Resource δ) : Prop where
  receiving : Receiving p s R.received
  device_eq : s.device = R.device

variable {p} {s : Statics J κ δ} {R : Resource δ}

theorem Holds.reset (h : Holds p s R) : Holds p { s with cursor := 0 } { R with received := [] } :=
  ⟨.reset ⟨h.receiving.pointsTo.parser_eq, h.receiving.pointsTo.manager_eq, h.receiving.pointsTo.service_eq⟩
    h.receiving.buffer_length rfl, h.device_eq⟩

theorem runAlone_deref_bind {α β : Type} {pointer : Statics J κ δ → Option α} {a : α} (h : pointer s = some a)
    (f : α → Handler J κ δ β) : runAlone (deref pointer >>= f) s = runAlone (f a) s := by
  rw [runAlone_bind, deref, runAlone_atomic, h]

/-- What a callback that follows the resource answers and leaves. -/
def Follows (p : Pointers J κ δ) (x : Except Failure (ℤ × ResponseCtx) × Statics J κ δ)
    (y : (ℤ × ResponseCtx) × Resource δ) : Prop := x.1 = .ok y.1 ∧ Holds p x.2 y.2

theorem follows_get (h : Holds p s R) (status : TransactionStatus) (ctx : RequestCtx w) :
    Follows p (runAlone (sensorsConfigGetHandler json status .cleared) s)
      (Resource.step json p R (⟨.get, status, ctx⟩ : Request w)) := by
  obtain ⟨hparser, hmanager, -⟩ := h.receiving.pointsTo
  cases status with
  | transactionAborted => exact ⟨rfl, h⟩
  | requestDataMore => exact ⟨rfl, h⟩
  | requestDataFinal =>
    have hrun : runAlone (sensorsConfigGetHandler json .requestDataFinal .cleared) s =
        (.ok (0, representation json p s.device),
          { s with sensorsConfigGetBuffer := (representation json p s.device).body }) := by
      unfold sensorsConfigGetHandler
      rw [if_neg (by decide), if_pos rfl, runAlone_deref_bind hmanager, runAlone_read_bind,
        runAlone_deref_bind hparser]
      rfl
    rw [hrun]
    refine ⟨?_, ⟨⟨hparser, hmanager, h.receiving.pointsTo.service_eq⟩, h.receiving.buffer_length,
      h.receiving.cursor_eq, h.receiving.take_eq⟩, h.device_eq⟩
    rw [h.device_eq]
    rfl

section Chunk

variable {ctx : RequestCtx w}

/-- A chunk that does not fit. -/
theorem follows_tooLong {status : TransactionStatus} (h : Holds p s R) (hstatus : status ≠ .transactionAborted)
    (hlong : sensorsConfigPostBufferSize < (R.received ++ ctx.data).length) :
    Follows p (runAlone (sensorsConfigPostHandler json status ctx .cleared) s)
      ((-ENOMEM, .cleared), { R with received := [] }) := by
  have hcursor := h.receiving.cursor_eq
  have hle := h.receiving.length_le
  rw [List.length_append] at hlong
  rw [runAlone_post_tooLong json ctx .cleared h.receiving.buffer_length hstatus (by omega) (by omega)]
  exact ⟨rfl, h.reset⟩

variable (hfits : ¬ sensorsConfigPostBufferSize < (R.received ++ ctx.data).length)
include hfits

/-- A chunk that fits and is not the last one. -/
theorem follows_more (h : Holds p s R) :
    Follows p (runAlone (sensorsConfigPostHandler json .requestDataMore ctx .cleared) s)
      ((0, .cleared), { R with received := R.received ++ ctx.data }) := by
  have hcursor := h.receiving.cursor_eq
  have hcopied := h.receiving.copied (not_lt.mp hfits)
  rw [List.length_append] at hfits
  rw [runAlone_post_more json ctx .cleared h.receiving.buffer_length (by omega)]
  exact ⟨rfl, hcopied, h.device_eq⟩

/-- The last chunk. -/
theorem follows_final (h : Holds p s R) :
    Follows p (runAlone (sensorsConfigPostHandler json .requestDataFinal ctx .cleared) s)
      (put json p (R.received ++ ctx.data) R.device) := by
  have hcursor := h.receiving.cursor_eq
  have hcopied := h.receiving.copied (not_lt.mp hfits)
  rw [List.length_append] at hfits
  have hrun := runAlone_post_final json ctx .cleared h.receiving.buffer_length h.receiving.pointsTo (by omega)
  simp only [hcopied.cursor_eq, hcopied.take_eq] at hrun
  rw [hrun, h.device_eq]
  unfold put
  have hafter : ∀ device calls errorMsg, Receiving p { s.copied ctx.data with
      device := device, calls := calls, errorMsg := errorMsg, cursor := 0 } [] := fun _ _ _ =>
    .reset ⟨hcopied.pointsTo.parser_eq, hcopied.pointsTo.manager_eq, hcopied.pointsTo.service_eq⟩
      hcopied.buffer_length rfl
  rcases exec (updateDevice json p (R.received ++ ctx.data)) R.device with ⟨what | u, device⟩
  · exact ⟨rfl, hafter _ _ _, rfl⟩
  · exact ⟨rfl, hafter _ _ _, rfl⟩

end Chunk

theorem follows_post (h : Holds p s R) (status : TransactionStatus) (ctx : RequestCtx w) :
    Follows p (runAlone (sensorsConfigPostHandler json status ctx .cleared) s)
      (Resource.step json p R (⟨.post, status, ctx⟩ : Request w)) := by
  unfold Resource.step
  cases status with
  | transactionAborted => exact ⟨rfl, h.reset⟩
  | requestDataMore =>
    by_cases hlong : sensorsConfigPostBufferSize < (R.received ++ ctx.data).length
    · simp only [hlong, if_true]
      exact follows_tooLong json h (by decide) hlong
    · simp only [hlong, if_false]
      exact follows_more json hlong h
  | requestDataFinal =>
    by_cases hlong : sensorsConfigPostBufferSize < (R.received ++ ctx.data).length
    · simp only [hlong, if_true]
      exact follows_tooLong json h (by decide) hlong
    · simp only [hlong, if_false]
      exact follows_final json hlong h

/-- **One callback**. -/
theorem serve_simulates (p : Pointers J κ δ) :
    Simulates (serve json (w := w)) (Resource.step json p) (Holds p) fun x y => x = .ok y := by
  rintro s R ⟨method, status, ctx⟩ h
  cases method with
  | get => exact follows_get json h status ctx
  | post => exact follows_post json h status ctx
  | other => exact ⟨rfl, h⟩

theorem holds_constructed (p : Pointers J κ δ) (device : δ) : Holds p (constructed p device) ⟨[], device⟩ :=
  ⟨receiving_constructed p device, rfl⟩

/-- **Every sequence of callbacks** after the constructor is answered as the resource answers it, and leaves
the same device. -/
theorem serve_answers (p : Pointers J κ δ) (device : δ) (requests : List (Request w)) :
    answers (serve json) (constructed p device) requests =
        (answers (Resource.step json p) ⟨[], device⟩ requests).map .ok ∧
      (requests.foldl (next (serve json)) (constructed p device)).device =
        (requests.foldl (next (Resource.step json p)) ⟨[], device⟩).device := by
  have hholds := holds_constructed p device
  refine ⟨?_, ((serve_simulates json p).foldl hholds requests).device_eq⟩
  rw [← List.forall₂_eq_eq_eq, List.forall₂_map_right_iff]
  exact (serve_simulates json p).answers hholds requests

end Resource

/-! ## The configuration that is stored -/

namespace Parts

variable (P : Parts J κ)

/-- The configuration that a callback stores, if it stores one. -/
def storedBy (R : Resource (Device κ)) (r : Request w) : Option κ :=
  if r.method = .post ∧ r.status = .requestDataFinal ∧
      (R.received ++ r.ctx.data).length ≤ sensorsConfigPostBufferSize then
    match P.configOf (R.received ++ r.ctx.data) with
    | .error _ => none
    | .ok new =>
      match P.update new R.device with
      | .stores => some new
      | .refuses => none
      | .throws _ => none
  else none

/-- A whole body is stored when it spells a configuration and the manager takes it, whatever the service does
after that. -/
theorem stored_put (body : List UInt8) (d : Device κ) : (put P.json P.pointers body d).2.device.stored =
    (match P.configOf body with
      | .error _ => none
      | .ok new =>
        match P.update new d with
        | .stores => some new
        | .refuses => none
        | .throws _ => none).getD d.stored := by
  unfold put
  rw [P.exec_updateDevice]
  cases P.configOf body with
  | error what => rfl
  | ok new =>
    simp only
    cases P.update new d with
    | refuses => rfl
    | throws what => rfl
    | stores =>
      simp only
      cases P.stop ⟨new, d.running⟩ with
      | throws what stopped => rfl
      | returns =>
        simp only
        cases P.start ⟨new, none⟩ <;> rfl

/-- **One callback** stores what it stores, and leaves the stored configuration alone where that is nothing. -/
theorem stored_step (R : Resource (Device κ)) (r : Request w) :
    (next (Resource.step P.json P.pointers) R r).device.stored = (P.storedBy R r).getD R.device.stored := by
  obtain ⟨method, status, ctx⟩ := r
  unfold next Resource.step storedBy
  cases method with
  | get => cases status <;> rfl
  | other => cases status <;> rfl
  | post =>
    cases status with
    | transactionAborted => rfl
    | requestDataMore =>
      simp only
      split <;> rfl
    | requestDataFinal =>
      simp only [true_and, ← not_lt]
      by_cases hlong : sensorsConfigPostBufferSize < (R.received ++ ctx.data).length
      · simp only [hlong, if_true, not_true_eq_false, if_false, Option.getD_none]
      · simp only [hlong, if_false, not_false_eq_true, if_true]
        exact P.stored_put _ _

/-- The configuration stored after some callbacks: that of the last one that stores any. -/
def lastStored (device : Device κ) (requests : List (Request w)) : κ :=
  (last (next (Resource.step P.json P.pointers)) P.storedBy ⟨[], device⟩ requests).getD device.stored

theorem stored_foldl (device : Device κ) (requests : List (Request w)) :
    (requests.foldl (next (Resource.step P.json P.pointers)) ⟨[], device⟩).device.stored =
      P.lastStored device requests :=
  foldl_eq_last (I := fun _ => True) (g := fun R : Resource (Device κ) => R.device.stored) (fun _ _ h => h)
    (fun R r _ => P.stored_step R r) trivial requests

/-- **A GET** at any point of any sequence of callbacks is answered with the configuration that was stored
last. -/
theorem get_answers_last_stored (device : Device κ) (requests : List (Request w)) :
    AtEach (fun before r => r.method = .get → r.status = .requestDataFinal →
      (serve P.json (before.foldl (next (serve P.json)) (constructed P.pointers device)) r).1 =
        .ok (0, ⟨0, P.json.serialize (P.parser.serialize (P.lastStored device before) 16 16), true⟩))
      requests := by
  rintro before ⟨method, status, ctx⟩ after - hmethod hstatus
  obtain rfl : method = .get := hmethod
  obtain rfl : status = .requestDataFinal := hstatus
  have hholds := (serve_simulates P.json P.pointers).foldl (holds_constructed P.pointers device) before
  obtain ⟨hanswer, -⟩ := serve_simulates P.json P.pointers _ _ (⟨.get, .requestDataFinal, ctx⟩ : Request w) hholds
  rw [hanswer, ← P.stored_foldl device before]
  rfl

/-- Configurations that are bodies, and are written as their length. -/
def lengths : Parts (List UInt8) (List UInt8) where
  json := ⟨fun body => toString body.length, .ok⟩
  parser := ⟨fun body _ _ => body, fun body _ _ => .ok body⟩
  update _ _ := .stores
  stop _ := .returns
  start _ := .returns

theorem get_answers_posted :
    let post : Request 32 := ⟨.post, .requestDataFinal, ⟨[7, 7, 7], by decide⟩⟩
    let get : Request 32 := ⟨.get, .requestDataFinal, ⟨[], by decide⟩⟩
    (serve lengths.json ([post].foldl (next (serve lengths.json)) (constructed lengths.pointers ⟨[], none⟩))
      get).1 = .ok (0, ⟨0, "3", true⟩) := by
  intro post get
  have hlast : lengths.lastStored ⟨[], none⟩ [post] = [7, 7, 7] := by decide
  have hanswer := lengths.get_answers_last_stored ⟨[], none⟩ [post, get] [post] get [] rfl rfl rfl
  rwa [hlast] at hanswer

end Parts

end EerieLeap.Http
