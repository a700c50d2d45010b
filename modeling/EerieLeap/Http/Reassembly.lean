import EerieLeap.Http.SensorsApiController

/-!
# Reassembling the body of a POST

The POST handler collects the chunks of a transaction in a buffer that outlives it. `deliverAll` hands
the handler the callbacks of any list of transactions, one after the other.

* `runAlone_updateSensorsConfig` : on a device that is initialised, the update is `updateDevice`;
* `runAlone_postHandler` : what one callback does;
* `Receiving` : the invariant between callbacks, that the buffer starts with what the running
  transaction has delivered;
* `exists_final` : a transaction that fits comes to its final callback;
* `reassembled` : every callback copies inside the buffer, rejects exactly the bodies that are too
  long, and hands on exactly the bodies that have come to their end.
-/

namespace EerieLeap.Http

open EerieLeap.Lib EerieLeap.Lib.Effect EerieLeap.Lib.Proc

variable {J κ δ : Type}

/-! ## A handler on an initialised device -/

/-- The pointers, once the constructor has set them. -/
structure Pointers (J κ δ : Type) where
  parser : SensorsJsonParser J κ
  manager : SensorsConfigurationManager κ δ
  service : SensorsProcessingService δ

/-- The constructor has set the pointers. -/
structure Statics.PointsTo (s : Statics J κ δ) (p : Pointers J κ δ) : Prop where
  parser_eq : s.sensorsJsonParser = some p.parser
  manager_eq : s.sensorsConfigurationManager = some p.manager
  service_eq : s.sensorsProcessingService = some p.service

/-- What `UpdateSensorsConfig` does to the device when no pointer is null. -/
def updateDevice (json : JsonSerializer J) (p : Pointers J κ δ) (buffer : List UInt8) :
    Eff δ String Unit := do
  let jsonSensorsConfig ← liftM (json.deserialize buffer)
  let sensors ← liftM (p.parser.deserialize jsonSensorsConfig 16 16)
  if (← p.manager.update sensors) = false then
    throw "Failed to update sensors configuration."
  p.service.stop
  p.service.start

section OnDevice

variable {α β : Type} (p : Pointers J κ δ)

/-- A program of the controller does what a program on the device does, and nothing else, as long as
the pointers are set. -/
def OnDevice (x : Handler J κ δ α) (y : Eff δ String α) : Prop :=
  ∀ s : Statics J κ δ, s.PointsTo p →
    runAlone x s =
      ((exec y s.device).1.mapError .exception, { s with device := (exec y s.device).2 })

variable {p}

theorem onDevice_call (x : Eff δ String α) : OnDevice p (call x) x := fun _ _ => runAlone_atomic _ _

theorem onDevice_convert (x : Except String α) : OnDevice p (convert x) (liftM x) := by
  intro s _
  rw [convert, runAlone_ofExcept, exec_liftM]

theorem onDevice_exception (what : String) :
    OnDevice p (Proc.fail (.exception what) : Handler J κ δ α) (throw what) := fun _ _ => rfl

theorem OnDevice.bind {x : Handler J κ δ α} {y : Eff δ String α} {f : α → Handler J κ δ β}
    {g : α → Eff δ String β} (hx : OnDevice p x y) (hf : ∀ a, OnDevice p (f a) (g a)) :
    OnDevice p (x >>= f) (y >>= g) := by
  intro s hs
  rw [runAlone_bind, exec_bind, hx s hs]
  rcases exec y s.device with ⟨what | a, d⟩
  · rfl
  · exact hf a { s with device := d } ⟨hs.parser_eq, hs.manager_eq, hs.service_eq⟩

theorem onDevice_deref {pointer : Statics J κ δ → Option α} {a : α} {f : α → Handler J κ δ β}
    {y : Eff δ String β} (hpointer : ∀ s : Statics J κ δ, s.PointsTo p → pointer s = some a)
    (hf : OnDevice p (f a) y) : OnDevice p (deref pointer >>= f) y := by
  intro s hs
  rw [runAlone_bind, deref, runAlone_atomic, hpointer s hs]
  exact hf s hs

theorem onDevice_ite {c : Prop} [Decidable c] {x x' : Handler J κ δ α} {y y' : Eff δ String α}
    (hx : OnDevice p x y) (hx' : OnDevice p x' y') :
    OnDevice p (if c then x else x') (if c then y else y') := by
  split
  · exact hx
  · exact hx'

end OnDevice

variable (json : JsonSerializer J) {p : Pointers J κ δ}

/-- **The update** on an initialised device does what `updateDevice` does to the device. -/
theorem runAlone_updateSensorsConfig {s : Statics J κ δ} (hs : s.PointsTo p) (buffer : List UInt8) :
    runAlone (updateSensorsConfig json buffer) s =
      ((exec (updateDevice json p buffer) s.device).1.mapError .exception,
        { s with
          device := (exec (updateDevice json p buffer) s.device).2
          calls := s.calls ++ [.updateSensorsConfig buffer] }) := by
  unfold updateSensorsConfig updateDevice
  rw [runAlone_write_bind]
  refine OnDevice.bind (onDevice_convert _) (fun config => ?_) _
    ⟨hs.parser_eq, hs.manager_eq, hs.service_eq⟩
  refine onDevice_deref (fun _ h => h.parser_eq) ?_
  refine (onDevice_convert _).bind fun sensors => ?_
  refine onDevice_deref (fun _ h => h.manager_eq) ?_
  refine (onDevice_call _).bind fun updated => ?_
  have hrest : OnDevice p
      (do
        let service ← deref (·.sensorsProcessingService)
        call service.stop
        let service ← deref (·.sensorsProcessingService)
        call service.start)
      (do p.service.stop; p.service.start) :=
    onDevice_deref (fun _ h => h.service_eq) <| (onDevice_call _).bind fun _ =>
      onDevice_deref (fun _ h => h.service_eq) (onDevice_call _)
  exact onDevice_ite ((onDevice_exception _).bind fun _ => hrest) hrest

/-! ## One callback -/

section PostHandler

variable {w : ℕ} {s : Statics J κ δ} (request : RequestCtx w) (response : ResponseCtx)

/-- The static members after a chunk has been copied behind the cursor. -/
def Statics.copied (s : Statics J κ δ) (data : List UInt8) : Statics J κ δ :=
  { s with
    sensorsConfigPostBuffer := overwrite s.sensorsConfigPostBuffer s.cursor data
    cursor := s.cursor + data.length
    calls := s.calls ++ [.memcpy s.cursor data.length s.sensorsConfigPostBuffer.length] }

/-- The sum of `size_t` is the sum. -/
theorem size_mod (hcursor : s.cursor ≤ sensorsConfigPostBufferSize) :
    (request.data.length + s.cursor) % 2 ^ w = request.data.length + s.cursor :=
  Nat.mod_eq_of_lt (lt_of_le_of_lt (Nat.add_le_add_left hcursor _) request.fits)

variable (hbuffer : s.sensorsConfigPostBuffer.length = sensorsConfigPostBufferSize)
include hbuffer

theorem runAlone_post_tooLong {status : TransactionStatus} (hstatus : status ≠ .transactionAborted)
    (hcursor : s.cursor ≤ sensorsConfigPostBufferSize)
    (hlong : sensorsConfigPostBufferSize < request.data.length + s.cursor) :
    runAlone (sensorsConfigPostHandler json status request response) s =
      (.ok (-ENOMEM, response), { s with cursor := 0 }) := by
  unfold sensorsConfigPostHandler
  rw [if_neg hstatus, runAlone_read_bind, size_mod request hcursor, hbuffer]
  simp only [hlong, decide_true, if_true]
  rfl

/-- A chunk that fits is copied, and the handler goes on. -/
theorem runAlone_post_fits {status : TransactionStatus} (hstatus : status ≠ .transactionAborted)
    (hfits : request.data.length + s.cursor ≤ sensorsConfigPostBufferSize) :
    runAlone (sensorsConfigPostHandler json status request response) s =
      runAlone
        (if status = .requestDataFinal then do
          let buffer ← .read fun s => s.sensorsConfigPostBuffer.take s.cursor
          let response ← Proc.handle (do updateSensorsConfig json buffer; return response)
            (answerException response)
          setCursor 0
          return (0, response)
        else return (0, response)) (s.copied request.data) := by
  have hmod := size_mod request (show s.cursor ≤ _ by omega)
  unfold sensorsConfigPostHandler
  rw [if_neg hstatus, runAlone_read_bind, hmod, hbuffer]
  simp only [not_lt.mpr hfits, decide_false, Bool.false_eq_true, if_false]
  rw [runAlone_write_bind, runAlone_write_bind, Nat.add_comm s.cursor, hmod,
    Nat.add_comm request.data.length, Statics.copied]

theorem runAlone_post_more
    (hfits : request.data.length + s.cursor ≤ sensorsConfigPostBufferSize) :
    runAlone (sensorsConfigPostHandler json .requestDataMore request response) s =
      (.ok (0, response), s.copied request.data) :=
  runAlone_post_fits json request response hbuffer (by decide) hfits

/-- The last chunk: the update is run on what the buffer holds, and an exception is answered. -/
theorem runAlone_post_final (hs : s.PointsTo p)
    (hfits : request.data.length + s.cursor ≤ sensorsConfigPostBufferSize) :
    let s' := s.copied request.data
    let body := s'.sensorsConfigPostBuffer.take s'.cursor
    runAlone (sensorsConfigPostHandler json .requestDataFinal request response) s =
      match exec (updateDevice json p body) s.device with
      | (.ok (), d) =>
        (.ok (0, response),
          { s' with device := d, calls := s'.calls ++ [.updateSensorsConfig body], cursor := 0 })
      | (.error what, d) =>
        (.ok (0, ⟨internalServerError, "Failed to parse JSON: " ++ what, true⟩),
          { s' with
            device := d
            calls := s'.calls ++ [.updateSensorsConfig body]
            errorMsg := "Failed to parse JSON: " ++ what
            cursor := 0 }) := by
  intro s' body
  have hs' : s'.PointsTo p := ⟨hs.parser_eq, hs.manager_eq, hs.service_eq⟩
  have hdevice : s'.device = s.device := rfl
  rw [runAlone_post_fits json request response hbuffer (by decide) hfits, if_pos rfl, runAlone_read_bind, runAlone_bind,
    runAlone_handle, runAlone_bind, runAlone_updateSensorsConfig json hs', hdevice]
  rcases exec (updateDevice json p body) s.device with ⟨what | u, d⟩
  · rfl
  · rfl

end PostHandler

/-! ## Transactions -/

/-- How the server ends a transaction that is not rejected; an aborted callback carries a request that
the handler does not look at. -/
inductive Ending (w : ℕ)
  | final (last : RequestCtx w)
  | aborted (request : RequestCtx w)

/-- A transaction: its chunks before the end, its end, and whether the server reports it as aborted
after it has been rejected. -/
structure Transaction (w : ℕ) where
  chunks : List (RequestCtx w)
  ending : Ending w
  abortedAfterReject : Option (RequestCtx w)

/-- Nothing has been done yet in a callback. -/
def Statics.clearCalls (s : Statics J κ δ) : Statics J κ δ := { s with calls := [] }

/-- A callback: the bytes its transaction has delivered up to and with it, what it returned and what
it did. -/
structure Callback where
  status : TransactionStatus
  received : List UInt8
  result : Except Failure (ℤ × ResponseCtx)
  calls : List Call

/-- The handler has returned a negative value. -/
def Callback.rejected (c : Callback) : Bool :=
  match c.result with
  | .ok (ret, _) => ret < 0
  | .error _ => false

/-- The bodies that have been handed to `UpdateSensorsConfig`. -/
def updates (calls : List Call) : List (List UInt8) :=
  calls.filterMap fun
    | .updateSensorsConfig buffer => some buffer
    | .memcpy .. => none

section Server

variable {w : ℕ}

def callback (status : TransactionStatus) (received : List UInt8) (request : RequestCtx w)
    (s : Statics J κ δ) : Callback × Statics J κ δ :=
  let run := runAlone (sensorsConfigPostHandler json status request .cleared) s.clearCalls
  ({ status := status, received := received, result := run.1, calls := run.2.calls }, run.2)

/-- After a callback that may have rejected the transaction: the server goes on unless it has. -/
def goOn (abortedAfterReject : Option (RequestCtx w)) (c : Callback × Statics J κ δ)
    (next : Statics J κ δ → List Callback × Statics J κ δ) : List Callback × Statics J κ δ :=
  if c.1.rejected then
    match abortedAfterReject with
    | none => ([c.1], c.2)
    | some request =>
      let a := callback json .transactionAborted c.1.received request c.2
      ([c.1, a.1], a.2)
  else (c.1 :: (next c.2).1, (next c.2).2)

/-- The rest of a transaction that has delivered `received`. -/
def deliver (t : Transaction w) (received : List UInt8) :
    List (RequestCtx w) → Statics J κ δ → List Callback × Statics J κ δ
  | [], s =>
    match t.ending with
    | .final last =>
      goOn json t.abortedAfterReject
        (callback json .requestDataFinal (received ++ last.data) last s) fun s' => ([], s')
    | .aborted request =>
      let a := callback json .transactionAborted received request s
      ([a.1], a.2)
  | chunk :: chunks, s =>
    goOn json t.abortedAfterReject
      (callback json .requestDataMore (received ++ chunk.data) chunk s)
      (deliver t (received ++ chunk.data) chunks)

/-- The callbacks of one transaction after the other. -/
def deliverAll : List (Transaction w) → Statics J κ δ → List Callback × Statics J κ δ
  | [], s => ([], s)
  | t :: ts, s =>
    let r := deliver json t [] t.chunks s
    (r.1 ++ (deliverAll ts r.2).1, (deliverAll ts r.2).2)

end Server

/-! ## The invariant -/

/-- Between callbacks, the buffer starts with what the running transaction has delivered, and the
cursor stands behind it. -/
structure Receiving (p : Pointers J κ δ) (s : Statics J κ δ) (received : List UInt8) : Prop where
  pointsTo : s.PointsTo p
  buffer_length : s.sensorsConfigPostBuffer.length = sensorsConfigPostBufferSize
  cursor_eq : s.cursor = received.length
  take_eq : s.sensorsConfigPostBuffer.take received.length = received

/-- What is claimed of a callback: it returns, it rejects exactly what is too long, it copies inside
the buffer, and it hands on exactly a body that has come to its end and is not rejected. -/
structure Callback.Correct (c : Callback) : Prop where
  returns : ∃ ret response, c.result = .ok (ret, response) ∧ (ret = 0 ∨ ret = -ENOMEM) ∧
    (ret = -ENOMEM ↔ c.status ≠ .transactionAborted ∧ sensorsConfigPostBufferSize < c.received.length)
  copies_inside : ∀ offset length bufferSize, .memcpy offset length bufferSize ∈ c.calls →
    offset + length ≤ bufferSize
  updates_eq : updates c.calls =
    if c.status = .requestDataFinal ∧ c.rejected = false then [c.received] else []

theorem overwrite_length {buffer data : List UInt8} {offset : ℕ}
    (h : offset + data.length ≤ buffer.length) : (overwrite buffer offset data).length = buffer.length := by
  simp only [overwrite, List.length_append, List.length_take, List.length_drop]
  omega

theorem take_overwrite {buffer data : List UInt8} {offset : ℕ}
    (h : offset + data.length ≤ buffer.length) :
    (overwrite buffer offset data).take (offset + data.length) = buffer.take offset ++ data := by
  rw [overwrite, List.take_left']
  rw [List.length_append, List.length_take, Nat.min_eq_left (by omega)]

section Receiving

variable {w : ℕ} {s : Statics J κ δ} {received : List UInt8} {request : RequestCtx w}

theorem Receiving.length_le (h : Receiving p s received) :
    received.length ≤ sensorsConfigPostBufferSize := by
  have := congrArg List.length h.take_eq
  rw [List.length_take, h.buffer_length] at this
  omega

/-- With the cursor back at zero the next transaction can begin. -/
theorem Receiving.reset (hp : s.PointsTo p)
    (hbuffer : s.sensorsConfigPostBuffer.length = sensorsConfigPostBufferSize) (hcursor : s.cursor = 0) :
    Receiving p s [] := ⟨hp, hbuffer, hcursor, rfl⟩

theorem Receiving.copied (h : Receiving p s received)
    (hfits : (received ++ request.data).length ≤ sensorsConfigPostBufferSize) :
    Receiving p (s.copied request.data) (received ++ request.data) := by
  have hlen : s.cursor + request.data.length ≤ s.sensorsConfigPostBuffer.length := by
    rw [h.buffer_length, h.cursor_eq, ← List.length_append]
    exact hfits
  refine ⟨⟨h.pointsTo.parser_eq, h.pointsTo.manager_eq, h.pointsTo.service_eq⟩, ?_, ?_, ?_⟩
  · exact (overwrite_length hlen).trans h.buffer_length
  · rw [Statics.copied, List.length_append, h.cursor_eq]
  · rw [List.length_append, ← h.cursor_eq, Statics.copied, take_overwrite hlen, h.cursor_eq, h.take_eq]

/-- Clearing the record of the calls does not touch what a transaction has delivered. -/
theorem Receiving.clearCalls (h : Receiving p s received) :
    Receiving p s.clearCalls received :=
  ⟨⟨h.pointsTo.parser_eq, h.pointsTo.manager_eq, h.pointsTo.service_eq⟩, h.buffer_length, h.cursor_eq,
    h.take_eq⟩

/-- A copy is made inside the buffer. -/
theorem Receiving.copies_inside (h : Receiving p s received)
    (hfits : (received ++ request.data).length ≤ sensorsConfigPostBufferSize) (offset length : ℕ)
    (bufferSize : ℕ)
    (hmem : .memcpy offset length bufferSize ∈ (s.clearCalls.copied request.data).calls) :
    offset + length ≤ bufferSize := by
  obtain ⟨rfl, rfl, rfl⟩ : _ ∧ _ ∧ _ := by
    simpa [Statics.copied, Statics.clearCalls] using hmem
  rw [h.cursor_eq, h.buffer_length, ← List.length_append]
  exact hfits

/-- An aborted callback. -/
theorem callback_aborted (h : Receiving p s received) (received' : List UInt8) (request : RequestCtx w) :
    (callback json .transactionAborted received' request s).1.Correct ∧
      Receiving p (callback json .transactionAborted received' request s).2 [] := by
  obtain ⟨hp, hbuffer, -, -⟩ := h.clearCalls
  refine ⟨⟨⟨0, .cleared, rfl, Or.inl rfl, ?_⟩, fun _ _ _ hmem => ?_, rfl⟩,
    .reset ⟨hp.parser_eq, hp.manager_eq, hp.service_eq⟩ hbuffer rfl⟩
  · refine iff_of_false (by decide) fun h => h.1 rfl
  · cases hmem

/-- A chunk that does not fit. -/
theorem callback_tooLong (status : TransactionStatus) (h : Receiving p s received)
    (hstatus : status ≠ .transactionAborted)
    (hlong : sensorsConfigPostBufferSize < (received ++ request.data).length) :
    (callback json status (received ++ request.data) request s).1.Correct ∧
      (callback json status (received ++ request.data) request s).1.rejected = true ∧
      Receiving p (callback json status (received ++ request.data) request s).2 [] := by
  have hle := h.length_le
  obtain ⟨hp, hbuffer, hcursor, -⟩ := h.clearCalls
  rw [List.length_append] at hlong
  have hrun := runAlone_post_tooLong json request .cleared hbuffer hstatus
    (by rw [hcursor]; exact hle) (by rw [hcursor]; omega)
  unfold callback
  rw [hrun]
  refine ⟨⟨⟨-ENOMEM, .cleared, rfl, Or.inr rfl, ?_⟩, fun _ _ _ hmem => ?_, ?_⟩, rfl,
    .reset ⟨hp.parser_eq, hp.manager_eq, hp.service_eq⟩ hbuffer rfl⟩
  · refine iff_of_true rfl ⟨hstatus, ?_⟩
    rw [List.length_append]
    exact hlong
  · cases hmem
  · exact (if_neg fun h => by cases h.2).symm

/-- A callback that returns zero on a body that fits. -/
theorem Callback.Correct.of_fits {status : TransactionStatus} {received : List UInt8}
    {response : ResponseCtx} {calls : List Call}
    (hfits : received.length ≤ sensorsConfigPostBufferSize)
    (hcopies : ∀ offset length bufferSize, .memcpy offset length bufferSize ∈ calls →
      offset + length ≤ bufferSize)
    (hupdates : updates calls = if status = .requestDataFinal then [received] else []) :
    Callback.Correct ⟨status, received, .ok (0, response), calls⟩ := by
  refine ⟨⟨0, response, rfl, Or.inl rfl, ?_⟩, hcopies, ?_⟩
  · exact iff_of_false (by decide) fun h => absurd h.2 (not_lt.mpr hfits)
  · rw [hupdates]
    simp [Callback.rejected]

/-- A chunk that fits, before the end of the transaction. -/
theorem callback_more (h : Receiving p s received)
    (hfits : (received ++ request.data).length ≤ sensorsConfigPostBufferSize) :
    (callback json .requestDataMore (received ++ request.data) request s).1.Correct ∧
      (callback json .requestDataMore (received ++ request.data) request s).1.rejected = false ∧
      Receiving p (callback json .requestDataMore (received ++ request.data) request s).2
        (received ++ request.data) := by
  have hcopied := h.clearCalls.copied hfits
  obtain ⟨hp, hbuffer, hcursor, -⟩ := h.clearCalls
  have hlen := hfits
  rw [List.length_append] at hlen
  have hrun := runAlone_post_more json request .cleared hbuffer
    (by rw [hcursor]; omega)
  unfold callback
  rw [hrun]
  exact ⟨.of_fits hfits (h.copies_inside hfits) rfl, rfl, hcopied⟩

/-- The last chunk, when it fits. -/
theorem callback_final (h : Receiving p s received)
    (hfits : (received ++ request.data).length ≤ sensorsConfigPostBufferSize) :
    (callback json .requestDataFinal (received ++ request.data) request s).1.Correct ∧
      (callback json .requestDataFinal (received ++ request.data) request s).1.rejected = false ∧
      Receiving p (callback json .requestDataFinal (received ++ request.data) request s).2 [] := by
  have hcopied := h.clearCalls.copied hfits
  obtain ⟨hp, hbuffer, hcursor, -⟩ := h.clearCalls
  have hlen := hfits
  rw [List.length_append] at hlen
  have hrun := runAlone_post_final json request .cleared hbuffer hp
    (by rw [hcursor]; omega)
  simp only [hcopied.cursor_eq, hcopied.take_eq] at hrun
  -- the update is called once, behind the copy
  have hcalls : ∀ body, updates ((s.clearCalls.copied request.data).calls ++ [.updateSensorsConfig body]) =
      [body] := fun _ => rfl
  have hcopies : ∀ body offset length bufferSize,
      .memcpy offset length bufferSize ∈
        (s.clearCalls.copied request.data).calls ++ [Call.updateSensorsConfig body] →
      offset + length ≤ bufferSize := fun body offset length bufferSize hmem =>
    h.copies_inside hfits offset length bufferSize (by simpa using hmem)
  unfold callback
  rw [hrun]
  rcases exec (updateDevice json p (received ++ request.data)) s.clearCalls.device with ⟨what | u, d⟩
  · refine ⟨.of_fits hfits (hcopies _) (hcalls _), rfl, ?_⟩
    exact ⟨⟨hcopied.pointsTo.parser_eq, hcopied.pointsTo.manager_eq, hcopied.pointsTo.service_eq⟩,
      hcopied.buffer_length, rfl, rfl⟩
  · refine ⟨.of_fits hfits (hcopies _) (hcalls _), rfl, ?_⟩
    exact ⟨⟨hcopied.pointsTo.parser_eq, hcopied.pointsTo.manager_eq, hcopied.pointsTo.service_eq⟩,
      hcopied.buffer_length, rfl, rfl⟩

/-- A part of a run: its callbacks do what is claimed, and a transaction can begin after it. -/
def Delivered (p : Pointers J κ δ) (r : List Callback × Statics J κ δ) : Prop :=
  (∀ c ∈ r.1, c.Correct) ∧ Receiving p r.2 []

/-- Whether or not a callback rejects its transaction, the part that follows is as claimed. -/
theorem delivered_goOn {abortedAfterReject : Option (RequestCtx w)} {c : Callback × Statics J κ δ}
    {next : Statics J κ δ → List Callback × Statics J κ δ} (hc : c.1.Correct)
    (hrejected : c.1.rejected = true → Receiving p c.2 [])
    (hnext : c.1.rejected = false → Delivered p (next c.2)) :
    Delivered p (goOn json abortedAfterReject c next) := by
  unfold goOn
  cases hr : c.1.rejected with
  | false =>
    obtain ⟨hcs, hreceiving⟩ := hnext hr
    refine ⟨fun c' hc' => ?_, hreceiving⟩
    rcases List.mem_cons.mp hc' with rfl | hc'
    · exact hc
    · exact hcs c' hc'
  | true =>
    have hreceiving := hrejected hr
    cases abortedAfterReject with
    | none => exact ⟨fun c' hc' => by rwa [List.mem_singleton.mp hc'], hreceiving⟩
    | some request =>
      obtain ⟨ha, hreset⟩ := callback_aborted json hreceiving c.1.received request
      refine ⟨fun c' hc' => ?_, hreset⟩
      rcases List.mem_cons.mp hc' with rfl | hc'
      · exact hc
      · rwa [List.mem_singleton.mp hc']

/-- The rest of a transaction, by induction on the chunks that are still to come. -/
theorem delivered_deliver (t : Transaction w) (chunks : List (RequestCtx w))
    (h : Receiving p s received) : Delivered p (deliver json t received chunks s) := by
  induction chunks generalizing received s with
  | nil =>
    unfold deliver
    rcases t.ending with last | request
    · rcases Nat.lt_or_ge sensorsConfigPostBufferSize (received ++ last.data).length with hlen | hlen
      · obtain ⟨hc, hr, hreset⟩ := callback_tooLong json .requestDataFinal h (by decide) hlen
        exact delivered_goOn json hc (fun _ => hreset) fun hr' => absurd (hr.symm.trans hr') (by decide)
      · obtain ⟨hc, hr, hreset⟩ := callback_final json h hlen
        exact delivered_goOn json hc (fun _ => hreset) fun _ => ⟨by simp, hreset⟩
    · obtain ⟨ha, hreset⟩ := callback_aborted json h received request
      exact ⟨fun c hc => by rwa [List.mem_singleton.mp hc], hreset⟩
  | cons chunk chunks ih =>
    unfold deliver
    rcases Nat.lt_or_ge sensorsConfigPostBufferSize (received ++ chunk.data).length with hlen | hlen
    · obtain ⟨hc, hr, hreset⟩ := callback_tooLong json .requestDataMore h (by decide) hlen
      exact delivered_goOn json hc (fun _ => hreset) fun hr' => absurd (hr.symm.trans hr') (by decide)
    · obtain ⟨hc, hr, hreceiving⟩ := callback_more json h hlen
      exact delivered_goOn json hc (fun hr' => absurd (hr.symm.trans hr') (by decide)) fun _ =>
        ih hreceiving

theorem delivered_deliverAll {ts : List (Transaction w)} (h : Receiving p s []) :
    Delivered p (deliverAll json ts s) := by
  induction ts generalizing s with
  | nil => exact ⟨by simp [deliverAll], h⟩
  | cons t ts ih =>
    obtain ⟨hc, hreset⟩ := delivered_deliver json t t.chunks h
    obtain ⟨hcs, hend⟩ := ih hreset
    refine ⟨fun c hc' => ?_, hend⟩
    rcases List.mem_append.mp hc' with hc' | hc'
    · exact hc c hc'
    · exact hcs c hc'

end Receiving

/-- The static members after the constructor, on a device in any state. -/
def constructed (p : Pointers J κ δ) (device : δ) : Statics J κ δ :=
  (runAlone (construct p.parser p.manager p.service) (Statics.initial device)).2

theorem receiving_constructed (p : Pointers J κ δ) (device : δ) : Receiving p (constructed p device) [] :=
  ⟨⟨rfl, rfl, rfl⟩, List.length_replicate .., rfl, rfl⟩

/-- **Reassembly**: in every run of POST transactions after the constructor, every callback returns
zero or rejects, rejects exactly when its transaction has delivered more than the buffer holds, copies
inside the buffer, and calls `UpdateSensorsConfig` exactly if it ends a transaction and does not reject
it, once and with exactly what the transaction has delivered. -/
theorem reassembled {w : ℕ} (p : Pointers J κ δ) (device : δ) (ts : List (Transaction w)) :
    ∀ c ∈ (deliverAll json ts (constructed p device)).1, c.Correct :=
  (delivered_deliverAll json (receiving_constructed p device)).1

/-- **A transaction that fits** comes to its final callback, with all that it has delivered. -/
theorem exists_final {w : ℕ} {p : Pointers J κ δ} {s : Statics J κ δ} {received : List UInt8} (t : Transaction w)
    {last : RequestCtx w} (chunks : List (RequestCtx w)) (h : Receiving p s received)
    (ht : t.ending = .final last)
    (hfits : (received ++ chunks.flatMap RequestCtx.data ++ last.data).length ≤ sensorsConfigPostBufferSize) :
    ∃ c ∈ (deliver json t received chunks s).1, c.status = .requestDataFinal ∧ c.rejected = false ∧
      c.received = received ++ chunks.flatMap RequestCtx.data ++ last.data := by
  induction chunks generalizing received s with
  | nil =>
    rw [List.flatMap_nil, List.append_nil] at hfits ⊢
    obtain ⟨-, hr, -⟩ := callback_final json h hfits
    refine ⟨(callback json .requestDataFinal (received ++ last.data) last s).1, ?_, rfl, hr, rfl⟩
    unfold deliver goOn
    rw [ht]
    simp [hr]
  | cons chunk chunks ih =>
    rw [List.flatMap_cons, ← List.append_assoc] at hfits ⊢
    have hlen : (received ++ chunk.data).length ≤ sensorsConfigPostBufferSize := by
      rw [List.append_assoc, List.length_append] at hfits
      exact Nat.le_trans (Nat.le_add_right _ _) hfits
    obtain ⟨-, hr, hreceiving⟩ := callback_more json h hlen
    obtain ⟨c, hc, hfinal⟩ := ih hreceiving hfits
    refine ⟨c, ?_, hfinal⟩
    unfold deliver goOn
    rw [hr, if_neg (by decide)]
    exact List.mem_cons_of_mem _ hc

/-- Classes that do nothing. -/
def idlePointers : Pointers Unit Unit Unit where
  parser := ⟨fun _ _ _ => (), fun _ _ _ => .ok ()⟩
  manager := ⟨fun _ => (), fun _ => pure true⟩
  service := ⟨pure (), pure ()⟩

def idleJson : JsonSerializer Unit := ⟨fun _ => "\x7b\x7d", fun _ => .ok ()⟩

def oneByte (byte : UInt8) : RequestCtx 32 := ⟨[byte], (by decide : 1 + sensorsConfigPostBufferSize < 2 ^ 32)⟩

def abortedTransaction : Transaction 32 := ⟨[oneByte 0x31], .aborted (oneByte 0), none⟩

def twoChunks : Transaction 32 := ⟨[oneByte 0x7B], .final (oneByte 0x7D), none⟩

/-- What was aborted is not in the body. -/
theorem twoChunks_reassembled :
    ∃ c ∈ (deliverAll idleJson [abortedTransaction, twoChunks] (constructed idlePointers ())).1,
      c.status = .requestDataFinal ∧ updates c.calls = [[0x7B, 0x7D]] := by
  have hfirst := delivered_deliver idleJson abortedTransaction [oneByte 0x31]
    (receiving_constructed idlePointers ())
  obtain ⟨c, hc, hfinal, hr, hreceived⟩ :=
    exists_final idleJson twoChunks [oneByte 0x7B] hfirst.2 rfl (by decide)
  have hmem : c ∈ (deliverAll idleJson [abortedTransaction, twoChunks] (constructed idlePointers ())).1 :=
    List.mem_append_right _ (List.mem_append_left _ hc)
  have hcorrect := reassembled idleJson idlePointers () [abortedTransaction, twoChunks] c hmem
  refine ⟨c, hmem, hfinal, ?_⟩
  rw [hcorrect.updates_eq, if_pos ⟨hfinal, hr⟩, hreceived]
  rfl

end EerieLeap.Http
