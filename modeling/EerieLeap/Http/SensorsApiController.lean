import EerieLeap.Lib.Effect
import EerieLeap.Lib.Proc
import Mathlib.Tactic.Ring

/-!
# The sensors API controller

`SensorsApiController` of `sensors_api_controller.cpp`: the static members it keeps between callbacks,
its constructor and the handlers that the HTTP server calls.

The handlers run on the server's thread while `main` is still starting up, so they are programs cut
into their accesses to the static members. The classes they call are not part of the sources:
whatever they do to the device is a parameter, a pure function where they only convert.
-/

namespace EerieLeap.Http

open EerieLeap.Lib EerieLeap.Lib.Effect

/-! ## The server's types -/

/-- `http_transaction_status`. -/
inductive TransactionStatus
  | transactionAborted
  | requestDataMore
  | requestDataFinal
  deriving DecidableEq

/-- `http_method`; only the two that the resource supports are told apart. -/
inductive HttpMethod
  | get
  | post
  | other
  deriving DecidableEq

/-- `http_response_ctx`; the length of the body is that of its text. -/
structure ResponseCtx where
  status : ℕ
  body : String
  finalChunk : Bool
  deriving DecidableEq

/-- The response as the server hands it to a handler. -/
def ResponseCtx.cleared : ResponseCtx := ⟨0, "", false⟩

/-- `HTTP_500_INTERNAL_SERVER_ERROR`. -/
def internalServerError : ℕ := 500

def ENOMEM : ℤ := 12

def EINVAL : ℤ := 22

def sensorsConfigPostBufferSize : ℕ := 24576

/-- `http_request_ctx` on a machine whose `size_t` has `w` bits. The data lies in memory beside the
POST buffer, so the two sizes together are below `2 ^ w`. -/
structure RequestCtx (w : ℕ) where
  data : List UInt8
  fits : data.length + sensorsConfigPostBufferSize < 2 ^ w

/-! ## The classes the controller uses -/

/-- `JsonSerializer<JsonSensorsConfig>`. -/
structure JsonSerializer (J : Type) where
  serialize : J → String
  deserialize : List UInt8 → Except String J

/-- `SensorsJsonParser`; the two numbers are the channel counts of GPIO and ADC. -/
structure SensorsJsonParser (J κ : Type) where
  serialize : κ → ℕ → ℕ → J
  deserialize : J → ℕ → ℕ → Except String κ

/-- `SensorsConfigurationManager`, on the device `δ`. -/
structure SensorsConfigurationManager (κ δ : Type) where
  get : δ → κ
  update : κ → Eff δ String Bool

/-- `SensorsProcessingService`, on the device `δ`. -/
structure SensorsProcessingService (δ : Type) where
  stop : Eff δ String Unit
  start : Eff δ String Unit

/-! ## The static members -/

/-- What a handler has done: a `memcpy` of some bytes to an offset of a buffer of some size, or a call
of `UpdateSensorsConfig`. -/
inductive Call
  | memcpy (offset length bufferSize : ℕ)
  | updateSensorsConfig (buffer : List UInt8)
  deriving DecidableEq

/-- The static members, with the variables `cursor` and `error_msg` of the POST handler, the device
behind the pointers and the calls made so far. -/
structure Statics (J κ δ : Type) where
  sensorsConfigPostBuffer : List UInt8
  sensorsConfigGetBuffer : String
  sensorsJsonParser : Option (SensorsJsonParser J κ)
  sensorsConfigurationManager : Option (SensorsConfigurationManager κ δ)
  sensorsProcessingService : Option (SensorsProcessingService δ)
  cursor : ℕ
  errorMsg : String
  device : δ
  calls : List Call

/-- What ends a handler before its return. -/
inductive Failure
  | exception (what : String)
  | nullDereference
  deriving DecidableEq

variable {J κ δ α : Type}

/-- The static members before any constructor has run. -/
def Statics.initial (device : δ) : Statics J κ δ where
  sensorsConfigPostBuffer := []
  sensorsConfigGetBuffer := ""
  sensorsJsonParser := none
  sensorsConfigurationManager := none
  sensorsProcessingService := none
  cursor := 0
  errorMsg := ""
  device := device
  calls := []

/-- Programs on the static members. -/
abbrev Handler (J κ δ α : Type) := Proc (Statics J κ δ) Failure α

/-- `*pointer`. -/
def deref (pointer : Statics J κ δ → Option α) : Handler J κ δ α :=
  .atomic fun s => (match pointer s with
    | some a => .ok a
    | none => .error .nullDereference, s)

/-- A call that may throw a `std::exception`. -/
def call (x : Eff δ String α) : Handler J κ δ α :=
  .atomic fun s =>
    ((exec x s.device).1.mapError .exception, { s with device := (exec x s.device).2 })

/-- A conversion that may throw a `std::exception`. -/
def convert (x : Except String α) : Handler J κ δ α := .ofExcept (x.mapError .exception)

/-! ## The constructor -/

/-- `SensorsApiController(sensors_configuration_manager, sensors_processing_service)`, where
`parser` is what `make_unique<SensorsJsonParser>(nullptr)` gives. -/
def construct (parser : SensorsJsonParser J κ) (manager : SensorsConfigurationManager κ δ)
    (service : SensorsProcessingService δ) : Handler J κ δ Unit := do
  .write fun s =>
    if s.sensorsConfigPostBuffer = [] then
      { s with sensorsConfigPostBuffer := List.replicate sensorsConfigPostBufferSize 0 }
    else s
  .write fun s => if s.sensorsJsonParser.isNone then { s with sensorsJsonParser := some parser } else s
  .write fun s =>
    if s.sensorsConfigurationManager.isNone then { s with sensorsConfigurationManager := some manager }
    else s
  .write fun s =>
    if s.sensorsProcessingService.isNone then { s with sensorsProcessingService := some service } else s

/-! ## The handlers -/

section Handlers

variable (json : JsonSerializer J) {w : ℕ}

def sensorsConfigGetHandler (status : TransactionStatus) (response : ResponseCtx) :
    Handler J κ δ (ℤ × ResponseCtx) := do
  if status = .transactionAborted then
    return (0, response)
  if status = .requestDataFinal then
    let manager ← deref (·.sensorsConfigurationManager)
    let sensors ← .read fun s => manager.get s.device
    let parser ← deref (·.sensorsJsonParser)
    let config := parser.serialize sensors 16 16
    .write fun s => { s with sensorsConfigGetBuffer := json.serialize config }
    let body ← .read (·.sensorsConfigGetBuffer)
    return (0, { response with body := body, finalChunk := true })
  return (0, response)

def updateSensorsConfig (buffer : List UInt8) : Handler J κ δ Unit := do
  .write fun s => { s with calls := s.calls ++ [.updateSensorsConfig buffer] }
  let jsonSensorsConfig ← convert (json.deserialize buffer)
  let parser ← deref (·.sensorsJsonParser)
  let sensors ← convert (parser.deserialize jsonSensorsConfig 16 16)
  let manager ← deref (·.sensorsConfigurationManager)
  if (← call (manager.update sensors)) = false then
    .fail (.exception "Failed to update sensors configuration.")
  let service ← deref (·.sensorsProcessingService)
  call service.stop
  let service ← deref (·.sensorsProcessingService)
  call service.start

/-- `memcpy(buffer + offset, data, data_len)`. -/
def overwrite (buffer : List UInt8) (offset : ℕ) (data : List UInt8) : List UInt8 :=
  buffer.take offset ++ data ++ buffer.drop (offset + data.length)

def setCursor (cursor : ℕ) : Handler J κ δ Unit := .write fun s => { s with cursor := cursor }

/-- What the `catch` of the POST handler does; it does not catch a crash. -/
def answerException (response : ResponseCtx) : Failure → Handler J κ δ ResponseCtx
  | .exception what => do
    let errorMsg := "Failed to parse JSON: " ++ what
    .write fun s => { s with errorMsg := errorMsg }
    return { response with status := internalServerError, body := errorMsg, finalChunk := true }
  | .nullDereference => .fail .nullDereference

def sensorsConfigPostHandler (status : TransactionStatus) (request : RequestCtx w)
    (response : ResponseCtx) : Handler J κ δ (ℤ × ResponseCtx) := do
  if status = .transactionAborted then
    setCursor 0
    return (0, response)
  -- the sum is one of `size_t`
  let tooLong ← .read fun s =>
    decide (s.sensorsConfigPostBuffer.length < (request.data.length + s.cursor) % 2 ^ w)
  if tooLong then
    setCursor 0
    return (-ENOMEM, response)
  .write fun s => { s with
    sensorsConfigPostBuffer := overwrite s.sensorsConfigPostBuffer s.cursor request.data
    calls := s.calls ++ [.memcpy s.cursor request.data.length s.sensorsConfigPostBuffer.length] }
  .write fun s => { s with cursor := (s.cursor + request.data.length) % 2 ^ w }
  if status = .requestDataFinal then
    let buffer ← .read fun s => s.sensorsConfigPostBuffer.take s.cursor
    let response ← Proc.handle (do updateSensorsConfig json buffer; return response)
      (answerException response)
    setCursor 0
    return (0, response)
  return (0, response)

def sensorsConfigHandler (method : HttpMethod) (status : TransactionStatus) (request : RequestCtx w)
    (response : ResponseCtx) : Handler J κ δ (ℤ × ResponseCtx) :=
  if method = .get then sensorsConfigGetHandler json status response
  else if method = .post then sensorsConfigPostHandler json status request response
  else return (-EINVAL, response)

end Handlers

end EerieLeap.Http
