import EerieLeap.LogsParser.LogMetadata
import EerieLeap.LogsParser.HeaderFormat
import EerieLeap.LogsParser.RecordFormat

/-!
# The converter

`LogFile.to_json` and `LogFile.to_csv` of `log_file.py`. A conversion works on the input stream and
the text written so far. `toJsonLocals` and `toCsvLocals` are the bodies of the two functions, which
return what their variables `header` and `record` have held where the source returns `True`, and
`none` where it returns `False`.

`readLog` is the reading both share. `toJsonLocals_eq` and `toCsvLocals_eq` split each conversion
into that reading and the text it writes.
-/

namespace EerieLeap.LogsParser

open EerieLeap.Lib.Effect

/-- Programs that read from a byte stream and write text. -/
abbrev PyIO (α : Type) := Eff (List UInt8 × String) PyError α

/-- `output.write(t)`. -/
def write (t : String) : Eff String PyError Unit := modify (· ++ t)

@[simp] theorem exec_write (t o : String) : exec (write t) o = (.ok (), o ++ t) := rfl

/-- The records `LogDataRecordAnalog.create` hands out. -/
def recordSource : Source (List UInt8) PyError LogDataRecord where
  next := LogDataRecordAnalog.create
  size := List.length
  size_lt := by
    intro s r s' h
    obtain ⟨rfl, hv, -⟩ := LogDataRecord.eq_encode_of_create h
    rw [List.length_append, hv.encode_length]
    omega

namespace LogFile

variable (py : PyText)

/-! ## `to_json` -/

/-- One turn of the loop of `to_json`; it carries `first_record`. -/
def toJsonTurn (firstRecord : Bool) (record : LogDataRecord) : Eff String PyError Bool := do
  if firstRecord = false then
    write ","
  write (dumps py (← LogDataRecordAnalog.toDictionary record))
  return false

/-- The body of `to_json`. -/
def toJsonLocals : PyIO (Option (LogDataHeader × List LogDataRecord)) := do
  onSnd (write "\x7b")
  onSnd (write "\"header\": ")
  match ← onFst LogDataHeader.create with
  | none => return none
  | some header =>
    onSnd (write (dumps py header.toDictionary))
    onSnd (write ",")
    onSnd (write "\"records\": [")
    let records ← recordSource.loop (toJsonTurn py) true
    onSnd (write "]\x7d")
    return some (header, records)

/-- `to_json`. -/
def toJson : PyIO Bool := do return (← toJsonLocals py).isSome

/-! ## `to_csv` -/

/-- The header line of `to_csv`. -/
def csvHeader : Option LogMetadata → String
  | some metadata =>
    metadata.sensors.toDictionary.foldl
      (fun header sensor =>
        header ++ ",\"" ++ sensor.metadata.name ++ " (" ++ sensor.metadata.unit ++ ")\"")
      "\"Time (sec)\""
  | none => "\"Time (sec)\",\"Value\""

/-- The ids of the sensor columns of `to_csv`. -/
def sensorIds : Option LogMetadata → List ℕ
  | some metadata => metadata.sensors.toDictionary.map SensorConfig.idHash
  | none => []

/-- The cell of a record in the column of the sensor `id`. -/
def csvCell (record : LogDataRecord) (id : ℕ) : Except PyError String :=
  if record.sensorId.toNat = id then do
    return strFloat py (← LogDataRecordAnalog.getData record)
  else
    return ""

/-- The line of a record in `to_csv`. -/
def csvLine (sensorIds : List ℕ) (record : LogDataRecord) : Except PyError String := do
  let recordLine := py.quotient record.timeDeltaMs.toNat 1000
  if sensorIds ≠ [] then
    sensorIds.foldlM (fun recordLine id => do
      return recordLine ++ "," ++ (← csvCell py record id)) recordLine
  else
    return recordLine ++ ("," ++ strFloat py (← LogDataRecordAnalog.getData record))

/-- One turn of the loop of `to_csv`. -/
def toCsvTurn (sensorIds : List ℕ) (_ : Unit) (record : LogDataRecord) : Eff String PyError Unit := do
  write "\n"
  write (← csvLine py sensorIds record)

/-- The body of `to_csv`. -/
def toCsvLocals (metadata : Option LogMetadata) : PyIO (Option (LogDataHeader × List LogDataRecord)) := do
  onSnd (write (csvHeader metadata))
  match ← onFst LogDataHeader.create with
  | none => return none
  | some header =>
    let records ← recordSource.loop (toCsvTurn py (sensorIds metadata)) ()
    return some (header, records)

/-- `to_csv`. -/
def toCsv (metadata : Option LogMetadata) : PyIO Bool := do
  return (← toCsvLocals py metadata).isSome

end LogFile

end EerieLeap.LogsParser
