import EerieLeap.LogsParser.Python

/-!
# Headers and records of log data files

`LogDataHeader` of `log_data_header.py`, `LogDataRecord` and `LogDataRecordAnalog` of
`log_data_record.py`: the instances, their `create` and their `to_dictionary`.
-/

namespace EerieLeap.LogsParser

open EerieLeap.Lib.Effect

/-! ## The header -/

structure LogDataHeader where
  fileType : String
  version : Word 4
  logMetadataFileVersion : List UInt8
  startTimeNs : Word 8
  reserved : List UInt8
  crc : Word 4
  deriving DecidableEq

/-- The file type, `ELLD`. -/
def LogDataHeader.logDataFileType : String :=
  String.ofList (([0x44, 0x4C, 0x4C, 0x45] : List UInt8).reverse.map fun b => Char.ofNat b.toNat)

def LogDataHeader.create : PyStream (Option LogDataHeader) := do
  let fileTypeBytes ← read 4
  if fileTypeBytes = [] then
    return none
  let fileType ← decodeAscii fileTypeBytes
  if fileType ≠ LogDataHeader.logDataFileType then
    return none
  let crcValidation := crc32 fileTypeBytes 0
  let versionBytes ← read 4
  if versionBytes = [] then
    return none
  let version ← unpackLE 4 versionBytes
  let crcValidation := crc32 versionBytes crcValidation
  let logMetadataFileVersion ← read 4
  if logMetadataFileVersion = [] then
    return none
  let crcValidation := crc32 logMetadataFileVersion crcValidation
  let startTimestamp ← read 8
  if startTimestamp = [] then
    return none
  let startTimeNs ← unpackLE 8 startTimestamp
  let crcValidation := crc32 startTimestamp crcValidation
  let reserved ← read 8
  if reserved = [] then
    return none
  let crcValidation := crc32 reserved crcValidation
  -- the checksum is unpacked before any test of what was read
  let crc ← unpackLE 4 (← read 4)
  if crc = 0 then
    return none
  if crc ≠ crcValidation then
    return none
  return some {
    fileType := fileType
    version := version
    logMetadataFileVersion := logMetadataFileVersion.reverse
    startTimeNs := startTimeNs
    reserved := reserved
    crc := crc }

def LogDataHeader.toDictionary (h : LogDataHeader) : List (String × PyValue) :=
  [("file_type", .str h.fileType),
   ("version", .int h.version.toNat),
   ("log_metadata_file_version", .str (hex h.logMetadataFileVersion)),
   ("start_timestamp", .int h.startTimeNs.toNat),
   ("reserved", .str (hex h.reserved)),
   ("crc", .int h.crc.toNat)]

/-! ## Records -/

structure LogDataRecord where
  timeDeltaMs : Word 4
  sensorId : Word 4
  data : List UInt8
  crc : Word 4
  deriving DecidableEq

/-- The start mark; it is stored reversed. -/
def LogDataRecord.logDataRecordStartMark : List UInt8 := [0x4C, 0x52, 0x53, 0x4D]

def LogDataRecord.readData (dataLength : ℕ) : PyStream (Option (List UInt8)) := do
  let dataBytes ← read dataLength
  if dataBytes = [] then
    return none
  return some dataBytes

/-- `LogDataRecord.create`, with the class's own `_read_data`. -/
def LogDataRecord.create (readData : ℕ → PyStream (Option (List UInt8))) :
    PyStream (Option LogDataRecord) := do
  let recordStartMark ← read 4
  if recordStartMark = [] ∨ recordStartMark.reverse ≠ LogDataRecord.logDataRecordStartMark then
    return none
  let crcValidation := crc32 recordStartMark 0
  let timestampDelta ← read 4
  if timestampDelta = [] then
    return none
  let timeDeltaMs ← unpackLE 4 timestampDelta
  let crcValidation := crc32 timestampDelta crcValidation
  let sensorIdBytes ← read 4
  if sensorIdBytes = [] then
    return none
  let sensorId ← unpackLE 4 sensorIdBytes
  let crcValidation := crc32 sensorIdBytes crcValidation
  let dataLength ← read 1
  match dataLength with
  | [] => return none
  | length :: _ =>
    let crcValidation := crc32 dataLength crcValidation
    match ← readData length.toNat with
    | none => return none
    | some dataBytes =>
      if dataBytes = [] then
        return none
      let crcValidation := crc32 dataBytes crcValidation
      let crc ← unpackLE 4 (← read 4)
      if crc = 0 then
        return none
      if crcValidation ≠ crc then
        return none
      return some { timeDeltaMs := timeDeltaMs, sensorId := sensorId, data := dataBytes, crc := crc }

/-- The data length of an analog record. -/
def LogDataRecordAnalog.dataLengthExpected : ℕ := 4

def LogDataRecordAnalog.readData (dataLength : ℕ) : PyStream (Option (List UInt8)) := do
  if dataLength ≠ LogDataRecordAnalog.dataLengthExpected then
    return none
  LogDataRecord.readData dataLength

def LogDataRecordAnalog.create : PyStream (Option LogDataRecord) :=
  LogDataRecord.create LogDataRecordAnalog.readData

/-- The value of an analog record, `struct.unpack('<f', data)`. -/
def LogDataRecordAnalog.getData (r : LogDataRecord) : Except PyError (Word 4) := unpackLE 4 r.data

def LogDataRecordAnalog.toDictionary (r : LogDataRecord) :
    Except PyError (List (String × PyValue)) := do
  return [("timestamp_delta", .int r.timeDeltaMs.toNat),
          ("sensor_id", .int r.sensorId.toNat),
          ("data", .float (← LogDataRecordAnalog.getData r)),
          ("crc", .int r.crc.toNat)]

end EerieLeap.LogsParser
