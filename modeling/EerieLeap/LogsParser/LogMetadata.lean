import EerieLeap.LogsParser.Python

/-!
# Metadata files

`LogMetadataHeader` of `log_metadata_header.py`, `LogMetadataSensors` of `log_metadata_sensors.py` and
`LogMetadata` of `log_metadata_file.py`. What the sensors are decoded to is a parameter: `create` only asks
whether it is false. `LogMetadata` has the sensors as the schema types them; the objects that zcbor decodes
them to are in `CborParser`.
-/

namespace EerieLeap.LogsParser

open EerieLeap.Lib.Effect

/-! ## Sensors -/

structure SensorMetadataConfig where
  name : String
  unit : String
  description : String
  deriving DecidableEq

structure SensorConfig where
  id : String
  idHash : ℕ
  metadata : SensorMetadataConfig
  deriving DecidableEq

/-- `CborParser(cddl).parse_cbor_hex(data, type_name)`; what fails to decode gives `none`. -/
abbrev CborParserOf (σ : Type) := String → List UInt8 → String → Option σ

abbrev CborParser := CborParserOf (List SensorConfig)

structure LogMetadataSensors (σ : Type) where
  sensors : σ
  deriving DecidableEq

section

variable {σ : Type}

/-- `isFalse` is the test of `if not sensors`. -/
def LogMetadataSensors.create (isFalse : σ → Bool) (parseCborHex : CborParserOf σ) (data : List UInt8)
    (cddl : String) : Option (LogMetadataSensors σ) :=
  match parseCborHex cddl data "SensorsConfig" with
  | none => none
  | some sensors => if isFalse sensors then none else some { sensors := sensors }

def LogMetadataSensors.toDictionary (s : LogMetadataSensors σ) : σ := s.sensors

end

/-! ## The header -/

structure LogMetadataHeader where
  fileType : String
  version : Word 4
  reserved : List UInt8
  deriving DecidableEq

/-- The file type, `ELLM`. -/
def LogMetadataHeader.logMetadataFileType : String :=
  String.ofList (([0x4D, 0x4C, 0x4C, 0x45] : List UInt8).reverse.map fun b => Char.ofNat b.toNat)

def LogMetadataHeader.lengthBytes : ℕ := 16

def LogMetadataHeader.create (data : List UInt8) : Except PyError (Option LogMetadataHeader) := do
  let fileType ← decodeAscii (data.take 4)
  if fileType = "" ∨ fileType ≠ LogMetadataHeader.logMetadataFileType then
    return none
  let version ← unpackLE 4 ((data.drop 4).take 4)
  if version = 0 then
    return none
  let reserved := (data.drop 8).take 8
  if reserved = [] then
    return none
  return some { fileType := fileType, version := version, reserved := reserved }

/-! ## The file -/

structure LogMetadataOf (σ : Type) where
  header : LogMetadataHeader
  sensors : LogMetadataSensors σ
  crc : Word 4
  cddl : String
  deriving DecidableEq

/-- The metadata with its sensors as the schema types them. -/
abbrev LogMetadata := LogMetadataOf (List SensorConfig)

/-- `stream.read()`. -/
def readAll : PyStream (List UInt8) := do
  let s ← get
  set ([] : List UInt8)
  return s

section

variable {σ : Type}

def LogMetadataOf.create (isFalse : σ → Bool) (parseCborHex : CborParserOf σ) (cddl : String) :
    PyStream (Option (LogMetadataOf σ)) := do
  let data ← readAll
  if data = [] ∨ data.length < LogMetadataHeader.lengthBytes + 4 then
    return none
  match ← LogMetadataHeader.create data with
  | none => return none
  | some header =>
    -- `data[16:-4]`, `data[-4:]` and `data[:-4]` of at least 20 bytes
    let sensorsData := (data.take (data.length - 4)).drop LogMetadataHeader.lengthBytes
    let crcBytes := data.drop (data.length - 4)
    match LogMetadataSensors.create isFalse parseCborHex sensorsData cddl with
    | none => return none
    | some sensors =>
      let crc ← unpackLE 4 crcBytes
      if crc ≠ crc32 (data.take (data.length - 4)) 0 then
        return none
      return some { header := header, sensors := sensors, crc := crc, cddl := cddl }

theorem LogMetadataSensors.create_eq_some_iff {isFalse : σ → Bool} {parseCborHex : CborParserOf σ}
    {data : List UInt8} {cddl : String} {s : LogMetadataSensors σ} :
    create isFalse parseCborHex data cddl = some s ↔
      parseCborHex cddl data "SensorsConfig" = some s.sensors ∧ isFalse s.sensors = false := by
  obtain ⟨sensors⟩ := s
  unfold create
  cases parseCborHex cddl data "SensorsConfig" with
  | none => simp
  | some sensors' =>
    by_cases hfalse : isFalse sensors' = true
    · simp only [if_pos hfalse, reduceCtorEq, Option.some.injEq, false_iff, not_and]
      rintro rfl hnot
      rw [hnot] at hfalse
      cases hfalse
    · simp only [if_neg hfalse, Option.some.injEq, LogMetadataSensors.mk.injEq]
      constructor
      · rintro rfl
        exact ⟨rfl, eq_false_of_ne_true hfalse⟩
      · exact And.left

end

def LogMetadata.create (parseCborHex : CborParser) (cddl : String) : PyStream (Option LogMetadata) :=
  LogMetadataOf.create List.isEmpty parseCborHex cddl

/-- A metadata file that is accepted ends in its checksum and has a sensor. -/
theorem LogMetadata.of_create {parseCborHex : CborParser} {cddl : String} {s s' : List UInt8}
    {m : LogMetadata} (h : exec (LogMetadata.create parseCborHex cddl) s = (.ok (some m), s')) :
    20 ≤ s.length ∧ wordOfLE 4 (s.drop (s.length - 4)) = crc32 (s.take (s.length - 4)) 0 ∧
      m.sensors.toDictionary ≠ [] := by
  have hread : exec readAll s = (.ok s, []) := rfl
  rw [LogMetadata.create, LogMetadataOf.create, exec_bind_ok hread, exec_ite] at h
  split at h
  · cases h
  rename_i hlong
  rw [not_or, LogMetadataHeader.lengthBytes] at hlong
  rw [exec_liftM_bind] at h
  rcases hheader : LogMetadataHeader.create s with e | _ | header
  · simp [hheader] at h
  · simp [hheader] at h
  simp only [hheader] at h
  split at h
  · cases h
  rename_i sensors hsensors
  rw [exec_liftM_bind, unpackLE, if_pos (by simp; omega)] at h
  simp only [exec_ite] at h
  split at h
  · cases h
  · rename_i hcrc
    rw [exec_pure] at h
    obtain rfl := Option.some.inj (Except.ok.inj (Prod.mk.inj h).1)
    have hfalse := (LogMetadataSensors.create_eq_some_iff.mp hsensors).2
    exact ⟨by omega, not_not.mp hcrc, by simpa [LogMetadataSensors.toDictionary] using hfalse⟩

end EerieLeap.LogsParser
