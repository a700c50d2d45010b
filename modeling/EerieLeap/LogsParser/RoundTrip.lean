import EerieLeap.LogsParser.ReadLog

/-!
# Round trips

What a logger writes, the parser reads back, and what the parser accepts is what a logger writes.

* `toJson_roundtrip_iff` : a log is read back exactly when none of its checksums is zero; `create`
  takes a stored checksum of zero for a missing one;
* `toJson_sound` : a conversion that succeeds has read the encoding of what it returns.
-/

namespace EerieLeap.LogsParser

open EerieLeap.Lib.Effect

/-- Byte strings of length `n`. -/
abbrev Bytes (n : ℕ) := {bs : List UInt8 // bs.length = n}

/-! ## What a logger writes -/

/-- The values of a header that a logger chooses. -/
structure HeaderValues where
  version : Word 4
  logMetadataFileVersion : Bytes 4
  startTimeNs : Word 8
  reserved : Bytes 8

/-- The header with the given values and its checksum. -/
def HeaderValues.toHeader (v : HeaderValues) : LogDataHeader :=
  let h : LogDataHeader := {
    fileType := LogDataHeader.logDataFileType
    version := v.version
    logMetadataFileVersion := v.logMetadataFileVersion
    startTimeNs := v.startTimeNs
    reserved := v.reserved
    crc := 0 }
  { h with crc := crc32 h.body 0 }

/-- The values of an analog record that a logger chooses. -/
structure RecordValues where
  timeDeltaMs : Word 4
  sensorId : Word 4
  data : Bytes 4

/-- The record with the given values and its checksum. -/
def RecordValues.toRecord (v : RecordValues) : LogDataRecord :=
  let r : LogDataRecord := {
    timeDeltaMs := v.timeDeltaMs
    sensorId := v.sensorId
    data := v.data
    crc := 0 }
  { r with crc := crc32 r.body 0 }

theorem HeaderValues.valid (v : HeaderValues) : v.toHeader.Valid :=
  ⟨rfl, v.logMetadataFileVersion.2, v.reserved.2, rfl⟩

theorem RecordValues.valid (v : RecordValues) : v.toRecord.Valid := ⟨v.data.2, rfl⟩

/-- A reading of a whole log succeeds exactly when no checksum in it is zero. -/
theorem readLog_encodeLog_iff {h : LogDataHeader} {rs : List LogDataRecord} (hv : h.Valid)
    (hvs : ∀ r ∈ rs, r.Valid) :
    (readLog (encodeLog h rs)).1 = .ok (some (h, rs)) ↔ h.crc ≠ 0 ∧ ∀ r ∈ rs, r.crc ≠ 0 := by
  constructor
  · intro hread
    obtain ⟨tail, -, -, hcrc, hrs, -⟩ := (readLog_eq_some_iff _ h rs).mp hread
    exact ⟨hcrc, fun r hr => (hrs r hr).2⟩
  · rintro ⟨hcrc, hcrcs⟩
    refine (readLog_eq_some_iff _ h rs).mpr ⟨[], (List.append_nil _).symm, hv, hcrc, ?_,
      not_accepted_nil, not_cutInField_nil⟩
    exact fun r hr => ⟨hvs r hr, hcrcs r hr⟩

theorem map_isSome_eq_ok_true {ε α : Type} {x : Except ε (Option α)} :
    x.map Option.isSome = .ok true ↔ ∃ a, x = .ok (some a) := by
  rcases x with e | _ | a <;> simp [Except.map]

namespace LogFile

variable (py : PyText)

/-- `to_json` returns `True` where its body gets to the end. -/
theorem toJson_eq (s : List UInt8) (o : String) :
    exec (toJson py) (s, o) =
      ((readLog s).1.map Option.isSome, (readLog s).2, jsonOutput py s o) := by
  rw [toJson, exec_bind, toJsonLocals_eq]
  rcases (readLog s).1 <;> rfl

/-- `to_csv` returns `True` where its body gets to the end. -/
theorem toCsv_eq (metadata : Option LogMetadata) (s : List UInt8) (o : String) :
    exec (toCsv py metadata) (s, o) =
      ((readLog s).1.map Option.isSome, (readLog s).2, csvOutput py metadata s o) := by
  rw [toCsv, exec_bind, toCsvLocals_eq]
  rcases (readLog s).1 <;> rfl

theorem toJsonLocals_encodeLog_iff (header : HeaderValues) (records : List RecordValues) (o : String) :
    (exec (toJsonLocals py) (encodeLog header.toHeader (records.map RecordValues.toRecord), o)).1 =
        .ok (some (header.toHeader, records.map RecordValues.toRecord)) ↔
      header.toHeader.crc ≠ 0 ∧ ∀ r ∈ records.map RecordValues.toRecord, r.crc ≠ 0 := by
  have hvs : ∀ r ∈ records.map RecordValues.toRecord, r.Valid := by
    intro r hr
    obtain ⟨v, -, rfl⟩ := List.mem_map.mp hr
    exact v.valid
  rw [toJsonLocals_eq]
  exact readLog_encodeLog_iff header.valid hvs

/-- **Round trip**: `to_json` returns `True` having read exactly the header and the records that were
written if and only if none of their checksums is zero. -/
theorem toJson_roundtrip_iff (header : HeaderValues) (records : List RecordValues) (o : String) :
    let h := header.toHeader
    let rs := records.map RecordValues.toRecord
    ((exec (toJsonLocals py) (encodeLog h rs, o)).1 = .ok (some (h, rs)) ∧
        (exec (toJson py) (encodeLog h rs, o)).1 = .ok true) ↔
      h.crc ≠ 0 ∧ ∀ r ∈ rs, r.crc ≠ 0 := by
  intro h rs
  rw [← toJsonLocals_encodeLog_iff py header records o, toJsonLocals_eq, toJson_eq]
  constructor
  · exact fun h => h.1
  · intro hread
    exact ⟨hread, by rw [hread]; rfl⟩

/-- A text for floats, where no result depends on it. -/
def anyText : PyText := ⟨fun _ => "0.0", fun _ _ => "0.0"⟩

/-- The values of a header. -/
def someHeader : HeaderValues :=
  ⟨1, ⟨[0xB6, 0x70, 0x01, 0xC5], rfl⟩, 6777000000, ⟨[0, 0, 0, 0, 0, 0, 0, 0], rfl⟩⟩

/-- The values of a record whose checksum is zero. -/
def zeroChecksumRecord : RecordValues := ⟨276, 2348664336, ⟨[92, 230, 251, 27], rfl⟩⟩

theorem zeroChecksumRecord_crc : zeroChecksumRecord.toRecord.crc = 0 := by decide +kernel

/-- The record is lost: what `to_json` has read is not what was written. -/
theorem toJson_loses_zeroChecksumRecord :
    ¬ ∀ (header : HeaderValues) (records : List RecordValues) (o : String),
      let h := header.toHeader
      let rs := records.map RecordValues.toRecord
      (exec (toJsonLocals anyText) (encodeLog h rs, o)).1 = .ok (some (h, rs)) ∧
        (exec (toJson anyText) (encodeLog h rs, o)).1 = .ok true := by
  intro hall
  have hread := (hall someHeader [zeroChecksumRecord] "").1
  have hcrcs := ((toJsonLocals_encodeLog_iff _ _ _ _).mp hread).2
  exact hcrcs _ (List.mem_map_of_mem (List.mem_cons_self ..)) zeroChecksumRecord_crc

/-! ## What the parser accepts -/

/-- **Soundness**: where `to_json` returns `True`, what it has read is what stands encoded at the
head of the input; no record is made from a short read, and no sequence of turns of the loop goes on
forever. -/
theorem toJson_sound (s : List UInt8) (o : String) :
    ((exec (toJson py) (s, o)).1 = .ok true → ∃ h rs,
        (exec (toJsonLocals py) (s, o)).1 = .ok (some (h, rs)) ∧
        encodeLog h rs = s.take (32 + 21 * rs.length) ∧
        h.crc = crc32 h.body 0 ∧ (∀ r ∈ rs, r.crc = crc32 r.body 0 ∧ r.data.length = 4) ∧
        32 + 21 * rs.length ≤ s.length) ∧
      (∀ t r t', exec LogDataRecordAnalog.create t = (.ok (some r), t') →
        t = r.encode ++ t' ∧ r.encode.length = 21) ∧
      ∀ t : ℕ → List UInt8, ¬ ∀ i, ∃ r, exec LogDataRecordAnalog.create (t i) = (.ok (some r), t (i + 1)) := by
  refine ⟨?_, ?_, recordSource.not_next_forever⟩
  · intro htrue
    rw [toJson_eq] at htrue
    obtain ⟨⟨h, rs⟩, hread⟩ : ∃ p, (readLog s).1 = .ok (some p) := by
      rcases hread : (readLog s).1 with e | _ | p
      · simp [hread, Except.map] at htrue
      · simp [hread, Except.map] at htrue
      · exact ⟨p, rfl⟩
    obtain ⟨tail, hs, hv, -, hrs, -⟩ := (readLog_eq_some_iff s h rs).mp hread
    have hlen : (encodeLog h rs).length = 32 + 21 * rs.length :=
      encodeLog_length hv fun r hr => (hrs r hr).1
    refine ⟨h, rs, by rw [toJsonLocals_eq, hread], encodeLog_of_readLog hread, hv.crc_eq, ?_, ?_⟩
    · intro r hr
      obtain ⟨hvalid, -⟩ := hrs r hr
      exact ⟨hvalid.crc_eq, hvalid.data_length⟩
    · rw [hs, List.length_append, hlen]
      omega
  · intro t r t' hrun
    obtain ⟨ht, hv, -⟩ := LogDataRecord.eq_encode_of_create hrun
    exact ⟨ht, hv.encode_length⟩

end LogFile

end EerieLeap.LogsParser
