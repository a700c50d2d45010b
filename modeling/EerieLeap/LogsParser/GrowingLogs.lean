import EerieLeap.LogsParser.CsvRows

/-!
# Logs that grow

A log that is still being written can be converted: what stands behind the bytes that are there only adds to
what is read and written, wherever they end.

* `readOf` : what a conversion has read by its end, whether it returns or raises;
* `readOf_grows` : it is read again, before the rest;
* `csvOutput_readOf`, `jsonOutput_readOf` : it is what has been written;
* `convert_grows` : the result.
-/

namespace EerieLeap.LogsParser

open EerieLeap.Lib.Bits EerieLeap.Lib.Checksum EerieLeap.Lib.Effect EerieLeap.Lib.Effect.Source

/-- More bytes behind a log are read behind the last record that was read. -/
theorem drain_grows (s t : List UInt8) : ∃ tail, recordSource.drain (s ++ t) =
    ((recordSource.drain s).1 ++ (recordSource.drain (tail ++ t)).1, (recordSource.drain (tail ++ t)).2) := by
  obtain ⟨tail, -, hdrain⟩ := drain_append (S := recordSource) (P := Readable)
    (fun _ _ _ hrun => LogDataRecord.eq_encode_of_create hrun)
    (fun _ hr => LogDataRecord.create_encode hr.1 hr.2) s t
  exact ⟨tail, hdrain⟩

theorem create_grows {s s' : List UInt8} {h : LogDataHeader}
    (hcreate : exec LogDataHeader.create s = (.ok (some h), s')) (t : List UInt8) :
    exec LogDataHeader.create (s ++ t) = (.ok (some h), s' ++ t) := by
  obtain ⟨rfl, hvalid, hcrc⟩ := LogDataHeader.eq_encode_of_create hcreate
  rw [List.append_assoc]
  exact LogDataHeader.create_encode hvalid hcrc (s' ++ t)

/-- What is read from a longer log, when reading succeeds. -/
theorem readLog_grows {s : List UInt8} {header : LogDataHeader} {records : List LogDataRecord}
    (hread : (readLog s).1 = .ok (some (header, records))) (t : List UInt8) :
    (∃ more, (readLog (s ++ t)).1 = .ok (some (header, records ++ more))) ∨ ∃ e, (readLog (s ++ t)).1 = .error e := by
  obtain ⟨s', hcreate, rfl, -⟩ := LogFile.drain_of_readLog hread
  obtain ⟨tail, hdrain⟩ := drain_grows s' t
  unfold readLog
  simp only [create_grows hcreate t, hdrain]
  cases (recordSource.drain (tail ++ t)).2.1 with
  | error e => exact .inr ⟨e, rfl⟩
  | ok u => exact .inl ⟨_, rfl⟩

/-! ## What has been read -/

/-- The header, if it was read, and the records that a conversion has read by its end. -/
def readOf (s : List UInt8) : Option LogDataHeader × List LogDataRecord :=
  match exec LogDataHeader.create s with
  | (.ok (some header), s') => (some header, (recordSource.drain s').1)
  | _ => (none, [])

/-- More has been read. -/
structure Grows (read read' : Option LogDataHeader × List LogDataRecord) : Prop where
  header : ∀ header, read.1 = some header → read'.1 = some header
  records : read.2 <+: read'.2

theorem readOf_grows (s t : List UInt8) : Grows (readOf s) (readOf (s ++ t)) := by
  rcases hcreate : exec LogDataHeader.create s with ⟨e | _ | header, s'⟩
  · exact ⟨by simp [readOf, hcreate], by simp [readOf, hcreate]⟩
  · exact ⟨by simp [readOf, hcreate], by simp [readOf, hcreate]⟩
  · obtain ⟨tail, hdrain⟩ := drain_grows s' t
    constructor
    · simp [readOf, hcreate, create_grows hcreate t]
    · simp [readOf, hcreate, create_grows hcreate t, hdrain]

/-- Of a reading that succeeds it is the result. -/
theorem readOf_of_readLog {s : List UInt8} {header : LogDataHeader} {records : List LogDataRecord}
    (hread : (readLog s).1 = .ok (some (header, records))) : readOf s = (some header, records) := by
  obtain ⟨s', hcreate, rfl, -⟩ := LogFile.drain_of_readLog hread
  simp [readOf, hcreate]

namespace LogFile

variable (py : PyText)

/-! ## The texts -/

/-- The lines of the records, each behind a line break. -/
def csvLines (metadata : Option LogMetadata) (records : List LogDataRecord) : String :=
  "\n".intercalate ("" :: records.map (csvLineText py (sensorIds metadata)))

/-- What `to_json` writes in front of the brackets that close it. -/
def jsonStart : Option LogDataHeader × List LogDataRecord → String
  | (none, _) => "\x7b" ++ "\"header\": "
  | (some header, records) => "\x7b" ++ "\"header\": " ++ dumps py header.toDictionary ++ "," ++ "\"records\": [" ++
      ",".intercalate (records.map fun r => dumps py (recordDictionary r))

theorem intercalate_cons_append (sep t : String) (l l' : List String) :
    sep.intercalate (t :: (l ++ l')) = sep.intercalate (t :: l) ++ sep.intercalate ("" :: l') := by
  induction l generalizing t with
  | nil => rw [List.nil_append, String.intercalate_singleton, ← String.intercalate_cons_append, String.append_empty]
  | cons u l ih =>
    have h := ih (t ++ sep ++ u)
    rwa [intercalate_append_cons, intercalate_append_cons] at h

theorem csvLines_append (metadata : Option LogMetadata) (records more : List LogDataRecord) :
    csvLines py metadata (records ++ more) = csvLines py metadata records ++ csvLines py metadata more := by
  rw [csvLines, List.map_append, intercalate_cons_append]
  rfl

theorem jsonStart_grows {read read' : Option LogDataHeader × List LogDataRecord} (h : Grows read read') :
    ∃ more, jsonStart py read' = jsonStart py read ++ more := by
  obtain ⟨header, records⟩ := read
  obtain ⟨header', records'⟩ := read'
  cases header with
  | none =>
    cases header' with
    | none => exact ⟨"", String.append_empty.symm⟩
    | some header' => exact ⟨_, by simp only [jsonStart, String.append_assoc]; rfl⟩
  | some header =>
    obtain rfl : header' = some header := h.header header rfl
    obtain ⟨more, rfl⟩ := h.records
    cases records with
    | nil =>
      refine ⟨",".intercalate (more.map fun r => dumps py (recordDictionary r)), ?_⟩
      simp [jsonStart]
    | cons r records =>
      refine ⟨",".intercalate ("" :: more.map fun r => dumps py (recordDictionary r)), ?_⟩
      simp only [jsonStart, List.cons_append, List.map_cons, List.map_append, intercalate_cons_append,
        String.append_assoc]

/-- `to_csv` has written the lines of what it has read. -/
theorem csvOutput_readOf (metadata : Option LogMetadata) (s : List UInt8) (o : String) :
    csvOutput py metadata s o = o ++ csvHeader metadata ++ csvLines py metadata (readOf s).2 := by
  rcases hcreate : exec LogDataHeader.create s with ⟨e | _ | header, s'⟩
  · simp [csvOutput, readOf, hcreate, csvLines]
  · simp [csvOutput, readOf, hcreate, csvLines]
  · simp only [csvOutput, readOf, hcreate]
    rw [foldBody_csvTurnText, csvLines, ← String.intercalate_cons_append, String.append_empty]

/-- `to_json` has written what it has read, and has closed it only at the end. -/
theorem jsonOutput_readOf (s : List UInt8) (o : String) : ∃ closing, (closing = "" ∨ closing = "]\x7d") ∧
    jsonOutput py s o = o ++ jsonStart py (readOf s) ++ closing := by
  rcases hcreate : exec LogDataHeader.create s with ⟨e | _ | header, s'⟩
  · exact ⟨"", .inl rfl, by simp [jsonOutput, readOf, hcreate, jsonStart, String.append_assoc]⟩
  · exact ⟨"", .inl rfl, by simp [jsonOutput, readOf, hcreate, jsonStart, String.append_assoc]⟩
  · simp only [jsonOutput, readOf, hcreate, foldBody_jsonTurnText_true, jsonStart]
    cases (recordSource.drain s').2.1 with
    | error e => exact ⟨"", .inl rfl, by simp only [String.append_assoc, String.append_empty]⟩
    | ok u => exact ⟨_, .inr rfl, by simp only [String.append_assoc]⟩

/-! ## The result -/

/-- What the conversions make of an input of which they read `read`: they have written it, and it is what their
variables hold where they succeed. -/
structure Converts (metadata : Option LogMetadata) (s : List UInt8) (o : String)
    (read : Option LogDataHeader × List LogDataRecord) : Prop where
  csv : (exec (toCsv py metadata) (s, o)).2.2 = o ++ csvHeader metadata ++ csvLines py metadata read.2
  json : ∃ closing, (closing = "" ∨ closing = "]\x7d") ∧
    (exec (toJson py) (s, o)).2.2 = o ++ jsonStart py read ++ closing
  csvLocals : ∀ header records, (exec (toCsvLocals py metadata) (s, o)).1 = .ok (some (header, records)) →
    read = (some header, records)
  jsonLocals : ∀ header records, (exec (toJsonLocals py) (s, o)).1 = .ok (some (header, records)) →
    read = (some header, records)

theorem converts_readOf (metadata : Option LogMetadata) (s : List UInt8) (o : String) :
    Converts py metadata s o (readOf s) where
  csv := by rw [toCsv_eq, csvOutput_readOf]
  json := by
    rw [toJson_eq]
    exact jsonOutput_readOf py s o
  csvLocals header records hread := by
    rw [toCsvLocals_eq] at hread
    exact readOf_of_readLog hread
  jsonLocals header records hread := by
    rw [toJsonLocals_eq] at hread
    exact readOf_of_readLog hread

/-- A conversion that reads on returns the records before others, unless it raises. -/
def Continues (x x' : Except PyError (Option (LogDataHeader × List LogDataRecord))) : Prop :=
  ∀ header records, x = .ok (some (header, records)) →
    (∃ more, x' = .ok (some (header, records ++ more))) ∨ ∃ e, x' = .error e

/-- **A log that grows** only adds to what was written of it before: to the CSV output whole lines, and to the
JSON output what stands before the brackets that close it; and to the records that were read, by either
conversion and however it ended. -/
theorem convert_grows (metadata : Option LogMetadata) (s t : List UInt8) (o : String) :
    (∃ more : List LogDataRecord, (exec (toCsv py metadata) (s ++ t, o)).2.2 =
      (exec (toCsv py metadata) (s, o)).2.2 ++
        "\n".intercalate ("" :: more.map (csvLineText py (sensorIds metadata)))) ∧
    (∃ text closing more, (exec (toJson py) (s, o)).2.2 = text ++ closing ∧
      (closing = "" ∨ closing = "]\x7d") ∧ (exec (toJson py) (s ++ t, o)).2.2 = text ++ more) ∧
    Continues (exec (toCsvLocals py metadata) (s, o)).1 (exec (toCsvLocals py metadata) (s ++ t, o)).1 ∧
    Continues (exec (toJsonLocals py) (s, o)).1 (exec (toJsonLocals py) (s ++ t, o)).1 ∧
    ∃ read read', Converts py metadata s o read ∧ Converts py metadata (s ++ t) o read' ∧ Grows read read' := by
  have hgrows := readOf_grows s t
  have hs := converts_readOf py metadata s o
  have hst := converts_readOf py metadata (s ++ t) o
  refine ⟨?_, ?_, ?_, ?_, _, _, hs, hst, hgrows⟩
  · obtain ⟨more, hmore⟩ := hgrows.records
    refine ⟨more, ?_⟩
    rw [hs.csv, hst.csv, ← hmore, csvLines_append, ← String.append_assoc]
    rfl
  · obtain ⟨closing, hclosing, htext⟩ := hs.json
    obtain ⟨closing', -, htext'⟩ := hst.json
    obtain ⟨more, hmore⟩ := jsonStart_grows py hgrows
    refine ⟨_, closing, more ++ closing', htext, hclosing, ?_⟩
    rw [htext', hmore]
    simp only [String.append_assoc]
  · simp only [Continues, toCsvLocals_eq]
    exact fun header records hread => readLog_grows hread t
  · simp only [Continues, toJsonLocals_eq]
    exact fun header records hread => readLog_grows hread t

end LogFile

end EerieLeap.LogsParser
