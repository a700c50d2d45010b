import EerieLeap.LogsParser.RoundTrip
import EerieLeap.LogsParser.PythonFloat
import Mathlib.Data.List.Forall2
import Mathlib.Data.List.Nodup

/-!
# The rows of the CSV output

`to_json` and `to_csv` read the same records, so what they write can be compared record by record. The
text of `to_csv` is taken apart here as a reader of the file does, at the line breaks and the commas.

* `split_csvLine` : the cells of the row of a record;
* `jsonOutput_eq`, `csvOutput_eq` : the texts of a conversion that succeeds;
* `toCsv_agrees_toJson` : one row for each record, with its value in the column of its sensor;
* `keepsValues_iff` : every value is in exactly one cell when its sensor is exactly once in the metadata.
-/

namespace EerieLeap.LogsParser

open EerieLeap.Lib.Bits EerieLeap.Lib.Checksum EerieLeap.Lib.Effect EerieLeap.Lib.Effect.Source

/-! ## Separators -/

/-- `t.split(c)`. -/
def split (c : Char) (t : String) : List String := (t.toList.splitOn c).map String.ofList

theorem split_intercalate {c : Char} {l : List String} (hc : ∀ t ∈ l, c ∉ t.toList) (hne : l ≠ []) :
    split c ((String.singleton c).intercalate l) = l := by
  have hc' : ∀ cs ∈ l.map String.toList, c ∉ cs := by
    intro cs hcs
    obtain ⟨t, ht, rfl⟩ := List.mem_map.mp hcs
    exact hc t ht
  rw [split, String.toList_intercalate, String.toList_singleton,
    List.splitOn_intercalate c hc' (by simpa using hne), List.map_map]
  simp [Function.comp_def]

theorem mem_intercalate {α : Type} {x : α} {sep : List α} {l : List (List α)}
    (h : x ∈ sep.intercalate l) : x ∈ sep ∨ ∃ piece ∈ l, x ∈ piece := by
  induction l with
  | nil => simp at h
  | cons piece l ih =>
    cases l with
    | nil => exact Or.inr ⟨piece, List.mem_cons_self, by simpa using h⟩
    | cons piece' l =>
      rw [List.intercalate_cons_cons, List.append_assoc, List.mem_append, List.mem_append] at h
      rcases h with h | h | h
      · exact Or.inr ⟨piece, List.mem_cons_self, h⟩
      · exact Or.inl h
      · rcases ih h with h | ⟨piece'', hmem, h⟩
        · exact Or.inl h
        · exact Or.inr ⟨piece'', List.mem_cons_of_mem _ hmem, h⟩

/-- A separator in the first piece makes it two. -/
theorem intercalate_append_cons (sep t u : String) (l : List String) :
    sep.intercalate ((t ++ sep ++ u) :: l) = sep.intercalate (t :: u :: l) := by
  rw [String.intercalate_cons_append, String.intercalate_cons_cons]

namespace LogFile

variable (py : PyText)

/-! ## Rows -/

/-- The cells of the row of a record, with a sensor column for each of the ids. -/
def csvRow (ids : List ℕ) (r : LogDataRecord) : List String :=
  py.quotient r.timeDeltaMs.toNat 1000 :: ids.map (csvCellText py r)

theorem foldl_cells (r : LogDataRecord) (ids : List ℕ) (line : String) :
    ids.foldl (fun line id => line ++ "," ++ csvCellText py r id) line =
      ",".intercalate (line :: ids.map (csvCellText py r)) := by
  induction ids generalizing line with
  | nil => simp
  | cons id ids ih => rw [List.foldl_cons, ih, intercalate_append_cons, List.map_cons]

theorem csvLineText_eq {ids : List ℕ} (hids : ids ≠ []) (r : LogDataRecord) :
    csvLineText py ids r = ",".intercalate (csvRow py ids r) := by
  rw [csvLineText, if_pos hids, foldl_cells, csvRow]

section Plain

variable {py} (hpy : py.Plain)
include hpy

theorem plain_csvRow (ids : List ℕ) (r : LogDataRecord) :
    ∀ cell ∈ csvRow py ids r, ',' ∉ cell.toList ∧ '\n' ∉ cell.toList := by
  intro cell hcell
  rcases List.mem_cons.mp hcell with rfl | hcell
  · have hplain := hpy.quotient r.timeDeltaMs.toNat 1000
    exact ⟨hplain.comma, hplain.newline⟩
  · obtain ⟨id, -, rfl⟩ := List.mem_map.mp hcell
    unfold csvCellText
    split
    · have hplain := hpy.strFloat (wordOfLE 4 r.data)
      exact ⟨hplain.comma, hplain.newline⟩
    · simp

/-- **The cells of a row** are those of its record. -/
theorem split_csvLine {ids : List ℕ} (hids : ids ≠ []) (r : LogDataRecord) :
    split ',' (csvLineText py ids r) = csvRow py ids r := by
  rw [csvLineText_eq py hids]
  apply split_intercalate
  · intro cell hcell
    exact (plain_csvRow hpy ids r cell hcell).1
  · exact List.cons_ne_nil _ _

theorem newline_not_mem_csvLine {ids : List ℕ} (hids : ids ≠ []) (r : LogDataRecord) :
    '\n' ∉ (csvLineText py ids r).toList := by
  rw [csvLineText_eq py hids, String.toList_intercalate]
  intro hmem
  rcases mem_intercalate hmem with hcomma | ⟨cs, hcs, hmem⟩
  · revert hcomma
    decide
  · obtain ⟨cell, hcell, rfl⟩ := List.mem_map.mp hcs
    exact (plain_csvRow hpy ids r cell hcell).2 hmem

end Plain

/-! ## The texts of a conversion that succeeds -/

/-- What `to_json` writes for a header and records. -/
def jsonText (header : LogDataHeader) (records : List LogDataRecord) : String :=
  "\x7b" ++ "\"header\": " ++ dumps py header.toDictionary ++ "," ++ "\"records\": [" ++
    ",".intercalate (records.map fun r => dumps py (recordDictionary r)) ++ "]\x7d"

theorem foldBody_jsonTurnText (records : List LogDataRecord) (o : String) :
    foldBody (jsonTurnText py) false records o =
      ",".intercalate (o :: records.map fun r => dumps py (recordDictionary r)) := by
  induction records generalizing o with
  | nil => simp [foldBody]
  | cons r records ih =>
    rw [foldBody, List.map_cons, ← intercalate_append_cons]
    exact ih _

/-- The turns of `to_json` join the records. -/
theorem foldBody_jsonTurnText_true (records : List LogDataRecord) (o : String) :
    foldBody (jsonTurnText py) true records o =
      o ++ ",".intercalate (records.map fun r => dumps py (recordDictionary r)) := by
  cases records with
  | nil => simp [foldBody]
  | cons r records =>
    rw [foldBody, List.map_cons]
    simp only [jsonTurnText, foldBody_jsonTurnText, String.intercalate_cons_append, reduceCtorEq, if_false]

theorem foldBody_csvTurnText (ids : List ℕ) (records : List LogDataRecord) (o : String) :
    foldBody (csvTurnText py ids) () records o =
      "\n".intercalate (o :: records.map (csvLineText py ids)) := by
  induction records generalizing o with
  | nil => simp [foldBody]
  | cons r records ih =>
    rw [foldBody, List.map_cons, ← intercalate_append_cons]
    exact ih _

theorem drain_of_readLog {s : List UInt8} {header : LogDataHeader} {records : List LogDataRecord}
    (hread : (readLog s).1 = .ok (some (header, records))) :
    ∃ s', exec LogDataHeader.create s = (.ok (some header), s') ∧
      (recordSource.drain s').1 = records ∧ (recordSource.drain s').2.1 = .ok () := by
  unfold readLog at hread
  rcases hcreate : exec LogDataHeader.create s with ⟨e | _ | header', s'⟩
  · simp [hcreate] at hread
  · simp [hcreate] at hread
  · rw [hcreate] at hread
    refine ⟨s', ?_⟩
    cases hend : (recordSource.drain s').2.1 with
    | error e => simp [hend, Except.map] at hread
    | ok u =>
      simp only [hend, Except.map, Except.ok.injEq, Option.some.injEq, Prod.mk.injEq] at hread
      obtain ⟨rfl, hrecords⟩ := hread
      exact ⟨rfl, hrecords, rfl⟩

section Texts

variable {s : List UInt8} {header : LogDataHeader} {records : List LogDataRecord}
  (hread : (readLog s).1 = .ok (some (header, records))) (o : String)
include hread

theorem jsonOutput_eq : jsonOutput py s o = o ++ jsonText py header records := by
  obtain ⟨s', hcreate, hrecords, hend⟩ := drain_of_readLog hread
  unfold jsonOutput jsonText
  simp only [hcreate, hrecords, hend, foldBody_jsonTurnText_true, String.append_assoc]

theorem csvOutput_eq (metadata : Option LogMetadata) :
    csvOutput py metadata s o =
      o ++ csvHeader metadata ++ "\n".intercalate ("" :: records.map (csvLineText py (sensorIds metadata))) := by
  obtain ⟨s', hcreate, hrecords, -⟩ := drain_of_readLog hread
  unfold csvOutput
  simp only [hcreate, hrecords]
  rw [foldBody_csvTurnText, ← String.intercalate_cons_append, String.append_empty]

end Texts

/-- **The rows** are the lines of the records, also where the text is split at line breaks. -/
theorem split_csvRows {py : PyText} (hpy : py.Plain) {ids : List ℕ} (hids : ids ≠ [])
    (records : List LogDataRecord) :
    split '\n' ("\n".intercalate ("" :: records.map (csvLineText py ids))) =
      "" :: records.map (csvLineText py ids) := by
  apply split_intercalate
  · intro row hrow
    rcases List.mem_cons.mp hrow with rfl | hrow
    · simp
    · obtain ⟨r, -, rfl⟩ := List.mem_map.mp hrow
      exact newline_not_mem_csvLine hpy hids r
  · exact List.cons_ne_nil _ _

/-! ## One sensor -/

def oneSensor : SensorConfig := ⟨"sensor_1", 2348664336, ⟨"Sensor 1", "km/h", "Test Sensor 1"⟩⟩

/-- The sensor as zcbor writes it. -/
def oneSensorCbor : List UInt8 :=
  [0x9F, 0x9F, 0x9F, 0x68, 0x73, 0x65, 0x6E, 0x73, 0x6F, 0x72, 0x5F, 0x31, 0x1A, 0x8B, 0xFD, 0xC6, 0x10,
   0x9F, 0x68, 0x53, 0x65, 0x6E, 0x73, 0x6F, 0x72, 0x20, 0x31, 0x64, 0x6B, 0x6D, 0x2F, 0x68, 0x6D, 0x54,
   0x65, 0x73, 0x74, 0x20, 0x53, 0x65, 0x6E, 0x73, 0x6F, 0x72, 0x20, 0x31, 0xFF, 0x9F, 0x00, 0x0A, 0x01,
   0x00, 0xFF, 0xFF, 0xFF, 0xFF]

/-- A parser that knows this encoding. -/
def oneParser : CborParser := fun _ data typeName =>
  if data = oneSensorCbor ∧ typeName = "SensorsConfig" then some [oneSensor] else none

/-- The metadata of the sensor, in front of the checksum. -/
def oneMetadataBody : List UInt8 :=
  [0x45, 0x4C, 0x4C, 0x4D, 1, 0, 0, 0, 0, 0, 0, 0, 0, 0, 0, 0] ++ oneSensorCbor

def oneMetadata : LogMetadata where
  header := ⟨"ELLM", 1, [0, 0, 0, 0, 0, 0, 0, 0]⟩
  sensors := ⟨[oneSensor]⟩
  crc := crc32 oneMetadataBody 0
  cddl := ""

theorem create_oneMetadata : exec (LogMetadata.create oneParser "")
    (oneMetadataBody ++ storedLE (crc32 oneMetadataBody 0)) = (.ok (some oneMetadata), []) := by
  decide +kernel

/-- A record of the sensor. -/
def oneRecord : RecordValues := ⟨276, 2348664336, ⟨[0xA0, 0x0F, 0xB4, 0x42], rfl⟩⟩

theorem oneRecord_crc : oneRecord.toRecord.crc ≠ 0 := by decide +kernel

/-- A record of another sensor. -/
def strangeRecord : RecordValues := ⟨287, 6, ⟨[0xA0, 0x0F, 0xB4, 0x42], rfl⟩⟩

def logOf (record : RecordValues) : List UInt8 := encodeLog someHeader.toHeader [record.toRecord]

theorem readLog_logOf {record : RecordValues} (hcrc : record.toRecord.crc ≠ 0) :
    (readLog (logOf record)).1 = .ok (some (someHeader.toHeader, [record.toRecord])) := by
  have hheader : someHeader.toHeader.crc ≠ 0 := by decide +kernel
  refine (readLog_encodeLog_iff someHeader.valid ?_).mpr ⟨hheader, ?_⟩
  · intro r hr
    rw [List.mem_singleton.mp hr]
    exact record.valid
  · intro r hr
    rw [List.mem_singleton.mp hr]
    exact hcrc

theorem toCsv_logOf {record : RecordValues} (hcrc : record.toRecord.crc ≠ 0) (metadata : Option LogMetadata)
    (o : String) : (exec (toCsv py metadata) (logOf record, o)).1 = .ok true := by
  rw [toCsv_eq, readLog_logOf hcrc]
  rfl

/-! ## Agreement -/

/-- The row of a record: its time, and a cell for each sensor, with the value in the column of the
sensor that recorded it. -/
structure RowOf (sensors : List SensorConfig) (r : LogDataRecord) (row : String) : Prop where
  length : (split ',' row).length = 1 + sensors.length
  time : (split ',' row)[0]? = some (py.quotient r.timeDeltaMs.toNat 1000)
  value : ∀ i sensor, sensors[i]? = some sensor → sensor.idHash = r.sensorId.toNat →
    (split ',' row)[i + 1]? = some (strFloat py (wordOfLE 4 r.data)) ∧
      ∀ j < sensors.length, j ≠ i → (split ',' row)[j + 1]? = some ""
  unknown : (∀ sensor ∈ sensors, sensor.idHash ≠ r.sensorId.toNat) →
    ∀ j < sensors.length, (split ',' row)[j + 1]? = some ""

theorem getElem?_csvRow_succ {sensors : List SensorConfig} {i : ℕ} {sensor : SensorConfig}
    (h : sensors[i]? = some sensor) (r : LogDataRecord) :
    (csvRow py (sensors.map SensorConfig.idHash) r)[i + 1]? = some (csvCellText py r sensor.idHash) := by
  simp [csvRow, h]

theorem rowOf_csvLine {py : PyText} (hpy : py.Plain) {sensors : List SensorConfig} (hne : sensors ≠ [])
    (hdistinct : (sensors.map SensorConfig.idHash).Nodup) (r : LogDataRecord) :
    RowOf py sensors r (csvLineText py (sensors.map SensorConfig.idHash) r) := by
  have hids : sensors.map SensorConfig.idHash ≠ [] := by simpa using hne
  have hcells := split_csvLine hpy hids r
  -- a sensor of another id has an empty cell
  have hempty : ∀ j (hj : j < sensors.length), sensors[j].idHash ≠ r.sensorId.toNat →
      (csvRow py (sensors.map SensorConfig.idHash) r)[j + 1]? = some "" := by
    intro j hj hother
    rw [getElem?_csvRow_succ py (List.getElem?_eq_getElem hj), csvCellText, if_neg hother.symm]
  constructor
  · rw [hcells, csvRow, List.length_cons, List.length_map, List.length_map, Nat.add_comm]
  · rw [hcells]
    rfl
  · intro i sensor hsensor hid
    rw [hcells]
    constructor
    · rw [getElem?_csvRow_succ py hsensor, csvCellText, if_pos hid.symm]
    · intro j hj hji
      apply hempty j hj
      intro hsame
      obtain ⟨hi, rfl⟩ := List.getElem?_eq_some_iff.mp hsensor
      apply hji
      have hj' : j < (sensors.map SensorConfig.idHash).length := by simpa using hj
      have hi' : i < (sensors.map SensorConfig.idHash).length := by simpa using hi
      have heq : (sensors.map SensorConfig.idHash)[j] = (sensors.map SensorConfig.idHash)[i] := by
        rw [List.getElem_map, List.getElem_map, hsame, hid]
      exact (List.Nodup.getElem_inj_iff hdistinct).mp heq
  · intro hunknown j hj
    rw [hcells]
    exact hempty j hj (hunknown _ (List.getElem_mem hj))

/-- **JSON and CSV agree**: both conversions read the same bytes and end the same way. When they return
`True`, the CSV text behind the header line is one row for each record of the JSON text, in the same
order. -/
theorem toCsv_agrees_toJson {py : PyText} (hpy : py.Plain) {metadata : LogMetadata}
    (hne : metadata.sensors.toDictionary ≠ [])
    (hdistinct : (metadata.sensors.toDictionary.map SensorConfig.idHash).Nodup)
    (s : List UInt8) (o o' : String) :
    (exec (toCsv py (some metadata)) (s, o)).1 = (exec (toJson py) (s, o')).1 ∧
      (exec (toCsv py (some metadata)) (s, o)).2.1 = (exec (toJson py) (s, o')).2.1 ∧
      ((exec (toCsv py (some metadata)) (s, o)).1 = .ok true →
        ∃ header records data,
          (exec (toJsonLocals py) (s, o')).1 = .ok (some (header, records)) ∧
          (exec (toJson py) (s, o')).2.2 = o' ++ jsonText py header records ∧
          (exec (toCsv py (some metadata)) (s, o)).2.2 = o ++ csvHeader (some metadata) ++ data ∧
          ∃ rows, split '\n' data = "" :: rows ∧
            List.Forall₂ (RowOf py metadata.sensors.toDictionary) records rows) := by
  rw [toCsv_eq, toJson_eq]
  refine ⟨rfl, rfl, ?_⟩
  intro htrue
  obtain ⟨⟨header, records⟩, hread⟩ := map_isSome_eq_ok_true.mp htrue
  have hids : sensorIds (some metadata) ≠ [] := by simpa [sensorIds] using hne
  refine ⟨header, records, _, by rw [toJsonLocals_eq, hread], jsonOutput_eq py hread o',
    csvOutput_eq py hread o (some metadata), _, split_csvRows hpy hids records, ?_⟩
  rw [List.forall₂_map_right_iff, List.forall₂_same]
  intro r _
  exact rowOf_csvLine hpy hne hdistinct r

def otherSensor : SensorConfig := ⟨"sensor_2", 1409275229, ⟨"Sensor 2", "km/h", "Test Sensor 2"⟩⟩

def twoMetadata : LogMetadata := { oneMetadata with sensors := ⟨[oneSensor, otherSensor]⟩ }

/-- The record of the first of two sensors, in JSON and in CSV. -/
theorem oneRecord_rows : ∃ data,
    (exec (toJson .cpython) (logOf oneRecord, "")).2.2 =
      "" ++ jsonText .cpython someHeader.toHeader [oneRecord.toRecord] ∧
    (exec (toCsv .cpython (some twoMetadata)) (logOf oneRecord, "")).2.2 =
      "" ++ csvHeader (some twoMetadata) ++ data ∧
    split '\n' data = ["", "0.276,90.030517578125,"] ∧
    RowOf .cpython [oneSensor, otherSensor] oneRecord.toRecord "0.276,90.030517578125," := by
  have hread := readLog_logOf oneRecord_crc
  have hids : sensorIds (some twoMetadata) ≠ [] := by decide
  have hline : csvLineText .cpython (sensorIds (some twoMetadata)) oneRecord.toRecord = "0.276,90.030517578125," := by
    decide +kernel
  have hagree := toCsv_agrees_toJson PyText.cpython_plain
    (by decide : twoMetadata.sensors.toDictionary ≠ []) (by decide) (logOf oneRecord) "" ""
  obtain ⟨header, records, data, hlocals, hjson, hcsv, rows, hrows, hall⟩ :=
    hagree.2.2 (toCsv_logOf _ oneRecord_crc _ _)
  simp only [toJsonLocals_eq, hread] at hlocals
  cases hlocals
  -- the row is the line that was written
  have hsplit := split_csvRows PyText.cpython_plain hids [oneRecord.toRecord]
  have htext := csvOutput_eq .cpython hread "" (some twoMetadata)
  have hdata : "\n".intercalate ("" :: [oneRecord.toRecord].map
      (csvLineText .cpython (sensorIds (some twoMetadata)))) = data := by
    simp only [toCsv_eq] at hcsv
    exact (String.append_right_inj _).mp (htext.symm.trans hcsv)
  rw [hdata, hrows] at hsplit
  have hrow : rows = ["0.276,90.030517578125,"] := by
    rw [← hline]
    exact (List.cons.inj hsplit).2
  rw [hrow] at hrows hall
  refine ⟨data, hjson, hcsv, hrows, ?_⟩
  cases hall with
  | cons hrow _ => exact hrow

/-! ## Values -/

/-- The value of the record is in exactly one of the sensor cells of the row. -/
def ValueOnce (r : LogDataRecord) (row : String) : Prop :=
  (split ',' row).tail.count (strFloat py (wordOfLE 4 r.data)) = 1

/-- When `to_csv` returns `True`, the value of every record it has read is in exactly one cell of its
row. -/
def KeepsValues (metadata : LogMetadata) (s : List UInt8) : Prop :=
  ∀ o header records s' o',
    exec (toCsvLocals py (some metadata)) (s, o) = (.ok (some (header, records)), s', o') →
    ∃ data rows, o' = o ++ csvHeader (some metadata) ++ data ∧ split '\n' data = "" :: rows ∧
      List.Forall₂ (ValueOnce py) records rows

/-- The value is in as many cells as there are sensors with its id. -/
theorem count_csvRow {py : PyText} (hpy : py.Plain) (ids : List ℕ) (r : LogDataRecord) :
    (csvRow py ids r).tail.count (strFloat py (wordOfLE 4 r.data)) = ids.count r.sensorId.toNat := by
  have hempty : "" ≠ strFloat py (wordOfLE 4 r.data) := (hpy.strFloat _).ne_empty.symm
  show (ids.map (csvCellText py r)).count _ = _
  induction ids with
  | nil => rfl
  | cons id ids ih =>
    rw [List.map_cons, List.count_cons, List.count_cons, ih, csvCellText]
    by_cases hid : r.sensorId.toNat = id
    · simp [hid]
    · simp [hid, hempty, Ne.symm hid]

theorem valueOnce_csvLine_iff {py : PyText} (hpy : py.Plain) {ids : List ℕ} (hids : ids ≠ [])
    (r : LogDataRecord) : ValueOnce py r (csvLineText py ids r) ↔ ids.count r.sensorId.toNat = 1 := by
  rw [ValueOnce, split_csvLine hpy hids, count_csvRow hpy]

theorem valueOnce_rows_iff {py : PyText} (hpy : py.Plain) {ids : List ℕ} (hids : ids ≠ [])
    (records : List LogDataRecord) :
    List.Forall₂ (ValueOnce py) records (records.map (csvLineText py ids)) ↔
      ∀ r ∈ records, ids.count r.sensorId.toNat = 1 := by
  rw [List.forall₂_map_right_iff, List.forall₂_same]
  exact forall₂_congr fun r _ => valueOnce_csvLine_iff hpy hids r

theorem keepsValues_iff_of_ids {py : PyText} (hpy : py.Plain) {metadata : LogMetadata}
    (hne : metadata.sensors.toDictionary ≠ []) {s : List UInt8} {header : LogDataHeader}
    {records : List LogDataRecord} (hread : (readLog s).1 = .ok (some (header, records))) :
    KeepsValues py metadata s ↔ ∀ r ∈ records,
      (metadata.sensors.toDictionary.map SensorConfig.idHash).count r.sensorId.toNat = 1 := by
  have hids : sensorIds (some metadata) ≠ [] := by simpa [sensorIds] using hne
  have hsplit := split_csvRows hpy hids records
  have hrun : ∀ o, exec (toCsvLocals py (some metadata)) (s, o) = (.ok (some (header, records)),
      (readLog s).2, o ++ csvHeader (some metadata) ++
        "\n".intercalate ("" :: records.map (csvLineText py (sensorIds (some metadata))))) := by
    intro o
    rw [toCsvLocals_eq, hread, csvOutput_eq py hread]
  rw [← sensorIds, ← valueOnce_rows_iff hpy hids]
  constructor
  · intro hkeeps
    obtain ⟨data, rows, hdata, hrows, hvalues⟩ := hkeeps _ _ _ _ _ (hrun "")
    rw [String.append_right_inj] at hdata
    rw [← hdata, hsplit] at hrows
    rwa [(List.cons.inj hrows).2]
  · intro hvalues o header' records' s' o' hrun'
    rw [hrun] at hrun'
    cases hrun'
    exact ⟨_, _, rfl, hsplit, hvalues⟩

/-- **No value is lost or doubled** exactly when the sensor of every record is in the metadata once. -/
theorem keepsValues_iff {py : PyText} (hpy : py.Plain) {parseCborHex : CborParser} {cddl : String}
    {bytes rest : List UInt8} {metadata : LogMetadata}
    (hcreate : exec (LogMetadata.create parseCborHex cddl) bytes = (.ok (some metadata), rest))
    {s : List UInt8} {header : LogDataHeader} {records : List LogDataRecord}
    (hread : (readLog s).1 = .ok (some (header, records))) :
    KeepsValues py metadata s ↔ ∀ r ∈ records,
      (metadata.sensors.toDictionary.map SensorConfig.idHash).count r.sensorId.toNat = 1 :=
  keepsValues_iff_of_ids hpy (LogMetadata.of_create hcreate).2.2 hread

/-- The value of a record of the sensor is kept. -/
theorem oneRecord_kept : KeepsValues .cpython oneMetadata (logOf oneRecord) :=
  (keepsValues_iff PyText.cpython_plain create_oneMetadata (readLog_logOf oneRecord_crc)).mpr
    (by decide +kernel)

/-- The value of a record of another sensor is in no cell. -/
theorem strangeRecord_lost : ¬ ∀ (parseCborHex : CborParser) (cddl : String) (bytes rest : List UInt8)
    (metadata : LogMetadata),
    exec (LogMetadata.create parseCborHex cddl) bytes = (.ok (some metadata), rest) →
    ∀ s, KeepsValues .cpython metadata s := by
  intro hall
  have hne : oneMetadata.sensors.toDictionary ≠ [] := by decide
  have hkeeps := hall _ _ _ _ _ create_oneMetadata (logOf strangeRecord)
  have hcount := (keepsValues_iff_of_ids PyText.cpython_plain hne
    (readLog_logOf (by decide +kernel))).mp hkeeps _ List.mem_cons_self
  revert hcount
  decide +kernel

end LogFile

end EerieLeap.LogsParser
