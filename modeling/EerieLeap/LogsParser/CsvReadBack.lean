import EerieLeap.LogsParser.CsvRows
import EerieLeap.Lib.Csv

/-!
# Reading the CSV output back

`to_csv` puts the names of the columns between quotes as they are, and writes numbers without quotes. A
reader of the format finds the columns that were meant where no name has a quote in it.

* `csvHeader_eq` : the header line, as the columns between quotes;
* `parse_csvText` : what is read back when the columns have no quotes in them;
* `readsBack_iff` : the rows are read back exactly then.
-/

namespace EerieLeap.LogsParser

open EerieLeap.Lib EerieLeap.Lib.Effect

/-! ## Numbers -/

/-- Numbers are written with digits, a point, signs and an exponent. -/
structure PyText.Numeric (py : PyText) : Prop where
  repr : ∀ x, isNaN x = false → isInf x = false → ∀ c ∈ (py.repr x).toList, NumberChar c
  quotient : ∀ a b, 0 < b → ∀ c ∈ (py.quotient a b).toList, NumberChar c

/-- CPython writes numbers so. -/
theorem PyText.cpython_numeric : PyText.cpython.Numeric where
  repr x _ _ := by
    rw [cpython, String.toList_ofList]
    refine List.forall_mem_append.mpr ⟨?_, numberChar_doubleText _⟩
    split <;> exact numberChar_of_all rfl
  quotient a b _ := by
    rw [cpython, String.toList_ofList]
    exact numberChar_doubleText _

theorem NumberChar.bare {c : Char} (h : NumberChar c) : Csv.Bare c := by
  intro hmem
  simp only [List.mem_cons, List.not_mem_nil, or_false] at hmem
  rcases hmem with rfl | rfl | rfl | rfl <;> exact absurd h (by decide)

namespace LogFile

/-! ## Columns -/

/-- The name of the column of a sensor. -/
def columnName (sensor : SensorConfig) : String :=
  sensor.metadata.name ++ " (" ++ sensor.metadata.unit ++ ")"

/-- The names of the columns. -/
def columnNames (sensors : List SensorConfig) : List String := "Time (sec)" :: sensors.map columnName

/-- The name between quotes. -/
def betweenQuotes (t : String) : String := "\"" ++ t ++ "\""

theorem toList_betweenQuotes (t : String) : (betweenQuotes t).toList = Csv.wrap t.toList := by
  simp [betweenQuotes, Csv.wrap]

/-- **The header line** is the names of the columns between quotes. -/
theorem csvHeader_eq (metadata : LogMetadata) : csvHeader (some metadata) =
    ",".intercalate ((columnNames metadata.sensors.toDictionary).map betweenQuotes) := by
  have hfold : ∀ (sensors : List SensorConfig) (line : String),
      sensors.foldl (fun header sensor =>
        header ++ ",\"" ++ sensor.metadata.name ++ " (" ++ sensor.metadata.unit ++ ")\"") line =
      ",".intercalate (line :: sensors.map fun sensor => betweenQuotes (columnName sensor)) := by
    intro sensors
    induction sensors with
    | nil => simp
    | cons sensor sensors ih =>
      intro line
      have hcolumn : line ++ ",\"" ++ sensor.metadata.name ++ " (" ++ sensor.metadata.unit ++ ")\"" =
          line ++ "," ++ betweenQuotes (columnName sensor) := by
        apply String.toList_injective
        simp [betweenQuotes, columnName]
      rw [List.foldl_cons, hcolumn, ih, intercalate_append_cons, List.map_cons]
  rw [csvHeader, hfold, columnNames, List.map_cons, List.map_map]
  rfl

theorem quote_mem_columnName (sensor : SensorConfig) : '"' ∈ (columnName sensor).toList ↔
    '"' ∈ sensor.metadata.name.toList ∨ '"' ∈ sensor.metadata.unit.toList := by
  simp [columnName]

theorem quote_not_mem_columnNames (sensors : List SensorConfig) :
    (∀ t ∈ columnNames sensors, '"' ∉ t.toList) ↔
      ∀ sensor ∈ sensors, '"' ∉ sensor.metadata.name.toList ∧ '"' ∉ sensor.metadata.unit.toList := by
  rw [columnNames, List.forall_mem_cons, List.forall_mem_map]
  simp only [quote_mem_columnName, not_or, and_iff_right_iff_imp]
  exact fun _ => by decide

/-! ## Rows -/

variable {py : PyText}

theorem bare_strFloat (hpy : py.Numeric) (x : Word 4) : ∀ c ∈ (strFloat py x).toList, Csv.Bare c := by
  unfold strFloat floatText
  split
  · exact Csv.bare_of_all (by decide)
  · rename_i hnan
    split
    · split <;> exact Csv.bare_of_all (by decide)
    · rename_i hinf
      intro c hc
      exact (hpy.repr x (by simpa using hnan) (by simpa using hinf) c hc).bare

theorem bare_csvRow (hpy : py.Numeric) (ids : List ℕ) (r : LogDataRecord) :
    ∀ cell ∈ csvRow py ids r, ∀ c ∈ cell.toList, Csv.Bare c := by
  intro cell hcell
  rcases List.mem_cons.mp hcell with rfl | hcell
  · exact fun c hc => (hpy.quotient _ _ (by decide) c hc).bare
  · obtain ⟨id, -, rfl⟩ := List.mem_map.mp hcell
    unfold csvCellText
    split
    · exact bare_strFloat hpy _
    · simp

theorem isRow_csvLine (hpy : py.Numeric) {ids : List ℕ} (hids : ids ≠ []) (r : LogDataRecord) :
    Csv.IsRow (csvLineText py ids r) (csvRow py ids r) := by
  refine ⟨csvRow py ids r, List.cons_ne_nil _ _, csvLineText_eq py hids r, ?_⟩
  rw [List.forall₂_same]
  exact fun cell hcell => .bare (bare_csvRow hpy ids r cell hcell)

theorem isRow_csvHeader {metadata : LogMetadata}
    (h : ∀ t ∈ columnNames metadata.sensors.toDictionary, '"' ∉ t.toList) :
    Csv.IsRow (csvHeader (some metadata)) (columnNames metadata.sensors.toDictionary) := by
  refine ⟨_, ?_, csvHeader_eq metadata, ?_⟩
  · simp [columnNames]
  · rw [List.forall₂_map_left_iff, List.forall₂_same]
    intro t ht
    rw [toList_betweenQuotes, Csv.wrap]
    conv_lhs => rw [← Csv.escape_eq_self (h t ht)]
    exact .quoted _

/-- The text that `to_csv` writes for records. -/
def csvText (py : PyText) (metadata : LogMetadata) (records : List LogDataRecord) : String :=
  "\n".intercalate (csvHeader (some metadata) ::
    records.map (csvLineText py (sensorIds (some metadata))))

theorem csvLineText_ne_empty {ids : List ℕ} (hids : ids ≠ []) (r : LogDataRecord) :
    csvLineText py ids r ≠ "" := by
  obtain ⟨id, ids, rfl⟩ := List.exists_cons_of_ne_nil hids
  rw [csvLineText_eq py hids, csvRow, List.map_cons, String.intercalate_cons_cons]
  intro hempty
  have := congrArg String.toList hempty
  simp at this

/-- **The text is read back** when the names of the columns have no quotes in them. -/
theorem parse_csvText (hpy : py.Numeric) {metadata : LogMetadata}
    (hne : metadata.sensors.toDictionary ≠ [])
    (h : ∀ t ∈ columnNames metadata.sensors.toDictionary, '"' ∉ t.toList) (records : List LogDataRecord) :
    Csv.parse (csvText py metadata records) = some (columnNames metadata.sensors.toDictionary ::
      records.map (csvRow py (sensorIds (some metadata)))) := by
  have hids : sensorIds (some metadata) ≠ [] := by simpa [sensorIds] using hne
  refine Csv.parse_intercalate (.cons (isRow_csvHeader h) ?_) (List.cons_ne_nil _ _) ?_
  · rw [List.forall₂_map_left_iff, List.forall₂_map_right_iff, List.forall₂_same]
    exact fun r _ => isRow_csvLine hpy hids r
  · rw [List.forall_mem_cons, List.forall_mem_map]
    refine ⟨?_, fun r _ => csvLineText_ne_empty hids r⟩
    intro hempty
    have := congrArg String.toList hempty
    rw [csvHeader_eq] at this
    simp [columnNames, betweenQuotes] at this

/-- **Only then**: a reader that finds the names of the columns shows that they have no quotes in them. -/
theorem quote_not_mem_of_parse {metadata : LogMetadata} {records : List LogDataRecord}
    {rows : List (List String)}
    (h : Csv.parse (csvText py metadata records) =
      some (columnNames metadata.sensors.toDictionary :: rows)) :
    ∀ t ∈ columnNames metadata.sensors.toDictionary, '"' ∉ t.toList := by
  obtain ⟨x, hread, hrows⟩ := Option.map_eq_some_iff.mp h
  have hfields : x.field :: x.fields = (columnNames metadata.sensors.toDictionary).map String.toList := by
    have hrow := congrArg (List.map String.toList) (List.cons.inj hrows).1
    simpa [Function.comp_def] using hrow
  obtain ⟨behind, htext, hbehind⟩ : ∃ behind, (csvText py metadata records).toList =
      [','].intercalate (((columnNames metadata.sensors.toDictionary).map String.toList).map Csv.wrap) ++
        behind ∧ (behind = [] ∨ ∃ s, behind = '\n' :: s) := by
    have hheader : (csvHeader (some metadata)).toList =
        [','].intercalate
          (((columnNames metadata.sensors.toDictionary).map String.toList).map Csv.wrap) := by
      rw [csvHeader_eq, String.toList_intercalate, List.map_map, List.map_map]
      simp only [Function.comp_def, toList_betweenQuotes]
      rfl
    rw [← hheader, csvText, String.toList_intercalate]
    cases records with
    | nil => exact ⟨[], by simp, Or.inl rfl⟩
    | cons r records =>
      rw [List.map_cons, List.map_cons, List.map_cons, List.intercalate_cons_cons, List.append_assoc]
      exact ⟨_, rfl, Or.inr ⟨_, rfl⟩⟩
  rw [htext] at hread
  exact fun t ht => Csv.quote_not_mem_of_read hbehind hread hfields _ (List.mem_map_of_mem ht)

/-! ## Reading back -/

/-- When `to_csv` returns `True`, the text is one row with the names of the columns and one for each record
it has read, all of the same width. -/
def ReadsBack (py : PyText) (metadata : LogMetadata) (s : List UInt8) : Prop :=
  ∀ header records s' text,
    exec (toCsvLocals py (some metadata)) (s, "") = (.ok (some (header, records)), s', text) →
    ∃ rows, Csv.parse text = some (columnNames metadata.sensors.toDictionary :: rows) ∧
      rows.length = records.length ∧ ∀ row ∈ rows, row.length = 1 + metadata.sensors.toDictionary.length

theorem readsBack_iff_of_read (hpy : py.Numeric) {metadata : LogMetadata}
    (hne : metadata.sensors.toDictionary ≠ []) {s : List UInt8} {header : LogDataHeader}
    {records : List LogDataRecord} (hread : (readLog s).1 = .ok (some (header, records))) :
    ReadsBack py metadata s ↔ ∀ sensor ∈ metadata.sensors.toDictionary,
      '"' ∉ sensor.metadata.name.toList ∧ '"' ∉ sensor.metadata.unit.toList := by
  have hrun : exec (toCsvLocals py (some metadata)) (s, "") =
      (.ok (some (header, records)), (readLog s).2, csvText py metadata records) := by
    rw [toCsvLocals_eq, hread, csvOutput_eq py hread, csvText, ← String.intercalate_cons_append]
    simp
  rw [← quote_not_mem_columnNames]
  constructor
  · intro hback
    obtain ⟨rows, hparse, -⟩ := hback _ _ _ _ hrun
    exact quote_not_mem_of_parse hparse
  · intro hquotes header' records' s' text hrun'
    rw [hrun] at hrun'
    cases hrun'
    refine ⟨_, parse_csvText hpy hne hquotes records, by rw [List.length_map], ?_⟩
    rw [List.forall_mem_map]
    intro r _
    rw [csvRow, List.length_cons, List.length_map, sensorIds, List.length_map, Nat.add_comm]

/-- **The CSV is read back** exactly when no name and no unit of a sensor has a quote in it. -/
theorem readsBack_iff (hpy : py.Numeric) {metadata : LogMetadata}
    (hne : metadata.sensors.toDictionary ≠ []) {s : List UInt8}
    (htrue : (exec (toCsv py (some metadata)) (s, "")).1 = .ok true) :
    ReadsBack py metadata s ↔ ∀ sensor ∈ metadata.sensors.toDictionary,
      '"' ∉ sensor.metadata.name.toList ∧ '"' ∉ sensor.metadata.unit.toList := by
  rw [toCsv_eq] at htrue
  obtain ⟨⟨header, records⟩, hread⟩ := map_isSome_eq_ok_true.mp htrue
  exact readsBack_iff_of_read hpy hne hread

/-- The sensor of the test, and its record. -/
theorem oneRecord_readsBack : ReadsBack .cpython oneMetadata (logOf oneRecord) :=
  (readsBack_iff PyText.cpython_numeric (by decide)
    (toCsv_logOf .cpython oneRecord_crc (some oneMetadata) "")).mpr (by decide)

/-- A sensor with a quote in its name. -/
def quotedSensor : SensorConfig := ⟨"sensor_1", 2348664336, ⟨"2\" pipe", "l/min", "Flow"⟩⟩

/-- Its column is not read back. -/
theorem quotedSensor_not_readsBack : ¬ ∀ (metadata : LogMetadata) (s : List UInt8),
    metadata.sensors.toDictionary ≠ [] → (exec (toCsv .cpython (some metadata)) (s, "")).1 = .ok true →
    ReadsBack .cpython metadata s := by
  intro hall
  let metadata : LogMetadata := { oneMetadata with sensors := ⟨[quotedSensor]⟩ }
  have hne : metadata.sensors.toDictionary ≠ [] := List.cons_ne_nil _ _
  have hback := hall metadata (logOf oneRecord) hne (toCsv_logOf _ oneRecord_crc _ _)
  have hquotes := (readsBack_iff_of_read PyText.cpython_numeric hne (readLog_logOf oneRecord_crc)).mp hback
    quotedSensor List.mem_cons_self
  exact hquotes.1 (by decide)

end LogFile

end EerieLeap.LogsParser
