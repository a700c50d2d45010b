import EerieLeap.LogsParser.LogFile

/-!
# The reading that both conversions share

`readLog` reads a header and then records until `create` hands out none, as `to_json` and `to_csv` both
do; it writes nothing.

* `toJsonLocals_eq`, `toCsvLocals_eq` : each conversion is that reading, and writes a text that the
  reading determines;
* `readLog_encode_append` : what a reading does behind a readable header and readable records;
* `readLog_eq_some_iff` : what a reading that succeeds has read, exactly.
-/

namespace EerieLeap.LogsParser

open EerieLeap.Lib.Effect EerieLeap.Lib.Effect.Source

/-- A log data file: a header followed by records. -/
def encodeLog (h : LogDataHeader) (rs : List LogDataRecord) : List UInt8 :=
  h.encode ++ rs.flatMap LogDataRecord.encode

theorem encodeRecords_length {rs : List LogDataRecord} (hrs : ∀ r ∈ rs, r.Valid) :
    (rs.flatMap LogDataRecord.encode).length = 21 * rs.length := by
  induction rs with
  | nil => rfl
  | cons r rs ih =>
    have hr := (hrs r (List.mem_cons_self ..)).encode_length
    have ih := ih fun x hx => hrs x (List.mem_cons_of_mem _ hx)
    rw [List.flatMap_cons, List.length_append, hr, ih, List.length_cons]
    ring

theorem encodeLog_length {h : LogDataHeader} {rs : List LogDataRecord} (hv : h.Valid)
    (hrs : ∀ r ∈ rs, r.Valid) : (encodeLog h rs).length = 32 + 21 * rs.length := by
  rw [encodeLog, List.length_append, hv.encode_length, encodeRecords_length hrs]

/-- A header and then records until none is handed out. -/
def readLog (s : List UInt8) : Except PyError (Option (LogDataHeader × List LogDataRecord)) × List UInt8 :=
  match exec LogDataHeader.create s with
  | (.error e, s') => (.error e, s')
  | (.ok none, s') => (.ok none, s')
  | (.ok (some h), s') =>
    ((recordSource.drain s').2.1.map fun _ => some (h, (recordSource.drain s').1),
      (recordSource.drain s').2.2)

namespace LogFile

variable (py : PyText)

/-! ## The texts -/

/-- The dictionary of a record whose data is whole. -/
def recordDictionary (r : LogDataRecord) : List (String × PyValue) :=
  [("timestamp_delta", .int r.timeDeltaMs.toNat),
   ("sensor_id", .int r.sensorId.toNat),
   ("data", .float (wordOfLE 4 r.data)),
   ("crc", .int r.crc.toNat)]

/-- What a turn of `to_json` writes, and the flag it leaves. -/
def jsonTurnText (firstRecord : Bool) (r : LogDataRecord) (o : String) : Bool × String :=
  (false, (if firstRecord = false then o ++ "," else o) ++ dumps py (recordDictionary r))

/-- The cell of a record whose data is whole. -/
def csvCellText (r : LogDataRecord) (id : ℕ) : String :=
  if r.sensorId.toNat = id then strFloat py (wordOfLE 4 r.data) else ""

/-- The line of a record whose data is whole. -/
def csvLineText (sensorIds : List ℕ) (r : LogDataRecord) : String :=
  if sensorIds ≠ [] then
    sensorIds.foldl (fun line id => line ++ "," ++ csvCellText py r id)
      (py.quotient r.timeDeltaMs.toNat 1000)
  else py.quotient r.timeDeltaMs.toNat 1000 ++ ("," ++ strFloat py (wordOfLE 4 r.data))

/-- What a turn of `to_csv` writes. -/
def csvTurnText (sensorIds : List ℕ) (_ : Unit) (r : LogDataRecord) (o : String) : Unit × String :=
  ((), o ++ "\n" ++ csvLineText py sensorIds r)

/-- The text `to_json` leaves behind `o` on the input `s`. -/
def jsonOutput (s : List UInt8) (o : String) : String :=
  match exec LogDataHeader.create s with
  | (.ok (some h), s') =>
    let o' := foldBody (jsonTurnText py) true (recordSource.drain s').1
      (o ++ "\x7b" ++ "\"header\": " ++ dumps py h.toDictionary ++ "," ++ "\"records\": [")
    match (recordSource.drain s').2.1 with
    | .ok _ => o' ++ "]\x7d"
    | .error _ => o'
  | _ => o ++ "\x7b" ++ "\"header\": "

/-- The text `to_csv` leaves behind `o` on the input `s`. -/
def csvOutput (metadata : Option LogMetadata) (s : List UInt8) (o : String) : String :=
  match exec LogDataHeader.create s with
  | (.ok (some _), s') =>
    foldBody (csvTurnText py (sensorIds metadata)) () (recordSource.drain s').1 (o ++ csvHeader metadata)
  | _ => o ++ csvHeader metadata

/-! ## The turns do not raise -/

section Turns

variable {r : LogDataRecord} (hdata : r.data.length = 4)
include hdata

theorem getData_eq : LogDataRecordAnalog.getData r = .ok (wordOfLE 4 r.data) := by
  simp [LogDataRecordAnalog.getData, unpackLE, hdata]

theorem exec_toJsonTurn (firstRecord : Bool) (o : String) :
    exec (toJsonTurn py firstRecord r) o =
      (.ok (jsonTurnText py firstRecord r o).1, (jsonTurnText py firstRecord r o).2) := by
  have hdict : LogDataRecordAnalog.toDictionary r = .ok (recordDictionary r) := by
    unfold LogDataRecordAnalog.toDictionary
    rw [getData_eq hdata]
    rfl
  unfold toJsonTurn jsonTurnText
  cases firstRecord <;>
    simp only [exec_bind, exec_liftM, exec_write, exec_pure, hdict, reduceCtorEq, if_true, if_false]

theorem csvCell_eq (id : ℕ) : csvCell py r id = .ok (csvCellText py r id) := by
  unfold csvCell csvCellText
  rw [getData_eq hdata]
  split <;> rfl

theorem csvLine_eq (sensorIds : List ℕ) : csvLine py sensorIds r = .ok (csvLineText py sensorIds r) := by
  unfold csvLine csvLineText
  split
  · -- the columns, one after the other
    generalize py.quotient r.timeDeltaMs.toNat 1000 = line
    clear * - hdata
    induction sensorIds generalizing line with
    | nil => rfl
    | cons id ids ih =>
      rw [List.foldlM_cons, csvCell_eq py hdata]
      exact ih _
  · rw [getData_eq hdata]
    rfl

theorem exec_toCsvTurn (sensorIds : List ℕ) (u : Unit) (o : String) :
    exec (toCsvTurn py sensorIds u r) o =
      (.ok (csvTurnText py sensorIds u r o).1, (csvTurnText py sensorIds u r o).2) := by
  unfold toCsvTurn
  simp only [exec_bind, exec_liftM, exec_write, csvLine_eq py hdata, csvTurnText]

end Turns

/-! ## Reading and writing -/

theorem data_length_of_create {s s' : List UInt8} {r : LogDataRecord}
    (h : exec recordSource.next s = (.ok (some r), s')) : r.data.length = 4 :=
  (LogDataRecord.eq_encode_of_create h).2.1.data_length

/-- **`to_json` is a reading and a text.** -/
theorem toJsonLocals_eq (s : List UInt8) (o : String) :
    exec (toJsonLocals py) (s, o) = ((readLog s).1, (readLog s).2, jsonOutput py s o) := by
  unfold toJsonLocals readLog jsonOutput
  simp only [exec_bind, exec_onSnd, exec_write, exec_onFst]
  rcases exec LogDataHeader.create s with ⟨e | _ | h, s'⟩
  · rfl
  · rfl
  · simp only [exec_bind, exec_onSnd, exec_write, exec_loop]
    rw [loop_eq_drain (fun _ _ _ => data_length_of_create) (fun r hr => exec_toJsonTurn py hr)]
    cases (recordSource.drain s').2.1 <;> rfl

/-- **`to_csv` is the same reading and a text.** -/
theorem toCsvLocals_eq (metadata : Option LogMetadata) (s : List UInt8) (o : String) :
    exec (toCsvLocals py metadata) (s, o) =
      ((readLog s).1, (readLog s).2, csvOutput py metadata s o) := by
  unfold toCsvLocals readLog csvOutput
  simp only [exec_bind, exec_onSnd, exec_write, exec_onFst]
  rcases exec LogDataHeader.create s with ⟨e | _ | h, s'⟩
  · rfl
  · rfl
  · simp only [exec_bind, exec_loop]
    rw [loop_eq_drain (fun _ _ _ => data_length_of_create) (fun r hr => exec_toCsvTurn py hr _)]
    cases (recordSource.drain s').2.1 <;> rfl

end LogFile

/-! ## What a reading reads -/

section Reading

open LogDataRecord (Accepted CutInField)

/-- A record that a logger writes and `create` takes: its checksum is right and not zero. -/
def Readable (r : LogDataRecord) : Prop := r.Valid ∧ r.crc ≠ 0

theorem accepted_iff (s : List UInt8) :
    Accepted s ↔ ∃ r s', exec LogDataRecordAnalog.create s = (.ok (some r), s') := by
  have hout := LogDataRecord.create_outcome s
  generalize exec LogDataRecordAnalog.create s = x at hout ⊢
  cases hout with
  | accepted h => exact ⟨fun _ => ⟨_, _, rfl⟩, fun _ => h⟩
  | cut h =>
    refine ⟨fun hacc => ?_, by simp⟩
    have := hacc.length_le
    unfold CutInField at h
    omega
  | refused h => simp [h]

/-- The records in front of a tail are handed out, and then what the tail gives. -/
theorem drain_records {rs : List LogDataRecord} (hrs : ∀ r ∈ rs, Readable r) (tail : List UInt8) :
    recordSource.drain (rs.flatMap LogDataRecord.encode ++ tail) =
      (rs ++ (recordSource.drain tail).1, (recordSource.drain tail).2) :=
  drain_flatMap_append tail fun r hr t => LogDataRecord.create_encode (hrs r hr).1 (hrs r hr).2 t

/-- On a tail that starts with no record nothing is handed out, and the reading raises if the tail is
a record cut inside a field. -/
theorem drain_tail {tail : List UInt8} (h : ¬ Accepted tail) :
    (recordSource.drain tail).1 = [] ∧
      (recordSource.drain tail).2.1 = if CutInField tail then .error .structError else .ok () := by
  have hstop : ∀ r s', exec LogDataRecordAnalog.create tail ≠ (.ok (some r), s') := fun r s' hrun =>
    h ((accepted_iff tail).mpr ⟨r, s', hrun⟩)
  rw [drain_eq_of_stop hstop]
  refine ⟨rfl, ?_⟩
  have hout := LogDataRecord.create_outcome tail
  show (exec LogDataRecordAnalog.create tail).1.map _ = _
  generalize exec LogDataRecordAnalog.create tail = x at hout ⊢
  cases hout with
  | accepted hacc => exact absurd hacc h
  | cut hcut => rw [if_pos hcut]; rfl
  | refused _ hcut => rw [if_neg hcut]; rfl

/-- Reading behind a readable header and readable records. -/
theorem readLog_encode_append {h : LogDataHeader} {rs : List LogDataRecord} (hv : h.Valid)
    (hcrc : h.crc ≠ 0) (hrs : ∀ r ∈ rs, Readable r) {tail : List UInt8} (htail : ¬ Accepted tail) :
    (readLog (encodeLog h rs ++ tail)).1 =
      if CutInField tail then .error .structError else .ok (some (h, rs)) := by
  obtain ⟨hnil, hend⟩ := drain_tail htail
  unfold readLog encodeLog
  rw [List.append_assoc, LogDataHeader.create_encode hv hcrc]
  simp only [drain_records hrs, hnil, hend, List.append_nil]
  split <;> rfl

/-- **What a reading has read**: it succeeds exactly on a header and records with the right
checksums, none of them zero, followed by a tail that starts with no record and does not end inside a
field of one. -/
theorem readLog_eq_some_iff (s : List UInt8) (h : LogDataHeader) (rs : List LogDataRecord) :
    (readLog s).1 = .ok (some (h, rs)) ↔
      ∃ tail, s = encodeLog h rs ++ tail ∧ h.Valid ∧ h.crc ≠ 0 ∧ (∀ r ∈ rs, Readable r) ∧
        ¬ Accepted tail ∧ ¬ CutInField tail := by
  constructor
  · intro hread
    unfold readLog at hread
    rcases hcreate : exec LogDataHeader.create s with ⟨e | _ | h', s'⟩
    · simp [hcreate] at hread
    · simp [hcreate] at hread
    · obtain ⟨hs, hv, hcrc⟩ := LogDataHeader.eq_encode_of_create hcreate
      have hdec : ∀ i r i', exec recordSource.next i = (.ok (some r), i') →
          i = r.encode ++ i' ∧ Readable r := fun _ _ _ hrun => LogDataRecord.eq_encode_of_create hrun
      obtain ⟨tail, hs', hP, hstop, hend⟩ := drain_decomposes hdec s'
      have htail : ¬ Accepted tail := fun hacc => by
        obtain ⟨r, t, hrun⟩ := (accepted_iff tail).mp hacc
        exact hstop r t hrun
      simp only [hcreate] at hread
      cases hok : (recordSource.drain s').2.1 with
      | error e => simp [hok, Except.map] at hread
      | ok u =>
        simp only [hok, Except.map, Except.ok.injEq, Option.some.injEq, Prod.mk.injEq] at hread
        obtain ⟨rfl, rfl⟩ := hread
        refine ⟨tail, ?_, hv, hcrc, hP, htail, fun hcut => ?_⟩
        · rw [encodeLog, List.append_assoc, ← hs', ← hs]
        · -- a tail cut inside a field would have raised
          obtain ⟨e, he⟩ := (LogDataRecord.create_raises_iff tail).mpr hcut
          rw [hend] at hok
          change (exec LogDataRecordAnalog.create tail).1.map _ = _ at hok
          rw [he] at hok
          cases hok
  · rintro ⟨tail, rfl, hv, hcrc, hrs, htail, hcut⟩
    rw [readLog_encode_append hv hcrc hrs htail, if_neg hcut]

/-- What has been read stands encoded at the head of the input. -/
theorem encodeLog_of_readLog {s : List UInt8} {h : LogDataHeader} {rs : List LogDataRecord}
    (hread : (readLog s).1 = .ok (some (h, rs))) : encodeLog h rs = s.take (32 + 21 * rs.length) := by
  obtain ⟨tail, hs, hv, -, hrs, -⟩ := (readLog_eq_some_iff s h rs).mp hread
  have hlen : (encodeLog h rs).length = 32 + 21 * rs.length := encodeLog_length hv fun r hr => (hrs r hr).1
  rw [hs, ← hlen, List.take_left]

theorem not_accepted_nil : ¬ Accepted [] := fun h => by simpa using h.length_le

theorem not_cutInField_nil : ¬ CutInField [] := by decide

end Reading

end EerieLeap.LogsParser
