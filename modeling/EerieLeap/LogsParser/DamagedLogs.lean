import EerieLeap.LogsParser.RoundTrip

/-!
# Damaged logs

Logs that are cut off, and inputs that hold more than the records that can be read.

* `recoverable_iff` : for every log and every position, whether both conversions of the bytes before
  that position give the whole records in front of it; a cut inside a field that is unpacked makes
  `create` raise;
* `noSilentLoss_iff` : for every input, whether success is only reported when the whole input has been
  read; the loops take a record that is refused for the end of the input.
-/

namespace EerieLeap.LogsParser

open EerieLeap.Lib.Effect
open LogDataRecord (Accepted CutInField)

/-! ## Cuts -/

/-- The lengths of the beginnings of a header on which `create` returns nothing. -/
def HeaderCutOk (p : ℕ) : Prop := p ≤ 4 ∨ 8 ≤ p ∧ p ≤ 12 ∨ p = 20

/-- The lengths of the beginnings of a record on which `create` returns nothing. -/
def RecordCutOk (q : ℕ) : Prop := q ≤ 4 ∨ q = 8 ∨ q = 12 ∨ q = 13

instance (p : ℕ) : Decidable (HeaderCutOk p) := by unfold HeaderCutOk; infer_instance

instance (q : ℕ) : Decidable (RecordCutOk q) := by unfold RecordCutOk; infer_instance

theorem length_take_of_le {α : Type} {n m : ℕ} {xs : List α} (hlen : xs.length = n) (hm : m ≤ n) :
    (xs.take m).length = m := by
  rw [List.length_take, hlen, Nat.min_eq_left hm]

/-- The beginning of a header. -/
theorem exec_create_take_header {h : LogDataHeader} (hv : h.Valid) {p : ℕ} (hp : p < 32) :
    (exec LogDataHeader.create (h.encode.take p)).1 =
      if HeaderCutOk p then .ok none else .error .structError := by
  have hlen : (h.encode.take p).length = p := length_take_of_le hv.encode_length hp.le
  have htake : (h.encode.take p).take 4 = LogDataHeader.fileTypeBytes.take p := by
    rw [List.take_take, Nat.min_comm, ← List.take_take]
    have := LogDataHeader.encode_take_four h []
    rw [List.append_nil] at this
    rw [this]
  have hout := LogDataHeader.create_outcome (h.encode.take p)
  generalize exec LogDataHeader.create (h.encode.take p) = x at hout ⊢
  cases hout with
  | accepted hacc =>
    have := hacc.length_le
    omega
  | cut hcut =>
    have := hcut.2
    rw [if_neg (by unfold HeaderCutOk; omega)]
  | notAscii _ hdec =>
    -- the file type is ASCII, however much of it is left
    rw [htake, decodeAscii, if_pos] at hdec
    · cases hdec
    · exact List.all_eq_true.mpr fun b hb =>
        List.all_eq_true.mp (by decide : LogDataHeader.fileTypeBytes.all (· < 128)) b
          (List.mem_of_mem_take hb)
  | refused _ hcut =>
    rw [if_pos]
    rcases Nat.lt_or_ge p 4 with hp4 | hp4
    · exact Or.inl hp4.le
    · rw [List.take_of_length_le (show LogDataHeader.fileTypeBytes.length ≤ p from hp4)] at htake
      have : ¬ _ := fun hlt => hcut ⟨htake, hlt⟩
      unfold HeaderCutOk
      omega

/-- The beginning of a record. -/
theorem cutInField_take_encode {r : LogDataRecord} (hv : r.Valid) {q : ℕ} (hq : q < 21) :
    CutInField (r.encode.take q) ↔ ¬ RecordCutOk q := by
  have hlen : (r.encode.take q).length = q := length_take_of_le hv.encode_length hq.le
  have htake : 4 < q → (r.encode.take q).take 4 = LogDataRecord.logDataRecordStartMark.reverse := by
    intro hq4
    rw [List.take_take, Nat.min_eq_left hq4.le]
    simp [LogDataRecord.encode, LogDataRecord.body, LogDataRecord.logDataRecordStartMark]
  have hbyte : 13 < q → (r.encode.take q).getD 12 0 = 4 := by
    intro hq13
    rw [List.getD_eq_getElem?_getD, List.getElem?_take_of_lt (by omega)]
    simp [LogDataRecord.encode, LogDataRecord.body, LogDataRecord.logDataRecordStartMark,
      List.getElem?_append]
  unfold CutInField RecordCutOk
  rw [hlen]
  constructor
  · rintro ⟨-, hcut⟩
    omega
  · intro hcut
    refine ⟨htake (by omega), ?_⟩
    rcases Nat.lt_or_ge 13 q with h13 | h13
    · exact Or.inr (Or.inr ⟨hbyte h13, h13, hq⟩)
    · omega

/-- The beginning of a list of records is whole records and the beginning of one more. -/
theorem take_flatMap_encode {rs : List LogDataRecord} (hrs : ∀ r ∈ rs, r.Valid) {p : ℕ}
    (hp : p ≤ 21 * rs.length) :
    ∃ tail, (rs.flatMap LogDataRecord.encode).take p =
        (rs.take (p / 21)).flatMap LogDataRecord.encode ++ tail ∧
      ¬ Accepted tail ∧ (CutInField tail ↔ ¬ RecordCutOk (p % 21)) := by
  have hlen : ((rs.take (p / 21)).flatMap LogDataRecord.encode).length = 21 * (p / 21) := by
    rw [encodeRecords_length fun r hr => hrs r (List.mem_of_mem_take hr), List.length_take]
    omega
  refine ⟨((rs.drop (p / 21)).flatMap LogDataRecord.encode).take (p % 21), ?_, ?_⟩
  · conv_lhs => rw [← List.take_append_drop (p / 21) rs, List.flatMap_append]
    rw [List.take_append, List.take_of_length_le (by omega), hlen,
      show p - 21 * (p / 21) = p % 21 by omega]
  · have hq : p % 21 < 21 := Nat.mod_lt _ (by omega)
    refine ⟨fun hacc => ?_, ?_⟩
    · have := hacc.length_le
      rw [List.length_take] at this
      omega
    · cases hdrop : rs.drop (p / 21) with
      | nil =>
        -- the cut is at the end of the log
        have := List.drop_eq_nil_iff.mp hdrop
        rw [show p % 21 = 0 by omega]
        decide
      | cons r rest =>
        have hr : r.Valid := hrs r (List.mem_of_mem_drop (hdrop ▸ List.mem_cons_self ..))
        rw [List.flatMap_cons, List.take_append_of_le_length (by rw [hr.encode_length]; omega)]
        exact cutInField_take_encode hr hq

/-! ## Truncated logs -/

/-- A log as a logger writes it. -/
structure Log where
  header : LogDataHeader
  records : List LogDataRecord
  header_valid : header.Valid
  records_valid : ∀ r ∈ records, r.Valid

/-- The bytes of a log. -/
def Log.encode (L : Log) : List UInt8 := encodeLog L.header L.records

theorem Log.encode_length (L : Log) : L.encode.length = 32 + 21 * L.records.length :=
  encodeLog_length L.header_valid L.records_valid

/-- The cuts of a log that do no harm: in the header, those at which `create` returns nothing; behind
it, those with no checksum of zero in front of them that leave nothing of the next record or a
beginning on which `create` returns nothing. A log whose header has a checksum of zero gives no
records, so no whole record may stand in front of the cut. -/
def Log.CutOk (L : Log) (p : ℕ) : Prop :=
  if p < 32 then HeaderCutOk p
  else if L.header.crc = 0 then p < 53
  else (∀ r ∈ L.records.take ((p - 32) / 21), r.crc ≠ 0) ∧ RecordCutOk ((p - 32) % 21)

/-- The records a conversion has written. -/
def writtenRecords : Option (LogDataHeader × List LogDataRecord) → List LogDataRecord
  | some (_, rs) => rs
  | none => []

/-- A reading of the bytes before `p` does not raise, and gives the whole records among them. -/
def Log.Recovered (L : Log) (p : ℕ) (x : Except PyError (Option (LogDataHeader × List LogDataRecord))) :
    Prop :=
  ∃ y, x = .ok y ∧ (32 ≤ p → writtenRecords y = L.records.take ((p - 32) / 21))

/-- A header whose checksum is zero is refused. -/
theorem readLog_of_header_crc_eq_zero {h : LogDataHeader} (hv : h.Valid) (hcrc : h.crc = 0)
    (t : List UInt8) : (readLog (h.encode ++ t)).1 = .ok none := by
  have htype := LogDataHeader.encode_take_four h t
  have hout := LogDataHeader.create_outcome (h.encode ++ t)
  unfold readLog
  generalize exec LogDataHeader.create (h.encode ++ t) = x at hout ⊢
  cases hout with
  | accepted hacc => exact absurd hcrc ((LogDataHeader.accepted_encode_append_iff hv t).mp hacc)
  | cut hcut =>
    have := hcut.2
    rw [List.length_append, hv.encode_length] at this
    omega
  | notAscii hne => exact absurd htype hne
  | refused => rfl

/-- A header that is cut off is refused, or makes the reading raise. -/
theorem readLog_take_header {h : LogDataHeader} (hv : h.Valid) {p : ℕ} (hp : p < 32) :
    (readLog (h.encode.take p)).1 = if HeaderCutOk p then .ok none else .error .structError := by
  have hcreate := exec_create_take_header hv hp
  unfold readLog
  generalize exec LogDataHeader.create (h.encode.take p) = x at hcreate ⊢
  obtain ⟨x, s'⟩ := x
  obtain rfl : x = _ := hcreate
  by_cases hok : HeaderCutOk p
  · simp [hok]
  · simp [hok]

/-- Behind the header, the bytes before a cut are whole records and the beginning of one more. -/
theorem Log.take_encode (L : Log) {p : ℕ} (hp32 : 32 ≤ p) (hp : p ≤ L.encode.length) :
    ∃ tail, L.encode.take p = encodeLog L.header (L.records.take ((p - 32) / 21)) ++ tail ∧
      ¬ Accepted tail ∧ (CutInField tail ↔ ¬ RecordCutOk ((p - 32) % 21)) := by
  rw [Log.encode_length] at hp
  obtain ⟨tail, htake, htail, hcut⟩ :=
    take_flatMap_encode L.records_valid (show p - 32 ≤ 21 * L.records.length by omega)
  refine ⟨tail, ?_, htail, hcut⟩
  have hlen := L.header_valid.encode_length
  rw [Log.encode, encodeLog, List.take_append, hlen, List.take_of_length_le (by omega), htake, encodeLog,
    List.append_assoc]

theorem Log.recovered_iff_of_cut_header (L : Log) {p : ℕ} (hp32 : p < 32) :
    L.Recovered p (readLog (L.encode.take p)).1 ↔ HeaderCutOk p := by
  have hlen := L.header_valid.encode_length
  rw [Log.encode, encodeLog, List.take_append_of_le_length (by omega),
    readLog_take_header L.header_valid hp32]
  unfold Log.Recovered
  by_cases hok : HeaderCutOk p
  · simp only [hok, if_true, iff_true]
    exact ⟨none, rfl, by omega⟩
  · simp [hok]

/-- Behind a header whose checksum is zero nothing is read. -/
theorem Log.recovered_iff_of_zero_header (L : Log) {p : ℕ} (hcrc : L.header.crc = 0) (hp32 : 32 ≤ p)
    (hp : p ≤ L.encode.length) : L.Recovered p (readLog (L.encode.take p)).1 ↔ p < 53 := by
  obtain ⟨tail, htake, -, -⟩ := L.take_encode hp32 hp
  rw [Log.encode_length] at hp
  rw [htake, encodeLog, List.append_assoc, readLog_of_header_crc_eq_zero L.header_valid hcrc]
  constructor
  · rintro ⟨y, hy, hrec⟩
    obtain rfl := Except.ok.inj hy
    have := congrArg List.length (hrec hp32)
    simp only [writtenRecords, List.length_nil, List.length_take] at this
    omega
  · intro hlt
    refine ⟨none, rfl, ?_⟩
    intro _
    rw [show (p - 32) / 21 = 0 by omega]
    rfl

/-- Behind any other, the whole records are read up to a checksum of zero, and then the tail. -/
theorem Log.recovered_iff_of_header (L : Log) {p : ℕ} (hcrc : L.header.crc ≠ 0) (hp32 : 32 ≤ p)
    (hp : p ≤ L.encode.length) : L.Recovered p (readLog (L.encode.take p)).1 ↔
      (∀ r ∈ L.records.take ((p - 32) / 21), r.crc ≠ 0) ∧ RecordCutOk ((p - 32) % 21) := by
  obtain ⟨tail, htake, htail, hcut⟩ := L.take_encode hp32 hp
  rw [htake]
  by_cases hcrcs : ∀ r ∈ L.records.take ((p - 32) / 21), r.crc ≠ 0
  · have hreadable : ∀ r ∈ L.records.take ((p - 32) / 21), Readable r := fun r hr =>
      ⟨L.records_valid r (List.mem_of_mem_take hr), hcrcs r hr⟩
    rw [readLog_encode_append L.header_valid hcrc hreadable htail]
    by_cases hq : RecordCutOk ((p - 32) % 21)
    · rw [if_neg fun h => hcut.mp h hq]
      exact ⟨fun _ => ⟨hcrcs, hq⟩, fun _ => ⟨_, rfl, fun _ => rfl⟩⟩
    · rw [if_pos (hcut.mpr hq)]
      simp [Log.Recovered, hq]
  · -- reading stops at the first checksum of zero
    refine iff_of_false ?_ fun h => hcrcs h.1
    rintro ⟨y, hy, hrec⟩
    refine hcrcs fun r hr => ?_
    rw [← hrec hp32] at hr
    obtain _ | ⟨h', rs'⟩ := y
    · cases hr
    · obtain ⟨-, -, -, -, hrs, -⟩ := (readLog_eq_some_iff _ _ _).mp hy
      exact (hrs r hr).2

/-- The reading of a truncated log. -/
theorem Log.recovered_iff (L : Log) {p : ℕ} (hp : p ≤ L.encode.length) :
    L.Recovered p (readLog (L.encode.take p)).1 ↔ L.CutOk p := by
  unfold Log.CutOk
  split
  · exact L.recovered_iff_of_cut_header ‹_›
  split
  · exact L.recovered_iff_of_zero_header ‹_› (by omega) hp
  · exact L.recovered_iff_of_header ‹_› (by omega) hp

namespace LogFile

variable (py : PyText)

/-- Both conversions of the bytes of a log before `p` end without raising and write the records whose
bytes lie before `p`. -/
def Recoverable (metadata : Option LogMetadata) (o : String) (L : Log) (p : ℕ) : Prop :=
  let s := L.encode.take p
  L.Recovered p (exec (toJsonLocals py) (s, o)).1 ∧ ¬ Raises (exec (toJson py) (s, o)) ∧
    L.Recovered p (exec (toCsvLocals py metadata) (s, o)).1 ∧ ¬ Raises (exec (toCsv py metadata) (s, o))

theorem recoverable_iff_recovered (metadata : Option LogMetadata) (o : String) (L : Log) (p : ℕ) :
    Recoverable py metadata o L p ↔ L.Recovered p (readLog (L.encode.take p)).1 := by
  simp only [Recoverable, toJsonLocals_eq, toJson_eq, toCsvLocals_eq, toCsv_eq]
  refine ⟨fun h => h.1, fun h => ?_⟩
  have hraise : ∀ t : List UInt8 × String,
      ¬ Raises ((readLog (L.encode.take p)).1.map Option.isSome, t) := by
    obtain ⟨y, hy, -⟩ := h
    rw [hy]
    rintro t ⟨e, he⟩
    cases he
  exact ⟨h, hraise _, h, hraise _⟩

/-- **Truncated logs**: both conversions recover the records before a cut exactly when the cut is one
of those that do no harm. -/
theorem recoverable_iff (metadata : Option LogMetadata) (o : String) (L : Log)
    (p : Fin (L.encode.length + 1)) : Recoverable py metadata o L p ↔ L.CutOk p := by
  rw [recoverable_iff_recovered]
  exact L.recovered_iff (Nat.le_of_lt_succ p.2)

/-- A log without records. -/
def emptyLog : Log := ⟨someHeader.toHeader, [], someHeader.valid, by simp⟩

/-- A log that ends six bytes behind its start makes `create` raise. -/
theorem not_recoverable_emptyLog :
    ¬ ∀ (o : String) (L : Log) (p : Fin (L.encode.length + 1)), Recoverable anyText none o L p := by
  intro hall
  have hlen : 6 < emptyLog.encode.length + 1 := by
    rw [Log.encode_length]
    omega
  have h := hall "" emptyLog ⟨6, hlen⟩
  rw [recoverable_iff_recovered, Log.recovered_iff _ (by omega)] at h
  simp [Log.CutOk, HeaderCutOk] at h

/-! ## Silent loss -/

/-- Where a conversion returns `True`, the whole input is a valid header and the valid records that
have been read. -/
def NoSilentLoss (metadata : Option LogMetadata) (s : List UInt8) (o : String) : Prop :=
  let Whole (x : Except PyError (Option (LogDataHeader × List LogDataRecord))) : Prop :=
    ∃ h rs, x = .ok (some (h, rs)) ∧ s = encodeLog h rs ∧ h.Valid ∧ ∀ r ∈ rs, r.Valid
  ((exec (toJson py) (s, o)).1 = .ok true → Whole (exec (toJsonLocals py) (s, o)).1) ∧
    ((exec (toCsv py metadata) (s, o)).1 = .ok true → Whole (exec (toCsvLocals py metadata) (s, o)).1)

/-- What follows a readable header and as many readable records as there are is nothing, or the
beginning of a record that ends inside a field. -/
def TailOk (s : List UInt8) : Prop :=
  ∀ h rs tail, s = encodeLog h rs ++ tail → h.Valid → h.crc ≠ 0 → (∀ r ∈ rs, Readable r) →
    ¬ Accepted tail → tail = [] ∨ CutInField tail

/-- The reading is whole where it succeeds exactly when the tail is. -/
theorem readLog_whole_iff (s : List UInt8) :
    ((∃ p, (readLog s).1 = .ok (some p)) → ∃ h rs, (readLog s).1 = .ok (some (h, rs)) ∧
        s = encodeLog h rs ∧ h.Valid ∧ ∀ r ∈ rs, r.Valid) ↔ TailOk s := by
  constructor
  · intro hwhole h rs tail hs hv hcrc hrs htail
    by_cases hcut : CutInField tail
    · exact Or.inr hcut
    -- the reading succeeds, so the whole input has been read
    have hread := readLog_encode_append hv hcrc hrs htail
    rw [if_neg hcut, ← hs] at hread
    obtain ⟨h', rs', hread', hs', -⟩ := hwhole ⟨_, hread⟩
    rw [hread] at hread'
    obtain ⟨rfl, rfl⟩ := Prod.mk.inj (Option.some.inj (Except.ok.inj hread'))
    rw [hs] at hs'
    exact Or.inl (List.append_right_eq_self.mp hs')
  · rintro htail ⟨⟨h, rs⟩, hread⟩
    obtain ⟨tail, hs, hv, hcrc, hrs, hacc, hcut⟩ := (readLog_eq_some_iff s h rs).mp hread
    obtain rfl := (htail h rs tail hs hv hcrc hrs hacc).resolve_right hcut
    exact ⟨h, rs, hread, by rw [hs, List.append_nil], hv, fun r hr => (hrs r hr).1⟩

theorem noSilentLoss_iff_whole (metadata : Option LogMetadata) (s : List UInt8) (o : String) :
    NoSilentLoss py metadata s o ↔
      ((∃ p, (readLog s).1 = .ok (some p)) → ∃ h rs, (readLog s).1 = .ok (some (h, rs)) ∧
        s = encodeLog h rs ∧ h.Valid ∧ ∀ r ∈ rs, r.Valid) := by
  unfold NoSilentLoss
  rw [toJson_eq, toJsonLocals_eq, toCsv_eq, toCsvLocals_eq, map_isSome_eq_ok_true]
  exact and_self_iff

/-- **Silent loss**: success means that the whole input has been read exactly on the inputs where
nothing follows the records that can be read but the beginning of a record that makes `create`
raise. -/
theorem noSilentLoss_iff (metadata : Option LogMetadata) (s : List UInt8) (o : String) :
    NoSilentLoss py metadata s o ↔ TailOk s := by
  rw [noSilentLoss_iff_whole, readLog_whole_iff]

/-- A log followed by a byte that starts no record is reported as read. -/
theorem silentLoss_of_stray_byte :
    ¬ ∀ (s : List UInt8) (o : String), NoSilentLoss anyText none s o := by
  intro hall
  have hcrc : someHeader.toHeader.crc ≠ 0 := by decide +kernel
  have hnot : ¬ Accepted [0] := fun h => by simpa using h.length_le
  have htail := (readLog_whole_iff _).mp ((noSilentLoss_iff_whole _ _ _ _).mp
    (hall (encodeLog someHeader.toHeader [] ++ [0]) ""))
  rcases htail _ _ _ rfl someHeader.valid hcrc (by simp) hnot with h | h
  · cases h
  · exact absurd h (by decide)

end LogFile

end EerieLeap.LogsParser
