import EerieLeap.LogsParser.CsvRows
import EerieLeap.LogsParser.DamagedLogs
import EerieLeap.LogsParser.ScatteredErrors

/-!
# Damaged records

A log some of whose bytes have changed, by bursts and scattered errors that the checksums show. Both
conversions stop at the first block that is damaged and do with what stands in front of it what they
do with a log that is cut off there; whatever follows is not read.

* `Damaged.not_isCodeword` : a damaged block does not end in its checksum;
* `readLog_damaged_record`, `not_read_of_damaged_header` : the reading stops there;
* `damaged_log` : the two conversions.
-/

namespace EerieLeap.LogsParser

open EerieLeap.Lib.Bits EerieLeap.Lib.Checksum EerieLeap.Lib.Effect EerieLeap.Lib.Effect.Source
open LogDataRecord (Accepted CutInField)

/-- A block is damaged by a burst of at most 32 bits, or by one to three flipped bits anywhere. -/
def Damaged (block block' : List UInt8) : Prop := Burst 32 block block' ∨ Flips 3 block block'

theorem Damaged.length_eq {block block' : List UInt8} (h : Damaged block block') :
    block'.length = block.length := h.elim Burst.length_eq Flips.length_eq

/-- **The damage shows** in a block that is no longer than a header. -/
theorem Damaged.not_isCodeword {block block' : List UInt8} (h : Damaged block block')
    (hlen : block.length ≤ 32) (hcode : zlibCrc.IsCodeword block) : ¬ zlibCrc.IsCodeword block' := by
  rcases h with hburst | hflips
  · exact hcode.not_of_burst zlibCrc hburst
  · exact hcode.not_of_flips zlibCrc (separates_crc32_three.mono le_rfl (by omega)) hflips

theorem isCodeword_encode_record {r : LogDataRecord} (hv : r.Valid) : zlibCrc.IsCodeword r.encode :=
  isCodeword_of_crc_eq hv.crc_eq

theorem isCodeword_encode_header {h : LogDataHeader} (hv : h.Valid) : zlibCrc.IsCodeword h.encode :=
  isCodeword_of_crc_eq hv.crc_eq

/-! ## The reading -/

/-- No record is accepted at the head of a damaged one, whatever follows. -/
theorem not_accepted_of_damaged {r : LogDataRecord} (hv : r.Valid) {block' : List UInt8}
    (h : Damaged r.encode block') (rest : List UInt8) : ¬ Accepted (block' ++ rest) := by
  intro hacc
  obtain ⟨r', s', hrun⟩ := (accepted_iff _).mp hacc
  obtain ⟨hs, hv', -⟩ := LogDataRecord.eq_encode_of_create hrun
  have hlen : block'.length = r'.encode.length := by
    rw [h.length_eq, hv.encode_length, hv'.encode_length]
  obtain ⟨rfl, -⟩ := List.append_inj hs hlen
  exact h.not_isCodeword (by rw [hv.encode_length]; omega) (isCodeword_encode_record hv)
    (isCodeword_encode_record hv')

/-- The reading ends in front of a damaged record. -/
theorem readLog_damaged_record {h : LogDataHeader} {rs : List LogDataRecord} {r : LogDataRecord}
    (hv : h.Valid) (hcrc : h.crc ≠ 0) (hrs : ∀ r ∈ rs, Readable r) (hr : r.Valid)
    {block' : List UInt8} (hdamage : Damaged r.encode block') (rest : List UInt8) :
    (readLog (encodeLog h rs ++ (block' ++ rest))).1 = .ok (some (h, rs)) := by
  have hcut : ¬ CutInField (block' ++ rest) := by
    have hlen := hdamage.length_eq
    rw [hr.encode_length] at hlen
    unfold CutInField
    rw [List.length_append, hlen]
    omega
  rw [readLog_encode_append hv hcrc hrs (not_accepted_of_damaged hr hdamage rest), if_neg hcut]

/-- No header is accepted where it is damaged. -/
theorem not_created_of_damaged {h : LogDataHeader} (hv : h.Valid) {s' : List UInt8}
    (hdamage : Damaged h.encode (s'.take 32)) (h' : LogDataHeader) (t : List UInt8) :
    exec LogDataHeader.create s' ≠ (.ok (some h'), t) := by
  intro hrun
  obtain ⟨rfl, hv', -⟩ := LogDataHeader.eq_encode_of_create hrun
  rw [List.take_left' hv'.encode_length] at hdamage
  exact hdamage.not_isCodeword hv.encode_length.le (isCodeword_encode_header hv)
    (isCodeword_encode_header hv')

/-! ## The log -/

/-- The bytes of the record `i` of a log. -/
def recordBytes (s : List UInt8) (i : ℕ) : List UInt8 := (s.drop (32 + 21 * i)).take 21

theorem Log.take_header (L : Log) : L.encode.take 32 = L.header.encode :=
  List.take_left' L.header_valid.encode_length

theorem Log.take_records (L : Log) {i : ℕ} (hi : i ≤ L.records.length) :
    L.encode.take (32 + 21 * i) = encodeLog L.header (L.records.take i) := by
  have hlen : (encodeLog L.header (L.records.take i)).length = 32 + 21 * i := by
    rw [encodeLog_length L.header_valid fun r hr => L.records_valid r (List.mem_of_mem_take hr),
      List.length_take, Nat.min_eq_left hi]
  rw [Log.encode, encodeLog, ← List.take_append_drop i L.records, List.flatMap_append,
    ← List.append_assoc, List.take_append_drop]
  exact List.take_left' hlen

theorem Log.recordBytes_encode (L : Log) {i : ℕ} (hi : i < L.records.length) :
    recordBytes L.encode i = L.records[i].encode := by
  have hr : L.records[i].Valid := L.records_valid _ (List.getElem_mem hi)
  have hrest : L.encode = L.encode.take (32 + 21 * i) ++
      (L.records[i].encode ++ (L.records.drop (i + 1)).flatMap LogDataRecord.encode) := by
    rw [L.take_records hi.le, encodeLog, List.append_assoc, ← List.flatMap_cons, List.getElem_cons_drop,
      ← List.flatMap_append, List.take_append_drop]
    rfl
  have hlen : (L.encode.take (32 + 21 * i)).length = 32 + 21 * i := by
    rw [List.length_take, Log.encode_length]
    omega
  rw [recordBytes, hrest, List.drop_left' hlen, List.take_left' hr.encode_length]

namespace LogFile

variable (py : PyText) (metadata : Option LogMetadata) (o : String)

/-- Neither conversion gets to the end, and neither writes a record. -/
structure Unread (s : List UInt8) : Prop where
  json_result : (exec (toJson py) (s, o)).1 ≠ .ok true
  json_text : (exec (toJson py) (s, o)).2.2 = o ++ "\x7b" ++ "\"header\": "
  csv_result : (exec (toCsv py metadata) (s, o)).1 ≠ .ok true
  csv_text : (exec (toCsv py metadata) (s, o)).2.2 = o ++ csvHeader metadata

/-- Both conversions of `s` get to the end with the header and the records, and write what those of `t`
do. -/
structure ConvertsAs (s t : List UInt8) (h : LogDataHeader) (rs : List LogDataRecord) : Prop where
  json_read : (exec (toJsonLocals py) (s, o)).1 = .ok (some (h, rs))
  json_result : (exec (toJson py) (s, o)).1 = .ok true
  json_text : (exec (toJson py) (s, o)).2.2 = (exec (toJson py) (t, o)).2.2
  csv_read : (exec (toCsvLocals py metadata) (s, o)).1 = .ok (some (h, rs))
  csv_result : (exec (toCsv py metadata) (s, o)).1 = .ok true
  csv_text : (exec (toCsv py metadata) (s, o)).2.2 = (exec (toCsv py metadata) (t, o)).2.2

theorem unread_of_not_created {s : List UInt8}
    (h : ∀ h t, exec LogDataHeader.create s ≠ (.ok (some h), t)) : Unread py metadata o s := by
  have hread : (readLog s).1.map Option.isSome ≠ .ok true := by
    unfold readLog
    rcases hcreate : exec LogDataHeader.create s with ⟨e | _ | header, t⟩
    · simp [Except.map]
    · simp [Except.map]
    · exact absurd hcreate (h header t)
  have hjson : jsonOutput py s o = o ++ "\x7b" ++ "\"header\": " := by
    unfold jsonOutput
    split
    · exact absurd ‹_› (h _ _)
    · rfl
  have hcsv : csvOutput py metadata s o = o ++ csvHeader metadata := by
    unfold csvOutput
    split
    · exact absurd ‹_› (h _ _)
    · rfl
  refine ⟨?_, ?_, ?_, ?_⟩
  · rwa [toJson_eq]
  · rw [toJson_eq, hjson]
  · rwa [toCsv_eq]
  · rw [toCsv_eq, hcsv]

theorem convertsAs_of_readLog {s t : List UInt8} {h : LogDataHeader} {rs : List LogDataRecord}
    (hs : (readLog s).1 = .ok (some (h, rs))) (ht : (readLog t).1 = .ok (some (h, rs))) :
    ConvertsAs py metadata o s t h rs := by
  refine ⟨?_, ?_, ?_, ?_, ?_, ?_⟩
  · rw [toJsonLocals_eq, hs]
  · rw [toJson_eq, hs]
    rfl
  · rw [toJson_eq, toJson_eq, jsonOutput_eq py hs, jsonOutput_eq py ht]
  · rw [toCsvLocals_eq, hs]
  · rw [toCsv_eq, hs]
    rfl
  · rw [toCsv_eq, toCsv_eq, csvOutput_eq py hs, csvOutput_eq py ht]

/-- **Damaged logs**: when the header is damaged, neither conversion gets to the end or writes a record.
When a record is damaged and everything in front of it is as it was written, both conversions hand out
the records in front of it, as they do for the log that is cut off there, whatever follows. -/
theorem damaged_log {L : Log} (hcrc : L.header.crc ≠ 0) (hcrcs : ∀ r ∈ L.records, r.crc ≠ 0)
    (s' : List UInt8) :
    (Damaged (L.encode.take 32) (s'.take 32) → Unread py metadata o s') ∧
      ∀ i < L.records.length, s'.take (32 + 21 * i) = L.encode.take (32 + 21 * i) →
        Damaged (recordBytes L.encode i) (recordBytes s' i) →
          ConvertsAs py metadata o s' (L.encode.take (32 + 21 * i)) L.header (L.records.take i) := by
  refine ⟨fun hdamage => ?_, fun i hi hsame hdamage => ?_⟩
  · rw [L.take_header] at hdamage
    exact unread_of_not_created py metadata o (not_created_of_damaged L.header_valid hdamage)
  · have hreadable : ∀ r ∈ L.records.take i, Readable r := fun r hr =>
      ⟨L.records_valid r (List.mem_of_mem_take hr), hcrcs r (List.mem_of_mem_take hr)⟩
    rw [L.recordBytes_encode hi] at hdamage
    rw [L.take_records hi.le] at hsame ⊢
    -- the header and the records in front, the damaged block, and what follows
    have hs' : s' = encodeLog L.header (L.records.take i) ++
        (recordBytes s' i ++ (s'.drop (32 + 21 * i)).drop 21) := by
      rw [← hsame, recordBytes, List.take_append_drop, List.take_append_drop]
    refine convertsAs_of_readLog py metadata o ?_ ?_
    · rw [hs']
      exact readLog_damaged_record L.header_valid hcrc hreadable
        (L.records_valid _ (List.getElem_mem hi)) hdamage _
    · exact (readLog_encodeLog_iff L.header_valid fun r hr => (hreadable r hr).1).mpr
        ⟨hcrc, fun r hr => (hreadable r hr).2⟩

/-- A log with two records. -/
def twoRecords : Log where
  header := someHeader.toHeader
  records := [someRecord.toRecord, someRecord.toRecord]
  header_valid := someHeader.valid
  records_valid := by
    intro r hr
    obtain rfl : r = someRecord.toRecord := by simpa using hr
    exact someRecord.valid

/-- Three flipped bits in the second record. -/
theorem damaged_twoRecords :
    ConvertsAs anyText none "" (twoRecords.encode.take 53 ++ scatteredRecord) (twoRecords.encode.take 53)
      someHeader.toHeader [someRecord.toRecord] :=
  (damaged_log anyText none "" (L := twoRecords) (by decide +kernel) (by decide +kernel) _).2 1
    (by decide) (by decide +kernel) (Or.inr ⟨by decide +kernel, by decide +kernel, by decide +kernel⟩)

end LogFile

end EerieLeap.LogsParser
