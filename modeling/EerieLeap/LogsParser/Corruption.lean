import EerieLeap.LogsParser.RoundTrip

/-!
# Corruption

Everything that one of the three `create` functions accepts ends in its own checksum, so the bursts
that a CRC-32 detects are never accepted.

* `Accepts.not_of_burst` : the argument, for any reader of codewords;
* `corrupted_not_accepted` : records, headers and metadata files.
-/

namespace EerieLeap.LogsParser

open EerieLeap.Lib.Bits EerieLeap.Lib.Checksum EerieLeap.Lib.Effect

variable {α : Type}

/-- A reader returns an instance. -/
def Accepts (create : PyStream (Option α)) (s : List UInt8) : Prop :=
  ∃ a s', exec create s = (.ok (some a), s')

/-- A reader that only accepts codewords accepts no input with a burst of 32 bits in it. -/
theorem Accepts.not_of_burst {create : PyStream (Option α)} {s s' : List UInt8}
    (hcode : ∀ t, t.length = s.length → Accepts create t → zlibCrc.IsCodeword t)
    (h : Accepts create s) (hb : Burst 32 s s') : ¬ Accepts create s' := fun h' =>
  (hcode s rfl h).not_of_burst zlibCrc hb (hcode s' hb.length_eq h')

/-! ## What is accepted is a codeword -/

theorem isCodeword_of_crc_eq {bs : List UInt8} {crc : Word 4} (h : crc = crc32 bs 0) :
    zlibCrc.IsCodeword (bs ++ storedLE crc) := ⟨bs, by rw [h]; rfl⟩

theorem isCodeword_of_accepts_record {s : List UInt8} (hlen : s.length = 21)
    (h : Accepts LogDataRecordAnalog.create s) : zlibCrc.IsCodeword s := by
  obtain ⟨r, s', hrun⟩ := h
  obtain ⟨rfl, hv, -⟩ := LogDataRecord.eq_encode_of_create hrun
  -- nothing is left behind the record
  rw [List.length_append, hv.encode_length] at hlen
  obtain rfl : s' = [] := List.length_eq_zero_iff.mp (by omega)
  rw [List.append_nil]
  exact isCodeword_of_crc_eq hv.crc_eq

theorem isCodeword_of_accepts_header {s : List UInt8} (hlen : s.length = 32)
    (h : Accepts LogDataHeader.create s) : zlibCrc.IsCodeword s := by
  obtain ⟨h, s', hrun⟩ := h
  obtain ⟨rfl, hv, -⟩ := LogDataHeader.eq_encode_of_create hrun
  rw [List.length_append, hv.encode_length] at hlen
  obtain rfl : s' = [] := List.length_eq_zero_iff.mp (by omega)
  rw [List.append_nil]
  exact isCodeword_of_crc_eq hv.crc_eq

theorem isCodeword_of_accepts_metadata {parseCborHex : CborParser} {cddl : String} {s : List UInt8}
    (h : Accepts (LogMetadata.create parseCborHex cddl) s) : zlibCrc.IsCodeword s := by
  obtain ⟨m, s', hrun⟩ := h
  obtain ⟨hlen, hcrc, -⟩ := LogMetadata.of_create hrun
  have := isCodeword_of_crc_eq hcrc
  rwa [storedLE_wordOfLE (by simp; omega), List.take_append_drop] at this

/-- **Corruption is never accepted**: flip any bits within 32 consecutive ones of an accepted record,
header or metadata file, and what comes out is not accepted. -/
theorem corrupted_not_accepted (parseCborHex : CborParser) (cddl : String) :
    (∀ s s' : List UInt8, s.length = 21 → Burst 32 s s' → Accepts LogDataRecordAnalog.create s →
        ¬ Accepts LogDataRecordAnalog.create s') ∧
      (∀ s s' : List UInt8, s.length = 32 → Burst 32 s s' → Accepts LogDataHeader.create s →
        ¬ Accepts LogDataHeader.create s') ∧
      ∀ s s' : List UInt8, Burst 32 s s' → Accepts (LogMetadata.create parseCborHex cddl) s →
        ¬ Accepts (LogMetadata.create parseCborHex cddl) s' := by
  refine ⟨fun s s' hlen hb h => h.not_of_burst (fun t ht => ?_) hb,
    fun s s' hlen hb h => h.not_of_burst (fun t ht => ?_) hb,
    fun s s' hb h => h.not_of_burst (fun t _ => isCodeword_of_accepts_metadata) hb⟩
  · exact isCodeword_of_accepts_record (ht.trans hlen)
  · exact isCodeword_of_accepts_header (ht.trans hlen)

/-- The values of a record. -/
def someRecord : RecordValues := ⟨276, 2348664336, ⟨[0, 0, 0, 0], rfl⟩⟩

theorem accepts_someRecord : Accepts LogDataRecordAnalog.create someRecord.toRecord.encode := by
  have hcrc : someRecord.toRecord.crc ≠ 0 := by decide +kernel
  have hrun := LogDataRecord.create_encode someRecord.valid hcrc []
  rw [List.append_nil] at hrun
  exact ⟨_, _, hrun⟩

/-- A record with another length byte. -/
theorem someRecord_length_byte_not_accepted :
    ¬ Accepts LogDataRecordAnalog.create (someRecord.toRecord.encode.set 12 5) :=
  (corrupted_not_accepted (fun _ _ _ => none) "").1 _ _ someRecord.valid.encode_length
    (Burst.set (by decide) (by decide) (by decide)) accepts_someRecord

end EerieLeap.LogsParser
