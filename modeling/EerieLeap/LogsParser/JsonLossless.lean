import EerieLeap.Lib.JsonReader
import EerieLeap.LogsParser.FloatReadBack
import EerieLeap.LogsParser.JsonDocument

/-!
# The JSON output loses nothing

A JSON text stands for one value, and the value tells every field of the header and of the records: numbers
and hexadecimal strings have one reading, and floats are never written alike. So the part of a log that
`to_json` has read can be told from its output, byte by byte.

* `documentJson_injective` : the header and the records behind a document;
* `toJson_lossless` : logs whose outputs mean the same have been read alike.
-/

namespace EerieLeap.LogsParser

open EerieLeap.Lib EerieLeap.Lib.Effect

/-! ## Fields -/

theorem hexDigits_injective {m n : ℕ} (hm : m < 256) (hn : n < 256) (h : hexDigits 2 m = hexDigits 2 n) :
    m = n := by
  have hdigit : ∀ {a b : ℕ}, a < 16 → b < 16 → Nat.digitChar a = Nat.digitChar b → a = b := by
    intro a b ha hb hab
    have hread := congrArg Json.hexDigit? hab
    rw [hexDigit_digitChar a ha, hexDigit_digitChar b hb] at hread
    exact Option.some.inj hread
  simp only [hexDigits, List.nil_append, List.cons_append, List.cons.injEq, and_true] at h
  have hhigh := hdigit (Nat.mod_lt _ (by decide)) (Nat.mod_lt _ (by decide)) h.1
  have hlow := hdigit (Nat.mod_lt _ (by decide)) (Nat.mod_lt _ (by decide)) h.2
  omega

theorem hex_injective {bs bs' : List UInt8} (h : hex bs = hex bs') : bs = bs' := by
  have hlist : bs.flatMap (fun b => hexDigits 2 b.toNat) = bs'.flatMap fun b => hexDigits 2 b.toNat :=
    String.ofList_injective h
  clear h
  induction bs generalizing bs' with
  | nil =>
    cases bs' with
    | nil => rfl
    | cons b' bs' => simp [hexDigits] at hlist
  | cons b bs ih =>
    cases bs' with
    | nil => simp [hexDigits] at hlist
    | cons b' bs' =>
      rw [List.flatMap_cons, List.flatMap_cons] at hlist
      obtain ⟨hbyte, hrest⟩ := List.append_inj hlist rfl
      have hb := hexDigits_injective b.toNat_lt b'.toNat_lt hbyte
      rw [UInt8.toNat_inj.mp hb, ih hrest]

theorem repr_injective {m n : ℕ} (h : (Nat.repr m).toList = (Nat.repr n).toList) : m = n := by
  rw [Nat.toList_repr, Nat.toList_repr] at h
  have hvalue := congrArg (fun t => Nat.ofDigitChars 10 t 0) h
  simpa using hvalue

variable {py : PyText}

theorem dumps_float (x : Word 4) (h : IsFinite x) : PyValue.dumps py (.float x) = py.repr x := by
  rw [PyValue.dumps, floatText, h.1, h.2]
  rfl

theorem PyText.Faithful.dumps_injective (hpy : py.Faithful) {x y : Word 4} (hx : IsFinite x) (hy : IsFinite y)
    (h : (PyValue.dumps py (.float x)).toList = (PyValue.dumps py (.float y)).toList) : x = y := by
  rw [dumps_float x hx, dumps_float y hy] at h
  exact hpy x y hx.1 hx.2 hy.1 hy.2 (String.toList_injective h)

/-! ## The document -/

theorem headerJson_injective {header header' : LogDataHeader} (hfile : header.fileType = header'.fileType)
    (h : dictionaryJson py header.toDictionary = dictionaryJson py header'.toDictionary) : header = header' := by
  simp only [dictionaryJson, LogDataHeader.toDictionary, List.map_cons, List.map_nil, PyValue.toJson,
    Json.Value.object.injEq, List.cons.injEq, Prod.mk.injEq, Json.Value.number.injEq,
    Json.Value.string.injEq, true_and, and_true] at h
  obtain ⟨-, hversion, hmetadata, hstart, hreserved, hcrc⟩ := h
  obtain ⟨fileType, version, logMetadataFileVersion, startTimeNs, reserved, crc⟩ := header
  have hversion := BitVec.eq_of_toNat_eq (repr_injective hversion)
  have hstart := BitVec.eq_of_toNat_eq (repr_injective hstart)
  have hcrc := BitVec.eq_of_toNat_eq (repr_injective hcrc)
  have hmetadata := hex_injective hmetadata
  have hreserved := hex_injective hreserved
  simp only at hfile hversion hstart hcrc hmetadata hreserved
  rw [hfile, hversion, hmetadata, hstart, hreserved, hcrc]

/-- A record that can be read back: its data is a finite float. -/
structure LogDataRecord.Finite (r : LogDataRecord) : Prop where
  data_length : r.data.length = 4
  isFinite : IsFinite (wordOfLE 4 r.data)

namespace LogFile

theorem recordJson_injective (hpy : py.Faithful) {r r' : LogDataRecord} (hr : r.Finite) (hr' : r'.Finite)
    (h : dictionaryJson py (recordDictionary r) = dictionaryJson py (recordDictionary r')) : r = r' := by
  simp only [dictionaryJson, recordDictionary, List.map_cons, List.map_nil, PyValue.toJson,
    Json.Value.object.injEq, List.cons.injEq, Prod.mk.injEq, Json.Value.number.injEq, true_and, and_true] at h
  obtain ⟨htime, hsensor, hdata, hcrc⟩ := h
  have hword := hpy.dumps_injective hr.isFinite hr'.isFinite hdata
  have hdata : r.data = r'.data := by
    rw [← storedLE_wordOfLE hr.data_length, hword, storedLE_wordOfLE hr'.data_length]
  have htime := BitVec.eq_of_toNat_eq (repr_injective htime)
  have hsensor := BitVec.eq_of_toNat_eq (repr_injective hsensor)
  have hcrc := BitVec.eq_of_toNat_eq (repr_injective hcrc)
  obtain ⟨timeDeltaMs, sensorId, data, crc⟩ := r
  simp only at htime hsensor hdata hcrc
  rw [htime, hsensor, hdata, hcrc]

/-- **The document** tells the header and the records. -/
theorem documentJson_injective (hpy : py.Faithful) {header header' : LogDataHeader}
    {records records' : List LogDataRecord} (hfile : header.fileType = header'.fileType)
    (hfinite : ∀ r ∈ records, r.Finite) (hfinite' : ∀ r ∈ records', r.Finite)
    (h : documentJson py header records = documentJson py header' records') :
    header = header' ∧ records = records' := by
  simp only [documentJson, Json.Value.object.injEq, List.cons.injEq, Prod.mk.injEq, Json.Value.array.injEq,
    true_and, and_true] at h
  obtain ⟨hheader, hrecords⟩ := h
  refine ⟨headerJson_injective hfile hheader, ?_⟩
  clear hheader
  induction records generalizing records' with
  | nil =>
    cases records' with
    | nil => rfl
    | cons r' records' => cases hrecords
  | cons r records ih =>
    cases records' with
    | nil => cases hrecords
    | cons r' records' =>
      obtain ⟨hr, hrest⟩ := List.forall_mem_cons.mp hfinite
      obtain ⟨hr', hrest'⟩ := List.forall_mem_cons.mp hfinite'
      rw [List.map_cons, List.map_cons, List.cons.injEq] at hrecords
      rw [recordJson_injective hpy hr hr' hrecords.1, ih hrest hrest' hrecords.2]

/-- What a document was written from. -/
theorem readLog_of_text (hpy : py.JsonNumbers) {s : List UInt8} {v : Json.Value}
    (htrue : (exec (toJson py) (s, "")).1 = .ok true)
    (hv : Json.Text (exec (toJson py) (s, "")).2.2.toList v) : ∃ header records,
      (readLog s).1 = .ok (some (header, records)) ∧ v = documentJson py header records ∧
      header.fileType = LogDataHeader.logDataFileType ∧ ∀ r ∈ records, r.Finite := by
  rw [toJson_eq] at htrue
  obtain ⟨⟨header, records⟩, hread⟩ := map_isSome_eq_ok_true.mp htrue
  rw [toJson_eq, jsonOutput_eq py hread, String.empty_append] at hv
  have hfinite := finite_of_text hpy hv
  obtain ⟨-, -, hvalid, -, hreadable, -⟩ := (readLog_eq_some_iff s header records).mp hread
  exact ⟨header, records, hread, hv.unique (text_jsonText hpy header hfinite), hvalid.fileType_eq,
    fun r hr => ⟨(hreadable r hr).1.data_length, hfinite r hr⟩⟩

/-- **Nothing is lost**: when two logs are converted to JSON texts that stand for the same value, the same
header and records have been read from both, and the same bytes. -/
theorem toJson_lossless (hpy : py.JsonNumbers) (hfaithful : py.Faithful) {s s' : List UInt8} {v : Json.Value}
    (htrue : (exec (toJson py) (s, "")).1 = .ok true) (htrue' : (exec (toJson py) (s', "")).1 = .ok true)
    (hv : Json.Text (exec (toJson py) (s, "")).2.2.toList v)
    (hv' : Json.Text (exec (toJson py) (s', "")).2.2.toList v) : ∃ header records,
      (exec (toJsonLocals py) (s, "")).1 = .ok (some (header, records)) ∧
      (exec (toJsonLocals py) (s', "")).1 = .ok (some (header, records)) ∧
      s.take (32 + 21 * records.length) = encodeLog header records ∧
      s'.take (32 + 21 * records.length) = encodeLog header records := by
  obtain ⟨header, records, hread, rfl, hfile, hfinite⟩ := readLog_of_text hpy htrue hv
  obtain ⟨header', records', hread', hdocument, hfile', hfinite'⟩ := readLog_of_text hpy htrue' hv'
  obtain ⟨rfl, rfl⟩ := documentJson_injective hfaithful (hfile.trans hfile'.symm) hfinite hfinite' hdocument
  refine ⟨header, records, ?_, ?_, (encodeLog_of_readLog hread).symm, (encodeLog_of_readLog hread').symm⟩
  · rw [toJsonLocals_eq, hread]
  · rw [toJsonLocals_eq, hread']

/-- The log of the test, with and without a byte behind it. -/
theorem oneRecord_lossless : ∃ header records,
    (logOf oneRecord).take (32 + 21 * records.length) = encodeLog header records ∧
      (logOf oneRecord ++ [0]).take (32 + 21 * records.length) = encodeLog header records := by
  have hread := readLog_logOf oneRecord_crc
  have hread' : (readLog (logOf oneRecord ++ [0])).1 =
      .ok (some (someHeader.toHeader, [oneRecord.toRecord])) := by
    obtain ⟨tail, htail, hvalid, hcrc, hreadable, -⟩ := (readLog_eq_some_iff _ _ _).mp hread
    refine (readLog_eq_some_iff _ _ _).mpr ⟨[0], rfl, hvalid, hcrc, hreadable, ?_, by decide⟩
    exact fun h => by simpa using h.length_le
  have htrue : ∀ {s : List UInt8}, (readLog s).1 = .ok (some (someHeader.toHeader, [oneRecord.toRecord])) →
      (exec (toJson .cpython) (s, "")).1 = .ok true := by
    intro s hs
    rw [toJson_eq, hs]
    rfl
  have hfinite : ∀ r ∈ [oneRecord.toRecord], IsFinite (wordOfLE 4 r.data) :=
    List.forall_mem_singleton.mpr ⟨by decide, by decide +kernel⟩
  have htext : ∀ {s : List UInt8}, (readLog s).1 = .ok (some (someHeader.toHeader, [oneRecord.toRecord])) →
      Json.Text (exec (toJson .cpython) (s, "")).2.2.toList
        (documentJson .cpython someHeader.toHeader [oneRecord.toRecord]) := by
    intro s hs
    rw [toJson_eq, jsonOutput_eq _ hs, String.empty_append]
    exact text_jsonText PyText.cpython_jsonNumbers someHeader.toHeader hfinite
  obtain ⟨header, records, -, -, hbytes, hbytes'⟩ := toJson_lossless PyText.cpython_jsonNumbers
    PyText.cpython_faithful (htrue hread) (htrue hread') (htext hread) (htext hread')
  exact ⟨header, records, hbytes, hbytes'⟩

end LogFile

end EerieLeap.LogsParser
