import EerieLeap.LogsParser.CsvRows
import EerieLeap.LogsParser.JsonNumbers

/-!
# The JSON output as a JSON document

`to_json` writes an object around the dictionaries of the header and the records. Strings and integers
become tokens of the grammar; a float that is not finite does not.

* `isString_jsonString` : strings;
* `isValue_dumps`, `dirty_dumps` : a dictionary, by whether its floats are finite;
* `document_iff` : when the output is a JSON text.
-/

namespace EerieLeap.LogsParser

open EerieLeap.Lib EerieLeap.Lib.Effect

/-! ## Strings -/

theorem hexDigit_digitChar : ∀ d < 16, Json.hexDigit? (Nat.digitChar d) = some d := by decide

theorem unit16_hexDigits {n : ℕ} (h : n < 0x10000) :
    Json.Unit16 ("\\u".toList ++ hexDigits 4 n) n := by
  have hn : 16 * (16 * (16 * (n / 16 / 16 / 16 % 16) + n / 16 / 16 % 16) + n / 16 % 16) + n % 16 = n := by
    omega
  have hdigit : ∀ m, Json.hexDigit? (Nat.digitChar (m % 16)) = some (m % 16) :=
    fun m => hexDigit_digitChar _ (Nat.mod_lt _ (by decide))
  have hunit := Json.Unit16.mk (hdigit (n / 16 / 16 / 16)) (hdigit (n / 16 / 16)) (hdigit (n / 16)) (hdigit n)
  rw [hn] at hunit
  simp only [hexDigits, List.nil_append, List.cons_append]
  exact hunit

theorem eq_ofNat {c : Char} {n : ℕ} (h : c.toNat = n) : c = Char.ofNat n := by
  rw [← h, Char.ofNat_toNat]

/-- **Every character** is written as the grammar has it. -/
theorem stringChar_jsonChar (c : Char) : Json.StringChar (jsonChar c) c := by
  unfold jsonChar
  dsimp only
  split_ifs with hquote hn hr ht hf hb hplain hunit
  · rcases hquote with h | h <;> obtain rfl := eq_ofNat h <;> exact .escape (by decide)
  · obtain rfl := eq_ofNat hn
    exact .escape (by decide)
  · obtain rfl := eq_ofNat hr
    exact .escape (by decide)
  · obtain rfl := eq_ofNat ht
    exact .escape (by decide)
  · obtain rfl := eq_ofNat hf
    exact .escape (by decide)
  · obtain rfl := eq_ofNat hb
    exact .escape (by decide)
  · refine .plain hplain.1 ?_ ?_
    · rintro rfl
      exact hquote (Or.inl rfl)
    · rintro rfl
      exact hquote (Or.inr rfl)
  · exact .unit (unit16_hexDigits hunit)
  · have hlt : c.toNat < 0x110000 := by
      have hvalid := c.valid
      simp only [UInt32.isValidChar, Nat.isValidChar] at hvalid
      simp only [Char.toNat]
      omega
    rw [List.append_assoc]
    refine .pair (unit16_hexDigits ?_) (unit16_hexDigits ?_) ?_ ?_ ?_ <;> omega

theorem isString_jsonString (s : String) : Json.IsString (jsonString s).toList s := by
  have hchars : ∀ cs : List Char, Json.StringChars (cs.flatMap jsonChar) cs := by
    intro cs
    induction cs with
    | nil => exact .nil
    | cons c cs ih => exact .cons (stringChar_jsonChar c) ih
  have htext : (jsonString s).toList = '"' :: (s.toList.flatMap jsonChar ++ ['"']) := by
    simp [jsonString]
  rw [htext]
  exact .mk (hchars s.toList)

/-! ## Values -/

/-- The float is not a NaN and not an infinity. -/
def IsFinite (x : Word 4) : Prop := isNaN x = false ∧ isInf x = false

instance (x : Word 4) : Decidable (IsFinite x) := inferInstanceAs (Decidable (_ ∧ _))

namespace PyValue

/-- The value as it is meant. -/
def toJson (py : PyText) : PyValue → Json.Value
  | .int n => .number (Nat.repr n).toList
  | .str s => .string s
  | .float x => .number (PyValue.dumps py (.float x)).toList

/-- A float has to be finite. -/
def Representable : PyValue → Prop
  | .int _ => True
  | .str _ => True
  | .float x => IsFinite x

def isFloat : PyValue → Bool
  | .float _ => true
  | .int _ | .str _ => false

variable {py : PyText}

theorem isValue_dumps (hpy : py.JsonNumbers) {v : PyValue} (h : v.Representable) :
    Json.IsValue (v.dumps py).toList (v.toJson py) := by
  cases v with
  | int n => exact .number (number_repr n)
  | str s => exact .string (isString_jsonString s)
  | float x =>
    refine .number ?_
    rw [dumps, floatText, h.1, h.2]
    exact hpy x h.1 h.2

/-- `NaN` and `Infinity` begin with letters that no token begins with. -/
theorem dirty_dumps {v : PyValue} (h : ¬ v.Representable) : Json.Dirty (v.dumps py).toList := by
  cases v with
  | int n => exact absurd trivial h
  | str s => exact absurd trivial h
  | float x =>
    have hnot : isNaN x = true ∨ isInf x = true := by
      rw [Representable, IsFinite, not_and_or] at h
      simpa using h
    rw [dumps, floatText]
    split_ifs with hnan hinf hneg
    · rfl
    · rfl
    · rfl
    · exact absurd hnot (by simp [hnan, hinf])

end PyValue

/-! ## Dictionaries -/

/-- The dictionary as it is meant. -/
def dictionaryJson (py : PyText) (d : List (String × PyValue)) : Json.Value :=
  .object (d.map fun (k, v) => (k, v.toJson py))

/-- A key and its value. -/
def memberText (py : PyText) (m : String × PyValue) : String := jsonString m.1 ++ ": " ++ m.2.dumps py

theorem toList_dumps (py : PyText) (d : List (String × PyValue)) : (dumps py d).toList =
    '\x7b' :: ([',', ' '].intercalate (d.map fun m => (memberText py m).toList) ++ ['\x7d']) := by
  unfold dumps
  rw [String.toList_append, String.toList_append, String.toList_intercalate, List.map_map]
  rfl

theorem toList_memberText (py : PyText) (m : String × PyValue) : (memberText py m).toList =
    (jsonString m.1).toList ++ ':' :: ' ' :: (m.2.dumps py).toList := by
  simp [memberText]

section Dictionary

variable {py : PyText} {d : List (String × PyValue)}

/-- **A dictionary** is an object. -/
theorem isValue_dumps (hpy : py.JsonNumbers) (h : ∀ m ∈ d, m.2.Representable) :
    Json.IsValue (dumps py d).toList (dictionaryJson py d) := by
  rw [toList_dumps]
  refine .object (Json.areMembers_intercalate Json.blank_space ?_)
  rw [List.forall₂_map_left_iff, List.forall₂_map_right_iff, List.forall₂_same]
  intro m hm
  have hmember := Json.isMember_of (isString_jsonString m.1) Json.blank_space (PyValue.isValue_dumps hpy (h m hm))
  rw [toList_memberText]
  rwa [List.singleton_append] at hmember

/-- **Otherwise** it has a token that is none. -/
theorem dirty_dumps (hpy : py.JsonNumbers) (h : ∃ m ∈ d, ¬ m.2.Representable) :
    Json.Dirty (dumps py d).toList := by
  have hmember : ∀ m : String × PyValue, Json.Clean ((jsonString m.1).toList ++ [':', ' ']) :=
    fun m => (isString_jsonString m.1).clean.append rfl
  have htext : ∀ m, (memberText py m).toList =
      ((jsonString m.1).toList ++ [':', ' ']) ++ (m.2.dumps py).toList := by
    intro m
    rw [toList_memberText, List.append_assoc]
    rfl
  rw [toList_dumps]
  refine Json.Clean.append_dirty (t := ['\x7b']) rfl (Json.Dirty.append ?_ _)
  refine Json.dirty_intercalate (w := [',', ' ']) rfl ?_ ?_
  · rw [List.forall_mem_map]
    intro m _
    rw [htext]
    by_cases hm : m.2.Representable
    · exact Or.inl ((hmember m).append (PyValue.isValue_dumps hpy hm).clean)
    · exact Or.inr ((hmember m).append_dirty (PyValue.dirty_dumps hm))
  · obtain ⟨m, hm, hnot⟩ := h
    refine ⟨_, List.mem_map_of_mem hm, ?_⟩
    rw [htext]
    exact (hmember m).append_dirty (PyValue.dirty_dumps hnot)

end Dictionary

/-- A dictionary without floats, as the headers have them. -/
theorem representable_of_no_floats {d : List (String × PyValue)} (h : d.any (fun m => m.2.isFloat) = false) :
    ∀ m ∈ d, m.2.Representable := by
  rintro ⟨key, v⟩ hm
  have hv : v.isFloat = false := by simpa using List.any_eq_false.mp h _ hm
  cases v with
  | int n => trivial
  | str s => trivial
  | float x => cases hv

/-! ## The document -/

namespace LogFile

theorem representable_record (r : LogDataRecord) :
    (∀ m ∈ recordDictionary r, m.2.Representable) ↔ IsFinite (wordOfLE 4 r.data) := by
  simp [recordDictionary, PyValue.Representable]

variable {py : PyText}

/-- The document as it is meant. -/
def documentJson (py : PyText) (header : LogDataHeader) (records : List LogDataRecord) : Json.Value :=
  .object [("header", dictionaryJson py header.toDictionary),
    ("records", .array (records.map fun r => dictionaryJson py (recordDictionary r)))]

/-- The text in front of the records. -/
def jsonHead (py : PyText) (header : LogDataHeader) : List Char :=
  '\x7b' :: ((jsonString "header").toList ++ ':' :: ([' '] ++ (dumps py header.toDictionary).toList) ++
    ',' :: ((jsonString "records").toList ++ [':', ' ', '[']))

/-- The text of the records. -/
def jsonRecords (py : PyText) (records : List LogDataRecord) : List Char :=
  [','].intercalate (records.map fun r => (dumps py (recordDictionary r)).toList)

theorem toList_jsonText (header : LogDataHeader) (records : List LogDataRecord) :
    (jsonText py header records).toList =
      jsonHead py header ++ (jsonRecords py records ++ [']', '\x7d']) := by
  have hheader : (jsonString "header").toList = "\"header\"".toList := by decide
  have hrecords : (jsonString "records").toList = "\"records\"".toList := by decide
  rw [jsonHead, jsonRecords, hheader, hrecords]
  simp [jsonText, String.toList_intercalate, Function.comp_def]

theorem text_jsonText (hpy : py.JsonNumbers) (header : LogDataHeader) {records : List LogDataRecord}
    (h : ∀ r ∈ records, IsFinite (wordOfLE 4 r.data)) :
    Json.Text (jsonText py header records).toList (documentJson py header records) := by
  have hrecords : Json.AreElements (jsonRecords py records)
      (records.map fun r => dictionaryJson py (recordDictionary r)) := by
    refine Json.areElements_intercalate Json.blank_nil ?_
    rw [List.forall₂_map_left_iff, List.forall₂_map_right_iff, List.forall₂_same]
    intro r hr
    exact (isValue_dumps hpy ((representable_record r).mpr (h r hr))).text
  have hheader : Json.IsValue (dumps py header.toDictionary).toList (dictionaryJson py header.toDictionary) :=
    isValue_dumps hpy (representable_of_no_floats rfl)
  have hmembers := Json.AreMembers.cons
    (Json.isMember_of (isString_jsonString "header") Json.blank_space hheader)
    (.one (Json.isMember_of (isString_jsonString "records") Json.blank_space (.array hrecords)))
  have hobject := (Json.IsValue.object hmembers).text
  rw [toList_jsonText]
  have htext : jsonHead py header ++ (jsonRecords py records ++ [']', '\x7d']) =
      '\x7b' :: (((jsonString "header").toList ++ ':' :: ([' '] ++ (dumps py header.toDictionary).toList) ++
        ',' :: ((jsonString "records").toList ++
          ':' :: ([' '] ++ '[' :: (jsonRecords py records ++ [']'])))) ++ ['\x7d']) := by
    simp [jsonHead]
  rw [htext]
  exact hobject

theorem clean_jsonHead (hpy : py.JsonNumbers) (header : LogDataHeader) : Json.Clean (jsonHead py header) := by
  have hheader : Json.Clean (dumps py header.toDictionary).toList :=
    (isValue_dumps hpy (representable_of_no_floats rfl)).clean
  have hkey := (isString_jsonString "header").clean
  have hkey' := (isString_jsonString "records").clean
  have hbrace : Json.Clean ['\x7b'] := rfl
  have hcolon : Json.Clean [':', ' '] := rfl
  have hcomma : Json.Clean [','] := rfl
  have hbracket : Json.Clean [':', ' ', '['] := rfl
  unfold jsonHead
  generalize (jsonString "header").toList = key at *
  generalize (jsonString "records").toList = key' at *
  generalize (dumps py header.toDictionary).toList = dictionary at *
  exact hbrace.append ((hkey.append (hcolon.append hheader)).append (hcomma.append (hkey'.append hbracket)))

theorem dirty_jsonText (hpy : py.JsonNumbers) (header : LogDataHeader) {records : List LogDataRecord}
    (h : ∃ r ∈ records, ¬ IsFinite (wordOfLE 4 r.data)) :
    Json.Dirty (jsonText py header records).toList := by
  rw [toList_jsonText]
  refine (clean_jsonHead hpy header).append_dirty (Json.Dirty.append ?_ _)
  have hdirty : ∀ {r : LogDataRecord}, ¬ IsFinite (wordOfLE 4 r.data) →
      Json.Dirty (dumps py (recordDictionary r)).toList := by
    intro r hr
    refine dirty_dumps hpy ?_
    by_contra hnone
    push Not at hnone
    exact hr ((representable_record r).mp hnone)
  refine Json.dirty_intercalate (w := [',']) rfl ?_ ?_
  · rw [List.forall_mem_map]
    intro r _
    by_cases hr : IsFinite (wordOfLE 4 r.data)
    · exact Or.inl (isValue_dumps hpy ((representable_record r).mpr hr)).clean
    · exact Or.inr (hdirty hr)
  · obtain ⟨r, hr, hnot⟩ := h
    exact ⟨_, List.mem_map_of_mem hr, hdirty hnot⟩

/-- A text with a float that is not finite is no JSON text, of whatever value. -/
theorem finite_of_text (hpy : py.JsonNumbers) {header : LogDataHeader} {records : List LogDataRecord}
    {v : Json.Value} (h : Json.Text (jsonText py header records).toList v) :
    ∀ r ∈ records, IsFinite (wordOfLE 4 r.data) := by
  by_contra hnot
  push Not at hnot
  exact absurd (h.clean.symm.trans (dirty_jsonText hpy header hnot)) nofun

/-- **The output is a JSON document** exactly when the data of every record, as it stands encoded in the
input, is a finite float; where it is not, the output is no JSON text at all. -/
theorem document_iff (hpy : py.JsonNumbers) {s : List UInt8}
    (htrue : (exec (toJson py) (s, "")).1 = .ok true) : ∃ header records,
      encodeLog header records = s.take (32 + 21 * records.length) ∧
      (exec (toJsonLocals py) (s, "")).1 = .ok (some (header, records)) ∧
      (Json.Text (exec (toJson py) (s, "")).2.2.toList (documentJson py header records) ↔
        ∀ r ∈ records, IsFinite (wordOfLE 4 r.data)) ∧
      ((∃ v, Json.Text (exec (toJson py) (s, "")).2.2.toList v) ↔
        ∀ r ∈ records, IsFinite (wordOfLE 4 r.data)) := by
  rw [toJson_eq] at htrue
  obtain ⟨⟨header, records⟩, hread⟩ := map_isSome_eq_ok_true.mp htrue
  refine ⟨header, records, encodeLog_of_readLog hread, by rw [toJsonLocals_eq, hread], ?_⟩
  rw [toJson_eq, jsonOutput_eq py hread, String.empty_append]
  refine ⟨⟨finite_of_text hpy, text_jsonText hpy header⟩, ?_, ?_⟩
  · rintro ⟨v, hv⟩
    exact finite_of_text hpy hv
  · intro hfinite
    exact ⟨_, text_jsonText hpy header hfinite⟩

/-- The log of the test is converted to a JSON text. -/
theorem oneRecord_document : ∃ v, Json.Text (exec (toJson .cpython) (logOf oneRecord, "")).2.2.toList v := by
  have hread := readLog_logOf oneRecord_crc
  have htrue : (exec (toJson .cpython) (logOf oneRecord, "")).1 = .ok true := by
    rw [toJson_eq, hread]
    rfl
  obtain ⟨header, records, -, hlocals, -, hvalue⟩ := document_iff PyText.cpython_jsonNumbers htrue
  simp only [toJsonLocals_eq, hread] at hlocals
  cases hlocals
  have hfinite : IsFinite (wordOfLE 4 oneRecord.toRecord.data) := ⟨by decide, by decide +kernel⟩
  exact hvalue.mpr (List.forall_mem_singleton.mpr hfinite)

/-- A record whose data is the pattern of a NaN. -/
def nanRecord : RecordValues := ⟨276, 2348664336, ⟨[0x00, 0x00, 0xC0, 0x7F], rfl⟩⟩

/-- Its log is converted, to a text that is no JSON text. -/
theorem nanRecord_no_document : (exec (toJson .cpython) (logOf nanRecord, "")).1 = .ok true ∧
    ¬ ∃ v, Json.Text (exec (toJson .cpython) (logOf nanRecord, "")).2.2.toList v := by
  have hcrc : nanRecord.toRecord.crc ≠ 0 := by decide +kernel
  have hread := readLog_logOf hcrc
  constructor
  · rw [toJson_eq, hread]
    rfl
  · rw [toJson_eq, jsonOutput_eq _ hread, String.empty_append]
    rintro ⟨v, hv⟩
    have hfinite := finite_of_text PyText.cpython_jsonNumbers hv _ List.mem_cons_self
    exact absurd hfinite.1 (by decide)

end LogFile

end EerieLeap.LogsParser
