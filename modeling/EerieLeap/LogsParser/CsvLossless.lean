import EerieLeap.LogsParser.CsvReadBack
import EerieLeap.LogsParser.FloatReadBack

/-!
# What the CSV output loses

The text of `to_csv` has neither the header of the log nor the checksums, and a value only where its sensor
has a column. All the rest is in it: the times are told apart although they are divided by 1000 and rounded,
and so are the values, but for the payload of a NaN.

* `PyText.cpython_distinct` : times and values are told apart by their texts;
* `shown` : what the line of a record shows of it;
* `toCsv_eq_iff` : two logs have the same text when their records show the same, and only then;
* `records_eq_of_text` : records with a column and a number are all there.
-/

namespace EerieLeap.LogsParser

open EerieLeap.Lib EerieLeap.Lib.Bits EerieLeap.Lib.Effect

/-! ## Texts that are told apart -/

/-- Numbers that are not equal are not written alike. -/
structure PyText.Distinct (py : PyText) : Prop where
  repr : py.Faithful
  quotient : ∀ a b : Word 4, py.quotient a.toNat 1000 = py.quotient b.toNat 1000 → a = b

/-- How far the nearest double can be away. -/
theorem Ratio.abs_toDouble_sub_le_zpow {x : Ratio} (hx : x.den ≠ 0) {k : ℤ} (hk : -1021 ≤ k)
    (hlt : x.val < 2 ^ k) : |x.toDouble.val - x.val| ≤ 2 ^ (k - 53) / 2 := by
  by_cases hnum : x.num = 0
  · have hval : x.val = 0 := by simp [Ratio.val, hnum]
    rw [Ratio.val_toDouble_zero hnum, hval, sub_zero, abs_zero]
    positivity
  obtain ⟨hlow, -⟩ := Ratio.floorLog_spec one_lt_two hnum hx
  have hlow : (2 : ℚ) ^ x.floorLog 2 ≤ x.val := mod_cast hlow
  have hlog := (zpow_lt_zpow_iff_right₀ (one_lt_two (α := ℚ))).mp (hlow.trans_lt hlt)
  have hlast : x.lastBit ≤ k - 53 := by
    unfold Ratio.lastBit
    omega
  have hbit : (2 : ℚ) ^ x.lastBit ≤ 2 ^ (k - 53) := zpow_le_zpow_right₀ one_le_two hlast
  exact (Ratio.abs_toDouble_sub_le hx).trans (by linarith)

/-- A time in seconds is off by less than half a millisecond. -/
theorem abs_toDouble_seconds (a : Word 4) :
    |(Ratio.toDouble ⟨a.toNat, 1000⟩).val - (a.toNat : ℚ) / 1000| < 1 / 2000 := by
  have hlt : (a.toNat : ℚ) < 4294967296 := by exact_mod_cast a.isLt
  have hval : (⟨a.toNat, 1000⟩ : Ratio).val = (a.toNat : ℚ) / 1000 := by simp [Ratio.val]
  have hbound : (⟨a.toNat, 1000⟩ : Ratio).val < 2 ^ (23 : ℤ) := by
    rw [hval]
    norm_num
    linarith
  have hnear := Ratio.abs_toDouble_sub_le_zpow (x := ⟨a.toNat, 1000⟩) (OfNat.ofNat_ne_zero 1000) (by decide) hbound
  rw [hval] at hnear
  refine hnear.trans_lt ?_
  norm_num

/-- **CPython** tells times and values apart. -/
theorem PyText.cpython_distinct : PyText.cpython.Distinct where
  repr := cpython_faithful
  quotient a b heq := by
    have hreads : ∀ c : Word 4, (readDecimal (PyText.cpython.quotient c.toNat 1000).toList).toDouble.val =
        (Ratio.toDouble ⟨c.toNat, 1000⟩).val := by
      intro c
      obtain ⟨m, q, hdouble⟩ := Ratio.isDouble_toDouble (x := ⟨c.toNat, 1000⟩) (OfNat.ofNat_ne_zero 1000)
      rw [PyText.cpython, String.toList_ofList]
      exact val_readDecimal_doubleText hdouble
    have hdouble := hreads a
    rw [heq, hreads b] at hdouble
    have hnear := abs_lt.mp (abs_toDouble_seconds a)
    have hnear' := abs_lt.mp (abs_toDouble_seconds b)
    have hbelow : (a.toNat : ℚ) < b.toNat + 1 := by linarith
    have habove : (b.toNat : ℚ) < a.toNat + 1 := by linarith
    have hbelow : a.toNat < b.toNat + 1 := by exact_mod_cast hbelow
    have habove : b.toNat < a.toNat + 1 := by exact_mod_cast habove
    exact BitVec.eq_of_toNat_eq (by omega)

/-- The number that a text shows; NaNs look alike. -/
def shownNumber (x : Word 4) : Option (Word 4) := if isNaN x then none else some x

/-- An infinity is told by its sign. -/
theorem eq_of_isInf {x y : Word 4} (hx : isInf x = true) (hy : isInf y = true) (hsign : x.msb = y.msb) :
    x = y := by
  unfold isInf at hx hy
  rw [decide_eq_true_eq] at hx hy
  rw [BitVec.msb_eq_decide, BitVec.msb_eq_decide, decide_eq_decide] at hsign
  have hltx := x.isLt
  have hlty := y.isLt
  apply BitVec.eq_of_toNat_eq
  omega

section StrFloat

variable {py : PyText} {x y : Word 4}

theorem strFloat_nan (hx : isNaN x = true) : strFloat py x = "nan" := by
  rw [strFloat, floatText, if_pos hx]

theorem strFloat_inf (hnan : isNaN x = false) (hx : isInf x = true) :
    strFloat py x = if x.msb then "-inf" else "inf" := by
  simp [strFloat, floatText, hnan, hx]

theorem strFloat_finite (hnan : isNaN x = false) (hinf : isInf x = false) : strFloat py x = py.repr x := by
  simp [strFloat, floatText, hnan, hinf]

/-- The text of a number has no letter of `nan` and `inf` in it. -/
theorem n_not_mem_strFloat (hpy : py.Numeric) (hnan : isNaN x = false) (hinf : isInf x = false) :
    'n' ∉ (strFloat py x).toList := by
  rw [strFloat_finite hnan hinf]
  exact fun hmem => absurd (hpy.repr x hnan hinf 'n' hmem) (by decide)

theorem n_mem_strFloat (hnan : isNaN x = false) (hx : isInf x = true) : 'n' ∈ (strFloat py x).toList := by
  rw [strFloat_inf hnan hx]
  split <;> decide

theorem strFloat_ne_nan (hpy : py.Numeric) (hnan : isNaN x = false) : strFloat py x ≠ "nan" := by
  intro heq
  cases hinf : isInf x with
  | true =>
    rw [strFloat_inf hnan hinf] at heq
    split at heq <;> exact absurd heq (by decide)
  | false =>
    have hn := n_not_mem_strFloat hpy hnan hinf
    rw [heq] at hn
    exact hn (by decide)

theorem eq_of_strFloat (hpy : py.Numeric) (hdistinct : py.Distinct) (hx : isNaN x = false) (hy : isNaN y = false)
    (h : strFloat py x = strFloat py y) : x = y := by
  cases hinf : isInf x with
  | true =>
    have hn : 'n' ∈ (strFloat py x).toList := n_mem_strFloat hx hinf
    rw [h] at hn
    cases hinf' : isInf y with
    | true =>
      refine eq_of_isInf hinf hinf' ?_
      rw [strFloat_inf hx hinf, strFloat_inf hy hinf'] at h
      cases hsign : x.msb <;> cases hsign' : y.msb <;> simp [hsign, hsign'] at h ⊢
    | false => exact absurd hn (n_not_mem_strFloat hpy hy hinf')
  | false =>
    have hn := n_not_mem_strFloat hpy hx hinf
    rw [h] at hn
    cases hinf' : isInf y with
    | true => exact absurd (n_mem_strFloat hy hinf') hn
    | false =>
      rw [strFloat_finite hx hinf, strFloat_finite hy hinf'] at h
      exact hdistinct.repr x y hx hinf hy hinf' h

/-- **Texts of floats** are equal when the floats are, or when both are NaNs. -/
theorem strFloat_eq_iff (hpy : py.Numeric) (hdistinct : py.Distinct) :
    strFloat py x = strFloat py y ↔ shownNumber x = shownNumber y := by
  unfold shownNumber
  cases hx : isNaN x with
  | true =>
    cases hy : isNaN y with
    | true => simp [strFloat_nan hx, strFloat_nan hy]
    | false => simp [strFloat_nan hx, (strFloat_ne_nan hpy hy).symm]
  | false =>
    cases hy : isNaN y with
    | true => simp [strFloat_nan hy, strFloat_ne_nan hpy hx]
    | false =>
      simp only [Bool.false_eq_true, if_false, Option.some.injEq]
      exact ⟨eq_of_strFloat hpy hdistinct hx hy, fun h => by rw [h]⟩

end StrFloat

/-! ## Lines that are told apart -/

namespace LogFile

/-- Two lists are mapped alike by functions that tell the same things apart. -/
theorem map_eq_map_iff_of {α β γ : Type} {f : α → β} {g : α → γ} {l l' : List α}
    (h : ∀ a ∈ l, ∀ b ∈ l', f a = f b ↔ g a = g b) : l.map f = l'.map f ↔ l.map g = l'.map g := by
  induction l generalizing l' with
  | nil => cases l' <;> simp
  | cons a l ih =>
    cases l' with
    | nil => simp
    | cons b l' =>
      have hhead := h a List.mem_cons_self b List.mem_cons_self
      have htail := ih fun x hx y hy => h x (List.mem_cons_of_mem a hx) y (List.mem_cons_of_mem b hy)
      rw [List.map_cons, List.map_cons, List.cons.injEq, hhead, htail, List.map_cons, List.map_cons,
        List.cons.injEq]

/-- What a line shows: the time, the sensor when it has a column, and the number when there is a cell for it. -/
structure Shown where
  timeDeltaMs : Word 4
  sensorId : Option (Word 4)
  number : Option (Option (Word 4))
  deriving DecidableEq

/-- What the line of a record shows, with a sensor column for each of the ids. -/
def shown (ids : List ℕ) (r : LogDataRecord) : Shown where
  timeDeltaMs := r.timeDeltaMs
  sensorId := if r.sensorId.toNat ∈ ids then some r.sensorId else none
  number := if ids = [] ∨ r.sensorId.toNat ∈ ids then some (shownNumber (wordOfLE 4 r.data)) else none

section Lines

variable {py : PyText} {ids : List ℕ} {r r' : LogDataRecord}

theorem strFloat_ne_empty (hplain : py.Plain) (x : Word 4) : strFloat py x ≠ "" := (hplain.strFloat x).ne_empty

/-- The cells of the sensor columns. -/
theorem cells_eq_iff (hplain : py.Plain) (hnumeric : py.Numeric) (hdistinct : py.Distinct) (hids : ids ≠ []) :
    (∀ id ∈ ids, csvCellText py r id = csvCellText py r' id) ↔
      (shown ids r).sensorId = (shown ids r').sensorId ∧ (shown ids r).number = (shown ids r').number := by
  have hfilled : ∀ {r r' : LogDataRecord}, (∀ id ∈ ids, csvCellText py r id = csvCellText py r' id) →
      r.sensorId.toNat ∈ ids → r'.sensorId = r.sensorId ∧
        strFloat py (wordOfLE 4 r.data) = strFloat py (wordOfLE 4 r'.data) := by
    intro r r' h hmem
    have hcell := h _ hmem
    unfold csvCellText at hcell
    rw [if_pos rfl] at hcell
    by_cases hsame : r'.sensorId.toNat = r.sensorId.toNat
    · rw [if_pos hsame] at hcell
      exact ⟨BitVec.eq_of_toNat_eq hsame, hcell⟩
    · rw [if_neg hsame] at hcell
      exact absurd hcell (strFloat_ne_empty hplain _)
  unfold shown
  simp only [hids, false_or]
  by_cases hmem : r.sensorId.toNat ∈ ids
  · constructor
    · intro h
      obtain ⟨hsensor, hvalue⟩ := hfilled h hmem
      rw [hsensor, if_pos hmem, if_pos hmem, if_pos hmem, (strFloat_eq_iff hnumeric hdistinct).mp hvalue]
      exact ⟨rfl, rfl⟩
    · rintro ⟨hsensor, hvalue⟩ id hid
      by_cases hmem' : r'.sensorId.toNat ∈ ids
      · simp only [hmem, hmem', if_true, Option.some.injEq] at hsensor hvalue
        rw [csvCellText, csvCellText, hsensor, (strFloat_eq_iff hnumeric hdistinct).mpr hvalue]
      · simp [hmem, hmem'] at hsensor
  · by_cases hmem' : r'.sensorId.toNat ∈ ids
    · constructor
      · intro h
        obtain ⟨hsensor, -⟩ := hfilled (fun id hid => (h id hid).symm) hmem'
        exact absurd (hsensor ▸ hmem') hmem
      · rintro ⟨hsensor, -⟩
        simp [hmem, hmem'] at hsensor
    · simp only [hmem, hmem', if_false]
      refine ⟨fun _ => ⟨trivial, trivial⟩, fun _ id hid => ?_⟩
      have hempty : ∀ {r : LogDataRecord}, r.sensorId.toNat ∉ ids → csvCellText py r id = "" := by
        intro r hr
        rw [csvCellText, if_neg]
        rintro rfl
        exact hr hid
      rw [hempty hmem, hempty hmem']

theorem csvRow_eq_iff (hplain : py.Plain) (hnumeric : py.Numeric) (hdistinct : py.Distinct) (hids : ids ≠ []) :
    csvRow py ids r = csvRow py ids r' ↔ shown ids r = shown ids r' := by
  have htime : py.quotient r.timeDeltaMs.toNat 1000 = py.quotient r'.timeDeltaMs.toNat 1000 ↔
      r.timeDeltaMs = r'.timeDeltaMs := ⟨hdistinct.quotient _ _, fun h => by rw [h]⟩
  rw [csvRow, csvRow, List.cons.injEq, List.map_inj_left, htime, cells_eq_iff hplain hnumeric hdistinct hids,
    Shown.mk.injEq]
  rfl

/-- The line of a record, with one column for the values of all sensors. -/
theorem csvLineText_nil (r : LogDataRecord) : csvLineText py [] r =
    ",".intercalate [py.quotient r.timeDeltaMs.toNat 1000, strFloat py (wordOfLE 4 r.data)] := by
  rw [csvLineText, if_neg (not_not.mpr rfl), String.intercalate_cons_cons]
  simp [String.append_assoc]

theorem split_csvLine_nil (hplain : py.Plain) (r : LogDataRecord) : split ',' (csvLineText py [] r) =
    [py.quotient r.timeDeltaMs.toNat 1000, strFloat py (wordOfLE 4 r.data)] := by
  rw [csvLineText_nil]
  refine split_intercalate ?_ (List.cons_ne_nil _ _)
  simp only [List.forall_mem_cons, List.not_mem_nil, false_implies, implies_true, and_true]
  exact ⟨(hplain.quotient _ _).comma, (hplain.strFloat _).comma⟩

/-- **A line** tells what it shows, and nothing else. -/
theorem csvLineText_eq_iff (hplain : py.Plain) (hnumeric : py.Numeric) (hdistinct : py.Distinct) :
    csvLineText py ids r = csvLineText py ids r' ↔ shown ids r = shown ids r' := by
  by_cases hids : ids = []
  · subst hids
    have hcells : csvLineText py [] r = csvLineText py [] r' ↔
        py.quotient r.timeDeltaMs.toNat 1000 = py.quotient r'.timeDeltaMs.toNat 1000 ∧
          strFloat py (wordOfLE 4 r.data) = strFloat py (wordOfLE 4 r'.data) := by
      constructor
      · intro h
        have hsplit := congrArg (split ',') h
        rw [split_csvLine_nil hplain, split_csvLine_nil hplain] at hsplit
        simpa using hsplit
      · rintro ⟨htime, hvalue⟩
        rw [csvLineText_nil, csvLineText_nil, htime, hvalue]
    have htime : py.quotient r.timeDeltaMs.toNat 1000 = py.quotient r'.timeDeltaMs.toNat 1000 ↔
        r.timeDeltaMs = r'.timeDeltaMs := ⟨hdistinct.quotient _ _, fun h => by rw [h]⟩
    rw [hcells, htime, strFloat_eq_iff hnumeric hdistinct, shown, shown, Shown.mk.injEq]
    simp
  · rw [← csvRow_eq_iff hplain hnumeric hdistinct hids]
    constructor
    · intro h
      have hsplit := congrArg (split ',') h
      rwa [split_csvLine hplain hids, split_csvLine hplain hids] at hsplit
    · intro h
      rw [csvLineText_eq py hids, csvLineText_eq py hids, h]

theorem newline_not_mem_csvLineText (hplain : py.Plain) (ids : List ℕ) (r : LogDataRecord) :
    '\n' ∉ (csvLineText py ids r).toList := by
  by_cases hids : ids = []
  · subst hids
    have htime := (hplain.quotient r.timeDeltaMs.toNat 1000).newline
    have hvalue := (hplain.strFloat (wordOfLE 4 r.data)).newline
    simp [csvLineText, htime, hvalue]
  · exact newline_not_mem_csvLine hplain hids r

/-- The lines behind the header line. -/
theorem lines_eq_iff (hplain : py.Plain) (hnumeric : py.Numeric) (hdistinct : py.Distinct)
    (records records' : List LogDataRecord) :
    "\n".intercalate ("" :: records.map (csvLineText py ids)) =
        "\n".intercalate ("" :: records'.map (csvLineText py ids)) ↔
      records.map (shown ids) = records'.map (shown ids) := by
  have hsplit : ∀ records : List LogDataRecord,
      split '\n' ("\n".intercalate ("" :: records.map (csvLineText py ids))) =
        "" :: records.map (csvLineText py ids) := by
    intro records
    refine split_intercalate ?_ (List.cons_ne_nil _ _)
    rw [List.forall_mem_cons, List.forall_mem_map]
    exact ⟨by simp, fun r _ => newline_not_mem_csvLineText hplain ids r⟩
  rw [← map_eq_map_iff_of fun r _ r' _ => csvLineText_eq_iff hplain hnumeric hdistinct]
  constructor
  · intro h
    have h := congrArg (split '\n') h
    rw [hsplit, hsplit] at h
    exact (List.cons.inj h).2
  · intro h
    rw [h]

end Lines

/-! ## What is lost -/

variable {py : PyText} {metadata : Option LogMetadata} {s s' : List UInt8} {header header' : LogDataHeader}
  {records records' : List LogDataRecord}

/-- **What the CSV output loses**: two logs that are converted have the same text exactly when their records
show the same, one after the other. -/
theorem toCsv_eq_iff (hplain : py.Plain) (hnumeric : py.Numeric) (hdistinct : py.Distinct)
    (hread : (exec (toCsvLocals py metadata) (s, "")).1 = .ok (some (header, records)))
    (hread' : (exec (toCsvLocals py metadata) (s', "")).1 = .ok (some (header', records'))) :
    (exec (toCsv py metadata) (s, "")).2.2 = (exec (toCsv py metadata) (s', "")).2.2 ↔
      records.map (shown (sensorIds metadata)) = records'.map (shown (sensorIds metadata)) := by
  rw [toCsvLocals_eq] at hread hread'
  rw [toCsv_eq, toCsv_eq, csvOutput_eq py hread, csvOutput_eq py hread',
    ← lines_eq_iff hplain hnumeric hdistinct]
  exact String.append_right_inj _

/-- **A record** with a column and a number is all in its line: the checksum follows from the rest. -/
theorem eq_of_shown {ids : List ℕ} {r r' : LogDataRecord} (hr : r.Valid) (hr' : r'.Valid)
    (hcolumn : r.sensorId.toNat ∈ ids) (hnumber : isNaN (wordOfLE 4 r.data) = false)
    (h : shown ids r = shown ids r') : r = r' := by
  have hnan : shownNumber (wordOfLE 4 r.data) = some (wordOfLE 4 r.data) := by simp [shownNumber, hnumber]
  simp only [shown, hcolumn, if_true, or_true, Shown.mk.injEq, hnan] at h
  obtain ⟨htime, hsensor, hvalue⟩ := h
  by_cases hcolumn' : r'.sensorId.toNat ∈ ids
  swap
  · simp [hcolumn'] at hsensor
  simp only [hcolumn', if_true, or_true, Option.some.injEq] at hsensor hvalue
  have hword : wordOfLE 4 r.data = wordOfLE 4 r'.data := by
    unfold shownNumber at hvalue
    split at hvalue
    · cases hvalue
    · exact Option.some.inj hvalue
  have hdata : r.data = r'.data := by
    rw [← storedLE_wordOfLE hr.data_length, hword, storedLE_wordOfLE hr'.data_length]
  have hcrc : r.crc = r'.crc := by
    rw [hr.crc_eq, hr'.crc_eq, LogDataRecord.body, LogDataRecord.body, htime, hsensor, hdata]
  cases r
  cases r'
  simp_all

/-- **Records** with a column and a number are all in the text. -/
theorem records_eq_of_text (hplain : py.Plain) (hnumeric : py.Numeric) (hdistinct : py.Distinct)
    (hread : (exec (toCsvLocals py metadata) (s, "")).1 = .ok (some (header, records)))
    (hread' : (exec (toCsvLocals py metadata) (s', "")).1 = .ok (some (header', records')))
    (hcolumn : ∀ r ∈ records, r.sensorId.toNat ∈ sensorIds metadata)
    (hnumber : ∀ r ∈ records, isNaN (wordOfLE 4 r.data) = false)
    (h : (exec (toCsv py metadata) (s, "")).2.2 = (exec (toCsv py metadata) (s', "")).2.2) :
    records = records' := by
  rw [toCsvLocals_eq] at hread hread'
  have hshown : records.map (shown (sensorIds metadata)) = records'.map (shown (sensorIds metadata)) := by
    rw [toCsv_eq, toCsv_eq, csvOutput_eq py hread, csvOutput_eq py hread'] at h
    exact (lines_eq_iff hplain hnumeric hdistinct records records').mp ((String.append_right_inj _).mp h)
  obtain ⟨-, -, -, -, hreadable, -⟩ := (readLog_eq_some_iff _ _ _).mp hread
  obtain ⟨-, -, -, -, hreadable', -⟩ := (readLog_eq_some_iff _ _ _).mp hread'
  clear hread hread' h
  induction records generalizing records' with
  | nil => exact (List.map_eq_nil_iff.mp hshown.symm).symm
  | cons r records ih =>
    cases records' with
    | nil => cases hshown
    | cons r' records' =>
      rw [List.forall_mem_cons] at hreadable hreadable' hcolumn hnumber
      rw [List.map_cons, List.map_cons, List.cons.injEq] at hshown
      rw [eq_of_shown hreadable.1.1 hreadable'.1.1 hcolumn.1 hnumber.1 hshown.1,
        ih hcolumn.2 hnumber.2 hshown.2 hreadable.2 hreadable'.2]

/-- A record of a third sensor. -/
def thirdRecord : RecordValues := ⟨287, 7, ⟨[0, 0, 0x80, 0x3F], rfl⟩⟩

/-- Neither of the sensors has a column, so their records look alike. -/
theorem strangeRecord_shown :
    (exec (toCsv .cpython (some oneMetadata)) (logOf strangeRecord, "")).2.2 =
      (exec (toCsv .cpython (some oneMetadata)) (logOf thirdRecord, "")).2.2 := by
  have hlocals : ∀ {record : RecordValues}, record.toRecord.crc ≠ 0 →
      (exec (toCsvLocals .cpython (some oneMetadata)) (logOf record, "")).1 =
        .ok (some (someHeader.toHeader, [record.toRecord])) := by
    intro record hcrc
    rw [toCsvLocals_eq, readLog_logOf hcrc]
  exact (toCsv_eq_iff PyText.cpython_plain PyText.cpython_numeric PyText.cpython_distinct
    (hlocals (by decide +kernel)) (hlocals (by decide +kernel))).mpr (by decide +kernel)

end LogFile

end EerieLeap.LogsParser
