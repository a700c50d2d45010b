import EerieLeap.LogsParser.LogData

/-!
# The layout of analog records

`LogDataRecord.encode` writes a record in the 21 bytes `create` reads, with the checksum the record
stores; `Valid` records are those a logger writes, whose checksum is that of the bytes before it.

`create_eq` computes `create` on every input and `create_outcome` sorts the results by the input:

* `create_encode` : a valid record is read back, unless its checksum is zero;
* `eq_encode_of_create` : what is returned stands encoded at the head of the input;
* `create_raises_iff` : the inputs on which `create` raises.
-/

namespace EerieLeap.LogsParser

open EerieLeap.Lib.Bits EerieLeap.Lib.Checksum EerieLeap.Lib.Effect

namespace LogDataRecord

/-- The bytes the checksum covers. -/
def body (r : LogDataRecord) : List UInt8 :=
  logDataRecordStartMark.reverse ++ (storedLE r.timeDeltaMs ++ (storedLE r.sensorId ++ ([4] ++ r.data)))

/-- The 21 bytes of an analog record. -/
def encode (r : LogDataRecord) : List UInt8 := r.body ++ storedLE r.crc

/-- The analog records a logger writes. -/
structure Valid (r : LogDataRecord) : Prop where
  data_length : r.data.length = 4
  crc_eq : r.crc = crc32 r.body 0

/-- The record spelled by the first 21 bytes of `s`. -/
def ofBytes (s : List UInt8) : LogDataRecord where
  timeDeltaMs := wordOfLE 4 ((s.drop 4).take 4)
  sensorId := wordOfLE 4 ((s.drop 8).take 4)
  data := (s.drop 13).take 4
  crc := wordOfLE 4 ((s.drop 17).take 4)

theorem exec_readData (s : List UInt8) (p : ℕ) (b : UInt8) :
    exec (LogDataRecordAnalog.readData b.toNat) (s.drop p) =
      if b ≠ 4 then (.ok none, s.drop p)
      else if s.length ≤ p then (.ok none, [])
      else (.ok (some ((s.drop p).take 4)), s.drop (p + 4)) := by
  by_cases hb : b = 4
  · subst hb
    exact exec_field_at p s (show 0 < 4 by omega) fun bs => pure (some bs)
  · have hne : b.toNat ≠ LogDataRecordAnalog.dataLengthExpected := fun h =>
      hb (UInt8.toNat_inj.mp h)
    rw [if_pos hb, LogDataRecordAnalog.readData, if_pos hne, exec_pure]

/-- **What `create` does**, on every input. -/
theorem create_eq (s : List UInt8) : exec LogDataRecordAnalog.create s =
    if s.take 4 ≠ logDataRecordStartMark.reverse then (.ok none, s.drop 4)
    else if s.length ≤ 4 then (.ok none, [])
    else if ¬ 8 ≤ s.length then (.error .structError, [])
    else if s.length ≤ 8 then (.ok none, [])
    else if ¬ 12 ≤ s.length then (.error .structError, [])
    else if s.length ≤ 12 then (.ok none, [])
    else if s.getD 12 0 ≠ 4 then (.ok none, s.drop 13)
    else if s.length ≤ 13 then (.ok none, [])
    else if ¬ 21 ≤ s.length then (.error .structError, [])
    else if (ofBytes s).crc = 0 then (.ok none, s.drop 21)
    else if crc32 (s.take 17) 0 ≠ (ofBytes s).crc then (.ok none, s.drop 21)
    else (.ok (some (ofBytes s)), s.drop 21) := by
  have h4 : 0 < 4 := by omega
  rw [LogDataRecordAnalog.create, create, exec_bind_ok (exec_read 4 s), exec_ite]
  by_cases hmark : s.take 4 = logDataRecordStartMark.reverse
  swap
  · have hne : s.take 4 = [] ∨ (s.take 4).reverse ≠ logDataRecordStartMark :=
      Or.inr fun h => hmark (by rw [← h, List.reverse_reverse])
    rw [if_pos hne, if_pos hmark, exec_pure]
  have hne : ¬ (s.take 4 = [] ∨ (s.take 4).reverse ≠ logDataRecordStartMark) := by
    rw [hmark]
    decide
  rw [if_neg hne, if_neg (not_not.mpr hmark)]
  simp only [exec_field_at _ _ h4, exec_unpack_at _ _ h4, exec_read_at, Nat.reduceAdd]
  by_cases h12 : s.length ≤ 12
  · -- the input ends before the length byte
    have htake : (s.drop 12).take 1 = [] := by simp [h12]
    have hdrop : s.drop 13 = [] := List.drop_eq_nil_of_le (by omega)
    simp only [htake, hdrop, h12, if_true, exec_pure]
  have htake : (s.drop 12).take 1 = [s.getD 12 0] := by
    rw [List.take_one, List.head?_drop, List.getD_eq_getElem _ _ (by omega),
      List.getElem?_eq_getElem (by omega)]
    rfl
  simp only [htake, h12, if_false]
  by_cases hb : s.getD 12 0 = 4
  swap
  · simp only [exec_bind, exec_readData, hb, ne_eq, not_false_eq_true, if_true, exec_pure]
  by_cases h13 : s.length ≤ 13
  · simp only [exec_bind, exec_readData, hb, h13, ne_eq, not_true_eq_false, if_true, if_false,
      exec_pure]
  have hread : exec (LogDataRecordAnalog.readData (s.getD 12 0).toNat) (s.drop 13) =
      (.ok (some ((s.drop 13).take 4)), s.drop 17) := by
    rw [exec_readData, if_neg (not_not.mpr hb), if_neg h13]
  have hdata : (s.drop 13).take 4 ≠ [] := by simp; omega
  have hcrc : crc32 (s.take 17) 0 = crc32 ((s.drop 13).take 4) (crc32 [s.getD 12 0]
      (crc32 ((s.drop 8).take 4) (crc32 ((s.drop 4).take 4) (crc32 (s.take 4) 0)))) := by
    rw [crc32_take_add 13 4, crc32_take_add 12 1, crc32_take_add 8 4, crc32_take_add 4 4, htake]
  rw [hb] at hread hcrc
  simp only [exec_bind_ok hread, hcrc, hdata, hb, h13, ne_eq, not_true_eq_false, if_false,
    exec_read_at, exec_unpack_at _ _ h4, exec_ite, exec_pure, ofBytes, Nat.reduceAdd]

/-- The input starts with a whole analog record with the right checksum, which is not zero. -/
structure Accepted (s : List UInt8) : Prop where
  mark : s.take 4 = logDataRecordStartMark.reverse
  length_byte : s.getD 12 0 = 4
  length_le : 21 ≤ s.length
  crc_ne : (ofBytes s).crc ≠ 0
  crc_eq : crc32 (s.take 17) 0 = (ofBytes s).crc

/-- The input ends inside a field that is unpacked: after the start mark, inside the time delta,
inside the sensor id, or from inside the data to inside the checksum. -/
def CutInField (s : List UInt8) : Prop :=
  s.take 4 = logDataRecordStartMark.reverse ∧
    (4 < s.length ∧ s.length < 8 ∨ 8 < s.length ∧ s.length < 12 ∨
      s.getD 12 0 = 4 ∧ 13 < s.length ∧ s.length < 21)

instance (s : List UInt8) : Decidable (CutInField s) := by unfold CutInField; infer_instance

/-- What `create` can do: return the record at the head of the input, raise, or return nothing. -/
inductive Outcome (s : List UInt8) : Except PyError (Option LogDataRecord) × List UInt8 → Prop
  | accepted (h : Accepted s) : Outcome s (.ok (some (ofBytes s)), s.drop 21)
  | cut (h : CutInField s) : Outcome s (.error .structError, [])
  | refused (hacc : ¬ Accepted s) (hcut : ¬ CutInField s) (t : List UInt8) : Outcome s (.ok none, t)

/-- An input that ends where a field does is refused. -/
theorem outcome_of_end {s : List UInt8}
    (hend : s.length ≤ 4 ∨ s.length = 8 ∨ s.length = 12 ∨ s.length = 13) (t : List UInt8) :
    Outcome s (.ok none, t) := by
  refine .refused ?_ ?_ t
  · intro h
    have := h.length_le
    omega
  · unfold CutInField
    omega

theorem create_outcome (s : List UInt8) : Outcome s (exec LogDataRecordAnalog.create s) := by
  rw [create_eq]
  by_cases hmark : s.take 4 = logDataRecordStartMark.reverse
  swap
  · rw [if_pos hmark]
    exact .refused (fun h => hmark h.mark) (fun h => hmark h.1) _
  rw [if_neg (not_not.mpr hmark)]
  -- the time delta and the sensor id
  refine field_cases (fun hend => outcome_of_end (by omega) _)
    (fun hlt hcut => .cut ⟨hmark, Or.inl ⟨hlt, hcut⟩⟩) fun h8 => ?_
  refine field_cases (fun hend => outcome_of_end (by omega) _)
    (fun hlt hcut => .cut ⟨hmark, Or.inr (Or.inl ⟨hlt, hcut⟩)⟩) fun h12 => ?_
  by_cases h12' : s.length ≤ 12
  · rw [if_pos h12']
    exact outcome_of_end (by omega) _
  rw [if_neg h12']
  by_cases hb : s.getD 12 0 = 4
  swap
  · rw [if_pos hb]
    refine .refused (fun h => hb h.length_byte) ?_ _
    rintro ⟨-, h | h | h⟩
    · omega
    · omega
    · exact hb h.1
  rw [if_neg (not_not.mpr hb)]
  -- the data and the checksum
  refine field_cases (fun hend => outcome_of_end (by omega) _)
    (fun hlt hcut => .cut ⟨hmark, Or.inr (Or.inr ⟨hb, hlt, hcut⟩)⟩) fun h21 => ?_
  have hcut : ¬ CutInField s := by unfold CutInField; omega
  by_cases hzero : (ofBytes s).crc = 0
  · rw [if_pos hzero]
    exact .refused (fun h => h.crc_ne hzero) hcut _
  rw [if_neg hzero]
  by_cases hcrc : crc32 (s.take 17) 0 = (ofBytes s).crc
  swap
  · rw [if_pos hcrc]
    exact .refused (fun h => hcrc h.crc_eq) hcut _
  rw [if_neg (not_not.mpr hcrc)]
  exact .accepted ⟨hmark, hb, h21, hzero, hcrc⟩

theorem ofBytes_encode_append {r : LogDataRecord} (hv : r.Valid) (t : List UInt8) :
    ofBytes (r.encode ++ t) = r := by
  obtain ⟨delta, id, data, crc⟩ := r
  have hlen : data.length = 4 := hv.data_length
  have hdrop : ∀ (v : Word 4) (k : ℕ), 4 ≤ k → (storedLE v).drop k = [] := fun v k hk =>
    List.drop_eq_nil_of_le (by simpa using hk)
  simp [ofBytes, encode, body, logDataRecordStartMark, List.drop_append, hlen, hdrop,
    wordOfLE_storedLE]

theorem body_ofBytes {s : List UInt8} (hmark : s.take 4 = logDataRecordStartMark.reverse)
    (hb : s.getD 12 0 = 4) (hlen : 21 ≤ s.length) : (ofBytes s).body = s.take 17 := by
  have htake : (s.drop 12).take 1 = [4] := by
    rw [List.take_one, List.head?_drop, ← hb, List.getD_eq_getElem _ _ (by omega),
      List.getElem?_eq_getElem (by omega)]
    rfl
  rw [body, ofBytes, storedLE_wordOfLE (by simp; omega), storedLE_wordOfLE (by simp; omega), ← hmark,
    ← htake, show 17 = 4 + (4 + (4 + (1 + 4))) by rfl]
  simp only [List.take_add, List.drop_drop]

theorem encode_ofBytes {s : List UInt8} (hmark : s.take 4 = logDataRecordStartMark.reverse)
    (hb : s.getD 12 0 = 4) (hlen : 21 ≤ s.length) : (ofBytes s).encode = s.take 21 := by
  rw [encode, body_ofBytes hmark hb hlen, ofBytes, storedLE_wordOfLE (by simp; omega), ← List.take_add]

theorem Valid.body_length {r : LogDataRecord} (hv : r.Valid) : r.body.length = 17 := by
  simp [body, logDataRecordStartMark, hv.data_length]

theorem Valid.encode_length {r : LogDataRecord} (hv : r.Valid) : r.encode.length = 21 := by
  simp [encode, hv.body_length]

/-- A valid record stands at the head of its encoding, and is accepted there unless its checksum is
zero. -/
theorem accepted_encode_append_iff {r : LogDataRecord} (hv : r.Valid) (t : List UInt8) :
    Accepted (r.encode ++ t) ↔ r.crc ≠ 0 := by
  have hof : ofBytes (r.encode ++ t) = r := ofBytes_encode_append hv t
  constructor
  · intro h
    simpa [hof] using h.crc_ne
  · intro h
    refine ⟨?_, ?_, ?_, by rwa [hof], ?_⟩
    · simp [encode, body, logDataRecordStartMark]
    · simp [encode, body, logDataRecordStartMark, List.getElem?_append, List.getD_eq_getElem?_getD]
    · rw [List.length_append, hv.encode_length]
      omega
    · rw [hof, encode, List.append_assoc, List.take_left' hv.body_length, ← hv.crc_eq]

/-- **Reading back**: a valid record is returned, unless its checksum is zero. -/
theorem create_encode {r : LogDataRecord} (hv : r.Valid) (hcrc : r.crc ≠ 0) (t : List UInt8) :
    exec LogDataRecordAnalog.create (r.encode ++ t) = (.ok (some r), t) := by
  have hacc : Accepted (r.encode ++ t) := (accepted_encode_append_iff hv t).mpr hcrc
  have hdrop : (r.encode ++ t).drop 21 = t := List.drop_left' hv.encode_length
  have hout := create_outcome (r.encode ++ t)
  generalize exec LogDataRecordAnalog.create (r.encode ++ t) = x at hout ⊢
  cases hout with
  | accepted h => rw [ofBytes_encode_append hv, hdrop]
  | cut h =>
    have := hacc.length_le
    unfold CutInField at h
    omega
  | refused h => exact absurd hacc h

/-- **What is returned stands encoded in the input**, with its checksum right and not zero. -/
theorem eq_encode_of_create {s s' : List UInt8} {r : LogDataRecord}
    (h : exec LogDataRecordAnalog.create s = (.ok (some r), s')) :
    s = r.encode ++ s' ∧ r.Valid ∧ r.crc ≠ 0 := by
  have hout := create_outcome s
  rw [h] at hout
  cases hout with
  | accepted hacc =>
    obtain ⟨hmark, hb, hlen, hzero, hcrc⟩ := hacc
    refine ⟨?_, ⟨?_, ?_⟩, hzero⟩
    · rw [encode_ofBytes hmark hb hlen, List.take_append_drop]
    · simp [ofBytes]
      omega
    · rw [body_ofBytes hmark hb hlen, hcrc]

/-- **When `create` raises**. -/
theorem create_raises_iff (s : List UInt8) :
    Raises (exec LogDataRecordAnalog.create s) ↔ CutInField s := by
  have hout := create_outcome s
  generalize exec LogDataRecordAnalog.create s = x at hout ⊢
  cases hout with
  | accepted h =>
    have := h.length_le
    simp only [Raises, reduceCtorEq, exists_false, false_iff]
    unfold CutInField
    omega
  | cut h => simp [Raises, h]
  | refused _ hcut => simp [Raises, hcut]

end LogDataRecord

end EerieLeap.LogsParser
