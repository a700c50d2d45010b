import EerieLeap.LogsParser.LogData

/-!
# The layout of log data headers

`LogDataHeader.encode` writes a header in the 32 bytes `create` reads, with the checksum the header
stores; `Valid` headers are those a logger writes. As for records, `create_eq` computes `create`
behind the file type and `create_outcome` sorts its results by the input.
-/

namespace EerieLeap.LogsParser

open EerieLeap.Lib.Bits EerieLeap.Lib.Checksum EerieLeap.Lib.Effect

namespace LogDataHeader

/-- The file type as it stands in the file. -/
def fileTypeBytes : List UInt8 := [0x45, 0x4C, 0x4C, 0x44]

/-- The bytes the checksum covers; the metadata version is stored reversed. -/
def body (h : LogDataHeader) : List UInt8 :=
  fileTypeBytes ++ (storedLE h.version ++ (h.logMetadataFileVersion.reverse ++
    (storedLE h.startTimeNs ++ h.reserved)))

/-- The 32 bytes of a header. -/
def encode (h : LogDataHeader) : List UInt8 := h.body ++ storedLE h.crc

/-- The headers a logger writes. -/
structure Valid (h : LogDataHeader) : Prop where
  fileType_eq : h.fileType = logDataFileType
  version_length : h.logMetadataFileVersion.length = 4
  reserved_length : h.reserved.length = 8
  crc_eq : h.crc = crc32 h.body 0

/-- The header spelled by the first 32 bytes of `s`. -/
def ofBytes (s : List UInt8) : LogDataHeader where
  fileType := logDataFileType
  version := wordOfLE 4 ((s.drop 4).take 4)
  logMetadataFileVersion := ((s.drop 8).take 4).reverse
  startTimeNs := wordOfLE 8 ((s.drop 12).take 8)
  reserved := (s.drop 20).take 8
  crc := wordOfLE 4 ((s.drop 28).take 4)

/-- **What `create` does** behind the file type. -/
theorem create_eq {s : List UInt8} (htype : s.take 4 = fileTypeBytes) : exec create s =
    if s.length ≤ 4 then (.ok none, [])
    else if ¬ 8 ≤ s.length then (.error .structError, [])
    else if s.length ≤ 8 then (.ok none, [])
    else if s.length ≤ 12 then (.ok none, [])
    else if ¬ 20 ≤ s.length then (.error .structError, [])
    else if s.length ≤ 20 then (.ok none, [])
    else if ¬ 32 ≤ s.length then (.error .structError, [])
    else if (ofBytes s).crc = 0 then (.ok none, s.drop 32)
    else if (ofBytes s).crc ≠ crc32 (s.take 28) 0 then (.ok none, s.drop 32)
    else (.ok (some (ofBytes s)), s.drop 32) := by
  have h4 : 0 < 4 := by omega
  have h8 : 0 < 8 := by omega
  have hcrc : crc32 (s.take 28) 0 = crc32 ((s.drop 20).take 8) (crc32 ((s.drop 12).take 8)
      (crc32 ((s.drop 8).take 4) (crc32 ((s.drop 4).take 4) (crc32 (s.take 4) 0)))) := by
    rw [crc32_take_add 20 8 s, crc32_take_add 12 8 s, crc32_take_add 8 4 s, crc32_take_add 4 4 s]
  have hdecode : decodeAscii fileTypeBytes = .ok logDataFileType := decodeAscii_of_ascii rfl
  rw [create, exec_bind_ok (exec_read 4 s), if_neg (by rw [htype]; decide), exec_liftM_bind, htype, hdecode]
  simp only [ne_eq, not_true_eq_false, if_false, exec_field_at _ _ h4, exec_field_at _ _ h8,
    exec_unpack_at _ _ h4, exec_unpack_at _ _ h8, exec_read_at, exec_ite, exec_pure, Nat.reduceAdd,
    hcrc, htype, ofBytes]

/-- Without the file type `create` returns nothing, or raises because it is not ASCII. -/
theorem create_of_not_type {s : List UInt8} (htype : s.take 4 ≠ fileTypeBytes) :
    exec create s = (.ok none, s.drop 4) ∨
      ∃ e, decodeAscii (s.take 4) = .error e ∧ exec create s = (.error e, s.drop 4) := by
  rw [create, exec_bind_ok (exec_read 4 s)]
  by_cases hnil : s.take 4 = []
  · exact Or.inl (by rw [if_pos hnil, exec_pure])
  rw [if_neg hnil, exec_liftM_bind]
  cases hdec : decodeAscii (s.take 4) with
  | error e => exact Or.inr ⟨e, rfl, rfl⟩
  | ok t =>
    have hne : t ≠ logDataFileType := by
      rintro rfl
      exact htype (decodeAscii_injective hdec (decodeAscii_of_ascii rfl))
    left
    simp only [hne, ne_eq, not_false_eq_true, if_true, exec_pure]

/-- The input starts with a whole header with the right checksum, which is not zero. -/
structure Accepted (s : List UInt8) : Prop where
  file_type : s.take 4 = fileTypeBytes
  length_le : 32 ≤ s.length
  crc_ne : (ofBytes s).crc ≠ 0
  crc_eq : (ofBytes s).crc = crc32 (s.take 28) 0

/-- The input ends inside a field that is unpacked: after the file type, inside the version, inside
the start time, or from inside the reserved bytes to inside the checksum. -/
def CutInField (s : List UInt8) : Prop :=
  s.take 4 = fileTypeBytes ∧
    (4 < s.length ∧ s.length < 8 ∨ 12 < s.length ∧ s.length < 20 ∨ 20 < s.length ∧ s.length < 32)

/-- What `create` can do: return the header of the input, raise, or return nothing. -/
inductive Outcome (s : List UInt8) : Except PyError (Option LogDataHeader) × List UInt8 → Prop
  | accepted (h : Accepted s) : Outcome s (.ok (some (ofBytes s)), s.drop 32)
  | cut (h : CutInField s) : Outcome s (.error .structError, [])
  | notAscii (htype : s.take 4 ≠ fileTypeBytes) {e : PyError}
      (h : decodeAscii (s.take 4) = .error e) : Outcome s (.error e, s.drop 4)
  | refused (hacc : ¬ Accepted s) (hcut : ¬ CutInField s) (t : List UInt8) : Outcome s (.ok none, t)

/-- An input that ends where a field does, or inside one that is not unpacked, is refused. -/
theorem outcome_of_end {s : List UInt8}
    (hend : s.length ≤ 4 ∨ 8 ≤ s.length ∧ s.length ≤ 12 ∨ s.length = 20) (t : List UInt8) :
    Outcome s (.ok none, t) := by
  refine .refused ?_ ?_ t
  · intro h
    have := h.length_le
    omega
  · intro h
    have := h.2
    omega

theorem create_outcome (s : List UInt8) : Outcome s (exec create s) := by
  by_cases htype : s.take 4 = fileTypeBytes
  swap
  · rcases create_of_not_type htype with h | ⟨e, hdec, h⟩
    · rw [h]
      exact .refused (fun h => htype h.file_type) (fun h => htype h.1) _
    · rw [h]
      exact .notAscii htype hdec
  rw [create_eq htype]
  -- the version
  refine field_cases (fun hend => outcome_of_end (by omega) _)
    (fun hlt hcut => .cut ⟨htype, Or.inl ⟨hlt, hcut⟩⟩) fun h8 => ?_
  by_cases h8' : s.length ≤ 8
  · rw [if_pos h8']
    exact outcome_of_end (by omega) _
  rw [if_neg h8']
  -- the start time, behind the metadata version, and the checksum, behind the reserved bytes
  refine field_cases (fun hend => outcome_of_end (by omega) _)
    (fun hlt hcut => .cut ⟨htype, Or.inr (Or.inl ⟨hlt, hcut⟩)⟩) fun h20 => ?_
  refine field_cases (fun hend => outcome_of_end (by omega) _)
    (fun hlt hcut => .cut ⟨htype, Or.inr (Or.inr ⟨hlt, hcut⟩)⟩) fun h32 => ?_
  have hcut : ¬ CutInField s := by
    unfold CutInField
    omega
  by_cases hzero : (ofBytes s).crc = 0
  · rw [if_pos hzero]
    exact .refused (fun h => h.crc_ne hzero) hcut _
  rw [if_neg hzero]
  by_cases hcrc : (ofBytes s).crc = crc32 (s.take 28) 0
  swap
  · rw [if_pos hcrc]
    exact .refused (fun h => hcrc h.crc_eq) hcut _
  rw [if_neg (not_not.mpr hcrc)]
  exact .accepted ⟨htype, h32, hzero, hcrc⟩

theorem ofBytes_encode_append {h : LogDataHeader} (hv : h.Valid) (t : List UInt8) :
    ofBytes (h.encode ++ t) = h := by
  obtain ⟨htype, hver, hres, -⟩ := hv
  obtain ⟨fileType, version, metadataVersion, startTime, reserved, crc⟩ := h
  simp only at htype hver hres
  have hdrop : ∀ {n : ℕ} (v : Word n) (k : ℕ), n ≤ k → (storedLE v).drop k = [] := fun v k hk =>
    List.drop_eq_nil_of_le (by simpa using hk)
  have hdrop' : ∀ k, 4 ≤ k → metadataVersion.reverse.drop k = [] := fun k hk =>
    List.drop_eq_nil_of_le (by simpa [hver] using hk)
  simp [ofBytes, encode, body, fileTypeBytes, List.drop_append, hver, hres, hdrop, hdrop',
    wordOfLE_storedLE, htype]

theorem body_ofBytes {s : List UInt8} (htype : s.take 4 = fileTypeBytes) (hlen : 32 ≤ s.length) :
    (ofBytes s).body = s.take 28 := by
  rw [body, ofBytes, storedLE_wordOfLE (by simp; omega), storedLE_wordOfLE (by simp; omega), ← htype,
    List.reverse_reverse, show 28 = 4 + (4 + (4 + (8 + 8))) by rfl]
  simp only [List.take_add, List.drop_drop]

theorem encode_ofBytes {s : List UInt8} (htype : s.take 4 = fileTypeBytes) (hlen : 32 ≤ s.length) :
    (ofBytes s).encode = s.take 32 := by
  rw [encode, body_ofBytes htype hlen, ofBytes, storedLE_wordOfLE (by simp; omega), ← List.take_add]

theorem Valid.body_length {h : LogDataHeader} (hv : h.Valid) : h.body.length = 28 := by
  simp [body, fileTypeBytes, hv.version_length, hv.reserved_length]

theorem Valid.encode_length {h : LogDataHeader} (hv : h.Valid) : h.encode.length = 32 := by
  simp [encode, hv.body_length]

theorem encode_take_four (h : LogDataHeader) (t : List UInt8) : (h.encode ++ t).take 4 = fileTypeBytes := by
  simp [encode, body, fileTypeBytes]

/-- A valid header is accepted at the head of its encoding unless its checksum is zero. -/
theorem accepted_encode_append_iff {h : LogDataHeader} (hv : h.Valid) (t : List UInt8) :
    Accepted (h.encode ++ t) ↔ h.crc ≠ 0 := by
  have hof : ofBytes (h.encode ++ t) = h := ofBytes_encode_append hv t
  constructor
  · intro hacc
    simpa [hof] using hacc.crc_ne
  · intro hne
    refine ⟨encode_take_four h t, ?_, by rwa [hof], ?_⟩
    · rw [List.length_append, hv.encode_length]
      omega
    · rw [hof, encode, List.append_assoc, List.take_left' hv.body_length, ← hv.crc_eq]

/-- **Reading back**: a valid header is returned, unless its checksum is zero. -/
theorem create_encode {h : LogDataHeader} (hv : h.Valid) (hcrc : h.crc ≠ 0) (t : List UInt8) :
    exec create (h.encode ++ t) = (.ok (some h), t) := by
  have hacc : Accepted (h.encode ++ t) := (accepted_encode_append_iff hv t).mpr hcrc
  have hdrop : (h.encode ++ t).drop 32 = t := List.drop_left' hv.encode_length
  have hout := create_outcome (h.encode ++ t)
  generalize exec create (h.encode ++ t) = x at hout ⊢
  cases hout with
  | accepted _ => rw [ofBytes_encode_append hv, hdrop]
  | cut h =>
    have := hacc.length_le
    unfold CutInField at h
    omega
  | notAscii htype _ => exact absurd hacc.file_type htype
  | refused h => exact absurd hacc h

/-- **What is returned stands encoded in the input**, with its checksum right and not zero. -/
theorem eq_encode_of_create {s s' : List UInt8} {h : LogDataHeader}
    (hrun : exec create s = (.ok (some h), s')) : s = h.encode ++ s' ∧ h.Valid ∧ h.crc ≠ 0 := by
  have hout := create_outcome s
  rw [hrun] at hout
  cases hout with
  | accepted hacc =>
    obtain ⟨htype, hlen, hzero, hcrc⟩ := hacc
    refine ⟨?_, ⟨rfl, ?_, ?_, ?_⟩, hzero⟩
    · rw [encode_ofBytes htype hlen, List.take_append_drop]
    · simp [ofBytes]
      omega
    · simp [ofBytes]
      omega
    · rw [body_ofBytes htype hlen, hcrc]

end LogDataHeader

end EerieLeap.LogsParser
