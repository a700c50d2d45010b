import EerieLeap.LogsParser.LogMetadata

/-!
# The format of metadata files

`Spells data m` says that `m` is the metadata a file with the bytes `data` spells. `create` returns `m`
exactly then, and `none` where the file spells nothing, except that it raises where the file type is not
ASCII.

* `create_of_type`, `create_of_not_type` : what `create` does, by the first four bytes;
* `create_view` : `create` with its sensors seen otherwise;
* `create_iff_spells` : what is accepted;
* `parsesExactly_iff` : when nothing is raised.
-/

namespace EerieLeap.LogsParser.LogMetadata

open EerieLeap.Lib.Bits EerieLeap.Lib.Checksum EerieLeap.Lib.Effect

/-! ## The format -/

section Format

variable (parseCborHex : CborParser) (cddl : String) (data : List UInt8)

/-- The file type as it stands in the file. -/
def fileTypeBytes : List UInt8 := [0x45, 0x4C, 0x4C, 0x4D]

/-- The bytes between the header and the checksum. -/
def payload : List UInt8 := (data.take (data.length - 4)).drop LogMetadataHeader.lengthBytes

/-- The last four bytes. -/
def storedCrc : Word 4 := wordOfLE 4 (data.drop (data.length - 4))

/-- `m` is the metadata that the file spells. -/
structure Spells (m : LogMetadata) : Prop where
  length_le : 20 ≤ data.length
  file_type : data.take 4 = fileTypeBytes
  version_ne : m.header.version ≠ 0
  sensors_eq : parseCborHex cddl (payload data) "SensorsConfig" = some m.sensors.sensors
  sensors_ne : m.sensors.sensors ≠ []
  crc_eq : storedCrc data = crc32 (data.take (data.length - 4)) 0
  -- what is kept of it
  fileType_eq : m.header.fileType = "ELLM"
  version_eq : m.header.version = wordOfLE 4 ((data.drop 4).take 4)
  reserved_eq : m.header.reserved = (data.drop 8).take 8
  storedCrc_eq : m.crc = storedCrc data
  cddl_eq : m.cddl = cddl

end Format

/-! ## What `create` does -/

section Create

variable {σ : Type} (isFalse : σ → Bool) (parseCborHex : CborParserOf σ) (cddl : String) (data : List UInt8)

theorem exec_readAll : exec readAll data = (.ok data, []) := rfl

theorem create_of_short (h : data.length < 20) :
    exec (LogMetadataOf.create isFalse parseCborHex cddl) data = (.ok none, []) := by
  have hshort : data = [] ∨ data.length < LogMetadataHeader.lengthBytes + 4 := Or.inr h
  rw [LogMetadataOf.create, exec_bind_ok (exec_readAll data), if_pos hshort, exec_pure]

theorem not_short {data : List UInt8} (h : 20 ≤ data.length) :
    ¬ (data = [] ∨ data.length < LogMetadataHeader.lengthBytes + 4) := by
  rintro (rfl | hshort)
  · cases h
  · exact absurd h (Nat.not_le.mpr hshort)

/-- Without the file type `create` returns nothing, or raises because it is not ASCII. -/
theorem create_of_not_type (hlong : 20 ≤ data.length) (htype : data.take 4 ≠ fileTypeBytes) :
    exec (LogMetadataOf.create isFalse parseCborHex cddl) data =
      if (data.take 4).all (· < 128) then (.ok none, []) else (.error .unicodeDecodeError, []) := by
  rw [LogMetadataOf.create, exec_bind_ok (exec_readAll data), if_neg (not_short hlong), exec_liftM_bind,
    LogMetadataHeader.create]
  cases hdec : decodeAscii (data.take 4) with
  | error e =>
    unfold decodeAscii at hdec
    split at hdec
    · cases hdec
    · rename_i hall
      rw [if_neg hall]
      cases hdec
      rfl
  | ok t =>
    have hall : (data.take 4).all (· < 128) = true := by
      by_contra hall
      rw [decodeAscii, if_neg hall] at hdec
      cases hdec
    have hne : t ≠ LogMetadataHeader.logMetadataFileType := by
      rintro rfl
      exact htype (decodeAscii_injective hdec (decodeAscii_of_ascii rfl))
    rw [if_pos hall]
    simp only [bind, Except.bind, pure, Except.pure]
    rw [if_pos (Or.inr hne)]
    rfl

/-- The header of a file with the file type. -/
theorem header_of_type (hlong : 20 ≤ data.length) (htype : data.take 4 = fileTypeBytes) :
    LogMetadataHeader.create data =
      .ok (if wordOfLE 4 ((data.drop 4).take 4) = 0 then none
        else some ⟨"ELLM", wordOfLE 4 ((data.drop 4).take 4), (data.drop 8).take 8⟩) := by
  have hversion : ((data.drop 4).take 4).length = 4 := by
    simp
    omega
  have hreserved : (data.drop 8).take 8 ≠ [] := by
    rw [ne_eq, ← List.length_eq_zero_iff, List.length_take, List.length_drop]
    omega
  have hempty : ¬ (LogMetadataHeader.logMetadataFileType = "" ∨
      LogMetadataHeader.logMetadataFileType ≠ LogMetadataHeader.logMetadataFileType) := by decide
  have hdecode : decodeAscii fileTypeBytes = .ok LogMetadataHeader.logMetadataFileType := decodeAscii_of_ascii rfl
  unfold LogMetadataHeader.create
  rw [htype, hdecode]
  simp only [bind, Except.bind, pure, Except.pure, unpackLE]
  rw [if_neg hempty, if_pos hversion]
  simp only
  by_cases hzero : wordOfLE 4 ((data.drop 4).take 4) = 0
  · rw [if_pos hzero, if_pos hzero]
  · rw [if_neg hzero, if_neg hzero, if_neg hreserved]
    rfl

/-- **What `create` does** behind the file type. -/
theorem create_of_type (hlong : 20 ≤ data.length) (htype : data.take 4 = fileTypeBytes) :
    exec (LogMetadataOf.create isFalse parseCborHex cddl) data =
      (.ok (if wordOfLE 4 ((data.drop 4).take 4) = 0 then none
        else match LogMetadataSensors.create isFalse parseCborHex (payload data) cddl with
          | none => none
          | some sensors =>
            if storedCrc data ≠ crc32 (data.take (data.length - 4)) 0 then none
            else some {
              header := ⟨"ELLM", wordOfLE 4 ((data.drop 4).take 4), (data.drop 8).take 8⟩
              sensors := sensors
              crc := storedCrc data
              cddl := cddl }), []) := by
  have hcrc : (data.drop (data.length - 4)).length = 4 := by
    rw [List.length_drop]
    omega
  rw [LogMetadataOf.create, exec_bind_ok (exec_readAll data), if_neg (not_short hlong), exec_liftM_bind,
    header_of_type data hlong htype]
  by_cases hzero : wordOfLE 4 ((data.drop 4).take 4) = 0
  · simp only [if_pos hzero, exec_pure]
  · simp only [if_neg hzero]
    rw [← payload]
    cases LogMetadataSensors.create isFalse parseCborHex (payload data) cddl with
    | none => rfl
    | some sensors =>
      simp only
      rw [exec_liftM_bind, unpackLE, if_pos hcrc]
      show exec (if storedCrc data ≠ crc32 (data.take (data.length - 4)) 0 then _ else _) [] = _
      by_cases hstored : storedCrc data = crc32 (data.take (data.length - 4)) 0
      · rw [if_neg (not_not.mpr hstored), if_neg (not_not.mpr hstored)]
        rfl
      · rw [if_pos hstored, if_pos hstored]
        rfl

end Create

/-! ## Other sensors -/

section View

variable {σ τ : Type} {isFalse : σ → Bool} {isFalse' : τ → Bool} {view : σ → Option τ}

/-- The metadata with what its sensors are seen as. -/
def view? (view : σ → Option τ) (m : LogMetadataOf σ) : Option (LogMetadataOf τ) :=
  (view m.sensors.toDictionary).map fun sensors =>
    { header := m.header, sensors := { sensors := sensors }, crc := m.crc, cddl := m.cddl }

variable (hview : ∀ sensors sensors', view sensors = some sensors' → isFalse' sensors' = isFalse sensors)
include hview

theorem sensors_create_view (parseCborHex : CborParserOf σ) (data : List UInt8) (cddl : String) :
    LogMetadataSensors.create isFalse' (fun cddl data typeName => (parseCborHex cddl data typeName).bind view) data
      cddl = (LogMetadataSensors.create isFalse parseCborHex data cddl).bind fun s =>
        (view s.toDictionary).map fun sensors => { sensors := sensors } := by
  unfold LogMetadataSensors.create
  dsimp only
  cases parseCborHex cddl data "SensorsConfig" with
  | none => rfl
  | some sensors =>
    rw [Option.bind_some]
    cases hsensors : view sensors with
    | none =>
      simp only
      split
      · rfl
      · simp [LogMetadataSensors.toDictionary, hsensors]
    | some sensors' =>
      simp only [hview sensors sensors' hsensors]
      split
      · rfl
      · simp [LogMetadataSensors.toDictionary, hsensors]

/-- **`create`** with the sensors seen otherwise, and as false as they are. -/
theorem create_view (parseCborHex : CborParserOf σ) (cddl : String) (data : List UInt8) :
    exec (LogMetadataOf.create isFalse' (fun cddl data typeName => (parseCborHex cddl data typeName).bind view) cddl)
      data =
      ((exec (LogMetadataOf.create isFalse parseCborHex cddl) data).1.map (Option.bind · (view? view)),
        (exec (LogMetadataOf.create isFalse parseCborHex cddl) data).2) := by
  by_cases hlong : 20 ≤ data.length
  swap
  · rw [create_of_short _ _ _ _ (by omega), create_of_short _ _ _ _ (by omega)]
    rfl
  by_cases htype : data.take 4 = fileTypeBytes
  swap
  · rw [create_of_not_type _ _ _ _ hlong htype, create_of_not_type _ _ _ _ hlong htype]
    split <;> rfl
  rw [create_of_type _ _ _ _ hlong htype, create_of_type _ _ _ _ hlong htype, sensors_create_view hview]
  by_cases hversion : wordOfLE 4 ((data.drop 4).take 4) = 0
  · rw [if_pos hversion, if_pos hversion]
    rfl
  rw [if_neg hversion, if_neg hversion]
  cases LogMetadataSensors.create isFalse parseCborHex (payload data) cddl with
  | none => rfl
  | some s =>
    rw [Option.bind_some]
    by_cases hcrc : storedCrc data = crc32 (data.take (data.length - 4)) 0
    · simp only [if_neg (not_not.mpr hcrc)]
      cases hs : view s.toDictionary <;> simp [hs, view?, Except.map]
    · simp only [if_pos hcrc]
      cases hs : view s.toDictionary <;> simp [Except.map]

end View

variable (parseCborHex : CborParser) (cddl : String) (data : List UInt8)

/-! ## What is accepted -/

/-- **What is accepted** is what the file spells. -/
theorem create_iff_spells (m : LogMetadata) :
    (exec (create parseCborHex cddl) data).1 = .ok (some m) ↔ Spells parseCborHex cddl data m := by
  constructor
  · intro hcreate
    rw [create] at hcreate
    by_cases hlong : 20 ≤ data.length
    swap
    · rw [create_of_short _ _ _ _ (by omega)] at hcreate
      cases hcreate
    by_cases htype : data.take 4 = fileTypeBytes
    swap
    · rw [create_of_not_type _ _ _ _ hlong htype] at hcreate
      split at hcreate <;> cases hcreate
    rw [create_of_type _ _ _ _ hlong htype] at hcreate
    have hcreate := Except.ok.inj hcreate
    split at hcreate
    · cases hcreate
    rename_i hversion
    split at hcreate
    · cases hcreate
    rename_i sensors hsensors
    split at hcreate
    · cases hcreate
    rename_i hcrc
    obtain rfl := Option.some.inj hcreate
    obtain ⟨hparse, hfalse⟩ := LogMetadataSensors.create_eq_some_iff.mp hsensors
    exact ⟨hlong, htype, hversion, hparse, by simpa using hfalse, not_not.mp hcrc, rfl, rfl, rfl, rfl, rfl⟩
  · intro h
    have hversion : wordOfLE 4 ((data.drop 4).take 4) ≠ 0 := h.version_eq ▸ h.version_ne
    have hsensors := LogMetadataSensors.create_eq_some_iff.mpr
      ⟨h.sensors_eq, List.isEmpty_eq_false_iff.mpr h.sensors_ne⟩
    rw [create, create_of_type _ _ _ _ h.length_le h.file_type, if_neg hversion, hsensors]
    simp only
    rw [if_neg (not_not.mpr h.crc_eq), ← h.version_eq, ← h.reserved_eq, ← h.fileType_eq, ← h.storedCrc_eq]
    obtain ⟨header, sensors, crc, cddl'⟩ := m
    obtain rfl := h.cddl_eq
    rfl

/-! ## What is raised -/

/-- `create` raises exactly where the file type of a file that is long enough is not ASCII. -/
theorem raises_create_iff :
    Raises (exec (create parseCborHex cddl) data) ↔
      20 ≤ data.length ∧ ¬ (data.take 4).all (· < 128) = true := by
  rw [create]
  by_cases hlong : 20 ≤ data.length
  swap
  · rw [create_of_short _ _ _ _ (by omega)]
    simp [Raises, hlong]
  by_cases htype : data.take 4 = fileTypeBytes
  · rw [create_of_type _ _ _ _ hlong htype, htype]
    simp [Raises, fileTypeBytes]
  · rw [create_of_not_type _ _ _ _ hlong htype]
    by_cases hall : (data.take 4).all (· < 128) = true
    · rw [if_pos hall]
      simp [Raises, hall]
    · rw [if_neg hall]
      simp [Raises, hlong, hall]

/-- `create` returns the metadata that the file spells, and `None` where it spells none. -/
structure ParsesExactly : Prop where
  accepts : ∀ m, (exec (create parseCborHex cddl) data).1 = .ok (some m) ↔ Spells parseCborHex cddl data m
  rejects : (¬ ∃ m, Spells parseCborHex cddl data m) →
    (exec (create parseCborHex cddl) data).1 = .ok none

/-- **The parser is exact** where it does not have to decode a file type that is not ASCII. -/
theorem parsesExactly_iff :
    ParsesExactly parseCborHex cddl data ↔ data.length < 20 ∨ ∀ b ∈ data.take 4, b < 128 := by
  have hascii : (data.take 4).all (· < 128) = true ↔ ∀ b ∈ data.take 4, b < 128 := by simp
  have hraises := raises_create_iff parseCborHex cddl data
  rw [← hascii, ← not_le, ← imp_iff_not_or, ← not_iff_not, Classical.not_imp, ← hraises]
  constructor
  · intro hnot
    by_contra hno
    refine hnot ⟨create_iff_spells parseCborHex cddl data, ?_⟩
    intro hnone
    rcases hcreate : (exec (create parseCborHex cddl) data).1 with e | _ | m
    · exact absurd ⟨e, hcreate⟩ hno
    · rfl
    · exact absurd ⟨m, (create_iff_spells _ _ _ m).mp hcreate⟩ hnone
  · rintro ⟨e, he⟩ hexact
    have hnone : ¬ ∃ m, Spells parseCborHex cddl data m := by
      rintro ⟨m, hm⟩
      rw [(hexact.accepts m).mpr hm] at he
      cases he
    rw [hexact.rejects hnone] at he
    cases he

/-- Twenty bytes, the first of them not ASCII. -/
theorem not_ascii_raises : ¬ ∀ (parseCborHex : CborParser) (cddl : String) (data : List UInt8),
    ParsesExactly parseCborHex cddl data := by
  intro hall
  have hexact := hall (fun _ _ _ => none) "" (0x80 :: List.replicate 19 0)
  have hnone : ¬ ∃ m, Spells (fun _ _ _ => none) "" (0x80 :: List.replicate 19 0) m := by
    rintro ⟨m, hm⟩
    exact nomatch hm.sensors_eq
  have hraises : Raises (exec (create (fun _ _ _ => none) "") (0x80 :: List.replicate 19 0)) :=
    (raises_create_iff _ _ _).mpr (by decide)
  obtain ⟨e, he⟩ := hraises
  rw [hexact.rejects hnone] at he
  cases he

end EerieLeap.LogsParser.LogMetadata
