import EerieLeap.LogsParser.CborParser
import EerieLeap.LogsParser.CsvLossless
import EerieLeap.LogsParser.JsonLossless

/-!
# The JSON output of the metadata loses nothing

What `to_json` writes of the metadata tells the header, and all of the sensors but which dictionaries allow
attribute access: integers are written without a point and an exponent, floats with one of them.

* `PyObject.plain` : an object with plain dictionaries;
* `PyObject.toJson_eq_iff` : which objects are alike as JSON values;
* `metadata_lossless` : which outputs mean the same.
-/

namespace EerieLeap.LogsParser

open EerieLeap.Lib EerieLeap.Lib.Effect

/-! ## Integers and floats -/

/-- No float is written like an integer. -/
def PyText.Pointed (py : PyText) : Prop :=
  ∀ x n, isNaN x = false → isInf x = false → py.repr x ≠ Nat.repr n

theorem decimalText_pointed (digits : List Char) (point : ℤ) :
    ∃ c ∈ decimalText digits point, c.isDigit = false := by
  unfold decimalText
  by_cases hplain : -4 < point ∧ point ≤ 16
  · rw [if_pos hplain]
    split_ifs <;> exact ⟨'.', by simp, rfl⟩
  · rw [if_neg hplain]
    exact ⟨'e', by simp, rfl⟩

theorem doubleText_pointed (x : Ratio) : ∃ c ∈ doubleText x, c.isDigit = false := by
  unfold doubleText
  split_ifs
  · exact ⟨'.', by simp, rfl⟩
  · exact decimalText_pointed _ _

theorem PyText.cpython_pointed : PyText.cpython.Pointed := by
  intro x n _ _ heq
  obtain ⟨c, hc, hdigit⟩ := doubleText_pointed (floatValue x)
  have hmem : c ∈ (Nat.repr n).toList := by
    rw [← heq]
    simpa [cpython] using Or.inr hc
  rw [Nat.toList_repr] at hmem
  have htrue := (digits_toDigits n).2 c hmem
  rw [hdigit] at htrue
  cases htrue

/-! ## Plain dictionaries -/

mutual

/-- The object, with dictionaries that do not allow attribute access. -/
def PyObject.plain : PyObject → PyObject
  | .atom a => .atom a
  | .list items => .list (plainItems items)
  | .dict _ entries => .dict false (plainEntries entries)

def plainItems : List PyObject → List PyObject
  | [] => []
  | item :: items => item.plain :: plainItems items

def plainEntries : List (String × PyObject) → List (String × PyObject)
  | [] => []
  | (key, value) :: entries => (key, value.plain) :: plainEntries entries

end

theorem plainItems_eq (items : List PyObject) : plainItems items = items.map PyObject.plain := by
  induction items with
  | nil => rfl
  | cons item items ih => rw [plainItems, ih, List.map_cons]

theorem plainEntries_eq (entries : List (String × PyObject)) :
    plainEntries entries = entries.map fun entry => (entry.1, entry.2.plain) := by
  induction entries with
  | nil => rfl
  | cons entry entries ih => rw [plainEntries, ih, List.map_cons]

/-! ## Objects that are alike -/

variable {py : PyText}

theorem PyValue.toJson_ne (v : PyValue) : v.toJson py ≠ .null ∧ ∀ b, v.toJson py ≠ .bool b := by
  constructor
  · intro heq
    cases v <;> cases heq
  · intro b heq
    cases v <;> cases heq

theorem Atom.toJson_ne (a : Atom) : (∀ vs, a.toJson py ≠ .array vs) ∧ ∀ ms, a.toJson py ≠ .object ms := by
  have hvalue : ∀ v : PyValue, (∀ vs, v.toJson py ≠ .array vs) ∧ ∀ ms, v.toJson py ≠ .object ms := by
    intro v
    constructor <;> intro x heq <;> cases v <;> cases heq
  cases a with
  | value v => exact hvalue v
  | none => constructor <;> intro x heq <;> cases heq
  | bool b => constructor <;> intro x heq <;> cases heq
  | bytes bs => constructor <;> intro x heq <;> cases heq

section
variable (hfaithful : py.Faithful) (hpointed : py.Pointed)
include hfaithful hpointed

theorem PyValue.toJson_eq_iff {v v' : PyValue} (h : v.Representable) (h' : v'.Representable) :
    v.toJson py = v'.toJson py ↔ v = v' := by
  refine ⟨fun heq => ?_, fun heq => by rw [heq]⟩
  have hfloat : ∀ n x, IsFinite x → (Nat.repr n).toList ≠ (PyValue.dumps py (.float x)).toList := by
    intro n x hx heq
    rw [dumps_float x hx] at heq
    exact hpointed x n hx.1 hx.2 (String.toList_injective heq).symm
  cases v with
  | int n =>
    cases v' with
    | int n' => rw [repr_injective (Json.Value.number.inj heq)]
    | str s' => cases heq
    | float x' => exact absurd (Json.Value.number.inj heq) (hfloat n x' h')
  | str s =>
    cases v' with
    | int n' => cases heq
    | str s' => rw [Json.Value.string.inj heq]
    | float x' => cases heq
  | float x =>
    cases v' with
    | int n' => exact absurd (Json.Value.number.inj heq).symm (hfloat n' x h)
    | str s' => cases heq
    | float x' => rw [hfaithful.dumps_injective h h' (Json.Value.number.inj heq)]

theorem Atom.toJson_eq_iff {a a' : Atom} (hw : a.isBytes = false) (hw' : a'.isBytes = false) (h : a.Finite)
    (h' : a'.Finite) : a.toJson py = a'.toJson py ↔ a = a' := by
  cases a with
  | bytes bs => cases hw
  | none =>
    cases a' with
    | bytes bs => cases hw'
    | none => exact iff_of_true rfl rfl
    | bool b => constructor <;> intro heq <;> cases heq
    | value v =>
      refine iff_of_false (fun heq => v.toJson_ne.1 heq.symm) ?_
      intro heq
      cases heq
  | bool b =>
    cases a' with
    | bytes bs => cases hw'
    | none => constructor <;> intro heq <;> cases heq
    | bool b' => simp [toJson]
    | value v =>
      refine iff_of_false (fun heq => v.toJson_ne.2 b heq.symm) ?_
      intro heq
      cases heq
  | value v =>
    cases a' with
    | bytes bs => cases hw'
    | none =>
      refine iff_of_false v.toJson_ne.1 ?_
      intro heq
      cases heq
    | bool b =>
      refine iff_of_false (v.toJson_ne.2 b) ?_
      intro heq
      cases heq
    | value v' =>
      rw [Atom.value.injEq]
      exact PyValue.toJson_eq_iff hfaithful hpointed h h'

/-- **Objects that are alike** as JSON values are so but for attribute access. -/
theorem PyObject.toJson_eq_iff (o : PyObject) {o' : PyObject} (hw : o.Written) (hw' : o'.Written)
    (h : o.Finite) (h' : o'.Finite) : o.toJson py = o'.toJson py ↔ o.plain = o'.plain := by
  induction o using PyObject.induct generalizing o' with
  | hatom a =>
    cases o' with
    | atom a' =>
      rw [plain, plain, PyObject.atom.injEq]
      exact Atom.toJson_eq_iff hfaithful hpointed (forall_atoms_atom.mp hw) (forall_atoms_atom.mp hw')
        (forall_atoms_atom.mp h) (forall_atoms_atom.mp h')
    | list items' =>
      refine iff_of_false (a.toJson_ne.1 _) ?_
      intro heq
      cases heq
    | dict withAttrs' entries' =>
      refine iff_of_false (a.toJson_ne.2 _) ?_
      intro heq
      cases heq
  | hlist items ih =>
    cases o' with
    | atom a' =>
      refine iff_of_false (fun heq => a'.toJson_ne.1 _ heq.symm) ?_
      intro heq
      cases heq
    | list items' =>
      rw [toJson, toJson, toJsonItems_eq, toJsonItems_eq, Json.Value.array.injEq, plain, plain, plainItems_eq,
        plainItems_eq, PyObject.list.injEq]
      apply LogFile.map_eq_map_iff_of
      intro item hitem item' hitem'
      exact ih item hitem (forall_atoms_list.mp hw item hitem) (forall_atoms_list.mp hw' item' hitem')
        (forall_atoms_list.mp h item hitem) (forall_atoms_list.mp h' item' hitem')
    | dict withAttrs' entries' => constructor <;> intro heq <;> cases heq
  | hdict withAttrs entries ih =>
    cases o' with
    | atom a' =>
      refine iff_of_false (fun heq => a'.toJson_ne.2 _ heq.symm) ?_
      intro heq
      cases heq
    | list items' => constructor <;> intro heq <;> cases heq
    | dict withAttrs' entries' =>
      rw [toJson, toJson, toJsonEntries_eq, toJsonEntries_eq, Json.Value.object.injEq, plain, plain,
        plainEntries_eq, plainEntries_eq, PyObject.dict.injEq, and_iff_right rfl]
      apply LogFile.map_eq_map_iff_of
      intro entry hentry entry' hentry'
      rw [Prod.mk.injEq, Prod.mk.injEq]
      exact and_congr_right fun _ => ih entry hentry (forall_atoms_dict.mp hw entry hentry)
        (forall_atoms_dict.mp hw' entry' hentry') (forall_atoms_dict.mp h entry hentry)
        (forall_atoms_dict.mp h' entry' hentry')

end

/-! ## The document -/

namespace LogMetadata

theorem headerJson_eq_iff {header header' : LogMetadataHeader} :
    dictionaryJson py header.toDictionary = dictionaryJson py header'.toDictionary ↔ header = header' := by
  refine ⟨fun h => ?_, fun h => by rw [h]⟩
  simp only [dictionaryJson, LogMetadataHeader.toDictionary, List.map_cons, List.map_nil, PyValue.toJson,
    Json.Value.object.injEq, List.cons.injEq, Prod.mk.injEq, Json.Value.number.injEq,
    Json.Value.string.injEq, true_and, and_true] at h
  obtain ⟨hfile, hversion, hreserved⟩ := h
  obtain ⟨fileType, version, reserved⟩ := header
  have hversion := BitVec.eq_of_toNat_eq (repr_injective hversion)
  have hreserved := hex_injective hreserved
  simp only at hfile hversion hreserved
  rw [hfile, hversion, hreserved]

/-- What a document stands for. -/
theorem eq_of_text (hpy : py.JsonNumbers) {m : DecodedMetadata} {v : Json.Value}
    (hv : Json.Text (exec (toJson py m) "").2.toList v) :
    v = documentJson py m ∧ m.sensors.toDictionary.Written ∧ m.sensors.toDictionary.Finite := by
  obtain ⟨hwritten, hfinite⟩ := written_of_text hpy hv
  exact ⟨hv.unique (text_toJson hpy hwritten hfinite), hwritten, hfinite⟩

/-- **The output of the metadata loses nothing** but which dictionaries allow attribute access. -/
theorem metadata_lossless (hpy : py.JsonNumbers) (hfaithful : py.Faithful) (hpointed : py.Pointed)
    {m m' : DecodedMetadata} {v v' : Json.Value} (hv : Json.Text (exec (toJson py m) "").2.toList v)
    (hv' : Json.Text (exec (toJson py m') "").2.toList v') :
    v = v' ↔ m.header = m'.header ∧ m.sensors.toDictionary.plain = m'.sensors.toDictionary.plain := by
  obtain ⟨rfl, hwritten, hfinite⟩ := eq_of_text hpy hv
  obtain ⟨rfl, hwritten', hfinite'⟩ := eq_of_text hpy hv'
  simp only [documentJson, Json.Value.object.injEq, List.cons.injEq, Prod.mk.injEq, true_and, and_true]
  exact and_congr headerJson_eq_iff
    (PyObject.toJson_eq_iff hfaithful hpointed _ hwritten hwritten' hfinite hfinite')

/-- The metadata of the sensor with other sensors. -/
def withSensors (sensors : PyObject) : DecodedMetadata := { oneDecodedMetadata with sensors := ⟨sensors⟩ }

/-- Calibrated up to the next float. -/
def otherDecoded : Decoded := decodedSensor 0x42C80001#32

/-- A sensor as decoded, with plain dictionaries, and with another value: the first two are written alike. -/
theorem oneDecoded_plain : ∃ v v' v'',
    Json.Text (exec (toJson .cpython (withSensors (namedTupleToDictWithAttrs oneDecoded))) "").2.toList v ∧
    Json.Text (exec (toJson .cpython (withSensors (namedTupleToDictWithAttrs oneDecoded).plain)) "").2.toList v' ∧
    Json.Text (exec (toJson .cpython (withSensors (namedTupleToDictWithAttrs otherDecoded))) "").2.toList v'' ∧
    v = v' ∧ v ≠ v'' := by
  have htext : ∀ sensors : PyObject, sensors.Written → sensors.Finite → Json.Text
      (exec (toJson .cpython (withSensors sensors)) "").2.toList (documentJson .cpython (withSensors sensors)) :=
    fun sensors hwritten hfinite => text_toJson PyText.cpython_jsonNumbers hwritten hfinite
  have hv := htext (namedTupleToDictWithAttrs oneDecoded) (by decide +kernel) (by decide +kernel)
  have hv' := htext (namedTupleToDictWithAttrs oneDecoded).plain (by decide +kernel) (by decide +kernel)
  have hv'' := htext (namedTupleToDictWithAttrs otherDecoded) (by decide +kernel) (by decide +kernel)
  have hlossless : ∀ {m m' : DecodedMetadata} {v v' : Json.Value},
      Json.Text (exec (toJson .cpython m) "").2.toList v → Json.Text (exec (toJson .cpython m') "").2.toList v' →
      (v = v' ↔ m.header = m'.header ∧ m.sensors.toDictionary.plain = m'.sensors.toDictionary.plain) :=
    metadata_lossless PyText.cpython_jsonNumbers PyText.cpython_faithful PyText.cpython_pointed
  refine ⟨_, _, _, hv, hv', hv'', (hlossless hv hv').mpr ⟨rfl, rfl⟩, ?_⟩
  intro heq
  have hatoms := congrArg PyObject.atoms ((hlossless hv hv'').mp heq).2
  cases hatoms

end LogMetadata

end EerieLeap.LogsParser
