import EerieLeap.Lib.JsonReader
import EerieLeap.LogsParser.JsonDocument
import EerieLeap.LogsParser.MetadataFormat

/-!
# Decoded objects

`cbor_parser.py`, and `to_json` of `log_metadata_file.py`. zcbor, which is not part of the sources, gives lists,
dictionaries and named tuples around simple values; the parser makes dictionaries of the named tuples, which
still allow attribute access, and `json.dumps` writes what comes out. The keys of the dictionaries are strings.

* `namedTupleToDictWithAttrs` : the conversion;
* `access_convert_iff` : which objects are still accessed as before;
* `PyObject.sensorConfigs?` : the sensors in an object, and `create_typed`, `create` with them;
* `PyObject.dumps`, `LogMetadata.toJson` : what is written;
* `metadata_document_iff` : when it is a JSON text.
-/

namespace EerieLeap.LogsParser

open EerieLeap.Lib EerieLeap.Lib.Checksum EerieLeap.Lib.Effect

/-! ## Objects -/

/-- The values without parts; the schema has no integers but unsigned ones, and no floats but those of 32 bits. -/
inductive Atom
  | none
  | bool (b : Bool)
  | value (v : PyValue)
  | bytes (bs : List UInt8)

/-- What zcbor decodes; the keys of dictionaries are strings. -/
inductive Decoded
  | atom (a : Atom)
  | list (items : List Decoded)
  | dict (entries : List (String × Decoded))
  | namedTuple (fields : List (String × Decoded))

/-- What the parser returns; a dictionary may be a `DictWithAttrs`. -/
inductive PyObject
  | atom (a : Atom)
  | list (items : List PyObject)
  | dict (withAttrs : Bool) (entries : List (String × PyObject))

mutual

/-- `named_tuple_to_dict_with_attrs`. -/
def namedTupleToDictWithAttrs : Decoded → PyObject
  | .namedTuple fields => .dict true (convertEntries fields)
  | .list items => .list (convertItems items)
  | .dict entries => .dict false (convertEntries entries)
  | .atom a => .atom a

def convertItems : List Decoded → List PyObject
  | [] => []
  | item :: items => namedTupleToDictWithAttrs item :: convertItems items

def convertEntries : List (String × Decoded) → List (String × PyObject)
  | [] => []
  | (key, value) :: entries => (key, namedTupleToDictWithAttrs value) :: convertEntries entries

end

/-! ## Access -/

/-- A step to a part of an object: an attribute, an item of a list or an entry of a dictionary. -/
inductive Step
  | attr (name : String)
  | item (i : ℕ)
  | key (key : String)

/-- The attributes that every dictionary has, and that no underscore begins. -/
def dictAttributes : List String :=
  ["clear", "copy", "fromkeys", "get", "items", "keys", "pop", "popitem", "setdefault", "update", "values"]

/-- The part of what was decoded. -/
def Decoded.part : Decoded → Step → Option Decoded
  | .namedTuple fields, .attr name => fields.lookup name
  | .list items, .item i => items[i]?
  | .dict entries, .key key => entries.lookup key
  | _, _ => none

/-- The part of what was converted: `__getattr__` is asked only for attributes that a dictionary does not have. -/
def PyObject.part : PyObject → Step → Option PyObject
  | .dict true entries, .attr name => if name ∈ dictAttributes then none else entries.lookup name
  | .list items, .item i => items[i]?
  | .dict _ entries, .key key => entries.lookup key
  | _, _ => none

def Decoded.access : Decoded → List Step → Option Decoded
  | d, [] => some d
  | d, step :: path => (d.part step).bind fun part => part.access path

def PyObject.access : PyObject → List Step → Option PyObject
  | o, [] => some o
  | o, step :: path => (o.part step).bind fun part => part.access path

theorem Decoded.access_append (d : Decoded) (path path' : List Step) :
    d.access (path ++ path') = (d.access path).bind fun part => part.access path' := by
  induction path generalizing d with
  | nil => rfl
  | cons step path ih => simp [access, ih, Option.bind_assoc]

theorem PyObject.access_append (o : PyObject) (path path' : List Step) :
    o.access (path ++ path') = (o.access path).bind fun part => part.access path' := by
  induction path generalizing o with
  | nil => rfl
  | cons step path ih => simp [access, ih, Option.bind_assoc]

theorem Decoded.access_singleton (d : Decoded) (step : Step) : d.access [step] = d.part step := by
  simp [access]

theorem PyObject.access_singleton (o : PyObject) (step : Step) : o.access [step] = o.part step := by
  simp [access]

theorem convertItems_eq_map (items : List Decoded) : convertItems items = items.map namedTupleToDictWithAttrs := by
  induction items with
  | nil => rfl
  | cons item items ih => rw [convertItems, ih, List.map_cons]

theorem lookup_convertEntries (entries : List (String × Decoded)) (key : String) :
    (convertEntries entries).lookup key = (entries.lookup key).map namedTupleToDictWithAttrs := by
  induction entries with
  | nil => rfl
  | cons entry entries ih =>
    obtain ⟨key', value⟩ := entry
    rw [convertEntries, List.lookup_cons, List.lookup_cons]
    split
    · rfl
    · exact ih

/-- A step is made as before, but for an attribute that every dictionary has. -/
theorem part_convert {d part : Decoded} {step : Step} (h : d.part step = some part)
    (hname : ∀ fields name, d = .namedTuple fields → step = .attr name → name ∉ dictAttributes) :
    (namedTupleToDictWithAttrs d).part step = some (namedTupleToDictWithAttrs part) := by
  cases d with
  | atom a => cases step <;> cases h
  | list items =>
    cases step with
    | item i =>
      have h : items[i]? = some part := h
      show (convertItems items)[i]? = some (namedTupleToDictWithAttrs part)
      rw [convertItems_eq_map, List.getElem?_map, h, Option.map_some]
    | attr name => cases h
    | key key => cases h
  | dict entries =>
    cases step with
    | key key =>
      have h : entries.lookup key = some part := h
      show (convertEntries entries).lookup key = some (namedTupleToDictWithAttrs part)
      rw [lookup_convertEntries, h, Option.map_some]
    | attr name => cases h
    | item i => cases h
  | namedTuple fields =>
    cases step with
    | attr name =>
      have h : fields.lookup name = some part := h
      show (if name ∈ dictAttributes then none else (convertEntries fields).lookup name) =
        some (namedTupleToDictWithAttrs part)
      rw [if_neg (hname fields name rfl rfl), lookup_convertEntries, h, Option.map_some]
    | item i => cases h
    | key key => cases h

/-- **Attribute access is preserved** exactly when no named tuple in the object has a field with the name of an
attribute that every dictionary has. -/
theorem access_convert_iff (d : Decoded) :
    (∀ path part, d.access path = some part →
      (namedTupleToDictWithAttrs d).access path = some (namedTupleToDictWithAttrs part)) ↔
    ∀ path fields, d.access path = some (.namedTuple fields) → ∀ field ∈ fields, field.1 ∉ dictAttributes := by
  constructor
  · intro h path fields hfields field hfield hname
    obtain ⟨part, hpart⟩ : ∃ part, fields.lookup field.1 = some part := by
      rw [← Option.isSome_iff_exists, List.lookup_isSome_iff]
      exact ⟨field, hfield, BEq.rfl⟩
    have haccess : d.access (path ++ [.attr field.1]) = some part := by
      rw [Decoded.access_append, hfields, Option.bind_some, Decoded.access_singleton]
      exact hpart
    have hconverted := h _ _ haccess
    have hnone : (PyObject.dict true (convertEntries fields)).part (.attr field.1) = none := if_pos hname
    rw [PyObject.access_append, h _ _ hfields, Option.bind_some, PyObject.access_singleton,
      namedTupleToDictWithAttrs, hnone] at hconverted
    cases hconverted
  · intro h path
    induction path generalizing d with
    | nil =>
      intro part hpart
      rw [← Option.some.inj hpart]
      rfl
    | cons step path ih =>
      intro part hpart
      obtain ⟨first, hfirst, hrest⟩ := Option.bind_eq_some_iff.mp hpart
      have hstep : (namedTupleToDictWithAttrs d).part step = some (namedTupleToDictWithAttrs first) := by
        refine part_convert hfirst ?_
        rintro fields name rfl rfl hname
        obtain ⟨l, r, heq, -⟩ := List.lookup_eq_some_iff.mp (show fields.lookup name = some first from hfirst)
        exact h [] fields rfl (name, first) (by rw [heq]; simp) hname
      have hrest := ih first (fun path' fields hfields => h (step :: path') fields (by
        rw [Decoded.access, hfirst, Option.bind_some, hfields])) part hrest
      rw [PyObject.access, hstep, Option.bind_some, hrest]

/-! ## The sensors in an object -/

/-- `DataTranslator.from_cddl(cddl).my_types[type_name].decode_str(data)[0]`; what is raised gives `none`. -/
abbrev Zcbor := CborParserOf Decoded

/-- `parse_cbor_hex`. -/
def Zcbor.parseCborHex (zcbor : Zcbor) : CborParserOf PyObject :=
  fun cddl data typeName => (zcbor cddl data typeName).map namedTupleToDictWithAttrs

/-- The objects that are false in a condition. -/
def PyObject.isFalse : PyObject → Bool
  | .atom .none => true
  | .atom (.bool b) => !b
  | .atom (.value (.int n)) => n == 0
  | .atom (.value (.str s)) => s == ""
  | .atom (.value (.float x)) => x == 0 || x == 0x80000000#32
  | .atom (.bytes bs) => bs.isEmpty
  | .list items => items.isEmpty
  | .dict _ entries => entries.isEmpty

/-- The metadata as `create` returns it, with the object that the sensors are. -/
abbrev DecodedMetadata := LogMetadataOf PyObject

def DecodedMetadata.create (zcbor : Zcbor) (cddl : String) : PyStream (Option DecodedMetadata) :=
  LogMetadataOf.create PyObject.isFalse zcbor.parseCborHex cddl

def PyObject.str? : PyObject → Option String
  | .atom (.value (.str s)) => some s
  | _ => none

def PyObject.int? : PyObject → Option ℕ
  | .atom (.value (.int n)) => some n
  | _ => none

/-- The sensor that an item is, by the attributes that the schema gives it. -/
def PyObject.sensorConfig? (o : PyObject) : Option SensorConfig := do
  let id ← (← o.access [.attr "id"]).str?
  let idHash ← (← o.access [.attr "id_hash"]).int?
  let name ← (← o.access [.attr "metadata", .attr "name"]).str?
  let unit ← (← o.access [.attr "metadata", .attr "unit"]).str?
  let description ← (← o.access [.attr "metadata", .attr "description"]).str?
  return { id := id, idHash := idHash, metadata := { name := name, unit := unit, description := description } }

/-- The sensors that an object is. -/
def PyObject.sensorConfigs? : PyObject → Option (List SensorConfig)
  | .list items => items.mapM PyObject.sensorConfig?
  | .atom _ | .dict _ _ => none

theorem PyObject.isEmpty_sensorConfigs {o : PyObject} {sensors : List SensorConfig}
    (h : o.sensorConfigs? = some sensors) : sensors.isEmpty = o.isFalse := by
  cases o with
  | atom a => cases h
  | dict withAttrs entries => cases h
  | list items =>
    cases items with
    | nil =>
      obtain rfl := Option.some.inj h
      rfl
    | cons item items =>
      rw [sensorConfigs?, List.mapM_cons] at h
      obtain ⟨sensor, -, h⟩ := Option.bind_eq_some_iff.mp h
      obtain ⟨rest, -, h⟩ := Option.bind_eq_some_iff.mp h
      obtain rfl := Option.some.inj h
      rfl

/-- The parser with its objects as the schema types them. -/
def Zcbor.parser (zcbor : Zcbor) : CborParser :=
  fun cddl data typeName => (zcbor.parseCborHex cddl data typeName).bind PyObject.sensorConfigs?

/-- **`create`** with the sensors as the schema types them: they are read off the object that it returns. -/
theorem create_typed (zcbor : Zcbor) (cddl : String) (s : List UInt8) :
    exec (LogMetadata.create zcbor.parser cddl) s =
      ((exec (DecodedMetadata.create zcbor cddl) s).1.map (Option.bind · (LogMetadata.view? PyObject.sensorConfigs?)),
        (exec (DecodedMetadata.create zcbor cddl) s).2) :=
  LogMetadata.create_view (fun _ _ h => PyObject.isEmpty_sensorConfigs h) _ _ _

/-! ## What `json.dumps` writes -/

/-- The exception `json.dumps` can raise. -/
inductive DumpsError
  | typeError
  deriving DecidableEq

def Atom.dumps (py : PyText) : Atom → Except DumpsError String
  | .none => .ok "null"
  | .bool b => .ok (if b then "true" else "false")
  | .value v => .ok (v.dumps py)
  | .bytes _ => .error .typeError

mutual

/-- `json.dumps(o)`. -/
def PyObject.dumps (py : PyText) : PyObject → Except DumpsError String
  | .atom a => a.dumps py
  | .list items => do return "[" ++ ", ".intercalate (← dumpsItems py items) ++ "]"
  | .dict _ entries => do return "\x7b" ++ ", ".intercalate (← dumpsEntries py entries) ++ "\x7d"

def dumpsItems (py : PyText) : List PyObject → Except DumpsError (List String)
  | [] => .ok []
  | item :: items => do return (← item.dumps py) :: (← dumpsItems py items)

def dumpsEntries (py : PyText) : List (String × PyObject) → Except DumpsError (List String)
  | [] => .ok []
  | (key, value) :: entries => do
    return (jsonString key ++ ": " ++ (← value.dumps py)) :: (← dumpsEntries py entries)

end

def LogMetadataHeader.toDictionary (header : LogMetadataHeader) : List (String × PyValue) :=
  [("file_type", .str header.fileType), ("version", .int header.version.toNat),
   ("reserved", .str (hex header.reserved))]

/-- `output.write(t)`. -/
def writeOutput (t : String) : Eff String DumpsError Unit := modify (· ++ t)

def LogMetadata.toJson (py : PyText) (m : DecodedMetadata) : Eff String DumpsError Bool := do
  writeOutput "\x7b"
  writeOutput "\"header\": "
  writeOutput (dumps py m.header.toDictionary)
  writeOutput ","
  writeOutput "\"sensors\": "
  writeOutput (← m.sensors.toDictionary.dumps py)
  writeOutput "\x7d"
  return true

/-! ## The parts of an object -/

mutual

/-- The simple values in an object. -/
def PyObject.atoms : PyObject → List Atom
  | .atom a => [a]
  | .list items => atomsItems items
  | .dict _ entries => atomsEntries entries

def atomsItems : List PyObject → List Atom
  | [] => []
  | item :: items => item.atoms ++ atomsItems items

def atomsEntries : List (String × PyObject) → List Atom
  | [] => []
  | (_, value) :: entries => value.atoms ++ atomsEntries entries

end

def Atom.toJson (py : PyText) : Atom → Json.Value
  | .none => .null
  | .bool b => .bool b
  | .value v => v.toJson py
  -- never written
  | .bytes _ => .null

mutual

/-- The object as it is meant. -/
def PyObject.toJson (py : PyText) : PyObject → Json.Value
  | .atom a => a.toJson py
  | .list items => .array (toJsonItems py items)
  | .dict _ entries => .object (toJsonEntries py entries)

def toJsonItems (py : PyText) : List PyObject → List Json.Value
  | [] => []
  | item :: items => item.toJson py :: toJsonItems py items

def toJsonEntries (py : PyText) : List (String × PyObject) → List (String × Json.Value)
  | [] => []
  | (key, value) :: entries => (key, value.toJson py) :: toJsonEntries py entries

end

/-- **Induction** on an object, with its items and its entries. -/
theorem PyObject.induct {P : PyObject → Prop} (hatom : ∀ a, P (.atom a))
    (hlist : ∀ items, (∀ item ∈ items, P item) → P (.list items))
    (hdict : ∀ withAttrs entries, (∀ entry ∈ entries, P entry.2) → P (.dict withAttrs entries)) (o : PyObject) : P o :=
  @PyObject.rec P (fun items => ∀ item ∈ items, P item) (fun entries => ∀ entry ∈ entries, P entry.2)
    (fun entry => P entry.2) hatom hlist (fun withAttrs entries => hdict withAttrs entries)
    (fun _ h => absurd h List.not_mem_nil) (fun _ _ h hs => List.forall_mem_cons.mpr ⟨h, hs⟩)
    (fun _ h => absurd h List.not_mem_nil) (fun _ _ h hs => List.forall_mem_cons.mpr ⟨h, hs⟩)
    (fun _ _ h => h) o

theorem atomsItems_eq (items : List PyObject) : atomsItems items = items.flatMap PyObject.atoms := by
  induction items with
  | nil => rfl
  | cons item items ih => rw [atomsItems, ih, List.flatMap_cons]

theorem atomsEntries_eq (entries : List (String × PyObject)) :
    atomsEntries entries = entries.flatMap fun entry => entry.2.atoms := by
  induction entries with
  | nil => rfl
  | cons entry entries ih => rw [atomsEntries, ih, List.flatMap_cons]

theorem toJsonItems_eq (py : PyText) (items : List PyObject) :
    toJsonItems py items = items.map (PyObject.toJson py) := by
  induction items with
  | nil => rfl
  | cons item items ih => rw [toJsonItems, ih, List.map_cons]

theorem toJsonEntries_eq (py : PyText) (entries : List (String × PyObject)) :
    toJsonEntries py entries = entries.map fun entry => (entry.1, entry.2.toJson py) := by
  induction entries with
  | nil => rfl
  | cons entry entries ih => rw [toJsonEntries, ih, List.map_cons]

section Dumps

variable {py : PyText}

theorem dumpsItems_eq_ok {items : List PyObject} {ts : List String} (h : dumpsItems py items = .ok ts) :
    List.Forall₂ (fun item t => item.dumps py = .ok t) items ts := by
  induction items generalizing ts with
  | nil =>
    obtain rfl := Except.ok.inj h
    exact .nil
  | cons item items ih =>
    rw [dumpsItems] at h
    cases ht : item.dumps py with
    | error e => rw [ht] at h; cases h
    | ok t =>
      cases hts : dumpsItems py items with
      | error e => rw [ht, hts] at h; cases h
      | ok ts' =>
        rw [ht, hts] at h
        obtain rfl := Except.ok.inj h
        exact .cons ht (ih hts)

theorem dumpsEntries_eq_ok {entries : List (String × PyObject)} {ts : List String}
    (h : dumpsEntries py entries = .ok ts) :
    List.Forall₂ (fun entry t => ∃ u, entry.2.dumps py = .ok u ∧ t = jsonString entry.1 ++ ": " ++ u) entries ts := by
  induction entries generalizing ts with
  | nil =>
    obtain rfl := Except.ok.inj h
    exact .nil
  | cons entry entries ih =>
    obtain ⟨key, value⟩ := entry
    rw [dumpsEntries] at h
    cases hu : value.dumps py with
    | error e => rw [hu] at h; cases h
    | ok u =>
      cases hts : dumpsEntries py entries with
      | error e => rw [hu, hts] at h; cases h
      | ok ts' =>
        rw [hu, hts] at h
        obtain rfl := Except.ok.inj h
        exact .cons ⟨u, hu, rfl⟩ (ih hts)

/-- What is written of a list. -/
theorem dumps_list_eq_ok {items : List PyObject} {t : String} (h : (PyObject.list items).dumps py = .ok t) :
    ∃ ts, List.Forall₂ (fun item t => item.dumps py = .ok t) items ts ∧
      t.toList = '[' :: ([',', ' '].intercalate (ts.map String.toList) ++ [']']) := by
  rw [PyObject.dumps] at h
  cases hts : dumpsItems py items with
  | error e => rw [hts] at h; cases h
  | ok ts =>
    rw [hts] at h
    obtain rfl := Except.ok.inj h
    refine ⟨ts, dumpsItems_eq_ok hts, ?_⟩
    simp [String.toList_intercalate]

/-- What is written of a dictionary. -/
theorem dumps_dict_eq_ok {withAttrs : Bool} {entries : List (String × PyObject)} {t : String}
    (h : (PyObject.dict withAttrs entries).dumps py = .ok t) :
    ∃ ts, List.Forall₂ (fun entry t => ∃ u, entry.2.dumps py = .ok u ∧ t = jsonString entry.1 ++ ": " ++ u)
      entries ts ∧ t.toList = '\x7b' :: ([',', ' '].intercalate (ts.map String.toList) ++ ['\x7d']) := by
  rw [PyObject.dumps] at h
  cases hts : dumpsEntries py entries with
  | error e => rw [hts] at h; cases h
  | ok ts =>
    rw [hts] at h
    obtain rfl := Except.ok.inj h
    refine ⟨ts, dumpsEntries_eq_ok hts, ?_⟩
    simp [String.toList_intercalate]

end Dumps

/-! ## Objects as JSON values -/

section Lists

variable {α β : Type} {R : α → β → Prop} {l : List α} {l' : List β}

theorem forall_mem_of_forall₂ {Q : β → Prop} (h : List.Forall₂ R l l') (hQ : ∀ a b, R a b → Q b) :
    ∀ b ∈ l', Q b := by
  induction h with
  | nil => exact fun b hb => absurd hb List.not_mem_nil
  | cons hab _ ih => exact List.forall_mem_cons.mpr ⟨hQ _ _ hab, ih⟩

theorem exists_mem_of_forall₂ {P : α → Prop} {Q : β → Prop} (h : List.Forall₂ R l l')
    (hQ : ∀ a b, R a b → P a → Q b) (hP : ∃ a ∈ l, P a) : ∃ b ∈ l', Q b := by
  induction h with
  | nil =>
    obtain ⟨a, ha, -⟩ := hP
    exact absurd ha List.not_mem_nil
  | cons hab _ ih =>
    obtain ⟨a, ha, hPa⟩ := hP
    rcases List.mem_cons.mp ha with rfl | ha
    · exact ⟨_, List.mem_cons_self, hQ _ _ hab hPa⟩
    · obtain ⟨b, hb, hQb⟩ := ih ⟨a, ha, hPa⟩
      exact ⟨b, List.mem_cons_of_mem _ hb, hQb⟩

end Lists

namespace PyObject

variable {P : Atom → Prop}

theorem forall_atoms_atom {a : Atom} : (∀ a' ∈ (atom a).atoms, P a') ↔ P a := List.forall_mem_singleton

theorem forall_atoms_list {items : List PyObject} :
    (∀ a ∈ (list items).atoms, P a) ↔ ∀ item ∈ items, ∀ a ∈ item.atoms, P a := by
  rw [atoms, atomsItems_eq]
  simp only [List.mem_flatMap, forall_exists_index, and_imp]
  exact ⟨fun h item hitem a ha => h a item hitem ha, fun h a item hitem ha => h item hitem a ha⟩

theorem forall_atoms_dict {withAttrs : Bool} {entries : List (String × PyObject)} :
    (∀ a ∈ (dict withAttrs entries).atoms, P a) ↔ ∀ entry ∈ entries, ∀ a ∈ entry.2.atoms, P a := by
  rw [atoms, atomsEntries_eq]
  simp only [List.mem_flatMap, forall_exists_index, and_imp]
  exact ⟨fun h entry hentry a ha => h a entry hentry ha, fun h a entry hentry ha => h entry hentry a ha⟩

end PyObject

/-- A float has to be finite. -/
def Atom.Finite : Atom → Prop
  | .value v => v.Representable
  | .none | .bool _ | .bytes _ => True

instance (a : Atom) : Decidable a.Finite :=
  match a with
  | .value (.float x) => inferInstanceAs (Decidable (IsFinite x))
  | .value (.int _) | .value (.str _) | .none | .bool _ | .bytes _ => isTrue trivial

/-- There are bytes in it, which `json.dumps` cannot write. -/
def Atom.isBytes : Atom → Bool
  | .bytes _ => true
  | .none | .bool _ | .value _ => false

/-- All floats in the object are finite. -/
def PyObject.Finite (o : PyObject) : Prop := ∀ a ∈ o.atoms, a.Finite

/-- There are no bytes in the object. -/
def PyObject.Written (o : PyObject) : Prop := ∀ a ∈ o.atoms, a.isBytes = false

instance (o : PyObject) : Decidable o.Finite := inferInstanceAs (Decidable (∀ a ∈ o.atoms, a.Finite))

instance (o : PyObject) : Decidable o.Written := inferInstanceAs (Decidable (∀ a ∈ o.atoms, a.isBytes = false))

section Written

variable (py : PyText)

theorem dumpsItems_isOk {items : List PyObject} (h : ∀ item ∈ items, ∃ t, item.dumps py = .ok t) :
    ∃ ts, dumpsItems py items = .ok ts := by
  induction items with
  | nil => exact ⟨[], rfl⟩
  | cons item items ih =>
    obtain ⟨⟨t, ht⟩, hitems⟩ := List.forall_mem_cons.mp h
    obtain ⟨ts, hts⟩ := ih hitems
    exact ⟨t :: ts, by rw [dumpsItems, ht, hts]; rfl⟩

theorem dumpsEntries_isOk {entries : List (String × PyObject)} (h : ∀ entry ∈ entries, ∃ t, entry.2.dumps py = .ok t) :
    ∃ ts, dumpsEntries py entries = .ok ts := by
  induction entries with
  | nil => exact ⟨[], rfl⟩
  | cons entry entries ih =>
    obtain ⟨⟨t, ht⟩, hentries⟩ := List.forall_mem_cons.mp h
    obtain ⟨ts, hts⟩ := ih hentries
    exact ⟨(jsonString entry.1 ++ ": " ++ t) :: ts, by rw [dumpsEntries, ht, hts]; rfl⟩

/-- **Bytes** alone cannot be written. -/
theorem PyObject.dumps_isOk_iff (o : PyObject) : (∃ t, o.dumps py = .ok t) ↔ o.Written := by
  induction o using PyObject.induct with
  | hatom a =>
    rw [Written, forall_atoms_atom]
    cases a with
    | bytes bs =>
      refine iff_of_false ?_ (fun h => nomatch h)
      rintro ⟨t, ht⟩
      cases ht
    | none => exact iff_of_true ⟨_, rfl⟩ rfl
    | bool b => exact iff_of_true ⟨_, rfl⟩ rfl
    | value v => exact iff_of_true ⟨_, rfl⟩ rfl
  | hlist items ih =>
    rw [Written, forall_atoms_list]
    constructor
    · rintro ⟨t, ht⟩ item hitem
      obtain ⟨ts, hts, -⟩ := dumps_list_eq_ok ht
      have hitems : ∀ item ∈ items, ∃ t, item.dumps py = .ok t := forall_mem_of_forall₂ hts.flip fun t item h => ⟨t, h⟩
      exact (ih item hitem).mp (hitems item hitem)
    · intro h
      obtain ⟨ts, hts⟩ := dumpsItems_isOk py fun item hitem => (ih item hitem).mpr (h item hitem)
      exact ⟨_, by rw [dumps, hts]; rfl⟩
  | hdict withAttrs entries ih =>
    rw [Written, forall_atoms_dict]
    constructor
    · rintro ⟨t, ht⟩ entry hentry
      obtain ⟨ts, hts, -⟩ := dumps_dict_eq_ok ht
      have hentries : ∀ entry ∈ entries, ∃ t, entry.2.dumps py = .ok t := by
        refine forall_mem_of_forall₂ hts.flip ?_
        rintro t entry ⟨u, hu, -⟩
        exact ⟨u, hu⟩
      exact (ih entry hentry).mp (hentries entry hentry)
    · intro h
      obtain ⟨ts, hts⟩ := dumpsEntries_isOk py fun entry hentry => (ih entry hentry).mpr (h entry hentry)
      exact ⟨_, by rw [dumps, hts]; rfl⟩

end Written

section Values

variable {py : PyText} (hpy : py.JsonNumbers)
include hpy

/-- **An object** whose floats are finite is written as the value it is meant to be. -/
theorem PyObject.isValue_dumps (o : PyObject) {t : String} (h : o.dumps py = .ok t) (hfinite : o.Finite) :
    Json.IsValue t.toList (o.toJson py) := by
  induction o using PyObject.induct generalizing t with
  | hatom a =>
    cases a with
    | none =>
      obtain rfl := Except.ok.inj h
      exact .null
    | bool b =>
      obtain rfl := Except.ok.inj h
      cases b with
      | true => exact .true
      | false => exact .false
    | value v =>
      obtain rfl := Except.ok.inj h
      exact PyValue.isValue_dumps hpy (forall_atoms_atom.mp hfinite)
    | bytes bs => cases h
  | hlist items ih =>
    obtain ⟨ts, hts, htext⟩ := dumps_list_eq_ok h
    rw [htext, toJson, toJsonItems_eq]
    refine .array (Json.areElements_intercalate Json.blank_space ?_)
    rw [List.forall₂_map_left_iff, List.forall₂_map_right_iff]
    have hitems : ∀ item ∈ items, ∀ t, item.dumps py = .ok t → Json.IsValue t.toList (item.toJson py) :=
      fun item hitem t ht => ih item hitem ht (forall_atoms_list.mp hfinite item hitem)
    refine List.Forall₂.flip (((List.forall₂_and_left _ _).mpr ⟨hitems, hts⟩).imp ?_)
    exact fun item t h => (h.1 t h.2).text
  | hdict withAttrs entries ih =>
    obtain ⟨ts, hts, htext⟩ := dumps_dict_eq_ok h
    rw [htext, toJson, toJsonEntries_eq]
    refine .object (Json.areMembers_intercalate Json.blank_space ?_)
    rw [List.forall₂_map_left_iff, List.forall₂_map_right_iff]
    have hentries : ∀ entry ∈ entries, ∀ u, entry.2.dumps py = .ok u →
        Json.IsValue u.toList (entry.2.toJson py) :=
      fun entry hentry u hu => ih entry hentry hu (forall_atoms_dict.mp hfinite entry hentry)
    refine List.Forall₂.flip (((List.forall₂_and_left _ _).mpr ⟨hentries, hts⟩).imp ?_)
    rintro entry t ⟨hvalue, u, hu, rfl⟩
    have hmember := Json.isMember_of (isString_jsonString entry.1) Json.blank_space (hvalue u hu)
    show Json.IsMember (jsonString entry.1 ++ ": " ++ u).toList (entry.1, entry.2.toJson py)
    simpa using hmember

/-- **Otherwise** it is written with a token that is none. -/
theorem PyObject.dirty_dumps (o : PyObject) {t : String} (h : o.dumps py = .ok t) (hfinite : ¬ o.Finite) :
    Json.Dirty t.toList := by
  induction o using PyObject.induct generalizing t with
  | hatom a =>
    cases a with
    | none => exact absurd (forall_atoms_atom.mpr trivial) hfinite
    | bool b => exact absurd (forall_atoms_atom.mpr trivial) hfinite
    | value v =>
      obtain rfl := Except.ok.inj h
      exact PyValue.dirty_dumps (forall_atoms_atom.not.mp hfinite)
    | bytes bs => cases h
  | hlist items ih =>
    obtain ⟨ts, hts, htext⟩ := dumps_list_eq_ok h
    rw [Finite, forall_atoms_list] at hfinite
    change ¬ ∀ item ∈ items, item.Finite at hfinite
    push Not at hfinite
    have hitems : ∀ item ∈ items, ∀ t, item.dumps py = .ok t → ¬ item.Finite → Json.Dirty t.toList :=
      fun item hitem t ht hnot => ih item hitem ht hnot
    have hall := (List.forall₂_and_left _ _).mpr ⟨hitems, hts⟩
    rw [htext]
    refine Json.Clean.append_dirty (t := ['[']) rfl (Json.Dirty.append ?_ _)
    refine Json.dirty_intercalate (w := [',', ' ']) rfl ?_ ?_
    · rw [List.forall_mem_map]
      refine forall_mem_of_forall₂ hall ?_
      rintro item t ⟨hdirty, ht⟩
      by_cases hitem : item.Finite
      · exact .inl (item.isValue_dumps hpy ht hitem).clean
      · exact .inr (hdirty t ht hitem)
    · obtain ⟨t, ht, hdirty⟩ := exists_mem_of_forall₂ (Q := fun t => Json.Dirty t.toList) hall
        (fun item t h hnot => h.1 t h.2 hnot) hfinite
      exact ⟨_, List.mem_map_of_mem ht, hdirty⟩
  | hdict withAttrs entries ih =>
    obtain ⟨ts, hts, htext⟩ := dumps_dict_eq_ok h
    rw [Finite, forall_atoms_dict] at hfinite
    change ¬ ∀ entry ∈ entries, entry.2.Finite at hfinite
    push Not at hfinite
    have hentries : ∀ entry ∈ entries, ∀ u, entry.2.dumps py = .ok u → ¬ entry.2.Finite → Json.Dirty u.toList :=
      fun entry hentry u hu hnot => ih entry hentry hu hnot
    have hall := (List.forall₂_and_left _ _).mpr ⟨hentries, hts⟩
    have hkey : ∀ key u : String, (jsonString key ++ ": " ++ u).toList =
        ((jsonString key).toList ++ [':', ' ']) ++ u.toList := by simp
    have hclean : ∀ key, Json.Clean ((jsonString key).toList ++ [':', ' ']) :=
      fun key => (isString_jsonString key).clean.append rfl
    rw [htext]
    refine Json.Clean.append_dirty (t := ['\x7b']) rfl (Json.Dirty.append ?_ _)
    refine Json.dirty_intercalate (w := [',', ' ']) rfl ?_ ?_
    · rw [List.forall_mem_map]
      refine forall_mem_of_forall₂ hall ?_
      rintro entry t ⟨hdirty, u, hu, rfl⟩
      rw [hkey]
      by_cases hentry : entry.2.Finite
      · exact .inl ((hclean _).append (entry.2.isValue_dumps hpy hu hentry).clean)
      · exact .inr ((hclean _).append_dirty (hdirty u hu hentry))
    · obtain ⟨t, ht, hdirty⟩ := exists_mem_of_forall₂ (Q := fun t => Json.Dirty t.toList) hall (by
        rintro entry t ⟨hdirty, u, hu, rfl⟩ hnot
        rw [hkey]
        exact (hclean _).append_dirty (hdirty u hu hnot)) hfinite
      exact ⟨_, List.mem_map_of_mem ht, hdirty⟩

end Values

/-! ## The document -/

namespace LogMetadata

variable {py : PyText} {m : DecodedMetadata}

/-- The document as it is meant. -/
def documentJson (py : PyText) (m : DecodedMetadata) : Json.Value :=
  .object [("header", dictionaryJson py m.header.toDictionary), ("sensors", m.sensors.toDictionary.toJson py)]

/-- The text in front of the sensors. -/
def jsonHead (py : PyText) (header : LogMetadataHeader) : List Char :=
  '\x7b' :: ((jsonString "header").toList ++ ':' :: ([' '] ++ (dumps py header.toDictionary).toList)) ++
    ',' :: ((jsonString "sensors").toList ++ [':', ' '])

/-- **What `to_json` does**, by what `json.dumps` does of the sensors. -/
theorem exec_toJson (py : PyText) (m : DecodedMetadata) :
    (∃ t, m.sensors.toDictionary.dumps py = .ok t ∧ (exec (toJson py m) "").1 = .ok true ∧
      (exec (toJson py m) "").2.toList = jsonHead py m.header ++ (t.toList ++ ['\x7d'])) ∨
    ∃ e, m.sensors.toDictionary.dumps py = .error e ∧ (exec (toJson py m) "").1 = .error e ∧
      (exec (toJson py m) "").2.toList = jsonHead py m.header := by
  have hwrite : ∀ t o : String, exec (writeOutput t) o = (.ok (), o ++ t) := fun _ _ => rfl
  have hheader : (jsonString "header").toList = "\"header\"".toList := by decide
  have hsensors : (jsonString "sensors").toList = "\"sensors\"".toList := by decide
  unfold toJson
  simp only [exec_bind, hwrite, exec_liftM]
  cases m.sensors.toDictionary.dumps py with
  | error e =>
    refine .inr ⟨e, rfl, rfl, ?_⟩
    rw [jsonHead, hheader, hsensors]
    simp
  | ok t =>
    refine .inl ⟨t, rfl, rfl, ?_⟩
    simp only [exec_pure]
    rw [jsonHead, hheader, hsensors]
    simp

theorem toJson_eq_true_iff : (exec (toJson py m) "").1 = .ok true ↔ m.sensors.toDictionary.Written := by
  rw [← PyObject.dumps_isOk_iff py]
  rcases exec_toJson py m with ⟨t, ht, htrue, -⟩ | ⟨e, he, herror, -⟩
  · exact iff_of_true htrue ⟨t, ht⟩
  · refine iff_of_false ?_ ?_
    · rw [herror]
      exact nofun
    · rintro ⟨t, ht⟩
      rw [he] at ht
      cases ht

section Document

variable (hpy : py.JsonNumbers)
include hpy

theorem isValue_header (header : LogMetadataHeader) :
    Json.IsValue (dumps py header.toDictionary).toList (dictionaryJson py header.toDictionary) :=
  isValue_dumps hpy (representable_of_no_floats rfl)

theorem clean_jsonHead (header : LogMetadataHeader) : Json.Clean (jsonHead py header) := by
  have hbrace : Json.Clean ['\x7b'] := rfl
  have hcolon : Json.Clean [':', ' '] := rfl
  have hcomma : Json.Clean [','] := rfl
  have hkey := (isString_jsonString "header").clean
  have hkey' := (isString_jsonString "sensors").clean
  have hdictionary := (isValue_header hpy header).clean
  unfold jsonHead
  generalize (jsonString "header").toList = key at *
  generalize (jsonString "sensors").toList = key' at *
  generalize (dumps py header.toDictionary).toList = dictionary at *
  exact (hbrace.append (hkey.append (hcolon.append hdictionary))).append (hcomma.append (hkey'.append hcolon))

theorem text_document {t : String} (ht : m.sensors.toDictionary.dumps py = .ok t)
    (hfinite : m.sensors.toDictionary.Finite) :
    Json.Text (jsonHead py m.header ++ (t.toList ++ ['\x7d'])) (documentJson py m) := by
  have hmembers := Json.AreMembers.cons
    (Json.isMember_of (isString_jsonString "header") Json.blank_space (isValue_header hpy m.header))
    (.one (Json.isMember_of (isString_jsonString "sensors") Json.blank_space
      (m.sensors.toDictionary.isValue_dumps hpy ht hfinite)))
  have hobject := (Json.IsValue.object hmembers).text
  rw [jsonHead, documentJson]
  simpa using hobject

/-- What is written of a metadata is a text only of sensors that can be written. -/
theorem written_of_text {v : Json.Value} (hv : Json.Text (exec (toJson py m) "").2.toList v) :
    m.sensors.toDictionary.Written ∧ m.sensors.toDictionary.Finite := by
  rcases exec_toJson py m with ⟨t, ht, -, htext⟩ | ⟨e, -, -, htext⟩
  · rw [htext] at hv
    refine ⟨(PyObject.dumps_isOk_iff py _).mp ⟨t, ht⟩, ?_⟩
    by_contra hnot
    have hdirty := (clean_jsonHead hpy m.header).append_dirty
      ((m.sensors.toDictionary.dirty_dumps hpy ht hnot).append ['\x7d'])
    exact absurd (hv.clean.symm.trans hdirty) nofun
  · -- it stops behind the colon
    refine absurd ?_ hv.lastMark?_ne
    have hend : jsonHead py m.header = '\x7b' :: ((jsonString "header").toList ++ ':' :: ([' '] ++
        (dumps py m.header.toDictionary).toList)) ++ ',' :: (jsonString "sensors").toList ++ ':' :: [' '] := by
      simp [jsonHead]
    rw [htext, hend]
    exact Json.lastMark?_append (by decide) Json.blank_space _

theorem text_toJson (hwritten : m.sensors.toDictionary.Written) (hfinite : m.sensors.toDictionary.Finite) :
    Json.Text (exec (toJson py m) "").2.toList (documentJson py m) := by
  obtain ⟨t', ht'⟩ := (PyObject.dumps_isOk_iff py _).mpr hwritten
  rcases exec_toJson py m with ⟨t, ht, -, htext⟩ | ⟨e, he, -⟩
  · rw [htext]
    exact text_document hpy ht hfinite
  · rw [he] at ht'
    cases ht'

/-- **The metadata** is written, and `True` returned, exactly when there are no bytes in the sensors; else
`json.dumps` raises. The output is a JSON text, and that of the document, exactly when moreover the floats in the
sensors are finite. -/
theorem metadata_document_iff (m : DecodedMetadata) :
    ((exec (toJson py m) "").1 = .ok true ↔ m.sensors.toDictionary.Written) ∧
    ((exec (toJson py m) "").1 = .error .typeError ↔ ¬ m.sensors.toDictionary.Written) ∧
    (Json.Text (exec (toJson py m) "").2.toList (documentJson py m) ↔
      m.sensors.toDictionary.Written ∧ m.sensors.toDictionary.Finite) ∧
    ((∃ v, Json.Text (exec (toJson py m) "").2.toList v) ↔
      m.sensors.toDictionary.Written ∧ m.sensors.toDictionary.Finite) := by
  refine ⟨toJson_eq_true_iff, ?_, ⟨written_of_text hpy, fun h => text_toJson hpy h.1 h.2⟩, ?_, ?_⟩
  · rw [← toJson_eq_true_iff]
    rcases exec_toJson py m with ⟨t, -, htrue, -⟩ | ⟨e, -, herror, -⟩
    · rw [htrue]
      exact iff_of_false nofun (not_not.mpr rfl)
    · rw [herror]
      cases e
      exact iff_of_true rfl nofun
  · rintro ⟨v, hv⟩
    exact written_of_text hpy hv
  · exact fun h => ⟨_, text_toJson hpy h.1 h.2⟩

end Document

/-- What zcbor decodes for a sensor with a channel and a calibration up to `x`. -/
def decodedSensor (x : Word 4) : Decoded :=
  .list [.namedTuple [("id", .atom (.value (.str "sensor_1"))), ("id_hash", .atom (.value (.int 2348664336))),
    ("metadata", .namedTuple [("name", .atom (.value (.str "Sensor 1"))), ("unit", .atom (.value (.str "km/h"))),
      ("description", .atom (.value (.str "Test Sensor 1")))]),
    ("configuration", .namedTuple [("type", .atom (.value (.int 0))), ("sampling_rate_ms", .atom (.value (.int 10))),
      ("interpolation_method", .atom (.value (.int 1))), ("channel", .list [.atom (.value (.int 0))]),
      ("calibration_table", .list [.namedTuple [("float32float", .list [
        .namedTuple [("float32float_key", .atom (.value (.float 0#32))),
          ("float32float", .atom (.value (.float 0#32)))],
        .namedTuple [("float32float_key", .atom (.value (.float 0x40A00000#32))),
          ("float32float", .atom (.value (.float x)))]])]]),
      ("expression", .list [])])]]

def oneDecoded : Decoded := decodedSensor 0x42C80000#32

/-- The sensor as zcbor writes it. -/
def oneDecodedCbor : List UInt8 :=
  LogFile.oneSensorCbor.take 52 ++ [0xBF, 0xFA, 0x00, 0x00, 0x00, 0x00, 0xFA, 0x00, 0x00, 0x00, 0x00, 0xFA, 0x40, 0xA0,
    0x00, 0x00, 0xFA, 0x42, 0xC8, 0x00, 0x00, 0xFF, 0xFF, 0xFF, 0xFF, 0xFF]

def oneZcbor : Zcbor := fun _ data typeName =>
  if data = oneDecodedCbor ∧ typeName = "SensorsConfig" then some oneDecoded else none

/-- The metadata of the sensor, in front of the checksum. -/
def oneDecodedBody : List UInt8 :=
  [0x45, 0x4C, 0x4C, 0x4D, 1, 0, 0, 0, 0, 0, 0, 0, 0, 0, 0, 0] ++ oneDecodedCbor

def oneDecodedFile : List UInt8 := oneDecodedBody ++ storedLE (crc32 oneDecodedBody 0)

def oneDecodedMetadata : DecodedMetadata where
  header := LogFile.oneMetadata.header
  sensors := ⟨namedTupleToDictWithAttrs oneDecoded⟩
  crc := crc32 oneDecodedBody 0
  cddl := ""

theorem create_oneDecodedMetadata :
    exec (DecodedMetadata.create oneZcbor "") oneDecodedFile = (.ok (some oneDecodedMetadata), []) := by
  have hversion : wordOfLE 4 ((oneDecodedFile.drop 4).take 4) = 1 := by decide +kernel
  have hreserved : (oneDecodedFile.drop 8).take 8 = List.replicate 8 0 := by decide +kernel
  have hpayload : payload oneDecodedFile = oneDecodedCbor := by decide +kernel
  have hlength : oneDecodedBody.length = oneDecodedFile.length - 4 := by decide +kernel
  have hdrop : oneDecodedFile.drop (oneDecodedFile.length - 4) = storedLE (crc32 oneDecodedBody 0) :=
    List.drop_left' hlength
  have hcrc : storedCrc oneDecodedFile = crc32 oneDecodedBody 0 := by rw [storedCrc, hdrop, wordOfLE_storedLE]
  have hbody : oneDecodedFile.take (oneDecodedFile.length - 4) = oneDecodedBody := List.take_left' hlength
  have hsensors : LogMetadataSensors.create PyObject.isFalse oneZcbor.parseCborHex oneDecodedCbor "" =
      some ⟨namedTupleToDictWithAttrs oneDecoded⟩ := by
    refine LogMetadataSensors.create_eq_some_iff.mpr ⟨?_, rfl⟩
    rw [Zcbor.parseCborHex, oneZcbor, if_pos ⟨rfl, rfl⟩]
    rfl
  rw [DecodedMetadata.create, create_of_type _ _ _ _ (by decide +kernel) (by decide +kernel), hversion, hpayload,
    hsensors, hcrc, hbody, hreserved, if_neg (by decide)]
  simp only [ne_eq, not_true_eq_false, if_false]
  rfl

/-- Its sensors, as the schema types them. -/
example : oneDecodedMetadata.sensors.toDictionary.sensorConfigs? = some [LogFile.oneSensor] := by decide

theorem oneDecoded_written : (namedTupleToDictWithAttrs oneDecoded).Written := by decide +kernel

theorem oneDecoded_finite : (namedTupleToDictWithAttrs oneDecoded).Finite := by decide +kernel

/-- A file with the sensor is written as a JSON document. -/
theorem oneDecoded_document : ∃ m, (exec (DecodedMetadata.create oneZcbor "") oneDecodedFile).1 = .ok (some m) ∧
    (exec (toJson .cpython m) "").1 = .ok true ∧
    Json.Text (exec (toJson .cpython m) "").2.toList (documentJson .cpython m) := by
  obtain ⟨htrue, -, hdocument, -⟩ := metadata_document_iff PyText.cpython_jsonNumbers oneDecodedMetadata
  refine ⟨oneDecodedMetadata, by rw [create_oneDecodedMetadata], htrue.mpr oneDecoded_written, ?_⟩
  exact hdocument.mpr ⟨oneDecoded_written, oneDecoded_finite⟩

end LogMetadata

end EerieLeap.LogsParser
