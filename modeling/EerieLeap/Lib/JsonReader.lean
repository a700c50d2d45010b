import EerieLeap.Lib.Json
import Mathlib.Data.List.TakeDrop

/-!
# Reading JSON texts

`read` reads a text of the grammar as the value it stands for, so a text stands for one value only. It
takes for granted that the text is one of the grammar: what it does with others is not of interest.

* `readString`, `readValue`, `read` : the reader;
* `IsString.read`, `IsValue.read`, `Text.read` : it reads every text of the grammar;
* `Text.unique` : the grammar is unambiguous.
-/

namespace EerieLeap.Lib.Json

/-! ## The reader -/

def isBlank (c : Char) : Bool := c ∈ [' ', '\t', '\n', '\r']

def skip (t : List Char) : List Char := t.dropWhile isBlank

/-- A character that numbers are written with. -/
def isNumberChar (c : Char) : Bool := c.isDigit || c ∈ ['+', '-', '.', 'e', 'E']

/-- Four hexadecimal digits. -/
def readUnit : List Char → Option (ℕ × List Char)
  | a :: b :: c :: d :: rest => do
    let i ← hexDigit? a
    let j ← hexDigit? b
    let k ← hexDigit? c
    let l ← hexDigit? d
    return (16 * (16 * (16 * i + j) + k) + l, rest)
  | _ => none

/-- A character of a string; a high surrogate goes with the unit behind it. -/
def readChar : List Char → Option (Char × List Char)
  | [] => none
  | [c] => if c = '\\' then none else some (c, [])
  | c :: e :: rest =>
    if c ≠ '\\' then some (c, e :: rest)
    else if e ≠ 'u' then (escapes.lookup e).map fun c => (c, rest)
    else do
      let (v, rest) ← readUnit rest
      if 0xD800 ≤ v ∧ v < 0xDC00 then
        let (lo, rest) ← readUnit (rest.drop 2)
        return (Char.ofNat (0x10000 + 0x400 * (v - 0xD800) + (lo - 0xDC00)), rest)
      else
        return (Char.ofNat v, rest)

/-- The characters up to the quote that ends a string. -/
def readChars : ℕ → List Char → Option (List Char × List Char)
  | 0, _ => none
  | n + 1, t =>
    if t.head? = some '"' then some ([], t.tail)
    else do
      let (c, rest) ← readChar t
      let (cs, rest) ← readChars n rest
      return (c :: cs, rest)

/-- A string, behind its first quote. -/
def readString (t : List Char) : Option (String × List Char) :=
  (readChars (t.length + 1) t).map fun (cs, rest) => (String.ofList cs, rest)

mutual

def readValue : ℕ → List Char → Option (Value × List Char)
  | 0, _ => none
  | _, [] => none
  | n + 1, c :: rest =>
    if c = '"' then (readString rest).map fun (s, rest) => (.string s, rest)
    else if c = '[' then (readElements n rest).map fun (vs, rest) => (.array vs, rest)
    else if c = '\x7b' then (readMembers n rest).map fun (ms, rest) => (.object ms, rest)
    else if c = 'n' then some (.null, rest.drop 3)
    else if c = 't' then some (.bool true, rest.drop 3)
    else if c = 'f' then some (.bool false, rest.drop 4)
    else some (.number ((c :: rest).takeWhile isNumberChar), (c :: rest).dropWhile isNumberChar)

/-- The elements of an array, up to its last bracket. -/
def readElements : ℕ → List Char → Option (List Value × List Char)
  | 0, _ => none
  | n + 1, t =>
    if (skip t).head? = some ']' then some ([], (skip t).tail)
    else do
      let (v, rest) ← readValue n (skip t)
      if (skip rest).head? = some ',' then
        let (vs, rest) ← readElements n (skip rest).tail
        return (v :: vs, rest)
      else
        return ([v], (skip rest).tail)

/-- The members of an object, up to its last brace. -/
def readMembers : ℕ → List Char → Option (List (String × Value) × List Char)
  | 0, _ => none
  | n + 1, t =>
    if (skip t).head? = some '\x7d' then some ([], (skip t).tail)
    else do
      let (key, rest) ← readString (skip t).tail
      let (v, rest) ← readValue n (skip (skip rest).tail)
      if (skip rest).head? = some ',' then
        let (ms, rest) ← readMembers n (skip rest).tail
        return ((key, v) :: ms, rest)
      else
        return ([(key, v)], (skip rest).tail)

end

def read (t : List Char) : Option Value := (readValue (2 * t.length + 1) (skip t)).map Prod.fst

/-! ## Strings -/

theorem Unit16.readUnit {t : List Char} {v : ℕ} (h : Unit16 t v) (r : List Char) :
    ∃ u, t = '\\' :: 'u' :: u ∧ Json.readUnit (u ++ r) = some (v, r) := by
  obtain ⟨ha, hb, hc, hd⟩ := h
  exact ⟨_, rfl, by simp [Json.readUnit, ha, hb, hc, hd]⟩

theorem readChar_backslash_u (t : List Char) : readChar ('\\' :: 'u' :: t) = (do
    let (v, rest) ← readUnit t
    if 0xD800 ≤ v ∧ v < 0xDC00 then
      let (lo, rest) ← readUnit (rest.drop 2)
      return (Char.ofNat (0x10000 + 0x400 * (v - 0xD800) + (lo - 0xDC00)), rest)
    else
      return (Char.ofNat v, rest)) := rfl

/-- A character is no surrogate. -/
theorem not_surrogate (c : Char) : ¬ (0xD800 ≤ c.toNat ∧ c.toNat < 0xDC00) := by
  have hvalid := c.valid
  simp only [UInt32.isValidChar, Nat.isValidChar] at hvalid
  simp only [Char.toNat]
  omega

theorem escapes_lookup {e c : Char} (h : (e, c) ∈ escapes) : e ≠ 'u' ∧ escapes.lookup e = some c := by
  have hall : ∀ p ∈ escapes, p.1 ≠ 'u' ∧ escapes.lookup p.1 = some p.2 := by decide
  exact hall (e, c) h

/-- **A character** of a string, whatever comes behind it. -/
theorem StringChar.readChar {t : List Char} {c : Char} (h : StringChar t c) (r : List Char) :
    Json.readChar (t ++ r) = some (c, r) ∧ (t ++ r).head? ≠ some '"' := by
  cases h with
  | plain h hquote hbackslash =>
    refine ⟨?_, by simpa using hquote⟩
    cases r with
    | nil => simp [Json.readChar, hbackslash]
    | cons e r => simp [Json.readChar, hbackslash]
  | escape h =>
    obtain ⟨hu, hlookup⟩ := escapes_lookup h
    exact ⟨by simp [Json.readChar, hu, hlookup], by simp⟩
  | unit h =>
    obtain ⟨u, rfl, hread⟩ := h.readUnit r
    refine ⟨?_, by simp⟩
    rw [List.cons_append, List.cons_append, readChar_backslash_u, hread]
    simp [not_surrogate c]
  | @pair t u hi lo c hhi hlo hhi' hlo' hc =>
    obtain ⟨t, rfl, hreadHi⟩ := hhi.readUnit (u ++ r)
    obtain ⟨u, rfl, hreadLo⟩ := hlo.readUnit r
    refine ⟨?_, by simp⟩
    have hsurrogate : 0xD800 ≤ 0xD800 + hi ∧ 0xD800 + hi < 0xDC00 := by omega
    rw [List.cons_append, List.cons_append, List.cons_append, List.cons_append, List.append_assoc,
      readChar_backslash_u, hreadHi]
    have hvalue : 0x10000 + 0x400 * (0xD800 + hi - 0xD800) + (0xDC00 + lo - 0xDC00) = c.toNat := by omega
    simp only [Option.bind_eq_bind, Option.bind_some, hsurrogate, and_self, if_true, List.cons_append,
      List.drop_succ_cons, List.drop_zero, hreadLo, hvalue, Char.ofNat_toNat]
    rfl

theorem StringChars.readChars {t cs : List Char} (h : StringChars t cs) (r : List Char) {n : ℕ}
    (hn : cs.length < n) : Json.readChars n (t ++ '"' :: r) = some (cs, r) := by
  induction h generalizing n with
  | nil =>
    obtain ⟨n, rfl⟩ := Nat.exists_eq_succ_of_ne_zero (Nat.ne_zero_of_lt hn)
    simp [Json.readChars]
  | @cons t u c cs h hs ih =>
    obtain ⟨n, rfl⟩ := Nat.exists_eq_succ_of_ne_zero (Nat.ne_zero_of_lt hn)
    obtain ⟨hread, hhead⟩ := h.readChar (u ++ '"' :: r)
    rw [List.append_assoc, Json.readChars, if_neg hhead, hread]
    have hrest := ih (Nat.lt_of_succ_lt_succ hn)
    simp [hrest]

/-- Every character of a string takes some of its text. -/
theorem StringChars.length_le {t cs : List Char} (h : StringChars t cs) : cs.length ≤ t.length := by
  induction h with
  | nil => exact Nat.le_refl 0
  | @cons t u c cs h hs ih =>
    have hne : t ≠ [] := by
      rintro rfl
      have hread := (h.readChar []).1
      cases hread
    have hpos := List.length_pos_iff.mpr hne
    simp only [List.length_cons, List.length_append]
    omega

/-- **A string**, whatever comes behind it. -/
theorem IsString.read {t : List Char} {s : String} (h : IsString t s) (r : List Char) :
    ∃ u, t = '"' :: u ∧ readString (u ++ r) = some (s, r) := by
  obtain ⟨h⟩ := h
  refine ⟨_, rfl, ?_⟩
  have hlength := h.length_le
  rw [List.append_assoc, List.singleton_append, readString, h.readChars r (by simp; omega)]
  simp

/-! ## What comes behind a value -/

/-- The characters of a kind end where one of another kind comes. -/
theorem takeWhile_stop {p : Char → Bool} {t r : List Char} (ht : ∀ c ∈ t, p c = true)
    (hr : ∀ c ∈ r.head?, p c = false) : (t ++ r).takeWhile p = t ∧ (t ++ r).dropWhile p = r := by
  rw [List.takeWhile_append_of_pos ht, List.dropWhile_append_of_pos ht]
  cases r with
  | nil => simp
  | cons c r => simp [hr c rfl]

theorem forall_head_cons {p : Char → Bool} {c : Char} (h : p c = false) (t : List Char) :
    ∀ d ∈ (c :: t).head?, p d = false := by
  intro d hd
  rwa [← Option.mem_some_iff.mp hd]

theorem Blank.skip_append {a t : List Char} (ha : Blank a) (ht : ∀ c ∈ t.head?, isBlank c = false) :
    skip (a ++ t) = t :=
  (takeWhile_stop (fun c hc => decide_eq_true (ha c hc)) ht).2

/-- No number goes on there. -/
def Stops (r : List Char) : Prop := ∀ c ∈ r.head?, isNumberChar c = false

theorem Blank.stops {b r : List Char} (hb : Blank b) (hr : Stops r) : Stops (b ++ r) := by
  cases b with
  | nil => exact hr
  | cons c b =>
    have hblank : [' ', '\t', '\n', '\r'].all (fun c => !isNumberChar c) = true := rfl
    intro c' hc'
    obtain rfl := Option.mem_some_iff.mp hc'
    simpa using List.all_eq_true.mp hblank c (hb c List.mem_cons_self)

theorem Number.chars {t : List Char} (h : Number t) : ∀ c ∈ t, isNumberChar c = true := by
  have hdigit : ∀ {c : Char}, c.isDigit = true → isNumberChar c = true := by
    intro c hc
    rw [isNumberChar, hc, Bool.true_or]
  obtain ⟨hminus, hi, hf, he⟩ := h
  refine List.forall_mem_append.mpr ⟨?_, List.forall_mem_append.mpr ⟨?_, List.forall_mem_append.mpr ⟨?_, ?_⟩⟩⟩
  · rcases hminus with rfl | rfl <;> exact List.all_eq_true.mp rfl
  · cases hi with
    | zero => exact List.all_eq_true.mp rfl
    | digits hc hne ht => exact List.forall_mem_cons.mpr ⟨hdigit hc, fun c hc => hdigit (ht c hc)⟩
  · cases hf with
    | absent => exact List.all_eq_true.mp rfl
    | digits h => exact List.forall_mem_cons.mpr ⟨rfl, fun c hc => hdigit (h.2 c hc)⟩
  · cases he with
    | absent => exact List.all_eq_true.mp rfl
    | digits he hsign h =>
      refine List.forall_mem_cons.mpr ⟨?_, List.forall_mem_append.mpr ⟨?_, fun c hc => hdigit (h.2 c hc)⟩⟩
      · rcases he with rfl | rfl <;> rfl
      · rcases hsign with rfl | rfl | rfl <;> exact List.all_eq_true.mp rfl

/-- A character that values begin with. -/
def IsFirst (c : Char) : Prop := c.isDigit = true ∨ c ∈ ['-', 'n', 't', 'f', '"', '[', '\x7b']

theorem IsFirst.ne {c d : Char} (h : IsFirst c)
    (hd : d.isDigit = false ∧ d ∉ ['-', 'n', 't', 'f', '"', '[', '\x7b']) : c ≠ d := by
  rintro rfl
  rcases h with h | h
  · exact absurd (hd.1.symm.trans h) (by decide)
  · exact hd.2 h

theorem Number.head {t : List Char} (h : Number t) : ∃ c u, t = c :: u ∧ (c.isDigit = true ∨ c = '-') := by
  obtain ⟨hminus, hi, hf, he⟩ := h
  rcases hminus with rfl | rfl
  · cases hi with
    | zero => exact ⟨'0', _, rfl, .inl rfl⟩
    | digits hc hne ht => exact ⟨_, _, rfl, .inl hc⟩
  · exact ⟨'-', _, rfl, .inr rfl⟩

theorem IsValue.head {t : List Char} {v : Value} (h : IsValue t v) : ∃ c u, t = c :: u ∧ IsFirst c := by
  cases h with
  | null => exact ⟨_, _, rfl, .inr (by decide)⟩
  | true => exact ⟨_, _, rfl, .inr (by decide)⟩
  | false => exact ⟨_, _, rfl, .inr (by decide)⟩
  | number h =>
    obtain ⟨c, u, rfl, hc | rfl⟩ := h.head
    · exact ⟨c, u, rfl, .inl hc⟩
    · exact ⟨_, _, rfl, .inr (by decide)⟩
  | string h =>
    obtain ⟨h⟩ := h
    exact ⟨_, _, rfl, .inr (by decide)⟩
  | array h => exact ⟨_, _, rfl, .inr (by decide)⟩
  | object h => exact ⟨_, _, rfl, .inr (by decide)⟩

/-- Blanks in front of a value are skipped, and it is not mistaken for the end of a list. -/
theorem IsValue.skip_append {a t : List Char} {v : Value} (h : IsValue t v) (ha : Blank a) (r : List Char) :
    skip (a ++ (t ++ r)) = t ++ r ∧ (t ++ r).head? ≠ some ']' := by
  obtain ⟨c, u, rfl, hc⟩ := h.head
  refine ⟨ha.skip_append ?_, by simpa using hc.ne (d := ']') (by decide)⟩
  intro c' hc'
  obtain rfl := Option.mem_some_iff.mp hc'
  rw [isBlank, decide_eq_false_iff_not]
  intro hmem
  simp only [List.mem_cons, List.not_mem_nil, or_false] at hmem
  rcases hmem with rfl | rfl | rfl | rfl <;> exact hc.ne (by decide) rfl

/-! ## Values -/

theorem Number.read {t : List Char} (h : Number t) {n : ℕ} {r : List Char} (hr : Stops r) :
    readValue (n + 1) (t ++ r) = some (.number t, r) := by
  have hother : ∀ c d : Char, (c.isDigit = true ∨ c = '-') → d.isDigit = false ∧ d ≠ '-' → c ≠ d := by
    rintro c d (hc | rfl) ⟨hdigit, hminus⟩ rfl
    · exact absurd (hdigit.symm.trans hc) (by decide)
    · exact hminus rfl
  obtain ⟨htake, hdrop⟩ := takeWhile_stop h.chars hr
  obtain ⟨c, u, rfl, hc⟩ := h.head
  rw [List.cons_append] at htake hdrop ⊢
  rw [readValue, if_neg (hother c _ hc (by decide)), if_neg (hother c _ hc (by decide)),
    if_neg (hother c _ hc (by decide)), if_neg (hother c _ hc (by decide)),
    if_neg (hother c _ hc (by decide)), if_neg (hother c _ hc (by decide)), htake, hdrop]

section Lists

variable {n : ℕ} {a b c d t k r : List Char} {v : Value} {key : String}

/-- The reader at a value of a list. -/
theorem readElements_value (ha : Blank a) (h : IsValue t v) (hb : Blank b)
    (hread : readValue n (t ++ (b ++ r)) = some (v, b ++ r)) (hr : ∀ c ∈ r.head?, isBlank c = false) :
    readElements (n + 1) (a ++ (t ++ (b ++ r))) =
      if r.head? = some ',' then (readElements n r.tail).map fun (vs, rest) => (v :: vs, rest)
      else some ([v], r.tail) := by
  obtain ⟨hskip, hhead⟩ := h.skip_append ha (b ++ r)
  rw [readElements, hskip, if_neg hhead, hread]
  simp only [Option.bind_eq_bind, Option.bind_some, hb.skip_append hr]
  split
  · cases readElements n r.tail <;> rfl
  · rfl

/-- The reader at a member of an object. -/
theorem readMembers_member (ha : Blank a) (hkey : IsString k key) (hb : Blank b) (hc : Blank c)
    (h : IsValue t v) (hd : Blank d) (hread : readValue n (t ++ (d ++ r)) = some (v, d ++ r))
    (hr : ∀ c ∈ r.head?, isBlank c = false) :
    readMembers (n + 1) (a ++ (k ++ (b ++ ':' :: (c ++ (t ++ (d ++ r)))))) =
      if r.head? = some ',' then (readMembers n r.tail).map fun (ms, rest) => ((key, v) :: ms, rest)
      else some ([(key, v)], r.tail) := by
  obtain ⟨u, rfl, hstring⟩ := hkey.read (b ++ ':' :: (c ++ (t ++ (d ++ r))))
  have hquote : skip (a ++ ('"' :: (u ++ (b ++ ':' :: (c ++ (t ++ (d ++ r))))))) =
      '"' :: (u ++ (b ++ ':' :: (c ++ (t ++ (d ++ r))))) := ha.skip_append (forall_head_cons rfl _)
  have hcolon : skip (b ++ ':' :: (c ++ (t ++ (d ++ r)))) = ':' :: (c ++ (t ++ (d ++ r))) :=
    hb.skip_append (forall_head_cons rfl _)
  obtain ⟨hskip, -⟩ := h.skip_append hc (d ++ r)
  rw [List.cons_append, readMembers, hquote, if_neg (by simp), List.tail_cons, hstring]
  simp only [Option.bind_eq_bind, Option.bind_some, hcolon, List.tail_cons, hskip, hread, hd.skip_append hr]
  split
  · cases readMembers n r.tail <;> rfl
  · rfl

end Lists

mutual

/-- **A value**, whatever comes behind it that no number goes on with. -/
theorem IsValue.read {t : List Char} {v : Value} (h : IsValue t v) {n : ℕ} (hn : 2 * t.length < n)
    {r : List Char} (hr : Stops r) : readValue n (t ++ r) = some (v, r) := by
  obtain ⟨n, rfl⟩ := Nat.exists_eq_succ_of_ne_zero (Nat.ne_zero_of_lt hn)
  match h with
  | .null => rfl
  | .true => rfl
  | .false => rfl
  | .number h => exact h.read hr
  | .string h =>
    obtain ⟨u, rfl, hstring⟩ := h.read r
    rw [List.cons_append, readValue, if_pos rfl, hstring]
    rfl
  | @IsValue.array t vs h =>
    simp only [List.length_cons, List.length_append, List.length_nil] at hn
    have helements := h.read (n := n) (by omega) r
    rw [List.cons_append, List.append_assoc, List.singleton_append, readValue, if_neg (by decide),
      if_pos rfl, helements]
    rfl
  | @IsValue.object t ms h =>
    simp only [List.length_cons, List.length_append, List.length_nil] at hn
    have hmembers := h.read (n := n) (by omega) r
    rw [List.cons_append, List.append_assoc, List.singleton_append, readValue, if_neg (by decide),
      if_neg (by decide), if_pos rfl, hmembers]
    rfl

theorem AreElements.read {t : List Char} {vs : List Value} (h : AreElements t vs) {n : ℕ}
    (hn : 2 * t.length + 1 < n) (r : List Char) : readElements n (t ++ ']' :: r) = some (vs, r) := by
  obtain ⟨n, rfl⟩ := Nat.exists_eq_succ_of_ne_zero (Nat.ne_zero_of_lt hn)
  match h with
  | .nil ht =>
    have hskip : skip (t ++ ']' :: r) = ']' :: r := ht.skip_append (forall_head_cons rfl _)
    rw [readElements, hskip]
    rfl
  | .one (@Text.mk a t b v ha h hb) =>
    simp only [List.length_append] at hn
    have hstops : Stops (b ++ ']' :: r) := hb.stops (forall_head_cons rfl _)
    have hread := h.read (n := n) (by omega) hstops
    rw [List.append_assoc, List.append_assoc, readElements_value ha h hb hread (forall_head_cons rfl _)]
    rfl
  | .cons (u := u) (@Text.mk a t b v ha h hb) hs =>
    simp only [List.length_append, List.length_cons] at hn
    have hstops : Stops (b ++ ',' :: (u ++ ']' :: r)) := hb.stops (forall_head_cons rfl _)
    have hread := h.read (n := n) (by omega) hstops
    have hrest := hs.read (n := n) (by omega) r
    rw [List.append_assoc, List.append_assoc, List.append_assoc, List.cons_append,
      readElements_value ha h hb hread (forall_head_cons rfl _), List.tail_cons, hrest]
    rfl

theorem AreMembers.read {t : List Char} {ms : List (String × Value)} (h : AreMembers t ms) {n : ℕ}
    (hn : 2 * t.length + 1 < n) (r : List Char) : readMembers n (t ++ '\x7d' :: r) = some (ms, r) := by
  obtain ⟨n, rfl⟩ := Nat.exists_eq_succ_of_ne_zero (Nat.ne_zero_of_lt hn)
  match h with
  | .nil ht =>
    have hskip : skip (t ++ '\x7d' :: r) = '\x7d' :: r := ht.skip_append (forall_head_cons rfl _)
    rw [readMembers, hskip]
    rfl
  | .one (@IsMember.mk a k b c t d key v ha hkey hb hc h hd) =>
    simp only [List.length_append, List.length_cons] at hn
    have hstops : Stops (d ++ '\x7d' :: r) := hd.stops (forall_head_cons rfl _)
    have hread := h.read (n := n) (by omega) hstops
    have hmember := readMembers_member ha hkey hb hc h hd hread (forall_head_cons rfl _)
    simp only [List.append_assoc, List.cons_append]
    rw [hmember]
    rfl
  | .cons (u := u) (@IsMember.mk a k b c t d key v ha hkey hb hc h hd) hs =>
    simp only [List.length_append, List.length_cons] at hn
    have hstops : Stops (d ++ ',' :: (u ++ '\x7d' :: r)) := hd.stops (forall_head_cons rfl _)
    have hread := h.read (n := n) (by omega) hstops
    have hrest := hs.read (n := n) (by omega) r
    have hmember := readMembers_member ha hkey hb hc h hd hread (forall_head_cons rfl _)
    simp only [List.append_assoc, List.cons_append]
    rw [hmember, List.tail_cons, hrest]
    rfl

end

/-- **A text** is read as the value it stands for. -/
theorem Text.read {t : List Char} {v : Value} (h : Text t v) : Json.read t = some v := by
  obtain ⟨ha, h, hb⟩ := h
  obtain ⟨hskip, -⟩ := h.skip_append ha _
  have hstops := hb.stops (r := []) (fun _ => nofun)
  rw [List.append_nil] at hstops
  rw [Json.read, hskip, h.read (by simp only [List.length_append]; omega) hstops]
  rfl

/-- **The grammar is unambiguous**: a text stands for one value only. -/
theorem Text.unique {t : List Char} {v v' : Value} (h : Text t v) (h' : Text t v') : v = v' :=
  Option.some.inj (h.read.symm.trans h'.read)

/-! ## The end of a text -/

/-- The last character that is not a blank. -/
def lastMark? (t : List Char) : Option Char := t.reverse.find? fun c => !isBlank c

theorem lastMark?_append {c : Char} (hc : isBlank c = false) {b : List Char} (hb : Blank b) (t : List Char) :
    lastMark? (t ++ c :: b) = some c := by
  have hskip : b.reverse.find? (fun c => !isBlank c) = none := by
    rw [List.find?_eq_none]
    intro d hd
    have hblank : isBlank d = true := decide_eq_true (hb d (List.mem_reverse.mp hd))
    rw [hblank]
    decide
  rw [lastMark?, List.reverse_append, List.reverse_cons, List.append_assoc, List.find?_append, hskip,
    Option.none_or, List.singleton_append, List.find?_cons_of_pos]
  rw [hc, Bool.not_false]

theorem IsValue.last {t : List Char} {v : Value} (h : IsValue t v) :
    ∃ u c, t = u ++ [c] ∧ isBlank c = .false ∧ c ≠ ':' := by
  cases h with
  | null => exact ⟨['n', 'u', 'l'], 'l', rfl, by decide, by decide⟩
  | true => exact ⟨['t', 'r', 'u'], 'e', rfl, by decide, by decide⟩
  | false => exact ⟨['f', 'a', 'l', 's'], 'e', rfl, by decide, by decide⟩
  | number h =>
    obtain ⟨c, u, rfl, -⟩ := h.head
    have hlast := h.chars _ (List.getLast_mem (List.cons_ne_nil c u))
    refine ⟨_, _, (List.dropLast_append_getLast (List.cons_ne_nil c u)).symm, ?_, ?_⟩
    · refine decide_eq_false fun hblank => ?_
      have hother := (Blank.stops (b := [(c :: u).getLast (List.cons_ne_nil c u)]) (r := [])
        (List.forall_mem_singleton.mpr hblank) nofun) _ rfl
      rw [hother] at hlast
      cases hlast
    · intro heq
      rw [heq] at hlast
      cases hlast
  | string h =>
    obtain ⟨h⟩ := h
    exact ⟨_, '"', List.cons_append.symm, by decide, by decide⟩
  | array h => exact ⟨_, ']', List.cons_append.symm, by decide, by decide⟩
  | object h => exact ⟨_, '\x7d', List.cons_append.symm, by decide, by decide⟩

/-- A text that stops behind a colon is none. -/
theorem Text.lastMark?_ne {t : List Char} {v : Value} (h : Text t v) : lastMark? t ≠ some ':' := by
  obtain ⟨ha, h, hb⟩ := h
  obtain ⟨u, c, rfl, hc, hne⟩ := h.last
  rw [List.append_assoc, List.singleton_append, ← List.append_assoc, lastMark?_append hc hb]
  exact fun heq => hne (Option.some.inj heq)

end EerieLeap.Lib.Json
