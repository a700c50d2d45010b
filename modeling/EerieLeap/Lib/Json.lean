import Mathlib.Data.List.Forall2
import Mathlib.Tactic.Common

/-!
# JSON texts

The grammar of RFC 8259 as a relation between texts and values. A number stands for its text, and a
surrogate in a string has to be one of a pair.

* `Number`, `IsString`, `IsValue`, `Text` : the grammar;
* `areElements_intercalate`, `areMembers_intercalate` : values and members that are joined with commas;
* `scan` : a reader that only knows where strings are, and which characters there may be between them;
  it gets to the end of every text of the grammar (`Text.clean`).
-/

namespace EerieLeap.Lib.Json

inductive Value
  | null
  | bool (b : Bool)
  | number (text : List Char)
  | string (s : String)
  | array (elements : List Value)
  | object (members : List (String × Value))

/-! ## Numbers -/

def Digits (t : List Char) : Prop := t ≠ [] ∧ ∀ c ∈ t, c.isDigit = true

inductive Integer : List Char → Prop
  | zero : Integer ['0']
  | digits {c : Char} {t : List Char} (hc : c.isDigit = true) (hne : c ≠ '0')
      (ht : ∀ d ∈ t, d.isDigit = true) : Integer (c :: t)

theorem integer_of_digits {t : List Char} (h : Digits t) (hhead : t.head? ≠ some '0') : Integer t := by
  obtain ⟨hne, hdigits⟩ := h
  obtain ⟨c, t, rfl⟩ := List.exists_cons_of_ne_nil hne
  obtain ⟨hc, ht⟩ := List.forall_mem_cons.mp hdigits
  exact .digits hc (fun hzero => hhead (by rw [hzero]; rfl)) ht

inductive Fraction : List Char → Prop
  | absent : Fraction []
  | digits {t : List Char} (h : Digits t) : Fraction ('.' :: t)

inductive Exponent : List Char → Prop
  | absent : Exponent []
  | digits {e : Char} {sign t : List Char} (he : e = 'e' ∨ e = 'E')
      (hsign : sign = [] ∨ sign = ['+'] ∨ sign = ['-']) (h : Digits t) : Exponent (e :: (sign ++ t))

inductive Number : List Char → Prop
  | mk {minus i f e : List Char} (hminus : minus = [] ∨ minus = ['-']) (hi : Integer i) (hf : Fraction f)
      (he : Exponent e) : Number (minus ++ (i ++ (f ++ e)))

theorem Integer.number {t : List Char} (h : Integer t) : Number t := by
  have hnumber := Number.mk (Or.inl rfl) h .absent .absent
  rwa [List.nil_append, List.append_nil, List.append_nil] at hnumber

/-! ## Strings -/

/-- What the character behind a backslash stands for. -/
def escapes : List (Char × Char) :=
  [('"', '"'), ('\\', '\\'), ('/', '/'), ('b', Char.ofNat 0x08), ('f', Char.ofNat 0x0C), ('n', '\n'),
    ('r', '\r'), ('t', '\t')]

def hexDigit? (c : Char) : Option ℕ :=
  if '0' ≤ c ∧ c ≤ '9' then some (c.toNat - 48)
  else if 'a' ≤ c ∧ c ≤ 'f' then some (c.toNat - 87)
  else if 'A' ≤ c ∧ c ≤ 'F' then some (c.toNat - 55)
  else none

/-- Four hexadecimal digits behind a backslash. -/
inductive Unit16 : List Char → ℕ → Prop
  | mk {a b c d : Char} {i j k l : ℕ} (ha : hexDigit? a = some i) (hb : hexDigit? b = some j)
      (hc : hexDigit? c = some k) (hd : hexDigit? d = some l) :
      Unit16 ['\\', 'u', a, b, c, d] (16 * (16 * (16 * i + j) + k) + l)

inductive StringChar : List Char → Char → Prop
  | plain {c : Char} (h : 0x20 ≤ c.toNat) (hquote : c ≠ '"') (hbackslash : c ≠ '\\') : StringChar [c] c
  | escape {e c : Char} (h : (e, c) ∈ escapes) : StringChar ['\\', e] c
  | unit {t : List Char} {c : Char} (h : Unit16 t c.toNat) : StringChar t c
  | pair {t u : List Char} {hi lo : ℕ} {c : Char} (hhi : Unit16 t (0xD800 + hi)) (hlo : Unit16 u (0xDC00 + lo))
      (hhi' : hi < 0x400) (hlo' : lo < 0x400) (hc : c.toNat = 0x10000 + 0x400 * hi + lo) :
      StringChar (t ++ u) c

inductive StringChars : List Char → List Char → Prop
  | nil : StringChars [] []
  | cons {t u : List Char} {c : Char} {cs : List Char} (h : StringChar t c) (hs : StringChars u cs) :
      StringChars (t ++ u) (c :: cs)

inductive IsString : List Char → String → Prop
  | mk {t : List Char} {s : String} (h : StringChars t s.toList) : IsString ('"' :: (t ++ ['"'])) s

/-! ## Values -/

def Blank (t : List Char) : Prop := ∀ c ∈ t, c ∈ [' ', '\t', '\n', '\r']

mutual

inductive IsValue : List Char → Value → Prop
  | null : IsValue ['n', 'u', 'l', 'l'] .null
  | true : IsValue ['t', 'r', 'u', 'e'] (.bool .true)
  | false : IsValue ['f', 'a', 'l', 's', 'e'] (.bool .false)
  | number {t : List Char} (h : Number t) : IsValue t (.number t)
  | string {t : List Char} {s : String} (h : IsString t s) : IsValue t (.string s)
  | array {t : List Char} {vs : List Value} (h : AreElements t vs) : IsValue ('[' :: (t ++ [']'])) (.array vs)
  | object {t : List Char} {ms : List (String × Value)} (h : AreMembers t ms) :
      IsValue ('\x7b' :: (t ++ ['\x7d'])) (.object ms)

/-- A value, and blanks around it; a whole text is one. -/
inductive Text : List Char → Value → Prop
  | mk {a t b : List Char} {v : Value} (ha : Blank a) (h : IsValue t v) (hb : Blank b) : Text (a ++ (t ++ b)) v

inductive AreElements : List Char → List Value → Prop
  | nil {t : List Char} (ht : Blank t) : AreElements t []
  | one {t : List Char} {v : Value} (h : Text t v) : AreElements t [v]
  | cons {t u : List Char} {v v' : Value} {vs : List Value} (h : Text t v) (hs : AreElements u (v' :: vs)) :
      AreElements (t ++ ',' :: u) (v :: v' :: vs)

inductive AreMembers : List Char → List (String × Value) → Prop
  | nil {t : List Char} (ht : Blank t) : AreMembers t []
  | one {t : List Char} {m : String × Value} (h : IsMember t m) : AreMembers t [m]
  | cons {t u : List Char} {m m' : String × Value} {ms : List (String × Value)} (h : IsMember t m)
      (hs : AreMembers u (m' :: ms)) : AreMembers (t ++ ',' :: u) (m :: m' :: ms)

inductive IsMember : List Char → String × Value → Prop
  | mk {a k b c t d : List Char} {key : String} {v : Value} (ha : Blank a) (hkey : IsString k key) (hb : Blank b)
      (hc : Blank c) (h : IsValue t v) (hd : Blank d) :
      IsMember (a ++ (k ++ (b ++ ':' :: (c ++ (t ++ d))))) (key, v)

end

theorem blank_nil : Blank [] := fun _ hc => absurd hc List.not_mem_nil

theorem blank_space : Blank [' '] := by
  intro c hc
  rw [List.mem_singleton.mp hc]
  exact List.mem_cons_self

theorem Blank.append {t u : List Char} (ht : Blank t) (hu : Blank u) : Blank (t ++ u) :=
  List.forall_mem_append.mpr ⟨ht, hu⟩

theorem IsValue.text {t : List Char} {v : Value} (h : IsValue t v) : Text t v := by
  have htext := Text.mk blank_nil h blank_nil
  rwa [List.nil_append, List.append_nil] at htext

/-- A key without blanks, and a value with some in front. -/
theorem isMember_of {k a t : List Char} {key : String} {v : Value} (hkey : IsString k key) (ha : Blank a)
    (h : IsValue t v) : IsMember (k ++ ':' :: (a ++ t)) (key, v) := by
  have hmember := IsMember.mk blank_nil hkey blank_nil ha h blank_nil
  rwa [List.nil_append, List.nil_append, List.append_nil] at hmember

/-! ## Lists -/

section Lists

variable {w : List Char} (hw : Blank w)
include hw

theorem Text.blank_append {t : List Char} {v : Value} (h : Text t v) : Text (w ++ t) v := by
  obtain ⟨ha, h, hb⟩ := h
  rw [← List.append_assoc]
  exact .mk (hw.append ha) h hb

theorem AreElements.blank_append {t : List Char} {vs : List Value} (h : AreElements t vs) :
    AreElements (w ++ t) vs := by
  cases h with
  | nil ht => exact .nil (hw.append ht)
  | one h => exact .one (h.blank_append hw)
  | cons h hs =>
    rw [← List.append_assoc]
    exact .cons (h.blank_append hw) hs

theorem IsMember.blank_append {t : List Char} {m : String × Value} (h : IsMember t m) :
    IsMember (w ++ t) m := by
  obtain ⟨ha, hkey, hb, hc, h, hd⟩ := h
  rw [← List.append_assoc]
  exact .mk (hw.append ha) hkey hb hc h hd

theorem AreMembers.blank_append {t : List Char} {ms : List (String × Value)} (h : AreMembers t ms) :
    AreMembers (w ++ t) ms := by
  cases h with
  | nil ht => exact .nil (hw.append ht)
  | one h => exact .one (h.blank_append hw)
  | cons h hs =>
    rw [← List.append_assoc]
    exact .cons (h.blank_append hw) hs

/-- **Elements** that are joined with commas. -/
theorem areElements_intercalate {ts : List (List Char)} {vs : List Value} (h : List.Forall₂ Text ts vs) :
    AreElements ((',' :: w).intercalate ts) vs := by
  induction h with
  | nil => exact .nil blank_nil
  | @cons t v ts vs ht hts ih =>
    cases hts with
    | nil =>
      rw [List.intercalate_singleton]
      exact .one ht
    | cons ht' hts =>
      rw [List.intercalate_cons_cons, List.append_assoc, List.cons_append]
      exact .cons ht (ih.blank_append hw)

/-- **Members** that are joined with commas. -/
theorem areMembers_intercalate {ts : List (List Char)} {ms : List (String × Value)}
    (h : List.Forall₂ IsMember ts ms) : AreMembers ((',' :: w).intercalate ts) ms := by
  induction h with
  | nil => exact .nil blank_nil
  | @cons t m ts ms ht hts ih =>
    cases hts with
    | nil =>
      rw [List.intercalate_singleton]
      exact .one ht
    | cons ht' hts =>
      rw [List.intercalate_cons_cons, List.append_assoc, List.cons_append]
      exact .cons ht (ih.blank_append hw)

end Lists

/-! ## Between strings -/

/-- Where the reader is: outside strings, inside one, or behind a backslash. -/
inductive Place
  | outside
  | inside
  | escaped

/-- The character may stand outside strings. -/
def outside (c : Char) : Bool :=
  c.isDigit || c ∈ [' ', '\t', '\n', '\r', '\x7b', '\x7d', '[', ']', ':', ',', '+', '-', '.', 'e', 'E',
    'n', 'u', 'l', 't', 'r', 'f', 'a', 's']

def step : Place → Char → Option Place
  | .outside, c => if c = '"' then some .inside else if outside c then some .outside else none
  | .inside, c => if c = '"' then some .outside else if c = '\\' then some .escaped else some .inside
  | .escaped, _ => some .inside

def scan (place : Place) (t : List Char) : Option Place := t.foldlM step place

theorem scan_append (place : Place) (t u : List Char) :
    scan place (t ++ u) = (scan place t).bind fun place' => scan place' u := List.foldlM_append

theorem scan_cons (place : Place) (c : Char) (t : List Char) :
    scan place (c :: t) = (step place c).bind fun place' => scan place' t := List.foldlM_cons

/-- The text is read from the outside to the outside. -/
def Clean (t : List Char) : Prop := scan .outside t = some .outside

/-- There is a character outside strings where there may be none. -/
def Dirty (t : List Char) : Prop := scan .outside t = none

theorem Clean.append {t u : List Char} (ht : Clean t) (hu : Clean u) : Clean (t ++ u) := by
  rw [Clean, scan_append, ht]
  exact hu

theorem Clean.append_dirty {t u : List Char} (ht : Clean t) (hu : Dirty u) : Dirty (t ++ u) := by
  rw [Dirty, scan_append, ht]
  exact hu

theorem Dirty.append {t : List Char} (ht : Dirty t) (u : List Char) : Dirty (t ++ u) := by
  rw [Dirty, scan_append, ht]
  rfl

theorem clean_of_outside {t : List Char} (h : ∀ c ∈ t, c ≠ '"' ∧ outside c = true) : Clean t := by
  induction t with
  | nil => rfl
  | cons c t ih =>
    obtain ⟨⟨hquote, hc⟩, ht⟩ := List.forall_mem_cons.mp h
    rw [Clean, scan_cons, step, if_neg hquote, if_pos hc]
    exact ih ht

theorem clean_digits {t : List Char} (h : ∀ c ∈ t, c.isDigit = true) : Clean t := by
  refine clean_of_outside fun c hc => ⟨?_, ?_⟩
  · rintro rfl
    exact absurd (h _ hc) (by decide)
  · rw [outside, h c hc, Bool.true_or]

theorem Blank.clean {t : List Char} (h : Blank t) : Clean t := by
  refine clean_of_outside fun c hc => ?_
  have hmem := h c hc
  simp only [List.mem_cons, List.not_mem_nil, or_false] at hmem
  rcases hmem with rfl | rfl | rfl | rfl <;> decide

theorem Number.clean {t : List Char} (h : Number t) : Clean t := by
  obtain ⟨hminus, hi, hf, he⟩ := h
  refine Clean.append ?_ (Clean.append ?_ (Clean.append ?_ ?_))
  · rcases hminus with rfl | rfl <;> rfl
  · cases hi with
    | zero => rfl
    | digits hc hne ht => exact clean_digits (List.forall_mem_cons.mpr ⟨hc, ht⟩)
  · cases hf with
    | absent => rfl
    | @digits t h => exact Clean.append (t := ['.']) rfl (clean_digits h.2)
  · cases he with
    | absent => rfl
    | @digits e sign t he hsign h =>
      have hmark : Clean (e :: sign) := by
        rcases he with rfl | rfl <;> rcases hsign with rfl | rfl | rfl <;> rfl
      exact hmark.append (clean_digits h.2)

theorem hexDigit_ne {c : Char} {v : ℕ} (h : hexDigit? c = some v) : c ≠ '"' ∧ c ≠ '\\' := by
  constructor <;> rintro rfl <;> cases h

theorem step_inside {c : Char} (hquote : c ≠ '"') (hbackslash : c ≠ '\\') :
    step .inside c = some .inside := by
  rw [step, if_neg hquote, if_neg hbackslash]

theorem Unit16.scan_inside {t : List Char} {v : ℕ} (h : Unit16 t v) : scan .inside t = some .inside := by
  obtain ⟨ha, hb, hc, hd⟩ := h
  have hstep : ∀ {c : Char} {v : ℕ}, hexDigit? c = some v → step .inside c = some .inside :=
    fun h => step_inside (hexDigit_ne h).1 (hexDigit_ne h).2
  have hescape : ∀ t, scan .inside ('\\' :: 'u' :: t) = scan .inside t := fun _ => rfl
  simp only [hescape, scan_cons, hstep ha, hstep hb, hstep hc, hstep hd, Option.bind_some]
  rfl

theorem StringChar.scan_inside {t : List Char} {c : Char} (h : StringChar t c) :
    scan .inside t = some .inside := by
  cases h with
  | plain h hquote hbackslash =>
    rw [scan_cons, step_inside hquote hbackslash]
    rfl
  | escape h => rfl
  | unit h => exact h.scan_inside
  | pair hhi hlo hhi' hlo' hc =>
    rw [scan_append, hhi.scan_inside]
    exact hlo.scan_inside

theorem StringChars.scan_inside {t cs : List Char} (h : StringChars t cs) :
    scan .inside t = some .inside := by
  induction h with
  | nil => rfl
  | cons h hs ih =>
    rw [scan_append, h.scan_inside]
    exact ih

theorem IsString.clean {t : List Char} {s : String} (h : IsString t s) : Clean t := by
  obtain ⟨h⟩ := h
  have hquote : ∀ t, scan .outside ('"' :: t) = scan .inside t := fun _ => rfl
  rw [Clean, hquote, scan_append, h.scan_inside]
  rfl

theorem dirty_intercalate {w : List Char} (hw : Clean w) {ts : List (List Char)}
    (h : ∀ t ∈ ts, Clean t ∨ Dirty t) (hdirty : ∃ t ∈ ts, Dirty t) : Dirty (w.intercalate ts) := by
  induction ts with
  | nil =>
    obtain ⟨t, ht, -⟩ := hdirty
    exact absurd ht List.not_mem_nil
  | cons t ts ih =>
    obtain ⟨ht, hts⟩ := List.forall_mem_cons.mp h
    cases ts with
    | nil =>
      obtain ⟨t', ht', hdirty⟩ := hdirty
      rw [List.mem_singleton.mp ht'] at hdirty
      rwa [List.intercalate_singleton]
    | cons t' ts =>
      rw [List.intercalate_cons_cons, List.append_assoc]
      rcases ht with hclean | hdirty'
      · refine hclean.append_dirty (hw.append_dirty (ih hts ?_))
        obtain ⟨u, hu, hdirty⟩ := hdirty
        rcases List.mem_cons.mp hu with rfl | hu
        · exact absurd (hclean.symm.trans hdirty) nofun
        · exact ⟨u, hu, hdirty⟩
      · exact hdirty'.append _

/-- `t` between two characters. -/
theorem Clean.between {t : List Char} (h : Clean t) {l r : Char} (hl : Clean [l]) (hr : Clean [r]) :
    Clean (l :: (t ++ [r])) := Clean.append hl (Clean.append h hr)

mutual

theorem IsValue.clean {t : List Char} {v : Value} (h : IsValue t v) : Clean t :=
  match h with
  | .null => rfl
  | .true => rfl
  | .false => rfl
  | .number h => h.clean
  | .string h => h.clean
  | .array h => h.clean.between rfl rfl
  | .object h => h.clean.between rfl rfl

theorem Text.clean {t : List Char} {v : Value} (h : Text t v) : Clean t :=
  match h with
  | .mk ha h hb => ha.clean.append (h.clean.append hb.clean)

theorem AreElements.clean {t : List Char} {vs : List Value} (h : AreElements t vs) : Clean t :=
  match h with
  | .nil ht => ht.clean
  | .one h => h.clean
  | .cons h hs => h.clean.append (Clean.append (t := [',']) rfl hs.clean)

theorem AreMembers.clean {t : List Char} {ms : List (String × Value)} (h : AreMembers t ms) : Clean t :=
  match h with
  | .nil ht => ht.clean
  | .one h => h.clean
  | .cons h hs => h.clean.append (Clean.append (t := [',']) rfl hs.clean)

theorem IsMember.clean {t : List Char} {m : String × Value} (h : IsMember t m) : Clean t :=
  match h with
  | .mk ha hkey hb hc h hd => ha.clean.append (hkey.clean.append (hb.clean.append
      (Clean.append (t := [':']) rfl (hc.clean.append (h.clean.append hd.clean)))))

end

end EerieLeap.Lib.Json
