import Mathlib.Data.List.Forall2
import Mathlib.Tactic.Common

/-!
# CSV

A reader of comma separated values in the format of RFC 4180, with line feeds between the rows. A field
that begins with a quote ends at the next quote that is not doubled, and has commas, line breaks and
doubled quotes as they are; a field without quotes has none of these.

* `read`, `parse` : the reader;
* `Spelled` : how a field may be written; `parse_intercalate` : rows of such fields are read back;
* `quote_not_mem_of_read` : where fields are put between quotes without doubling those inside, a reader
  that finds the fields shows that there were none inside.
-/

namespace EerieLeap.Lib.Csv

/-! ## Reading -/

/-- Where the reader is: in front of a field, in a field without quotes, inside quotes, or behind a quote
that may have been the last one of its field. -/
inductive Place
  | start
  | bare
  | quoted
  | closed
deriving DecidableEq

/-- What is found from a place on: the rest of the field, the fields behind it in its row, and the rows
behind that. -/
structure Found where
  field : List Char
  fields : List (List Char)
  rows : List (List (List Char))
deriving DecidableEq

namespace Found

/-- Nothing more. -/
def last : Found := ⟨[], [], []⟩

def prepend (t : List Char) (x : Found) : Found := { x with field := t ++ x.field }

/-- Behind the comma after a field. -/
def comma (x : Found) : Found := ⟨[], x.field :: x.fields, x.rows⟩

/-- Behind the line break after a row. -/
def line (x : Found) : Found := ⟨[], [], (x.field :: x.fields) :: x.rows⟩

/-- All rows, when it is found from the start of a row on. -/
def all (x : Found) : List (List (List Char)) := (x.field :: x.fields) :: x.rows

@[simp] theorem prepend_nil : prepend [] = id := rfl

@[simp] theorem prepend_prepend (t u : List Char) (x : Found) :
    (x.prepend u).prepend t = x.prepend (t ++ u) := by simp [prepend]

end Found

/-- The reader; the last row may have a line break behind it. -/
def read : Place → List Char → Option Found
  | place, [] => if place = .quoted then none else some .last
  | .quoted, c :: s => if c = '"' then read .closed s else (read .quoted s).map (Found.prepend [c])
  | place, c :: s =>
    if c = ',' then (read .start s).map Found.comma
    else if c = '\n' then if s = [] then some .last else (read .start s).map Found.line
    else if c = '"' then
      match place with
      | .start => read .quoted s
      | .closed => (read .quoted s).map (Found.prepend [c])
      | _ => none
    else if place = .closed ∨ c = '\r' then none
    else (read .bare s).map (Found.prepend [c])

/-- The rows of a text, as lists of fields. -/
def parse (t : String) : Option (List (List String)) :=
  (read .start t.toList).map fun x => x.all.map fun row => row.map String.ofList

example : parse "a,\"b \"\"c\"\", d\"\n,e\n" = some [["a", "b \"c\", d"], ["", "e"]] := by decide
example : parse "a,\"b \"c\"" = none := by decide

theorem start_ne : Place.start ≠ .quoted := nofun

theorem closed_ne : Place.closed ≠ .quoted := nofun

section Read

variable {place : Place} {s : List Char}

theorem read_nil (h : place ≠ .quoted) : read place [] = some .last := by
  cases place <;> first | rfl | exact absurd rfl h

theorem read_comma (h : place ≠ .quoted) : read place (',' :: s) = (read .start s).map Found.comma := by
  cases place <;> first | rfl | exact absurd rfl h

theorem read_line (h : place ≠ .quoted) (hs : s ≠ []) :
    read place ('\n' :: s) = (read .start s).map Found.line := by
  cases place with
  | quoted => exact absurd rfl h
  | start => simp [read, hs]
  | bare => simp [read, hs]
  | closed => simp [read, hs]

theorem read_quote : read .start ('"' :: s) = read .quoted s := rfl

theorem read_quoted_quote : read .quoted ('"' :: s) = read .closed s := rfl

theorem read_closed_quote : read .closed ('"' :: s) = (read .quoted s).map (Found.prepend ['"']) := rfl

theorem read_quoted_cons {c : Char} (h : c ≠ '"') :
    read .quoted (c :: s) = (read .quoted s).map (Found.prepend [c]) := by
  simp [read, h]

end Read

/-! ## Writing -/

/-- The text ends, or the field does. -/
def Separated (s : List Char) : Prop := s = [] ∨ ∃ s', s = ',' :: s' ∨ s = '\n' :: s'

/-- A character that a field without quotes may have. -/
def Bare (c : Char) : Prop := c ∉ [',', '\n', '"', '\r']

instance : DecidablePred Bare := fun c => inferInstanceAs (Decidable (c ∉ [',', '\n', '"', '\r']))

/-- A text that is checked character by character. -/
theorem bare_of_all {t : List Char} (h : t.all (fun c => decide (Bare c)) = true) : ∀ c ∈ t, Bare c := by
  intro c hc
  exact of_decide_eq_true (List.all_eq_true.mp h c hc)

/-- A field with its quotes doubled. -/
def escape (t : List Char) : List Char := t.flatMap fun c => if c = '"' then ['"', '"'] else [c]

@[simp] theorem escape_nil : escape [] = [] := rfl

@[simp] theorem escape_quote (t : List Char) : escape ('"' :: t) = '"' :: '"' :: escape t := rfl

@[simp] theorem escape_cons {c : Char} (h : c ≠ '"') (t : List Char) : escape (c :: t) = c :: escape t := by
  simp [escape, h]

theorem escape_eq_self {t : List Char} (h : '"' ∉ t) : escape t = t := by
  induction t with
  | nil => rfl
  | cons c t ih =>
    rw [List.mem_cons, not_or] at h
    rw [escape_cons (Ne.symm h.1), ih h.2]

/-- `w` spells the field `t`. -/
inductive Spelled : List Char → List Char → Prop
  | bare {t : List Char} (h : ∀ c ∈ t, Bare c) : Spelled t t
  | quoted (t : List Char) : Spelled ('"' :: escape t ++ ['"']) t

section Field

variable {s : List Char}

theorem read_separated (hs : Separated s) {place : Place} (h : place ≠ .quoted) :
    read place s = read .start s := by
  rcases hs with rfl | ⟨s, rfl | rfl⟩
  · rw [read_nil h, read_nil start_ne]
  · rw [read_comma h, read_comma start_ne]
  · by_cases hs : s = []
    · cases place with
      | quoted => exact absurd rfl h
      | start => rfl
      | bare => simp [read, hs]
      | closed => simp [read, hs]
    · rw [read_line h hs, read_line start_ne hs]

theorem read_bare (hs : Separated s) {t : List Char} (ht : ∀ c ∈ t, Bare c) {place : Place}
    (h : place = .start ∨ place = .bare) :
    read place (t ++ s) = (read .start s).map (Found.prepend t) := by
  induction t generalizing place with
  | nil =>
    have hplace : place ≠ .quoted := by rintro rfl; simp at h
    rw [List.nil_append, read_separated hs hplace, Found.prepend_nil, Option.map_id]
    rfl
  | cons c t ih =>
    obtain ⟨hc, ht⟩ := List.forall_mem_cons.mp ht
    simp only [Bare, List.mem_cons, List.not_mem_nil, not_or, or_false] at hc
    have hread : read place (c :: (t ++ s)) = (read .bare (t ++ s)).map (Found.prepend [c]) := by
      rcases h with rfl | rfl <;> simp [read, hc]
    rw [List.cons_append, hread, ih ht (Or.inr rfl), Option.map_map]
    simp [Function.comp_def]

theorem read_quoted (t s : List Char) :
    read .quoted (escape t ++ '"' :: s) = (read .closed s).map (Found.prepend t) := by
  induction t with
  | nil =>
    rw [Found.prepend_nil, Option.map_id]
    rfl
  | cons c t ih =>
    by_cases hc : c = '"'
    · subst hc
      rw [escape_quote, List.cons_append, List.cons_append, read_quoted_quote, read_closed_quote, ih,
        Option.map_map]
      simp [Function.comp_def]
    · rw [escape_cons hc, List.cons_append, read_quoted_cons hc, ih, Option.map_map]
      simp [Function.comp_def]

/-- **A field** is read back. -/
theorem read_spelled (hs : Separated s) {w t : List Char} (h : Spelled w t) :
    read .start (w ++ s) = (read .start s).map (Found.prepend t) := by
  cases h with
  | bare h => exact read_bare hs h (Or.inl rfl)
  | quoted =>
    rw [List.cons_append, List.cons_append, List.append_assoc, List.singleton_append, read_quote,
      read_quoted, read_separated hs closed_ne]

end Field

/-! ## Rows -/

/-- A row of fields in front. -/
def Found.inFront : List (List Char) → Found → Found
  | [], x => x
  | [t], x => x.prepend t
  | t :: t' :: ts, x => (inFront (t' :: ts) x).comma.prepend t

theorem Found.all_inFront {ts : List (List Char)} (h : ts ≠ []) (rows : List (List (List Char))) :
    (Found.inFront ts ⟨[], [], rows⟩).all = ts :: rows := by
  induction ts with
  | nil => exact absurd rfl h
  | cons t ts ih =>
    cases ts with
    | nil => simp [inFront, prepend, all]
    | cons t' ts =>
      have ih := ih (List.cons_ne_nil _ _)
      simp only [all, List.cons.injEq] at ih
      simp [inFront, prepend, comma, all, ih]

theorem read_row {s : List Char} (hs : Separated s) {ws ts : List (List Char)}
    (h : List.Forall₂ Spelled ws ts) (hne : ws ≠ []) :
    read .start ([','].intercalate ws ++ s) = (read .start s).map (Found.inFront ts) := by
  induction h with
  | nil => exact absurd rfl hne
  | @cons w t ws ts hw hws ih =>
    cases hws with
    | nil =>
      rw [List.intercalate_singleton]
      exact read_spelled hs hw
    | @cons w' t' ws ts hw' hws =>
      have hcomma : Separated (',' :: ([','].intercalate (w' :: ws) ++ s)) := Or.inr ⟨_, Or.inl rfl⟩
      rw [List.intercalate_cons_cons, List.append_assoc, List.append_assoc, List.singleton_append,
        read_spelled hcomma hw, read_comma start_ne, ih (List.cons_ne_nil _ _), Option.map_map,
        Option.map_map]
      rfl

/-- The line spells the row. -/
def IsRow (line : String) (row : List String) : Prop :=
  ∃ ws : List String, ws ≠ [] ∧ line = ",".intercalate ws ∧
    List.Forall₂ (fun w t => Spelled w.toList t.toList) ws row

theorem IsRow.read {line : String} {row : List String} (h : IsRow line row) {s : List Char}
    (hs : Separated s) : row ≠ [] ∧
      Csv.read .start (line.toList ++ s) = (Csv.read .start s).map (Found.inFront (row.map String.toList)) := by
  obtain ⟨ws, hne, rfl, hws⟩ := h
  have hspelled : List.Forall₂ Spelled (ws.map String.toList) (row.map String.toList) :=
    List.forall₂_map_left_iff.mpr (List.forall₂_map_right_iff.mpr hws)
  constructor
  · rintro rfl
    exact hne (List.forall₂_nil_right_iff.mp hws)
  · rw [String.toList_intercalate]
    exact read_row hs hspelled (by simpa using hne)

theorem intercalate_ne_nil {sep w : List Char} (h : w ≠ []) (ws : List (List Char)) :
    sep.intercalate (w :: ws) ≠ [] := by
  cases ws <;> simp [List.intercalate_cons_cons, h]

theorem read_lines {lines : List String} {rows : List (List String)} (h : List.Forall₂ IsRow lines rows)
    (hne : lines ≠ []) (hlines : ∀ line ∈ lines, line ≠ "") :
    (read .start (['\n'].intercalate (lines.map String.toList))).map Found.all =
      some (rows.map fun row => row.map String.toList) := by
  induction h with
  | nil => exact absurd rfl hne
  | @cons line row lines rows hrow hrows ih =>
    obtain ⟨-, hlines⟩ := List.forall_mem_cons.mp hlines
    cases hrows with
    | nil =>
      obtain ⟨hne, hread⟩ := hrow.read (Or.inl rfl)
      rw [List.append_nil] at hread
      have hfields : row.map String.toList ≠ [] := by simpa using hne
      have hall := Found.all_inFront hfields []
      simp only [List.map_cons, List.map_nil, List.intercalate_singleton, hread, read_nil, ne_eq,
        reduceCtorEq, not_false_eq_true, Option.map_some, ← hall]
      rfl
    | @cons line' row' lines rows hrow' hrows =>
      obtain ⟨y, hy, hyall⟩ := Option.map_eq_some_iff.mp (ih (List.cons_ne_nil _ _) hlines)
      have hline' : line'.toList ≠ [] := by simpa using hlines line' List.mem_cons_self
      have hbehind : ['\n'].intercalate ((line' :: lines).map String.toList) ≠ [] :=
        intercalate_ne_nil hline' _
      obtain ⟨hne, hread⟩ := hrow.read (Or.inr ⟨_, Or.inr rfl⟩)
      rw [List.map_cons, List.map_cons, List.intercalate_cons_cons, List.append_assoc,
        List.singleton_append, ← List.map_cons, hread, read_line start_ne hbehind, hy]
      have hfields : row.map String.toList ≠ [] := by simpa using hne
      have hall := Found.all_inFront hfields y.all
      simp only [Option.map_some, List.map_cons] at hyall ⊢
      rw [← hyall, ← hall]
      rfl

/-- **Rows** are read back. -/
theorem parse_intercalate {lines : List String} {rows : List (List String)}
    (h : List.Forall₂ IsRow lines rows) (hne : lines ≠ []) (hlines : ∀ line ∈ lines, line ≠ "") :
    parse ("\n".intercalate lines) = some rows := by
  obtain ⟨x, hx, hall⟩ := Option.map_eq_some_iff.mp (read_lines h hne hlines)
  rw [parse, String.toList_intercalate]
  simp [hx, hall, Function.comp_def]

/-! ## Quotes that are not doubled -/

theorem field_eq_nil_of_read_closed {c : Char} {s : List Char} {x : Found} (hc : c ≠ '"')
    (h : read .closed (c :: s) = some x) : x.field = [] := by
  simp only [read, hc, if_false, true_or, if_true] at h
  split at h
  · obtain ⟨y, -, rfl⟩ := Option.map_eq_some_iff.mp h
    rfl
  · split at h
    · split at h
      · cases h
        rfl
      · obtain ⟨y, -, rfl⟩ := Option.map_eq_some_iff.mp h
        rfl
    · cases h

/-- The field between quotes has been written with its quotes doubled. -/
theorem eq_escape_of_read {s : List Char} {x : Found} :
    (read .quoted s = some x → ∃ rest, s = escape x.field ++ '"' :: rest) ∧
      (read .closed s = some x → ∃ rest, '"' :: s = escape x.field ++ '"' :: rest) := by
  induction s generalizing x with
  | nil =>
    refine ⟨nofun, ?_⟩
    rintro ⟨⟩
    exact ⟨[], rfl⟩
  | cons c s ih =>
    constructor
    · by_cases hc : c = '"'
      · subst hc
        exact (ih (x := x)).2
      · rw [read_quoted_cons hc, Option.map_eq_some_iff]
        rintro ⟨y, hy, rfl⟩
        obtain ⟨rest, rfl⟩ := (ih (x := y)).1 hy
        exact ⟨rest, by simp [Found.prepend, hc]⟩
    · intro h
      by_cases hc : c = '"'
      · subst hc
        rw [read_closed_quote, Option.map_eq_some_iff] at h
        obtain ⟨y, hy, rfl⟩ := h
        obtain ⟨rest, rfl⟩ := (ih (x := y)).1 hy
        exact ⟨rest, by simp [Found.prepend]⟩
      · exact ⟨c :: s, by rw [field_eq_nil_of_read_closed hc h]; rfl⟩

/-- Quotes at the head of a text, in front of those that a field has, are not in the field. -/
theorem replicate_append_escape_ne {rest rest' : List Char} (hrest : rest.head? ≠ some '"') (n : ℕ)
    (t : List Char) : List.replicate (n + 1) '"' ++ escape t ++ '"' :: rest' ≠ t ++ '"' :: rest := by
  induction t generalizing n with
  | nil =>
    intro heq
    simp only [List.replicate_succ, escape_nil, List.append_nil, List.cons_append, List.nil_append,
      List.cons.injEq, true_and] at heq
    rw [← heq] at hrest
    cases n <;> simp [List.replicate_succ] at hrest
  | cons c t ih =>
    intro heq
    rw [List.replicate_succ, List.cons_append, List.cons_append, List.cons_append, List.cons.injEq] at heq
    obtain ⟨rfl, heq⟩ := heq
    have hescape : List.replicate n '"' ++ escape ('"' :: t) = List.replicate (n + 2) '"' ++ escape t := by
      rw [escape_quote, List.replicate_add, List.append_assoc]
      rfl
    rw [hescape] at heq
    exact ih (n + 1) heq

/-- A field that is found as it stands between the quotes has none in it. -/
theorem quote_not_mem_of_escape {rest rest' : List Char} (hrest : rest.head? ≠ some '"')
    {t : List Char} (h : t ++ '"' :: rest = escape t ++ '"' :: rest') : '"' ∉ t := by
  induction t with
  | nil => exact List.not_mem_nil
  | cons c t ih =>
    by_cases hc : c = '"'
    · subst hc
      rw [escape_quote, List.cons_append, List.cons_append, List.cons_append, List.cons.injEq] at h
      exact absurd h.2.symm (replicate_append_escape_ne hrest 0 t)
    · rw [escape_cons hc, List.cons_append, List.cons_append, List.cons.injEq] at h
      rw [List.mem_cons, not_or]
      exact ⟨Ne.symm hc, ih h.2⟩

/-- Fields put between quotes as they are. -/
def wrap (t : List Char) : List Char := '"' :: t ++ ['"']

/-- **Only without quotes** inside are such fields found by the reader. -/
theorem quote_not_mem_of_read {s : List Char} (hs : s = [] ∨ ∃ s', s = '\n' :: s') {ts : List (List Char)}
    {x : Found} (h : read .start ([','].intercalate (ts.map wrap) ++ s) = some x)
    (hts : x.field :: x.fields = ts) : ∀ t ∈ ts, '"' ∉ t := by
  have hquote : s.head? ≠ some '"' := by
    rcases hs with rfl | ⟨s', rfl⟩ <;> simp
  induction ts generalizing x with
  | nil => cases hts
  | cons t ts ih =>
    obtain ⟨rfl, rfl⟩ := List.cons.inj hts
    rw [List.forall_mem_cons]
    cases hfields : x.fields with
    | nil =>
      rw [hfields, List.map_singleton, List.intercalate_singleton, wrap, List.append_assoc,
        List.cons_append, List.singleton_append, read_quote] at h
      obtain ⟨rest, hrest⟩ := eq_escape_of_read.1 h
      exact ⟨quote_not_mem_of_escape hquote hrest, List.forall_mem_nil _⟩
    | cons t ts =>
      rw [hfields, List.map_cons, List.map_cons, List.intercalate_cons_cons, wrap, List.append_assoc,
        List.append_assoc, List.append_assoc, List.cons_append, List.singleton_append,
        List.singleton_append, ← List.map_cons, read_quote] at h
      obtain ⟨rest, hrest⟩ := eq_escape_of_read.1 h
      have hfield : '"' ∉ x.field := quote_not_mem_of_escape (by simp) hrest
      -- so the reader has come to the next field
      rw [← escape_eq_self hfield, read_quoted, read_comma closed_ne, Option.map_map,
        Option.map_eq_some_iff] at h
      obtain ⟨y, hy, hxy⟩ := h
      have hfields' : x.fields = y.field :: y.fields := by rw [← hxy]; rfl
      rw [← hfields] at hy ⊢
      exact ⟨hfield, ih hy hfields'.symm⟩

end EerieLeap.Lib.Csv
