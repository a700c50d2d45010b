import EerieLeap.LogsParser.Python
import Mathlib.Data.Nat.Log

/-!
# How Python prints floats

`repr` of a float is the shortest decimal that reads back as the float, and of these the nearest to it.
It is computed here in exact arithmetic, on numbers written as fractions, and gives an instance of
`PyText`.

* `Ratio.toDouble` : the double nearest to a number;
* `shortest` : the shortest decimal that reads back;
* `doubleText`, `PyText.cpython` : the text;
* `PyText.Plain` : numbers are written without commas and line breaks, which `cpython_plain` shows of
  that text.
-/

namespace EerieLeap.LogsParser

/-! ## Doubles -/

/-- A number that is not negative, as a fraction. -/
structure Ratio where
  num : ℕ
  den : ℕ

namespace Ratio

def ofNat (n : ℕ) : Ratio := ⟨n, 1⟩

/-- `x * base ^ k`. -/
def scale (base : ℕ) (k : ℤ) (x : Ratio) : Ratio where
  num := x.num * base ^ k.toNat
  den := x.den * base ^ (-k).toNat

/-- The largest `k` with `base ^ k ≤ x`. -/
def floorLog (base : ℕ) (x : Ratio) : ℤ :=
  let k : ℤ := Nat.log base x.num - Nat.log base x.den
  let y := x.scale base (-k)
  if y.den ≤ y.num then k else k - 1

def floor (x : Ratio) : ℕ := x.num / x.den

/-- The nearest integer, and of two the even one. -/
def round (x : Ratio) : ℕ :=
  let rest := x.num % x.den
  if 2 * rest < x.den then x.floor
  else if x.den < 2 * rest then x.floor + 1
  else x.floor + x.floor % 2

/-- The nearest double, of 53 bits; numbers are in range here. -/
def toDouble (x : Ratio) : Ratio :=
  let e := max (-1074) (x.floorLog 2 - 52)
  (ofNat (x.scale 2 (-e)).round).scale 2 e

def same (x y : Ratio) : Bool := x.num * y.den = y.num * x.den

end Ratio

/-! ## Decimals -/

/-- The shortest decimal `d * 10 ^ e` that reads back as the double `x`, of `n` digits or more, where
`10 ^ k ≤ x < 10 ^ (k + 1)`; 17 digits always do. -/
def shortest (x : Ratio) (k : ℤ) : ℕ → ℕ → ℕ × ℤ
  | 0, n => ((x.scale 10 (n - 1 - k)).round, k - n + 1)
  | fuel + 1, n =>
    let y := x.scale 10 (n - 1 - k)
    let reads (d : ℕ) : Bool := ((Ratio.ofNat d).scale 10 (k - n + 1)).toDouble.same x
    -- the nearest one may not read back where the doubles below are denser than those above
    let other := if y.round = y.floor then y.floor + 1 else y.floor
    if reads y.round then (y.round, k - n + 1)
    else if reads other then (other, k - n + 1)
    else shortest x k fuel (n + 1)

/-- The text of `0.d₁d₂… * 10 ^ point`, with an exponent when it is small or large. -/
def decimalText (digits : List Char) (point : ℤ) : List Char :=
  if -4 < point ∧ point ≤ 16 then
    if point ≤ 0 then ['0', '.'] ++ List.replicate (-point).toNat '0' ++ digits
    else if digits.length ≤ point.toNat then
      digits ++ List.replicate (point.toNat - digits.length) '0' ++ ['.', '0']
    else digits.take point.toNat ++ '.' :: digits.drop point.toNat
  else
    let exponent := (point - 1).natAbs
    digits.take 1 ++ (if digits.length ≤ 1 then [] else '.' :: digits.drop 1) ++
      ['e', if point - 1 < 0 then '-' else '+'] ++
      (if exponent < 10 then ['0'] else []) ++ (Nat.repr exponent).toList

/-- `repr` of a double that is not negative. -/
def doubleText (x : Ratio) : List Char :=
  if x.num = 0 then ['0', '.', '0']
  else
    let (d, e) := shortest x (x.floorLog 10) 16 1
    let digits := (Nat.repr d).toList
    decimalText (digits.reverse.dropWhile (· = '0')).reverse (digits.length + e)

/-- The absolute value of a finite float with the given 32-bit pattern. -/
def floatValue (x : Word 4) : Ratio :=
  let exponent : ℕ := (x.toNat / 2 ^ 23) % 256
  let fraction : ℕ := x.toNat % 2 ^ 23
  if exponent = 0 then (Ratio.ofNat fraction).scale 2 (-149)
  else (Ratio.ofNat (2 ^ 23 + fraction)).scale 2 (exponent - 150)

/-- The text of floats in CPython. -/
def PyText.cpython : PyText where
  repr x := String.ofList ((if x.msb then ['-'] else []) ++ doubleText (floatValue x))
  quotient a b := String.ofList (doubleText (Ratio.toDouble ⟨a, b⟩))

example : PyText.cpython.repr 0x42B40FA0#32 = "90.030517578125" := by decide +kernel
example : PyText.cpython.quotient 276 1000 = "0.276" := by decide +kernel

/-! ## Without commas and line breaks -/

/-- The text is not empty, and has no comma and no line break. -/
structure PlainText (t : String) : Prop where
  ne_empty : t ≠ ""
  comma : ',' ∉ t.toList
  newline : '\n' ∉ t.toList

/-- Numbers are written without commas and line breaks. -/
structure PyText.Plain (py : PyText) : Prop where
  repr : ∀ x, PlainText (py.repr x)
  quotient : ∀ a b, PlainText (py.quotient a b)

/-- A character that numbers are written with. -/
def NumberChar (c : Char) : Prop := c.isDigit = true ∨ c ∈ ['.', 'e', '+', '-']

instance : DecidablePred NumberChar := fun c =>
  inferInstanceAs (Decidable (c.isDigit = true ∨ c ∈ ['.', 'e', '+', '-']))

theorem plainText_ofList {cs : List Char} (hne : cs ≠ []) (hcs : ∀ c ∈ cs, NumberChar c) :
    PlainText (String.ofList cs) := by
  have hnot : ∀ c, ¬ NumberChar c → c ∉ (String.ofList cs).toList := by
    intro c hc hmem
    rw [String.toList_ofList] at hmem
    exact hc (hcs c hmem)
  refine ⟨?_, hnot ',' (by decide), hnot '\n' (by decide)⟩
  intro hempty
  exact hne (by simpa using congrArg String.toList hempty)

theorem numberChar_repr {n : ℕ} {c : Char} (hc : c ∈ (Nat.repr n).toList) : NumberChar c := by
  rw [Nat.toList_repr] at hc
  exact Or.inl (Nat.isDigit_of_mem_toDigits (by decide) (by decide) hc)

theorem decimalText_ne_nil (digits : List Char) (point : ℤ) : decimalText digits point ≠ [] := by
  unfold decimalText
  split_ifs <;> simp

/-- A text that is checked character by character. -/
theorem numberChar_of_all {cs : List Char} (h : cs.all (fun c => decide (NumberChar c)) = true) :
    ∀ c ∈ cs, NumberChar c := by
  intro c hc
  exact of_decide_eq_true (List.all_eq_true.mp h c hc)

theorem numberChar_replicate (n : ℕ) : ∀ c ∈ List.replicate n '0', NumberChar c := by
  intro c hc
  rw [List.eq_of_mem_replicate hc]
  decide

theorem numberChar_decimalText {digits : List Char} (h : ∀ c ∈ digits, NumberChar c) (point : ℤ) :
    ∀ c ∈ decimalText digits point, NumberChar c := by
  have htake : ∀ n, ∀ c ∈ digits.take n, NumberChar c := fun n c hc => h c (List.mem_of_mem_take hc)
  have hdrop : ∀ n, ∀ c ∈ '.' :: digits.drop n, NumberChar c := by
    intro n c hc
    rcases List.mem_cons.mp hc with rfl | hc
    · decide
    · exact h c (List.mem_of_mem_drop hc)
  unfold decimalText
  split
  · split
    · refine List.forall_mem_append.mpr ⟨List.forall_mem_append.mpr ⟨numberChar_of_all rfl, ?_⟩, h⟩
      exact numberChar_replicate _
    · split
      · refine List.forall_mem_append.mpr ⟨List.forall_mem_append.mpr ⟨h, ?_⟩, numberChar_of_all rfl⟩
        exact numberChar_replicate _
      · exact List.forall_mem_append.mpr ⟨htake _, hdrop _⟩
  · -- mantissa, exponent mark, padding and exponent
    refine List.forall_mem_append.mpr ⟨List.forall_mem_append.mpr ⟨List.forall_mem_append.mpr
      ⟨List.forall_mem_append.mpr ⟨htake 1, ?_⟩, ?_⟩, ?_⟩, fun c => numberChar_repr⟩
    · split
      · exact fun c hc => absurd hc List.not_mem_nil
      · exact hdrop 1
    · split <;> exact numberChar_of_all rfl
    · split <;> exact numberChar_of_all rfl

theorem numberChar_doubleText (x : Ratio) : ∀ c ∈ doubleText x, NumberChar c := by
  unfold doubleText
  split
  · exact numberChar_of_all rfl
  · refine numberChar_decimalText ?_ _
    intro c hc
    have hc := (List.dropWhile_sublist _).mem (List.mem_reverse.mp hc)
    exact numberChar_repr (List.mem_reverse.mp hc)

theorem doubleText_ne_nil (x : Ratio) : doubleText x ≠ [] := by
  unfold doubleText
  split
  · simp
  · exact decimalText_ne_nil _ _

/-- **CPython** writes numbers without commas and line breaks. -/
theorem PyText.cpython_plain : PyText.cpython.Plain where
  repr x := by
    refine plainText_ofList (by simp [doubleText_ne_nil]) (List.forall_mem_append.mpr ⟨?_, ?_⟩)
    · split <;> exact numberChar_of_all rfl
    · exact numberChar_doubleText _
  quotient a b := plainText_ofList (doubleText_ne_nil _) (numberChar_doubleText _)

/-- So are the values that are not finite. -/
theorem PyText.Plain.strFloat {py : PyText} (h : py.Plain) (x : Word 4) :
    PlainText (LogsParser.strFloat py x) := by
  unfold LogsParser.strFloat floatText
  split
  · exact ⟨by decide, by decide, by decide⟩
  · split
    · split
      · exact ⟨by decide, by decide, by decide⟩
      · exact ⟨by decide, by decide, by decide⟩
    · exact h.repr x

end EerieLeap.LogsParser
