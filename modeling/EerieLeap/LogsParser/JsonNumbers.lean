import EerieLeap.LogsParser.PythonFloat
import EerieLeap.Lib.Json
import Mathlib.Data.List.DropRight

/-!
# Numbers in the JSON output

Integers, and the text of finite floats that `PythonFloat` computes, are numbers of the grammar. For a
float this needs that the shortest decimal that reads back is not zero unless the float is.

* `number_repr` : integers;
* `shortest_ne_zero` : the shortest decimal;
* `PyText.cpython_jsonNumbers` : floats.
-/

namespace EerieLeap.LogsParser

open EerieLeap.Lib

/-! ## Integers -/

theorem head_toDigits {n : ℕ} (h : 0 < n) : (Nat.toDigits 10 n).head? ≠ some '0' := by
  induction n using Nat.strong_induction_on with
  | _ n ih =>
    have hsmall : ∀ n < 10, 0 < n → Nat.digitChar n ≠ '0' := by decide
    rw [Nat.toDigits_eq_if (by decide)]
    split_ifs with hlt
    · simpa using hsmall n hlt h
    · rw [List.head?_append_of_ne_nil _ Nat.toDigits_ne_nil]
      exact ih (n / 10) (by omega) (by omega)

theorem digits_toDigits (n : ℕ) : Json.Digits (Nat.toDigits 10 n) :=
  ⟨Nat.toDigits_ne_nil, fun _ hc => Nat.isDigit_of_mem_toDigits (by decide) (by decide) hc⟩

theorem number_repr (n : ℕ) : Json.Number (Nat.repr n).toList := by
  rw [Nat.toList_repr]
  rcases Nat.eq_zero_or_pos n with rfl | hpos
  · exact Json.Integer.zero.number
  · exact (Json.integer_of_digits (digits_toDigits n) (head_toDigits hpos)).number

/-! ## The shortest decimal -/

namespace Ratio

/-- `1 ≤ x * base ^ k`. -/
def ScalesToOne (base : ℕ) (k : ℤ) (x : Ratio) : Prop := (x.scale base k).den ≤ (x.scale base k).num

theorem ScalesToOne.succ {base : ℕ} (hbase : 0 < base) {k : ℤ} {x : Ratio} (h : x.ScalesToOne base k) :
    x.ScalesToOne base (k + 1) := by
  unfold ScalesToOne scale at *
  dsimp only at *
  rcases le_or_gt 0 k with hk | hk
  · have hup : (k + 1).toNat = k.toNat + 1 := by omega
    have hdown : (-(k + 1)).toNat = (-k).toNat := by omega
    rw [hup, hdown, pow_succ, ← mul_assoc]
    exact h.trans (Nat.le_mul_of_pos_right _ hbase)
  · have hup : (k + 1).toNat = k.toNat := by omega
    have hdown : (-k).toNat = (-(k + 1)).toNat + 1 := by omega
    rw [hdown, pow_succ, ← mul_assoc] at h
    rw [hup]
    exact (Nat.le_mul_of_pos_right _ hbase).trans h

theorem ScalesToOne.add {base : ℕ} (hbase : 0 < base) {k : ℤ} {x : Ratio} (h : x.ScalesToOne base k) (n : ℕ) :
    x.ScalesToOne base (k + n) := by
  induction n with
  | zero => simpa using h
  | succ n ih =>
    rw [Nat.cast_succ, ← add_assoc]
    exact ih.succ hbase

/-- The largest power that is not larger. -/
theorem scalesToOne_floorLog {base : ℕ} (hbase : 1 < base) {x : Ratio} (hx : x.num ≠ 0) :
    x.ScalesToOne base (-x.floorLog base) := by
  unfold floorLog
  dsimp only
  split_ifs with h
  · exact h
  · have hnum : base ^ Nat.log base x.num ≤ x.num := Nat.pow_log_le_self base hx
    have hden : x.den ≤ base ^ (Nat.log base x.den + 1) := (Nat.lt_pow_succ_log_self hbase x.den).le
    unfold ScalesToOne scale
    dsimp only
    generalize Nat.log base x.num = a at *
    generalize Nat.log base x.den = b at *
    rcases le_or_gt (b + 1) a with hab | hab
    · have hup : (-((a : ℤ) - b - 1)).toNat = 0 := by omega
      have hdown : (-(-((a : ℤ) - b - 1))).toNat = a - (b + 1) := by omega
      rw [hup, hdown, pow_zero, mul_one]
      calc x.den * base ^ (a - (b + 1)) ≤ base ^ (b + 1) * base ^ (a - (b + 1)) := Nat.mul_le_mul_right _ hden
        _ = base ^ a := by rw [← pow_add, Nat.add_sub_cancel' hab]
        _ ≤ x.num := hnum
    · have hup : (-((a : ℤ) - b - 1)).toNat = b + 1 - a := by omega
      have hdown : (-(-((a : ℤ) - b - 1))).toNat = 0 := by omega
      rw [hup, hdown, pow_zero, mul_one]
      calc x.den ≤ base ^ (b + 1) := hden
        _ = base ^ a * base ^ (b + 1 - a) := by rw [← pow_add, Nat.add_sub_cancel' hab.le]
        _ ≤ x.num * base ^ (b + 1 - a) := Nat.mul_le_mul_right _ hnum

theorem floor_le_round (x : Ratio) : x.floor ≤ x.round := by
  unfold round
  dsimp only
  split_ifs <;> omega

theorem round_eq_zero {x : Ratio} (h : x.num = 0) : x.round = 0 := by
  unfold round floor
  rw [h, Nat.zero_mod, Nat.zero_div]
  simp

/-- Zero is rounded to zero, and to no other number. -/
theorem not_same_toDouble {x y : Ratio} (hx : x.num = 0) (hy : y.num ≠ 0) : x.toDouble.same y = false := by
  have hnum : x.toDouble.num = 0 := by
    have hscale : ∀ k, (x.scale 2 k).num = 0 := fun k => by rw [scale, hx, zero_mul]
    unfold toDouble
    dsimp only
    rw [round_eq_zero (hscale _), scale, ofNat, zero_mul]
  have hden : x.toDouble.den ≠ 0 := by simp [toDouble, scale, ofNat]
  rw [same, hnum, zero_mul]
  exact decide_eq_false (mul_ne_zero hy hden).symm

end Ratio

/-- **The shortest decimal** of a number that is not zero is not zero. -/
theorem shortest_ne_zero {x : Ratio} (hnum : x.num ≠ 0) (hden : x.den ≠ 0) (fuel : ℕ) {n : ℕ} (hn : 1 ≤ n) :
    (shortest x (x.floorLog 10) fuel n).1 ≠ 0 := by
  have hten : 1 < 10 := by decide
  have hreads : ∀ {d : ℕ} {k : ℤ}, ((Ratio.ofNat d).scale 10 k).toDouble.same x = true → d ≠ 0 := by
    rintro d k hreads rfl
    have hzero : ((Ratio.ofNat 0).scale 10 k).num = 0 := by simp [Ratio.scale, Ratio.ofNat]
    rw [Ratio.not_same_toDouble hzero hnum] at hreads
    cases hreads
  induction fuel generalizing n with
  | zero =>
    have hone := (Ratio.scalesToOne_floorLog hten hnum).add (Nat.zero_lt_of_lt hten) (n - 1)
    have hexp : -x.floorLog 10 + ((n - 1 : ℕ) : ℤ) = n - 1 - x.floorLog 10 := by omega
    rw [hexp] at hone
    have hpos : 0 < (x.scale 10 (n - 1 - x.floorLog 10)).den := by
      simp [Ratio.scale, Nat.pos_iff_ne_zero, hden]
    have hfloor : 0 < (x.scale 10 (n - 1 - x.floorLog 10)).floor := Nat.div_pos hone hpos
    exact (hfloor.trans_le (Ratio.floor_le_round _)).ne'
  | succ fuel ih =>
    have ih := ih (n := n + 1) (Nat.le_add_left _ _)
    unfold shortest
    dsimp only
    split_ifs with hround hsame hother hother
    · exact hreads hround
    · exact hreads hother
    · exact ih
    · exact hreads hother
    · exact ih

/-! ## The text -/

/-- The digits of a decimal: at least one, and no zero in front. -/
structure Significant (t : List Char) : Prop where
  digits : Json.Digits t
  head : t.head? ≠ some '0'

/-- The digits of a number, without the zeros behind. -/
theorem significant_repr {d : ℕ} (h : d ≠ 0) :
    Significant ((Nat.repr d).toList.reverse.dropWhile (· = '0')).reverse := by
  obtain ⟨hne, hdigits⟩ := digits_toDigits d
  have hhead := head_toDigits (Nat.pos_of_ne_zero h)
  rw [Nat.toList_repr]
  obtain ⟨c, t, heq⟩ := List.exists_cons_of_ne_nil hne
  rw [heq] at hdigits hhead ⊢
  have hc : c ≠ '0' := fun hzero => hhead (by rw [hzero]; rfl)
  -- the first digit is not dropped
  have hkept : (c :: t).rdropWhile (· = '0') <+: c :: t := List.rdropWhile_prefix _ _
  have hkeep : (c :: t).rdropWhile (· = '0') ≠ [] := by
    intro hnil
    have hall := List.rdropWhile_eq_nil_iff.mp hnil c List.mem_cons_self
    exact hc (by simpa using hall)
  show Significant ((c :: t).rdropWhile (· = '0'))
  generalize (c :: t).rdropWhile (· = '0') = digits at *
  obtain ⟨c', t', rfl⟩ := List.exists_cons_of_ne_nil hkeep
  obtain ⟨rfl, -⟩ := List.cons_prefix_cons.mp hkept
  exact ⟨⟨hkeep, fun d hd => hdigits d (hkept.subset hd)⟩, by simpa using hc⟩

theorem isDigit_replicate (n : ℕ) : ∀ c ∈ List.replicate n '0', c.isDigit = true := by
  intro c hc
  rw [List.eq_of_mem_replicate hc]
  rfl

theorem Significant.take {digits : List Char} (h : Significant digits) {n : ℕ} (hn : n ≠ 0) :
    Json.Integer (digits.take n) := by
  obtain ⟨⟨hne, hdigits⟩, hhead⟩ := h
  refine Json.integer_of_digits ⟨?_, fun c hc => hdigits c (List.mem_of_mem_take hc)⟩ ?_
  · simp [hn, hne]
  · simpa [List.head?_take, hn] using hhead

theorem Significant.drop {digits : List Char} (h : Significant digits) {n : ℕ} (hn : n < digits.length) :
    Json.Digits (digits.drop n) :=
  ⟨by simpa using hn, fun c hc => h.digits.2 c (List.mem_of_mem_drop hc)⟩

/-- The fraction of a whole number. -/
theorem digits_zero : Json.Digits ['0'] := ⟨List.cons_ne_nil _ _, isDigit_replicate 1⟩

/-- `e+xx`, with two digits at least. -/
theorem exponent_text (e : ℤ) : Json.Exponent ('e' :: ([if e < 0 then '-' else '+'] ++
    ((if e.natAbs < 10 then ['0'] else []) ++ (Nat.repr e.natAbs).toList))) := by
  refine .digits (Or.inl rfl) (Or.inr ?_) ⟨?_, List.forall_mem_append.mpr ⟨?_, ?_⟩⟩
  · split_ifs
    · exact Or.inr rfl
    · exact Or.inl rfl
  · simp [Nat.toDigits_ne_nil]
  · split_ifs
    · exact isDigit_replicate 1
    · exact fun c hc => absurd hc List.not_mem_nil
  · rw [Nat.toList_repr]
    exact (digits_toDigits _).2

theorem number_decimalText {minus digits : List Char} (hminus : minus = [] ∨ minus = ['-'])
    (h : Significant digits) (point : ℤ) : Json.Number (minus ++ decimalText digits point) := by
  obtain ⟨hne, hdigits⟩ := h.digits
  unfold decimalText
  by_cases hplain : -4 < point ∧ point ≤ 16
  swap
  · -- `d.dde+xx`
    rw [if_neg hplain]
    dsimp only
    have hfraction : Json.Fraction (if digits.length ≤ 1 then [] else '.' :: digits.drop 1) := by
      split_ifs with hlong
      · exact .absent
      · exact .digits (h.drop (by omega))
    have hnumber := Json.Number.mk hminus (h.take one_ne_zero) hfraction (exponent_text (point - 1))
    simpa only [List.append_assoc, List.cons_append, List.nil_append] using hnumber
  rw [if_pos hplain]
  split_ifs with hpoint hlong
  · -- `0.000ddd`
    have hfraction : Json.Digits (List.replicate (-point).toNat '0' ++ digits) :=
      ⟨by simp [hne], List.forall_mem_append.mpr ⟨isDigit_replicate _, hdigits⟩⟩
    have hnumber := Json.Number.mk hminus .zero (.digits hfraction) .absent
    simpa using hnumber
  · -- `ddd000.0`
    have hinteger : Json.Integer (digits ++ List.replicate (point.toNat - digits.length) '0') := by
      refine Json.integer_of_digits ⟨by simp [hne], ?_⟩ ?_
      · exact List.forall_mem_append.mpr ⟨hdigits, isDigit_replicate _⟩
      · rw [List.head?_append_of_ne_nil _ hne]
        exact h.head
    have hnumber := Json.Number.mk hminus hinteger (.digits digits_zero) .absent
    simpa using hnumber
  · -- `dd.ddd`
    have hpos : point.toNat ≠ 0 := by omega
    have hlt : point.toNat < digits.length := by omega
    have hnumber := Json.Number.mk hminus (h.take hpos) (.digits (h.drop hlt)) .absent
    simpa using hnumber

/-- **The text of a double** that is not negative, and one with a sign. -/
theorem number_doubleText {minus : List Char} (hminus : minus = [] ∨ minus = ['-']) {x : Ratio}
    (hden : x.den ≠ 0) : Json.Number (minus ++ doubleText x) := by
  unfold doubleText
  split_ifs with hnum
  · exact .mk hminus .zero (.digits digits_zero) .absent
  · exact number_decimalText hminus (significant_repr (shortest_ne_zero hnum hden 16 le_rfl)) _

/-- Finite floats are written as numbers of the grammar. -/
def PyText.JsonNumbers (py : PyText) : Prop :=
  ∀ x, isNaN x = false → isInf x = false → Json.Number (py.repr x).toList

/-- **CPython** writes them so. -/
theorem PyText.cpython_jsonNumbers : PyText.cpython.JsonNumbers := by
  intro x _ _
  have hden : (floatValue x).den ≠ 0 := by
    unfold floatValue
    dsimp only
    split_ifs <;> simp [Ratio.scale, Ratio.ofNat]
  rw [cpython, String.toList_ofList]
  refine number_doubleText ?_ hden
  split_ifs
  · exact Or.inr rfl
  · exact Or.inl rfl

end EerieLeap.LogsParser
