import EerieLeap.Lib.JsonReader
import EerieLeap.LogsParser.JsonNumbers
import Mathlib.Algebra.Order.Field.Power
import Mathlib.Data.Rat.Cast.Order
import Mathlib.Tactic.FieldSimp
import Mathlib.Tactic.Linarith
import Mathlib.Tactic.NormNum
import Mathlib.Tactic.Positivity
import Mathlib.Tactic.Ring

/-!
# The text of a float reads back

The shortest decimal that reads back always exists: with 17 digits a decimal is so near to the float that no
other double is nearer. So the text tells the float, and two finite floats are never written alike.

* `Ratio.val`, `floorLog_spec`, `abs_round_sub_le` : what the computations on fractions give;
* `val_toDouble_of_near` : a number that is near to a double is rounded to it;
* `same_shortest` : the shortest decimal reads back;
* `readFloat`, `readFloat_repr` : reading the text gives the float;
* `PyText.cpython_faithful` : so no other float has the text.
-/

namespace EerieLeap.LogsParser

open EerieLeap.Lib

/-! ## The number that a fraction stands for -/

namespace Ratio

def val (x : Ratio) : ℚ := x.num / x.den

theorem val_ofNat (n : ℕ) : (ofNat n).val = n := by simp [val, ofNat]

theorem den_ofNat (n : ℕ) : (ofNat n).den ≠ 0 := one_ne_zero

theorem den_scale {base : ℕ} (hbase : base ≠ 0) (k : ℤ) {x : Ratio} (hx : x.den ≠ 0) :
    (x.scale base k).den ≠ 0 := mul_ne_zero hx (pow_ne_zero _ hbase)

theorem val_scale {base : ℕ} (hbase : base ≠ 0) (k : ℤ) (x : Ratio) :
    (x.scale base k).val = x.val * (base : ℚ) ^ k := by
  have hpos : (base : ℚ) ≠ 0 := Nat.cast_ne_zero.mpr hbase
  have hk : (base : ℚ) ^ k = (base : ℚ) ^ k.toNat / (base : ℚ) ^ (-k).toNat := by
    rw [← zpow_natCast, ← zpow_natCast, ← zpow_sub₀ hpos]
    congr 1
    omega
  rw [hk, val, val, scale]
  push_cast
  rw [mul_div_mul_comm]

theorem same_iff {x y : Ratio} (hx : x.den ≠ 0) (hy : y.den ≠ 0) : x.same y = true ↔ x.val = y.val := by
  have hx : (x.den : ℚ) ≠ 0 := Nat.cast_ne_zero.mpr hx
  have hy : (y.den : ℚ) ≠ 0 := Nat.cast_ne_zero.mpr hy
  rw [same, decide_eq_true_eq, val, val, div_eq_div_iff hx hy]
  exact_mod_cast Iff.rfl

theorem one_le_val {x : Ratio} (hx : x.den ≠ 0) : 1 ≤ x.val ↔ x.den ≤ x.num := by
  have hpos : (0 : ℚ) < x.den := Nat.cast_pos.mpr (Nat.pos_of_ne_zero hx)
  rw [val, le_div_iff₀ hpos, one_mul]
  exact Nat.cast_le

theorem val_pos {x : Ratio} (hnum : x.num ≠ 0) (hden : x.den ≠ 0) : 0 < x.val :=
  div_pos (Nat.cast_pos.mpr (Nat.pos_of_ne_zero hnum)) (Nat.cast_pos.mpr (Nat.pos_of_ne_zero hden))

theorem num_ne_zero {x : Ratio} (h : 0 < x.val) : x.num ≠ 0 := by
  rintro hzero
  simp [val, hzero] at h

/-- **The logarithm** of a number that is not zero. -/
theorem floorLog_spec {base : ℕ} (hbase : 1 < base) {x : Ratio} (hnum : x.num ≠ 0) (hden : x.den ≠ 0) :
    (base : ℚ) ^ x.floorLog base ≤ x.val ∧ x.val < (base : ℚ) ^ (x.floorLog base + 1) := by
  have hne : base ≠ 0 := by omega
  have hpos : (0 : ℚ) < base := Nat.cast_pos.mpr (by omega)
  have hscaled : ∀ k : ℤ, (x.scale base (-k)).val = x.val / (base : ℚ) ^ k := by
    intro k
    rw [val_scale hne, zpow_neg, div_eq_mul_inv]
  have hone : ∀ k : ℤ, (x.scale base (-k)).den ≤ (x.scale base (-k)).num ↔ (base : ℚ) ^ k ≤ x.val := by
    intro k
    rw [← one_le_val (den_scale hne _ hden), hscaled, le_div_iff₀ (zpow_pos hpos k), one_mul]
  refine ⟨(hone _).mp (scalesToOne_floorLog hbase hnum), ?_⟩
  unfold floorLog
  dsimp only
  split_ifs with h
  · have hnum' : (x.num : ℚ) < (base : ℚ) ^ (Nat.log base x.num + 1) :=
      mod_cast Nat.lt_pow_succ_log_self hbase x.num
    have hden' : (base : ℚ) ^ Nat.log base x.den ≤ x.den := mod_cast Nat.pow_log_le_self base hden
    have hpow : (base : ℚ) ^ ((Nat.log base x.num : ℤ) - Nat.log base x.den + 1) =
        (base : ℚ) ^ (Nat.log base x.num + 1) / (base : ℚ) ^ Nat.log base x.den := by
      rw [← zpow_natCast, ← zpow_natCast, ← zpow_sub₀ hpos.ne']
      congr 1
      push_cast
      ring
    rw [hpow, val]
    exact div_lt_div₀ hnum' hden' (by positivity) (by positivity)
  · rw [hone, not_le] at h
    rwa [sub_add_cancel]

/-- **Rounding** is off by a half at most. -/
theorem abs_round_sub_le {x : Ratio} (hx : x.den ≠ 0) : |(x.round : ℚ) - x.val| ≤ 1 / 2 := by
  have hpos : (0 : ℚ) < x.den := Nat.cast_pos.mpr (Nat.pos_of_ne_zero hx)
  have hdivision : (x.num : ℚ) = x.den * x.floor + (x.num % x.den : ℕ) := by
    exact_mod_cast (Nat.div_add_mod x.num x.den).symm
  have hrest : ((x.num % x.den : ℕ) : ℚ) < x.den := by
    exact_mod_cast Nat.mod_lt _ (Nat.pos_of_ne_zero hx)
  have hval : x.val = x.floor + (x.num % x.den : ℕ) / x.den := by
    rw [val, hdivision]
    field_simp
  have hnonneg : (0 : ℚ) ≤ (x.num % x.den : ℕ) := Nat.cast_nonneg _
  rw [hval, round]
  split_ifs with hbelow habove
  · have hbelow : 2 * ((x.num % x.den : ℕ) : ℚ) < x.den := by exact_mod_cast hbelow
    rw [sub_add_cancel_left, abs_neg, abs_of_nonneg (by positivity), div_le_div_iff₀ hpos (by norm_num)]
    linarith
  · have habove : (x.den : ℚ) < 2 * (x.num % x.den : ℕ) := by exact_mod_cast habove
    rw [Nat.cast_add, Nat.cast_one, add_sub_add_left_eq_sub, abs_of_nonneg, sub_le_iff_le_add,
      ← sub_le_iff_le_add', le_div_iff₀ hpos]
    · linarith
    · rw [sub_nonneg, div_le_one hpos]
      exact hrest.le
  · have hhalf : ((x.num % x.den : ℕ) : ℚ) / x.den = 1 / 2 := by
      have htwice : 2 * (x.num % x.den) = x.den := by omega
      have htwice : 2 * ((x.num % x.den : ℕ) : ℚ) = x.den := by exact_mod_cast htwice
      rw [div_eq_div_iff hpos.ne' (by norm_num)]
      linarith
    rw [hhalf, Nat.cast_add, add_sub_add_left_eq_sub]
    rcases Nat.mod_two_eq_zero_or_one x.floor with h | h <;> rw [h] <;> norm_num [abs_of_nonneg, abs_of_nonpos]

/-- What is nearer than a half is what is rounded to. -/
theorem round_eq {x : Ratio} (hx : x.den ≠ 0) {n : ℕ} (h : |x.val - n| < 1 / 2) : x.round = n := by
  have hround := abs_round_sub_le hx
  have hnear : |(x.round : ℚ) - n| < 1 := by
    calc |(x.round : ℚ) - n| ≤ |(x.round : ℚ) - x.val| + |x.val - n| := abs_sub_le _ _ _
      _ < 1 := by linarith
  have hint : |(x.round : ℤ) - n| < 1 := by exact_mod_cast hnear
  have hzero := Int.abs_lt_one_iff.mp hint
  omega

/-- Rounding does not depend on how the number is written as a fraction. -/
theorem round_mul (n d : ℕ) {g : ℕ} (hg : 0 < g) : (⟨n * g, d * g⟩ : Ratio).round = (⟨n, d⟩ : Ratio).round := by
  unfold round floor
  dsimp only
  rw [Nat.mul_mod_mul_right, Nat.mul_div_mul_right _ _ hg, ← mul_assoc]
  simp only [Nat.mul_lt_mul_right hg]

theorem round_congr {x y : Ratio} (hx : x.den ≠ 0) (hy : y.den ≠ 0) (h : x.val = y.val) : x.round = y.round := by
  have hcross := (same_iff hx hy).mpr h
  rw [same, decide_eq_true_eq] at hcross
  calc x.round = (⟨x.num * y.den, x.den * y.den⟩ : Ratio).round := (round_mul _ _ (Nat.pos_of_ne_zero hy)).symm
    _ = (⟨y.num * x.den, y.den * x.den⟩ : Ratio).round := by rw [hcross, mul_comm x.den]
    _ = y.round := round_mul _ _ (Nat.pos_of_ne_zero hx)

theorem floorLog_congr {base : ℕ} (hbase : 1 < base) {x y : Ratio} (hx : x.den ≠ 0) (hy : y.den ≠ 0)
    (hpos : 0 < x.val) (h : x.val = y.val) : x.floorLog base = y.floorLog base := by
  obtain ⟨hlow, hhigh⟩ := floorLog_spec hbase (num_ne_zero hpos) hx
  obtain ⟨hlow', hhigh'⟩ := floorLog_spec hbase (num_ne_zero (h ▸ hpos)) hy
  have hone : (1 : ℚ) < base := Nat.one_lt_cast.mpr hbase
  have hle := (zpow_lt_zpow_iff_right₀ hone).mp ((h ▸ hlow).trans_lt hhigh')
  have hge := (zpow_lt_zpow_iff_right₀ hone).mp (hlow'.trans_lt (h ▸ hhigh))
  omega

/-- The exponent of the last bit of the nearest double. -/
def lastBit (x : Ratio) : ℤ := max (-1074) (x.floorLog 2 - 52)

theorem den_toDouble (x : Ratio) : x.toDouble.den ≠ 0 := den_scale two_ne_zero _ (den_ofNat _)

theorem val_toDouble (x : Ratio) : x.toDouble.val = (x.scale 2 (-x.lastBit)).round * 2 ^ x.lastBit := by
  unfold toDouble
  rw [val_scale two_ne_zero, val_ofNat]
  rfl

theorem val_scale_neg (x : Ratio) (e : ℤ) : (x.scale 2 (-e)).val = x.val / 2 ^ e := by
  rw [val_scale two_ne_zero, Nat.cast_ofNat, zpow_neg, div_eq_mul_inv]

/-- A double has 53 bits. -/
theorem val_lt_lastBit {x : Ratio} (hx : x.den ≠ 0) : x.val < 2 ^ 53 * 2 ^ x.lastBit := by
  have hbit : (0 : ℚ) < 2 ^ x.lastBit := zpow_pos two_pos _
  by_cases hnum : x.num = 0
  · rw [val, hnum, Nat.cast_zero, zero_div]
    positivity
  obtain ⟨-, hhigh⟩ := floorLog_spec (show 1 < 2 by decide) hnum hx
  have hle : x.floorLog 2 + 1 ≤ 53 + x.lastBit := by
    unfold lastBit
    omega
  calc x.val < (2 : ℚ) ^ (x.floorLog 2 + 1) := mod_cast hhigh
    _ ≤ 2 ^ (53 + x.lastBit) := zpow_le_zpow_right₀ one_le_two hle
    _ = 2 ^ 53 * 2 ^ x.lastBit := by rw [zpow_add₀ two_ne_zero]; rfl

/-- The nearest double is off by half of its last bit at most. -/
theorem abs_toDouble_sub_le {x : Ratio} (hx : x.den ≠ 0) : |x.toDouble.val - x.val| ≤ 2 ^ x.lastBit / 2 := by
  have hbit : (0 : ℚ) < 2 ^ x.lastBit := zpow_pos two_pos _
  have hround := abs_round_sub_le (den_scale two_ne_zero (-x.lastBit) hx)
  rw [val_scale_neg] at hround
  have hdifference : x.toDouble.val - x.val =
      ((x.scale 2 (-x.lastBit)).round - x.val / 2 ^ x.lastBit) * 2 ^ x.lastBit := by
    rw [val_toDouble, sub_mul, div_mul_cancel₀ _ hbit.ne']
  rw [hdifference, abs_mul, abs_of_pos hbit]
  calc _ ≤ 1 / 2 * (2 : ℚ) ^ x.lastBit := by gcongr
    _ = 2 ^ x.lastBit / 2 := by ring

theorem val_toDouble_zero {x : Ratio} (h : x.num = 0) : x.toDouble.val = 0 := by
  have hscale : ∀ k, (x.scale 2 k).num = 0 := fun k => by rw [scale, h, zero_mul]
  rw [val_toDouble, round_eq_zero (hscale _), Nat.cast_zero, zero_mul]

theorem val_toDouble_congr {x y : Ratio} (hx : x.den ≠ 0) (hy : y.den ≠ 0) (h : x.val = y.val) :
    x.toDouble.val = y.toDouble.val := by
  by_cases hzero : x.num = 0
  · have hval : x.val = 0 := by simp [val, hzero]
    have hzero' : y.num = 0 := by
      by_contra hne
      exact absurd (val_pos hne hy) (by rw [← h, hval]; exact lt_irrefl 0)
    rw [val_toDouble_zero hzero, val_toDouble_zero hzero']
  · have hlast : x.lastBit = y.lastBit := by
      rw [lastBit, lastBit, floorLog_congr one_lt_two hx hy (val_pos hzero hx) h]
    rw [val_toDouble, val_toDouble, hlast, round_congr (den_scale two_ne_zero _ hx) (den_scale two_ne_zero _ hy)]
    rw [val_scale_neg, val_scale_neg, h]

/-- **A number near to a double** is rounded to it: `m * 2 ^ q` has 53 bits, and every other double is farther
away than `10 ^ -16` of it. -/
theorem val_toDouble_of_near {y : Ratio} (hden : y.den ≠ 0) {m : ℕ} {q : ℤ} (hm : m ≠ 0) (hlt : m < 2 ^ 53)
    (hq : -1074 ≤ q) (hnear : |y.val - m * 2 ^ q| * (2 * 10 ^ 16) ≤ m * 2 ^ q) :
    y.toDouble.val = m * 2 ^ q := by
  have hmpos : (0 : ℚ) < m := Nat.cast_pos.mpr (Nat.pos_of_ne_zero hm)
  have htwoq : (0 : ℚ) < 2 ^ q := zpow_pos two_pos q
  have hXpos : 0 < (m : ℚ) * 2 ^ q := mul_pos hmpos htwoq
  have hbelow := neg_abs_le (y.val - m * 2 ^ q)
  have habove := le_abs_self (y.val - m * 2 ^ q)
  have hy : 0 < y.val := by linarith
  -- the last bit of the double is not above the last one of `m`
  have hlast : y.lastBit ≤ q := by
    obtain ⟨hlow, -⟩ := floorLog_spec (show 1 < 2 by decide) (num_ne_zero hy) hden
    have hlt : (m : ℚ) ≤ 2 ^ 53 - 1 := by
      have hle : m + 1 ≤ 2 ^ 53 := hlt
      have hle : ((m + 1 : ℕ) : ℚ) ≤ (2 ^ 53 : ℕ) := Nat.cast_le.mpr hle
      push_cast at hle
      linarith
    have hval : y.val < 2 ^ 53 * 2 ^ q := by
      have hXle : (m : ℚ) * 2 ^ q ≤ (2 ^ 53 - 1) * 2 ^ q := mul_le_mul_of_nonneg_right hlt htwoq.le
      norm_num at hXle ⊢
      linarith
    have hpow : (2 : ℚ) ^ y.floorLog 2 < 2 ^ (53 + q) := by
      calc (2 : ℚ) ^ y.floorLog 2 ≤ y.val := mod_cast hlow
        _ < 2 ^ 53 * 2 ^ q := hval
        _ = 2 ^ (53 + q) := by rw [zpow_add₀ two_ne_zero]; rfl
    have hexp := (zpow_lt_zpow_iff_right₀ (one_lt_two (α := ℚ))).mp hpow
    unfold lastBit
    omega
  have hhigh := val_lt_lastBit hden
  rw [val_toDouble]
  generalize y.lastBit = e at *
  have hbit : (0 : ℚ) < 2 ^ e := zpow_pos two_pos _
  have hexp : q = (q - e).toNat + e := by omega
  have hmultiple : (m : ℚ) * 2 ^ q = ((m * 2 ^ (q - e).toNat : ℕ) : ℚ) * 2 ^ e := by
    rw [Nat.cast_mul, Nat.cast_pow, Nat.cast_ofNat, ← zpow_natCast, mul_assoc, ← zpow_add₀ two_ne_zero, ← hexp]
  have hround : |(y.scale 2 (-e)).val - ((m * 2 ^ (q - e).toNat : ℕ) : ℚ)| < 1 / 2 := by
    have hdifference : (y.scale 2 (-e)).val - ((m * 2 ^ (q - e).toNat : ℕ) : ℚ) =
        (y.val - m * 2 ^ q) / 2 ^ e := by
      rw [val_scale_neg, hmultiple, sub_div, mul_div_cancel_right₀ _ hbit.ne']
    rw [hdifference, abs_div, abs_of_pos hbit, div_lt_iff₀ hbit]
    norm_num at hhigh hnear ⊢
    linarith
  rw [round_eq (den_scale two_ne_zero _ hden) hround, ← hmultiple]

end Ratio

/-- The number is one of a double. -/
structure Ratio.IsDouble (x : Ratio) (m : ℕ) (q : ℤ) : Prop where
  den_ne_zero : x.den ≠ 0
  lt : m < 2 ^ 53
  le : -1074 ≤ q
  val_eq : x.val = m * 2 ^ q

/-- What a number is rounded to is a double. -/
theorem Ratio.isDouble_toDouble {x : Ratio} (hx : x.den ≠ 0) : ∃ m q, x.toDouble.IsDouble m q := by
  have hbit : (0 : ℚ) < 2 ^ x.lastBit := zpow_pos two_pos _
  have hlast : -1074 ≤ x.lastBit := le_max_left _ _
  have hround := abs_round_sub_le (den_scale two_ne_zero (-x.lastBit) hx)
  have hscaled : (x.scale 2 (-x.lastBit)).val < 2 ^ 53 := by
    rw [val_scale_neg, div_lt_iff₀ hbit]
    exact val_lt_lastBit hx
  have hle : (x.scale 2 (-x.lastBit)).round < 2 ^ 53 + 1 := by
    have habove := (le_abs_self _).trans hround
    have hlt : ((x.scale 2 (-x.lastBit)).round : ℚ) < 2 ^ 53 + 1 := by linarith
    exact_mod_cast hlt
  rcases (Nat.lt_succ_iff.mp hle).lt_or_eq with hlt | heq
  · exact ⟨_, x.lastBit, den_toDouble x, hlt, hlast, val_toDouble x⟩
  · -- one bit more, and it is zero
    refine ⟨2 ^ 52, x.lastBit + 1, den_toDouble x, by norm_num, by omega, ?_⟩
    rw [val_toDouble, heq, zpow_add_one₀ two_ne_zero]
    push_cast
    ring

/-- **The shortest decimal** of a double reads back. -/
theorem same_shortest {x : Ratio} {m : ℕ} {q : ℤ} (hx : x.IsDouble m q) (hnum : x.num ≠ 0) (fuel : ℕ) {n : ℕ}
    (hn : fuel + n = 17) :
    ((Ratio.ofNat (shortest x (x.floorLog 10) fuel n).1).scale 10
      (shortest x (x.floorLog 10) fuel n).2).toDouble.same x = true := by
  induction fuel generalizing n with
  | zero =>
    obtain rfl : n = 17 := by omega
    have hpos : 0 < x.val := Ratio.val_pos hnum hx.den_ne_zero
    have hm : m ≠ 0 := by
      rintro rfl
      rw [hx.val_eq, Nat.cast_zero, zero_mul] at hpos
      exact lt_irrefl _ hpos
    obtain ⟨hlog, -⟩ := Ratio.floorLog_spec (show 1 < 10 by decide) hnum hx.den_ne_zero
    generalize x.floorLog 10 = k at *
    have hten : (10 : ℕ) ≠ 0 := by decide
    have hround := Ratio.abs_round_sub_le (Ratio.den_scale hten ((17 : ℕ) - 1 - k) hx.den_ne_zero)
    rw [Ratio.same_iff (Ratio.den_toDouble _) hx.den_ne_zero, hx.val_eq]
    refine Ratio.val_toDouble_of_near (Ratio.den_scale hten _ (Ratio.den_ofNat _)) hm hx.lt hx.le ?_
    rw [Ratio.val_scale hten, Ratio.val_ofNat, ← hx.val_eq]
    simp only [shortest]
    rw [Ratio.val_scale hten] at hround
    generalize ((x.scale 10 ((17 : ℕ) - 1 - k)).round : ℚ) = d at *
    -- the unit of the last digit
    have hunit : (0 : ℚ) < (10 : ℚ) ^ (k - 16) := zpow_pos (by norm_num) _
    have hpow : ((10 : ℕ) : ℚ) ^ (((17 : ℕ) : ℤ) - 1 - k) * (10 : ℚ) ^ (k - 16) = 1 := by
      rw [Nat.cast_ofNat, ← zpow_add₀ (by norm_num)]
      norm_num
    have hexp : ((10 : ℕ) : ℚ) ^ (k - ((17 : ℕ) : ℤ) + 1) = (10 : ℚ) ^ (k - 16) := by
      rw [Nat.cast_ofNat]
      congr 1
      push_cast
      ring
    have hdifference : d * (10 : ℚ) ^ (k - 16) - x.val =
        (d - x.val * ((10 : ℕ) : ℚ) ^ (((17 : ℕ) : ℤ) - 1 - k)) * (10 : ℚ) ^ (k - 16) := by
      rw [sub_mul, mul_assoc, hpow, mul_one]
    rw [hexp, hdifference, abs_mul, abs_of_pos hunit]
    have hlog : (10 : ℚ) ^ (k - 16) * 10 ^ 16 ≤ x.val := by
      rw [← zpow_natCast, ← zpow_add₀ (by norm_num)]
      have hsum : k - 16 + ((16 : ℕ) : ℤ) = k := by push_cast; ring
      rw [hsum]
      exact_mod_cast hlog
    calc _ ≤ 1 / 2 * (10 : ℚ) ^ (k - 16) * (2 * 10 ^ 16) := by gcongr
      _ = (10 : ℚ) ^ (k - 16) * 10 ^ 16 := by ring
      _ ≤ x.val := hlog
  | succ fuel ih =>
    have ih := ih (n := n + 1) (by omega)
    unfold shortest
    dsimp only
    split_ifs with hround hsame hother hother
    · exact hround
    · exact hother
    · exact ih
    · exact hother
    · exact ih

/-! ## Reading a decimal -/

/-- The exponent of a decimal, behind its `e`. -/
def readExponent (t : List Char) : ℤ :=
  if t.head? = some '-' then -Nat.ofDigitChars 10 t.tail 0 else Nat.ofDigitChars 10 t.tail 0

/-- The number that a decimal stands for. -/
def readDecimal (t : List Char) : Ratio :=
  let mantissa := t.takeWhile (· ≠ 'e')
  let whole := mantissa.takeWhile (· ≠ '.')
  let fraction := (mantissa.dropWhile (· ≠ '.')).tail
  (Ratio.ofNat (Nat.ofDigitChars 10 (whole ++ fraction) 0)).scale 10
    (readExponent (t.dropWhile (· ≠ 'e')).tail - fraction.length)

theorem den_readDecimal (t : List Char) : (readDecimal t).den ≠ 0 :=
  Ratio.den_scale (by decide) _ (Ratio.den_ofNat _)

theorem isDigit_ne {c d : Char} (h : c.isDigit = true) (hd : d.isDigit = false) : c ≠ d := by
  rintro rfl
  exact absurd (hd.symm.trans h) (by decide)

section ReadDecimal

variable {i f r : List Char}

theorem val_readDecimal (hwhole : ∀ c ∈ i, c.isDigit = true) (hfraction : ∀ c ∈ f, c.isDigit = true)
    (hrest : ∀ c ∈ r.head?, c = 'e') : (readDecimal (i ++ '.' :: (f ++ r))).val =
      Nat.ofDigitChars 10 (i ++ f) 0 * 10 ^ (readExponent r.tail - f.length) := by
  have hmantissa : ∀ c ∈ i ++ '.' :: f, decide (c ≠ 'e') = true := by
    intro c hc
    rcases List.mem_append.mp hc with hc | hc
    · exact decide_eq_true (isDigit_ne (hwhole c hc) rfl)
    · rcases List.mem_cons.mp hc with rfl | hc
      · rfl
      · exact decide_eq_true (isDigit_ne (hfraction c hc) rfl)
  obtain ⟨htake, hdrop⟩ := Json.takeWhile_stop hmantissa (r := r) fun c hc => by simp [hrest c hc]
  obtain ⟨htake', hdrop'⟩ := Json.takeWhile_stop (p := fun c => decide (c ≠ '.'))
    (fun c hc => decide_eq_true (isDigit_ne (hwhole c hc) rfl))
    (Json.forall_head_cons (c := '.') rfl f)
  rw [List.append_assoc, List.cons_append] at htake hdrop
  rw [readDecimal, htake, hdrop, htake', hdrop', Ratio.val_scale (by decide), Ratio.val_ofNat]
  rfl

/-- A decimal without a point. -/
theorem val_readDecimal_whole (hwhole : ∀ c ∈ i, c.isDigit = true) (hrest : ∀ c ∈ r.head?, c = 'e') :
    (readDecimal (i ++ r)).val = Nat.ofDigitChars 10 i 0 * 10 ^ readExponent r.tail := by
  obtain ⟨htake, hdrop⟩ := Json.takeWhile_stop (p := fun c => decide (c ≠ 'e')) (r := r)
    (fun c hc => decide_eq_true (isDigit_ne (hwhole c hc) rfl)) fun c hc => by simp [hrest c hc]
  obtain ⟨htake', hdrop'⟩ := Json.takeWhile_stop (p := fun c => decide (c ≠ '.')) (r := [])
    (fun c hc => decide_eq_true (isDigit_ne (hwhole c hc) rfl)) fun c => nofun
  rw [List.append_nil] at htake' hdrop'
  rw [readDecimal, htake, hdrop, htake', hdrop', Ratio.val_scale (by decide), Ratio.val_ofNat]
  simp

end ReadDecimal

theorem ofDigitChars_zeros (n : ℕ) (t : List Char) :
    Nat.ofDigitChars 10 (List.replicate n '0' ++ t) 0 = Nat.ofDigitChars 10 t 0 := by
  rw [Nat.ofDigitChars_append, Nat.ofDigitChars_replicate_zero, mul_zero]

theorem readExponent_text (e : ℤ) : readExponent ((if e < 0 then '-' else '+') ::
    ((if e.natAbs < 10 then ['0'] else []) ++ (Nat.repr e.natAbs).toList)) = e := by
  have hvalue : Nat.ofDigitChars 10 ((if e.natAbs < 10 then ['0'] else []) ++ (Nat.repr e.natAbs).toList) 0 =
      e.natAbs := by
    rw [Nat.toList_repr]
    split_ifs
    · exact (ofDigitChars_zeros 1 _).trans Nat.ofDigitChars_ten_toDigits
    · exact Nat.ofDigitChars_ten_toDigits
  rw [readExponent, List.tail_cons, hvalue, List.head?_cons]
  by_cases hneg : e < 0
  · rw [if_pos hneg, if_pos rfl]
    omega
  · rw [if_neg hneg, if_neg (by decide)]
    omega

/-- **The text of a decimal** stands for it. -/
theorem val_readDecimal_decimalText {digits : List Char} (h : Json.Digits digits) (point : ℤ) :
    (readDecimal (decimalText digits point)).val =
      Nat.ofDigitChars 10 digits 0 * 10 ^ (point - digits.length) := by
  obtain ⟨hne, hdigits⟩ := h
  have hlength : 0 < digits.length := List.length_pos_iff.mpr hne
  unfold decimalText
  by_cases hplain : -4 < point ∧ point ≤ 16
  swap
  · -- `d.dde+xx`
    rw [if_neg hplain]
    dsimp only
    have hexp := readExponent_text (point - 1)
    simp only [List.append_assoc, List.cons_append, List.nil_append]
    generalize (if point - 1 < 0 then '-' else '+') ::
      ((if (point - 1).natAbs < 10 then ['0'] else []) ++ (Nat.repr (point - 1).natAbs).toList) = exponent at *
    have htake : ∀ c ∈ digits.take 1, c.isDigit = true := fun c hc => hdigits c (List.mem_of_mem_take hc)
    have hdrop : ∀ c ∈ digits.drop 1, c.isDigit = true := fun c hc => hdigits c (List.mem_of_mem_drop hc)
    by_cases hlong : digits.length ≤ 1
    · rw [if_pos hlong, List.nil_append, val_readDecimal_whole htake (by simp), List.tail_cons, hexp,
        List.take_of_length_le hlong]
      congr 2
      omega
    · rw [if_neg hlong, List.cons_append, val_readDecimal htake hdrop (by simp), List.tail_cons, hexp,
        List.take_append_drop, List.length_drop]
      congr 2
      omega
  rw [if_pos hplain]
  split_ifs with hpoint hlong
  · -- `0.000ddd`
    have hzeros : ∀ c ∈ List.replicate (-point).toNat '0' ++ digits, c.isDigit = true :=
      List.forall_mem_append.mpr ⟨isDigit_replicate _, hdigits⟩
    have hval := val_readDecimal (i := ['0']) (r := []) (isDigit_replicate 1) hzeros fun c => nofun
    have hvalue : Nat.ofDigitChars 10 (['0'] ++ (List.replicate (-point).toNat '0' ++ digits)) 0 =
        Nat.ofDigitChars 10 digits 0 := (ofDigitChars_zeros 1 _).trans (ofDigitChars_zeros _ _)
    have hexp : readExponent [].tail - ((List.replicate (-point).toNat '0' ++ digits).length : ℤ) =
        point - digits.length := by
      rw [show readExponent [].tail = 0 from rfl, List.length_append, List.length_replicate]
      omega
    rw [hvalue, hexp, List.append_nil] at hval
    exact hval
  · -- `ddd000.0`
    have hzeros : ∀ c ∈ digits ++ List.replicate (point.toNat - digits.length) '0', c.isDigit = true :=
      List.forall_mem_append.mpr ⟨hdigits, isDigit_replicate _⟩
    have hval := val_readDecimal (f := ['0']) (r := []) hzeros (isDigit_replicate 1) fun c => nofun
    have hvalue : Nat.ofDigitChars 10 (digits ++ List.replicate (point.toNat - digits.length) '0' ++ ['0']) 0 =
        10 ^ (point.toNat - digits.length + 1) * Nat.ofDigitChars 10 digits 0 := by
      rw [List.append_assoc, ← List.replicate_succ', Nat.ofDigitChars_append, Nat.ofDigitChars_replicate_zero]
    have hpow : ((10 ^ (point.toNat - digits.length + 1) : ℕ) : ℚ) *
        10 ^ (readExponent [].tail - ((['0'] : List Char).length : ℤ)) = 10 ^ (point - digits.length) := by
      rw [Nat.cast_pow, Nat.cast_ofNat, ← zpow_natCast, ← zpow_add₀ (by norm_num)]
      congr 1
      rw [show readExponent [].tail = 0 from rfl, List.length_singleton]
      omega
    rw [hvalue, List.append_nil, Nat.cast_mul, mul_right_comm, hpow, mul_comm] at hval
    exact hval
  · -- `dd.ddd`
    have htake : ∀ c ∈ digits.take point.toNat, c.isDigit = true :=
      fun c hc => hdigits c (List.mem_of_mem_take hc)
    have hdrop : ∀ c ∈ digits.drop point.toNat, c.isDigit = true :=
      fun c hc => hdigits c (List.mem_of_mem_drop hc)
    have hval := val_readDecimal (r := []) htake hdrop fun c => nofun
    have hexp : readExponent [].tail - ((digits.drop point.toNat).length : ℤ) = point - digits.length := by
      rw [show readExponent [].tail = 0 from rfl, List.length_drop]
      omega
    rw [List.take_append_drop, hexp, List.append_nil] at hval
    exact hval

/-- The zeros behind a number are in its exponent. -/
theorem ofDigitChars_rdropWhile (t : List Char) : Nat.ofDigitChars 10 t 0 =
    10 ^ (t.length - (t.rdropWhile (· = '0')).length) * Nat.ofDigitChars 10 (t.rdropWhile (· = '0')) 0 := by
  have hsplit := List.rdropWhile_append_rtakeWhile (p := fun c : Char => decide (c = '0')) (l := t)
  have hzeros : t.rtakeWhile (fun c => decide (c = '0')) =
      List.replicate (t.length - (t.rdropWhile (· = '0')).length) '0' := by
    refine List.eq_replicate_iff.mpr ⟨?_, fun c hc => ?_⟩
    · have hlength := congrArg List.length hsplit
      rw [List.length_append] at hlength
      omega
    · simpa using List.mem_rtakeWhile_imp hc
  conv_lhs => rw [← hsplit]
  rw [Nat.ofDigitChars_append, hzeros, Nat.ofDigitChars_replicate_zero]

/-- **The text of a double** that is not negative reads back. -/
theorem val_readDecimal_doubleText {x : Ratio} {m : ℕ} {q : ℤ} (hx : x.IsDouble m q) :
    (readDecimal (doubleText x)).toDouble.val = x.val := by
  unfold doubleText
  split_ifs with hnum
  · rw [Ratio.val_toDouble_zero (by decide), Ratio.val, hnum, Nat.cast_zero, zero_div]
  · have hreads := same_shortest hx hnum 16 (n := 1) rfl
    have hne := shortest_ne_zero hnum hx.den_ne_zero 16 (n := 1) le_rfl
    rw [Ratio.same_iff (Ratio.den_toDouble _) hx.den_ne_zero] at hreads
    rw [← hreads]
    dsimp only
    generalize (shortest x (x.floorLog 10) 16 1).1 = d at *
    generalize (shortest x (x.floorLog 10) 16 1).2 = e at *
    refine Ratio.val_toDouble_congr (den_readDecimal _) (Ratio.den_scale (by decide) _ (Ratio.den_ofNat _)) ?_
    rw [val_readDecimal_decimalText (significant_repr hne).digits, Ratio.val_scale (by decide), Ratio.val_ofNat]
    have hvalue : Nat.ofDigitChars 10 (Nat.repr d).toList 0 = d := by
      rw [Nat.toList_repr]
      exact Nat.ofDigitChars_ten_toDigits
    have hzeros := ofDigitChars_rdropWhile (Nat.repr d).toList
    have hle := ((Nat.repr d).toList.rdropWhile_prefix (· = '0')).length_le
    rw [hvalue] at hzeros
    change (Nat.ofDigitChars 10 ((Nat.repr d).toList.rdropWhile (· = '0')) 0 : ℚ) *
      10 ^ ((Nat.repr d).toList.length + e - ((Nat.repr d).toList.rdropWhile (· = '0')).length) = _
    generalize (Nat.repr d).toList.rdropWhile (· = '0') = digits at *
    generalize (Nat.repr d).toList.length = n at *
    have hpow : (10 : ℚ) ^ ((n : ℤ) + e - digits.length) = 10 ^ (n - digits.length) * 10 ^ e := by
      rw [← zpow_natCast, ← zpow_add₀ (by norm_num)]
      congr 1
      omega
    rw [hpow, hzeros]
    push_cast
    ring

/-! ## Reading a float -/

/-- `float(text)`: the sign, and the double nearest to the rest. -/
def readFloat (t : List Char) : Bool × Ratio :=
  if t.head? = some '-' then (true, (readDecimal t.tail).toDouble) else (false, (readDecimal t).toDouble)

/-- The fields of a float. -/
theorem isDouble_floatValue (x : Word 4) : ∃ m q, (floatValue x).IsDouble m q ∧ m < 2 ^ 24 ∧ -149 ≤ q ∧
    (m < 2 ^ 23 ∧ q = -149 ∧ (x.toNat / 2 ^ 23) % 256 = 0 ∧ x.toNat % 2 ^ 23 = m ∨
      2 ^ 23 ≤ m ∧ q = ((x.toNat / 2 ^ 23) % 256 : ℕ) - 150 ∧ x.toNat % 2 ^ 23 = m - 2 ^ 23) := by
  have hfraction : x.toNat % 2 ^ 23 < 2 ^ 23 := Nat.mod_lt _ (by decide)
  have hexponent : (x.toNat / 2 ^ 23) % 256 < 256 := Nat.mod_lt _ (by decide)
  unfold floatValue
  dsimp only
  generalize x.toNat % 2 ^ 23 = fraction at *
  generalize (x.toNat / 2 ^ 23) % 256 = exponent at *
  split_ifs with hzero
  · refine ⟨fraction, -149, ⟨Ratio.den_scale two_ne_zero _ (Ratio.den_ofNat _), by omega, by omega, ?_⟩,
      by omega, le_rfl, .inl ⟨hfraction, rfl, hzero, rfl⟩⟩
    rw [Ratio.val_scale two_ne_zero, Ratio.val_ofNat]
    rfl
  · refine ⟨2 ^ 23 + fraction, exponent - 150,
      ⟨Ratio.den_scale two_ne_zero _ (Ratio.den_ofNat _), by omega, by omega, ?_⟩,
      by omega, by omega, .inr ⟨by omega, rfl, by omega⟩⟩
    rw [Ratio.val_scale two_ne_zero, Ratio.val_ofNat]
    rfl

/-- A float has one significand and one exponent: there is no bit to spare above the smallest exponent. -/
theorem float_unique {m m' : ℕ} {q q' : ℤ} (h : (m : ℚ) * 2 ^ q = m' * 2 ^ q') (hlt : m < 2 ^ 24)
    (hlt' : m' < 2 ^ 24) (hq : q = -149 ∨ 2 ^ 23 ≤ m) (hq' : q' = -149 ∨ 2 ^ 23 ≤ m') (hle : -149 ≤ q)
    (hle' : -149 ≤ q') : m = m' ∧ q = q' := by
  wlog hqq : q ≤ q' generalizing m m' q q'
  · obtain ⟨rfl, rfl⟩ := this h.symm hlt' hlt hq' hq hle' hle (by omega)
    exact ⟨rfl, rfl⟩
  have htwo : (2 : ℚ) ^ q ≠ 0 := (zpow_pos two_pos q).ne'
  have hexp : q' = (q' - q).toNat + q := by omega
  rw [hexp, zpow_add₀ two_ne_zero, zpow_natCast, ← mul_assoc, mul_left_inj' htwo] at h
  have hm : m = m' * 2 ^ (q' - q).toNat := by exact_mod_cast h
  rcases hqq.eq_or_lt with rfl | hqlt
  · simpa using hm
  · have hpow : 2 ^ 1 ≤ 2 ^ (q' - q).toNat := Nat.pow_le_pow_right two_pos (by omega)
    have hbits : 2 ^ 23 * 2 ^ 1 ≤ m' * 2 ^ (q' - q).toNat :=
      Nat.mul_le_mul (hq'.resolve_left (by omega)) hpow
    omega

/-- The sign and the value tell the float. -/
theorem eq_of_floatValue {x y : Word 4} (hsign : x.msb = y.msb) (hval : (floatValue x).val = (floatValue y).val) :
    x = y := by
  obtain ⟨m, q, hx, hlt, hle, hparts⟩ := isDouble_floatValue x
  obtain ⟨m', q', hy, hlt', hle', hparts'⟩ := isDouble_floatValue y
  rw [hx.val_eq, hy.val_eq] at hval
  have hnormal : q = -149 ∨ 2 ^ 23 ≤ m := hparts.imp (fun h => h.2.1) fun h => h.1
  have hnormal' : q' = -149 ∨ 2 ^ 23 ≤ m' := hparts'.imp (fun h => h.2.1) fun h => h.1
  obtain ⟨rfl, rfl⟩ := float_unique hval hlt hlt' hnormal hnormal' hle hle'
  rw [BitVec.msb_eq_decide, BitVec.msb_eq_decide, decide_eq_decide] at hsign
  have hltx := x.isLt
  have hlty := y.isLt
  apply BitVec.eq_of_toNat_eq
  omega

theorem head_decimalText {digits : List Char} (h : Json.Digits digits) (point : ℤ) :
    (decimalText digits point).head? ≠ some '-' := by
  have hdigit : ∀ {t : List Char} (u : List Char), t ≠ [] → (∀ c ∈ t, c.isDigit = true) →
      (t ++ u).head? ≠ some '-' := by
    intro t u hne hdigits hhead
    rw [List.head?_append_of_ne_nil _ hne] at hhead
    exact absurd (hdigits '-' (List.mem_of_mem_head? hhead)) (by decide)
  obtain ⟨hne, hdigits⟩ := h
  have htake : ∀ {n : ℕ}, ∀ c ∈ digits.take n, c.isDigit = true := fun c hc => hdigits c (List.mem_of_mem_take hc)
  unfold decimalText
  dsimp only
  simp only [List.append_assoc]
  by_cases hplain : -4 < point ∧ point ≤ 16
  swap
  · rw [if_neg hplain]
    exact hdigit _ (by simp [hne]) htake
  rw [if_pos hplain]
  split_ifs with hpoint hlong
  · simp
  · exact hdigit _ hne hdigits
  · exact hdigit _ (by simp [hne]; omega) htake

theorem head_doubleText {x : Ratio} (hden : x.den ≠ 0) : (doubleText x).head? ≠ some '-' := by
  unfold doubleText
  split_ifs with hnum
  · decide
  · exact head_decimalText (significant_repr (shortest_ne_zero hnum hden 16 le_rfl)).digits _

/-- **Reading what is printed** for a float gives the float. -/
theorem readFloat_repr (x : Word 4) : (readFloat (PyText.cpython.repr x).toList).1 = x.msb ∧
    (readFloat (PyText.cpython.repr x).toList).2.val = (floatValue x).val := by
  obtain ⟨m, q, hx, -⟩ := isDouble_floatValue x
  have hval := val_readDecimal_doubleText hx
  rw [PyText.cpython, String.toList_ofList]
  cases hsign : x.msb with
  | true => exact ⟨rfl, hval⟩
  | false =>
    have hhead := head_doubleText hx.den_ne_zero
    simp only [Bool.false_eq_true, if_false, List.nil_append, readFloat, if_neg hhead]
    exact ⟨trivial, hval⟩

/-- Two finite floats are never written alike. -/
def PyText.Faithful (py : PyText) : Prop :=
  ∀ x y, isNaN x = false → isInf x = false → isNaN y = false → isInf y = false → py.repr x = py.repr y → x = y

/-- **CPython** never writes two floats alike. -/
theorem PyText.cpython_faithful : PyText.cpython.Faithful := by
  intro x y _ _ _ _ heq
  obtain ⟨hsign, hval⟩ := readFloat_repr x
  obtain ⟨hsign', hval'⟩ := readFloat_repr y
  rw [heq] at hsign hval
  exact eq_of_floatValue (hsign.symm.trans hsign') (hval.symm.trans hval')

end EerieLeap.LogsParser
