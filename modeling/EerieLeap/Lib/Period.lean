import EerieLeap.Lib.Register
import Mathlib.Data.Nat.Prime.Defs
import Mathlib.Dynamics.PeriodicPts.Defs

/-!
# Iterates of additive maps of words

A map of words that is additive for xor is known from its values at the single bits, its
`columns`, as a number each. Columns can be composed, so long iterates are computed by squaring
(`map_iterate_eq_iterates`), and the minimal period of a word is found from one iterate for each
prime factor of a period (`minimalPeriod_eq`).
-/

namespace EerieLeap.Lib.Register

variable {w : ℕ}

/-- The map is additive for xor. -/
def XorLinear (f : BitVec w → BitVec w) : Prop := ∀ a b, f (a ^^^ b) = f a ^^^ f b

theorem XorLinear.map_zero {f : BitVec w → BitVec w} (hf : XorLinear f) : f 0#w = 0#w := by
  have h := hf 0#w 0#w
  rwa [BitVec.xor_self, BitVec.xor_self] at h

theorem XorLinear.comp {f g : BitVec w → BitVec w} (hf : XorLinear f) (hg : XorLinear g) :
    XorLinear (f ∘ g) := fun a b => by
  rw [Function.comp_apply, hg, hf]
  rfl

theorem XorLinear.shiftLeft {f : BitVec w → BitVec w} (hf : XorLinear f) (n : ℕ) :
    XorLinear fun a => f (a <<< n) := fun a b => by
  simp only [BitVec.shiftLeft_xor_distrib, hf _ _]

theorem xorLinear_shift (poly : BitVec w) : XorLinear (shift poly) := shift_xor poly

/-! ## Columns -/

/-- The values at the `n` lowest single bits, as numbers. -/
def columns : ℕ → (BitVec w → BitVec w) → List ℕ
  | 0, _ => []
  | n + 1, f => (f 1#w).toNat :: columns n fun a => f (a <<< 1)

/-- The sum of the columns that the bits of a number choose. -/
def combine : List ℕ → ℕ → ℕ
  | [], _ => 0
  | m :: ms, c => if c % 2 = 0 then combine ms (c / 2) else m ^^^ combine ms (c / 2)

/-- The columns of the map done twice. -/
def square (ms : List ℕ) : List ℕ := ms.map (combine ms)

theorem ofNat_eq_bitWord_xor (c : ℕ) :
    BitVec.ofNat w c = bitWord w (c % 2 = 1) ^^^ (BitVec.ofNat w (c / 2) <<< 1) := by
  apply BitVec.eq_of_getLsbD_eq
  intro i hi
  rw [BitVec.getLsbD_xor, BitVec.getLsbD_shiftLeft, BitVec.getLsbD_ofNat, ← Nat.testBit_zero]
  cases i with
  | zero => cases c.testBit 0 <;> simp [bitWord, hi]
  | succ i =>
    have hbit : (bitWord w (c.testBit 0)).getLsbD (i + 1) = false := by
      cases c.testBit 0 <;> simp [bitWord, BitVec.getLsbD_one]
    rw [hbit, Bool.false_xor, Nat.add_sub_cancel, BitVec.getLsbD_ofNat, Nat.testBit_succ]
    simp [hi, show i < w by omega]

/-- **The columns tell the map**. -/
theorem combine_columns : ∀ (n : ℕ) {f : BitVec w → BitVec w}, XorLinear f → ∀ {c : ℕ}, c < 2 ^ n →
    combine (columns n f) c = (f (BitVec.ofNat w c)).toNat := by
  intro n
  induction n with
  | zero =>
    intro f hf c hc
    obtain rfl : c = 0 := by simpa using hc
    rw [hf.map_zero]
    rfl
  | succ n ih =>
    intro f hf c hc
    have hhalf : c / 2 < 2 ^ n := by rw [pow_succ] at hc; omega
    rw [columns, combine, ih (hf.shiftLeft 1) hhalf, ofNat_eq_bitWord_xor c, hf, BitVec.toNat_xor]
    split
    · next heven => simp [bitWord, heven, hf.map_zero]
    · next hodd => simp [bitWord, show c % 2 = 1 by omega]

theorem combine_columns_toNat {f : BitVec w → BitVec w} (hf : XorLinear f) (a : BitVec w) :
    combine (columns w f) a.toNat = (f a).toNat := by
  rw [combine_columns w hf a.isLt, BitVec.ofNat_toNat, BitVec.setWidth_eq]

theorem columns_comp {f : BitVec w → BitVec w} (hf : XorLinear f) (n : ℕ) (g : BitVec w → BitVec w) :
    columns n (f ∘ g) = (columns n g).map (combine (columns w f)) := by
  induction n generalizing g with
  | zero => rfl
  | succ n ih =>
    rw [columns, columns, List.map_cons, combine_columns_toNat hf, ← ih]
    rfl

theorem square_columns {f : BitVec w → BitVec w} (hf : XorLinear f) :
    square (columns w f) = columns w (f^[2]) := (columns_comp hf w f).symm

/-! ## Iterates -/

/-- The iterates of a map that is given by its columns: for every job, a number of times below
`2 ^ k` and a start. -/
def iterates : ℕ → List ℕ → List (ℕ × ℕ) → List ℕ
  | 0, _, jobs => jobs.map Prod.snd
  | k + 1, ms, jobs => iterates k (square ms)
      (jobs.map fun (n, c) => (n / 2, if n % 2 = 0 then c else combine ms c))

theorem iterate_half {α : Type*} (f : α → α) (n : ℕ) (x : α) :
    (f^[2])^[n / 2] (if n % 2 = 0 then x else f x) = f^[n] x := by
  rw [← Function.iterate_mul]
  split
  · next heven => rw [show 2 * (n / 2) = n by omega]
  · next hodd => rw [← Function.iterate_succ_apply, show (2 * (n / 2)).succ = n by omega]

theorem iterates_columns (k : ℕ) {f : BitVec w → BitVec w} (hf : XorLinear f)
    (jobs : List (ℕ × BitVec w)) (hk : ∀ j ∈ jobs, j.1 < 2 ^ k) :
    iterates k (columns w f) (jobs.map fun j => (j.1, j.2.toNat)) =
      jobs.map fun j => (f^[j.1] j.2).toNat := by
  induction k generalizing f jobs with
  | zero =>
    rw [iterates, List.map_map]
    refine List.map_congr_left fun j hj => ?_
    have hzero : j.1 = 0 := by simpa using hk j hj
    rw [hzero]
    rfl
  | succ k ih =>
    -- one round: the odd numbers spend one step, and two steps become one
    let round : ℕ × BitVec w → ℕ × BitVec w := fun j =>
      (j.1 / 2, if j.1 % 2 = 0 then j.2 else f j.2)
    have hround : (jobs.map fun j => (j.1, j.2.toNat)).map
        (fun (n, c) => (n / 2, if n % 2 = 0 then c else combine (columns w f) c)) =
          (jobs.map round).map fun j => (j.1, j.2.toNat) := by
      rw [List.map_map, List.map_map]
      refine List.map_congr_left fun j _ => ?_
      simp only [Function.comp_apply, round, combine_columns_toNat hf, apply_ite BitVec.toNat]
    have hlt : ∀ j ∈ jobs.map round, j.1 < 2 ^ k := by
      intro j hj
      obtain ⟨i, hi, rfl⟩ := List.mem_map.mp hj
      have := hk i hi
      rw [pow_succ] at this
      show i.1 / 2 < 2 ^ k
      omega
    have htwo : XorLinear (f^[2]) := hf.comp hf
    rw [iterates, hround, square_columns hf, ih htwo _ hlt, List.map_map]
    refine List.map_congr_left fun j _ => ?_
    exact congrArg BitVec.toNat (iterate_half f j.1 j.2)

/-- **Iterates by squaring**. -/
theorem map_iterate_eq_iterates (k : ℕ) {f : BitVec w → BitVec w} (hf : XorLinear f) (a : BitVec w)
    {ns : List ℕ} (hk : ∀ n ∈ ns, n < 2 ^ k) :
    (ns.map fun n => (f^[n] a).toNat) = iterates k (columns w f) (ns.map fun n => (n, a.toNat)) := by
  have hjobs := iterates_columns k hf (ns.map fun n => (n, a)) (by simpa using hk)
  rw [List.map_map, List.map_map] at hjobs
  exact hjobs.symm

/-! ## Minimal periods -/

/-- A period is the minimal one when the iterate by no quotient of it by a prime is the start. -/
theorem minimalPeriod_eq {α : Type*} {f : α → α} {x : α} {n : ℕ} (hx : f^[n] x = x)
    (hprime : ∀ p, p.Prime → p ∣ n → f^[n / p] x ≠ x) : Function.minimalPeriod f x = n := by
  obtain ⟨q, hq⟩ := Function.IsPeriodicPt.minimalPeriod_dvd (show Function.IsPeriodicPt f n x from hx)
  by_cases hone : q = 1
  · rw [hq, hone, Nat.mul_one]
  · -- a prime factor of what is left is taken out of the period
    obtain ⟨r, hr⟩ := Nat.minFac_dvd q
    have hfac := Nat.minFac_prime hone
    have hdiv : n / q.minFac = Function.minimalPeriod f x * r := by
      rw [hq, hr, Nat.mul_left_comm, ← hr]
      exact Nat.mul_div_cancel_left _ hfac.pos
    refine absurd ?_ (hprime _ hfac ⟨Function.minimalPeriod f x * r, ?_⟩)
    · rw [hdiv]
      exact (Function.isPeriodicPt_minimalPeriod f x).mul_const r
    · rw [hq, Nat.mul_left_comm, ← hr]

end EerieLeap.Lib.Register
