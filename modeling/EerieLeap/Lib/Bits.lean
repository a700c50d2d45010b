import Mathlib.Data.List.GetD
import Mathlib.Data.Nat.Bitwise
import Mathlib.Data.Nat.Digits.Lemmas
import Mathlib.Tactic.Ring

/-!
# Bytes, bits and little-endian integers

Byte strings are lists of `UInt8`.

* `toLE n v` and `fromLE` write and read an integer on `n` bytes, least significant byte first, and
  are inverse to each other (`fromLE_toLE`, `toLE_fromLE`);
* `bits` is a byte string as a bit string, the least significant bit of each byte first;
* `Burst w` is a change of some bits of a byte string that all lie within `w` consecutive bits.
-/

namespace EerieLeap.Lib.Bits

/-! ## Little-endian integers -/

/-- The `n` low bytes of `v`, least significant first. -/
def toLE : ℕ → ℕ → List UInt8
  | 0, _ => []
  | n + 1, v => UInt8.ofNat (v % 256) :: toLE n (v / 256)

/-- The integer a byte string spells, least significant byte first. -/
def fromLE (bs : List UInt8) : ℕ := Nat.ofDigits 256 (bs.map UInt8.toNat)

@[simp] theorem toLE_length (n v : ℕ) : (toLE n v).length = n := by
  induction n generalizing v with
  | zero => rfl
  | succ n ih => simp [toLE, ih]

theorem fromLE_cons (b : UInt8) (bs : List UInt8) :
    fromLE (b :: bs) = b.toNat + 256 * fromLE bs := by
  simp [fromLE, Nat.ofDigits_cons]

theorem fromLE_lt (bs : List UInt8) : fromLE bs < 256 ^ bs.length := by
  have := Nat.ofDigits_lt_base_pow_length (b := 256) (l := bs.map UInt8.toNat) (by norm_num)
    (by simp only [List.mem_map]; rintro _ ⟨b, -, rfl⟩; exact b.toNat_lt)
  simpa [fromLE] using this

/-- Reading back what was written. -/
theorem fromLE_toLE (n v : ℕ) : fromLE (toLE n v) = v % 256 ^ n := by
  induction n generalizing v with
  | zero => simp [toLE, fromLE, Nat.mod_one]
  | succ n ih =>
    rw [toLE, fromLE_cons, ih, pow_succ', Nat.mod_mul]
    simp

/-- Writing back what was read. -/
theorem toLE_fromLE (bs : List UInt8) : toLE bs.length (fromLE bs) = bs := by
  induction bs with
  | nil => rfl
  | cons b bs ih =>
    have hb : b.toNat < 256 := b.toNat_lt
    have hlow : (b.toNat + 256 * fromLE bs) % 256 = b.toNat := by omega
    have hhigh : (b.toNat + 256 * fromLE bs) / 256 = fromLE bs := by omega
    rw [List.length_cons, toLE, fromLE_cons, hlow, hhigh, ih, UInt8.ofNat_toNat]

/-! ## Bit strings -/

/-- The eight bits of a byte, least significant first. -/
def byteBits (b : UInt8) : List Bool := (List.range 8).map b.toNat.testBit

/-- The bits of a byte string, in byte order, the least significant bit of each byte first. -/
def bits (bs : List UInt8) : List Bool := bs.flatMap byteBits

@[simp] theorem byteBits_length (b : UInt8) : (byteBits b).length = 8 := by simp [byteBits]

@[simp] theorem bits_cons (b : UInt8) (bs : List UInt8) : bits (b :: bs) = byteBits b ++ bits bs := rfl

theorem bits_append (xs ys : List UInt8) : bits (xs ++ ys) = bits xs ++ bits ys := by
  simp [bits]

@[simp] theorem bits_length (bs : List UInt8) : (bits bs).length = 8 * bs.length := by
  induction bs with
  | nil => rfl
  | cons b bs ih => simp [ih]; ring

theorem byteBits_injective : Function.Injective byteBits := by
  intro a b h
  apply UInt8.toNat_inj.mp
  apply Nat.eq_of_testBit_eq
  intro i
  by_cases hi : i < 8
  · have := congrArg (fun l => l.getD i false) h
    simpa [byteBits, List.getD_eq_getElem?_getD, hi] using this
  · have hpow : 2 ^ 8 ≤ 2 ^ i := Nat.pow_le_pow_right (by norm_num) (by omega)
    rw [Nat.testBit_lt_two_pow (lt_of_lt_of_le a.toNat_lt hpow),
      Nat.testBit_lt_two_pow (lt_of_lt_of_le b.toNat_lt hpow)]

theorem bits_injective : Function.Injective bits := by
  intro xs
  induction xs with
  | nil =>
    intro ys h
    have := congrArg List.length h
    simp only [bits_length, List.length_nil] at this
    exact (List.length_eq_zero_iff.mp (by omega)).symm
  | cons x xs ih =>
    intro ys h
    cases ys with
    | nil => simpa using congrArg List.length h
    | cons y ys =>
      obtain ⟨h1, h2⟩ := List.append_inj h (by simp)
      rw [byteBits_injective h1, ih h2]

/-- The bits of a little-endian integer are its bits, least significant first. -/
theorem bits_toLE (n v : ℕ) : bits (toLE n v) = (List.range (8 * n)).map v.testBit := by
  induction n generalizing v with
  | zero => rfl
  | succ n ih =>
    have hbyte : byteBits (UInt8.ofNat (v % 256)) = (List.range 8).map v.testBit := by
      refine List.map_congr_left fun i hi => ?_
      have hi : i < 8 := List.mem_range.mp hi
      rw [UInt8.toNat_ofNat', Nat.mod_mod, show 256 = 2 ^ 8 by norm_num, Nat.testBit_mod_two_pow]
      simp [hi]
    rw [toLE, bits_cons, hbyte, ih, show 8 * (n + 1) = 8 + 8 * n by ring, List.range_add,
      List.map_append, List.map_map]
    congr 1
    refine List.map_congr_left fun i _ => ?_
    rw [show 256 = 2 ^ 8 by norm_num, Nat.testBit_div_two_pow, Function.comp_apply, Nat.add_comm]

/-! ## Bursts -/

/-- The `i`-th bit of a byte string; past the end it is `false`. -/
def bitAt (bs : List UInt8) (i : ℕ) : Bool := (bs.getD (i / 8) 0).toNat.testBit (i % 8)

theorem bitAt_eq (bs : List UInt8) (i : ℕ) : bitAt bs i = (bits bs).getD i false := by
  induction bs generalizing i with
  | nil => simp [bitAt]
  | cons b bs ih =>
    rw [bits_cons]
    by_cases hi : i < 8
    · rw [List.getD_append _ _ _ _ (by simpa using hi), bitAt, Nat.div_eq_of_lt hi,
        Nat.mod_eq_of_lt hi]
      simp [byteBits, List.getD_eq_getElem?_getD, hi]
    · rw [List.getD_append_right _ _ _ _ (by simpa using hi), byteBits_length, ← ih (i - 8), bitAt,
        bitAt, show i / 8 = (i - 8) / 8 + 1 by omega, show i % 8 = (i - 8) % 8 by omega,
        List.getD_cons_succ]

/-- `bs'` is `bs` with some bits flipped, at least one, all of them within `w` consecutive bits. -/
structure Burst (w : ℕ) (bs bs' : List UInt8) : Prop where
  length_eq : bs'.length = bs.length
  ne : bs' ≠ bs
  window : ∃ k, ∀ i, bitAt bs i ≠ bitAt bs' i → k ≤ i ∧ i < k + w

/-- The change of one byte is a burst of eight bits. -/
theorem Burst.set {w : ℕ} (hw : 8 ≤ w) {bs : List UInt8} {i : ℕ} (hi : i < bs.length) {b : UInt8}
    (hb : b ≠ bs[i]) : Burst w bs (bs.set i b) := by
  refine ⟨List.length_set, fun h => hb ?_, 8 * i, fun j hj => ?_⟩
  · have := congrArg (fun l => l[i]?) h
    simpa [hi] using this
  · by_cases hij : i = j / 8
    · omega
    · simp [bitAt, List.getD_eq_getElem?_getD, List.getElem?_set_ne hij] at hj

end EerieLeap.Lib.Bits
