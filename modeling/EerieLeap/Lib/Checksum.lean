import EerieLeap.Lib.Bits
import EerieLeap.Lib.Register

/-!
# Checksums of byte strings

The checksum of a byte string under a reflected CRC of width `w`: the register is preset, run over
the bits of the string and added to a final word. `Crc w` holds the parameters, with the proof that
the polynomial has its top bit set.

* `update_append` : a checksum can be taken piece by piece;
* `isCodeword_iff` : a string followed by its own checksum, little-endian, is recognised by the
  register alone, with no boundary between the two;
* `IsCodeword.not_of_burst` : a burst of at most `w` bits never turns one such string into another.
-/

namespace EerieLeap.Lib.Checksum

open EerieLeap.Lib.Bits EerieLeap.Lib.Register

/-- The parameters of a reflected CRC whose checksum takes `n` bytes. -/
structure Crc (n : ℕ) where
  /-- The polynomial, reflected. -/
  poly : BitVec (8 * n)
  /-- What the register is preset to, and what is added to it at the end. -/
  mask : BitVec (8 * n)
  /-- A reflected polynomial of full degree has its top bit set. -/
  msb_poly : poly.msb = true

variable {n : ℕ} (C : Crc n)

/-- The register's run over the bits of a byte string. -/
def Crc.run (c : BitVec (8 * n)) (bs : List UInt8) : BitVec (8 * n) := feed C.poly c (bits bs)

/-- The checksum of `bs` carried on from the checksum `value` of what came before. -/
def Crc.update (value : BitVec (8 * n)) (bs : List UInt8) : BitVec (8 * n) :=
  C.run (value ^^^ C.mask) bs ^^^ C.mask

/-- A checksum as it is stored: `n` bytes, least significant first. -/
def storedLE (s : BitVec (8 * n)) : List UInt8 := toLE n s.toNat

@[simp] theorem storedLE_length (s : BitVec (8 * n)) : (storedLE s).length = n := toLE_length _ _

theorem Crc.run_append (c : BitVec (8 * n)) (xs ys : List UInt8) :
    C.run c (xs ++ ys) = C.run (C.run c xs) ys := by
  unfold Crc.run
  rw [bits_append, feed_append]

/-- **Piece by piece**: the checksum of a concatenation is the checksum of the second part carried
on from that of the first. -/
theorem Crc.update_append (value : BitVec (8 * n)) (xs ys : List UInt8) :
    C.update value (xs ++ ys) = C.update (C.update value xs) ys := by
  unfold Crc.update
  rw [C.run_append, BitVec.xor_assoc (C.run _ xs) C.mask C.mask, BitVec.xor_self, BitVec.xor_zero]

theorem word_bits_storedLE (s : BitVec (8 * n)) : word (8 * n) (bits (storedLE s)) = s := by
  apply BitVec.eq_of_getLsbD_eq
  intro i hi
  rw [getLsbD_word _ _ hi, storedLE, bits_toLE, List.getD_eq_getElem?_getD]
  simp [hi, BitVec.getLsbD]

/-- The register's run over a stored checksum. -/
theorem Crc.run_storedLE (c s : BitVec (8 * n)) :
    C.run c (storedLE s) = (shift C.poly)^[8 * n] (c ^^^ s) := by
  have hlen : (bits (storedLE s)).length = 8 * n := by simp
  rw [Crc.run, feed_word _ _ _ hlen.le, hlen, word_bits_storedLE]

/-- A byte string that ends in its own checksum. -/
def Crc.IsCodeword (cs : List UInt8) : Prop := ∃ bs, cs = bs ++ storedLE (C.update 0#(8 * n) bs)

/-- The register of a string followed by a stored word tells whether that word is its checksum. -/
theorem Crc.eq_update_iff (bs : List UInt8) (s : BitVec (8 * n)) :
    s = C.update 0#(8 * n) bs ↔
      C.run C.mask (bs ++ storedLE s) = (shift C.poly)^[8 * n] C.mask := by
  rw [C.run_append, C.run_storedLE, (iterate_shift_injective C.msb_poly (8 * n)).eq_iff, Crc.update,
    BitVec.zero_xor]
  generalize C.run C.mask bs = r
  constructor
  · rintro rfl
    rw [← BitVec.xor_assoc, BitVec.xor_self, BitVec.zero_xor]
  · intro h
    rw [← h, ← BitVec.xor_assoc, BitVec.xor_self, BitVec.zero_xor]

theorem Crc.IsCodeword.run_eq {cs : List UInt8} (h : C.IsCodeword cs) :
    C.run C.mask cs = (shift C.poly)^[8 * n] C.mask := by
  obtain ⟨bs, rfl⟩ := h
  exact (C.eq_update_iff bs _).mp rfl

/-- **Bursts are detected**: a change of bits within `8 * n` consecutive ones never leads from one
string that ends in its checksum to another. -/
theorem Crc.IsCodeword.not_of_burst {cs cs' : List UInt8} (h : C.IsCodeword cs)
    (hb : Burst (8 * n) cs cs') : ¬ C.IsCodeword cs' := by
  intro h'
  obtain ⟨k, hk⟩ := hb.window
  refine hb.ne (bits_injective ?_).symm
  refine eq_of_feed_eq_of_window (k := k) (c := C.mask) C.msb_poly ?_ ?_ (h.run_eq.trans h'.run_eq.symm)
  · rw [bits_length, bits_length, hb.length_eq]
  · intro i hi
    rw [← bitAt_eq, ← bitAt_eq] at hi
    exact hk i hi

end EerieLeap.Lib.Checksum
