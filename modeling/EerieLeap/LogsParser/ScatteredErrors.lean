import EerieLeap.Lib.ScatteredErrors
import EerieLeap.LogsParser.Corruption
import Mathlib.Tactic.NormNum.Prime

/-!
# Scattered errors

Beside the bursts, CRC-32 shows up to three flipped bits anywhere in a record or a header, and two
anywhere in a file of less than 512 MiB.

* `minimalPeriod_crc32` : the register of CRC-32 runs through all words but zero;
* `separates_crc32_two`, `separates_crc32_three` : two bits are separated on everything shorter than
  that, three on the length of a header;
* `scattered_not_accepted` : records, headers and metadata files.
-/

namespace EerieLeap.LogsParser

open EerieLeap.Lib.Bits EerieLeap.Lib.Checksum EerieLeap.Lib.Register

variable {α : Type}

/-! ## What CRC-32 separates -/

/-- The iterates by the period and by its quotients by the primes 3, 5, 17, 257 and 65537. -/
theorem iterates_crc32 :
    ([4294967295, 1431655765, 858993459, 252645135, 16711935, 65535].map
        fun n => ((shift zlibCrc.poly)^[n] 1#32).toNat) =
      [1, 2438888476, 2244940330, 1776537313, 3688911545, 2981948293] := by
  rw [map_iterate_eq_iterates 32 (xorLinear_shift zlibCrc.poly) 1#32 (by decide)]
  decide +kernel

theorem eq_of_prime_dvd {p : ℕ} (hp : p.Prime) (h : p ∣ 4294967295) :
    p = 3 ∨ p = 5 ∨ p = 17 ∨ p = 257 ∨ p = 65537 := by
  rw [show 4294967295 = 3 * (5 * (17 * (257 * 65537))) by rfl] at h
  simp only [hp.dvd_mul] at h
  have heq : ∀ {q : ℕ}, q.Prime → p ∣ q → p = q := fun hq => (Nat.prime_dvd_prime_iff_eq hp hq).mp
  rcases h with h | h | h | h | h
  · exact Or.inl (heq (by norm_num) h)
  · exact Or.inr (Or.inl (heq (by norm_num) h))
  · exact Or.inr (Or.inr (Or.inl (heq (by norm_num) h)))
  · exact Or.inr (Or.inr (Or.inr (Or.inl (heq (by norm_num) h))))
  · exact Or.inr (Or.inr (Or.inr (Or.inr (heq (by norm_num) h))))

/-- **The period of CRC-32**. -/
theorem minimalPeriod_crc32 : Function.minimalPeriod (shift zlibCrc.poly) 1#32 = 4294967295 := by
  have hiter := iterates_crc32
  simp only [List.map_cons, List.map_nil, List.cons.injEq, and_true] at hiter
  obtain ⟨hperiod, h3, h5, h17, h257, h65537⟩ := hiter
  have hne : ∀ {n v : ℕ}, ((shift zlibCrc.poly)^[n] 1#32).toNat = v → v ≠ 1 →
      (shift zlibCrc.poly)^[n] 1#32 ≠ 1#32 := by
    rintro n v hv hv1 heq
    rw [heq] at hv
    exact hv1 hv.symm
  refine minimalPeriod_eq (BitVec.eq_of_toNat_eq hperiod) fun p hp hdvd => ?_
  rcases eq_of_prime_dvd hp hdvd with rfl | rfl | rfl | rfl | rfl
  · exact hne h3 (by decide)
  · exact hne h5 (by decide)
  · exact hne h17 (by decide)
  · exact hne h257 (by decide)
  · exact hne h65537 (by decide)

/-- Two bits are separated on everything shorter than the period. -/
theorem separates_crc32_two {n : ℕ} (hn : n ≤ 4294967295) : Separates zlibCrc.poly 2 n :=
  separates_two zlibCrc.msb_poly (hn.trans_eq minimalPeriod_crc32.symm)

/-- Three bits are separated on the length of a header. -/
theorem separates_crc32_three : Separates zlibCrc.poly 3 256 :=
  separates_three (n := 255) (q := 5932) zlibCrc.msb_poly
    (le_of_le_of_eq (by decide) minimalPeriod_crc32.symm) (by decide +kernel)

/-! ## What is not accepted -/

/-- A reader that only accepts codewords accepts no input with scattered errors in it. -/
theorem Accepts.not_of_flips {create : PyStream (Option α)} {t : ℕ} {s s' : List UInt8}
    (hcode : ∀ u, u.length = s.length → Accepts create u → zlibCrc.IsCodeword u)
    (hsep : Separates zlibCrc.poly t (8 * s.length)) (h : Accepts create s) (hf : Flips t s s') :
    ¬ Accepts create s' := fun h' =>
  (hcode s rfl h).not_of_flips zlibCrc hsep hf (hcode s' hf.length_eq h')

/-- **Scattered errors are never accepted**: flip one, two or three bits, wherever they stand, of an
accepted record or header, or one or two bits of an accepted metadata file of less than 512 MiB, and
what comes out is not accepted. -/
theorem scattered_not_accepted (parseCborHex : CborParser) (cddl : String) :
    (∀ s s' : List UInt8, s.length = 21 → Flips 3 s s' → Accepts LogDataRecordAnalog.create s →
        ¬ Accepts LogDataRecordAnalog.create s') ∧
      (∀ s s' : List UInt8, s.length = 32 → Flips 3 s s' → Accepts LogDataHeader.create s →
        ¬ Accepts LogDataHeader.create s') ∧
      ∀ s s' : List UInt8, s.length < 2 ^ 29 → Flips 2 s s' →
        Accepts (LogMetadata.create parseCborHex cddl) s →
          ¬ Accepts (LogMetadata.create parseCborHex cddl) s' := by
  refine ⟨fun s s' hlen hf h => ?_, fun s s' hlen hf h => ?_, fun s s' hlen hf h => ?_⟩
  · refine h.not_of_flips (fun u hu => isCodeword_of_accepts_record (hu.trans hlen)) ?_ hf
    exact separates_crc32_three.mono le_rfl (by omega)
  · refine h.not_of_flips (fun u hu => isCodeword_of_accepts_header (hu.trans hlen)) ?_ hf
    exact separates_crc32_three.mono le_rfl (by omega)
  · refine h.not_of_flips (fun u _ => isCodeword_of_accepts_metadata) ?_ hf
    exact separates_crc32_two (by omega)

/-- A record with one bit flipped in its start mark, one in its sensor id and one in its checksum. -/
def scatteredRecord : List UInt8 :=
  let s := someRecord.toRecord.encode
  ((s.set 0 (s.getD 0 0 ^^^ 1)).set 9 (s.getD 9 0 ^^^ 16)).set 20 (s.getD 20 0 ^^^ 128)

theorem scatteredRecord_not_accepted : ¬ Accepts LogDataRecordAnalog.create scatteredRecord :=
  (scattered_not_accepted (fun _ _ _ => none) "").1 _ _ someRecord.valid.encode_length
    ⟨by decide +kernel, by decide +kernel, by decide +kernel⟩ accepts_someRecord

end EerieLeap.LogsParser
