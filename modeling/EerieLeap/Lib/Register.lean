import Mathlib.Logic.Function.Iterate
import Mathlib.Data.List.GetD
import Mathlib.Tactic.Linarith

/-!
# The bit-serial CRC register

A reflected cyclic-redundancy register of any width `w` and any polynomial `poly`, fed one bit at
a time, least significant end first.

* `shift` is the register's move on a zero bit, `feed` its run over a list of bits;
* `feed_xor` : the run is linear in the register and the bits together;
* `feed_word` : running over a whole word is shifting the register with that word added in;
* `shift_injective` : when the polynomial has its top bit set, a shift loses nothing;
* `eq_of_feed_eq_of_window` : two bit strings that differ only inside a window of `w` bits and
  leave the same register are equal, which is the detection of bursts.
-/

namespace EerieLeap.Lib.Register

variable {w : ℕ}

/-- One step of the register on a zero bit. -/
def shift (poly c : BitVec w) : BitVec w :=
  if c.getLsbD 0 then (c >>> 1) ^^^ poly else c >>> 1

/-- A bit as a word: it stands at the low end. -/
def bitWord (w : ℕ) (b : Bool) : BitVec w := if b then 1#w else 0#w

/-- One step of the register on the bit `b`. -/
def feedBit (poly c : BitVec w) (b : Bool) : BitVec w := shift poly (c ^^^ bitWord w b)

/-- The run of the register over a list of bits. -/
def feed (poly c : BitVec w) (bs : List Bool) : BitVec w := bs.foldl (feedBit poly) c

/-- The word whose low bits are `bs`, least significant first. -/
def word (w : ℕ) : List Bool → BitVec w
  | [] => 0#w
  | b :: bs => bitWord w b ^^^ (word w bs <<< 1)

/-! ## Linearity -/

section Linear

variable (poly : BitVec w)

theorem xor_xor_cancel (a b p : BitVec w) : a ^^^ p ^^^ (b ^^^ p) = a ^^^ b := by
  rw [BitVec.xor_assoc a p (b ^^^ p), BitVec.xor_comm b p, ← BitVec.xor_assoc p p b,
    BitVec.xor_self, BitVec.zero_xor]

theorem shift_xor (a b : BitVec w) : shift poly (a ^^^ b) = shift poly a ^^^ shift poly b := by
  unfold shift
  simp only [BitVec.getLsbD_xor, BitVec.ushiftRight_xor_distrib]
  cases a.getLsbD 0 <;> cases b.getLsbD 0
  · rfl
  · simp [BitVec.xor_assoc]
  · simp only [Bool.true_bne, Bool.not_false, if_true, Bool.false_eq_true, if_false]
    ac_rfl
  · simp only [bne_self_eq_false, Bool.false_eq_true, if_false, if_true]
    exact (xor_xor_cancel _ _ _).symm

theorem shift_zero : shift poly 0#w = 0#w := by simp [shift]

theorem iterate_shift_xor (n : ℕ) (a b : BitVec w) :
    (shift poly)^[n] (a ^^^ b) = (shift poly)^[n] a ^^^ (shift poly)^[n] b := by
  induction n generalizing a b with
  | zero => rfl
  | succ n ih => simp only [Function.iterate_succ_apply, shift_xor, ih]

theorem iterate_shift_zero (n : ℕ) : (shift poly)^[n] 0#w = 0#w := by
  induction n with
  | zero => rfl
  | succ n ih => rw [Function.iterate_succ_apply, shift_zero, ih]

theorem bitWord_xor (a b : Bool) : bitWord w (a ^^ b) = bitWord w a ^^^ bitWord w b := by
  cases a <;> cases b <;> simp [bitWord]

@[simp] theorem feed_cons (c : BitVec w) (b : Bool) (bs : List Bool) :
    feed poly c (b :: bs) = feed poly (feedBit poly c b) bs := rfl

theorem feed_append (c : BitVec w) (xs ys : List Bool) :
    feed poly c (xs ++ ys) = feed poly (feed poly c xs) ys := by
  simp [feed, List.foldl_append]

/-- **The run is linear**: the run of a sum over a sum is the sum of the two runs. -/
theorem feed_xor (c d : BitVec w) : ∀ xs ys : List Bool, xs.length = ys.length →
    feed poly (c ^^^ d) (List.zipWith (· ^^ ·) xs ys) = feed poly c xs ^^^ feed poly d ys := by
  intro xs
  induction xs generalizing c d with
  | nil =>
    intro ys h
    obtain rfl : ys = [] := List.length_eq_zero_iff.mp h.symm
    rfl
  | cons x xs ih =>
    intro ys h
    obtain ⟨y, ys, rfl⟩ := List.exists_cons_of_length_eq_add_one h.symm
    have hstep : feedBit poly (c ^^^ d) (x ^^ y) = feedBit poly c x ^^^ feedBit poly d y := by
      unfold feedBit
      rw [bitWord_xor, ← shift_xor]
      congr 1
      ac_rfl
    rw [List.zipWith_cons_cons, feed_cons, hstep, ih _ _ ys (by simpa using h)]
    rfl

theorem feed_replicate_false (c : BitVec w) (n : ℕ) :
    feed poly c (List.replicate n false) = (shift poly)^[n] c := by
  induction n generalizing c with
  | zero => rfl
  | succ n ih =>
    have hzero : feedBit poly c false = shift poly c := by simp [feedBit, bitWord]
    rw [List.replicate_succ, feed_cons, hzero, ih, Function.iterate_succ_apply]

/-- The run from any register, split into the register's part and the bits' part. -/
theorem feed_eq_xor (c : BitVec w) (bs : List Bool) :
    feed poly c bs = (shift poly)^[bs.length] c ^^^ feed poly 0#w bs := by
  have hz : List.zipWith (· ^^ ·) (List.replicate bs.length false) bs = bs := by
    induction bs with
    | nil => rfl
    | cons b bs ih => simp [List.replicate_succ, ih]
  have := feed_xor poly c 0#w (List.replicate bs.length false) bs (by simp)
  rwa [hz, BitVec.xor_zero, feed_replicate_false] at this

end Linear

/-! ## Running over a word -/

section Word

variable (poly : BitVec w)

/-- A word with a clear top bit, moved up one place, is moved back by one shift. -/
theorem shift_shiftLeft {x : BitVec w} (hx : x.msb = false) : shift poly (x <<< 1) = x := by
  have hlow : (x <<< 1).getLsbD 0 = false := by simp
  simp only [shift, hlow, Bool.false_eq_true, if_false]
  apply BitVec.eq_of_getLsbD_eq
  intro i hi
  rw [BitVec.getLsbD_ushiftRight, BitVec.getLsbD_shiftLeft]
  by_cases htop : i + 1 = w
  · have hmsb : x.getLsbD i = false := by
      rw [BitVec.msb_eq_getLsbD_last] at hx
      rwa [show w - 1 = i by omega] at hx
    simp [hmsb, show ¬ 1 + i < w by omega]
  · simp [show 1 + i < w by omega]

theorem getLsbD_word : ∀ (bs : List Bool) (i : ℕ), i < w → (word w bs).getLsbD i = bs.getD i false
  | [], i, _ => by simp [word]
  | b :: bs, 0, hi => by
    cases b <;> simp [word, bitWord, hi]
  | b :: bs, i + 1, hi => by
    have ih := getLsbD_word bs i (by omega)
    have hbit : (bitWord w b).getLsbD (i + 1) = false := by
      cases b <;> simp [bitWord, BitVec.getLsbD_one]
    rw [word, BitVec.getLsbD_xor, hbit, Bool.false_xor, BitVec.getLsbD_shiftLeft]
    simp [hi, ih]

theorem msb_word {bs : List Bool} (h : bs.length < w) : (word w bs).msb = false := by
  rw [BitVec.msb_eq_getLsbD_last, getLsbD_word _ _ (by omega)]
  exact List.getD_eq_default _ _ (by omega)

/-- From the zero register, at most `w` bits are read as the word they spell. -/
theorem feed_zero_eq_word : ∀ bs : List Bool, bs.length ≤ w →
    feed poly 0#w bs = (shift poly)^[bs.length] (word w bs) := by
  intro bs
  induction bs with
  | nil => intro _; rfl
  | cons b bs ih =>
    intro h
    have h' : bs.length < w := by simpa [Nat.succ_le_iff] using h
    have hb : feedBit poly 0#w b = shift poly (bitWord w b) := by simp [feedBit]
    calc feed poly 0#w (b :: bs)
        = feed poly (shift poly (bitWord w b)) bs := by rw [feed_cons, hb]
      _ = (shift poly)^[bs.length] (shift poly (bitWord w b)) ^^^
            (shift poly)^[bs.length] (word w bs) := by rw [feed_eq_xor, ih h'.le]
      _ = (shift poly)^[bs.length] (shift poly (bitWord w b) ^^^ shift poly (word w bs <<< 1)) := by
            rw [iterate_shift_xor, shift_shiftLeft poly (msb_word h')]
      _ = (shift poly)^[(b :: bs).length] (word w (b :: bs)) := by
            rw [← shift_xor, List.length_cons, Function.iterate_succ_apply, word]

/-- **Running over a word**: the word is added to the register, which is then shifted. -/
theorem feed_word (c : BitVec w) (bs : List Bool) (h : bs.length ≤ w) :
    feed poly c bs = (shift poly)^[bs.length] (c ^^^ word w bs) := by
  rw [feed_eq_xor, feed_zero_eq_word poly bs h, ← iterate_shift_xor]

end Word

/-! ## Nothing is lost -/

section Injective

variable {poly : BitVec w}

theorem eq_zero_of_shift_eq_zero (hp : poly.msb = true) {a : BitVec w}
    (h : shift poly a = 0#w) : a = 0#w := by
  have hw : 0 < w := by
    rcases Nat.eq_zero_or_pos w with rfl | hw
    · simp [BitVec.msb_eq_getLsbD_last] at hp
    · exact hw
  unfold shift at h
  split at h
  · -- the top bit of the polynomial survives: a shifted register has none to cancel it
    exfalso
    have hpoly : a >>> 1 = poly := BitVec.xor_eq_zero_iff.mp h
    have hmsb : (a >>> 1).msb = false := by
      rw [BitVec.msb_eq_getLsbD_last, BitVec.getLsbD_ushiftRight]
      exact BitVec.getLsbD_of_ge _ _ (by omega)
    rw [hpoly, hp] at hmsb
    cases hmsb
  · rename_i hlow
    apply BitVec.eq_of_getLsbD_eq
    intro i hi
    cases i with
    | zero => simpa using hlow
    | succ i =>
      have := congrArg (fun x => x.getLsbD i) h
      simpa [Nat.add_comm] using this

/-- **A shift loses nothing** when the polynomial has its top bit set. -/
theorem shift_injective (hp : poly.msb = true) : Function.Injective (shift poly) := by
  intro a b h
  have hz : shift poly (a ^^^ b) = 0#w := by rw [shift_xor, h, BitVec.xor_self]
  exact BitVec.xor_eq_zero_iff.mp (eq_zero_of_shift_eq_zero hp hz)

theorem iterate_shift_injective (hp : poly.msb = true) (n : ℕ) :
    Function.Injective ((shift poly)^[n]) :=
  (shift_injective hp).iterate n

theorem iterate_shift_eq_zero (hp : poly.msb = true) {n : ℕ} {a : BitVec w} :
    (shift poly)^[n] a = 0#w ↔ a = 0#w := by
  constructor
  · intro h
    exact iterate_shift_injective hp n (h.trans (iterate_shift_zero poly n).symm)
  · rintro rfl
    exact iterate_shift_zero poly n

/-- Bits that fit in the register and leave it zero are all zero. -/
theorem all_false_of_feed_zero (hp : poly.msb = true) {bs : List Bool} (h : bs.length ≤ w)
    (hz : feed poly 0#w bs = 0#w) : ∀ i, bs.getD i false = false := by
  intro i
  rw [feed_zero_eq_word poly bs h, iterate_shift_eq_zero hp] at hz
  by_cases hi : i < w
  · rw [← getLsbD_word bs i hi, hz]
    simp
  · exact List.getD_eq_default _ _ (by omega)

end Injective

/-! ## Bursts -/

section Burst

variable {poly : BitVec w}

theorem eq_replicate_false {bs : List Bool} (h : ∀ i, bs.getD i false = false) :
    bs = List.replicate bs.length false := by
  apply List.ext_getElem (by simp)
  intro i h1 h2
  have := h i
  rw [List.getD_eq_getElem _ _ h1] at this
  simpa using this

/-- A bit string that is zero outside a window of `w` bits and leaves the zero register zero is
zero throughout. -/
theorem all_false_of_window (hp : poly.msb = true) {es : List Bool} {k : ℕ}
    (hwin : ∀ i, es.getD i false = true → k ≤ i ∧ i < k + w) (hz : feed poly 0#w es = 0#w) :
    ∀ i, es.getD i false = false := by
  have hout : ∀ i, ¬ (k ≤ i ∧ i < k + w) → es.getD i false = false := fun i hi => by
    simpa using mt (hwin i) hi
  -- the string is zeros, then at most `w` bits, then zeros
  have hpre : es.take k = List.replicate (es.take k).length false := by
    refine eq_replicate_false fun i => ?_
    rw [List.getD_eq_getElem?_getD, List.getElem?_take]
    split
    · rw [← List.getD_eq_getElem?_getD]; exact hout i (by omega)
    · rfl
  have hpost : es.drop (k + w) = List.replicate (es.drop (k + w)).length false := by
    refine eq_replicate_false fun i => ?_
    rw [List.getD_eq_getElem?_getD, List.getElem?_drop, ← List.getD_eq_getElem?_getD]
    exact hout _ (by omega)
  have hsplit : es = es.take k ++ ((es.drop k).take w ++ es.drop (k + w)) := by
    rw [← List.drop_drop, List.take_append_drop, List.take_append_drop]
  have hmid : feed poly 0#w ((es.drop k).take w) = 0#w := by
    rw [hsplit, feed_append, feed_append, hpre, feed_replicate_false, iterate_shift_zero, hpost,
      feed_replicate_false, iterate_shift_eq_zero hp] at hz
    exact hz
  have hall := all_false_of_feed_zero hp (by simp) hmid
  intro i
  by_cases hi : k ≤ i ∧ i < k + w
  · have h := hall (i - k)
    rw [List.getD_eq_getElem?_getD, List.getElem?_take, if_pos (by omega), List.getElem?_drop,
      ← List.getD_eq_getElem?_getD, show k + (i - k) = i by omega] at h
    exact h
  · exact hout i hi

theorem getD_zipWith_xor : ∀ (xs ys : List Bool), xs.length = ys.length → ∀ i,
    (List.zipWith (· ^^ ·) xs ys).getD i false = (xs.getD i false ^^ ys.getD i false) := by
  intro xs ys h i
  by_cases hi : i < xs.length
  · rw [List.getD_eq_getElem _ _ (by simp; omega), List.getD_eq_getElem _ _ hi,
      List.getD_eq_getElem _ _ (by omega), List.getElem_zipWith]
  · rw [List.getD_eq_default _ _ (by simp; omega), List.getD_eq_default _ _ (by omega),
      List.getD_eq_default _ _ (by omega)]
    rfl

/-- **Detection of bursts**: two bit strings of one length that differ only inside a window of `w`
bits, and take the register from one value to one value, are equal. -/
theorem eq_of_feed_eq_of_window (hp : poly.msb = true) {xs ys : List Bool} {c : BitVec w} {k : ℕ}
    (hlen : xs.length = ys.length)
    (hwin : ∀ i, xs.getD i false ≠ ys.getD i false → k ≤ i ∧ i < k + w)
    (hfeed : feed poly c xs = feed poly c ys) : xs = ys := by
  have hz : feed poly 0#w (List.zipWith (· ^^ ·) xs ys) = 0#w := by
    have := feed_xor poly c c xs ys hlen
    rwa [BitVec.xor_self, hfeed, BitVec.xor_self] at this
  have hall := all_false_of_window (k := k) hp (fun i hi => hwin i (by
    rw [getD_zipWith_xor xs ys hlen] at hi
    intro heq
    rw [heq, Bool.xor_self] at hi
    cases hi)) hz
  apply List.ext_getElem hlen
  intro i h1 h2
  have h := hall i
  rw [getD_zipWith_xor xs ys hlen, List.getD_eq_getElem _ _ h1, List.getD_eq_getElem _ _ h2] at h
  simpa using h

end Burst

end EerieLeap.Lib.Register
