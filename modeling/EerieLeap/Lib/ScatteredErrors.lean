import EerieLeap.Lib.Checksum
import EerieLeap.Lib.Period

/-!
# Scattered errors

A CRC detects a few flipped bits wherever they stand. By linearity only the flipped bits count, and
by injectivity of the shift the last of them may be taken to stand at the end.

* `trace` is what single bits leave in the register, `places` where the set bits of a string stand;
* `Separates poly t n` : no one to `t` bits within `n` leave nothing;
* `separates_two`, `separates_three` : this follows for two bits from the period of the shift, for
  three from a search over pairs;
* `IsCodeword.not_of_flips` : then no one to `t` flipped bits turn one string that ends in its
  checksum into another.
-/

namespace EerieLeap.Lib.Register

variable {w : ℕ} (poly : BitVec w)

/-! ## What single bits leave -/

/-- The sum of what single bits leave, each of them followed by so many others. -/
def trace (ds : List ℕ) : BitVec w := ds.foldr (fun d c => (shift poly)^[d] 1#w ^^^ c) 0#w

/-- By how many bits the set bits of a string are followed. -/
def places : List Bool → List ℕ
  | [] => []
  | b :: bs => if b then bs.length :: places bs else places bs

@[simp] theorem trace_nil : trace poly [] = 0#w := rfl

@[simp] theorem trace_cons (d : ℕ) (ds : List ℕ) :
    trace poly (d :: ds) = (shift poly)^[d] 1#w ^^^ trace poly ds := rfl

theorem places_length (es : List Bool) : (places es).length = es.count true := by
  induction es with
  | nil => rfl
  | cons e es ih => cases e <;> simp [places, ih]

theorem lt_of_mem_places {es : List Bool} {d : ℕ} (h : d ∈ places es) : d < es.length := by
  induction es with
  | nil => simp [places] at h
  | cons e es ih =>
    rw [List.length_cons]
    cases e
    · exact (ih (by simpa [places] using h)).trans (Nat.lt_succ_self _)
    · rcases List.mem_cons.mp (show d ∈ es.length :: places es from h) with rfl | h
      · exact Nat.lt_succ_self _
      · exact (ih h).trans (Nat.lt_succ_self _)

theorem pairwise_places (es : List Bool) : (places es).Pairwise (· > ·) := by
  induction es with
  | nil => exact List.Pairwise.nil
  | cons e es ih =>
    cases e
    · exact ih
    · exact List.pairwise_cons.mpr ⟨fun _ => lt_of_mem_places, ih⟩

/-- **The register of a bit string is that of its set bits**. -/
theorem feed_zero_eq_trace (es : List Bool) : feed poly 0#w es = shift poly (trace poly (places es)) := by
  induction es with
  | nil => exact (shift_zero poly).symm
  | cons e es ih =>
    have hbit : feedBit poly 0#w e = shift poly (bitWord w e) := by simp [feedBit]
    rw [feed_cons, hbit, feed_eq_xor, ih, ← Function.iterate_succ_apply, Function.iterate_succ_apply',
      ← shift_xor]
    cases e
    · rw [show bitWord w false = 0#w from rfl, iterate_shift_zero, BitVec.zero_xor]
      rfl
    · rfl

theorem trace_append (ds ds' : List ℕ) :
    trace poly (ds ++ ds') = trace poly ds ^^^ trace poly ds' := by
  induction ds with
  | nil => simp
  | cons d ds ih => rw [List.cons_append, trace_cons, trace_cons, ih, BitVec.xor_assoc]

theorem trace_map_add (m : ℕ) (ds : List ℕ) :
    trace poly (ds.map (· + m)) = (shift poly)^[m] (trace poly ds) := by
  induction ds with
  | nil => exact (iterate_shift_zero poly m).symm
  | cons d ds ih =>
    rw [List.map_cons, trace_cons, trace_cons, iterate_shift_xor, ih, Nat.add_comm,
      Function.iterate_add_apply]

/-! ## Separation -/

/-- No one to `t` bits, all of them followed by fewer than `n` others, leave nothing. -/
def Separates (t n : ℕ) : Prop := ∀ ds : List ℕ, ds.length ≤ t → ds.Pairwise (· > ·) →
  (∀ d ∈ ds, d < n) → trace poly ds = 0#w → ds = []

variable {poly} {t n : ℕ}

theorem Separates.mono {t' n' : ℕ} (h : Separates poly t n) (ht : t' ≤ t) (hn : n' ≤ n) :
    Separates poly t' n' := fun ds hlen hpw hlt =>
  h ds (hlen.trans ht) hpw fun d hd => (hlt d hd).trans_le hn

theorem toNat_one_of_msb (hp : poly.msb = true) : (1#w).toNat = 1 := by
  rcases Nat.eq_zero_or_pos w with rfl | hw
  · simp [BitVec.msb_eq_getLsbD_last] at hp
  · exact BitVec.toNat_one hw

theorem zero_ne_one_of_msb (hp : poly.msb = true) : 0#w ≠ 1#w := by
  intro h
  have := congrArg BitVec.toNat h
  rw [toNat_one_of_msb hp] at this
  simp at this

/-- **The last of the bits may be taken to stand at the end**, where it leaves one. -/
theorem separates_succ (hp : poly.msb = true)
    (h : ∀ ds : List ℕ, ds.length ≤ t → ds.Pairwise (· > ·) → (∀ d ∈ ds, 0 < d ∧ d < n) →
      trace poly ds ≠ 1#w) : Separates poly (t + 1) n := by
  intro ds hlen hpw hlt hz
  rcases List.eq_nil_or_concat ds with rfl | ⟨es, m, rfl⟩
  · rfl
  · exfalso
    rw [List.concat_eq_append] at hlen hpw hlt hz
    have hgt : ∀ d ∈ es, m < d := fun d hd =>
      (List.pairwise_append.mp hpw).2.2 d hd m (List.mem_singleton_self m)
    -- the other bits, counted from the last one
    have hes : (es.map (· - m)).map (· + m) = es := by
      rw [List.map_map]
      exact (List.map_congr_left fun d hd => Nat.sub_add_cancel (hgt d hd).le).trans (List.map_id es)
    refine h (es.map (· - m)) ?_ ?_ ?_ ?_
    · simpa using hlen
    · refine List.pairwise_map.mpr ((List.pairwise_append.mp hpw).1.imp_of_mem ?_)
      intro a b ha hb hab
      have := hgt a ha
      have := hgt b hb
      omega
    · intro d hd
      obtain ⟨a, ha, rfl⟩ := List.mem_map.mp hd
      have := hgt a ha
      have := hlt a (List.mem_append_left _ ha)
      omega
    · rw [trace_append, trace_cons, trace_nil, BitVec.xor_zero, ← hes, trace_map_add,
        ← iterate_shift_xor, iterate_shift_eq_zero hp] at hz
      exact BitVec.xor_eq_zero_iff.mp hz

/-- A single bit leaves one again only after the period. -/
theorem iterate_shift_one_ne (hn : n ≤ Function.minimalPeriod (shift poly) 1#w) {d : ℕ}
    (hd : 0 < d ∧ d < n) : (shift poly)^[d] 1#w ≠ 1#w :=
  Function.not_isPeriodicPt_of_pos_of_lt_minimalPeriod hd.1.ne' (hd.2.trans_le hn)

/-- **Two bits** are separated within the period. -/
theorem separates_two (hp : poly.msb = true) (hn : n ≤ Function.minimalPeriod (shift poly) 1#w) :
    Separates poly 2 n := by
  refine separates_succ hp fun ds hlen _ hlt => ?_
  match ds with
  | [] => exact zero_ne_one_of_msb hp
  | [d] =>
    rw [trace_cons, trace_nil, BitVec.xor_zero]
    exact iterate_shift_one_ne hn (hlt d (List.mem_singleton_self d))
  | _ :: _ :: _ => simp at hlen

/-- The register after one to `n` shifts, as numbers. -/
def orbit (poly : BitVec w) : ℕ → BitVec w → List ℕ
  | 0, _ => []
  | n + 1, c => (shift poly c).toNat :: orbit poly n (shift poly c)

theorem mem_orbit (n : ℕ) (c : BitVec w) {d : ℕ} (h0 : 0 < d) (hd : d ≤ n) :
    ((shift poly)^[d] c).toNat ∈ orbit poly n c := by
  induction n generalizing c d with
  | zero => omega
  | succ n ih =>
    obtain ⟨d, rfl⟩ := Nat.exists_eq_succ_of_ne_zero h0.ne'
    rw [Function.iterate_succ_apply, orbit]
    rcases Nat.eq_zero_or_pos d with rfl | h0
    · exact List.mem_cons_self
    · exact List.mem_cons_of_mem _ (ih _ h0 (by omega))

/-- The residues of some numbers, as the bits of a number. -/
def residues (q : ℕ) (ms : List ℕ) : ℕ := ms.foldr (fun m s => s ||| 1 <<< (m % q)) 0

theorem testBit_residues {q m : ℕ} {ms : List ℕ} (h : m ∈ ms) :
    (residues q ms).testBit (m % q) = true := by
  induction ms with
  | nil => cases h
  | cons k ms ih =>
    rw [residues, List.foldr_cons, Nat.testBit_or, Bool.or_eq_true]
    rcases List.mem_cons.mp h with rfl | h
    · exact Or.inr (by simp)
    · exact Or.inl (ih h)

/-- No two of the numbers sum to one, which the residues by `q` show. -/
def noneSumToOne (q : ℕ) (ms : List ℕ) : Bool :=
  ms.all fun m => !(residues q ms).testBit ((m ^^^ 1) % q)

theorem xor_ne_one {q : ℕ} {ms : List ℕ} (h : noneSumToOne q ms = true) {x y : ℕ} (hx : x ∈ ms)
    (hy : y ∈ ms) : x ^^^ y ≠ 1 := by
  intro hsum
  obtain rfl : y = x ^^^ 1 := by rw [← hsum, ← Nat.xor_assoc, Nat.xor_self, Nat.zero_xor]
  have hno := List.all_eq_true.mp h x hx
  rw [testBit_residues hy] at hno
  cases hno

/-- **Three bits** are separated when no two registers on the way sum to one. -/
theorem separates_three (hp : poly.msb = true) (hn : n + 1 ≤ Function.minimalPeriod (shift poly) 1#w)
    {q : ℕ} (hpairs : noneSumToOne q (orbit poly n 1#w) = true) : Separates poly 3 (n + 1) := by
  refine separates_succ hp fun ds hlen _ hlt => ?_
  match ds with
  | [] => exact zero_ne_one_of_msb hp
  | [d] =>
    rw [trace_cons, trace_nil, BitVec.xor_zero]
    exact iterate_shift_one_ne hn (hlt d (List.mem_singleton_self d))
  | [a, b] =>
    rw [trace_cons, trace_cons, trace_nil, BitVec.xor_zero]
    intro hsum
    obtain ⟨ha0, ha⟩ := hlt a (by simp)
    obtain ⟨hb0, hb⟩ := hlt b (by simp)
    refine xor_ne_one hpairs (mem_orbit n 1#w ha0 (Nat.le_of_lt_succ ha))
      (mem_orbit n 1#w hb0 (Nat.le_of_lt_succ hb)) ?_
    rw [← BitVec.toNat_xor, hsum, toNat_one_of_msb hp]
  | _ :: _ :: _ :: _ => simp at hlen

/-! ## Detection -/

/-- **Detection of scattered errors**: two bit strings of one length that differ in a few places, and
take the register from one value to one value, are equal. -/
theorem eq_of_feed_eq_of_count (hp : poly.msb = true) (hsep : Separates poly t n) {xs ys : List Bool}
    {c : BitVec w} (hlen : xs.length = ys.length) (hn : xs.length ≤ n)
    (hcount : (List.zipWith (· ^^ ·) xs ys).count true ≤ t) (hfeed : feed poly c xs = feed poly c ys) :
    xs = ys := by
  have hz : feed poly 0#w (List.zipWith (· ^^ ·) xs ys) = 0#w := by
    have := feed_xor poly c c xs ys hlen
    rwa [BitVec.xor_self, hfeed, BitVec.xor_self] at this
  rw [feed_zero_eq_trace] at hz
  have hplaces := hsep (places (List.zipWith (· ^^ ·) xs ys)) (by rwa [places_length])
    (pairwise_places _) (fun d hd => by
      have := lt_of_mem_places hd
      rw [List.length_zipWith] at this
      omega) (eq_zero_of_shift_eq_zero hp hz)
  have hnone : (List.zipWith (· ^^ ·) xs ys).count true = 0 := by
    rw [← places_length, hplaces]
    rfl
  apply List.ext_getElem hlen
  intro i h1 h2
  by_contra hne
  refine List.count_eq_zero.mp hnone (List.mem_iff_getElem.mpr ⟨i, by simp; omega, ?_⟩)
  rw [List.getElem_zipWith]
  exact Bool.xor_iff_ne.mpr hne

end EerieLeap.Lib.Register

namespace EerieLeap.Lib.Checksum

open EerieLeap.Lib.Bits EerieLeap.Lib.Register

/-- In how many bits two byte strings of one length differ. -/
def distance (bs bs' : List UInt8) : ℕ := (List.zipWith (· ^^ ·) (bits bs) (bits bs')).count true

/-- `bs'` is `bs` with some bits flipped, at least one and at most `t`, wherever they stand. -/
structure Flips (t : ℕ) (bs bs' : List UInt8) : Prop where
  length_eq : bs'.length = bs.length
  ne : bs' ≠ bs
  distance_le : distance bs bs' ≤ t

/-- **Scattered errors are detected** as far as the polynomial separates them. -/
theorem Crc.IsCodeword.not_of_flips {n t : ℕ} (C : Crc n) {cs cs' : List UInt8}
    (hsep : Separates C.poly t (8 * cs.length)) (h : C.IsCodeword cs) (hf : Flips t cs cs') :
    ¬ C.IsCodeword cs' := by
  intro h'
  refine hf.ne (bits_injective ?_).symm
  refine eq_of_feed_eq_of_count (c := C.mask) C.msb_poly hsep ?_ ?_ hf.distance_le
    (h.run_eq.trans h'.run_eq.symm)
  · rw [bits_length, bits_length, hf.length_eq]
  · rw [bits_length]

end EerieLeap.Lib.Checksum
