import EerieLeap.Lib.Checksum
import EerieLeap.Lib.Effect

/-!
# What the log parser uses of Python

Byte streams, `struct.unpack`, `zlib.crc32`, ASCII decoding and the text of values.

A stream is the list of the bytes still to be read; `read n` returns fewer than `n` bytes only when
the input ends. A Python `float` made by `struct.unpack('<f', …)` is kept as its 32-bit pattern, and
`PyText` says how floats print; `PyText.cpython` of `PythonFloat` is the one of CPython.
-/

namespace EerieLeap.LogsParser

open EerieLeap.Lib.Bits EerieLeap.Lib.Checksum EerieLeap.Lib.Effect

/-- An unsigned integer on `n` bytes. -/
abbrev Word (n : ℕ) := BitVec (8 * n)

/-- The exceptions the parser can raise. -/
inductive PyError
  | structError
  | unicodeDecodeError
  deriving DecidableEq, Repr

/-- The outcome of a run is an exception. -/
def Raises {ε α σ : Type} (x : Except ε α × σ) : Prop := ∃ e, x.1 = .error e

/-- Programs that read from a byte stream. -/
abbrev PyStream (α : Type) := Eff (List UInt8) PyError α

/-- `stream.read(n)`. -/
def read (n : ℕ) : PyStream (List UInt8) := do
  let s ← get
  set (s.drop n)
  return s.take n

@[simp] theorem exec_read (n : ℕ) (s : List UInt8) : exec (read n) s = (.ok (s.take n), s.drop n) := rfl

/-- The integer of `n` bytes, least significant byte first. -/
def wordOfLE (n : ℕ) (bs : List UInt8) : Word n := BitVec.ofNat _ (fromLE bs)

/-- `struct.unpack` of one little-endian unsigned integer: `'<I'` on four bytes, `'<Q'` on eight. It
raises when the number of bytes is another. -/
def unpackLE (n : ℕ) (bs : List UInt8) : Except PyError (Word n) :=
  if bs.length = n then .ok (wordOfLE n bs) else .error .structError

theorem storedLE_wordOfLE {n : ℕ} {bs : List UInt8} (h : bs.length = n) :
    storedLE (wordOfLE n bs) = bs := by
  subst h
  have hlt : fromLE bs < 2 ^ (8 * bs.length) := by
    rw [pow_mul]
    exact fromLE_lt bs
  rw [storedLE, wordOfLE, BitVec.toNat_ofNat, Nat.mod_eq_of_lt hlt, toLE_fromLE]

theorem wordOfLE_storedLE {n : ℕ} (v : Word n) : wordOfLE n (storedLE v) = v := by
  have hlt : v.toNat < 256 ^ n := by
    have := v.isLt
    rwa [pow_mul] at this
  rw [wordOfLE, storedLE, fromLE_toLE, Nat.mod_eq_of_lt hlt, BitVec.ofNat_toNat, BitVec.setWidth_eq]

/-- The bytes of a string, `bytes.decode("ascii")`; it raises on a byte above 127. -/
def decodeAscii (bs : List UInt8) : Except PyError String :=
  if bs.all (· < 128) then .ok (String.ofList (bs.map fun b => Char.ofNat b.toNat))
  else .error .unicodeDecodeError

theorem decodeAscii_of_ascii {bs : List UInt8} (h : bs.all (· < 128) = true) :
    decodeAscii bs = .ok (String.ofList (bs.map fun b => Char.ofNat b.toNat)) := if_pos h

theorem toNat_ofNat_of_lt : ∀ n < 128, (Char.ofNat n).toNat = n := by decide

/-- `decode` loses nothing. -/
theorem decodeAscii_eq_ok {bs : List UInt8} {t : String} (h : decodeAscii bs = .ok t) :
    bs = t.toList.map fun c => UInt8.ofNat c.toNat := by
  unfold decodeAscii at h
  split at h
  · rename_i hall
    obtain rfl := Except.ok.inj h
    rw [String.toList_ofList, List.map_map]
    conv_lhs => rw [← List.map_id bs]
    refine List.map_congr_left fun b hb => ?_
    have hb : b.toNat < 128 := by
      simpa [UInt8.lt_iff_toNat_lt] using List.all_eq_true.mp hall b hb
    rw [Function.comp_apply, toNat_ofNat_of_lt _ hb, UInt8.ofNat_toNat, id]
  · cases h

/-- A text is spelled by its bytes alone. -/
theorem decodeAscii_injective {bs bs' : List UInt8} {t : String} (h : decodeAscii bs = .ok t)
    (h' : decodeAscii bs' = .ok t) : bs = bs' := (decodeAscii_eq_ok h).trans (decodeAscii_eq_ok h').symm

/-- The CRC-32 of zlib. -/
def zlibCrc : Crc 4 where
  poly := 0xEDB88320#32
  mask := 0xFFFFFFFF#32
  msb_poly := by decide

/-- `zlib.crc32(data, value)`. -/
def crc32 (data : List UInt8) (value : Word 4) : Word 4 := zlibCrc.update value data

/-- The check value of CRC-32, the checksum of `123456789`. -/
example : crc32 [49, 50, 51, 52, 53, 54, 55, 56, 57] 0 = 0xCBF43926#32 := by decide +kernel

theorem crc32_append (xs ys : List UInt8) (value : Word 4) :
    crc32 (xs ++ ys) value = crc32 ys (crc32 xs value) := zlibCrc.update_append value xs ys

theorem crc32_take_add (i j : ℕ) (s : List UInt8) (value : Word 4) :
    crc32 (s.take (i + j)) value = crc32 ((s.drop i).take j) (crc32 (s.take i) value) := by
  rw [List.take_add, crc32_append]

/-! ## Reading fields -/

section Fields

variable {α : Type} {n : ℕ} (p : ℕ) (s : List UInt8)

theorem exec_read_at (k : List UInt8 → PyStream α) :
    exec (read n >>= k) (s.drop p) = exec (k ((s.drop p).take n)) (s.drop (p + n)) := by
  rw [exec_bind_ok (exec_read _ _), List.drop_drop]

/-- A field that is tested for emptiness is missing when the input ends before it. -/
theorem exec_field_at (hn : 0 < n) (k : List UInt8 → PyStream (Option α)) :
    exec (read n >>= fun b => if b = [] then pure none else k b) (s.drop p) =
      if s.length ≤ p then (.ok none, []) else exec (k ((s.drop p).take n)) (s.drop (p + n)) := by
  rw [exec_read_at, exec_ite]
  by_cases hs : s.length ≤ p
  · have hd : s.drop (p + n) = [] := List.drop_eq_nil_of_le (by omega)
    simp [hs, hd]
  · simp [hs, List.take_eq_nil_iff, hn.ne']

/-- A field that is unpacked raises when the input ends inside it. -/
theorem exec_unpack_at (hn : 0 < n) (k : Word n → PyStream α) :
    exec (liftM (unpackLE n ((s.drop p).take n)) >>= k) (s.drop (p + n)) =
      if ¬ p + n ≤ s.length then (.error .structError, [])
      else exec (k (wordOfLE n ((s.drop p).take n))) (s.drop (p + n)) := by
  rw [exec_liftM_bind, unpackLE]
  by_cases h : p + n ≤ s.length
  · have hlen : ((s.drop p).take n).length = n := by simp; omega
    simp [h, hlen]
  · have hlen : ((s.drop p).take n).length ≠ n := by simp; omega
    have hd : s.drop (p + n) = [] := List.drop_eq_nil_of_le (by omega)
    rw [if_neg hlen, if_pos h, hd]

/-- The three ways a field that is tested and unpacked can stand in the input, for any property of the
results: it is missing, the input ends inside it, or it is whole. -/
theorem field_cases {β : Type} {P : β → Prop} {missing cut whole : β} {p q : ℕ} {s : List UInt8}
    (hmissing : s.length ≤ p → P missing) (hcut : p < s.length → s.length < q → P cut)
    (hwhole : q ≤ s.length → P whole) :
    P (if s.length ≤ p then missing else if ¬ q ≤ s.length then cut else whole) := by
  by_cases hp : s.length ≤ p
  · rw [if_pos hp]
    exact hmissing hp
  rw [if_neg hp]
  by_cases hq : q ≤ s.length
  · rw [if_neg (not_not.mpr hq)]
    exact hwhole hq
  · rw [if_pos hq]
    exact hcut (Nat.lt_of_not_le hp) (Nat.lt_of_not_le hq)

end Fields

/-! ## Text -/

/-- How Python prints floats: `repr` is the text of the finite float with the given 32-bit pattern,
`quotient a b` is `str(a / b)`. -/
structure PyText where
  repr : Word 4 → String
  quotient : ℕ → ℕ → String

/-- The pattern of a float that is not a number. -/
def isNaN (x : Word 4) : Bool := (x.toNat / 2 ^ 23) % 256 = 255 ∧ x.toNat % 2 ^ 23 ≠ 0

/-- The pattern of an infinity. -/
def isInf (x : Word 4) : Bool := (x.toNat / 2 ^ 23) % 256 = 255 ∧ x.toNat % 2 ^ 23 = 0

/-- The text of a float, with the given names for the values that are not finite. -/
def floatText (py : PyText) (nan inf : String) (x : Word 4) : String :=
  if isNaN x then nan
  else if isInf x then (if x.msb then "-" ++ inf else inf)
  else py.repr x

/-- `str(x)`. -/
def strFloat (py : PyText) (x : Word 4) : String := floatText py "nan" "inf" x

/-- The last `n` hexadecimal digits of a number. -/
def hexDigits : ℕ → ℕ → List Char
  | 0, _ => []
  | n + 1, v => hexDigits n (v / 16) ++ [Nat.digitChar (v % 16)]

/-- `bytes.hex()`. -/
def hex (bs : List UInt8) : String := String.ofList (bs.flatMap fun b => hexDigits 2 b.toNat)

/-- A character of a string as `json.dumps` writes it. -/
def jsonChar (c : Char) : List Char :=
  let n := c.toNat
  if n = 0x22 ∨ n = 0x5C then [Char.ofNat 0x5C, c]
  else if n = 0x0A then "\\n".toList
  else if n = 0x0D then "\\r".toList
  else if n = 0x09 then "\\t".toList
  else if n = 0x0C then "\\f".toList
  else if n = 0x08 then "\\b".toList
  else if 0x20 ≤ n ∧ n ≤ 0x7E then [c]
  else if n < 0x10000 then "\\u".toList ++ hexDigits 4 n
  else "\\u".toList ++ hexDigits 4 (0xD800 + (n - 0x10000) / 0x400) ++
    "\\u".toList ++ hexDigits 4 (0xDC00 + (n - 0x10000) % 0x400)

/-- A string as `json.dumps` writes it. -/
def jsonString (s : String) : String := "\"" ++ String.ofList (s.toList.flatMap jsonChar) ++ "\""

/-- The values of the dictionaries the parser writes. -/
inductive PyValue
  | int (n : ℕ)
  | str (s : String)
  | float (x : Word 4)

/-- `json.dumps(v)`. -/
def PyValue.dumps (py : PyText) : PyValue → String
  | .int n => Nat.repr n
  | .str s => jsonString s
  | .float x => floatText py "NaN" "Infinity" x

/-- `json.dumps(d)` of a dictionary with string keys. -/
def dumps (py : PyText) (d : List (String × PyValue)) : String :=
  "\x7b" ++ ", ".intercalate (d.map fun (k, v) => jsonString k ++ ": " ++ v.dumps py) ++ "\x7d"

end EerieLeap.LogsParser
