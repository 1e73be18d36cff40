import Mathlib.Data.Nat.Digits.Defs
import Mathlib.Tactic.NormNum

/-!
# Little-endian numbers of fixed width

A number written as `width` bytes, least significant first, and read back. Writing
drops the bits that do not fit.
-/

namespace LittleEndian

/-- The low `width` bytes of a number. -/
def toBytes : ℕ → ℕ → List UInt8
  | 0, _ => []
  | width + 1, n => UInt8.ofNat n :: toBytes width (n / 256)

/-- The number some bytes stand for. -/
def ofBytes (bytes : List UInt8) : ℕ := Nat.ofDigits 256 (bytes.map UInt8.toNat)

/-- The bytes of a number are as many as asked for. -/
@[simp]
theorem length_toBytes (width n : ℕ) : (toBytes width n).length = width := by
  induction width generalizing n with
  | zero => rfl
  | succ width ih => simp [toBytes, ih]

/-- **Round trip**, up to the bits that do not fit. -/
theorem ofBytes_toBytes (width n : ℕ) : ofBytes (toBytes width n) = n % 256 ^ width := by
  induction width generalizing n with
  | zero => simp [toBytes, ofBytes, Nat.mod_one]
  | succ width ih =>
    have htail : Nat.ofDigits 256 ((toBytes width (n / 256)).map UInt8.toNat) =
        n / 256 % 256 ^ width := ih (n / 256)
    rw [toBytes, ofBytes, List.map_cons, Nat.ofDigits_cons, htail]
    have hbyte : (UInt8.ofNat n).toNat = n % 256 := by simp
    rw [hbyte, pow_succ', Nat.mod_mul]

/-- A number that fits is read back from its bytes. -/
theorem ofBytes_toBytes_of_lt {width n : ℕ} (h : n < 256 ^ width) :
    ofBytes (toBytes width n) = n := by
  rw [ofBytes_toBytes, Nat.mod_eq_of_lt h]

/-- Reading a number off the front of a buffer: the number and the rest. -/
def get (width : ℕ) (buffer : List UInt8) : ℕ × List UInt8 :=
  (ofBytes (buffer.take width), buffer.drop width)

/-- Reading takes the bytes of the number and leaves the rest, up to what the width holds. -/
@[simp]
theorem get_toBytes_append (width n : ℕ) (rest : List UInt8) :
    get width (toBytes width n ++ rest) = (n % 256 ^ width, rest) := by
  have hlength := length_toBytes width n
  simp [get, hlength, ofBytes_toBytes]

/-- Reading takes the bytes of a number that fits and leaves the rest. -/
theorem get_toBytes_append_of_lt {width n : ℕ} (h : n < 256 ^ width) (rest : List UInt8) :
    get width (toBytes width n ++ rest) = (n, rest) := by
  rw [get_toBytes_append, Nat.mod_eq_of_lt h]

end LittleEndian
