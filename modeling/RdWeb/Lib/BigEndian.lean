import RdWeb.Lib.LittleEndian

/-!
# Big-endian numbers of fixed width

The bytes of a little-endian number the other way round: most significant first.
-/

namespace BigEndian

/-- The low `width` bytes of a number. -/
def toBytes (width n : ℕ) : List UInt8 := (LittleEndian.toBytes width n).reverse

/-- The number some bytes stand for. -/
def ofBytes (bytes : List UInt8) : ℕ := LittleEndian.ofBytes bytes.reverse

/-- The bytes of a number are as many as asked for. -/
@[simp]
theorem length_toBytes (width n : ℕ) : (toBytes width n).length = width := by
  rw [toBytes, List.length_reverse, LittleEndian.length_toBytes]

/-- **Round trip** of a number that fits. -/
theorem ofBytes_toBytes {width n : ℕ} (h : n < 256 ^ width) :
    ofBytes (toBytes width n) = n := by
  rw [ofBytes, toBytes, List.reverse_reverse, LittleEndian.ofBytes_toBytes_of_lt h]

end BigEndian
