import RdWeb.Lib.WireMessage
import Mathlib.Algebra.Order.Ring.Nat
import Mathlib.Tactic.Ring
import Mathlib.Tactic.NormNum

/-!
# Numbers as groups of seven bits

The wire format under the messages: numbers in groups of seven bits, lowest first, of
which all but the last have the high bit set, and what is built from them.
-/

namespace Varint

/-- The number in at most `groups` bytes. -/
def toBytes : ℕ → ℕ → List UInt8
  | 0, _ => []
  | groups + 1, n =>
    if n < 128 then [UInt8.ofNat n]
    else UInt8.ofNat (n % 128 + 128) :: toBytes groups (n / 128)

/-- The number in the first bytes, `groups` at most, whether it ended there, and what
comes after. -/
def ofBytes : ℕ → List UInt8 → Option (ℕ × Bool × List UInt8)
  | 0, bytes => some (0, false, bytes)
  | _ + 1, [] => none
  | groups + 1, byte :: bytes =>
    if byte.toNat < 128 then some (byte.toNat, true, bytes)
    else (ofBytes groups bytes).map fun (n, ended, rest) => (byte.toNat % 128 + 128 * n, ended, rest)

/-- A number takes as many bytes as groups at most. -/
theorem length_toBytes_le (groups n : ℕ) : (toBytes groups n).length ≤ groups := by
  induction groups generalizing n with
  | zero => simp [toBytes]
  | succ groups ih =>
    have htail := ih (n / 128)
    unfold toBytes
    split_ifs
    · simp
    · rw [List.length_cons]
      omega

/-- A number takes a byte at least. -/
theorem length_toBytes_pos (groups n : ℕ) : 0 < (toBytes (groups + 1) n).length := by
  unfold toBytes
  split_ifs <;> simp

/-- A number of many groups fills all the bytes it may have. -/
theorem length_toBytes_of_le {groups n : ℕ} (hn : 128 ^ groups ≤ n) :
    (toBytes (groups + 1) n).length = groups + 1 := by
  induction groups generalizing n with
  | zero =>
    have hle := length_toBytes_le (0 + 1) n
    have hpos := length_toBytes_pos 0 n
    omega
  | succ groups ih =>
    have hpow : 0 < 128 ^ groups := by positivity
    rw [pow_succ] at hn
    have hbig : ¬ n < 128 := by omega
    have htail := ih (n := n / 128) (by omega)
    rw [toBytes, if_neg hbig, List.length_cons, htail]

/-- A byte that is not the last. -/
theorem toNat_continued (n : ℕ) : (UInt8.ofNat (n % 128 + 128)).toNat = n % 128 + 128 := by
  rw [UInt8.toNat_ofNat']
  omega

/-- **Round trip**, for a number that fits into the groups. -/
theorem ofBytes_toBytes (groups : ℕ) {n : ℕ} (hn : n < 128 ^ (groups + 1)) (rest : List UInt8) :
    ofBytes (groups + 1) (toBytes (groups + 1) n ++ rest) = some (n, true, rest) := by
  induction groups generalizing n with
  | zero =>
    have hsmall : n < 128 := by simpa using hn
    have hbyte : (UInt8.ofNat n).toNat = n := by
      rw [UInt8.toNat_ofNat']
      omega
    rw [toBytes, if_pos hsmall, List.singleton_append, ofBytes, hbyte, if_pos hsmall]
  | succ groups ih =>
    by_cases hsmall : n < 128
    · have hbyte : (UInt8.ofNat n).toNat = n := by
        rw [UInt8.toNat_ofNat']
        omega
      rw [toBytes, if_pos hsmall, List.singleton_append, ofBytes, hbyte, if_pos hsmall]
    · have hbig : ¬ n % 128 + 128 < 128 := by omega
      have hrest := ih (n := n / 128) (by rw [pow_succ] at hn; omega)
      have hvalue : (n % 128 + 128) % 128 + 128 * (n / 128) = n := by omega
      rw [toBytes, if_neg hsmall, List.cons_append, ofBytes, toNat_continued, if_neg hbig, hrest,
        Option.map_some]
      simp only [hvalue]

/-- Reading stops after its groups, in the middle of a longer number. -/
theorem ofBytes_toBytes_cut {groups n : ℕ} (more : ℕ) (hn : 128 ^ groups ≤ n)
    (rest : List UInt8) :
    ofBytes groups (toBytes (groups + more) n ++ rest) =
      some (n % 128 ^ groups, false, toBytes more (n / 128 ^ groups) ++ rest) := by
  induction groups generalizing n with
  | zero => simp [ofBytes, Nat.mod_one]
  | succ groups ih =>
    have hpow : 0 < 128 ^ groups := by positivity
    rw [pow_succ] at hn
    have hsmall : ¬ n < 128 := by omega
    have hbig : ¬ n % 128 + 128 < 128 := by omega
    have hrest := ih (n := n / 128) (by omega)
    have hvalue : (n % 128 + 128) % 128 + 128 * (n / 128 % 128 ^ groups) =
        n % 128 ^ (groups + 1) := by
      rw [pow_succ', Nat.mod_mul]
      omega
    have hdiv : n / 128 / 128 ^ groups = n / 128 ^ (groups + 1) := by
      rw [pow_succ', Nat.div_div_eq_div_mul]
    rw [Nat.succ_add, toBytes, if_neg hsmall, List.cons_append, ofBytes, toNat_continued,
      if_neg hbig, hrest, Option.map_some]
    simp only [hvalue, hdiv]

/-- Reading groups never goes past the input, and reads a byte at least. -/
theorem length_of_ofBytes {groups n : ℕ} {ended : Bool} {bytes rest : List UInt8}
    (h : ofBytes groups bytes = some (n, ended, rest)) :
    rest.length ≤ bytes.length ∧ (0 < groups → rest.length < bytes.length) := by
  induction groups generalizing n bytes with
  | zero =>
    obtain ⟨rfl, rfl, rfl⟩ : 0 = n ∧ false = ended ∧ bytes = rest := by simpa [ofBytes] using h
    simp
  | succ groups ih =>
    cases bytes with
    | nil => simp [ofBytes] at h
    | cons byte bytes =>
      rw [ofBytes] at h
      split_ifs at h
      · obtain ⟨rfl, rfl, rfl⟩ : byte.toNat = n ∧ true = ended ∧ bytes = rest := by simpa using h
        simp
      · obtain ⟨⟨m, e, r⟩, hm, heq⟩ := Option.map_eq_some_iff.mp h
        cases heq
        have hlength := (ih hm).1
        rw [List.length_cons]
        omega

/-- Numbers of 32 bits. A reader that finds no end after five bytes takes five more for
the rest of a number of 64 bits. -/
def uint32 : Scalar 0 ℕ where
  write n := toBytes 5 n
  read bytes := (ofBytes 5 bytes).bind fun (n, ended, rest) =>
    if ended then some (n % 2 ^ 32, rest)
    else if 5 ≤ rest.length then some (n % 2 ^ 32, rest.drop 5)
    else none
  Fits n := n < 2 ^ 32
  read_write n rest hn _ := by
    have hread := ofBytes_toBytes 4 (n := n) (by omega) rest
    rw [hread, Option.bind_some]
    simp only [if_true, Nat.mod_eq_of_lt hn]
  fits_of_read bytes n rest h := by
    obtain ⟨⟨m, ended, after⟩, _, h⟩ := Option.bind_eq_some_iff.mp h
    dsimp only at h
    split_ifs at h
    all_goals
      cases h
      exact Nat.mod_lt _ (by norm_num)
  length_of_read bytes n rest h := by
    obtain ⟨⟨m, ended, after⟩, hread, h⟩ := Option.bind_eq_some_iff.mp h
    have hlength := (length_of_ofBytes hread).1
    dsimp only at h
    split_ifs at h
    · cases h
      exact hlength
    · cases h
      rw [List.length_drop]
      omega

/-- Reading a `uint32` takes a byte at least. -/
theorem uint32_consumes {bytes rest : List UInt8} {n : ℕ}
    (h : uint32.read bytes = some (n, rest)) : rest.length < bytes.length := by
  obtain ⟨⟨m, ended, after⟩, hread, h⟩ := Option.bind_eq_some_iff.mp h
  have hlength := (length_of_ofBytes hread).2 (by norm_num)
  dsimp only at h
  split_ifs at h
  · cases h
    exact hlength
  · cases h
    rw [List.length_drop]
    omega

/-- Numbers of 64 bits. -/
def uint64 : Scalar 0 ℕ where
  write n := toBytes 10 n
  read bytes := (ofBytes 10 bytes).bind fun (n, ended, rest) =>
    if ended then some (n % 2 ^ 64, rest) else none
  Fits n := n < 2 ^ 64
  read_write n rest hn _ := by
    have hread := ofBytes_toBytes 9 (n := n) (by omega) rest
    rw [hread, Option.bind_some]
    simp only [if_true, Nat.mod_eq_of_lt hn]
  fits_of_read bytes n rest h := by
    obtain ⟨⟨m, ended, after⟩, _, h⟩ := Option.bind_eq_some_iff.mp h
    dsimp only at h
    split_ifs at h
    cases h
    exact Nat.mod_lt _ (by norm_num)
  length_of_read bytes n rest h := by
    obtain ⟨⟨m, ended, after⟩, hread, h⟩ := Option.bind_eq_some_iff.mp h
    have hlength := (length_of_ofBytes hread).1
    dsimp only at h
    split_ifs at h
    cases h
    exact hlength

/-- The signed number some 32 bits stand for. -/
def signed (n : ℕ) : ℤ := if n < 2 ^ 31 then n else (n : ℤ) - 2 ^ 32

/-- The signed reading of 32 bits is an `int32`. -/
theorem signed_bounds {n : ℕ} (hn : n < 2 ^ 32) : -2 ^ 31 ≤ signed n ∧ signed n < 2 ^ 31 := by
  unfold signed
  split_ifs <;> omega

/-- A nonnegative `int32` is its own signed reading. -/
theorem signed_toNat {z : ℤ} (hz : -2 ^ 31 ≤ z ∧ z < 2 ^ 31) (hpos : ¬ z < 0) :
    signed z.toNat = z := by
  unfold signed
  split_ifs <;> omega

/-- The low 32 bits of a negative number, when those are all that is kept of its 64. -/
theorem signed_low {z : ℤ} (hz : -2 ^ 31 ≤ z ∧ z < 2 ^ 31) (hneg : z < 0) :
    signed ((2 ^ 64 + z).toNat % 128 ^ 5 % 2 ^ 32) = z := by
  unfold signed
  split_ifs <;> omega

/-- A negative `int32` is written in ten bytes, as a 64-bit two's complement. -/
def writeInt32 (z : ℤ) : List UInt8 :=
  if z < 0 then toBytes 10 (2 ^ 64 + z).toNat else toBytes 5 z.toNat

/-- An `int32` is read from the low 32 bits. -/
def readInt32 (bytes : List UInt8) : Option (ℤ × List UInt8) :=
  (uint32.read bytes).map (Prod.map signed id)

/-- A negative number: the reader takes five bytes and steps over the five behind them. -/
theorem readInt32_of_neg {z : ℤ} (hz : -2 ^ 31 ≤ z ∧ z < 2 ^ 31) (hneg : z < 0)
    (rest : List UInt8) : readInt32 (writeInt32 z ++ rest) = some (z, rest) := by
  have hbig : 128 ^ 5 ≤ (2 ^ 64 + z).toNat := by omega
  have hlong : 128 ^ 4 ≤ (2 ^ 64 + z).toNat / 128 ^ 5 := by omega
  have hfive : (toBytes 5 ((2 ^ 64 + z).toNat / 128 ^ 5)).length = 5 :=
    length_toBytes_of_le hlong
  have hmany : 5 ≤ (toBytes 5 ((2 ^ 64 + z).toNat / 128 ^ 5) ++ rest).length := by
    rw [List.length_append, hfive]
    omega
  have hdrop : (toBytes 5 ((2 ^ 64 + z).toNat / 128 ^ 5) ++ rest).drop 5 = rest :=
    List.drop_left' hfive
  have hread := ofBytes_toBytes_cut 5 hbig rest
  rw [readInt32, writeInt32, if_pos hneg]
  simp only [uint32, hread, Option.bind_some, Bool.false_eq_true, if_false]
  rw [if_pos hmany, Option.map_some, hdrop, Prod.map_apply, signed_low hz hneg, id_eq]

/-- A nonnegative `int32` is read back. -/
theorem readInt32_of_nonneg {z : ℤ} (hz : -2 ^ 31 ≤ z ∧ z < 2 ^ 31) (hpos : ¬ z < 0)
    (rest : List UInt8) (hshort : Short (writeInt32 z)) :
    readInt32 (writeInt32 z ++ rest) = some (z, rest) := by
  have hfits : uint32.Fits z.toNat := by
    show z.toNat < 2 ^ 32
    omega
  rw [writeInt32, if_neg hpos] at hshort ⊢
  have hread : uint32.read (toBytes 5 z.toNat ++ rest) = some (z.toNat, rest) :=
    uint32.read_write _ rest hfits hshort
  rw [readInt32, hread, Option.map_some, Prod.map_apply, signed_toNat hz hpos, id_eq]

/-- What is read is the signed form of a number of 32 bits in front of the same rest. -/
theorem readInt32_eq_some {bytes rest : List UInt8} {z : ℤ}
    (h : readInt32 bytes = some (z, rest)) :
    ∃ n, uint32.read bytes = some (n, rest) ∧ signed n = z := by
  obtain ⟨⟨n, after⟩, hread, heq⟩ := Option.map_eq_some_iff.mp h
  cases heq
  exact ⟨n, hread, rfl⟩

/-- Signed numbers as they are; a negative one is written with 64 bits. -/
def int32 : Scalar 0 ℤ where
  write := writeInt32
  read := readInt32
  Fits z := -2 ^ 31 ≤ z ∧ z < 2 ^ 31
  read_write z rest hz hshort := by
    by_cases hneg : z < 0
    · exact readInt32_of_neg hz hneg rest
    · exact readInt32_of_nonneg hz hneg rest hshort
  fits_of_read bytes z rest h := by
    obtain ⟨n, hread, rfl⟩ := readInt32_eq_some h
    exact signed_bounds (uint32.fits_of_read _ _ _ hread)
  length_of_read bytes z rest h := by
    obtain ⟨n, hread, rfl⟩ := readInt32_eq_some h
    exact uint32.length_of_read _ _ _ hread

/-- Signed numbers in zigzag order: zero, minus one, one, minus two and so on. -/
def zigzag (z : ℤ) : ℕ := if 0 ≤ z then (2 * z).toNat else (-2 * z - 1).toNat

/-- The inverse of the zigzag numbering. -/
def unzigzag (n : ℕ) : ℤ := if n % 2 = 0 then (n / 2 : ℕ) else -((n / 2 : ℕ) : ℤ) - 1

/-- An `sint32` is the `uint32` of its zigzag number. -/
def sint32 : Scalar 0 ℤ :=
  uint32.via zigzag (fun n => some (unzigzag n)) (fun z => -2 ^ 31 ≤ z ∧ z < 2 ^ 31)
    (by
      intro z hz
      have hfits : zigzag z < 2 ^ 32 := by
        unfold zigzag
        split_ifs <;> omega
      have hback : unzigzag (zigzag z) = z := by
        unfold zigzag unzigzag
        split_ifs <;> omega
      exact ⟨hfits, congrArg some hback⟩)
    (by
      intro n z hn hz
      have hlt : n < 2 ^ 32 := hn
      obtain rfl := Option.some.inj hz
      unfold unzigzag
      split_ifs <;> omega)

/-- A truth value is a `uint32` that is zero or one. -/
def bool : Scalar 0 Bool :=
  uint32.via (fun b => if b then 1 else 0) (fun n => some (decide (n ≠ 0))) (fun _ => True)
    (by
      intro b _
      cases b <;> exact ⟨by show _ < 2 ^ 32; norm_num, by simp⟩)
    (fun _ _ _ _ => trivial)

/-- Bytes are written after their length. -/
def writeBytes (data : List UInt8) : List UInt8 := uint32.write data.length ++ data

/-- Bytes are read after their length, if there are so many. -/
def readBytes (input : List UInt8) : Option (List UInt8 × List UInt8) :=
  (uint32.read input).bind fun (length, rest) =>
    if length ≤ rest.length then some (rest.take length, rest.drop length) else none

/-- Bytes are read back, whatever follows them. -/
theorem readBytes_writeBytes (data rest : List UInt8) (hshort : Short (writeBytes data)) :
    readBytes (writeBytes data ++ rest) = some (data, rest) := by
  have hlength : uint32.Fits data.length := by
    unfold Short writeBytes at hshort
    rw [List.length_append] at hshort
    show data.length < 2 ^ 32
    omega
  have hnumber : Short (uint32.write data.length) := by
    have hle := length_toBytes_le 5 data.length
    show (toBytes 5 data.length).length < 2 ^ 32
    omega
  rw [readBytes, writeBytes, List.append_assoc, uint32.read_write _ _ hlength hnumber]
  simp

/-- Reading bytes never goes past the input. -/
theorem length_of_readBytes {input data rest : List UInt8}
    (h : readBytes input = some (data, rest)) : rest.length ≤ input.length := by
  obtain ⟨⟨length, after⟩, hlength, h⟩ := Option.bind_eq_some_iff.mp h
  have hafter := uint32.length_of_read _ _ _ hlength
  dsimp only at h
  split_ifs at h
  cases h
  rw [List.length_drop]
  omega

/-- Bytes behind their length. -/
def bytes : Scalar 2 (List UInt8) where
  write := writeBytes
  read := readBytes
  Fits _ := True
  read_write data rest _ hshort := readBytes_writeBytes data rest hshort
  fits_of_read _ _ _ _ := trivial
  length_of_read _ _ _ h := length_of_readBytes h

/-- Texts as the bytes of their characters. -/
def string : Scalar 2 String :=
  bytes.via (fun text => text.toByteArray.data.toList)
    (fun data => String.fromUTF8? ⟨data.toArray⟩) (fun _ => True)
    (by
      intro text _
      refine ⟨trivial, ?_⟩
      simp [String.fromUTF8?, String.fromUTF8, text.isValidUTF8])
    (fun _ _ _ _ => trivial)

/-- Step over a value: a number, eight bytes, bytes behind their length, the fields of a
group, four bytes. -/
def skipType : ℕ → ℕ → List UInt8 → Option (List UInt8)
  | 0, _, _ => none
  | fuel + 1, wireType, input =>
    match wireType with
    | 0 => ((input.dropWhile (128 ≤ ·.toNat)).tail?)
    | 1 => if 8 ≤ input.length then some (input.drop 8) else none
    | 2 => (bytes.read input).map Prod.snd
    | 3 =>
      (uint32.read input).bind fun (tag, rest) =>
        if tag % 8 = 4 then some rest
        else (skipType fuel (tag % 8) rest).bind fun rest => skipType fuel 3 rest
    | 5 => if 4 ≤ input.length then some (input.drop 4) else none
    | _ => none

/-- Skipping a field never goes past the input. -/
theorem length_of_skipType {fuel wireType : ℕ} {input rest : List UInt8}
    (h : skipType fuel wireType input = some rest) : rest.length ≤ input.length := by
  induction fuel generalizing wireType input rest with
  | zero => simp [skipType] at h
  | succ fuel ih =>
    unfold skipType at h
    split at h
    · have htail := (List.dropWhile_sublist (l := input) (128 ≤ ·.toNat)).length_le
      cases hdrop : input.dropWhile (128 ≤ ·.toNat) with
      | nil => simp [hdrop] at h
      | cons byte others =>
        obtain rfl : others = rest := by simpa [hdrop] using h
        rw [hdrop, List.length_cons] at htail
        omega
    · split_ifs at h
      cases h
      rw [List.length_drop]
      omega
    · obtain ⟨⟨data, after⟩, hread, rfl⟩ := Option.map_eq_some_iff.mp h
      exact bytes.length_of_read _ _ _ hread
    · obtain ⟨⟨tag, after⟩, hread, h⟩ := Option.bind_eq_some_iff.mp h
      have hafter := uint32.length_of_read _ _ _ hread
      dsimp only at h
      split_ifs at h
      · cases h
        exact hafter
      · obtain ⟨afterField, hfield, h⟩ := Option.bind_eq_some_iff.mp h
        have hfieldLength := ih hfield
        have hrest := ih h
        omega
    · split_ifs at h
      cases h
      rw [List.length_drop]
      omega
    · cases h

/-- The wire format as a runtime. -/
def runtime : WireRuntime where
  uint32 := uint32
  int32 := int32
  sint32 := sint32
  uint64 := uint64
  bool := bool
  bytes := bytes
  string := string
  skipType wireType input := skipType (input.length + 1) wireType input
  uint32_fits _ := Iff.rfl
  int32_fits _ := Iff.rfl
  sint32_fits _ := Iff.rfl
  uint64_fits _ := Iff.rfl
  bool_fits _ := trivial
  bytes_fits _ := trivial
  string_fits _ := trivial
  uint32_length n _ := length_toBytes_le 5 n
  uint32_consumes _ _ _ := uint32_consumes
  skipType_length _ _ _ := length_of_skipType

end Varint
