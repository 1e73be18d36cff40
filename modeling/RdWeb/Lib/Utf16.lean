import Mathlib.Data.List.Basic
import RdWeb.Lib.LittleEndian

/-!
# UTF-16, little endian

Characters as 16-bit code units: one unit below `0x10000`, a surrogate pair above.
Decoding is total on what encoding produces and rejects unpaired surrogates.
-/

namespace Utf16

/-- The code units of one character. -/
def units (c : Char) : List ℕ :=
  if c.toNat < 0x10000 then [c.toNat]
  else [0xD800 + (c.toNat - 0x10000) / 0x400, 0xDC00 + (c.toNat - 0x10000) % 0x400]

/-- The code units of a text. -/
def encode (text : List Char) : List ℕ := text.flatMap units

/-- A unit that stands for a character on its own. -/
def IsScalar (u : ℕ) : Prop := u < 0xD800 ∨ 0xDFFF < u

/-- Whether a unit stands for itself is decided by its range. -/
instance (u : ℕ) : Decidable (IsScalar u) := inferInstanceAs (Decidable (_ ∨ _))

/-- Two units that stand for one character together. -/
def IsPair (high low : ℕ) : Prop :=
  0xD800 ≤ high ∧ high ≤ 0xDBFF ∧ 0xDC00 ≤ low ∧ low ≤ 0xDFFF

/-- Whether two units are a pair is decided by their ranges. -/
instance (high low : ℕ) : Decidable (IsPair high low) := inferInstanceAs (Decidable (_ ∧ _))

/-- The text of some code units, or `none` where a surrogate has no partner. -/
def decode : List ℕ → Option (List Char)
  | [] => some []
  | [u] => if IsScalar u then some [Char.ofNat u] else none
  | u :: low :: rest =>
    if IsScalar u then (decode (low :: rest)).map (Char.ofNat u :: ·)
    else if IsPair u low then
      (decode rest).map (Char.ofNat (0x10000 + (u - 0xD800) * 0x400 + (low - 0xDC00)) :: ·)
    else none

/-- A character is below the end of Unicode. -/
theorem toNat_lt (c : Char) : c.toNat < 0x110000 := by
  have hvalid : c.toNat < 0xD800 ∨ 0xDFFF < c.toNat ∧ c.toNat < 0x110000 := c.valid
  omega

/-- Characters are not surrogates. -/
theorem isScalar_toNat (c : Char) : IsScalar c.toNat := by
  have hvalid : c.toNat < 0xD800 ∨ 0xDFFF < c.toNat ∧ c.toNat < 0x110000 := c.valid
  unfold IsScalar
  omega

/-- The units of a character have 16 bits. -/
theorem units_lt {c : Char} {u : ℕ} (h : u ∈ units c) : u < 2 ^ 16 := by
  have hmax := toNat_lt c
  unfold units at h
  split_ifs at h with hsmall
  · obtain rfl := List.mem_singleton.mp h
    exact hsmall
  · simp only [List.mem_cons, List.not_mem_nil, or_false] at h
    rcases h with h | h <;> omega

/-- The units of a text have 16 bits. -/
theorem encode_lt {text : List Char} {u : ℕ} (h : u ∈ encode text) : u < 2 ^ 16 := by
  obtain ⟨c, -, hu⟩ := List.mem_flatMap.mp h
  exact units_lt hu

/-- A unit that stands for itself is decoded first. -/
theorem decode_scalar_cons {u : ℕ} (h : IsScalar u) (rest : List ℕ) :
    decode (u :: rest) = (decode rest).map (Char.ofNat u :: ·) := by
  cases rest with
  | nil => simp [decode, h]
  | cons low rest => simp [decode, h]

/-- Decoding undoes the encoding of one character, whatever follows. -/
theorem decode_units_append (c : Char) (rest : List ℕ) :
    decode (units c ++ rest) = (decode rest).map (c :: ·) := by
  by_cases hsmall : c.toNat < 0x10000
  · rw [units, if_pos hsmall, List.singleton_append, decode_scalar_cons (isScalar_toNat c),
      Char.ofNat_toNat]
  · have hmax := toNat_lt c
    have hscalar : ¬ IsScalar (0xD800 + (c.toNat - 0x10000) / 0x400) := by
      simp only [IsScalar]
      omega
    have hpair : IsPair (0xD800 + (c.toNat - 0x10000) / 0x400)
        (0xDC00 + (c.toNat - 0x10000) % 0x400) := by
      simp only [IsPair]
      omega
    have hvalue : 0x10000 + (0xD800 + (c.toNat - 0x10000) / 0x400 - 0xD800) * 0x400 +
        (0xDC00 + (c.toNat - 0x10000) % 0x400 - 0xDC00) = c.toNat := by
      omega
    rw [units, if_neg hsmall, List.cons_append, List.singleton_append, decode, if_neg hscalar,
      if_pos hpair, hvalue, Char.ofNat_toNat]

/-- **Round trip** on code units. -/
theorem decode_encode (text : List Char) : decode (encode text) = some text := by
  induction text with
  | nil => rfl
  | cons c text ih =>
    have hcons : encode (c :: text) = units c ++ encode text := rfl
    rw [hcons, decode_units_append, ih, Option.map_some]

/-- Code units as little-endian bytes. -/
def bytesOfUnits (us : List ℕ) : List UInt8 := us.flatMap (LittleEndian.toBytes 2)

/-- Bytes as code units; `none` when one byte is left over. -/
def unitsOfBytes : List UInt8 → Option (List ℕ)
  | [] => some []
  | [_] => none
  | low :: high :: rest => (unitsOfBytes rest).map (LittleEndian.ofBytes [low, high] :: ·)

/-- A text as UTF-16LE bytes. -/
def encodeLE (text : List Char) : List UInt8 := bytesOfUnits (encode text)

/-- The text of UTF-16LE bytes. -/
def decodeLE (bytes : List UInt8) : Option (List Char) := (unitsOfBytes bytes).bind decode

/-- Units of 16 bits are read back from their bytes. -/
theorem unitsOfBytes_bytesOfUnits {us : List ℕ} (h : ∀ u ∈ us, u < 2 ^ 16) :
    unitsOfBytes (bytesOfUnits us) = some us := by
  induction us with
  | nil => rfl
  | cons u us ih =>
    have hu : LittleEndian.ofBytes (LittleEndian.toBytes 2 u) = u :=
      LittleEndian.ofBytes_toBytes_of_lt (h u (by simp))
    have hrest := ih fun v hv => h v (by simp [hv])
    have hcons : bytesOfUnits (u :: us) =
        UInt8.ofNat u :: UInt8.ofNat (u / 256) :: bytesOfUnits us := rfl
    rw [hcons, unitsOfBytes, hrest, Option.map_some]
    exact congrArg (fun v => some (v :: us)) hu

/-- **Round trip** on bytes. -/
theorem decodeLE_encodeLE (text : List Char) : decodeLE (encodeLE text) = some text := by
  rw [decodeLE, encodeLE, unitsOfBytes_bytesOfUnits fun _ => encode_lt, Option.bind_some,
    decode_encode]

/-- The bytes of a text, part by part. -/
theorem encodeLE_append (text text' : List Char) :
    encodeLE (text ++ text') = encodeLE text ++ encodeLE text' := by
  simp [encodeLE, encode, bytesOfUnits]

/-- Every unit is two bytes. -/
theorem length_encodeLE (text : List Char) :
    (encodeLE text).length = 2 * (encode text).length := by
  rw [encodeLE, bytesOfUnits, List.length_flatMap]
  simp [Nat.mul_comm]

/-- Zero padding of even length reads as null characters. -/
theorem replicate_zero_eq_encodeLE (k : ℕ) :
    List.replicate (2 * k) 0 = encodeLE (List.replicate k '\x00') := by
  induction k with
  | zero => rfl
  | succ k ih =>
    have hsplit : List.replicate (k + 1) '\x00' = ['\x00'] ++ List.replicate k '\x00' := rfl
    have htwo : 2 * (k + 1) = 2 * k + 1 + 1 := by omega
    rw [hsplit, encodeLE_append, ← ih, htwo, List.replicate_succ, List.replicate_succ]
    rfl

end Utf16
