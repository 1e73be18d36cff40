import Mathlib.Algebra.Order.Ring.Nat
import Mathlib.Data.List.Basic
import Mathlib.Tactic.NormNum
import Mathlib.Tactic.SplitIfs

/-!
# Base64

Three bytes are four digits of six bits. A text is padded to whole groups of four; a reader takes
it with the padding or without, and between white space.
-/

namespace Base64

/-- The 64 digits of the standard alphabet, in the order of their values. -/
def alphabet : List Char :=
  "ABCDEFGHIJKLMNOPQRSTUVWXYZabcdefghijklmnopqrstuvwxyz0123456789+/".toList

/-- The character of a digit. -/
def toChar (digit : ℕ) : Char := alphabet.getD digit 'A'

/-- The digit of a character, where it is one. -/
def ofChar (c : Char) : Option ℕ :=
  if alphabet.idxOf c < 64 then some (alphabet.idxOf c) else none

/-- The digits of some bytes; the last of an incomplete group ends in zeros. -/
def digits : List UInt8 → List ℕ
  | a :: b :: c :: rest =>
    a.toNat / 4 :: (a.toNat % 4 * 16 + b.toNat / 16) :: (b.toNat % 16 * 4 + c.toNat / 64) ::
      c.toNat % 64 :: digits rest
  | [a, b] => [a.toNat / 4, a.toNat % 4 * 16 + b.toNat / 16, b.toNat % 16 * 4]
  | [a] => [a.toNat / 4, a.toNat % 4 * 16]
  | [] => []

/-- The bytes of some digits; no byte can end in one digit. -/
def bytes : List ℕ → Option (List UInt8)
  | a :: b :: c :: d :: rest =>
    (bytes rest).map fun tail =>
      UInt8.ofNat (a * 4 + b / 16) :: UInt8.ofNat (b % 16 * 16 + c / 4) ::
        UInt8.ofNat (c % 4 * 64 + d) :: tail
  | [a, b, c] => some [UInt8.ofNat (a * 4 + b / 16), UInt8.ofNat (b % 16 * 16 + c / 4)]
  | [a, b] => some [UInt8.ofNat (a * 4 + b / 16)]
  | [_] => none
  | [] => some []

/-- What fills the last group of a text. -/
def padding (length : ℕ) : List Char := List.replicate ((4 - length % 4) % 4) '='

/-- The text without its padding. -/
def unpadded (data : List UInt8) : List Char := (digits data).map toChar

/-- The text of the data, with its padding. -/
def encode (data : List UInt8) : List Char :=
  unpadded data ++ padding (unpadded data).length

/-- The white space that decoders skip. -/
def isAsciiWhitespace (c : Char) : Bool := c.toNat ∈ [9, 10, 12, 13, 32]

/-- Take the padding off a text of whole groups. -/
def unpad (text : List Char) : List Char :=
  if text.length % 4 = 0 then
    if text.drop (text.length - 2) = ['=', '='] then text.take (text.length - 2)
    else if text.drop (text.length - 1) = ['='] then text.take (text.length - 1)
    else text
  else text

/-- The data of a text, with white space skipped, or nothing if the text is not well formed. -/
def decode (text : List Char) : Option (List UInt8) :=
  ((unpad (text.filter fun c => !isAsciiWhitespace c)).mapM ofChar).bind bytes

/-! ### The characters of digits -/

/-- Reading a digit back gives its value. -/
theorem ofChar_toChar {digit : ℕ} (h : digit < 64) : ofChar (toChar digit) = some digit := by
  revert digit
  decide +kernel

/-- A character of the alphabet. -/
def IsDigit (c : Char) : Prop := ∃ digit < 64, c = toChar digit

/-- No digit is padding, white space or one of the signs a token uses, and all are ASCII. -/
theorem toChar_plain {digit : ℕ} (h : digit < 64) :
    toChar digit ≠ '=' ∧ isAsciiWhitespace (toChar digit) = false ∧ toChar digit ≠ '-' ∧
      toChar digit ≠ '_' ∧ toChar digit ≠ '.' ∧ (toChar digit).toNat < 128 := by
  revert digit
  decide +kernel

/-- The groups of six bits are digits. -/
theorem digits_lt (data : List UInt8) : ∀ digit ∈ digits data, digit < 64 := by
  induction data using digits.induct with
  | case1 a b c rest ih =>
    have ha := a.toNat_lt
    have hb := b.toNat_lt
    intro digit hdigit
    simp only [digits, List.mem_cons] at hdigit
    rcases hdigit with rfl | rfl | rfl | rfl | hrest
    · omega
    · omega
    · have hc := c.toNat_lt
      omega
    · omega
    · exact ih digit hrest
  | case2 a b =>
    have ha := a.toNat_lt
    have hb := b.toNat_lt
    intro digit hdigit
    simp only [digits, List.mem_cons, List.not_mem_nil, or_false] at hdigit
    rcases hdigit with rfl | rfl | rfl <;> omega
  | case3 a =>
    have ha := a.toNat_lt
    intro digit hdigit
    simp only [digits, List.mem_cons, List.not_mem_nil, or_false] at hdigit
    rcases hdigit with rfl | rfl <;> omega
  | case4 => simp [digits]

/-- Encoded text without its padding consists of digits. -/
theorem isDigit_of_mem_unpadded {data : List UInt8} {c : Char} (h : c ∈ unpadded data) :
    IsDigit c := by
  obtain ⟨digit, hdigit, rfl⟩ := List.mem_map.mp h
  exact ⟨digit, digits_lt data digit hdigit, rfl⟩

/-- A list of digits is read back from its characters. -/
theorem mapM_ofChar {l : List ℕ} (h : ∀ digit ∈ l, digit < 64) :
    (l.map toChar).mapM ofChar = some l := by
  induction l with
  | nil => rfl
  | cons digit l ih =>
    obtain ⟨hdigit, hrest⟩ := List.forall_mem_cons.mp h
    rw [List.map_cons, List.mapM_cons, ofChar_toChar hdigit, ih hrest]
    rfl

/-- The bytes of the digits are the bytes. -/
theorem bytes_digits (data : List UInt8) : bytes (digits data) = some data := by
  induction data using digits.induct with
  | case1 a b c rest ih =>
    have ha : UInt8.ofNat (a.toNat / 4 * 4 + (a.toNat % 4 * 16 + b.toNat / 16) / 16) = a := by
      have hb := b.toNat_lt
      have hvalue : a.toNat / 4 * 4 + (a.toNat % 4 * 16 + b.toNat / 16) / 16 = a.toNat := by omega
      rw [hvalue, UInt8.ofNat_toNat]
    have hb : UInt8.ofNat ((a.toNat % 4 * 16 + b.toNat / 16) % 16 * 16 +
        (b.toNat % 16 * 4 + c.toNat / 64) / 4) = b := by
      have hb := b.toNat_lt
      have hc := c.toNat_lt
      have hvalue : (a.toNat % 4 * 16 + b.toNat / 16) % 16 * 16 +
          (b.toNat % 16 * 4 + c.toNat / 64) / 4 = b.toNat := by omega
      rw [hvalue, UInt8.ofNat_toNat]
    have hc : UInt8.ofNat ((b.toNat % 16 * 4 + c.toNat / 64) % 4 * 64 + c.toNat % 64) = c := by
      have hc := c.toNat_lt
      have hvalue : (b.toNat % 16 * 4 + c.toNat / 64) % 4 * 64 + c.toNat % 64 = c.toNat := by omega
      rw [hvalue, UInt8.ofNat_toNat]
    rw [digits, bytes, ih, Option.map_some, ha, hb, hc]
  | case2 a b =>
    have ha : UInt8.ofNat (a.toNat / 4 * 4 + (a.toNat % 4 * 16 + b.toNat / 16) / 16) = a := by
      have hb := b.toNat_lt
      have hvalue : a.toNat / 4 * 4 + (a.toNat % 4 * 16 + b.toNat / 16) / 16 = a.toNat := by omega
      rw [hvalue, UInt8.ofNat_toNat]
    have hb : UInt8.ofNat ((a.toNat % 4 * 16 + b.toNat / 16) % 16 * 16 +
        b.toNat % 16 * 4 / 4) = b := by
      have hb := b.toNat_lt
      have hvalue : (a.toNat % 4 * 16 + b.toNat / 16) % 16 * 16 + b.toNat % 16 * 4 / 4 =
          b.toNat := by omega
      rw [hvalue, UInt8.ofNat_toNat]
    rw [digits, bytes, ha, hb]
  | case3 a =>
    have ha : UInt8.ofNat (a.toNat / 4 * 4 + a.toNat % 4 * 16 / 16) = a := by
      have hvalue : a.toNat / 4 * 4 + a.toNat % 4 * 16 / 16 = a.toNat := by omega
      rw [hvalue, UInt8.ofNat_toNat]
    rw [digits, bytes, ha]
  | case4 => rfl

/-- No group is left with one digit. -/
theorem length_digits_mod (data : List UInt8) : (digits data).length % 4 ≠ 1 := by
  induction data using digits.induct with
  | case1 a b c rest ih =>
    simp only [digits, List.length_cons]
    omega
  | case2 | case3 | case4 => simp [digits]

/-- No encoding leaves one digit over. -/
theorem length_unpadded_mod (data : List UInt8) : (unpadded data).length % 4 ≠ 1 := by
  rw [unpadded, List.length_map]
  exact length_digits_mod data

/-! ### Round trips -/

/-- A text whose digits are those of the data decodes to the data. -/
theorem decode_of_unpad {text : List Char} {data : List UInt8}
    (h : unpad (text.filter fun c => !isAsciiWhitespace c) = unpadded data) :
    decode text = some data := by
  rw [decode, h, unpadded, mapM_ofChar (digits_lt data), Option.bind_some, bytes_digits]

/-- A text of digits keeps all of them. -/
theorem unpad_digits {text : List Char} (h : ∀ c ∈ text, IsDigit c) : unpad text = text := by
  have hlast (n : ℕ) : '=' ∉ text.drop n := by
    intro hmem
    obtain ⟨digit, hdigit, heq⟩ := h _ (List.mem_of_mem_drop hmem)
    exact (toChar_plain hdigit).1 heq.symm
  unfold unpad
  split_ifs with hgroups htwo hone
  · exact absurd (htwo ▸ List.mem_cons_self) (hlast _)
  · exact absurd (hone ▸ List.mem_cons_self) (hlast _)
  · rfl
  · rfl

/-- The padding comes off again. -/
theorem unpad_append_padding {text : List Char} (h : ∀ c ∈ text, IsDigit c)
    (hmod : text.length % 4 ≠ 1) : unpad (text ++ padding text.length) = text := by
  have hlast (n : ℕ) : '=' ∉ text.drop n := by
    intro hmem
    obtain ⟨digit, hdigit, heq⟩ := h _ (List.mem_of_mem_drop hmem)
    exact (toChar_plain hdigit).1 heq.symm
  have hcases : text.length % 4 = 0 ∨ text.length % 4 = 2 ∨ text.length % 4 = 3 := by omega
  rcases hcases with hzero | htwo | hthree
  · rw [padding, hzero]
    simpa using unpad_digits h
  · have hpadding : padding text.length = ['=', '='] := by rw [padding, htwo]; rfl
    have hlength : (text ++ ['=', '=']).length = text.length + 2 := by simp
    rw [hpadding, unpad, hlength, if_pos (by omega), Nat.add_sub_cancel, List.drop_left,
      if_pos rfl, List.take_left]
  · have hpadding : padding text.length = ['='] := by rw [padding, hthree]; rfl
    have hlength : (text ++ ['=']).length = text.length + 1 := by simp
    have hnot : (text ++ ['=']).drop (text.length + 1 - 2) ≠ ['=', '='] := by
      rw [List.drop_append_of_le_length (by omega)]
      intro heq
      have hdrop : text.drop (text.length + 1 - 2) = ['='] :=
        List.append_inj_left' (heq.trans (show ['=', '='] = ['='] ++ ['='] from rfl)) rfl
      exact hlast _ (hdrop ▸ List.mem_cons_self)
    rw [hpadding, unpad, hlength, if_pos (by omega), if_neg hnot, Nat.add_sub_cancel,
      List.drop_left, if_pos rfl, List.take_left]

/-- Digits are not white space. -/
theorem filter_digits {text : List Char} (h : ∀ c ∈ text, IsDigit c) :
    text.filter (fun c => !isAsciiWhitespace c) = text := by
  refine List.filter_eq_self.mpr fun c hc => ?_
  obtain ⟨digit, hdigit, rfl⟩ := h c hc
  rw [(toChar_plain hdigit).2.1]
  rfl

/-- Padding is not white space. -/
theorem filter_padding (length : ℕ) :
    (padding length).filter (fun c => !isAsciiWhitespace c) = padding length := by
  refine List.filter_eq_self.mpr fun c hc => ?_
  rw [List.eq_of_mem_replicate hc]
  rfl

/-- **Round trip**, with the padding and without. -/
theorem decode_encode (data : List UInt8) : decode (encode data) = some data := by
  have hdigits : ∀ c ∈ unpadded data, IsDigit c := fun c hc => isDigit_of_mem_unpadded hc
  refine decode_of_unpad ?_
  rw [encode, List.filter_append, filter_digits hdigits, filter_padding,
    unpad_append_padding hdigits (length_unpadded_mod data)]

end Base64
