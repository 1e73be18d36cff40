import Mathlib.Data.BitVec
import Mathlib.Data.List.Basic

/-!
# The clipboard codec

The functions of `mod proto` in `clipboard.rs`: the clipboard items of one side become
the `Clipboard` messages of a `MultiClipboards`, and the other side turns them back. Every
kind of item has its own encoder, and an encoder sends the compressed content where it is
shorter. A `Vec<u8>` is a byte array, an `i32` of a message a 32-bit vector, a `usize` a
64-bit one. `compress` and `decompress` stand for zstd.
-/

namespace RdWeb.MultiClip

/-- `ClipboardFormat` of the protocol. -/
inductive ClipboardFormat
  | text
  | rtf
  | html
  | imageRgba
  | imagePng
  | imageSvg
  | special
  deriving DecidableEq, Repr

/-- The number of a format on the wire. -/
def ClipboardFormat.value : ClipboardFormat → BitVec 32
  | text => 0
  | rtf => 1
  | html => 2
  | imageRgba => 21
  | imagePng => 22
  | imageSvg => 23
  | special => 31

/-- `EnumOrUnknown::enum_value`: `none` for a number that is no format. -/
def ClipboardFormat.enumValue (n : BitVec 32) : Option ClipboardFormat :=
  [text, rtf, html, imageRgba, imagePng, imageSvg, special].find? fun f => f.value = n

/-- The number of a format gives the format. -/
@[simp] theorem ClipboardFormat.enumValue_value (f : ClipboardFormat) :
    enumValue f.value = some f := by
  cases f <;> rfl

/-- The message of one clipboard item. -/
structure Clipboard where
  compress : Bool := false
  content : ByteArray := ByteArray.empty
  width : BitVec 32 := 0
  height : BitVec 32 := 0
  format : BitVec 32 := 0
  specialName : String := ""

/-- `arboard::ImageData`. -/
inductive ImageData
  | rgba (width height : BitVec 64) (bytes : ByteArray)
  | png (bytes : ByteArray)
  | svg (text : String)

/-- `ImageData::bytes`. -/
def ImageData.bytes : ImageData → ByteArray
  | rgba _ _ bytes => bytes
  | png bytes => bytes
  | svg text => text.toByteArray

/-- `arboard::ClipboardData`; `other` is any kind that is not synchronised. -/
inductive ClipboardData
  | text (s : String)
  | rtf (s : String)
  | html (s : String)
  | image (a : ImageData)
  | special (name : String) (data : ByteArray)
  | other

section Encode

variable (compress : ByteArray → ByteArray)

/-- The choice every encoder makes: the compressed data if it is shorter, or `raw`. -/
def pack (data raw : ByteArray) : Bool × ByteArray :=
  let compressed := compress data
  if compressed.size < data.size then (true, compressed) else (false, raw)

/-- A text is packed with its format. -/
def plainToProto (s : String) (format : ClipboardFormat) : Clipboard :=
  let (compressed, content) := pack compress s.toByteArray s.toByteArray
  { compress := compressed, content := content, format := format.value }

/-- An image is packed with its size, cut to 32 bits. -/
def imageToProto (a : ImageData) : Clipboard :=
  match a with
  | .rgba width height _ =>
    let (compressed, content) := pack compress a.bytes a.bytes
    { compress := compressed
      content := content
      width := width.setWidth 32
      height := height.setWidth 32
      format := ClipboardFormat.imageRgba.value }
  | .png png =>
    { compress := false, content := png, format := ClipboardFormat.imagePng.value }
  | .svg _ =>
    let (compressed, content) := pack compress a.bytes a.bytes
    { compress := compressed, content := content, format := ClipboardFormat.imageSvg.value }

/-- Where the compressed data is not shorter, the content is the name's bytes. -/
def specialToProto (d : ByteArray) (s : String) : Clipboard :=
  let (compressed, content) := pack compress d s.toByteArray
  { compress := compressed
    content := content
    format := ClipboardFormat.special.value
    specialName := s }

/-- What is sent of an item, and nothing for what has no format. -/
def clipboardDataToProto : ClipboardData → Option Clipboard
  | .text s => some (plainToProto compress s .text)
  | .rtf s => some (plainToProto compress s .rtf)
  | .html s => some (plainToProto compress s .html)
  | .image a => some (imageToProto compress a)
  | .special s d => some (specialToProto compress d s)
  | .other => none

/-- The items that can be sent are sent. -/
def createMultiClipboards (vecData : List ClipboardData) : List Clipboard :=
  vecData.filterMap (clipboardDataToProto compress)

end Encode

section Decode

variable (decompress : ByteArray → ByteArray)

/-- The data of a message: its content, decompressed if it was compressed. -/
def Clipboard.data (clipboard : Clipboard) : ByteArray :=
  if clipboard.compress then decompress clipboard.content else clipboard.content

/-- An item is read back if its format is known and its text is well formed. -/
def fromClipboard (clipboard : Clipboard) : Option ClipboardData :=
  let data := clipboard.data decompress
  match ClipboardFormat.enumValue clipboard.format with
  | some .text => (String.fromUTF8? data).map .text
  | some .rtf => (String.fromUTF8? data).map .rtf
  | some .html => (String.fromUTF8? data).map .html
  | some .imageRgba =>
    some (.image (.rgba (clipboard.width.signExtend 64) (clipboard.height.signExtend 64) data))
  | some .imagePng => some (.image (.png data))
  | some .imageSvg => some (.image (.svg ((String.fromUTF8? data).getD "")))
  | some .special => some (.special clipboard.specialName data)
  | none => none

/-- The items that can be read are read. -/
def fromMultiClipboards (multiClipboards : List Clipboard) : List ClipboardData :=
  multiClipboards.filterMap (fromClipboard decompress)

end Decode

/-! ### What an item becomes on the other side -/

variable {compress decompress : ByteArray → ByteArray}

/-- The text of a string's bytes is the string. -/
@[simp] theorem fromUTF8?_toByteArray (s : String) : String.fromUTF8? s.toByteArray = some s := by
  rw [String.fromUTF8?, dif_pos s.isValidUTF8]
  rfl

/-- What is unpacked: the data where the compressed form is shorter, else what was put in
its place. -/
theorem data_pack (hzstd : ∀ d, decompress (compress d) = d) (data raw : ByteArray)
    {clipboard : Clipboard}
    (hpack : pack compress data raw = (clipboard.compress, clipboard.content)) :
    clipboard.data decompress =
      if (compress data).size < data.size then data else raw := by
  rw [pack] at hpack
  split_ifs at hpack ⊢ with hshorter
  · obtain ⟨hcompress, hcontent⟩ := Prod.mk.inj hpack
    rw [Clipboard.data, ← hcompress, ← hcontent, if_pos rfl, hzstd]
  · obtain ⟨hcompress, hcontent⟩ := Prod.mk.inj hpack
    rw [Clipboard.data, ← hcompress, ← hcontent, if_neg (by simp)]

/-- Packed in its own place, data comes back whatever its compressed form. -/
theorem data_pack_self (hzstd : ∀ d, decompress (compress d) = d) (data : ByteArray)
    {clipboard : Clipboard}
    (hpack : pack compress data data = (clipboard.compress, clipboard.content)) :
    clipboard.data decompress = data := by
  rw [data_pack hzstd data data hpack, ite_self]

/-- What an item becomes on the way from one side to the other. -/
def carried (compress decompress : ByteArray → ByteArray) (item : ClipboardData) :
    Option ClipboardData :=
  (clipboardDataToProto compress item).bind (fromClipboard decompress)

/-- What arrives is what each item carries over. -/
theorem fromMultiClipboards_createMultiClipboards (items : List ClipboardData) :
    fromMultiClipboards decompress (createMultiClipboards compress items) =
      items.filterMap (carried compress decompress) := by
  rw [fromMultiClipboards, createMultiClipboards, List.filterMap_filterMap]
  rfl

/-- A size comes back from its `i32` field exactly if it is the sign extension of 32 bits. -/
def FitsI32 (n : BitVec 64) : Prop := (n.setWidth 32).signExtend 64 = n

/-- Whether a number fits 32 bits is decided by cutting it. -/
instance (n : BitVec 64) : Decidable (FitsI32 n) := inferInstanceAs (Decidable (_ = _))

/-- The sizes that fit are those below `2 ^ 31` (and the last `2 ^ 31` of all). -/
theorem fitsI32_iff (n : BitVec 64) :
    FitsI32 n ↔ n.toNat < 2 ^ 31 ∨ 2 ^ 64 - 2 ^ 31 ≤ n.toNat := by
  have hn : n.toNat < 2 ^ 64 := n.isLt
  have hlow : (n.setWidth 32).toNat = n.toNat % 2 ^ 32 := by simp
  rw [FitsI32, ← BitVec.toNat_inj, BitVec.toNat_signExtend, BitVec.msb_eq_decide, hlow]
  split_ifs with hmsb <;> simp at hmsb ⊢ <;> omega

/-- An item the codec carries: a size of an image fits its field, and the data of a special
format is sent compressed, or is the name of the format. -/
def Carried (compress : ByteArray → ByteArray) : ClipboardData → Prop
  | .image (.rgba width height _) => FitsI32 width ∧ FitsI32 height
  | .special name data => (compress data).size < data.size ∨ data = name.toByteArray
  | .other => False
  | _ => True

/-- A text comes back from its message in any of the three text formats. -/
theorem carried_plain (hzstd : ∀ d, decompress (compress d) = d) (s : String)
    (format : ClipboardFormat) :
    (plainToProto compress s format).data decompress = s.toByteArray :=
  data_pack_self hzstd s.toByteArray rfl

/-- A text is packed under its own format. -/
@[simp] theorem plainToProto_format (s : String) (format : ClipboardFormat) :
    (plainToProto compress s format).format = format.value := rfl

/-- An image arrives with its size cut to 32 bits and extended again. -/
theorem carried_rgba (hzstd : ∀ d, decompress (compress d) = d) (width height : BitVec 64)
    (bytes : ByteArray) :
    carried compress decompress (.image (.rgba width height bytes)) =
      some (.image (.rgba ((width.setWidth 32).signExtend 64)
        ((height.setWidth 32).signExtend 64) bytes)) := by
  have hdata : (imageToProto compress (.rgba width height bytes)).data decompress = bytes :=
    data_pack_self hzstd bytes rfl
  rw [carried, clipboardDataToProto, Option.bind_some, fromClipboard, hdata]
  simp [imageToProto]

/-- A drawing arrives as it was. -/
theorem carried_svg (hzstd : ∀ d, decompress (compress d) = d) (s : String) :
    carried compress decompress (.image (.svg s)) = some (.image (.svg s)) := by
  have hdata : (imageToProto compress (.svg s)).data decompress = s.toByteArray :=
    data_pack_self hzstd s.toByteArray rfl
  rw [carried, clipboardDataToProto, Option.bind_some, fromClipboard, hdata]
  simp [imageToProto]

/-- A special format comes back with its name and with its data if that was sent compressed;
else with its name in place of the data. -/
theorem carried_special (hzstd : ∀ d, decompress (compress d) = d) (name : String)
    (data : ByteArray) :
    carried compress decompress (.special name data) =
      some (.special name
        (if (compress data).size < data.size then data else name.toByteArray)) := by
  have hdata : (specialToProto compress data name).data decompress =
      if (compress data).size < data.size then data else name.toByteArray :=
    data_pack hzstd data name.toByteArray rfl
  rw [carried, clipboardDataToProto, Option.bind_some, fromClipboard, hdata]
  simp [specialToProto]

/-- One item comes back as it was exactly if it is carried. -/
theorem carried_eq_some_iff (hzstd : ∀ d, decompress (compress d) = d) (item : ClipboardData) :
    carried compress decompress item = some item ↔ Carried compress item := by
  cases item with
  | text s =>
    simp [carried, clipboardDataToProto, fromClipboard, carried_plain hzstd, Carried]
  | rtf s =>
    simp [carried, clipboardDataToProto, fromClipboard, carried_plain hzstd, Carried]
  | html s =>
    simp [carried, clipboardDataToProto, fromClipboard, carried_plain hzstd, Carried]
  | image a =>
    cases a with
    | rgba width height bytes => simp [carried_rgba hzstd, Carried, FitsI32]
    | png bytes =>
      simp [carried, clipboardDataToProto, fromClipboard, imageToProto, Clipboard.data, Carried]
    | svg s => simp [carried_svg hzstd, Carried]
  | special name data =>
    rw [carried_special hzstd, Carried]
    split_ifs with hshorter
    · simp [hshorter]
    · simp [hshorter, eq_comm]
  | other => simp [carried, clipboardDataToProto, Carried]

/-- **The clipboard codec.** A list of items comes back item by item and in order if and only
if each of them is carried. -/
theorem roundTrip_iff (hzstd : ∀ d, decompress (compress d) = d) (items : List ClipboardData) :
    fromMultiClipboards decompress (createMultiClipboards compress items) = items ↔
      ∀ item ∈ items, Carried compress item := by
  have hself := List.filterMap_eq_map_iff_forall_eq_some
    (f := carried compress decompress) (g := id) (l := items)
  rw [List.map_id] at hself
  rw [fromMultiClipboards_createMultiClipboards, hself]
  exact forall₂_congr fun item _ => carried_eq_some_iff hzstd item

/-- A compressor that gains nothing: the data stored behind a header byte. -/
def store (data : ByteArray) : ByteArray := [0x28].toByteArray ++ data

/-- The decompressor of `store`: drop the header byte. -/
def unstore (compressed : ByteArray) : ByteArray := compressed.extract 1 compressed.size

/-- What is stored uncompressed is read back. -/
theorem unstore_store (data : ByteArray) : unstore (store data) = data := by
  rw [unstore, store]
  apply ByteArray.extract_append_eq_right
  · rfl
  · exact ByteArray.size_append

/-- A text, an image of two pixels and a format whose data is its own name come back. -/
theorem roundTrip_iff_small :
    fromMultiClipboards unstore (createMultiClipboards store
        [.text "hello", .image (.rgba 2 1 [0, 0, 0, 255, 9, 9, 9, 255].toByteArray),
          .special "x" "x".toByteArray]) =
      [.text "hello", .image (.rgba 2 1 [0, 0, 0, 255, 9, 9, 9, 255].toByteArray),
        .special "x" "x".toByteArray] :=
  (roundTrip_iff unstore_store _).mpr (by simp [Carried, FitsI32])

/-- Three bytes of a special format are longer when compressed, so the name is sent in their
place: they come back as the bytes of the name. -/
theorem not_roundTrip_special :
    ¬ ∀ items : List ClipboardData,
      fromMultiClipboards unstore (createMultiClipboards store items) = items := by
  intro hall
  have hname : fromMultiClipboards unstore
      (createMultiClipboards store [.special "dyn" [1, 2, 3].toByteArray]) =
        [.special "dyn" "dyn".toByteArray] := rfl
  have hitem := hname.symm.trans (hall [.special "dyn" [1, 2, 3].toByteArray])
  injection hitem with hspecial
  injection hspecial with _ hdata
  have hbytes := congrArg ByteArray.data hdata
  revert hbytes
  decide

end RdWeb.MultiClip
