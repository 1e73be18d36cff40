import RdWeb.Clipboard.Path
import RdWeb.Lib.BigEndian
import Mathlib.Tactic.NormNum

/-!
# The portable package

`write_package_metadata` of `generate.py` writes the files of a release into one blob, and
`BinaryReader::read` of `bin_reader.rs` takes it apart. The end of the entries is marked where the
length of a path would stand.
-/

namespace RdWeb.Host.PortablePackage

open RdWeb.Clipboard (PathBuf)
open RdWeb.Clipboard.PathBuf (ofString)

/-! ## The writer -/

/-- The bytes of a length. -/
def lengthCount : ℕ := 4

/-- An entry of the table: the path, and what it is mapped to. -/
structure TableEntry where
  path : String
  compressedData : List UInt8
  md5Code : List UInt8

/-- `to_bytes` with `length_count` bytes, which raises where the number does not fit. -/
def toBytes (n : ℕ) : Option (List UInt8) :=
  if n < 256 ^ lengthCount then some (BigEndian.toBytes lengthCount n) else none

/-- The body of the loop. -/
def writeEntry (e : TableEntry) : Option (List UInt8) := do
  let path := ofString e.path
  let pathLength ← toBytes path.length
  let dataLength ← toBytes e.compressedData.length
  return pathLength ++ (path ++ (dataLength ++ (e.compressedData ++ e.md5Code)))

/-- `write_package_metadata`: the bytes of `data.bin`; `none` where it raises. -/
def writePackageMetadata (md5Table : List TableEntry) (exe : String) : Option (List UInt8) := do
  let entries ← md5Table.mapM writeEntry
  return ofString "rustdesk" ++ (entries.flatten ++ (ofString "rustdesk" ++ ofString exe))

/-! ## The reader -/

/-- The bytes of a length, in the reader. -/
def LENGTH : ℕ := 4

/-- The bytes of the mark at the start. -/
def IDENTIFIER_LENGTH : ℕ := 8

/-- The bytes of a checksum. -/
def MD5_LENGTH : ℕ := 32

/-- A file of the package as it is read. -/
structure BinaryData where
  md5Code : List UInt8
  raw : List UInt8
  path : String

/-- The bytes from one position up to another; `none` is a panic. -/
def slice (data : List UInt8) (start stop : ℕ) : Option (List UInt8) :=
  if start ≤ stop ∧ stop ≤ data.length then some ((data.take stop).drop start) else none

/-- `u32::from_be_bytes` of the four bytes at a position. -/
def readU32 (data : List UInt8) (start : ℕ) : Option ℕ :=
  (slice data start (start + 4)).map BigEndian.ofBytes

/-- `String::from_utf8_lossy`. -/
def fromUtf8Lossy (bytes : List UInt8) : String := PathBuf.toStringLossy bytes

/-- One entry, and the position after it. -/
def readEntry (data : List UInt8) (base : ℕ) : Option (BinaryData × ℕ) := do
  let pathLength ← readU32 data base
  let offset := LENGTH
  let path ← slice data (base + offset) (base + offset + pathLength)
  let offset := offset + pathLength
  let fileLength ← readU32 data (base + offset)
  let offset := offset + LENGTH
  let raw ← slice data (base + offset) (base + offset + fileLength)
  let offset := offset + fileLength
  let md5 ← slice data (base + offset) (base + offset + MD5_LENGTH)
  let offset := offset + MD5_LENGTH
  return (⟨md5, raw, fromUtf8Lossy path⟩, base + offset)

/-- A slice lies within the data. -/
theorem slice_eq_some {data bytes : List UInt8} {start stop : ℕ}
    (h : slice data start stop = some bytes) : start ≤ stop ∧ stop ≤ data.length := by
  unfold slice at h
  split_ifs at h with hbounds
  exact hbounds

/-- An entry ends behind its start, and in the data. -/
theorem readEntry_bounds {data : List UInt8} {base next : ℕ} {d : BinaryData}
    (h : readEntry data base = some (d, next)) : base < next ∧ next ≤ data.length := by
  simp only [readEntry, bind, Option.bind_eq_some_iff, pure, Option.some.injEq,
    Prod.mk.injEq] at h
  obtain ⟨pathLength, -, path, -, fileLength, -, raw, -, md5, hmd5, -, rfl⟩ := h
  have hbounds := slice_eq_some hmd5
  have hlength : MD5_LENGTH = 32 := rfl
  omega

/-- The loop, from a position. -/
def readEntries (data : List UInt8) (base : ℕ) (parsed : List BinaryData) :
    Option (List BinaryData × ℕ) :=
  match slice data base (base + IDENTIFIER_LENGTH) with
  | none => none
  | some iden =>
    if fromUtf8Lossy iden = "rustdesk" then some (parsed, base + IDENTIFIER_LENGTH)
    else
      match _h : readEntry data base with
      | none => none
      | some (d, next) => readEntries data next (parsed ++ [d])
termination_by data.length - base
decreasing_by
  have hbounds := readEntry_bounds (by assumption)
  omega

/-- `BinaryReader::read`; `none` is a panic. -/
def read (data : List UInt8) : Option (List BinaryData × String) := do
  guard (IDENTIFIER_LENGTH < data.length)
  let iden ← slice data 0 IDENTIFIER_LENGTH
  guard (fromUtf8Lossy iden = "rustdesk")
  let (parsed, base) ← readEntries data IDENTIFIER_LENGTH []
  let executable ← slice data base data.length
  return (parsed, fromUtf8Lossy executable)

/-! ## What is packed -/

/-- An entry that a release has: its lengths are in range, and a digest has 32 digits. -/
structure PackedFile extends TableEntry where
  path_lt : (ofString path).length < 2 ^ 30
  data_lt : compressedData.length < 2 ^ 32
  md5_length : md5Code.length = MD5_LENGTH

/-- What the reader is to give back. -/
def TableEntry.toBinaryData (e : TableEntry) : BinaryData := ⟨e.md5Code, e.compressedData, e.path⟩

namespace PackedFile

/-- The bytes of an entry. -/
def bytes (f : PackedFile) : List UInt8 :=
  BigEndian.toBytes lengthCount (ofString f.path).length ++ (ofString f.path ++
    (BigEndian.toBytes lengthCount f.compressedData.length ++
      (f.compressedData ++ f.md5Code)))

/-- The path of a file fits its length. -/
theorem path_fits (f : PackedFile) : (ofString f.path).length < 256 ^ lengthCount :=
  f.path_lt.trans (by decide)

/-- The data of a file fit their length. -/
theorem data_fits (f : PackedFile) : f.compressedData.length < 256 ^ lengthCount :=
  f.data_lt.trans_eq (by decide)

/-- A file is written as its bytes. -/
theorem writeEntry_eq (f : PackedFile) : writeEntry f.toTableEntry = some f.bytes := by
  simp only [writeEntry, toBytes, if_pos f.path_fits, if_pos f.data_fits]
  rfl

/-- The bytes of a file are its parts. -/
theorem length_bytes (f : PackedFile) :
    f.bytes.length = LENGTH + (ofString f.path).length + LENGTH + f.compressedData.length +
      MD5_LENGTH := by
  have hlength : lengthCount = LENGTH := rfl
  simp only [bytes, List.length_append, BigEndian.length_toBytes, f.md5_length, hlength]
  omega

/-- **No entry looks like the end marker**: the length of its path is too small for that. -/
theorem not_marker (f : PackedFile) (rest : List UInt8) :
    fromUtf8Lossy ((f.bytes ++ rest).take IDENTIFIER_LENGTH) ≠ "rustdesk" := by
  intro hmarker
  have hbytes := PathBuf.eq_ofString_of_toStringLossy hmarker (by decide)
  have hfirst := congrArg (List.take lengthCount) hbytes
  have hmin : min lengthCount IDENTIFIER_LENGTH = lengthCount := rfl
  have hlength := BigEndian.length_toBytes lengthCount (ofString f.path).length
  rw [List.take_take, hmin, bytes, List.append_assoc, List.take_left' hlength] at hfirst
  have hnumber := BigEndian.ofBytes_toBytes f.path_fits
  rw [hfirst] at hnumber
  have hrust : BigEndian.ofBytes ((ofString "rustdesk").take lengthCount) = 1920299892 := by
    decide
  have hlt := f.path_lt
  omega

end PackedFile

/-! ## Reading back what was written -/

/-- The bytes stand at a position of the data. -/
def LiesAt (data : List UInt8) (start : ℕ) (bytes : List UInt8) : Prop :=
  ∃ before after, data = before ++ (bytes ++ after) ∧ before.length = start

section LiesAt

variable {data a b : List UInt8} {start : ℕ}

/-- What lies at a place begins there. -/
theorem LiesAt.left (h : LiesAt data start (a ++ b)) : LiesAt data start a := by
  obtain ⟨before, after, hdata, hstart⟩ := h
  exact ⟨before, b ++ after, by rw [hdata, List.append_assoc], hstart⟩

/-- Its second part lies behind the first. -/
theorem LiesAt.right (h : LiesAt data start (a ++ b)) : LiesAt data (start + a.length) b := by
  obtain ⟨before, after, hdata, rfl⟩ := h
  refine ⟨before ++ a, after, ?_, List.length_append⟩
  rw [hdata, List.append_assoc, List.append_assoc]

/-- What lies at a place is the slice from there. -/
theorem LiesAt.slice (h : LiesAt data start a) (stop : ℕ) (hstop : stop = start + a.length) :
    slice data start stop = some a := by
  obtain ⟨before, after, rfl, rfl⟩ := h
  subst hstop
  have hbounds : before.length ≤ before.length + a.length ∧
      before.length + a.length ≤ (before ++ (a ++ after)).length := by
    simp only [List.length_append]
    omega
  rw [PortablePackage.slice, if_pos hbounds, ← List.append_assoc, ← List.length_append,
    List.take_left, List.drop_left]

/-- A length that lies at a place is read there. -/
theorem LiesAt.readU32 {n : ℕ} (h : LiesAt data start (BigEndian.toBytes lengthCount n))
    (hn : n < 256 ^ lengthCount) : readU32 data start = some n := by
  have hlength := BigEndian.length_toBytes lengthCount n
  rw [PortablePackage.readU32, h.slice _ (by rw [hlength]; rfl), Option.map_some,
    BigEndian.ofBytes_toBytes hn]

end LiesAt

/-- An entry is read as it was written. -/
theorem readEntry_bytes {data : List UInt8} {base : ℕ} {f : PackedFile}
    (h : LiesAt data base f.bytes) :
    readEntry data base = some (f.toBinaryData, base + f.bytes.length) := by
  have hpathLength := BigEndian.length_toBytes lengthCount (ofString f.path).length
  have hdataLength := BigEndian.length_toBytes lengthCount f.compressedData.length
  have hfour : lengthCount = LENGTH := rfl
  have hfirst := h.left.readU32 f.path_fits
  have hpath := h.right
  rw [hpathLength] at hpath
  have hfile := hpath.right.left.readU32 f.data_fits
  have hraw := hpath.right.right
  rw [hdataLength] at hraw
  have hmd5 := hraw.right
  simp only [hfour] at hpath hfile hraw hmd5
  have hslicePath := hpath.left.slice _ rfl
  have hsliceRaw := hraw.left.slice _ rfl
  have hsliceMd5 := hmd5.slice _ rfl
  rw [f.md5_length] at hsliceMd5
  simp only [readEntry, hfirst, Option.bind_eq_bind, Option.bind_some, hslicePath]
  simp only [← Nat.add_assoc, hfile, Option.bind_some, hsliceRaw, hsliceMd5]
  rw [fromUtf8Lossy, PathBuf.toStringLossy_ofString, f.length_bytes]
  simp only [← Nat.add_assoc]
  rfl

/-- The loop reads the entries that are there, and stops at the marker behind them. -/
theorem readEntries_bytes {data : List UInt8} (files : List PackedFile) :
    ∀ (base : ℕ) (parsed : List BinaryData),
      LiesAt data base ((files.map PackedFile.bytes).flatten ++ ofString "rustdesk") →
      readEntries data base parsed =
        some (parsed ++ files.map fun f => f.toBinaryData,
          base + (files.map PackedFile.bytes).flatten.length + IDENTIFIER_LENGTH) := by
  have hmarker : (ofString "rustdesk").length = IDENTIFIER_LENGTH := by decide
  induction files with
  | nil =>
    intro base parsed hdata
    have hiden := hdata.right.slice (base + IDENTIFIER_LENGTH) (by rw [hmarker]; rfl)
    simp only [List.map_nil, List.flatten_nil, List.length_nil, Nat.add_zero] at hiden
    rw [readEntries, hiden]
    simp only [fromUtf8Lossy, PathBuf.toStringLossy_ofString, if_true]
    simp
  | cons f files ih =>
    intro base parsed hdata
    rw [List.map_cons, List.flatten_cons, List.append_assoc] at hdata
    have hlong : IDENTIFIER_LENGTH ≤ f.bytes.length := by
      have hlength := f.length_bytes
      have h32 : MD5_LENGTH = 32 := rfl
      have h8 : IDENTIFIER_LENGTH = 8 := rfl
      omega
    have hiden : slice data base (base + IDENTIFIER_LENGTH) =
        some (f.bytes.take IDENTIFIER_LENGTH) := by
      have hsplit := List.take_append_drop IDENTIFIER_LENGTH f.bytes
      have hfirst := hdata.left
      rw [← hsplit] at hfirst
      exact hfirst.left.slice _ (by rw [List.length_take, Nat.min_eq_left hlong])
    have hother : fromUtf8Lossy (f.bytes.take IDENTIFIER_LENGTH) ≠ "rustdesk" := by
      have hnot := f.not_marker []
      rwa [List.append_nil] at hnot
    have hentry := readEntry_bytes hdata.left
    have hrest := ih (base + f.bytes.length) (parsed ++ [f.toBinaryData]) hdata.right
    rw [readEntries, hiden]
    simp only [if_neg hother]
    split
    · rename_i hnone
      cases hentry.symm.trans hnone
    · rename_i d next hsome
      cases hentry.symm.trans hsome
      rw [hrest, List.map_cons, List.map_cons, List.flatten_cons, List.length_append,
        List.append_assoc]
      simp only [Nat.add_assoc, List.singleton_append]

/-- The files are written one after the other. -/
theorem mapM_writeEntry (files : List PackedFile) :
    (files.map PackedFile.toTableEntry).mapM writeEntry = some (files.map PackedFile.bytes) := by
  induction files with
  | nil => rfl
  | cons f files ih =>
    rw [List.map_cons, List.mapM_cons, f.writeEntry_eq, ih]
    rfl

/-- **Round trip.** What is packed is read back, with the path of the executable. -/
theorem read_writePackageMetadata (files : List PackedFile) (exe : String) :
    (∃ data, writePackageMetadata (files.map PackedFile.toTableEntry) exe = some data ∧
      read data = some (files.map fun f => f.toBinaryData, exe)) ∧
    ∀ f ∈ files, ∀ rest,
      fromUtf8Lossy ((f.bytes ++ rest).take IDENTIFIER_LENGTH) ≠ "rustdesk" := by
  refine ⟨⟨ofString "rustdesk" ++ ((files.map PackedFile.bytes).flatten ++
    (ofString "rustdesk" ++ ofString exe)), ?_, ?_⟩, fun f _ rest => f.not_marker rest⟩
  · rw [writePackageMetadata, mapM_writeEntry]
    rfl
  · generalize hdata : ofString "rustdesk" ++ ((files.map PackedFile.bytes).flatten ++
      (ofString "rustdesk" ++ ofString exe)) = data
    have hmarker : (ofString "rustdesk").length = IDENTIFIER_LENGTH := by decide
    have hpos : 0 < IDENTIFIER_LENGTH := by decide
    have hlength : IDENTIFIER_LENGTH < data.length := by
      rw [← hdata]
      simp only [List.length_append, hmarker]
      omega
    have hall : LiesAt data 0 (ofString "rustdesk" ++ ((files.map PackedFile.bytes).flatten ++
        ofString "rustdesk" ++ ofString exe)) :=
      ⟨[], [], by simp [← hdata], rfl⟩
    have hiden := hall.left.slice IDENTIFIER_LENGTH (by rw [hmarker]; rfl)
    have hrest := hall.right
    rw [hmarker, Nat.zero_add] at hrest
    have hentries := readEntries_bytes files IDENTIFIER_LENGTH [] hrest.left
    have hexe := hrest.right.slice data.length (by
      rw [← hdata]
      simp only [List.length_append, hmarker]
      omega)
    rw [List.length_append, hmarker, ← Nat.add_assoc] at hexe
    simp only [read, guard, if_pos hlength, hiden, hentries, hexe, fromUtf8Lossy,
      PathBuf.toStringLossy_ofString, if_true, Option.bind_eq_bind, Option.bind_some,
      List.nil_append, Option.pure_def]

end RdWeb.Host.PortablePackage
