import RdWeb.Clipboard.LocalFile
import RdWeb.Lib.LittleEndian
import RdWeb.Lib.Utf16

/-!
# File descriptors

A file list travels as a count and one record of 592 bytes for each file.
`as_bin` of `local_file.rs` writes a record and `filetype.rs` reads it back; both go
through the fields in the order of the layout.
-/

namespace RdWeb.Clipboard

/-- Has valid file attributes. -/
def FLAGS_FD_ATTRIBUTES : BitVec 32 := 0x04

/-- Has valid file size. -/
def FLAGS_FD_SIZE : BitVec 32 := 0x40

/-- Has valid last write time. -/
def FLAGS_FD_LAST_WRITE : BitVec 32 := 0x20

/-- Show progress. -/
def FLAGS_FD_PROGRESSUI : BitVec 32 := 0x4000

/-- Transferred from Unix, contains the file mode. -/
def FLAGS_FD_UNIX_MODE : BitVec 32 := 0x08

/-- The Unix epoch in units of 100 ns since 1601. -/
def LDAP_EPOCH_DELTA : ℕ := 116444772610000000

namespace LocalFile

/-- The path of the file relative to the root, or the whole path where the root is no
prefix. -/
def relativePath (f : LocalFile) : PathBuf := (f.path.stripPrefix f.relativeRoot).getD f.path

/-- The relative path as characters. -/
def nameChars (f : LocalFile) : List Char := f.relativePath.toStringLossy.toList

/-- The attribute bits of a file. -/
def fileAttributes (f : LocalFile) : BitVec 32 :=
  (if f.readOnly then 0x1 else 0) ||| (if f.hidden then 0x2 else 0) |||
    (if f.system then 0x4 else 0) ||| (if f.isDir then 0x10 else 0) |||
    (if f.archive then 0x20 else 0) ||| (if f.normal then 0x80 else 0)

/-- The nanoseconds since the epoch, none before it, cut to 64 bits. -/
def win32Time (f : LocalFile) : ℕ := f.lastWriteTime.toNat % 2 ^ 64 / 100 + LDAP_EPOCH_DELTA

/-- The flags every record carries. -/
def descriptorFlags : BitVec 32 :=
  FLAGS_FD_SIZE ||| FLAGS_FD_LAST_WRITE ||| FLAGS_FD_ATTRIBUTES ||| FLAGS_FD_PROGRESSUI |||
    FLAGS_FD_UNIX_MODE

/-- `vec![0u8; 520 - name_len]`. A longer name panics: the subtraction is checked, or it
wraps to more than can be allocated. -/
def namePadding (checked : Bool) (nameLen : ℕ) : Except Panic (List UInt8) :=
  if nameLen ≤ 520 then .ok (List.replicate (520 - nameLen) 0)
  else .error (if checked then .arithmeticOverflow else .capacityOverflow)

/-- The layout of a record, with its name field. -/
def record (f : LocalFile) (nameField : List UInt8) : List UInt8 :=
  LittleEndian.toBytes 4 descriptorFlags.toNat ++ (List.replicate 32 0 ++
    (LittleEndian.toBytes 4 f.fileAttributes.toNat ++ (List.replicate 12 0 ++
      (LittleEndian.toBytes 4 f.perm.toNat ++ (LittleEndian.toBytes 8 f.win32Time ++
        (LittleEndian.toBytes 4 (f.size / 2 ^ 32) ++ (LittleEndian.toBytes 4 (f.size % 2 ^ 32) ++
          nameField)))))))

/-- The record of a file, or the panic for a name that is too long. -/
def asBin (checked : Bool) (f : LocalFile) : Except Panic (List UInt8) :=
  let name := Utf16.encodeLE f.nameChars
  (namePadding checked name.length).map fun padding => f.record (name ++ padding)

end LocalFile

/-- The records of a list, one after the other. -/
def recordsOf (checked : Bool) : List LocalFile → Except Panic (List UInt8)
  | [] => .ok []
  | file :: rest =>
    (file.asBin checked).bind fun bin => (recordsOf checked rest).map (bin ++ ·)

/-- `build_file_list_pdu`. -/
def buildFileListPdu (checked : Bool) (fileList : List LocalFile) : Except Panic (List UInt8) :=
  (recordsOf checked fileList).map (LittleEndian.toBytes 4 fileList.length ++ ·)

namespace FileDescription

/-- Read only permission. -/
def PERM_READ : BitVec 16 := 0o444

/-- Read and write permission. -/
def PERM_RW : BitVec 16 := 0o644

/-- Only self can read and readonly. -/
def PERM_SELF_RO : BitVec 16 := 0o400

/-- The permission bits of what is parsed. -/
def PERM_RWX : BitVec 16 := 0o755

/-- The permission of a record: as is from Unix, else from the attributes. -/
def permOf (flags attributes : BitVec 32) (perm : ℕ) : BitVec 16 :=
  if flags &&& FLAGS_FD_UNIX_MODE ≠ 0 then .ofNat 16 perm
  else if attributes = 0x80 then PERM_RWX
  else if attributes &&& 0x01 ≠ 0 then PERM_READ
  else if attributes &&& 0x02 ≠ 0 then PERM_SELF_RO
  else if attributes &&& 0x10 ≠ 0 then PERM_RWX
  else PERM_RW

/-- The modification time of a record. The product can overflow, which a checked build
turns into a panic. -/
def lastModifiedOf (checked : Bool) (flags : BitVec 32) (lastWriteTime : ℕ) :
    Except Panic SystemTime :=
  if flags &&& FLAGS_FD_LAST_WRITE ≠ 0 ∧ LDAP_EPOCH_DELTA ≤ lastWriteTime then
    let nanos := (lastWriteTime - LDAP_EPOCH_DELTA) * 100
    if 2 ^ 64 ≤ nanos ∧ checked then .error .arithmeticOverflow
    else .ok (nanos % 2 ^ 64 : ℕ)
  else .ok 0

/-- The name of a record: Unix separators, and no null characters at the end. -/
def nameOf (wstr : List Char) : List Char :=
  (wstr.map fun c => if c = '\\' then '/' else c).rdropWhile (· = '\x00')

/-- The fields of a record as they are read. -/
structure RawRecord where
  flags : BitVec 32
  attributes : BitVec 32
  perm : ℕ
  lastWriteTime : ℕ
  fileSizeHigh : ℕ
  fileSizeLow : ℕ
  block : List UInt8

/-- The reads of `parse_file_descriptor`, in its order, and the bytes after the record. -/
def readRecord (bytes : List UInt8) : RawRecord × List UInt8 :=
  let (flags, bytes) := LittleEndian.get 4 bytes
  let (attributes, bytes) := LittleEndian.get 4 (bytes.drop 32)
  let (perm, bytes) := LittleEndian.get 4 (bytes.drop 12)
  let (lastWriteTime, bytes) := LittleEndian.get 8 bytes
  let (fileSizeHigh, bytes) := LittleEndian.get 4 bytes
  let (fileSizeLow, bytes) := LittleEndian.get 4 bytes
  (⟨.ofNat 32 flags, .ofNat 32 attributes, perm, lastWriteTime, fileSizeHigh, fileSizeLow,
    bytes.take 520⟩, bytes.drop 520)

/-- `parse_file_descriptor` on the fields of a record. -/
def parseFileDescriptor (checked : Bool) (connId : BitVec 32) (r : RawRecord) :
    Except Panic (Except CliprdrError FileDescription) :=
  match Utf16.decodeLE r.block with
  | none => .ok (.error .conversionFailure)
  | some wstr =>
    if r.flags &&& FLAGS_FD_ATTRIBUTES = 0 then
      .ok (.error (.invalidRequest "file description must have valid attributes"))
    else
      (lastModifiedOf checked r.flags r.lastWriteTime).map fun lastModified => .ok {
        connId := connId
        name := .ofString (.ofList (nameOf wstr))
        kind := if r.attributes &&& 0x10 ≠ 0 then .directory else .file
        atime := lastModified
        lastModified := lastModified
        lastMetadataChanged := lastModified
        creationTime := lastModified
        size := .ofNat 64 (r.fileSizeHigh * 2 ^ 32 + r.fileSizeLow)
        perm := permOf r.flags r.attributes r.perm }

/-- The loop of `parse_file_descriptors`. -/
def parseRecords (checked : Bool) (connId : BitVec 32) :
    ℕ → List UInt8 → Except Panic (Except CliprdrError (List FileDescription))
  | 0, _ => .ok (.ok [])
  | count + 1, data =>
    let (record, data) := readRecord data
    match parseFileDescriptor checked connId record with
    | .error p => .error p
    | .ok (.error e) => .ok (.error e)
    | .ok (.ok desc) =>
      (parseRecords checked connId count data).map fun files => files.map (desc :: ·)

/-- The parser of a list of records, with its error for one that is too short. -/
def parseFileDescriptors (checked : Bool) (pdu : List UInt8) (connId : BitVec 32) :
    Except Panic (Except CliprdrError (List FileDescription)) :=
  if pdu.length < 4 then
    .ok (.error (.invalidRequest "file descriptor request with infficient length"))
  else
    let (count, data) := LittleEndian.get 4 pdu
    if data.length = 0 ∧ count = 0 then .ok (.ok [])
    else if data.length ≠ 592 * count then
      .ok (.error (.invalidRequest "file descriptor request with invalid length"))
    else parseRecords checked connId count data

end FileDescription

end RdWeb.Clipboard
