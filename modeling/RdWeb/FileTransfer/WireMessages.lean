import RdWeb.Lib.WireMessage

/-!
# The messages of a file transfer on the wire

The file actions and responses with their fields, as they are written and read.
-/

namespace RdWeb.FileTransfer.Wire

open MessageField

/-- The range of a signed number of 32 bits. -/
def Int32 (z : ℤ) : Prop := -2 ^ 31 ≤ z ∧ z < 2 ^ 31
  deriving Decidable

/-- The range of a `uint32`. -/
def UInt32Range (n : ℕ) : Prop := n < 2 ^ 32
  deriving Decidable

/-- No more than `Number.MAX_SAFE_INTEGER`. -/
def SafeInteger (n : ℕ) : Prop := n ≤ 2 ^ 53 - 1
  deriving Decidable

/-- Sizes and times: `longToNumber` gives up on a number that is not safe. -/
def long (rt : WireRuntime) : Scalar 0 ℕ :=
  rt.uint64.via id (fun n => if SafeInteger n then some n else none) SafeInteger
    (by
      intro n hn
      have hfits : n < 2 ^ 64 := by
        unfold SafeInteger at hn
        omega
      exact ⟨(rt.uint64_fits n).mpr hfits, if_pos hn⟩)
    (by
      intro raw n _ h
      split_ifs at h with hsafe
      obtain rfl := Option.some.inj h
      exact hsafe)

/-- What holds of a value holds of each value of the option. -/
theorem forall_mem_some {Value : Type*} {P : Value → Prop} {value : Value} (h : P value) :
    ∀ other ∈ some value, P other := by
  rintro _ ⟨⟩
  exact h

/-- What holds of the items and of one more holds of all. -/
theorem forall_mem_concat {Item : Type*} {P : Item → Prop} {items : List Item} {item : Item}
    (hitems : ∀ other ∈ items, P other) (hitem : P item) : ∀ other ∈ items ++ [item], P other := by
  intro other hother
  rcases List.mem_append.mp hother with hmem | hmem
  · exact hitems other hmem
  · rwa [List.mem_singleton.mp hmem]

/-- An entry of a listing. -/
structure FileEntry where
  entryType : ℤ
  name : String
  isHidden : Bool
  size : ℕ
  modifiedTime : ℕ
  deriving DecidableEq

/-- What the fields of an entry can hold. -/
structure FileEntry.Fits (m : FileEntry) : Prop where
  entryType : Int32 m.entryType
  size : SafeInteger m.size
  modifiedTime : SafeInteger m.modifiedTime

/-- The codec of an entry. -/
def fileEntry (rt : WireRuntime) : MessageType FileEntry where
  base := ⟨0, "", false, 0, 0⟩
  fields := [
    .implicit 1 rt.int32 0 { get := (·.entryType), set := fun m entryType => { m with entryType } },
    .implicit 2 rt.string "" { get := (·.name), set := fun m name => { m with name } },
    .implicit 3 rt.bool false { get := (·.isHidden), set := fun m isHidden => { m with isHidden } },
    .implicit 4 (long rt) 0 { get := (·.size), set := fun m size => { m with size } },
    .implicit 5 (long rt) 0
      { get := (·.modifiedTime), set := fun m modifiedTime => { m with modifiedTime } }]
  Fits := FileEntry.Fits
  numbers_nodup := by simp
  field_bounds := by simp
  base_fits := ⟨by decide, by decide, by decide⟩
  builds m h :=
    .cons (reads_implicit ((rt.int32_fits _).mpr h.entryType) rfl) <|
    .cons (reads_implicit (rt.string_fits _) rfl) <|
    .cons (reads_implicit (rt.bool_fits _) rfl) <|
    .cons (reads_implicit h.size rfl) <|
    .cons (reads_implicit h.modifiedTime rfl) <|
    .nil _
  keeps :=
    keeps_cons (keeps_implicit fun _ _ h hvalue =>
      { h with entryType := (rt.int32_fits _).mp hvalue }) <|
    keeps_cons (keeps_implicit fun _ _ h _ => { h with }) <|
    keeps_cons (keeps_implicit fun _ _ h _ => { h with }) <|
    keeps_cons (keeps_implicit fun _ _ h hvalue => { h with size := hvalue }) <|
    keeps_cons (keeps_implicit fun _ _ h hvalue => { h with modifiedTime := hvalue }) <|
    keeps_nil

/-- A listing. -/
structure FileDirectory where
  id : ℤ
  path : String
  entries : List FileEntry
  deriving DecidableEq

/-- What the fields of a directory can hold. -/
structure FileDirectory.Fits (m : FileDirectory) : Prop where
  id : Int32 m.id
  entries : ∀ entry ∈ m.entries, entry.Fits

/-- The codec of a directory. -/
def fileDirectory (rt : WireRuntime) : MessageType FileDirectory where
  base := ⟨0, "", []⟩
  fields := [
    .implicit 1 rt.int32 0 { get := (·.id), set := fun m id => { m with id } },
    .implicit 2 rt.string "" { get := (·.path), set := fun m path => { m with path } },
    .repeated 3 ((fileEntry rt).scalar rt)
      { get := (·.entries), set := fun m entries => { m with entries } }]
  Fits := FileDirectory.Fits
  numbers_nodup := by simp
  field_bounds := by simp
  base_fits := ⟨by decide, by simp⟩
  builds m h :=
    .cons (reads_implicit ((rt.int32_fits _).mpr h.id) rfl) <|
    .cons (reads_implicit (rt.string_fits _) rfl) <|
    .cons (reads_repeated h.entries rfl) <|
    .nil _
  keeps :=
    keeps_cons (keeps_implicit fun _ _ h hvalue => { h with id := (rt.int32_fits _).mp hvalue }) <|
    keeps_cons (keeps_implicit fun _ _ h _ => { h with }) <|
    keeps_cons (keeps_repeated fun _ _ h hvalue =>
      { h with entries := forall_mem_concat h.entries hvalue }) <|
    keeps_nil

/-- Ask for a listing. -/
structure ReadDir where
  path : String
  includeHidden : Bool
  deriving DecidableEq

/-- The codec of a request for a directory. -/
def readDir (rt : WireRuntime) : MessageType ReadDir where
  base := ⟨"", false⟩
  fields := [
    .implicit 1 rt.string "" { get := (·.path), set := fun m path => { m with path } },
    .implicit 2 rt.bool false
      { get := (·.includeHidden), set := fun m includeHidden => { m with includeHidden } }]
  Fits _ := True
  numbers_nodup := by simp
  field_bounds := by simp
  base_fits := trivial
  builds m _ :=
    .cons (reads_implicit (rt.string_fits _) rfl) <|
    .cons (reads_implicit (rt.bool_fits _) rfl) <|
    .nil _
  keeps :=
    keeps_cons (keeps_implicit fun _ _ _ _ => trivial) <|
    keeps_cons (keeps_implicit fun _ _ _ _ => trivial) <|
    keeps_nil

/-- Ask for the empty directories. -/
structure ReadEmptyDirs where
  path : String
  includeHidden : Bool
  deriving DecidableEq

/-- The codec of a request for the empty directories. -/
def readEmptyDirs (rt : WireRuntime) : MessageType ReadEmptyDirs where
  base := ⟨"", false⟩
  fields := [
    .implicit 1 rt.string "" { get := (·.path), set := fun m path => { m with path } },
    .implicit 2 rt.bool false
      { get := (·.includeHidden), set := fun m includeHidden => { m with includeHidden } }]
  Fits _ := True
  numbers_nodup := by simp
  field_bounds := by simp
  base_fits := trivial
  builds m _ :=
    .cons (reads_implicit (rt.string_fits _) rfl) <|
    .cons (reads_implicit (rt.bool_fits _) rfl) <|
    .nil _
  keeps :=
    keeps_cons (keeps_implicit fun _ _ _ _ => trivial) <|
    keeps_cons (keeps_implicit fun _ _ _ _ => trivial) <|
    keeps_nil

/-- The empty directories, as listings. -/
structure ReadEmptyDirsResponse where
  path : String
  emptyDirs : List FileDirectory
  deriving DecidableEq

/-- What the fields of the answer can hold. -/
structure ReadEmptyDirsResponse.Fits (m : ReadEmptyDirsResponse) : Prop where
  emptyDirs : ∀ entry ∈ m.emptyDirs, entry.Fits

/-- The codec of the answer with the empty directories. -/
def readEmptyDirsResponse (rt : WireRuntime) : MessageType ReadEmptyDirsResponse where
  base := ⟨"", []⟩
  fields := [
    .implicit 1 rt.string "" { get := (·.path), set := fun m path => { m with path } },
    .repeated 2 ((fileDirectory rt).scalar rt)
      { get := (·.emptyDirs), set := fun m emptyDirs => { m with emptyDirs } }]
  Fits := ReadEmptyDirsResponse.Fits
  numbers_nodup := by simp
  field_bounds := by simp
  base_fits := ⟨by simp⟩
  builds m h :=
    .cons (reads_implicit (rt.string_fits _) rfl) <|
    .cons (reads_repeated h.emptyDirs rfl) <|
    .nil _
  keeps :=
    keeps_cons (keeps_implicit fun _ _ h _ => { h with }) <|
    keeps_cons (keeps_repeated fun _ _ h hvalue =>
      { h with emptyDirs := forall_mem_concat h.emptyDirs hvalue }) <|
    keeps_nil

/-- Ask for all files below a directory. -/
structure ReadAllFiles where
  id : ℤ
  path : String
  includeHidden : Bool
  deriving DecidableEq

/-- What the fields of a request for all files can hold. -/
structure ReadAllFiles.Fits (m : ReadAllFiles) : Prop where
  id : Int32 m.id

/-- The codec of a request for all files. -/
def readAllFiles (rt : WireRuntime) : MessageType ReadAllFiles where
  base := ⟨0, "", false⟩
  fields := [
    .implicit 1 rt.int32 0 { get := (·.id), set := fun m id => { m with id } },
    .implicit 2 rt.string "" { get := (·.path), set := fun m path => { m with path } },
    .implicit 3 rt.bool false
      { get := (·.includeHidden), set := fun m includeHidden => { m with includeHidden } }]
  Fits := ReadAllFiles.Fits
  numbers_nodup := by simp
  field_bounds := by simp
  base_fits := ⟨by decide⟩
  builds m h :=
    .cons (reads_implicit ((rt.int32_fits _).mpr h.id) rfl) <|
    .cons (reads_implicit (rt.string_fits _) rfl) <|
    .cons (reads_implicit (rt.bool_fits _) rfl) <|
    .nil _
  keeps :=
    keeps_cons (keeps_implicit fun _ _ h hvalue => { h with id := (rt.int32_fits _).mp hvalue }) <|
    keeps_cons (keeps_implicit fun _ _ h _ => { h with }) <|
    keeps_cons (keeps_implicit fun _ _ h _ => { h with }) <|
    keeps_nil

/-- Rename a file. -/
structure FileRename where
  id : ℤ
  path : String
  newName : String
  deriving DecidableEq

/-- What the fields of a renaming can hold. -/
structure FileRename.Fits (m : FileRename) : Prop where
  id : Int32 m.id

/-- The codec of a renaming. -/
def fileRename (rt : WireRuntime) : MessageType FileRename where
  base := ⟨0, "", ""⟩
  fields := [
    .implicit 1 rt.int32 0 { get := (·.id), set := fun m id => { m with id } },
    .implicit 2 rt.string "" { get := (·.path), set := fun m path => { m with path } },
    .implicit 3 rt.string "" { get := (·.newName), set := fun m newName => { m with newName } }]
  Fits := FileRename.Fits
  numbers_nodup := by simp
  field_bounds := by simp
  base_fits := ⟨by decide⟩
  builds m h :=
    .cons (reads_implicit ((rt.int32_fits _).mpr h.id) rfl) <|
    .cons (reads_implicit (rt.string_fits _) rfl) <|
    .cons (reads_implicit (rt.string_fits _) rfl) <|
    .nil _
  keeps :=
    keeps_cons (keeps_implicit fun _ _ h hvalue => { h with id := (rt.int32_fits _).mp hvalue }) <|
    keeps_cons (keeps_implicit fun _ _ h _ => { h with }) <|
    keeps_cons (keeps_implicit fun _ _ h _ => { h with }) <|
    keeps_nil

/-- Give up a job. -/
structure FileTransferCancel where
  id : ℤ
  deriving DecidableEq

/-- What the field of a cancel can hold. -/
structure FileTransferCancel.Fits (m : FileTransferCancel) : Prop where
  id : Int32 m.id

/-- The codec of a cancel. -/
def fileTransferCancel (rt : WireRuntime) : MessageType FileTransferCancel where
  base := ⟨0⟩
  fields := [
    .implicit 1 rt.int32 0 { get := (·.id), set := fun m id => { m with id } }]
  Fits := FileTransferCancel.Fits
  numbers_nodup := by simp
  field_bounds := by simp
  base_fits := ⟨by decide⟩
  builds m h :=
    .cons (reads_implicit ((rt.int32_fits _).mpr h.id) rfl) <|
    .nil _
  keeps :=
    keeps_cons (keeps_implicit fun _ _ h hvalue => { h with id := (rt.int32_fits _).mp hvalue }) <|
    keeps_nil

/-- What the sender knows of a file. -/
structure FileTransferDigest where
  id : ℤ
  fileNum : ℤ
  lastModified : ℕ
  fileSize : ℕ
  isUpload : Bool
  isIdentical : Bool
  deriving DecidableEq

/-- What the fields of a digest can hold. -/
structure FileTransferDigest.Fits (m : FileTransferDigest) : Prop where
  id : Int32 m.id
  fileNum : Int32 m.fileNum
  lastModified : SafeInteger m.lastModified
  fileSize : SafeInteger m.fileSize

/-- The codec of a digest. -/
def fileTransferDigest (rt : WireRuntime) : MessageType FileTransferDigest where
  base := ⟨0, 0, 0, 0, false, false⟩
  fields := [
    .implicit 1 rt.int32 0 { get := (·.id), set := fun m id => { m with id } },
    .implicit 2 rt.sint32 0 { get := (·.fileNum), set := fun m fileNum => { m with fileNum } },
    .implicit 3 (long rt) 0
      { get := (·.lastModified), set := fun m lastModified => { m with lastModified } },
    .implicit 4 (long rt) 0 { get := (·.fileSize), set := fun m fileSize => { m with fileSize } },
    .implicit 5 rt.bool false { get := (·.isUpload), set := fun m isUpload => { m with isUpload } },
    .implicit 6 rt.bool false
      { get := (·.isIdentical), set := fun m isIdentical => { m with isIdentical } }]
  Fits := FileTransferDigest.Fits
  numbers_nodup := by simp
  field_bounds := by simp
  base_fits := ⟨by decide, by decide, by decide, by decide⟩
  builds m h :=
    .cons (reads_implicit ((rt.int32_fits _).mpr h.id) rfl) <|
    .cons (reads_implicit ((rt.sint32_fits _).mpr h.fileNum) rfl) <|
    .cons (reads_implicit h.lastModified rfl) <|
    .cons (reads_implicit h.fileSize rfl) <|
    .cons (reads_implicit (rt.bool_fits _) rfl) <|
    .cons (reads_implicit (rt.bool_fits _) rfl) <|
    .nil _
  keeps :=
    keeps_cons (keeps_implicit fun _ _ h hvalue => { h with id := (rt.int32_fits _).mp hvalue }) <|
    keeps_cons (keeps_implicit fun _ _ h hvalue =>
      { h with fileNum := (rt.sint32_fits _).mp hvalue }) <|
    keeps_cons (keeps_implicit fun _ _ h hvalue => { h with lastModified := hvalue }) <|
    keeps_cons (keeps_implicit fun _ _ h hvalue => { h with fileSize := hvalue }) <|
    keeps_cons (keeps_implicit fun _ _ h _ => { h with }) <|
    keeps_cons (keeps_implicit fun _ _ h _ => { h with }) <|
    keeps_nil

/-- A block of a file. -/
structure FileTransferBlock where
  id : ℤ
  fileNum : ℤ
  data : List UInt8
  compressed : Bool
  blkId : ℕ
  deriving DecidableEq

/-- What the fields of a block can hold. -/
structure FileTransferBlock.Fits (m : FileTransferBlock) : Prop where
  id : Int32 m.id
  fileNum : Int32 m.fileNum
  blkId : UInt32Range m.blkId

/-- The codec of a block. -/
def fileTransferBlock (rt : WireRuntime) : MessageType FileTransferBlock where
  base := ⟨0, 0, [], false, 0⟩
  fields := [
    .implicit 1 rt.int32 0 { get := (·.id), set := fun m id => { m with id } },
    .implicit 2 rt.sint32 0 { get := (·.fileNum), set := fun m fileNum => { m with fileNum } },
    .implicit 3 rt.bytes [] { get := (·.data), set := fun m data => { m with data } },
    .implicit 4 rt.bool false
      { get := (·.compressed), set := fun m compressed => { m with compressed } },
    .implicit 5 rt.uint32 0 { get := (·.blkId), set := fun m blkId => { m with blkId } }]
  Fits := FileTransferBlock.Fits
  numbers_nodup := by simp
  field_bounds := by simp
  base_fits := ⟨by decide, by decide, by decide⟩
  builds m h :=
    .cons (reads_implicit ((rt.int32_fits _).mpr h.id) rfl) <|
    .cons (reads_implicit ((rt.sint32_fits _).mpr h.fileNum) rfl) <|
    .cons (reads_implicit (rt.bytes_fits _) rfl) <|
    .cons (reads_implicit (rt.bool_fits _) rfl) <|
    .cons (reads_implicit ((rt.uint32_fits _).mpr h.blkId) rfl) <|
    .nil _
  keeps :=
    keeps_cons (keeps_implicit fun _ _ h hvalue => { h with id := (rt.int32_fits _).mp hvalue }) <|
    keeps_cons (keeps_implicit fun _ _ h hvalue =>
      { h with fileNum := (rt.sint32_fits _).mp hvalue }) <|
    keeps_cons (keeps_implicit fun _ _ h _ => { h with }) <|
    keeps_cons (keeps_implicit fun _ _ h _ => { h with }) <|
    keeps_cons (keeps_implicit fun _ _ h hvalue =>
      { h with blkId := (rt.uint32_fits _).mp hvalue }) <|
    keeps_nil

/-- A job or one of its files failed. -/
structure FileTransferError where
  id : ℤ
  error : String
  fileNum : ℤ
  deriving DecidableEq

/-- What the fields of an error can hold. -/
structure FileTransferError.Fits (m : FileTransferError) : Prop where
  id : Int32 m.id
  fileNum : Int32 m.fileNum

/-- The codec of an error. -/
def fileTransferError (rt : WireRuntime) : MessageType FileTransferError where
  base := ⟨0, "", 0⟩
  fields := [
    .implicit 1 rt.int32 0 { get := (·.id), set := fun m id => { m with id } },
    .implicit 2 rt.string "" { get := (·.error), set := fun m error => { m with error } },
    .implicit 3 rt.sint32 0 { get := (·.fileNum), set := fun m fileNum => { m with fileNum } }]
  Fits := FileTransferError.Fits
  numbers_nodup := by simp
  field_bounds := by simp
  base_fits := ⟨by decide, by decide⟩
  builds m h :=
    .cons (reads_implicit ((rt.int32_fits _).mpr h.id) rfl) <|
    .cons (reads_implicit (rt.string_fits _) rfl) <|
    .cons (reads_implicit ((rt.sint32_fits _).mpr h.fileNum) rfl) <|
    .nil _
  keeps :=
    keeps_cons (keeps_implicit fun _ _ h hvalue => { h with id := (rt.int32_fits _).mp hvalue }) <|
    keeps_cons (keeps_implicit fun _ _ h _ => { h with }) <|
    keeps_cons (keeps_implicit fun _ _ h hvalue =>
      { h with fileNum := (rt.sint32_fits _).mp hvalue }) <|
    keeps_nil

/-- Ask for the files below a path. -/
structure FileTransferSendRequest where
  id : ℤ
  path : String
  includeHidden : Bool
  fileNum : ℤ
  deriving DecidableEq

/-- What the fields of a request to send can hold. -/
structure FileTransferSendRequest.Fits (m : FileTransferSendRequest) : Prop where
  id : Int32 m.id
  fileNum : Int32 m.fileNum

/-- The codec of a request to send. -/
def fileTransferSendRequest (rt : WireRuntime) : MessageType FileTransferSendRequest where
  base := ⟨0, "", false, 0⟩
  fields := [
    .implicit 1 rt.int32 0 { get := (·.id), set := fun m id => { m with id } },
    .implicit 2 rt.string "" { get := (·.path), set := fun m path => { m with path } },
    .implicit 3 rt.bool false
      { get := (·.includeHidden), set := fun m includeHidden => { m with includeHidden } },
    .implicit 4 rt.int32 0 { get := (·.fileNum), set := fun m fileNum => { m with fileNum } }]
  Fits := FileTransferSendRequest.Fits
  numbers_nodup := by simp
  field_bounds := by simp
  base_fits := ⟨by decide, by decide⟩
  builds m h :=
    .cons (reads_implicit ((rt.int32_fits _).mpr h.id) rfl) <|
    .cons (reads_implicit (rt.string_fits _) rfl) <|
    .cons (reads_implicit (rt.bool_fits _) rfl) <|
    .cons (reads_implicit ((rt.int32_fits _).mpr h.fileNum) rfl) <|
    .nil _
  keeps :=
    keeps_cons (keeps_implicit fun _ _ h hvalue => { h with id := (rt.int32_fits _).mp hvalue }) <|
    keeps_cons (keeps_implicit fun _ _ h _ => { h with }) <|
    keeps_cons (keeps_implicit fun _ _ h _ => { h with }) <|
    keeps_cons (keeps_implicit fun _ _ h hvalue =>
      { h with fileNum := (rt.int32_fits _).mp hvalue }) <|
    keeps_nil

/-- Whether a file is to be sent, and from which block on. -/
structure FileTransferSendConfirmRequest where
  id : ℤ
  fileNum : ℤ
  skip : Option Bool
  offsetBlk : Option ℕ
  deriving DecidableEq

/-- What the fields of a confirmation can hold. -/
structure FileTransferSendConfirmRequest.Fits (m : FileTransferSendConfirmRequest) : Prop where
  id : Int32 m.id
  fileNum : Int32 m.fileNum
  offsetBlk : ∀ value ∈ m.offsetBlk, UInt32Range value

/-- The codec of a confirmation. -/
def fileTransferSendConfirmRequest (rt : WireRuntime) :
    MessageType FileTransferSendConfirmRequest where
  base := ⟨0, 0, none, none⟩
  fields := [
    .implicit 1 rt.int32 0 { get := (·.id), set := fun m id => { m with id } },
    .implicit 2 rt.sint32 0 { get := (·.fileNum), set := fun m fileNum => { m with fileNum } },
    .explicit 3 rt.bool { get := (·.skip), set := fun m skip => { m with skip } },
    .explicit 4 rt.uint32 { get := (·.offsetBlk), set := fun m offsetBlk => { m with offsetBlk } }]
  Fits := FileTransferSendConfirmRequest.Fits
  numbers_nodup := by simp
  field_bounds := by simp
  base_fits := ⟨by decide, by decide, by simp⟩
  builds m h :=
    .cons (reads_implicit ((rt.int32_fits _).mpr h.id) rfl) <|
    .cons (reads_implicit ((rt.sint32_fits _).mpr h.fileNum) rfl) <|
    .cons (reads_explicit (fun _ _ => rt.bool_fits _) rfl) <|
    .cons (reads_explicit (fun _ hvalue => (rt.uint32_fits _).mpr (h.offsetBlk _ hvalue)) rfl) <|
    .nil _
  keeps :=
    keeps_cons (keeps_implicit fun _ _ h hvalue => { h with id := (rt.int32_fits _).mp hvalue }) <|
    keeps_cons (keeps_implicit fun _ _ h hvalue =>
      { h with fileNum := (rt.sint32_fits _).mp hvalue }) <|
    keeps_cons (keeps_explicit fun _ _ h _ => { h with }) <|
    keeps_cons (keeps_explicit fun _ _ h hvalue =>
      { h with offsetBlk := forall_mem_some ((rt.uint32_fits _).mp hvalue) }) <|
    keeps_nil

/-- A file is complete. -/
structure FileTransferDone where
  id : ℤ
  fileNum : ℤ
  deriving DecidableEq

/-- What the fields of an end can hold. -/
structure FileTransferDone.Fits (m : FileTransferDone) : Prop where
  id : Int32 m.id
  fileNum : Int32 m.fileNum

/-- The codec of an end. -/
def fileTransferDone (rt : WireRuntime) : MessageType FileTransferDone where
  base := ⟨0, 0⟩
  fields := [
    .implicit 1 rt.int32 0 { get := (·.id), set := fun m id => { m with id } },
    .implicit 2 rt.sint32 0 { get := (·.fileNum), set := fun m fileNum => { m with fileNum } }]
  Fits := FileTransferDone.Fits
  numbers_nodup := by simp
  field_bounds := by simp
  base_fits := ⟨by decide, by decide⟩
  builds m h :=
    .cons (reads_implicit ((rt.int32_fits _).mpr h.id) rfl) <|
    .cons (reads_implicit ((rt.sint32_fits _).mpr h.fileNum) rfl) <|
    .nil _
  keeps :=
    keeps_cons (keeps_implicit fun _ _ h hvalue => { h with id := (rt.int32_fits _).mp hvalue }) <|
    keeps_cons (keeps_implicit fun _ _ h hvalue =>
      { h with fileNum := (rt.sint32_fits _).mp hvalue }) <|
    keeps_nil

/-- Announce files. -/
structure FileTransferReceiveRequest where
  id : ℤ
  path : String
  files : List FileEntry
  fileNum : ℤ
  totalSize : ℕ
  deriving DecidableEq

/-- What the fields of a request to receive can hold. -/
structure FileTransferReceiveRequest.Fits (m : FileTransferReceiveRequest) : Prop where
  id : Int32 m.id
  files : ∀ entry ∈ m.files, entry.Fits
  fileNum : Int32 m.fileNum
  totalSize : SafeInteger m.totalSize

/-- The codec of a request to receive. -/
def fileTransferReceiveRequest (rt : WireRuntime) : MessageType FileTransferReceiveRequest where
  base := ⟨0, "", [], 0, 0⟩
  fields := [
    .implicit 1 rt.int32 0 { get := (·.id), set := fun m id => { m with id } },
    .implicit 2 rt.string "" { get := (·.path), set := fun m path => { m with path } },
    .repeated 3 ((fileEntry rt).scalar rt)
      { get := (·.files), set := fun m files => { m with files } },
    .implicit 4 rt.int32 0 { get := (·.fileNum), set := fun m fileNum => { m with fileNum } },
    .implicit 5 (long rt) 0
      { get := (·.totalSize), set := fun m totalSize => { m with totalSize } }]
  Fits := FileTransferReceiveRequest.Fits
  numbers_nodup := by simp
  field_bounds := by simp
  base_fits := ⟨by decide, by simp, by decide, by decide⟩
  builds m h :=
    .cons (reads_implicit ((rt.int32_fits _).mpr h.id) rfl) <|
    .cons (reads_implicit (rt.string_fits _) rfl) <|
    .cons (reads_repeated h.files rfl) <|
    .cons (reads_implicit ((rt.int32_fits _).mpr h.fileNum) rfl) <|
    .cons (reads_implicit h.totalSize rfl) <|
    .nil _
  keeps :=
    keeps_cons (keeps_implicit fun _ _ h hvalue => { h with id := (rt.int32_fits _).mp hvalue }) <|
    keeps_cons (keeps_implicit fun _ _ h _ => { h with }) <|
    keeps_cons (keeps_repeated fun _ _ h hvalue =>
      { h with files := forall_mem_concat h.files hvalue }) <|
    keeps_cons (keeps_implicit fun _ _ h hvalue =>
      { h with fileNum := (rt.int32_fits _).mp hvalue }) <|
    keeps_cons (keeps_implicit fun _ _ h hvalue => { h with totalSize := hvalue }) <|
    keeps_nil

/-- Remove a directory. -/
structure FileRemoveDir where
  id : ℤ
  path : String
  recursive : Bool
  deriving DecidableEq

/-- What the fields of a removal of a directory can hold. -/
structure FileRemoveDir.Fits (m : FileRemoveDir) : Prop where
  id : Int32 m.id

/-- The codec of a removal of a directory. -/
def fileRemoveDir (rt : WireRuntime) : MessageType FileRemoveDir where
  base := ⟨0, "", false⟩
  fields := [
    .implicit 1 rt.int32 0 { get := (·.id), set := fun m id => { m with id } },
    .implicit 2 rt.string "" { get := (·.path), set := fun m path => { m with path } },
    .implicit 3 rt.bool false
      { get := (·.recursive), set := fun m recursive => { m with recursive } }]
  Fits := FileRemoveDir.Fits
  numbers_nodup := by simp
  field_bounds := by simp
  base_fits := ⟨by decide⟩
  builds m h :=
    .cons (reads_implicit ((rt.int32_fits _).mpr h.id) rfl) <|
    .cons (reads_implicit (rt.string_fits _) rfl) <|
    .cons (reads_implicit (rt.bool_fits _) rfl) <|
    .nil _
  keeps :=
    keeps_cons (keeps_implicit fun _ _ h hvalue => { h with id := (rt.int32_fits _).mp hvalue }) <|
    keeps_cons (keeps_implicit fun _ _ h _ => { h with }) <|
    keeps_cons (keeps_implicit fun _ _ h _ => { h with }) <|
    keeps_nil

/-- Remove a file. -/
structure FileRemoveFile where
  id : ℤ
  path : String
  fileNum : ℤ
  deriving DecidableEq

/-- What the fields of a removal of a file can hold. -/
structure FileRemoveFile.Fits (m : FileRemoveFile) : Prop where
  id : Int32 m.id
  fileNum : Int32 m.fileNum

/-- The codec of a removal of a file. -/
def fileRemoveFile (rt : WireRuntime) : MessageType FileRemoveFile where
  base := ⟨0, "", 0⟩
  fields := [
    .implicit 1 rt.int32 0 { get := (·.id), set := fun m id => { m with id } },
    .implicit 2 rt.string "" { get := (·.path), set := fun m path => { m with path } },
    .implicit 3 rt.sint32 0 { get := (·.fileNum), set := fun m fileNum => { m with fileNum } }]
  Fits := FileRemoveFile.Fits
  numbers_nodup := by simp
  field_bounds := by simp
  base_fits := ⟨by decide, by decide⟩
  builds m h :=
    .cons (reads_implicit ((rt.int32_fits _).mpr h.id) rfl) <|
    .cons (reads_implicit (rt.string_fits _) rfl) <|
    .cons (reads_implicit ((rt.sint32_fits _).mpr h.fileNum) rfl) <|
    .nil _
  keeps :=
    keeps_cons (keeps_implicit fun _ _ h hvalue => { h with id := (rt.int32_fits _).mp hvalue }) <|
    keeps_cons (keeps_implicit fun _ _ h _ => { h with }) <|
    keeps_cons (keeps_implicit fun _ _ h hvalue =>
      { h with fileNum := (rt.sint32_fits _).mp hvalue }) <|
    keeps_nil

/-- Create a directory. -/
structure FileDirCreate where
  id : ℤ
  path : String
  deriving DecidableEq

/-- What the fields of a new directory can hold. -/
structure FileDirCreate.Fits (m : FileDirCreate) : Prop where
  id : Int32 m.id

/-- The codec of a new directory. -/
def fileDirCreate (rt : WireRuntime) : MessageType FileDirCreate where
  base := ⟨0, ""⟩
  fields := [
    .implicit 1 rt.int32 0 { get := (·.id), set := fun m id => { m with id } },
    .implicit 2 rt.string "" { get := (·.path), set := fun m path => { m with path } }]
  Fits := FileDirCreate.Fits
  numbers_nodup := by simp
  field_bounds := by simp
  base_fits := ⟨by decide⟩
  builds m h :=
    .cons (reads_implicit ((rt.int32_fits _).mpr h.id) rfl) <|
    .cons (reads_implicit (rt.string_fits _) rfl) <|
    .nil _
  keeps :=
    keeps_cons (keeps_implicit fun _ _ h hvalue => { h with id := (rt.int32_fits _).mp hvalue }) <|
    keeps_cons (keeps_implicit fun _ _ h _ => { h with }) <|
    keeps_nil

/-- What one side asks of the other: one of the attributes is set. -/
structure FileAction where
  readDir : Option ReadDir
  send : Option FileTransferSendRequest
  receive : Option FileTransferReceiveRequest
  create : Option FileDirCreate
  removeDir : Option FileRemoveDir
  removeFile : Option FileRemoveFile
  allFiles : Option ReadAllFiles
  cancel : Option FileTransferCancel
  sendConfirm : Option FileTransferSendConfirmRequest
  rename : Option FileRename
  readEmptyDirs : Option ReadEmptyDirs
  deriving DecidableEq

/-- An action without any of its members. -/
def createBaseFileAction : FileAction :=
  ⟨none, none, none, none, none, none, none, none, none, none, none⟩

/-- What the members of an action can hold. -/
structure FileAction.Fits (m : FileAction) : Prop where
  send : ∀ value ∈ m.send, value.Fits
  receive : ∀ value ∈ m.receive, value.Fits
  create : ∀ value ∈ m.create, value.Fits
  removeDir : ∀ value ∈ m.removeDir, value.Fits
  removeFile : ∀ value ∈ m.removeFile, value.Fits
  allFiles : ∀ value ∈ m.allFiles, value.Fits
  cancel : ∀ value ∈ m.cancel, value.Fits
  sendConfirm : ∀ value ∈ m.sendConfirm, value.Fits
  rename : ∀ value ∈ m.rename, value.Fits

/-- The codec of an action. -/
def fileAction (rt : WireRuntime) : MessageType FileAction where
  base := createBaseFileAction
  fields := [
    .explicit 1 ((readDir rt).scalar rt)
      { get := (·.readDir), set := fun m readDir => { m with readDir } },
    .explicit 2 ((fileTransferSendRequest rt).scalar rt)
      { get := (·.send), set := fun m send => { m with send } },
    .explicit 3 ((fileTransferReceiveRequest rt).scalar rt)
      { get := (·.receive), set := fun m receive => { m with receive } },
    .explicit 4 ((fileDirCreate rt).scalar rt)
      { get := (·.create), set := fun m create => { m with create } },
    .explicit 5 ((fileRemoveDir rt).scalar rt)
      { get := (·.removeDir), set := fun m removeDir => { m with removeDir } },
    .explicit 6 ((fileRemoveFile rt).scalar rt)
      { get := (·.removeFile), set := fun m removeFile => { m with removeFile } },
    .explicit 7 ((readAllFiles rt).scalar rt)
      { get := (·.allFiles), set := fun m allFiles => { m with allFiles } },
    .explicit 8 ((fileTransferCancel rt).scalar rt)
      { get := (·.cancel), set := fun m cancel => { m with cancel } },
    .explicit 9 ((fileTransferSendConfirmRequest rt).scalar rt)
      { get := (·.sendConfirm), set := fun m sendConfirm => { m with sendConfirm } },
    .explicit 10 ((fileRename rt).scalar rt)
      { get := (·.rename), set := fun m rename => { m with rename } },
    .explicit 11 ((readEmptyDirs rt).scalar rt)
      { get := (·.readEmptyDirs), set := fun m readEmptyDirs => { m with readEmptyDirs } }]
  Fits := FileAction.Fits
  numbers_nodup := by simp
  field_bounds := by simp
  base_fits := by constructor <;> simp [createBaseFileAction]
  builds m h :=
    .cons (reads_explicit (fun _ _ => trivial) rfl) <|
    .cons (reads_explicit h.send rfl) <|
    .cons (reads_explicit h.receive rfl) <|
    .cons (reads_explicit h.create rfl) <|
    .cons (reads_explicit h.removeDir rfl) <|
    .cons (reads_explicit h.removeFile rfl) <|
    .cons (reads_explicit h.allFiles rfl) <|
    .cons (reads_explicit h.cancel rfl) <|
    .cons (reads_explicit h.sendConfirm rfl) <|
    .cons (reads_explicit h.rename rfl) <|
    .cons (reads_explicit (fun _ _ => trivial) rfl) <|
    by cases m; exact .nil _
  keeps :=
    keeps_cons (keeps_explicit fun _ _ h _ => { h with }) <|
    keeps_cons (keeps_explicit fun _ _ h hvalue => { h with send := forall_mem_some hvalue }) <|
    keeps_cons (keeps_explicit fun _ _ h hvalue => { h with receive := forall_mem_some hvalue }) <|
    keeps_cons (keeps_explicit fun _ _ h hvalue => { h with create := forall_mem_some hvalue }) <|
    keeps_cons (keeps_explicit fun _ _ h hvalue =>
      { h with removeDir := forall_mem_some hvalue }) <|
    keeps_cons (keeps_explicit fun _ _ h hvalue =>
      { h with removeFile := forall_mem_some hvalue }) <|
    keeps_cons (keeps_explicit fun _ _ h hvalue => { h with allFiles := forall_mem_some hvalue }) <|
    keeps_cons (keeps_explicit fun _ _ h hvalue => { h with cancel := forall_mem_some hvalue }) <|
    keeps_cons (keeps_explicit fun _ _ h hvalue =>
      { h with sendConfirm := forall_mem_some hvalue }) <|
    keeps_cons (keeps_explicit fun _ _ h hvalue => { h with rename := forall_mem_some hvalue }) <|
    keeps_cons (keeps_explicit fun _ _ h _ => { h with }) <|
    keeps_nil

/-- What one side answers: one of the attributes is set. -/
structure FileResponse where
  dir : Option FileDirectory
  block : Option FileTransferBlock
  error : Option FileTransferError
  done : Option FileTransferDone
  digest : Option FileTransferDigest
  emptyDirs : Option ReadEmptyDirsResponse
  deriving DecidableEq

/-- A response without any of its members. -/
def createBaseFileResponse : FileResponse := ⟨none, none, none, none, none, none⟩

/-- What the members of a response can hold. -/
structure FileResponse.Fits (m : FileResponse) : Prop where
  dir : ∀ value ∈ m.dir, value.Fits
  block : ∀ value ∈ m.block, value.Fits
  error : ∀ value ∈ m.error, value.Fits
  done : ∀ value ∈ m.done, value.Fits
  digest : ∀ value ∈ m.digest, value.Fits
  emptyDirs : ∀ value ∈ m.emptyDirs, value.Fits

/-- The codec of a response. -/
def fileResponse (rt : WireRuntime) : MessageType FileResponse where
  base := createBaseFileResponse
  fields := [
    .explicit 1 ((fileDirectory rt).scalar rt)
      { get := (·.dir), set := fun m dir => { m with dir } },
    .explicit 2 ((fileTransferBlock rt).scalar rt)
      { get := (·.block), set := fun m block => { m with block } },
    .explicit 3 ((fileTransferError rt).scalar rt)
      { get := (·.error), set := fun m error => { m with error } },
    .explicit 4 ((fileTransferDone rt).scalar rt)
      { get := (·.done), set := fun m done => { m with done } },
    .explicit 5 ((fileTransferDigest rt).scalar rt)
      { get := (·.digest), set := fun m digest => { m with digest } },
    .explicit 6 ((readEmptyDirsResponse rt).scalar rt)
      { get := (·.emptyDirs), set := fun m emptyDirs => { m with emptyDirs } }]
  Fits := FileResponse.Fits
  numbers_nodup := by simp
  field_bounds := by simp
  base_fits := by constructor <;> simp [createBaseFileResponse]
  builds m h :=
    .cons (reads_explicit h.dir rfl) <|
    .cons (reads_explicit h.block rfl) <|
    .cons (reads_explicit h.error rfl) <|
    .cons (reads_explicit h.done rfl) <|
    .cons (reads_explicit h.digest rfl) <|
    .cons (reads_explicit h.emptyDirs rfl) <|
    .nil _
  keeps :=
    keeps_cons (keeps_explicit fun _ _ h hvalue => { h with dir := forall_mem_some hvalue }) <|
    keeps_cons (keeps_explicit fun _ _ h hvalue => { h with block := forall_mem_some hvalue }) <|
    keeps_cons (keeps_explicit fun _ _ h hvalue => { h with error := forall_mem_some hvalue }) <|
    keeps_cons (keeps_explicit fun _ _ h hvalue => { h with done := forall_mem_some hvalue }) <|
    keeps_cons (keeps_explicit fun _ _ h hvalue => { h with digest := forall_mem_some hvalue }) <|
    keeps_cons (keeps_explicit fun _ _ h hvalue =>
      { h with emptyDirs := forall_mem_some hvalue }) <|
    keeps_nil

end RdWeb.FileTransfer.Wire
