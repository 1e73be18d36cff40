import RdWeb.Clipboard.Path
import Mathlib.Data.BitVec

/-!
# Errors, file descriptions and messages of the Unix clipboard

The data shared by the two halves of file copy and paste: the peer that serves
its files (`serv_files.rs`, `local_file.rs`) and the peer that mounts them
(`filetype.rs`, `fuse/cs.rs`). An `i32` or `u32` of a message is a 32-bit vector.
-/

namespace RdWeb.Clipboard

/-- The kinds of `std::io::Error` the code makes or passes on. -/
inductive ErrorKind
  | notFound
  | permissionDenied
  | invalidInput
  | invalidData
  | unexpectedEof
  | timedOut
  | other
  deriving DecidableEq, Repr

/-- An error of the operating system. -/
structure IoError where
  kind : ErrorKind
  message : String
  deriving DecidableEq, Repr

/-- The errors of `CliprdrError` that the modelled functions return. -/
inductive CliprdrError
  | fileError (path : String) (err : IoError)
  | invalidRequest (description : String)
  | conversionFailure
  deriving DecidableEq, Repr

/-- What makes a thread panic. -/
inductive Panic
  | arithmeticOverflow
  | capacityOverflow
  deriving DecidableEq, Repr

/-- The number of a file. -/
abbrev Inode := ℕ

/-- The kinds of files. -/
inductive FileType
  | file
  | directory
  | symlink
  deriving DecidableEq, Repr

/-- A point in time, in nanoseconds since the Unix epoch. -/
abbrev SystemTime := ℤ

/-- One entry of the file list a peer announces. -/
structure FileDescription where
  connId : BitVec 32
  name : PathBuf
  kind : FileType
  atime : SystemTime
  lastModified : SystemTime
  lastMetadataChanged : SystemTime
  creationTime : SystemTime
  size : BitVec 64
  perm : BitVec 16
  deriving DecidableEq

/-- `ClipboardFile::FileContentsRequest`. -/
structure FileContentsRequest where
  streamId : BitVec 32
  listIndex : BitVec 32
  dwFlags : BitVec 32
  nPositionLow : BitVec 32
  nPositionHigh : BitVec 32
  cbRequested : BitVec 32
  haveClipDataId : Bool
  clipDataId : BitVec 32
  deriving DecidableEq

/-- `ClipboardFile::FileContentsResponse`. -/
structure FileContentsResponse where
  msgFlags : BitVec 32
  streamId : BitVec 32
  requestedData : List UInt8
  deriving DecidableEq

end RdWeb.Clipboard
