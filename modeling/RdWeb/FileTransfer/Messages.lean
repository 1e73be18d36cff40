import Mathlib.Data.Int.Notation
import Mathlib.Data.Nat.Notation

/-!
# What a file-transfer connection exchanges

The messages to and from the host, the calls of the user interface, the events it is
sent, and the history of all of these.
-/

namespace RdWeb.FileTransfer

/-- A `File` of the browser. Its bytes never change. -/
structure File where
  name : String
  bytes : List UInt8
  /-- In milliseconds. -/
  lastModified : ℤ
  deriving DecidableEq

namespace File

/-- The size of a file, in bytes. -/
def size (file : File) : ℕ := file.bytes.length

/-- `readFileChunk`: slices end at the end of the file. -/
def readFileChunk (file : File) (offset size : ℕ) : List UInt8 :=
  (file.bytes.drop offset).take size

/-- The time of a file, in seconds. -/
def modifiedTime (file : File) : ℤ := file.lastModified / 1000

end File

/-- An entry of a listing. -/
structure FileEntry where
  name : String
  size : ℕ
  modifiedTime : ℤ
  entryType : ℕ
  deriving DecidableEq

/-- The entry of a picked file. -/
def FileEntry.ofFile (name : String) (file : File) : FileEntry :=
  ⟨name, file.size, file.modifiedTime, 4⟩

/-- `FolderUploadPlan`: there is a file, and a relative name for each. -/
structure FolderUploadPlan where
  folderName : String
  files : List File
  relativeNames : List String
  totalSize : ℕ
  files_ne_nil : files ≠ []
  names_length : relativeNames.length = files.length

/-- A message to the host. -/
inductive OutMessage
  | receive (id : ℤ) (path : String) (files : List FileEntry) (fileNum : ℤ) (totalSize : ℕ)
  | digest (id fileNum : ℤ) (fileSize : ℕ) (lastModified : ℤ)
  | block (id fileNum : ℤ) (data : List UInt8) (compressed : Bool) (blkId : ℕ)
  | done (id fileNum : ℤ)
  | send (id : ℤ) (path : String) (fileNum : ℤ) (includeHidden : Bool)
  | sendConfirm (id fileNum : ℤ) (skip : Bool) (offsetBlk : ℕ)
  | cancel (id : ℤ)
  | removeFile (id : ℤ) (path : String) (fileNum : ℤ)
  | createDir (id : ℤ) (path : String)
  | rename (id : ℤ) (path newName : String)
  | allFiles (id : ℤ) (path : String) (includeHidden : Bool)
  | removeDir (id : ℤ) (path : String)
  | readDir (path : String) (includeHidden : Bool)
  | readEmptyDirs (path : String) (includeHidden : Bool)
  deriving DecidableEq

/-- The job or request a message names. -/
def OutMessage.id? : OutMessage → Option ℤ
  | .receive id .. | .digest id .. | .block id .. | .done id .. | .send id ..
  | .sendConfirm id .. | .cancel id | .removeFile id .. | .createDir id .. | .rename id ..
  | .allFiles id .. | .removeDir id .. => some id
  | .readDir .. | .readEmptyDirs .. => none

/-- A message of the host. An absent `skip` is `false`, an absent `offset_blk` is 0. -/
inductive HostMessage
  | dir (id : ℤ) (path : String) (entries : List FileEntry)
  | emptyDirs (path : String) (dirs : List (ℤ × String × List FileEntry))
  | digest (id fileNum : ℤ) (isUpload isIdentical : Bool)
  | block (id fileNum : ℤ) (data : List UInt8) (compressed : Bool)
  | done (id fileNum : ℤ)
  | error (id fileNum : ℤ) (err : String)
  | sendConfirm (id fileNum : ℤ) (skip : Bool) (offsetBlk : ℕ)
  | loginError (text : String)
  /-- Any other message: it changes nothing that a job reads. -/
  | other
  deriving DecidableEq

/-- An event for the user interface. -/
inductive UiEvent
  | overrideFileConfirm (id fileNum : ℤ) (readPath : String) (isIdentical : Bool)
  | jobDone (id fileNum : ℤ)
  | jobError (id fileNum : ℤ) (err : String)
  | fileDir (id : ℤ) (path : String) (entries : List FileEntry)
  | emptyDirs (path : String) (dirs : List (ℤ × String × List FileEntry))
  | msgbox (type title text : String)
  deriving DecidableEq

/-- A call of the user interface. A picked file and a folder plan come with the call. -/
inductive BridgeCall
  | readRemoteDir (path : String) (includeHidden : Bool)
  | sendFiles (id : ℤ) (path toPath : String) (fileNum : ℤ) (includeHidden isRemote isDir : Bool)
  | sendLocalFiles (id : ℤ) (picked : Option File) (path toPath : String) (fileNum : ℤ)
      (includeHidden isRemote : Bool)
  | sendFolderUpload (id : ℤ) (plan : Option FolderUploadPlan) (toPath : String)
      (includeHidden : Bool)
  | addJob (id : ℤ) (path toPath : String) (fileNum : ℤ) (includeHidden isRemote : Bool)
  | resumeJob (id : ℤ) (isRemote : Bool)
  | confirmOverrideFile (id fileNum : ℤ) (needOverride isUpload : Bool)
  | cancelJob (id : ℤ)
  | removeFile (id : ℤ) (path : String) (fileNum : ℤ) (isRemote : Bool)
  | createDir (id : ℤ) (path : String) (isRemote : Bool)
  | renameFile (id : ℤ) (path newName : String) (isRemote : Bool)
  | readDirToRemoveRecursive (id : ℤ) (path : String) (isRemote showHidden : Bool)
  | removeAllEmptyDirs (id : ℤ) (path : String) (isRemote : Bool)
  | readEmptyDirs (path : String) (includeHidden : Bool)

/-- The job or request a call names. -/
def BridgeCall.id? : BridgeCall → Option ℤ
  | .sendFiles id .. | .sendLocalFiles id .. | .sendFolderUpload id .. | .addJob id ..
  | .resumeJob id .. | .confirmOverrideFile id .. | .cancelJob id | .removeFile id ..
  | .createDir id .. | .renameFile id .. | .readDirToRemoveRecursive id ..
  | .removeAllEmptyDirs id .. => some id
  | .readRemoteDir .. | .readEmptyDirs .. => none

/-- The calls that start a job. -/
def BridgeCall.starts : BridgeCall → Bool
  | .sendFiles .. | .sendLocalFiles .. | .sendFolderUpload .. | .addJob .. => true
  | _ => false

/-- What can be observed of a connection. -/
inductive Observation
  /-- `queueMessage`. -/
  | queued (m : OutMessage)
  /-- A message was handed to the web socket. -/
  | sent (m : OutMessage)
  | event (e : UiEvent)
  | host (m : HostMessage)
  | call (c : BridgeCall)
  /-- Bytes were written to a save target. -/
  | wrote (target : ℕ) (bytes : List UInt8)

end RdWeb.FileTransfer
