import RdWeb.FileTransfer.Messages
import RdWeb.Lib.OrderedMap
import Mathlib.Algebra.BigOperators.Group.List.Basic
import Mathlib.Algebra.GroupWithZero.Nat

/-!
# Upload and download jobs

The job records of `ft_jobs.ts` and what its methods do to one record. Speeds and ticks
of the progress display are left out.
-/

namespace RdWeb.FileTransfer

/-- The size of a block, in bytes. -/
def BLOCK_SIZE : ℕ := 128 * 1024

/-- `list[n]` for a number that may be negative or too large. -/
def at? {α : Type} (l : List α) (n : ℤ) : Option α := if 0 ≤ n then l[n.toNat]? else none

/-- There is an element at every place in range. -/
theorem at?_isSome {α : Type} {l : List α} {n : ℤ} (hpos : 0 ≤ n) (hlt : n < l.length) :
    (at? l n).isSome = true := by
  rw [at?, if_pos hpos]
  have hlt' : n.toNat < l.length := by omega
  simp [hlt']

/-- An upload. -/
structure ReadJob where
  id : ℤ
  remotePath : String
  localPath : String
  fileNum : ℤ
  file : Option File
  uploadFiles : List File
  files : List FileEntry
  offset : ℕ
  finishedSize : ℕ
  finishedBase : ℕ
  totalSize : ℕ
  includeHidden : Bool
  blkId : ℕ
  active : Bool
  waitingConfirm : Bool
  deriving DecidableEq

namespace ReadJob

/-- `createMultiFileUploadJob`, without the tables. -/
def new (id : ℤ) (localPath remotePath : String) (fileNum : ℤ) (uploadFiles : List File)
    (entries : List FileEntry) (totalSize : ℕ) (includeHidden : Bool) : ReadJob where
  id := id
  remotePath := remotePath
  localPath := localPath
  fileNum := fileNum
  file := (at? uploadFiles fileNum).or uploadFiles.head?
  uploadFiles := uploadFiles
  files := entries
  offset := 0
  finishedSize := 0
  finishedBase := 0
  totalSize := totalSize
  includeHidden := includeHidden
  blkId := 0
  active := false
  waitingConfirm := false

/-- An upload to stand where none is. -/
instance : Inhabited ReadJob := ⟨.new 0 "" "" 0 [] [] 0 false⟩

/-- The file that is read and announced. -/
def currentFile (job : ReadJob) : Option File := job.file.or (at? job.uploadFiles job.fileNum)

/-- Whether another file follows the file with this number. -/
def hasMore (job : ReadJob) (fileNum : ℤ) : Bool := fileNum + 1 < job.files.length

/-- The bytes the next block of a file is read from. -/
def nextSlice (job : ReadJob) (file : File) : List UInt8 :=
  file.readFileChunk job.offset (min BLOCK_SIZE (file.size - job.offset))

/-- A slice was read. -/
def afterRead (job : ReadJob) (data : List UInt8) : ReadJob :=
  { job with
    offset := job.offset + data.length
    finishedSize := job.finishedBase + (job.offset + data.length)
    blkId := job.blkId + 1 }

/-- A confirmation of the host, from an offset on. -/
def confirm (job : ReadJob) (offsetBlk : ℕ) : ReadJob :=
  let job := if 0 < offsetBlk then
    { job with
      offset := offsetBlk * BLOCK_SIZE
      finishedSize := offsetBlk * BLOCK_SIZE
      blkId := offsetBlk }
  else job
  { job with active := true, waitingConfirm := false }

/-- The upload may go on. -/
def activate (job : ReadJob) : ReadJob := { job with active := true }

/-- The sizes of a finished file are added up. -/
def addFinished (job : ReadJob) (finishedFileNum : ℤ) : ReadJob :=
  match at? job.uploadFiles finishedFileNum with
  | some file => { job with finishedBase := job.finishedBase + file.size }
  | none => job

/-- The job turns to another file and waits for its confirmation. -/
def turnTo (job : ReadJob) (nextFileNum : ℤ) : ReadJob :=
  { job with
    fileNum := nextFileNum
    file := at? job.uploadFiles nextFileNum
    offset := 0
    blkId := 0
    finishedSize := job.finishedBase
    active := false
    waitingConfirm := true }

/-- The digest of the current file. -/
def digest? (job : ReadJob) : Option OutMessage :=
  job.currentFile.map fun file => .digest job.id job.fileNum file.size file.modifiedTime

end ReadJob

/-- A download. -/
structure WriteJob where
  id : ℤ
  remotePath : String
  localPath : String
  fileNum : ℤ
  fileName : String
  chunks : List (List UInt8)
  fileChunks : OrderedMap ℤ (List (List UInt8))
  files : List FileEntry
  isFolderDownload : Bool
  finishedSize : ℕ
  totalSize : ℕ
  waitingConfirm : Bool
  skipConfirm : Bool
  saveTarget : Option ℕ
  streamingToDisk : Bool
  folderZipStream : Bool

namespace WriteJob

/-- The last component of a remote path. -/
def nameOf (remotePath : String) : String :=
  let components := remotePath.toList.splitOnP fun c => c = '/' || c = '\\'
  let name := String.ofList (components.getLast?.getD [])
  if name = "" then "download" else name

/-- `createDownloadJob`, without the table. -/
def new (id : ℤ) (remotePath localPath : String) (fileNum : ℤ) (isFolderDownload : Bool) :
    WriteJob where
  id := id
  remotePath := remotePath
  localPath := localPath
  fileNum := fileNum
  fileName := nameOf remotePath
  chunks := []
  fileChunks := .empty
  files := []
  isFolderDownload := isFolderDownload
  finishedSize := 0
  totalSize := 0
  waitingConfirm := false
  skipConfirm := false
  saveTarget := none
  streamingToDisk := false
  folderZipStream := false

/-- A download to stand where none is. -/
instance : Inhabited WriteJob := ⟨.new 0 "" "" 0 false⟩

/-- The listing names the files and their sizes. -/
def setDownloadFiles (job : WriteJob) (entries : List FileEntry) : WriteJob :=
  { job with files := entries, totalSize := (entries.map FileEntry.size).sum }

/-- A block was stored or written. -/
def received (job : WriteJob) (fileNum : ℤ) (bytes : List UInt8) : WriteJob :=
  { job with fileNum := fileNum, finishedSize := job.finishedSize + bytes.length }

/-- Where `appendBlock` puts the bytes of a block. -/
inductive Storage
  | disk (target : ℕ)
  | zip (target : ℕ)
  | perFile
  | chunks
  deriving DecidableEq

/-- Where the blocks of a download go. -/
def storage (job : WriteJob) : Storage :=
  match job.saveTarget with
  | some target => if job.isFolderDownload then .zip target else .disk target
  | none => if job.isFolderDownload ∨ job.files ≠ [] then .perFile else .chunks

/-- The blocks that came for a file. -/
def chunksForFile (job : WriteJob) (fileNum : ℤ) : List (List UInt8) :=
  (job.fileChunks.get? fileNum).getD []

/-- A block kept in memory under its file. -/
def keepPerFile (job : WriteJob) (fileNum : ℤ) (bytes : List UInt8) : WriteJob :=
  { job with fileChunks := job.fileChunks.set fileNum (job.chunksForFile fileNum ++ [bytes]) }

/-- A block kept in memory on the list of the job. -/
def keepChunk (job : WriteJob) (bytes : List UInt8) : WriteJob :=
  { job with chunks := job.chunks ++ [bytes] }

/-- What `finalizeDownload` does with what was received. -/
inductive Finalization
  /-- The zip of a folder is finished or saved. -/
  | zip
  /-- The target that was streamed to is closed. -/
  | close
  /-- Bytes from memory are saved, to a target picked before or picked now. -/
  | save (name : String) (out : List UInt8) (target : Option ℕ)
  deriving DecidableEq

/-- How a download ends. -/
def finalizeDownload (job : WriteJob) : Finalization :=
  if job.isFolderDownload ∧ job.files ≠ [] then .zip
  else if job.streamingToDisk ∧ job.saveTarget.isSome then .close
  else
    let chunks := if job.fileChunks.entries ≠ [] then job.chunksForFile job.fileNum
      else job.chunks
    .save (if job.fileName = "" then "download" else job.fileName) chunks.flatten job.saveTarget

end WriteJob

end RdWeb.FileTransfer
