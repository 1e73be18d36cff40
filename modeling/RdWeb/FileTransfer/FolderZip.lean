import Mathlib.Data.List.Induction
import RdWeb.FileTransfer.Jobs

/-!
# A folder downloaded as a zip

The two ways in which `ft_jobs.ts` saves the files of a folder. With a target picked before
the transfer `FolderZipStreamer` writes an entry while its blocks arrive, and turns to the
next one when the file number changes. Without one the blocks are kept by file number, and
`buildFolderZipFromChunks` builds the zip at the end. The zip library encodes the entries it
is given.
-/

namespace RdWeb.FileTransfer

/-- `name || "download"`. -/
def orDownload (name : String) : String := if name = "" then "download" else name

/-- The relative name of an entry: its separators are slashes, and it starts with none. -/
def entryRel (relName : String) : List Char :=
  (relName.toList.map fun c => if c = '\\' then '/' else c).dropWhile (· = '/')

/-- The path of a file in the archive. -/
def zipEntryPath (rootName relName : String) : String :=
  if entryRel relName = [] then rootName
  else rootName ++ "/" ++ String.ofList (entryRel relName)

/-! ## The streaming zip -/

/-- A zip that is written entry by entry: the finished entries, and the current one with its
file number. -/
structure FolderZipStreamer where
  root : String
  zip : List (String × List UInt8) := []
  current : Option (ℤ × String × List UInt8) := none

namespace FolderZipStreamer

/-- The entry that is being written ends. -/
def finishCurrentEntry (s : FolderZipStreamer) : FolderZipStreamer :=
  match s.current with
  | some (_, entry) => { s with zip := s.zip ++ [entry], current := none }
  | none => s

/-- It throws, which is `none`, where the listing has no name for the file number. -/
def startEntry (s : FolderZipStreamer) (fileNum : ℤ) (files : List FileEntry) :
    Option FolderZipStreamer :=
  match at? files fileNum with
  | some entry =>
    if entry.name = "" then none
    else some { s with current := some (fileNum, zipEntryPath s.root entry.name, []) }
  | none => none

/-- `currentEntry.push`. -/
def push (s : FolderZipStreamer) (bytes : List UInt8) : FolderZipStreamer :=
  { s with current := s.current.map fun (n, path, data) => (n, path, data ++ bytes) }

/-- With whether it did not throw. -/
def appendBlock (s : FolderZipStreamer) (fileNum : ℤ) (bytes : List UInt8)
    (files : List FileEntry) : FolderZipStreamer × Bool :=
  if s.current.map Prod.fst = some fileNum then (s.push bytes, true)
  else
    match s.finishCurrentEntry.startEntry fileNum files with
    | some s' => (s'.push bytes, true)
    | none => (s.finishCurrentEntry, false)

/-- The entries of the finished zip. -/
def finish (s : FolderZipStreamer) : List (String × List UInt8) := s.finishCurrentEntry.zip

end FolderZipStreamer

/-! ## The zip built in memory -/

/-- `zipEntries[key] = value`. Under the key `__proto__` no entry is stored: the value becomes
the prototype of the object. -/
def assignEntry (zipEntries : OrderedMap String (List UInt8)) (key : String)
    (value : List UInt8) : OrderedMap String (List UInt8) :=
  if key = "__proto__" then zipEntries else zipEntries.set key value

/-- The archive that is built at the end, from the chunks of each file. -/
def buildFolderZipFromChunks (rootName : String) (files : List FileEntry)
    (chunksForFileNum : ℕ → List (List UInt8)) : OrderedMap String (List UInt8) :=
  files.zipIdx.foldl (fun zipEntries file =>
    if file.1.name = "" then zipEntries
    else assignEntry zipEntries (zipEntryPath (orDownload rootName) file.1.name)
      (chunksForFileNum file.2).flatten) .empty

/-! ## A job -/

/-- A block of the peer. -/
structure FileTransferBlock where
  fileNum : ℤ
  data : List UInt8
  compressed : Bool

/-- The bytes of a block, where they can be decompressed. -/
def FileTransferBlock.bytes? (decompress : List UInt8 → Option (List UInt8))
    (block : FileTransferBlock) : Option (List UInt8) :=
  if block.compressed then decompress block.data else some block.data

/-- A download with the zip it writes. -/
structure FolderDownload where
  job : WriteJob
  folderZipStream : Option FolderZipStreamer

/-- What a download leaves. -/
inductive Saved
  | zip (entries : List (String × List UInt8))
  | file (bytes : List UInt8)
  | written

namespace FolderDownload

/-- `appendBlock` of the decompressed bytes, with whether it did not throw. -/
def appendBytes (d : FolderDownload) (fileNum : ℤ) (bytes : List UInt8) : FolderDownload × Bool :=
  match d.job.storage with
  | .disk _ =>
    ({ d with job := { d.job with streamingToDisk := true }.received fileNum bytes }, true)
  | .zip _ =>
    let stream := d.folderZipStream.getD { root := orDownload d.job.fileName }
    let job := { d.job with folderZipStream := true }
    match stream.appendBlock fileNum bytes job.files with
    | (stream, true) => (⟨job.received fileNum bytes, some stream⟩, true)
    | (stream, false) => (⟨job, some stream⟩, false)
  | .perFile =>
    ({ d with job := (d.job.keepPerFile fileNum bytes).received fileNum bytes }, true)
  | .chunks => ({ d with job := (d.job.keepChunk bytes).received fileNum bytes }, true)

/-- A block is appended, if it can be read. -/
def appendBlock (decompress : List UInt8 → Option (List UInt8)) (d : FolderDownload)
    (block : FileTransferBlock) : FolderDownload × Bool :=
  match block.bytes? decompress with
  | some bytes => d.appendBytes block.fileNum bytes
  | none => (d, false)

/-- `handleBlock` for each block, and whether none of them threw: an error is reported, and
the job goes on. -/
def receive (decompress : List UInt8 → Option (List UInt8)) (d : FolderDownload)
    (blocks : List FileTransferBlock) : FolderDownload × Bool :=
  blocks.foldl (fun r block =>
    ((r.1.appendBlock decompress block).1, r.2 && (r.1.appendBlock decompress block).2)) (d, true)

/-- What is saved of a folder. -/
def finalizeDownload (d : FolderDownload) : Saved :=
  match d.job.finalizeDownload with
  | .zip =>
    match d.folderZipStream with
    | some stream => .zip stream.finish
    | none =>
      .zip (buildFolderZipFromChunks d.job.fileName d.job.files
        fun i => d.job.chunksForFile i).entries
  | .close => .written
  | .save _ out _ => .file out

end FolderDownload

/-- A folder to download, with the listing of the peer. -/
structure FolderRequest where
  id : ℤ
  remotePath : String
  localPath : String
  fileNum : ℤ
  files : List FileEntry

namespace FolderRequest

/-- The job after the listing, and after a target was picked or not. -/
def start (request : FolderRequest) (saveTarget : Option ℕ) : FolderDownload where
  job := { (WriteJob.new request.id request.remotePath request.localPath request.fileNum
    true).setDownloadFiles request.files with saveTarget := saveTarget }
  folderZipStream := none

/-- What the download leaves, where nothing was reported as an error. -/
def download (decompress : List UInt8 → Option (List UInt8)) (request : FolderRequest)
    (saveTarget : Option ℕ) (blocks : List FileTransferBlock) : Option Saved :=
  let (d, ok) := (request.start saveTarget).receive decompress blocks
  if ok then some d.finalizeDownload else none

/-- The name of the zip's root. -/
def root (request : FolderRequest) : String := WriteJob.nameOf request.remotePath

end FolderRequest

/-! ## What both ways share -/

variable (decompress : List UInt8 → Option (List UInt8))

namespace FolderDownload

variable {d : FolderDownload}

/-- Receiving nothing changes nothing. -/
@[simp] theorem receive_nil : d.receive decompress [] = (d, true) := rfl

/-- Receiving one block more. -/
theorem receive_append (blocks : List FileTransferBlock) (block : FileTransferBlock) :
    d.receive decompress (blocks ++ [block]) =
      (((d.receive decompress blocks).1.appendBlock decompress block).1,
        (d.receive decompress blocks).2 &&
          ((d.receive decompress blocks).1.appendBlock decompress block).2) := by
  rw [receive, List.foldl_append]
  rfl

end FolderDownload

/-- A download has a name. -/
theorem nameOf_ne_empty (remotePath : String) : WriteJob.nameOf remotePath ≠ "" := by
  unfold WriteJob.nameOf
  dsimp only
  split_ifs with h
  · decide
  · exact h

/-- So the default name is not needed. -/
@[simp] theorem orDownload_nameOf (remotePath : String) :
    orDownload (WriteJob.nameOf remotePath) = WriteJob.nameOf remotePath :=
  if_neg (nameOf_ne_empty remotePath)

/-- The blocks as pairs of a file number and bytes, where all can be decompressed. -/
def partsOf (blocks : List FileTransferBlock) : List (ℤ × List UInt8) :=
  blocks.map fun block => (block.fileNum, (block.bytes? decompress).getD [])

/-- The bytes that were received for a file. -/
def contentsOf (parts : List (ℤ × List UInt8)) (n : ℤ) : List UInt8 :=
  ((parts.filter (·.1 = n)).map Prod.snd).flatten

/-- The contents of a file, with one more part. -/
theorem contentsOf_append (parts : List (ℤ × List UInt8)) (n m : ℤ) (bytes : List UInt8) :
    contentsOf (parts ++ [(m, bytes)]) n =
      if m = n then contentsOf parts n ++ bytes else contentsOf parts n := by
  by_cases h : m = n <;> simp [contentsOf, List.filter_append, h]

end RdWeb.FileTransfer
