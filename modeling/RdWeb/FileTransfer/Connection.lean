import RdWeb.FileTransfer.Jobs
import RdWeb.Lib.Machine

/-!
# The file-transfer connection of the web client

`FtConnection`, one step for each piece of code that runs without waiting: a handler up
to its first `await`, and what follows when the awaited thing happens. Jobs are objects:
the tables hold references, and a task that waits keeps the object it was started for.
-/

namespace RdWeb.FileTransfer

/-- Where `pumpUploadBlocks` waits. -/
inductive PumpPhase
  /-- For a slice of a file, for the job at a reference. -/
  | reading (job : ℕ) (file : File) (data : List UInt8)
  /-- `nextUploadBlock` returned a block of the job. -/
  | returned (job : ℕ) (data : List UInt8) (finished : Bool)
  /-- For the timer between two blocks. -/
  | sleeping
  deriving DecidableEq

/-- The running pump, for a job id. -/
structure Pump where
  id : ℤ
  phase : PumpPhase
  deriving DecidableEq

/-- Where the message loop is. -/
inductive LoopState
  | notStarted
  | idle
  | awaitingPump
  | decompressing (job : ℕ) (id fileNum : ℤ) (data : List UInt8)
  | writing (job : ℕ) (id fileNum : ℤ) (bytes : List UInt8) (storage : WriteJob.Storage)
  | finalizing (job : ℕ) (id fileNum : ℤ) (how : WriteJob.Finalization)
  | ended
  deriving DecidableEq

/-- A download that waits for the one before it. -/
structure QueuedDownload where
  id : ℤ
  path : String
  toPath : String
  fileNum : ℤ
  includeHidden : Bool
  isDir : Bool
  deriving DecidableEq

/-- A `resumeRemoteDownload` that waits, for its picker if it needs one. -/
structure Resuming where
  id : ℤ
  job : ℕ
  picking : Bool
  deriving DecidableEq

/-- The answer of a save-file picker. -/
inductive Pick
  | cancelled
  | unsupported
  | target
  deriving DecidableEq

/-- The connection of a file transfer, with its jobs, its loop and what was observed of it. -/
structure FtConnection where
  readHeap : ℕ → ReadJob
  writeHeap : ℕ → WriteJob
  nextRead : ℕ
  nextWrite : ℕ
  nextTarget : ℕ
  readJobs : OrderedMap ℤ ℕ
  writeJobs : OrderedMap ℤ ℕ
  pendingUploads : OrderedMap ℤ File
  /-- `_uploadTick` is set while there is a pump. -/
  pump : Option Pump
  downloadQueue : List QueuedDownload
  /-- `_downloadQueueRunning` is set while a download waits for its picker. -/
  starting : Option (QueuedDownload × ℕ)
  resuming : List Resuming
  loop : LoopState
  msgs : List OutMessage
  /-- Whether the interval of the message pump is set. -/
  interval : Bool
  /-- Whether `_ws` is set. -/
  ws : Bool
  wsOpen : Bool
  closing : Bool
  ftSessionEnded : Bool
  /-- Whether the session registry has this connection under its session id. -/
  registered : Bool
  /-- A timer callback that never returns. -/
  hung : Bool
  log : List Observation

namespace FtConnection

/-- A connection as it is constructed. -/
def new (registered : Bool) : FtConnection where
  readHeap _ := default
  writeHeap _ := default
  nextRead := 0
  nextWrite := 0
  nextTarget := 0
  readJobs := .empty
  writeJobs := .empty
  pendingUploads := .empty
  pump := none
  downloadQueue := []
  starting := none
  resuming := []
  loop := .notStarted
  msgs := []
  interval := false
  ws := false
  wsOpen := false
  closing := false
  ftSessionEnded := false
  registered := registered
  hung := false
  log := []

/-! ## Observable effects -/

/-- The log grows at its end. -/
def observe (s : FtConnection) (o : Observation) : FtConnection := { s with log := s.log ++ [o] }

/-- An event goes to the interface. -/
def ev (s : FtConnection) (e : UiEvent) : FtConnection := s.observe (.event e)

/-- A message is queued for the next turn of the interval. -/
def queueMessage (s : FtConnection) (m : OutMessage) : FtConnection :=
  { s with msgs := s.msgs ++ [m] }.observe (.queued m)

/-- A message is sent at once, if there is a socket. -/
def sendMessage (s : FtConnection) (m : OutMessage) : FtConnection :=
  if s.ws then s.observe (.sent m) else s

/-- The interface is told of an error. -/
def pushJobError (s : FtConnection) (id fileNum : ℤ) (err : String) : FtConnection :=
  s.ev (.jobError id fileNum err)

/-- The loop goes on to a state. -/
def setLoop (s : FtConnection) (state : LoopState) : FtConnection := { s with loop := state }

/-- The pump goes on. -/
def setPump (s : FtConnection) (pump : Option Pump) : FtConnection := { s with pump := pump }

/-! ## The job tables -/

/-- Assign to fields of an upload job. -/
def updateRead (s : FtConnection) (ref : ℕ) (f : ReadJob → ReadJob) : FtConnection :=
  { s with readHeap := fun r => if r = ref then f (s.readHeap r) else s.readHeap r }

/-- Assign to fields of a download job. -/
def updateWrite (s : FtConnection) (ref : ℕ) (f : WriteJob → WriteJob) : FtConnection :=
  { s with writeHeap := fun r => if r = ref then f (s.writeHeap r) else s.writeHeap r }

/-- A job and its file leave the tables. -/
def removeJob (s : FtConnection) (id : ℤ) : FtConnection :=
  { s with
    writeJobs := s.writeJobs.delete id
    readJobs := s.readJobs.delete id
    pendingUploads := s.pendingUploads.delete id }

/-- All jobs leave the tables. -/
def clearJobs (s : FtConnection) : FtConnection :=
  { s with readJobs := .empty, writeJobs := .empty, pendingUploads := .empty }

/-- The file that was chosen for an upload is kept until the upload starts. -/
def setPending (s : FtConnection) (id : ℤ) (file : File) : FtConnection :=
  { s with pendingUploads := s.pendingUploads.set id file }

/-- `createMultiFileUploadJob`. -/
def createUpload (s : FtConnection) (job : ReadJob) : FtConnection :=
  { s with
    readHeap := fun r => if r = s.nextRead then job else s.readHeap r
    nextRead := s.nextRead + 1
    readJobs := s.readJobs.set job.id s.nextRead
    pendingUploads := match job.uploadFiles with
      | [file] => s.pendingUploads.set job.id file
      | _ => s.pendingUploads }

/-- `createUploadJob`: a plan of one file without a name. -/
def createUploadJob (s : FtConnection) (id : ℤ) (localPath remotePath : String) (fileNum : ℤ)
    (file : File) (includeHidden : Bool) : FtConnection :=
  s.createUpload
    (.new id localPath remotePath fileNum [file] [.ofFile "" file] file.size includeHidden)

/-- `createDownloadJob`. -/
def createDownload (s : FtConnection) (job : WriteJob) : FtConnection :=
  { s with
    writeHeap := fun r => if r = s.nextWrite then job else s.writeHeap r
    nextWrite := s.nextWrite + 1
    writeJobs := s.writeJobs.set job.id s.nextWrite }

/-- Every job ends with the error. -/
def failActiveJobs (s : FtConnection) (err : String) : FtConnection :=
  let s := s.readJobs.values.foldl (fun t r =>
    t.pushJobError (s.readHeap r).id (s.readHeap r).fileNum err) s
  let s := s.writeJobs.values.foldl (fun t r =>
    t.pushJobError (s.writeHeap r).id (s.writeHeap r).fileNum err) s
  s.clearJobs

/-! ## Closing -/

/-- Every job is cancelled, with a message to the host while the socket is open. -/
def cancelAllJobs (s : FtConnection) : FtConnection :=
  let ids := s.readJobs.keys ++ s.writeJobs.keys.filter fun id => !s.readJobs.has id
  let s := if s.ws && s.wsOpen then ids.foldl (fun t id => t.sendMessage (.cancel id)) s else s
  s.clearJobs

/-- What every connection does to close. -/
def baseClose (s : FtConnection) : FtConnection :=
  { s with msgs := [], interval := false, wsOpen := false }

/-- Closing, once. -/
def close (s : FtConnection) : FtConnection :=
  if s.closing then s else { s with closing := true }.cancelAllJobs.baseClose

/-- The connection leaves the registry. -/
def unregister (s : FtConnection) : FtConnection := { s with registered := false }

/-- `endFileTransferSession` for the session id of this connection. -/
def endFileTransferSession (s : FtConnection) (title text : String) : FtConnection :=
  if s.registered && !s.ftSessionEnded then
    ({ s with ftSessionEnded := true }.failActiveJobs "Connection lost").close.unregister.ev
      (.msgbox "ft-session-ended" title text)
  else s

/-- The `catch` of the message loop and what follows it. -/
def failLoop (s : FtConnection) (text : String) : FtConnection :=
  if !s.closing && !s.ftSessionEnded then
    ((s.setLoop .ended).failActiveJobs "Connection lost").endFileTransferSession
      "Connection Error" text
  else s.setLoop .ended

/-! ## Uploads -/

/-- The digest of the current file is queued, if there is such a file. -/
def queueDigestForCurrentFile (s : FtConnection) (ref : ℕ) : FtConnection :=
  match (s.readHeap ref).digest? with
  | some m => s.queueMessage m
  | none => s

/-- The next file of an upload, or its end. -/
def advanceUploadAfterFile (s : FtConnection) (id : ℤ) (ref : ℕ) (finishedFileNum : ℤ) :
    FtConnection :=
  let s := s.updateRead ref (·.addFinished finishedFileNum)
  if (s.readHeap ref).hasMore finishedFileNum then
    (s.updateRead ref (·.turnTo (finishedFileNum + 1))).queueDigestForCurrentFile ref
  else (s.removeJob id).ev (.jobDone id finishedFileNum)

/-- The pump returns. -/
def endPump (s : FtConnection) : FtConnection :=
  if s.loop = .awaitingPump then (s.setPump none).setLoop .idle else s.setPump none

/-- One turn of the loop of the pump, up to its first `await`. -/
def pumpTurn (s : FtConnection) (id : ℤ) : FtConnection :=
  match s.readJobs.get? id with
  | none => s.endPump
  | some ref =>
    let job := s.readHeap ref
    if job.active then
      match job.currentFile with
      | none => s.endPump
      | some file =>
        if file.size ≤ job.offset then s.setPump (some ⟨id, .returned ref [] true⟩)
        else s.setPump (some ⟨id, .reading ref file (job.nextSlice file)⟩)
    else s.endPump

/-- `pumpUploadBlocks`: at most one pump runs. -/
def pumpUploadBlocks (s : FtConnection) (id : ℤ) : FtConnection :=
  if s.pump.isSome then s else s.pumpTurn id

/-- A block of an upload is queued, unless it is empty. -/
def queueBlock (s : FtConnection) (id : ℤ) (ref : ℕ) (data : List UInt8) : FtConnection :=
  if data ≠ [] then
    s.queueMessage (.block id (s.readHeap ref).fileNum data false (s.readHeap ref).blkId)
  else s

/-- The last file of an upload is finished. -/
def finishUpload (s : FtConnection) (id fileNum : ℤ) : FtConnection :=
  ((s.queueMessage (.done id fileNum)).removeJob id).ev (.jobDone id fileNum)

/-- The pump goes on with the block of the job that `nextUploadBlock` returned. -/
def pumpBlock (s : FtConnection) (id : ℤ) (ref : ℕ) (data : List UInt8) (finished : Bool) :
    FtConnection :=
  let s := s.queueBlock id ref data
  let job := s.readHeap ref
  if finished then
    if job.hasMore job.fileNum then (s.advanceUploadAfterFile id ref job.fileNum).endPump
    else (s.finishUpload id job.fileNum).endPump
  else s.setPump (some ⟨id, .sleeping⟩)

/-! ## Messages of the host -/

/-- The host is told how to go on, and the upload set to it. -/
def sendConfirm (s : FtConnection) (id fileNum : ℤ) (skip : Bool) (offsetBlk : ℕ) :
    FtConnection :=
  let s := s.sendMessage (.sendConfirm id fileNum skip offsetBlk)
  match s.readJobs.get? id with
  | some ref => if skip then s else s.updateRead ref .activate
  | none => s

/-- A digest asks the interface, or is answered at once. -/
def handleDigest (s : FtConnection) (id fileNum : ℤ) (isUpload isIdentical : Bool) :
    FtConnection :=
  let paths : Option (String × String) :=
    ((s.writeJobs.get? id).map fun ref =>
      ((s.writeHeap ref).remotePath, (s.writeHeap ref).localPath)).or
    ((s.readJobs.get? id).map fun ref =>
      ((s.readHeap ref).remotePath, (s.readHeap ref).localPath))
  match paths with
  | none => s
  | some (remotePath, localPath) =>
    if isUpload then
      s.ev (.overrideFileConfirm id fileNum
        (if remotePath ≠ "" then remotePath else localPath) isIdentical)
    else s.sendConfirm id fileNum false 0

/-- `appendBlock` once the bytes are decompressed, up to its first `await`. -/
def appendBytes (s : FtConnection) (ref : ℕ) (id fileNum : ℤ) (bytes : List UInt8) :
    FtConnection :=
  match (s.writeHeap ref).storage with
  | .disk target => s.setLoop (.writing ref id fileNum bytes (.disk target))
  | .zip target =>
    (s.updateWrite ref fun job => { job with folderZipStream := true }).setLoop
      (.writing ref id fileNum bytes (.zip target))
  | .perFile =>
    (s.updateWrite ref fun job => (job.keepPerFile fileNum bytes).received fileNum bytes).setLoop
      .idle
  | .chunks =>
    (s.updateWrite ref fun job => (job.keepChunk bytes).received fileNum bytes).setLoop .idle

/-- A block is decompressed or stored. -/
def handleBlock (s : FtConnection) (id fileNum : ℤ) (data : List UInt8) (compressed : Bool) :
    FtConnection :=
  match s.writeJobs.get? id with
  | none => s
  | some ref =>
    if compressed then s.setLoop (.decompressing ref id fileNum data)
    else s.appendBytes ref id fileNum data

/-- The end of a file ends a download. -/
def handleDone (s : FtConnection) (id fileNum : ℤ) : FtConnection :=
  if s.readJobs.has id then s
  else
    match s.writeJobs.get? id with
    | some ref =>
      s.setLoop (.finalizing ref id fileNum (s.writeHeap ref).finalizeDownload)
    | none => s.ev (.jobDone id fileNum)

/-- A listing names the files of a download, and tells the interface. -/
def handleDir (s : FtConnection) (id : ℤ) (path : String) (entries : List FileEntry) :
    FtConnection :=
  let s := match s.writeJobs.get? id with
    | some ref => if entries ≠ [] then s.updateWrite ref (·.setDownloadFiles entries) else s
    | none => s
  s.ev (.fileDir id path entries)

/-- An error ends the job. -/
def handleError (s : FtConnection) (id fileNum : ℤ) (err : String) : FtConnection :=
  (s.removeJob id).pushJobError id fileNum err

/-- `handleFileAction` for a `send_confirm`. -/
def handleSendConfirm (s : FtConnection) (id fileNum : ℤ) (skip : Bool) (offsetBlk : ℕ) :
    FtConnection :=
  match s.readJobs.get? id with
  | none => s
  | some ref =>
    if skip then s.advanceUploadAfterFile id ref fileNum
    else
      let s := s.updateRead ref (·.confirm offsetBlk)
      -- a pump that runs makes the call return at once
      if s.pump.isSome then s else (s.setLoop .awaitingPump).pumpTurn id

/-- A message of the host. -/
def onHostMessage (s : FtConnection) : HostMessage → FtConnection
  | .dir id path entries => s.handleDir id path entries
  | .emptyDirs path dirs => s.ev (.emptyDirs path dirs)
  | .digest id fileNum isUpload isIdentical => s.handleDigest id fileNum isUpload isIdentical
  | .block id fileNum data compressed => s.handleBlock id fileNum data compressed
  | .done id fileNum => s.handleDone id fileNum
  | .error id fileNum err => s.handleError id fileNum err
  | .sendConfirm id fileNum skip offsetBlk => s.handleSendConfirm id fileNum skip offsetBlk
  | .loginError text => s.endFileTransferSession "Login Error" text
  | .other => s

/-! ## Downloads -/

/-- A download is queued. -/
def pushDownload (s : FtConnection) (item : QueuedDownload) : FtConnection :=
  { s with downloadQueue := s.downloadQueue ++ [item] }

/-- The next turn of `processDownloadQueue`, up to its picker. -/
def nextDownload (s : FtConnection) : FtConnection :=
  match s.downloadQueue with
  | [] => { s with starting := none }
  | item :: rest =>
    { s.createDownload (.new item.id item.path item.toPath item.fileNum item.isDir) with
      downloadQueue := rest
      starting := some (item, s.nextWrite) }

/-- The end of `ensureDownloadSaveTarget`, with whether the download goes on. -/
def afterPick (s : FtConnection) (ref : ℕ) : Pick → FtConnection × Bool
  | .cancelled => (s, false)
  | .unsupported => (s, true)
  | .target =>
    ({ s with nextTarget := s.nextTarget + 1 }.updateWrite ref fun job =>
      { job with saveTarget := some s.nextTarget }, true)

/-- The end of `startRemoteDownload`. -/
def startPicked (s : FtConnection) (item : QueuedDownload) (ref : ℕ) (pick : Pick) :
    FtConnection :=
  let (s, goesOn) := s.afterPick ref pick
  if goesOn then s.sendMessage (.send item.id item.path item.fileNum item.includeHidden)
  else (s.removeJob item.id).pushJobError item.id item.fileNum "Download cancelled"

/-- A question is no longer asked. -/
def dropResuming (s : FtConnection) (i : ℕ) : FtConnection :=
  { s with resuming := s.resuming.eraseIdx i }

/-- The end of `resumeRemoteDownload`. -/
def resumePicked (s : FtConnection) (task : Resuming) (pick : Pick) : FtConnection :=
  let (s, goesOn) := if task.picking then s.afterPick task.job pick else (s, true)
  let job := s.writeHeap task.job
  if goesOn then s.sendMessage (.send task.id job.remotePath job.fileNum false)
  else s.pushJobError task.id job.fileNum "Download cancelled"

/-- A write of `appendBlock` succeeded. -/
def blockWritten (s : FtConnection) (ref : ℕ) (fileNum : ℤ) (bytes : List UInt8) :
    WriteJob.Storage → FtConnection
  | .disk target =>
    (s.updateWrite ref fun job =>
      { job with streamingToDisk := true }.received fileNum bytes).observe (.wrote target bytes)
  | _ => s.updateWrite ref (·.received fileNum bytes)

/-- `saveDownload` wrote the bytes kept in memory, to a new target if none was picked before. -/
def saved (s : FtConnection) : WriteJob.Finalization → FtConnection
  | .save _ out (some target) => s.observe (.wrote target out)
  | .save _ out none =>
    { s with nextTarget := s.nextTarget + 1 }.observe (.wrote s.nextTarget out)
  | _ => s

/-- The end of `handleDone` for a download. -/
def finalized (s : FtConnection) (ref : ℕ) (id fileNum : ℤ) (how : WriteJob.Finalization) :
    Option String → FtConnection
  | some err => (s.pushJobError id fileNum err).removeJob id
  | none =>
    let job := s.writeHeap ref
    let lastFileNum := if job.isFolderDownload ∧ job.files ≠ [] then (job.files.length : ℤ) - 1
      else fileNum
    ((s.saved how).removeJob id).ev (.jobDone id lastFileNum)

/-! ## Calls -/

/-- A transfer is asked for, in one of the two directions. -/
def sendFiles (s : FtConnection) (id : ℤ) (path toPath : String) (fileNum : ℤ)
    (includeHidden isRemote isDir : Bool) : FtConnection :=
  if isRemote then
    let s := s.pushDownload ⟨id, path, toPath, fileNum, includeHidden, isDir⟩
    if s.starting.isSome then s else s.nextDownload
  else
    match s.pendingUploads.get? id with
    | none => s.pushJobError id fileNum "No local file selected"
    | some file =>
      let s := s.createUploadJob id path toPath fileNum file includeHidden
      let s := s.queueMessage (.receive id toPath [.ofFile "" file] fileNum file.size)
      s.queueMessage (.digest id fileNum file.size file.modifiedTime)

/-- An upload of one picked file. -/
def sendLocalFiles (s : FtConnection) (id : ℤ) (picked : Option File) (path toPath : String)
    (fileNum : ℤ) (includeHidden isRemote : Bool) : FtConnection :=
  match picked with
  | none => s.pushJobError id fileNum "Local file not found"
  | some file =>
    (s.setPending id file).sendFiles id path toPath fileNum includeHidden isRemote false

/-- An upload of a picked folder. -/
def sendFolderUpload (s : FtConnection) (id : ℤ) (plan : Option FolderUploadPlan)
    (toPath : String) (includeHidden : Bool) : FtConnection :=
  match plan with
  | none => s.pushJobError id 0 "No folder selected"
  | some plan =>
    let entries := plan.relativeNames.zipWith FileEntry.ofFile plan.files
    let ref := s.nextRead
    let s := s.createUpload
      (.new id plan.folderName toPath 0 plan.files entries plan.totalSize includeHidden)
    (s.queueMessage (.receive id toPath entries 0 plan.totalSize)).queueDigestForCurrentFile ref

/-- A job is added, which may be resumed. -/
def addJob (s : FtConnection) (id : ℤ) (path toPath : String) (fileNum : ℤ)
    (includeHidden isRemote : Bool) : FtConnection :=
  if isRemote then s.createDownload (.new id path toPath fileNum false)
  else
    match s.pendingUploads.get? id with
    | some file => s.createUploadJob id path toPath fileNum file includeHidden
    | none => s

/-- A question waits for its answer. -/
def pushResuming (s : FtConnection) (task : Resuming) : FtConnection :=
  { s with resuming := s.resuming ++ [task] }

/-- A job is resumed. -/
def resumeJob (s : FtConnection) (id : ℤ) (isRemote : Bool) : FtConnection :=
  if isRemote then
    match s.writeJobs.get? id with
    | some ref =>
      s.pushResuming ⟨id, ref, (s.writeHeap ref).saveTarget.isNone⟩
    | none => s
  else
    match s.readJobs.get? id with
    | some ref =>
      if (s.readHeap ref).file.isSome then (s.updateRead ref .activate).pumpUploadBlocks id
      else s
    | none => s

/-- The user decides whether to override a file. -/
def confirmOverrideFile (s : FtConnection) (id fileNum : ℤ) (needOverride isUpload : Bool) :
    FtConnection :=
  let s := s.sendConfirm id fileNum (!needOverride) 0
  if isUpload && needOverride then
    match s.readJobs.get? id with
    | some ref => s.updateRead ref .activate
    | none => s
  else s

/-- A job is cancelled, and the host is told. -/
def cancelJob (s : FtConnection) (id : ℤ) : FtConnection :=
  (s.removeJob id).sendMessage (.cancel id)

/-- A request to the host, or nothing but an event for a local path. -/
def remoteOrDone (s : FtConnection) (isRemote : Bool) (m : OutMessage) (id fileNum : ℤ) :
    FtConnection :=
  if isRemote then s.sendMessage m else s.ev (.jobDone id fileNum)

/-- A call of the interface. -/
def onCall (s : FtConnection) : BridgeCall → FtConnection
  | .readRemoteDir path includeHidden => s.queueMessage (.readDir path includeHidden)
  | .sendFiles id path toPath fileNum includeHidden isRemote isDir =>
    s.sendFiles id path toPath fileNum includeHidden isRemote isDir
  | .sendLocalFiles id picked path toPath fileNum includeHidden isRemote =>
    s.sendLocalFiles id picked path toPath fileNum includeHidden isRemote
  | .sendFolderUpload id plan toPath includeHidden =>
    s.sendFolderUpload id plan toPath includeHidden
  | .addJob id path toPath fileNum includeHidden isRemote =>
    s.addJob id path toPath fileNum includeHidden isRemote
  | .resumeJob id isRemote => s.resumeJob id isRemote
  | .confirmOverrideFile id fileNum needOverride isUpload =>
    s.confirmOverrideFile id fileNum needOverride isUpload
  | .cancelJob id => s.cancelJob id
  | .removeFile id path fileNum isRemote =>
    s.remoteOrDone isRemote (.removeFile id path fileNum) id fileNum
  | .createDir id path isRemote => s.remoteOrDone isRemote (.createDir id path) id (-1)
  | .renameFile id path newName isRemote =>
    s.remoteOrDone isRemote (.rename id path newName) id (-1)
  | .readDirToRemoveRecursive id path isRemote showHidden =>
    if isRemote then s.sendMessage (.allFiles id path showHidden) else s
  | .removeAllEmptyDirs id path isRemote =>
    if isRemote then s.sendMessage (.removeDir id path) else s
  | .readEmptyDirs path includeHidden => s.sendMessage (.readEmptyDirs path includeHidden)

end FtConnection

/-- What can happen to a connection. -/
inductive FtEvent
  /-- `prepareConnect` starts the message pump. -/
  | prepare
  /-- The relay is connected and the message loop starts. -/
  | connected
  /-- The loop takes a message of the host. -/
  | host (m : HostMessage)
  /-- The socket is gone and has no more messages. -/
  | disconnected (text : String)
  /-- The interval of the message pump. -/
  | flush
  /-- A slice was read, or not, with the error. -/
  | sliceRead (failure : Option String)
  | pumpContinues
  | timer
  | decompressed
  /-- The bytes of a block were written, or not, with the error. -/
  | written (failure : Option String)
  | finalized (failure : Option String)
  /-- The picker of the download that is started closes. -/
  | startPicked (pick : Pick)
  | resumePicked (i : ℕ) (pick : Pick)
  | call (c : BridgeCall)
  | removeSession
  | endSession (title text : String)

namespace FtConnection

/-- The interval hands over all queued messages. Without a socket its loop never ends, since
nothing is taken off the queue. -/
def flush (s : FtConnection) : FtConnection :=
  if s.msgs = [] then s
  else if s.ws then { s with msgs := [], log := s.log ++ s.msgs.map .sent }
  else { s with hung := true }

/-- The pump got its slice, or the read failed. -/
def sliceRead (s : FtConnection) (id : ℤ) (ref : ℕ) (file : File) (data : List UInt8) :
    Option String → FtConnection
  | none =>
    let s := s.updateRead ref (·.afterRead data)
    s.setPump (some ⟨id, .returned ref data (file.size ≤ (s.readHeap ref).offset)⟩)
  | some text =>
    if s.loop = .awaitingPump then (s.setPump none).failLoop text else s.setPump none

/-- The interval of the queue starts. -/
def startMessagePump (s : FtConnection) : FtConnection := { s with interval := true }

/-- The socket opens, and the loop starts. -/
def connectRelay (s : FtConnection) : FtConnection :=
  { s with ws := true, wsOpen := true, loop := .idle }

/-- The socket closes. -/
def loseSocket (s : FtConnection) : FtConnection := { s with wsOpen := false }

/-- One event. `decompress` is the decompressor of another package. -/
def step (decompress : List UInt8 → Option (List UInt8)) (s : FtConnection) (e : FtEvent) :
    Option FtConnection :=
  if s.hung then none
  else
    match e with
    | .prepare => some s.startMessagePump
    | .connected => if s.loop = .notStarted then some s.connectRelay else none
    | .host m => if s.loop = .idle then some ((s.observe (.host m)).onHostMessage m) else none
    | .disconnected text => if s.loop = .idle then some (s.loseSocket.failLoop text) else none
    | .flush => if s.interval then some s.flush else none
    | .sliceRead failure =>
      match s.pump with
      | some ⟨id, .reading ref file data⟩ => some (s.sliceRead id ref file data failure)
      | _ => none
    | .pumpContinues =>
      match s.pump with
      | some ⟨id, .returned ref data finished⟩ => some (s.pumpBlock id ref data finished)
      | _ => none
    | .timer =>
      match s.pump with
      | some ⟨id, .sleeping⟩ => some (s.pumpTurn id)
      | _ => none
    | .decompressed =>
      match s.loop with
      | .decompressing ref id fileNum data =>
        match decompress data with
        | some bytes => some ((s.setLoop .idle).appendBytes ref id fileNum bytes)
        | none => some ((s.setLoop .idle).pushJobError id fileNum "Error: decompress failed")
      | _ => none
    | .written failure =>
      match s.loop with
      | .writing ref id fileNum bytes storage =>
        match failure with
        | none => some ((s.setLoop .idle).blockWritten ref fileNum bytes storage)
        | some err => some ((s.setLoop .idle).pushJobError id fileNum err)
      | _ => none
    | .finalized failure =>
      match s.loop with
      | .finalizing ref id fileNum how =>
        some ((s.setLoop .idle).finalized ref id fileNum how failure)
      | _ => none
    | .startPicked pick =>
      match s.starting with
      | some (item, ref) => some (s.startPicked item ref pick).nextDownload
      | none => none
    | .resumePicked i pick =>
      match s.resuming[i]? with
      | some task => some ((s.dropResuming i).resumePicked task pick)
      | none => none
    | .call c => some ((s.observe (.call c)).onCall c)
    | .removeSession => some s.close.unregister
    | .endSession title text => some (s.endFileTransferSession title text)

/-- What an event did, with what made it possible. -/
inductive Performed (decompress : List UInt8 → Option (List UInt8)) (s : FtConnection) :
    FtEvent → FtConnection → Prop
  | prepare : Performed decompress s .prepare s.startMessagePump
  | connected (hloop : s.loop = .notStarted) : Performed decompress s .connected s.connectRelay
  | host (m : HostMessage) (hloop : s.loop = .idle) :
      Performed decompress s (.host m) ((s.observe (.host m)).onHostMessage m)
  | disconnected (text : String) (hloop : s.loop = .idle) :
      Performed decompress s (.disconnected text) (s.loseSocket.failLoop text)
  | flush (hinterval : s.interval = true) : Performed decompress s .flush s.flush
  | sliceRead {id : ℤ} {ref : ℕ} {file : File} {data : List UInt8} (failure : Option String)
      (hpump : s.pump = some ⟨id, .reading ref file data⟩) :
      Performed decompress s (.sliceRead failure) (s.sliceRead id ref file data failure)
  | pumpContinues {id : ℤ} {ref : ℕ} {data : List UInt8} {finished : Bool}
      (hpump : s.pump = some ⟨id, .returned ref data finished⟩) :
      Performed decompress s .pumpContinues (s.pumpBlock id ref data finished)
  | timer {id : ℤ} (hpump : s.pump = some ⟨id, .sleeping⟩) :
      Performed decompress s .timer (s.pumpTurn id)
  | decompressed {ref : ℕ} {id fileNum : ℤ} {data bytes : List UInt8}
      (hloop : s.loop = .decompressing ref id fileNum data) (hbytes : decompress data = some bytes) :
      Performed decompress s .decompressed ((s.setLoop .idle).appendBytes ref id fileNum bytes)
  | undecodable {ref : ℕ} {id fileNum : ℤ} {data : List UInt8}
      (hloop : s.loop = .decompressing ref id fileNum data) (hbytes : decompress data = none) :
      Performed decompress s .decompressed
        ((s.setLoop .idle).pushJobError id fileNum "Error: decompress failed")
  | written {ref : ℕ} {id fileNum : ℤ} {bytes : List UInt8} {storage : WriteJob.Storage}
      (hloop : s.loop = .writing ref id fileNum bytes storage) :
      Performed decompress s (.written none) ((s.setLoop .idle).blockWritten ref fileNum bytes storage)
  | notWritten {ref : ℕ} {id fileNum : ℤ} {bytes : List UInt8} {storage : WriteJob.Storage}
      (err : String) (hloop : s.loop = .writing ref id fileNum bytes storage) :
      Performed decompress s (.written (some err)) ((s.setLoop .idle).pushJobError id fileNum err)
  | finalized {ref : ℕ} {id fileNum : ℤ} {how : WriteJob.Finalization} (failure : Option String)
      (hloop : s.loop = .finalizing ref id fileNum how) :
      Performed decompress s (.finalized failure)
        ((s.setLoop .idle).finalized ref id fileNum how failure)
  | startPicked {item : QueuedDownload} {ref : ℕ} (pick : Pick)
      (hstarting : s.starting = some (item, ref)) :
      Performed decompress s (.startPicked pick) (s.startPicked item ref pick).nextDownload
  | resumePicked {task : Resuming} (i : ℕ) (pick : Pick) (htask : s.resuming[i]? = some task) :
      Performed decompress s (.resumePicked i pick) ((s.dropResuming i).resumePicked task pick)
  | call (c : BridgeCall) : Performed decompress s (.call c) ((s.observe (.call c)).onCall c)
  | removeSession : Performed decompress s .removeSession s.close.unregister
  | endSession (title text : String) :
      Performed decompress s (.endSession title text) (s.endFileTransferSession title text)

/-- **Inversion.** A step performs its event. -/
theorem performed_of_step {decompress : List UInt8 → Option (List UInt8)} {s t : FtConnection}
    {e : FtEvent} (hstep : s.step decompress e = some t) : s.Performed decompress e t := by
  unfold step at hstep
  by_cases hhung : s.hung = true
  · simp [hhung] at hstep
  · rw [if_neg hhung] at hstep
    cases e with
    | prepare => exact Option.some.inj hstep ▸ .prepare
    | connected =>
      obtain ⟨hloop, rfl⟩ := by simpa using hstep
      exact .connected hloop
    | host m =>
      obtain ⟨hloop, rfl⟩ := by simpa using hstep
      exact .host m hloop
    | disconnected text =>
      obtain ⟨hloop, rfl⟩ := by simpa using hstep
      exact .disconnected text hloop
    | flush =>
      obtain ⟨hinterval, rfl⟩ := by simpa using hstep
      exact .flush hinterval
    | sliceRead failure =>
      dsimp only at hstep
      split at hstep
      · exact Option.some.inj hstep ▸ .sliceRead failure ‹_›
      · cases hstep
    | pumpContinues =>
      dsimp only at hstep
      split at hstep
      · exact Option.some.inj hstep ▸ .pumpContinues ‹_›
      · cases hstep
    | timer =>
      dsimp only at hstep
      split at hstep
      · exact Option.some.inj hstep ▸ .timer ‹_›
      · cases hstep
    | decompressed =>
      dsimp only at hstep
      split at hstep
      · split at hstep
        · exact Option.some.inj hstep ▸ .decompressed ‹_› ‹_›
        · exact Option.some.inj hstep ▸ .undecodable ‹_› ‹_›
      · cases hstep
    | written failure =>
      dsimp only at hstep
      split at hstep
      · split at hstep
        · exact Option.some.inj hstep ▸ .written ‹_›
        · exact Option.some.inj hstep ▸ .notWritten _ ‹_›
      · cases hstep
    | finalized failure =>
      dsimp only at hstep
      split at hstep
      · exact Option.some.inj hstep ▸ .finalized failure ‹_›
      · cases hstep
    | startPicked pick =>
      dsimp only at hstep
      split at hstep
      · exact Option.some.inj hstep ▸ .startPicked pick ‹_›
      · cases hstep
    | resumePicked i pick =>
      dsimp only at hstep
      split at hstep
      · exact Option.some.inj hstep ▸ .resumePicked i pick ‹_›
      · cases hstep
    | call c => exact Option.some.inj hstep ▸ .call c
    | removeSession => exact Option.some.inj hstep ▸ .removeSession
    | endSession title text => exact Option.some.inj hstep ▸ .endSession title text

end FtConnection

/-- The connection from its construction. -/
def ftMachine (decompress : List UInt8 → Option (List UInt8)) (registered : Bool) :
    Machine FtConnection FtEvent where
  init := .new registered
  step := FtConnection.step decompress

namespace FtConnection

/-- The machine on inputs without compressed blocks. -/
abbrev demoMachine : Machine FtConnection FtEvent := ftMachine (fun _ => none) true

/-- A connection on which an upload was started; its messages are still queued. -/
def demoUpload : List FtEvent :=
  [.prepare, .connected,
    .call (.sendLocalFiles 1 (some ⟨"a.txt", [1, 2, 3], 0⟩) "a.txt" "/tmp/a.txt" 0 false false)]

/-- A connection on which a download into memory was started. -/
def demoDownload : List FtEvent :=
  [.prepare, .connected, .call (.sendFiles 1 "/tmp/a.txt" "a.txt" 0 false true false),
    .startPicked .unsupported]

/-- A connection on which a download streamed to a picked target was started. -/
def demoStreamed : List FtEvent :=
  [.prepare, .connected, .call (.sendFiles 1 "/tmp/a.txt" "a.txt" 0 false true false),
    .startPicked .target]

/-- The connection after the events. -/
def demoRun (events : List FtEvent) : FtConnection :=
  (demoMachine.replay demoMachine.init events).getD demoMachine.init

end FtConnection

end RdWeb.FileTransfer
