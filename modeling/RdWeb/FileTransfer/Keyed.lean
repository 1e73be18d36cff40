import RdWeb.FileTransfer.Calm

/-!
# Uploads are stored under their own ids

A message names the id in the job object, while a task knows the id it was started
with. The two agree in every reachable state.
-/

namespace RdWeb.FileTransfer

/-- The job object a pump holds while it waits. -/
def PumpPhase.job? : PumpPhase → Option ℕ
  | .reading ref _ _ | .returned ref _ _ => some ref
  | .sleeping => none

namespace FtConnection

variable {s t : FtConnection}

/-- References are allocated, and to objects with the right id. -/
structure Keyed (s : FtConnection) : Prop where
  jobs : ∀ id ref, s.readJobs.get? id = some ref → ref < s.nextRead ∧ (s.readHeap ref).id = id
  pump : ∀ p ref, s.pump = some p → p.phase.job? = some ref →
    ref < s.nextRead ∧ (s.readHeap ref).id = p.id

/-- Calm steps keep the keys. -/
theorem Keyed.calm (h : s.Keyed) (hst : s.Calm t) : t.Keyed where
  jobs id ref hget := by
    rw [hst.nextRead, hst.readHeap]
    exact h.jobs id ref (hst.readJobs id ref hget)
  pump p ref hp href := by
    rw [hst.nextRead, hst.readHeap]
    exact h.pump p ref (hst.pump ▸ hp) href

/-- The job that was changed. -/
@[simp] theorem updateRead_same (ref : ℕ) (f : ReadJob → ReadJob) :
    (s.updateRead ref f).readHeap ref = f (s.readHeap ref) := by
  simp [updateRead]

/-- The other jobs. -/
theorem updateRead_other {ref ref' : ℕ} (f : ReadJob → ReadJob) (h : ref' ≠ ref) :
    (s.updateRead ref f).readHeap ref' = s.readHeap ref' := by
  simp [updateRead, h]

/-- Assignments to the other fields of a job keep its id. -/
theorem updateRead_id {f : ReadJob → ReadJob} (hf : ∀ job, (f job).id = job.id) (ref ref' : ℕ) :
    ((s.updateRead ref f).readHeap ref').id = (s.readHeap ref').id := by
  by_cases h : ref' = ref
  · rw [h, updateRead_same, hf]
  · rw [updateRead_other f h]

/-- A job may change if it keeps its id. -/
theorem Keyed.updateRead (h : s.Keyed) (ref : ℕ) (f : ReadJob → ReadJob)
    (hf : ∀ job, (f job).id = job.id) : (s.updateRead ref f).Keyed where
  jobs id ref' hget := by
    rw [updateRead_id hf]
    exact h.jobs id ref' hget
  pump p ref' hp href := by
    rw [updateRead_id hf]
    exact h.pump p ref' hp href

/-- A new upload has its own key. -/
theorem Keyed.createUpload (h : s.Keyed) (job : ReadJob) : (s.createUpload job).Keyed where
  jobs id ref hget := by
    simp only [FtConnection.createUpload, OrderedMap.get?_set] at hget ⊢
    split_ifs at hget with hid
    · obtain rfl := Option.some.inj hget
      simp [hid]
    · obtain ⟨hlt, hkey⟩ := h.jobs id ref hget
      exact ⟨by omega, by rw [if_neg (by omega)]; exact hkey⟩
  pump p ref hp href := by
    obtain ⟨hlt, hkey⟩ := h.pump p ref hp href
    simp only [FtConnection.createUpload]
    exact ⟨by omega, by rw [if_neg (by omega)]; exact hkey⟩

/-- The pump may change if it holds a job of its id. -/
theorem Keyed.setPump (h : s.Keyed) (pump : Option Pump)
    (hpump : ∀ p ref, pump = some p → p.phase.job? = some ref →
      ref < s.nextRead ∧ (s.readHeap ref).id = p.id) : (s.setPump pump).Keyed :=
  ⟨h.jobs, hpump⟩

/-- The pump may end. -/
theorem Keyed.endPump (h : s.Keyed) : s.endPump.Keyed := by
  have hnone : (s.setPump none).Keyed := h.setPump none fun _ _ hp => by cases hp
  unfold FtConnection.endPump
  split_ifs
  · exact hnone.calm (calm_setLoop _)
  · exact hnone

/-- A finished file keeps the id. -/
theorem addFinished_id (n : ℤ) (job : ReadJob) : (job.addFinished n).id = job.id := by
  unfold ReadJob.addFinished
  split <;> rfl

/-- A confirmation keeps the id. -/
theorem confirm_id (offsetBlk : ℕ) (job : ReadJob) : (job.confirm offsetBlk).id = job.id := by
  unfold ReadJob.confirm
  dsimp only
  split_ifs <;> rfl

/-- A confirmation activates the job. -/
theorem confirm_active (job : ReadJob) (offsetBlk : ℕ) : (job.confirm offsetBlk).active = true :=
  rfl

/-- Advancing an upload keeps the keys. -/
theorem Keyed.advanceUploadAfterFile (h : s.Keyed) (id : ℤ) (ref : ℕ) (n : ℤ) :
    (s.advanceUploadAfterFile id ref n).Keyed := by
  unfold FtConnection.advanceUploadAfterFile
  have hadd := h.updateRead ref (·.addFinished n) (addFinished_id n)
  dsimp only
  split_ifs
  · exact (hadd.updateRead ref (·.turnTo (n + 1)) fun _ => rfl).calm
      (calm_queueDigestForCurrentFile ref)
  · exact (hadd.calm (calm_removeJob id)).calm (calm_ev _)

/-- What a turn of the pump does: it returns, or it waits for the current job of its id. -/
theorem pumpTurn_cases (s : FtConnection) (id : ℤ) :
    s.pumpTurn id = s.endPump ∧ (∀ ref, s.readJobs.get? id = some ref →
        (s.readHeap ref).active = true → (s.readHeap ref).currentFile = none) ∨
      ∃ ref phase, s.readJobs.get? id = some ref ∧ (s.readHeap ref).active = true ∧
        phase.job? = some ref ∧ s.pumpTurn id = s.setPump (some ⟨id, phase⟩) := by
  unfold pumpTurn
  cases hget : s.readJobs.get? id with
  | none => exact .inl ⟨rfl, by simp⟩
  | some ref =>
    cases hactive : (s.readHeap ref).active with
    | false => exact .inl ⟨by simp [hactive], by rintro _ ⟨⟩ h; simp [hactive] at h⟩
    | true =>
      cases hfile : (s.readHeap ref).currentFile with
      | none => exact .inl ⟨by simp [hactive, hfile], by rintro _ ⟨⟩ _; exact hfile⟩
      | some file =>
        simp only [hactive, hfile, if_true]
        split_ifs
        · exact .inr ⟨ref, .returned ref [] true, rfl, hactive, rfl, rfl⟩
        · exact .inr ⟨ref, _, rfl, hactive, rfl, rfl⟩

/-- A turn of the pump keeps the keys. -/
theorem Keyed.pumpTurn (h : s.Keyed) (id : ℤ) : (s.pumpTurn id).Keyed := by
  rcases pumpTurn_cases s id with ⟨heq, -⟩ | ⟨ref, phase, hget, -, hphase, heq⟩
  · rw [heq]
    exact h.endPump
  · rw [heq]
    refine h.setPump _ fun p ref' hp href => ?_
    obtain rfl := Option.some.inj hp
    obtain rfl := Option.some.inj (hphase.symm.trans href)
    exact h.jobs id ref hget

/-- Starting a pump keeps the keys. -/
theorem Keyed.pumpUploadBlocks (h : s.Keyed) (id : ℤ) : (s.pumpUploadBlocks id).Keyed := by
  unfold FtConnection.pumpUploadBlocks
  split_ifs
  · exact h
  · exact h.pumpTurn id

/-- A block of the pump keeps the keys. -/
theorem Keyed.pumpBlock (h : s.Keyed) (id : ℤ) (ref : ℕ) (data : List UInt8) (finished : Bool) :
    (s.pumpBlock id ref data finished).Keyed := by
  have hblock := h.calm (calm_queueBlock id ref data)
  unfold FtConnection.pumpBlock
  dsimp only
  split_ifs
  · exact (hblock.advanceUploadAfterFile id ref _).endPump
  · exact (hblock.calm (calm_finishUpload id _)).endPump
  · exact hblock.setPump _ fun p ref' hp href => by
      obtain rfl := Option.some.inj hp
      cases href

/-- A read of the pump keeps the keys. -/
theorem Keyed.sliceRead (h : s.Keyed) {id : ℤ} {ref : ℕ} {file : File} {data : List UInt8}
    (hpump : s.pump = some ⟨id, .reading ref file data⟩) (failure : Option String) :
    (s.sliceRead id ref file data failure).Keyed := by
  obtain ⟨hlt, hkey⟩ := h.pump _ ref hpump rfl
  cases failure with
  | none =>
    refine (h.updateRead ref (·.afterRead data) fun _ => rfl).setPump _ fun p ref' hp href => ?_
    obtain rfl := Option.some.inj hp
    obtain rfl := Option.some.inj href
    exact ⟨hlt, by rw [updateRead_same]; exact hkey⟩
  | some text =>
    have hstop : (s.setPump none).Keyed := h.setPump none fun _ _ hp => by cases hp
    unfold FtConnection.sliceRead
    dsimp only
    split_ifs
    · exact hstop.calm (calm_failLoop text)
    · exact hstop

/-- Sending a message leaves the pump and the uploads. -/
theorem sendMessage_frame (s : FtConnection) (m : OutMessage) :
    (s.sendMessage m).pump = s.pump ∧ (s.sendMessage m).readJobs = s.readJobs := by
  unfold sendMessage
  split_ifs <;> exact ⟨rfl, rfl⟩

/-- So does a confirmation. -/
theorem sendConfirm_frame (s : FtConnection) (k n : ℤ) (skip : Bool) (offsetBlk : ℕ) :
    (s.sendConfirm k n skip offsetBlk).pump = s.pump ∧
      (s.sendConfirm k n skip offsetBlk).readJobs = s.readJobs := by
  have hsent := sendMessage_frame s (.sendConfirm k n skip offsetBlk)
  unfold FtConnection.sendConfirm
  dsimp only
  split
  · split_ifs <;> exact hsent
  · exact hsent

/-- A confirmation keeps the keys. -/
theorem Keyed.sendConfirm (h : s.Keyed) (id fileNum : ℤ) (skip : Bool) (offsetBlk : ℕ) :
    (s.sendConfirm id fileNum skip offsetBlk).Keyed := by
  have hsent := h.calm (calm_sendMessage (.sendConfirm id fileNum skip offsetBlk))
  unfold FtConnection.sendConfirm
  dsimp only
  split
  · split_ifs
    · exact hsent
    · exact hsent.updateRead _ .activate fun _ => rfl
  · exact hsent

/-- A message of the host keeps the keys. -/
theorem Keyed.onHostMessage (h : s.Keyed) (m : HostMessage) : (s.onHostMessage m).Keyed := by
  cases m with
  | dir id path entries => exact h.calm (calm_handleDir id path entries)
  | emptyDirs path dirs => exact h.calm (calm_ev _)
  | digest id fileNum isUpload isIdentical =>
    simp only [FtConnection.onHostMessage, handleDigest]
    split
    · exact h
    · split_ifs
      · exact h.calm (calm_ev _)
      · exact h.calm (calm_ev _)
      · exact h.sendConfirm id fileNum false 0
  | block id fileNum data compressed => exact h.calm (calm_handleBlock id fileNum data compressed)
  | done id fileNum => exact h.calm (calm_handleDone id fileNum)
  | error id fileNum err => exact h.calm (calm_handleError id fileNum err)
  | sendConfirm id fileNum skip offsetBlk =>
    simp only [FtConnection.onHostMessage, handleSendConfirm]
    split
    · exact h
    · rename_i ref hget
      have hconfirm := h.updateRead ref (·.confirm offsetBlk) (confirm_id offsetBlk)
      split_ifs
      · exact h.advanceUploadAfterFile id ref fileNum
      · exact hconfirm
      · exact (hconfirm.calm (calm_setLoop _)).pumpTurn id
  | loginError text => exact h.calm (calm_endFileTransferSession _ _)
  | other => exact h

/-- A transfer that is asked for keeps the keys. -/
theorem Keyed.sendFiles (h : s.Keyed) (id : ℤ) (path toPath : String) (fileNum : ℤ)
    (includeHidden isRemote isDir : Bool) :
    (s.sendFiles id path toPath fileNum includeHidden isRemote isDir).Keyed := by
  unfold FtConnection.sendFiles
  dsimp only
  split_ifs
  · exact h.calm (calm_pushDownload _)
  · exact (h.calm (calm_pushDownload _)).calm calm_nextDownload
  · split
    · exact h.calm (calm_pushJobError _ _ _)
    · exact ((h.createUpload _).calm (calm_queueMessage _)).calm (calm_queueMessage _)

/-- A call of the interface keeps the keys. -/
theorem Keyed.onCall (h : s.Keyed) (c : BridgeCall) : (s.onCall c).Keyed := by
  cases c with
  | readRemoteDir path includeHidden => exact h.calm (calm_queueMessage _)
  | sendFiles id path toPath fileNum includeHidden isRemote isDir =>
    exact h.sendFiles id path toPath fileNum includeHidden isRemote isDir
  | sendLocalFiles id picked path toPath fileNum includeHidden isRemote =>
    cases picked with
    | none => exact h.calm (calm_pushJobError _ _ _)
    | some file => exact (h.calm (calm_setPending id file)).sendFiles _ _ _ _ _ _ _
  | sendFolderUpload id plan toPath includeHidden =>
    cases plan with
    | none => exact h.calm (calm_pushJobError _ _ _)
    | some plan =>
      exact ((h.createUpload _).calm (calm_queueMessage _)).calm
        (calm_queueDigestForCurrentFile _)
  | addJob id path toPath fileNum includeHidden isRemote =>
    simp only [FtConnection.onCall, addJob]
    split_ifs
    · exact h.calm (calm_createDownload _)
    · split
      · exact h.createUpload _
      · exact h
  | resumeJob id isRemote =>
    simp only [FtConnection.onCall, resumeJob]
    split_ifs
    · split
      · exact h.calm (calm_pushResuming _)
      · exact h
    · split
      · split_ifs
        · exact (h.updateRead _ .activate fun _ => rfl).pumpUploadBlocks id
        · exact h
      · exact h
  | confirmOverrideFile id fileNum needOverride isUpload =>
    have hconfirm := h.sendConfirm id fileNum (!needOverride) 0
    simp only [FtConnection.onCall, confirmOverrideFile]
    split_ifs
    · split
      · exact hconfirm.updateRead _ .activate fun _ => rfl
      · exact hconfirm
    · exact hconfirm
  | cancelJob id => exact h.calm (calm_cancelJob id)
  | removeFile id path fileNum isRemote => exact h.calm (calm_remoteOrDone _ _ _ _)
  | createDir id path isRemote => exact h.calm (calm_remoteOrDone _ _ _ _)
  | renameFile id path newName isRemote => exact h.calm (calm_remoteOrDone _ _ _ _)
  | readDirToRemoveRecursive id path isRemote showHidden => exact h.calm (calm_sendRemote _ _)
  | removeAllEmptyDirs id path isRemote => exact h.calm (calm_sendRemote _ _)
  | readEmptyDirs path includeHidden => exact h.calm (calm_sendMessage _)

/-- An observation keeps the keys. -/
theorem Keyed.observe (h : s.Keyed) (o : Observation) : (s.observe o).Keyed := ⟨h.jobs, h.pump⟩

/-- A new connection has no job. -/
theorem keyed_new (registered : Bool) : (FtConnection.new registered).Keyed :=
  ⟨fun _ _ h => by simp [FtConnection.new] at h, fun _ _ h => by cases h⟩

/-- **One step.** -/
theorem Keyed.step {decompress : List UInt8 → Option (List UInt8)} {e : FtEvent} (h : s.Keyed)
    (hstep : s.step decompress e = some t) : t.Keyed := by
  cases performed_of_step hstep with
  | prepare => exact h.calm calm_startMessagePump
  | connected => exact h.calm calm_connectRelay
  | host m => exact (h.observe _).onHostMessage m
  | disconnected text => exact (h.calm calm_loseSocket).calm (calm_failLoop text)
  | flush => exact h.calm calm_flush
  | sliceRead failure hpump => exact h.sliceRead hpump failure
  | pumpContinues => exact h.pumpBlock _ _ _ _
  | timer => exact h.pumpTurn _
  | decompressed => exact (h.calm (calm_setLoop _)).calm (calm_appendBytes _ _ _ _)
  | undecodable => exact (h.calm (calm_setLoop _)).calm (calm_pushJobError _ _ _)
  | written => exact (h.calm (calm_setLoop _)).calm (calm_blockWritten _ _ _ _)
  | notWritten err => exact (h.calm (calm_setLoop _)).calm (calm_pushJobError _ _ _)
  | finalized failure => exact (h.calm (calm_setLoop _)).calm (calm_finalized _ _ _ _ _)
  | startPicked pick => exact (h.calm (calm_startPicked _ _ pick)).calm calm_nextDownload
  | resumePicked i pick => exact (h.calm (calm_dropResuming i)).calm (calm_resumePicked _ pick)
  | call c => exact (h.observe _).onCall c
  | removeSession => exact (h.calm calm_close).calm calm_unregister
  | endSession title text => exact h.calm (calm_endFileTransferSession title text)

/-- **Every reachable state.** -/
theorem keyed_of_reachable {decompress : List UInt8 → Option (List UInt8)} {registered : Bool}
    (h : (ftMachine decompress registered).Reachable s) : s.Keyed :=
  h.invariant (keyed_new registered) fun _ _ _ hstep hs => hs.step hstep

end FtConnection

end RdWeb.FileTransfer
