import RdWeb.FileTransfer.Connection

/-!
# What leaves the uploads alone

Most of the handlers only report, send or work on downloads. They may drop uploads, but
they create, change and activate none, and they leave the pump alone. The rest goes
through a handful of operations, and those keep every job under its own id.
-/

namespace RdWeb.FileTransfer

/-- Neither a message of the host nor a call. -/
def Observation.Internal : Observation → Prop
  | .host _ | .call _ => False
  | _ => True

namespace FtConnection

variable {s t u : FtConnection}

/-- The uploads are left alone, or dropped. -/
structure Calm (s t : FtConnection) : Prop where
  readHeap : t.readHeap = s.readHeap
  nextRead : t.nextRead = s.nextRead
  pump : t.pump = s.pump
  readJobs : ∀ id ref, t.readJobs.get? id = some ref → s.readJobs.get? id = some ref
  log : ∃ later, t.log = s.log ++ later ∧ ∀ o ∈ later, o.Internal

/-- Doing nothing is calm. -/
theorem Calm.refl (s : FtConnection) : s.Calm s :=
  ⟨rfl, rfl, rfl, fun _ _ h => h, [], by simp, by simp⟩

/-- Two calm steps are calm together. -/
theorem Calm.trans (hst : s.Calm t) (htu : t.Calm u) : s.Calm u where
  readHeap := htu.readHeap.trans hst.readHeap
  nextRead := htu.nextRead.trans hst.nextRead
  pump := htu.pump.trans hst.pump
  readJobs id ref h := hst.readJobs id ref (htu.readJobs id ref h)
  log := by
    obtain ⟨first, hfirst, hinternal⟩ := hst.log
    obtain ⟨second, hsecond, hinternal'⟩ := htu.log
    refine ⟨first ++ second, by rw [hsecond, hfirst, List.append_assoc], ?_⟩
    intro o hmem
    exact (List.mem_append.mp hmem).elim (hinternal o) (hinternal' o)

/-- Fields the uploads do not depend on may change freely. -/
theorem Calm.of_eq (hheap : t.readHeap = s.readHeap) (hnext : t.nextRead = s.nextRead)
    (hpump : t.pump = s.pump) (hjobs : t.readJobs = s.readJobs) (hlog : t.log = s.log) :
    s.Calm t :=
  ⟨hheap, hnext, hpump, fun _ _ h => hjobs ▸ h, [], by simp [hlog], by simp⟩

/-! ## The operations -/

/-- An internal observation is calm. -/
theorem calm_observe {o : Observation} (h : o.Internal) : s.Calm (s.observe o) :=
  ⟨rfl, rfl, rfl, fun _ _ h => h, [o], rfl, by simpa using h⟩

/-- An event for the interface is calm. -/
theorem calm_ev (e : UiEvent) : s.Calm (s.ev e) := calm_observe trivial

/-- An error for the interface is calm. -/
theorem calm_pushJobError (id fileNum : ℤ) (err : String) :
    s.Calm (s.pushJobError id fileNum err) := calm_ev _

/-- Queueing a message is calm. -/
theorem calm_queueMessage (m : OutMessage) : s.Calm (s.queueMessage m) :=
  ⟨rfl, rfl, rfl, fun _ _ h => h, [.queued m], rfl, by simp [Observation.Internal]⟩

/-- Where the loop stands is calm. -/
theorem calm_setLoop (state : LoopState) : s.Calm (s.setLoop state) := .of_eq rfl rfl rfl rfl rfl

/-- Sending a message at once is calm. -/
theorem calm_sendMessage (m : OutMessage) : s.Calm (s.sendMessage m) := by
  unfold sendMessage
  split_ifs
  · exact calm_observe trivial
  · exact Calm.refl s

/-- Removing a job is calm, as it drops uploads only. -/
theorem calm_removeJob (id : ℤ) : s.Calm (s.removeJob id) where
  readHeap := rfl
  nextRead := rfl
  pump := rfl
  readJobs id' ref h := by
    simp only [removeJob, OrderedMap.get?_delete] at h
    split_ifs at h
    exact h
  log := ⟨[], by simp [removeJob], by simp⟩

/-- Dropping all jobs is calm. -/
theorem calm_clearJobs : s.Calm s.clearJobs :=
  ⟨rfl, rfl, rfl, fun _ _ h => by simp [clearJobs] at h, [], by simp [clearJobs], by simp⟩

/-- A download may change. -/
theorem calm_updateWrite (ref : ℕ) (f : WriteJob → WriteJob) : s.Calm (s.updateWrite ref f) :=
  .of_eq rfl rfl rfl rfl rfl

/-- A file may be chosen. -/
theorem calm_setPending (id : ℤ) (file : File) : s.Calm (s.setPending id file) :=
  .of_eq rfl rfl rfl rfl rfl

/-- A download may be queued. -/
theorem calm_pushDownload (item : QueuedDownload) : s.Calm (s.pushDownload item) :=
  .of_eq rfl rfl rfl rfl rfl

/-- A question may be asked. -/
theorem calm_pushResuming (task : Resuming) : s.Calm (s.pushResuming task) :=
  .of_eq rfl rfl rfl rfl rfl

/-- A question may be taken back. -/
theorem calm_dropResuming (i : ℕ) : s.Calm (s.dropResuming i) := .of_eq rfl rfl rfl rfl rfl

/-- A download may begin. -/
theorem calm_createDownload (job : WriteJob) : s.Calm (s.createDownload job) :=
  .of_eq rfl rfl rfl rfl rfl

/-- Doing something calm for each element of a list is calm. -/
theorem calm_foldl {α : Type} {f : FtConnection → α → FtConnection}
    (h : ∀ t a, Calm t (f t a)) (l : List α) (s : FtConnection) : s.Calm (l.foldl f s) := by
  induction l generalizing s with
  | nil => exact Calm.refl s
  | cons a l ih => exact (h s a).trans (ih _)

/-- Failing all jobs is calm. -/
theorem calm_failActiveJobs (err : String) : s.Calm (s.failActiveJobs err) := by
  unfold failActiveJobs
  refine Calm.trans ?_ calm_clearJobs
  refine Calm.trans ?_ (calm_foldl (fun _ _ => calm_pushJobError _ _ _) _ _)
  exact calm_foldl (fun _ _ => calm_pushJobError _ _ _) _ _

/-- Cancelling all jobs is calm. -/
theorem calm_cancelAllJobs : s.Calm s.cancelAllJobs := by
  unfold cancelAllJobs
  dsimp only
  split_ifs
  · exact (calm_foldl (fun _ _ => calm_sendMessage _) _ s).trans calm_clearJobs
  · exact calm_clearJobs

/-- Closing is calm. -/
theorem calm_close : s.Calm s.close := by
  unfold close
  split_ifs
  · exact Calm.refl s
  · refine Calm.trans (t := { s with closing := true }) (.of_eq rfl rfl rfl rfl rfl) ?_
    exact calm_cancelAllJobs.trans (.of_eq rfl rfl rfl rfl rfl)

/-- Leaving the registry is calm. -/
theorem calm_unregister : s.Calm s.unregister := .of_eq rfl rfl rfl rfl rfl

/-- Ending the session is calm. -/
theorem calm_endFileTransferSession (title text : String) :
    s.Calm (s.endFileTransferSession title text) := by
  unfold endFileTransferSession
  split_ifs
  · refine Calm.trans ?_ (calm_ev _)
    refine Calm.trans ?_ calm_unregister
    refine Calm.trans ?_ calm_close
    refine Calm.trans ?_ (calm_failActiveJobs _)
    exact .of_eq rfl rfl rfl rfl rfl
  · exact Calm.refl s

/-- A failure of the loop is calm. -/
theorem calm_failLoop (text : String) : s.Calm (s.failLoop text) := by
  unfold failLoop
  split_ifs
  · exact (calm_setLoop _).trans
      ((calm_failActiveJobs _).trans (calm_endFileTransferSession _ _))
  · exact calm_setLoop _

/-! ## Downloads and reports -/

/-- The digest of a file is calm. -/
theorem calm_queueDigestForCurrentFile (ref : ℕ) : s.Calm (s.queueDigestForCurrentFile ref) := by
  unfold queueDigestForCurrentFile
  split
  · exact calm_queueMessage _
  · exact Calm.refl s

/-- A block of a file is calm. -/
theorem calm_queueBlock (id : ℤ) (ref : ℕ) (data : List UInt8) :
    s.Calm (s.queueBlock id ref data) := by
  unfold queueBlock
  split_ifs
  · exact calm_queueMessage _
  · exact Calm.refl s

/-- The end of an upload is calm. -/
theorem calm_finishUpload (id fileNum : ℤ) : s.Calm (s.finishUpload id fileNum) :=
  (calm_queueMessage _).trans ((calm_removeJob id).trans (calm_ev _))

/-- Writing to a download is calm. -/
theorem calm_appendBytes (ref : ℕ) (id fileNum : ℤ) (bytes : List UInt8) :
    s.Calm (s.appendBytes ref id fileNum bytes) := by
  unfold appendBytes
  split <;> exact .of_eq rfl rfl rfl rfl rfl

/-- A block from the host is calm. -/
theorem calm_handleBlock (id fileNum : ℤ) (data : List UInt8) (compressed : Bool) :
    s.Calm (s.handleBlock id fileNum data compressed) := by
  unfold handleBlock
  split
  · exact Calm.refl s
  · split_ifs
    · exact .of_eq rfl rfl rfl rfl rfl
    · exact calm_appendBytes _ _ _ _

/-- The end of a file from the host is calm. -/
theorem calm_handleDone (id fileNum : ℤ) : s.Calm (s.handleDone id fileNum) := by
  unfold handleDone
  split_ifs
  · exact Calm.refl s
  · split
    · exact .of_eq rfl rfl rfl rfl rfl
    · exact calm_ev _

/-- A listing from the host is calm. -/
theorem calm_handleDir (id : ℤ) (path : String) (entries : List FileEntry) :
    s.Calm (s.handleDir id path entries) := by
  unfold handleDir
  refine Calm.trans ?_ (calm_ev _)
  split
  · split_ifs
    · exact calm_updateWrite _ _
    · exact Calm.refl s
  · exact Calm.refl s

/-- An error from the host is calm. -/
theorem calm_handleError (id fileNum : ℤ) (err : String) :
    s.Calm (s.handleError id fileNum err) :=
  (calm_removeJob id).trans (calm_pushJobError id fileNum err)

/-- Going on to the next download is calm. -/
theorem calm_nextDownload : s.Calm s.nextDownload := by
  unfold nextDownload
  split <;> exact .of_eq rfl rfl rfl rfl rfl

/-- The answer to a question is calm. -/
theorem calm_afterPick (ref : ℕ) (pick : Pick) : s.Calm (s.afterPick ref pick).1 := by
  cases pick <;> exact .of_eq rfl rfl rfl rfl rfl

/-- The start of a download is calm. -/
theorem calm_startPicked (item : QueuedDownload) (ref : ℕ) (pick : Pick) :
    s.Calm (s.startPicked item ref pick) := by
  have hpick := calm_afterPick (s := s) ref pick
  unfold startPicked
  dsimp only
  split_ifs
  · exact hpick.trans (calm_sendMessage _)
  · exact hpick.trans ((calm_removeJob _).trans (calm_pushJobError _ _ _))

/-- Going on with a download is calm. -/
theorem calm_resumePicked (task : Resuming) (pick : Pick) :
    s.Calm (s.resumePicked task pick) := by
  have hpick : s.Calm (if task.picking then s.afterPick task.job pick else (s, true)).1 := by
    split_ifs
    · exact calm_afterPick _ _
    · exact Calm.refl s
  unfold resumePicked
  generalize (if task.picking then s.afterPick task.job pick else (s, true)) = picked at hpick ⊢
  obtain ⟨s', goesOn⟩ := picked
  dsimp only at hpick ⊢
  split_ifs
  · exact hpick.trans (calm_sendMessage _)
  · exact hpick.trans (calm_pushJobError _ _ _)

/-- A block that was written is calm. -/
theorem calm_blockWritten (ref : ℕ) (fileNum : ℤ) (bytes : List UInt8)
    (storage : WriteJob.Storage) : s.Calm (s.blockWritten ref fileNum bytes storage) := by
  unfold blockWritten
  split
  · exact (calm_updateWrite _ _).trans (calm_observe trivial)
  · exact calm_updateWrite _ _

/-- A file that was saved is calm. -/
theorem calm_saved (how : WriteJob.Finalization) : s.Calm (s.saved how) := by
  unfold saved
  split
  · exact calm_observe trivial
  · refine Calm.trans ?_ (calm_observe trivial)
    exact .of_eq rfl rfl rfl rfl rfl
  · exact Calm.refl s

/-- The end of a download is calm. -/
theorem calm_finalized (ref : ℕ) (id fileNum : ℤ) (how : WriteJob.Finalization)
    (failure : Option String) : s.Calm (s.finalized ref id fileNum how failure) := by
  cases failure with
  | some err => exact (calm_pushJobError _ _ _).trans (calm_removeJob _)
  | none => exact (calm_saved how).trans ((calm_removeJob _).trans (calm_ev _))

/-- A request to the host is calm. -/
theorem calm_remoteOrDone (isRemote : Bool) (m : OutMessage) (id fileNum : ℤ) :
    s.Calm (s.remoteOrDone isRemote m id fileNum) := by
  unfold remoteOrDone
  split_ifs
  · exact calm_sendMessage _
  · exact calm_ev _

/-- A request that goes to the host only is calm. -/
theorem calm_sendRemote (isRemote : Bool) (m : OutMessage) :
    s.Calm (if isRemote then s.sendMessage m else s) := by
  split_ifs
  · exact calm_sendMessage _
  · exact Calm.refl s

/-- Starting the loop is calm. -/
theorem calm_startMessagePump : s.Calm s.startMessagePump := .of_eq rfl rfl rfl rfl rfl

/-- Connecting is calm. -/
theorem calm_connectRelay : s.Calm s.connectRelay := .of_eq rfl rfl rfl rfl rfl

/-- Losing the socket is calm. -/
theorem calm_loseSocket : s.Calm s.loseSocket := .of_eq rfl rfl rfl rfl rfl

/-- Sending the queue is calm. -/
theorem calm_flush : s.Calm s.flush := by
  unfold flush
  split_ifs
  · exact Calm.refl s
  · refine ⟨rfl, rfl, rfl, fun _ _ h => h, s.msgs.map .sent, rfl, ?_⟩
    rintro o hmem
    obtain ⟨m, -, rfl⟩ := List.mem_map.mp hmem
    trivial
  · exact .of_eq rfl rfl rfl rfl rfl

/-- Cancelling a job is calm. -/
theorem calm_cancelJob (id : ℤ) : s.Calm (s.cancelJob id) :=
  (calm_removeJob id).trans (calm_sendMessage _)

end FtConnection

end RdWeb.FileTransfer
