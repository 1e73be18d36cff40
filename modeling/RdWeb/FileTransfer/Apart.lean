import RdWeb.FileTransfer.Upload

/-!
# What leaves one upload alone

A step about other ids keeps the job object of an upload, its place in the table, its pump
and its history. Where the upload may be dropped, dropping it is all that can happen to it.
-/

namespace RdWeb.FileTransfer

/-- An observation that is nothing to the upload of an id. -/
def Observation.Foreign (id : ℤ) (o : Observation) : Prop :=
  o.queued? id = none ∧ ∀ n, o.answer? id n = none

namespace FtConnection

variable {d : Prop} {id : ℤ} {ref : ℕ} {s t u : FtConnection}

/-- The upload of the id with its job at a reference is left alone, or dropped where it may be. -/
structure Apart (d : Prop) (id : ℤ) (ref : ℕ) (s t : FtConnection) : Prop where
  job : t.readHeap ref = s.readHeap ref
  nextRead : s.nextRead ≤ t.nextRead
  table : t.readJobs.get? id = s.readJobs.get? id ∨ d ∧ t.readJobs.get? id = none
  phase : t.phaseOf id = s.phaseOf id
  log : ∃ later, t.log = s.log ++ later ∧ ∀ o ∈ later, o.Foreign id

/-- Doing nothing is apart. -/
theorem Apart.refl (d : Prop) (id : ℤ) (ref : ℕ) (s : FtConnection) : Apart d id ref s s :=
  ⟨rfl, Nat.le_refl _, .inl rfl, rfl, [], by simp, by simp⟩

/-- Two steps that are apart are apart together. -/
theorem Apart.trans (hst : Apart d id ref s t) (htu : Apart d id ref t u) :
    Apart d id ref s u where
  job := htu.job.trans hst.job
  nextRead := Nat.le_trans hst.nextRead htu.nextRead
  table := by
    rcases htu.table with heq | hgone
    · rw [heq]
      exact hst.table
    · exact .inr hgone
  phase := htu.phase.trans hst.phase
  log := by
    obtain ⟨first, hfirst, hforeign⟩ := hst.log
    obtain ⟨second, hsecond, hforeign'⟩ := htu.log
    refine ⟨first ++ second, by rw [hsecond, hfirst, List.append_assoc], ?_⟩
    intro o hmem
    exact (List.mem_append.mp hmem).elim (hforeign o) (hforeign' o)

/-- Nothing that counts for the upload has changed. -/
theorem Apart.frame (hheap : t.readHeap = s.readHeap) (hnext : t.nextRead = s.nextRead)
    (hjobs : t.readJobs = s.readJobs) (hpump : t.pump = s.pump) (hlog : t.log = s.log) :
    Apart d id ref s t where
  job := by rw [hheap]
  nextRead := by omega
  table := .inl (by rw [hjobs])
  phase := by rw [phaseOf, phaseOf, hpump]
  log := ⟨[], by rw [hlog, List.append_nil], by simp⟩

/-! ## The operations -/

/-- A foreign observation is apart. -/
theorem apart_observe {o : Observation} (h : o.Foreign id) : Apart d id ref s (s.observe o) :=
  ⟨rfl, Nat.le_refl _, .inl rfl, rfl, [o], rfl, by simpa using h⟩

/-- An event for the interface is apart. -/
theorem apart_ev (e : UiEvent) : Apart d id ref s (s.ev e) := apart_observe ⟨rfl, fun _ => rfl⟩

/-- An error for the interface is apart. -/
theorem apart_pushJobError (k n : ℤ) (err : String) :
    Apart d id ref s (s.pushJobError k n err) := apart_ev _

/-- A message of another id is foreign. -/
theorem foreign_queued {m : OutMessage} (h : m.id? ≠ some id) :
    (Observation.queued m).Foreign id :=
  ⟨by simp [Observation.queued?, h], fun _ => rfl⟩

/-- Queueing a message of another id is apart. -/
theorem apart_queueMessage {m : OutMessage} (h : m.id? ≠ some id) :
    Apart d id ref s (s.queueMessage m) := by
  have hmsgs : Apart d id ref s { s with msgs := s.msgs ++ [m] } := .frame rfl rfl rfl rfl rfl
  exact hmsgs.trans (apart_observe (foreign_queued h))

/-- Sending a message at once is apart. -/
theorem apart_sendMessage (m : OutMessage) : Apart d id ref s (s.sendMessage m) := by
  unfold sendMessage
  split_ifs
  · exact apart_observe ⟨rfl, fun _ => rfl⟩
  · exact Apart.refl d id ref s

/-- Where the loop stands is apart. -/
theorem apart_setLoop (state : LoopState) : Apart d id ref s (s.setLoop state) :=
  .frame rfl rfl rfl rfl rfl

/-- The pump may change if the phase of the upload does not. -/
theorem apart_setPump {pump : Option Pump} (h : (s.setPump pump).phaseOf id = s.phaseOf id) :
    Apart d id ref s (s.setPump pump) :=
  ⟨rfl, Nat.le_refl _, .inl rfl, h, [], by simp [setPump], by simp⟩

/-- Another job may change. -/
theorem apart_updateRead {r : ℕ} (hr : r ≠ ref) (f : ReadJob → ReadJob) :
    Apart d id ref s (s.updateRead r f) :=
  ⟨updateRead_other f (Ne.symm hr), Nat.le_refl _, .inl rfl, rfl, [], by simp [updateRead],
    by simp⟩

/-- A download may change. -/
theorem apart_updateWrite (r : ℕ) (f : WriteJob → WriteJob) :
    Apart d id ref s (s.updateWrite r f) :=
  .frame rfl rfl rfl rfl rfl

/-- Removing another job is apart. -/
theorem apart_removeJob {k : ℤ} (h : k = id → d) : Apart d id ref s (s.removeJob k) := by
  refine ⟨rfl, Nat.le_refl _, ?_, rfl, [], by simp [removeJob], by simp⟩
  by_cases hk : id = k
  · exact .inr ⟨h hk.symm, by simp [removeJob, hk]⟩
  · exact .inl (by simp [removeJob, hk])

/-- Dropping all jobs is apart where the upload may be dropped. -/
theorem apart_clearJobs (h : d) : Apart d id ref s s.clearJobs :=
  ⟨rfl, Nat.le_refl _, .inr ⟨h, rfl⟩, rfl, [], by simp [clearJobs], by simp⟩

/-- A new upload of another id is apart. -/
theorem apart_createUpload {job : ReadJob} (hid : job.id ≠ id) (hlt : ref < s.nextRead) :
    Apart d id ref s (s.createUpload job) := by
  have hne : ref ≠ s.nextRead := by omega
  exact ⟨by simp [createUpload, hne], Nat.le_succ _, .inl (by simp [createUpload, Ne.symm hid]),
    rfl, [], by simp [createUpload], by simp⟩

/-- A new download is apart. -/
theorem apart_createDownload (job : WriteJob) : Apart d id ref s (s.createDownload job) :=
  .frame rfl rfl rfl rfl rfl

/-- Going on to the next download is apart. -/
theorem apart_nextDownload : Apart d id ref s s.nextDownload := by
  unfold nextDownload
  split <;> exact .frame rfl rfl rfl rfl rfl

/-- A loop whose rounds are apart is apart. -/
theorem apart_foldl {α : Type} {f : FtConnection → α → FtConnection}
    (h : ∀ t a, Apart d id ref t (f t a)) (l : List α) (s : FtConnection) :
    Apart d id ref s (l.foldl f s) := by
  induction l generalizing s with
  | nil => exact Apart.refl d id ref s
  | cons a l ih => exact (h s a).trans (ih _)

/-- Failing all jobs is apart where the upload may be dropped. -/
theorem apart_failActiveJobs (h : d) (err : String) :
    Apart d id ref s (s.failActiveJobs err) := by
  unfold failActiveJobs
  refine Apart.trans ?_ (apart_clearJobs h)
  refine Apart.trans ?_ (apart_foldl (fun _ _ => apart_pushJobError _ _ _) _ _)
  exact apart_foldl (fun _ _ => apart_pushJobError _ _ _) _ _

/-- Closing is apart where the upload may be dropped. -/
theorem apart_close (h : d) : Apart d id ref s s.close := by
  unfold close
  split_ifs
  · exact Apart.refl d id ref s
  · have hclosing : Apart d id ref s { s with closing := true } := .frame rfl rfl rfl rfl rfl
    have hcancel : Apart d id ref { s with closing := true }
        { s with closing := true }.cancelAllJobs := by
      unfold cancelAllJobs
      dsimp only
      split_ifs
      · exact (apart_foldl (fun _ _ => apart_sendMessage _) _ _).trans (apart_clearJobs h)
      · exact apart_clearJobs h
    exact hclosing.trans (hcancel.trans (.frame rfl rfl rfl rfl rfl))

/-- Leaving the registry is apart. -/
theorem apart_unregister : Apart d id ref s s.unregister := .frame rfl rfl rfl rfl rfl

/-- Ending the session is apart where the upload may be dropped. -/
theorem apart_endFileTransferSession (h : d) (title text : String) :
    Apart d id ref s (s.endFileTransferSession title text) := by
  have hended : Apart d id ref s { s with ftSessionEnded := true } := .frame rfl rfl rfl rfl rfl
  unfold endFileTransferSession
  split_ifs
  · refine Apart.trans ?_ (apart_ev _)
    refine Apart.trans ?_ apart_unregister
    exact (hended.trans (apart_failActiveJobs h _)).trans (apart_close h)
  · exact Apart.refl d id ref s

/-- A failure of the loop is apart where the upload may be dropped. -/
theorem apart_failLoop (h : d) (text : String) : Apart d id ref s (s.failLoop text) := by
  have hended : Apart d id ref s (s.setLoop .ended) := apart_setLoop _
  unfold failLoop
  split_ifs
  · exact hended.trans ((apart_failActiveJobs h _).trans (apart_endFileTransferSession h _ _))
  · exact hended

/-! ## Uploads of other ids -/

/-- The digest of another upload is apart. -/
theorem apart_queueDigestForCurrentFile {r : ℕ} (h : (s.readHeap r).id ≠ id) :
    Apart d id ref s (s.queueDigestForCurrentFile r) := by
  unfold queueDigestForCurrentFile ReadJob.digest?
  cases (s.readHeap r).currentFile with
  | none => exact Apart.refl d id ref s
  | some file => exact apart_queueMessage fun hid => h (Option.some.inj hid)

/-- The next file of another upload is apart. -/
theorem apart_advanceUploadAfterFile {k : ℤ} {r : ℕ} (hk : k ≠ id) (hr : r ≠ ref)
    (hkey : (s.readHeap r).id = k) (n : ℤ) :
    Apart d id ref s (s.advanceUploadAfterFile k r n) := by
  have hadd : Apart d id ref s (s.updateRead r (·.addFinished n)) := apart_updateRead hr _
  have hkey' : ((s.updateRead r (·.addFinished n)).readHeap r).id = k := by
    rw [updateRead_id (addFinished_id n), hkey]
  unfold advanceUploadAfterFile
  refine hadd.trans ?_
  generalize s.updateRead r (·.addFinished n) = s at hkey' ⊢
  dsimp only
  split_ifs
  · refine (apart_updateRead hr (·.turnTo (n + 1))).trans
      (apart_queueDigestForCurrentFile fun hid => hk ?_)
    rw [updateRead_same] at hid
    exact hkey'.symm.trans hid
  · exact (apart_removeJob fun h => absurd h hk).trans (apart_ev _)

/-- The pump of another id. -/
theorem phaseOf_other {k : ℤ} (hk : k ≠ id) (phase : PumpPhase) :
    (s.setPump (some ⟨k, phase⟩)).phaseOf id = none := by
  simp [phaseOf, setPump, hk]

/-- The end of a pump that is not the upload's is apart. -/
theorem apart_endPump (h : s.phaseOf id = none) : Apart d id ref s s.endPump := by
  have hnone : Apart d id ref s (s.setPump none) := apart_setPump h.symm
  unfold endPump
  split_ifs
  · exact hnone.trans (apart_setLoop _)
  · exact hnone

/-- A step may be followed by the end of a pump that is not the upload's. -/
theorem Apart.endPump (h : Apart d id ref s t) (hphase : s.phaseOf id = none) :
    Apart d id ref s t.endPump :=
  h.trans (apart_endPump (h.phase.trans hphase))

/-- A turn of another upload's pump is apart. -/
theorem apart_pumpTurn {k : ℤ} (hk : k ≠ id) (h : s.phaseOf id = none) :
    Apart d id ref s (s.pumpTurn k) := by
  rcases pumpTurn_cases s k with ⟨heq, -⟩ | ⟨r, phase, -, -, -, heq⟩
  · rw [heq]
    exact apart_endPump h
  · rw [heq]
    exact apart_setPump (by rw [phaseOf_other hk, h])

/-- A pump is started only where none runs. -/
theorem apart_pumpUploadBlocks {k : ℤ} (hk : k ≠ id) :
    Apart d id ref s (s.pumpUploadBlocks k) := by
  unfold pumpUploadBlocks
  cases hpump : s.pump with
  | some p => exact Apart.refl d id ref s
  | none => exact apart_pumpTurn hk (by simp [phaseOf, hpump])

/-- A block of another upload is apart. -/
theorem apart_queueBlock {k : ℤ} (hk : k ≠ id) (r : ℕ) (data : List UInt8) :
    Apart d id ref s (s.queueBlock k r data) := by
  unfold queueBlock
  split_ifs
  · exact apart_queueMessage fun h => hk (Option.some.inj h)
  · exact Apart.refl d id ref s

/-- The end of another upload is apart. -/
theorem apart_finishUpload {k : ℤ} (hk : k ≠ id) (n : ℤ) :
    Apart d id ref s (s.finishUpload k n) := by
  have hdone : Apart d id ref s (s.queueMessage (.done k n)) :=
    apart_queueMessage fun h => hk (Option.some.inj h)
  exact hdone.trans ((apart_removeJob fun h => absurd h hk).trans (apart_ev _))

/-- What the pump does with a block of another upload is apart. -/
theorem apart_pumpBlock {k : ℤ} {r : ℕ} (hk : k ≠ id) (hr : r ≠ ref)
    (hkey : (s.readHeap r).id = k) (hphase : s.phaseOf id = none) (data : List UInt8)
    (finished : Bool) : Apart d id ref s (s.pumpBlock k r data finished) := by
  have hblock : Apart d id ref s (s.queueBlock k r data) := apart_queueBlock hk r data
  have hkey' : ((s.queueBlock k r data).readHeap r).id = k := by
    rw [(calm_queueBlock k r data).readHeap, hkey]
  have hphase' : (s.queueBlock k r data).phaseOf id = none := by rw [hblock.phase, hphase]
  unfold pumpBlock
  refine hblock.trans ?_
  dsimp only
  split_ifs
  · exact (apart_advanceUploadAfterFile hk hr hkey' _).endPump hphase'
  · exact (apart_finishUpload hk _).endPump hphase'
  · exact apart_setPump (by rw [phaseOf_other hk, hphase'])

/-- A confirmation of another upload is apart. -/
theorem apart_sendConfirm {k : ℤ} (h : ∀ r, s.readJobs.get? k = some r → r ≠ ref) (n : ℤ)
    (skip : Bool) (offsetBlk : ℕ) : Apart d id ref s (s.sendConfirm k n skip offsetBlk) := by
  have hsent : Apart d id ref s (s.sendMessage (.sendConfirm k n skip offsetBlk)) :=
    apart_sendMessage _
  have hjobs := (sendMessage_frame s (.sendConfirm k n skip offsetBlk)).2
  unfold sendConfirm
  dsimp only
  rw [hjobs]
  split
  · rename_i r hget
    split_ifs
    · exact hsent
    · exact hsent.trans (apart_updateRead (h r hget) _)
  · exact hsent

/-! ## Downloads and reports -/

/-- Writing to a download is apart. -/
theorem apart_appendBytes (r : ℕ) (k n : ℤ) (bytes : List UInt8) :
    Apart d id ref s (s.appendBytes r k n bytes) := by
  unfold appendBytes
  split <;> exact .frame rfl rfl rfl rfl rfl

/-- The answer to a question is apart. -/
theorem apart_afterPick (r : ℕ) (pick : Pick) : Apart d id ref s (s.afterPick r pick).1 := by
  cases pick <;> exact .frame rfl rfl rfl rfl rfl

/-- A block that was written is apart. -/
theorem apart_blockWritten (r : ℕ) (n : ℤ) (bytes : List UInt8) (storage : WriteJob.Storage) :
    Apart d id ref s (s.blockWritten r n bytes storage) := by
  unfold blockWritten
  split
  · exact (apart_updateWrite _ _).trans (apart_observe ⟨rfl, fun _ => rfl⟩)
  · exact apart_updateWrite _ _

/-- The end of a download is apart. -/
theorem apart_finalized {k : ℤ} (h : k = id → d) (r : ℕ) (n : ℤ) (how : WriteJob.Finalization)
    (failure : Option String) : Apart d id ref s (s.finalized r k n how failure) := by
  cases failure with
  | some err => exact (apart_pushJobError k n err).trans (apart_removeJob h)
  | none =>
    refine Apart.trans ?_ ((apart_removeJob h).trans (apart_ev _))
    have hnext : Apart d id ref s { s with nextTarget := s.nextTarget + 1 } :=
      .frame rfl rfl rfl rfl rfl
    unfold saved
    split
    · exact apart_observe ⟨rfl, fun _ => rfl⟩
    · exact hnext.trans (apart_observe ⟨rfl, fun _ => rfl⟩)
    · exact Apart.refl d id ref s

/-- The start of a download is apart. -/
theorem apart_startPicked {item : QueuedDownload} {pick : Pick}
    (h : pick = .cancelled → item.id = id → d) (r : ℕ) :
    Apart d id ref s (s.startPicked item r pick) := by
  cases pick with
  | cancelled => exact (apart_removeJob (h rfl)).trans (apart_pushJobError _ _ _)
  | unsupported => exact apart_sendMessage _
  | target => exact (apart_afterPick r .target).trans (apart_sendMessage _)

/-- Going on with a download is apart. -/
theorem apart_resumePicked (task : Resuming) (pick : Pick) :
    Apart d id ref s (s.resumePicked task pick) := by
  have hpick : Apart d id ref s
      (if task.picking then s.afterPick task.job pick else (s, true)).1 := by
    split_ifs
    · exact apart_afterPick _ _
    · exact Apart.refl d id ref s
  unfold resumePicked
  generalize (if task.picking then s.afterPick task.job pick else (s, true)) = picked at hpick ⊢
  obtain ⟨s', goesOn⟩ := picked
  dsimp only at hpick ⊢
  split_ifs
  · exact hpick.trans (apart_sendMessage _)
  · exact hpick.trans (apart_pushJobError _ _ _)

/-- Sending the queue is apart. -/
theorem apart_flush : Apart d id ref s s.flush := by
  unfold flush
  split_ifs
  · exact Apart.refl d id ref s
  · refine ⟨rfl, Nat.le_refl _, .inl rfl, rfl, s.msgs.map .sent, rfl, ?_⟩
    rintro o hmem
    obtain ⟨m, -, rfl⟩ := List.mem_map.mp hmem
    exact ⟨rfl, fun _ => rfl⟩
  · exact .frame rfl rfl rfl rfl rfl

end FtConnection

/-- What a message of the host may activate. -/
def HostMessage.Confirms (id : ℤ) : HostMessage → Prop
  | .sendConfirm id' .. | .digest id' _ false _ => id' = id
  | _ => False

/-- The events that work on the upload of an id. -/
def FtEvent.Concerns (id : ℤ) (s : FtConnection) : FtEvent → Prop
  | .host m => m.Confirms id
  | .sliceRead _ | .pumpContinues | .timer => s.phaseOf id ≠ none
  | .call (.resumeJob id' false) | .call (.confirmOverrideFile id' _ true _) => id' = id
  | .call c => c.starts = true ∧ c.id? = some id
  | _ => False

/-- The events that may drop an upload that lasts: errors, cancels, and the end of the
connection. -/
def FtEvent.Drops (id : ℤ) (s : FtConnection) : FtEvent → Prop
  | .host (.error id' ..) | .call (.cancelJob id') => id' = id
  | .host (.loginError _) | .disconnected _ | .removeSession | .endSession .. => True
  | .sliceRead (some _) => s.loop = .awaitingPump
  | .finalized _ =>
    match s.loop with
    | .finalizing _ id' .. => id' = id
    | _ => False
  | .startPicked .cancelled =>
    match s.starting with
    | some (item, _) => item.id = id
    | none => False
  | _ => False

namespace FtConnection

variable {d : Prop} {id : ℤ} {ref : ℕ} {s t u : FtConnection}

/-- A message of the host that does not confirm the upload is apart. -/
theorem apart_onHostMessage (hother : ∀ k r, k ≠ id → s.readJobs.get? k = some r → r ≠ ref)
    (hkeyed : s.Keyed) {m : HostMessage} (hdrop : (FtEvent.host m).Drops id s → d)
    (hm : ¬ m.Confirms id) : Apart d id ref s (s.onHostMessage m) := by
  cases m with
  | dir k path entries =>
    simp only [onHostMessage, handleDir]
    refine Apart.trans ?_ (apart_ev _)
    split
    · split_ifs
      · exact apart_updateWrite _ _
      · exact Apart.refl d id ref s
    · exact Apart.refl d id ref s
  | emptyDirs path dirs => exact apart_ev _
  | digest k n isUpload isIdentical =>
    simp only [onHostMessage, handleDigest]
    split
    · exact Apart.refl d id ref s
    · cases isUpload with
      | true => exact apart_ev _
      | false => exact apart_sendConfirm (fun r => hother k r hm) n false 0
  | block k n data compressed =>
    simp only [onHostMessage, handleBlock]
    split
    · exact Apart.refl d id ref s
    · split_ifs
      · exact apart_setLoop _
      · exact apart_appendBytes _ _ _ _
  | done k n =>
    simp only [onHostMessage, handleDone]
    split_ifs
    · exact Apart.refl d id ref s
    · split
      · exact apart_setLoop _
      · exact apart_ev _
  | error k n err => exact (apart_removeJob hdrop).trans (apart_pushJobError k n err)
  | sendConfirm k n skip offsetBlk =>
    have hk : k ≠ id := hm
    simp only [onHostMessage, handleSendConfirm]
    split
    · exact Apart.refl d id ref s
    · rename_i r hget
      have hr := hother k r hk hget
      have hconfirm : Apart d id ref s (s.updateRead r (·.confirm offsetBlk)) :=
        apart_updateRead hr _
      split_ifs with hskip hpump
      · exact apart_advanceUploadAfterFile hk hr (hkeyed.jobs k r hget).2 n
      · exact hconfirm
      · have hnone : s.phaseOf id = none := by
          have hpump' : s.pump = none := by simpa [updateRead] using hpump
          simp [phaseOf, hpump']
        have hawait := hconfirm.trans (apart_setLoop .awaitingPump)
        exact hawait.trans (apart_pumpTurn hk (hawait.phase.trans hnone))
  | loginError text => exact apart_endFileTransferSession (hdrop trivial) _ _
  | other => exact Apart.refl d id ref s

/-- A new upload of another id is apart from the one that runs. -/
theorem apart_sendFiles {k : ℤ} (hk : k ≠ id) (hlt : ref < s.nextRead) (path toPath : String)
    (n : ℤ) (includeHidden isRemote isDir : Bool) :
    Apart d id ref s (s.sendFiles k path toPath n includeHidden isRemote isDir) := by
  have hpush (item : QueuedDownload) : Apart d id ref s (s.pushDownload item) :=
    .frame rfl rfl rfl rfl rfl
  unfold sendFiles
  dsimp only
  split_ifs
  · exact hpush _
  · exact (hpush _).trans apart_nextDownload
  · split
    · exact apart_pushJobError _ _ _
    · refine Apart.trans ?_ (apart_queueMessage fun h => hk (Option.some.inj h))
      refine Apart.trans ?_ (apart_queueMessage fun h => hk (Option.some.inj h))
      exact apart_createUpload hk hlt

/-- A request to the host is apart. -/
theorem apart_remoteOrDone (isRemote : Bool) (m : OutMessage) (k n : ℤ) :
    Apart d id ref s (s.remoteOrDone isRemote m k n) := by
  unfold remoteOrDone
  split_ifs
  · exact apart_sendMessage _
  · exact apart_ev _

/-- A request that goes to the host only is apart. -/
theorem apart_sendRemote (isRemote : Bool) (m : OutMessage) :
    Apart d id ref s (if isRemote then s.sendMessage m else s) := by
  split_ifs
  · exact apart_sendMessage _
  · exact Apart.refl d id ref s

/-- A call of the interface that does not concern the upload is apart. -/
theorem apart_onCall (hother : ∀ k r, k ≠ id → s.readJobs.get? k = some r → r ≠ ref)
    (hlt : ref < s.nextRead) {c : BridgeCall} (hdrop : (FtEvent.call c).Drops id s → d)
    (hc : ¬ (FtEvent.call c).Concerns id s) : Apart d id ref s (s.onCall c) := by
  have hne {k : ℤ} (hstarts : c.starts = true) (hid : c.id? = some k)
      (hconcerns : (FtEvent.call c).Concerns id s ↔ c.starts = true ∧ c.id? = some id) :
      k ≠ id := by
    rintro rfl
    exact hc (hconcerns.mpr ⟨hstarts, hid⟩)
  cases c with
  | readRemoteDir path includeHidden => exact apart_queueMessage fun h => by cases h
  | sendFiles k path toPath n includeHidden isRemote isDir =>
    exact apart_sendFiles (hne rfl rfl Iff.rfl) hlt _ _ _ _ _ _
  | sendLocalFiles k picked path toPath n includeHidden isRemote =>
    cases picked with
    | none => exact apart_pushJobError _ _ _
    | some file =>
      have hpending : Apart d id ref s (s.setPending k file) := .frame rfl rfl rfl rfl rfl
      exact hpending.trans (apart_sendFiles (s := s.setPending k file) (hne rfl rfl Iff.rfl)
        hlt _ _ _ _ _ _)
  | sendFolderUpload k plan toPath includeHidden =>
    have hk : k ≠ id := hne rfl rfl Iff.rfl
    cases plan with
    | none => exact apart_pushJobError _ _ _
    | some plan =>
      simp only [onCall, sendFolderUpload]
      refine Apart.trans ?_ (apart_queueDigestForCurrentFile fun h => hk ?_)
      · refine Apart.trans ?_ (apart_queueMessage fun h => hk (Option.some.inj h))
        exact apart_createUpload hk hlt
      · simpa [queueMessage, observe, createUpload, ReadJob.new] using h
  | addJob k path toPath n includeHidden isRemote =>
    have hk : k ≠ id := hne rfl rfl Iff.rfl
    simp only [onCall, addJob]
    split_ifs
    · exact apart_createDownload _
    · split
      · exact apart_createUpload hk hlt
      · exact Apart.refl d id ref s
  | resumeJob k isRemote =>
    cases isRemote with
    | true =>
      simp only [onCall, resumeJob, if_true]
      split
      · exact .frame rfl rfl rfl rfl rfl
      · exact Apart.refl d id ref s
    | false =>
      have hk : k ≠ id := hc
      simp only [onCall, resumeJob, Bool.false_eq_true, if_false]
      split
      · rename_i r hget
        split_ifs
        · exact (apart_updateRead (hother k r hk hget) _).trans (apart_pumpUploadBlocks hk)
        · exact Apart.refl d id ref s
      · exact Apart.refl d id ref s
  | confirmOverrideFile k n needOverride isUpload =>
    cases needOverride with
    | false =>
      have hconfirm : s.sendConfirm k n (!false) 0 = s.sendMessage (.sendConfirm k n true 0) := by
        unfold sendConfirm
        dsimp only
        split <;> rfl
      simp only [onCall, confirmOverrideFile, Bool.and_false, hconfirm]
      exact apart_sendMessage _
    | true =>
      have hk : k ≠ id := hc
      have hconfirm : Apart d id ref s (s.sendConfirm k n (!true) 0) :=
        apart_sendConfirm (fun r => hother k r hk) _ _ _
      have hjobs := (sendConfirm_frame s k n (!true) 0).2
      simp only [onCall, confirmOverrideFile]
      split_ifs
      · split
        · rename_i r hget
          exact hconfirm.trans (apart_updateRead (hother k r hk (hjobs ▸ hget)) _)
        · exact hconfirm
      · exact hconfirm
  | cancelJob k => exact (apart_removeJob hdrop).trans (apart_sendMessage _)
  | removeFile k path n isRemote => exact apart_remoteOrDone _ _ _ _
  | createDir k path isRemote => exact apart_remoteOrDone _ _ _ _
  | renameFile k path newName isRemote => exact apart_remoteOrDone _ _ _ _
  | readDirToRemoveRecursive k path isRemote showHidden => exact apart_sendRemote _ _
  | removeAllEmptyDirs k path isRemote => exact apart_sendRemote _ _
  | readEmptyDirs path includeHidden => exact apart_sendMessage _

/-- Such a call is foreign. -/
theorem foreign_call {c : BridgeCall} (hc : ¬ (FtEvent.call c).Concerns id s) :
    (Observation.call c).Foreign id := by
  refine ⟨rfl, fun n => ?_⟩
  cases c with
  | confirmOverrideFile k n' needOverride isUpload =>
    cases needOverride with
    | false => rfl
    | true =>
      have hk : k ≠ id := hc
      simp [Observation.answer?, hk]
  | _ => rfl

/-- A message of the host that does not confirm the upload is foreign. -/
theorem foreign_host {m : HostMessage} (hm : ¬ m.Confirms id) :
    (Observation.host m).Foreign id := by
  refine ⟨rfl, fun n => ?_⟩
  cases m with
  | sendConfirm k n' skip offsetBlk =>
    have hk : k ≠ id := hm
    simp [Observation.answer?, hk]
  | _ => rfl

/-- **A step that does not work on the upload** leaves it alone. -/
theorem apart_step {decompress : List UInt8 → Option (List UInt8)} {e : FtEvent}
    (hkeyed : s.Keyed) (hlt : ref < s.nextRead) (hkey : (s.readHeap ref).id = id)
    (hdrop : e.Drops id s → d) (he : ¬ e.Concerns id s)
    (hstep : s.step decompress e = some t) : Apart d id ref s t := by
  have hother (k : ℤ) (r : ℕ) (hk : k ≠ id) (hget : s.readJobs.get? k = some r) : r ≠ ref := by
    rintro rfl
    exact hk ((hkeyed.jobs k r hget).2.symm.trans hkey)
  have hidle : Apart d id ref s (s.setLoop .idle) := apart_setLoop _
  -- a pump that works on another id
  have hpumps {k : ℤ} {phase : PumpPhase} (hpump : s.pump = some ⟨k, phase⟩)
      (hnone : s.phaseOf id = none) : k ≠ id := by
    rintro rfl
    simp [phaseOf, hpump] at hnone
  have hheld {k : ℤ} {phase : PumpPhase} {r : ℕ} (hpump : s.pump = some ⟨k, phase⟩)
      (hphase : phase.job? = some r) (hk : k ≠ id) : (s.readHeap r).id = k ∧ r ≠ ref := by
    have hid := (hkeyed.pump _ r hpump hphase).2
    refine ⟨hid, ?_⟩
    rintro rfl
    exact hk (hid.symm.trans hkey)
  cases performed_of_step hstep with
  | prepare => exact .frame rfl rfl rfl rfl rfl
  | connected => exact .frame rfl rfl rfl rfl rfl
  | host m =>
    have hheard : Apart d id ref s (s.observe (.host m)) := apart_observe (foreign_host he)
    exact hheard.trans
      (apart_onHostMessage (s := s.observe (.host m)) hother (hkeyed.observe _) hdrop he)
  | disconnected text =>
    have hlost : Apart d id ref s s.loseSocket := .frame rfl rfl rfl rfl rfl
    exact hlost.trans (apart_failLoop (hdrop trivial) text)
  | flush => exact apart_flush
  | sliceRead failure hpump =>
    have hnone : s.phaseOf id = none := not_not.mp he
    have hk := hpumps hpump hnone
    obtain ⟨-, hr⟩ := hheld hpump rfl hk
    cases failure with
    | none =>
      refine (apart_updateRead hr (·.afterRead _)).trans (apart_setPump ?_)
      rw [phaseOf_other hk]
      exact hnone.symm
    | some text =>
      have hstop : Apart d id ref s (s.setPump none) := apart_setPump hnone.symm
      unfold sliceRead
      dsimp only
      split_ifs with hloop
      · exact hstop.trans (apart_failLoop (hdrop hloop) text)
      · exact hstop
  | pumpContinues hpump =>
    have hnone : s.phaseOf id = none := not_not.mp he
    have hk := hpumps hpump hnone
    obtain ⟨hid, hr⟩ := hheld hpump rfl hk
    exact apart_pumpBlock hk hr hid hnone _ _
  | timer hpump =>
    have hnone : s.phaseOf id = none := not_not.mp he
    exact apart_pumpTurn (hpumps hpump hnone) hnone
  | decompressed => exact hidle.trans (apart_appendBytes _ _ _ _)
  | undecodable => exact hidle.trans (apart_pushJobError _ _ _)
  | written => exact hidle.trans (apart_blockWritten _ _ _ _)
  | notWritten err => exact hidle.trans (apart_pushJobError _ _ _)
  | finalized failure hloop =>
    refine hidle.trans (apart_finalized (fun hk => hdrop ?_) _ _ _ failure)
    simpa [FtEvent.Drops, hloop] using hk
  | startPicked pick hstarting =>
    refine (apart_startPicked (fun hpick hitem => hdrop ?_) _).trans apart_nextDownload
    subst hpick
    simpa [FtEvent.Drops, hstarting] using hitem
  | resumePicked i pick =>
    have hdropped : Apart d id ref s (s.dropResuming i) := .frame rfl rfl rfl rfl rfl
    exact hdropped.trans (apart_resumePicked _ pick)
  | call c =>
    have hheard : Apart d id ref s (s.observe (.call c)) := apart_observe (foreign_call he)
    exact hheard.trans (apart_onCall (s := s.observe (.call c)) hother hlt hdrop he)
  | removeSession => exact (apart_close (hdrop trivial)).trans apart_unregister
  | endSession title text => exact apart_endFileTransferSession (hdrop trivial) title text

end FtConnection

end RdWeb.FileTransfer
