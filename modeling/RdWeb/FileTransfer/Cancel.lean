import RdWeb.FileTransfer.Keyed

/-!
# When a cancelled job stays cancelled

`cancelJob` drops the job and tells the host at once. What was already on its way for the
job is not called back: queued messages, a download waiting for its turn or its picker, a
block being read. Once none of these is left, nothing brings the id back but a `Done` of
the host or a new call.
-/

namespace RdWeb.FileTransfer

/-- A message about a cancelled id, or its completion. -/
def Observation.Revives (id : ℤ) : Observation → Prop
  | .sent m => m.id? = some id ∧ m ≠ .cancel id
  | .event (.jobDone id' _) => id' = id
  | _ => False

/-- A `Done` for the id, and the calls that use it anew. -/
def FtEvent.Reuses (id : ℤ) : FtEvent → Prop
  | .host (.done id' _) => id' = id
  | .call (.cancelJob _) | .call (.resumeJob ..) => False
  | .call c => c.id? = some id
  | _ => False

namespace FtConnection

variable {s t u : FtConnection} {id : ℤ}

/-- Nothing is on its way for the id. -/
structure Settled (s : FtConnection) (id : ℤ) : Prop where
  msgs : ∀ m ∈ s.msgs, m.id? ≠ some id
  downloadQueue : ∀ item ∈ s.downloadQueue, item.id ≠ id
  starting : ∀ item ref, s.starting = some (item, ref) → item.id ≠ id
  resuming : ∀ task ∈ s.resuming, task.id ≠ id
  pump : ∀ p, s.pump = some p → p.id = id → p.phase = .sleeping
  loop : ∀ ref n how, s.loop ≠ .finalizing ref id n how

/-- Nothing is left of the id. -/
structure Gone (s : FtConnection) (id : ℤ) : Prop extends s.Settled id where
  readJobs : s.readJobs.get? id = none
  writeJobs : s.writeJobs.get? id = none

/-- What is gone stays gone, and nothing about it is observed. -/
structure Keeps (id : ℤ) (s t : FtConnection) : Prop where
  gone : s.Gone id → t.Gone id
  log : ∃ later, t.log = s.log ++ later ∧ ∀ o ∈ later, ¬ o.Revives id

/-- Doing nothing keeps an id gone. -/
theorem Keeps.refl (id : ℤ) (s : FtConnection) : Keeps id s s := ⟨fun h => h, [], by simp, by simp⟩

/-- Two steps that keep an id gone keep it gone together. -/
theorem Keeps.trans (hst : Keeps id s t) (htu : Keeps id t u) : Keeps id s u where
  gone h := htu.gone (hst.gone h)
  log := by
    obtain ⟨first, hfirst, hquiet⟩ := hst.log
    obtain ⟨second, hsecond, hquiet'⟩ := htu.log
    refine ⟨first ++ second, by rw [hsecond, hfirst, List.append_assoc], ?_⟩
    intro o hmem
    exact (List.mem_append.mp hmem).elim (hquiet o) (hquiet' o)

/-- A step that observes nothing has only to keep the id gone. -/
theorem Keeps.of_gone (hgone : s.Gone id → t.Gone id) (hlog : t.log = s.log) : Keeps id s t :=
  ⟨hgone, [], by simp [hlog], by simp⟩

/-- Nothing that counts for the id has changed. -/
theorem Keeps.frame (hmsgs : t.msgs = s.msgs) (hqueue : t.downloadQueue = s.downloadQueue)
    (hstarting : t.starting = s.starting) (hresuming : t.resuming = s.resuming)
    (hpump : t.pump = s.pump) (hloop : t.loop = s.loop) (hlog : t.log = s.log)
    (hread : s.readJobs.get? id = none → t.readJobs.get? id = none)
    (hwrite : s.writeJobs.get? id = none → t.writeJobs.get? id = none) : Keeps id s t :=
  .of_gone (fun hs => ⟨⟨hmsgs ▸ hs.msgs, hqueue ▸ hs.downloadQueue, hstarting ▸ hs.starting,
    hresuming ▸ hs.resuming, hpump ▸ hs.pump, hloop ▸ hs.loop⟩, hread hs.readJobs,
    hwrite hs.writeJobs⟩) hlog

/-! ## The operations -/

/-- An observation brings nothing back. -/
theorem Gone.observe (h : s.Gone id) (o : Observation) : (s.observe o).Gone id :=
  ⟨⟨h.msgs, h.downloadQueue, h.starting, h.resuming, h.pump, h.loop⟩, h.readJobs, h.writeJobs⟩

/-- An observation that does not revive the id keeps it gone. -/
theorem keeps_observe {o : Observation} (h : ¬ o.Revives id) : Keeps id s (s.observe o) :=
  ⟨fun hs => hs.observe o, [o], rfl, by simpa using h⟩

/-- So does such an event. -/
theorem keeps_ev {e : UiEvent} (h : ¬ (Observation.event e).Revives id) : Keeps id s (s.ev e) :=
  keeps_observe h

/-- An error for the interface keeps an id gone, as it may come late. -/
theorem keeps_pushJobError (k n : ℤ) (err : String) : Keeps id s (s.pushJobError k n err) :=
  keeps_ev fun h => h

/-- Queueing a message of another id keeps the id gone. -/
theorem keeps_queueMessage {m : OutMessage} (h : m.id? ≠ some id) :
    Keeps id s (s.queueMessage m) where
  gone hs := by
    refine ⟨⟨?_, hs.downloadQueue, hs.starting, hs.resuming, hs.pump, hs.loop⟩, hs.readJobs,
      hs.writeJobs⟩
    intro m' hmem
    rcases List.mem_append.mp hmem with hmem | hmem
    · exact hs.msgs m' hmem
    · rwa [List.mem_singleton.mp hmem]
  log := ⟨[.queued m], rfl, by simp [Observation.Revives]⟩

/-- Sending a message keeps the id gone, if it is of another id or the cancel. -/
theorem keeps_sendMessage {m : OutMessage} (h : m.id? = some id → m = .cancel id) :
    Keeps id s (s.sendMessage m) := by
  unfold sendMessage
  split_ifs
  · exact keeps_observe fun hrevives => hrevives.2 (h hrevives.1)
  · exact Keeps.refl id s

/-- The loop keeps the id gone unless it saves a file of it. -/
theorem keeps_setLoop {state : LoopState} (h : ∀ ref n how, state ≠ .finalizing ref id n how) :
    Keeps id s (s.setLoop state) :=
  .of_gone (fun hs => ⟨⟨hs.msgs, hs.downloadQueue, hs.starting, hs.resuming, hs.pump, h⟩,
    hs.readJobs, hs.writeJobs⟩) rfl

/-- The loop may rest. -/
theorem keeps_setIdle : Keeps id s (s.setLoop .idle) := keeps_setLoop fun _ _ _ h => by cases h

/-- The loop may wait for the pump. -/
theorem keeps_awaitPump : Keeps id s (s.setLoop .awaitingPump) :=
  keeps_setLoop fun _ _ _ h => by cases h

/-- The pump keeps the id gone while the one of the id sleeps. -/
theorem keeps_setPump {pump : Option Pump}
    (h : ∀ p, pump = some p → p.id = id → p.phase = .sleeping) : Keeps id s (s.setPump pump) :=
  .of_gone (fun hs => ⟨⟨hs.msgs, hs.downloadQueue, hs.starting, hs.resuming, h, hs.loop⟩,
    hs.readJobs, hs.writeJobs⟩) rfl

/-- An upload may change. -/
theorem keeps_updateRead (ref : ℕ) (f : ReadJob → ReadJob) : Keeps id s (s.updateRead ref f) :=
  .frame rfl rfl rfl rfl rfl rfl rfl (fun h => h) fun h => h

/-- A download may change. -/
theorem keeps_updateWrite (ref : ℕ) (f : WriteJob → WriteJob) :
    Keeps id s (s.updateWrite ref f) :=
  .frame rfl rfl rfl rfl rfl rfl rfl (fun h => h) fun h => h

/-- A file may be chosen. -/
theorem keeps_setPending (k : ℤ) (file : File) : Keeps id s (s.setPending k file) :=
  .frame rfl rfl rfl rfl rfl rfl rfl (fun h => h) fun h => h

/-- Leaving the registry keeps the id gone. -/
theorem keeps_unregister : Keeps id s s.unregister :=
  .frame rfl rfl rfl rfl rfl rfl rfl (fun h => h) fun h => h

/-- Losing the socket keeps the id gone. -/
theorem keeps_loseSocket : Keeps id s s.loseSocket :=
  .frame rfl rfl rfl rfl rfl rfl rfl (fun h => h) fun h => h

/-- Starting the loop keeps the id gone. -/
theorem keeps_startMessagePump : Keeps id s s.startMessagePump :=
  .frame rfl rfl rfl rfl rfl rfl rfl (fun h => h) fun h => h

/-- Connecting keeps the id gone. -/
theorem keeps_connectRelay : Keeps id s s.connectRelay :=
  .of_gone (fun hs => ⟨⟨hs.msgs, hs.downloadQueue, hs.starting, hs.resuming, hs.pump,
    fun _ _ _ h => by cases h⟩, hs.readJobs, hs.writeJobs⟩) rfl

/-- Closing the connection keeps the id gone. -/
theorem keeps_baseClose : Keeps id s s.baseClose :=
  .of_gone (fun hs => ⟨⟨by simp [baseClose], hs.downloadQueue, hs.starting, hs.resuming, hs.pump,
    hs.loop⟩, hs.readJobs, hs.writeJobs⟩) rfl

/-- Removing a job keeps the id gone. -/
theorem keeps_removeJob (k : ℤ) : Keeps id s (s.removeJob k) :=
  .frame rfl rfl rfl rfl rfl rfl rfl (fun h => by simp [removeJob, h])
    fun h => by simp [removeJob, h]

/-- Dropping all jobs keeps the id gone. -/
theorem keeps_clearJobs : Keeps id s s.clearJobs :=
  .frame rfl rfl rfl rfl rfl rfl rfl (fun _ => rfl) fun _ => rfl

/-- An upload of another id may begin. -/
theorem keeps_createUpload {job : ReadJob} (h : job.id ≠ id) : Keeps id s (s.createUpload job) :=
  .frame rfl rfl rfl rfl rfl rfl rfl (fun hs => by simp [createUpload, hs, Ne.symm h]) fun hs => hs

/-- A download of another id may begin. -/
theorem keeps_createDownload (job : WriteJob) (h : job.id ≠ id) :
    Keeps id s (s.createDownload job) :=
  .frame rfl rfl rfl rfl rfl rfl rfl (fun hs => hs) fun hs => by
    simp [createDownload, hs, Ne.symm h]

/-- A download of another id may be queued. -/
theorem keeps_pushDownload {item : QueuedDownload} (h : item.id ≠ id) :
    Keeps id s (s.pushDownload item) := by
  refine .of_gone (fun hs => ⟨⟨hs.msgs, ?_, hs.starting, hs.resuming, hs.pump, hs.loop⟩,
    hs.readJobs, hs.writeJobs⟩) rfl
  intro item' hmem
  rcases List.mem_append.mp hmem with hmem | hmem
  · exact hs.downloadQueue item' hmem
  · rwa [List.mem_singleton.mp hmem]

/-- A question about another id may be asked. -/
theorem keeps_pushResuming {task : Resuming} (h : task.id ≠ id) :
    Keeps id s (s.pushResuming task) := by
  refine .of_gone (fun hs => ⟨⟨hs.msgs, hs.downloadQueue, hs.starting, ?_, hs.pump, hs.loop⟩,
    hs.readJobs, hs.writeJobs⟩) rfl
  intro task' hmem
  rcases List.mem_append.mp hmem with hmem | hmem
  · exact hs.resuming task' hmem
  · rwa [List.mem_singleton.mp hmem]

/-- A question may be taken back. -/
theorem keeps_dropResuming (i : ℕ) : Keeps id s (s.dropResuming i) :=
  .of_gone (fun hs => ⟨⟨hs.msgs, hs.downloadQueue, hs.starting,
    fun task hmem => hs.resuming task (List.mem_of_mem_eraseIdx hmem), hs.pump, hs.loop⟩,
    hs.readJobs, hs.writeJobs⟩) rfl

/-- A loop whose rounds keep the id gone keeps it gone. -/
theorem keeps_foldl {α : Type} {f : FtConnection → α → FtConnection}
    (h : ∀ t a, Keeps id t (f t a)) (l : List α) (s : FtConnection) :
    Keeps id s (l.foldl f s) := by
  induction l generalizing s with
  | nil => exact Keeps.refl id s
  | cons a l ih => exact (h s a).trans (ih _)

/-- Failing all jobs keeps the id gone. -/
theorem keeps_failActiveJobs (err : String) : Keeps id s (s.failActiveJobs err) := by
  unfold failActiveJobs
  refine Keeps.trans ?_ keeps_clearJobs
  refine Keeps.trans ?_ (keeps_foldl (fun _ _ => keeps_pushJobError _ _ _) _ _)
  exact keeps_foldl (fun _ _ => keeps_pushJobError _ _ _) _ _

/-- Cancelling is the one message that may still be sent. -/
theorem keeps_sendCancel (k : ℤ) : Keeps id s (s.sendMessage (.cancel k)) :=
  keeps_sendMessage fun h => congrArg OutMessage.cancel (Option.some.inj h)

/-- Cancelling all jobs keeps the id gone. -/
theorem keeps_cancelAllJobs : Keeps id s s.cancelAllJobs := by
  unfold cancelAllJobs
  dsimp only
  split_ifs
  · exact (keeps_foldl (fun _ _ => keeps_sendCancel _) _ s).trans keeps_clearJobs
  · exact keeps_clearJobs

/-- Closing keeps the id gone. -/
theorem keeps_close : Keeps id s s.close := by
  unfold close
  split_ifs
  · exact Keeps.refl id s
  · refine Keeps.trans (t := { s with closing := true }) ?_
      (keeps_cancelAllJobs.trans keeps_baseClose)
    exact .frame rfl rfl rfl rfl rfl rfl rfl (fun h => h) fun h => h

/-- Ending the session keeps the id gone. -/
theorem keeps_endFileTransferSession (title text : String) :
    Keeps id s (s.endFileTransferSession title text) := by
  unfold endFileTransferSession
  split_ifs
  · refine Keeps.trans ?_ (keeps_ev fun h => h)
    refine Keeps.trans ?_ keeps_unregister
    refine Keeps.trans ?_ keeps_close
    refine Keeps.trans ?_ (keeps_failActiveJobs _)
    exact .frame rfl rfl rfl rfl rfl rfl rfl (fun h => h) fun h => h
  · exact Keeps.refl id s

/-- A failure of the loop keeps the id gone. -/
theorem keeps_failLoop (text : String) : Keeps id s (s.failLoop text) := by
  have hended : Keeps id s (s.setLoop .ended) := keeps_setLoop fun _ _ _ h => by cases h
  unfold failLoop
  split_ifs
  · exact hended.trans ((keeps_failActiveJobs _).trans (keeps_endFileTransferSession _ _))
  · exact hended

/-- Going on to the next download keeps the id gone. -/
theorem keeps_nextDownload : Keeps id s s.nextDownload := by
  unfold nextDownload
  split
  · exact .of_gone (fun hs => ⟨⟨hs.msgs, hs.downloadQueue, nofun, hs.resuming,
      hs.pump, hs.loop⟩, hs.readJobs, hs.writeJobs⟩) rfl
  · rename_i item rest hqueue
    refine .of_gone (fun hs => ?_) rfl
    have hitem : item.id ≠ id := hs.downloadQueue item (by simp [hqueue])
    have hcreated : (s.createDownload _).Gone id := (keeps_createDownload
      (.new item.id item.path item.toPath item.fileNum item.isDir) hitem).gone hs
    refine ⟨⟨hs.msgs, ?_, ?_, hs.resuming, hs.pump, hs.loop⟩, hs.readJobs, hcreated.writeJobs⟩
    · intro item' hmem
      exact hs.downloadQueue item' (by simp [hqueue, hmem])
    · rintro item' ref h
      obtain ⟨rfl, -⟩ := Prod.mk.inj (Option.some.inj h)
      exact hitem

variable (s id) in
/-- The answer to a question keeps the id gone. -/
theorem keeps_afterPick (ref : ℕ) (pick : Pick) : Keeps id s (s.afterPick ref pick).1 := by
  cases pick <;> exact .frame rfl rfl rfl rfl rfl rfl rfl (fun h => h) fun h => h

/-! ## Uploads -/

/-- The digest of another upload keeps the id gone. -/
theorem keeps_queueDigestForCurrentFile {ref : ℕ} (h : (s.readHeap ref).id ≠ id) :
    Keeps id s (s.queueDigestForCurrentFile ref) := by
  unfold queueDigestForCurrentFile ReadJob.digest?
  cases (s.readHeap ref).currentFile with
  | none => exact Keeps.refl id s
  | some file => exact keeps_queueMessage fun hid => h (Option.some.inj hid)

/-- The next file of another upload keeps the id gone. -/
theorem keeps_advanceUploadAfterFile {k : ℤ} {ref : ℕ} (hk : k ≠ id)
    (href : (s.readHeap ref).id = k) (n : ℤ) :
    Keeps id s (s.advanceUploadAfterFile k ref n) := by
  unfold advanceUploadAfterFile
  refine (keeps_updateRead ref (·.addFinished n)).trans ?_
  have hadd : ((s.updateRead ref (·.addFinished n)).readHeap ref).id = k := by
    rw [updateRead_id (addFinished_id n), href]
  generalize s.updateRead ref (·.addFinished n) = s at hadd ⊢
  dsimp only
  split_ifs
  · refine (keeps_updateRead ref (·.turnTo (n + 1))).trans
      (keeps_queueDigestForCurrentFile fun hid => hk ?_)
    rw [updateRead_same] at hid
    exact hadd.symm.trans hid
  · exact (keeps_removeJob k).trans (keeps_ev hk)

/-- The end of a pump keeps the id gone. -/
theorem keeps_endPump : Keeps id s s.endPump := by
  have hnone : Keeps id s (s.setPump none) := keeps_setPump fun _ h => by cases h
  unfold endPump
  split_ifs
  · exact hnone.trans keeps_setIdle
  · exact hnone

/-- A turn of the pump of a gone id ends the pump. -/
theorem keeps_pumpTurn (k : ℤ) : Keeps id s (s.pumpTurn k) := by
  rcases pumpTurn_cases s k with ⟨heq, -⟩ | ⟨ref, phase, hget, -, -, heq⟩
  · rw [heq]
    exact keeps_endPump
  · rw [heq]
    refine ⟨fun hs => ?_, [], by simp [setPump], by simp⟩
    refine (keeps_setPump (s := s) ?_).gone hs
    rintro p hp rfl
    obtain rfl := Option.some.inj hp
    rw [hs.readJobs] at hget
    cases hget

/-- Starting a pump keeps the id gone. -/
theorem keeps_pumpUploadBlocks (k : ℤ) : Keeps id s (s.pumpUploadBlocks k) := by
  unfold pumpUploadBlocks
  split_ifs
  · exact Keeps.refl id s
  · exact keeps_pumpTurn k

/-- The end of another upload keeps the id gone. -/
theorem keeps_finishUpload {k : ℤ} (hk : k ≠ id) (n : ℤ) : Keeps id s (s.finishUpload k n) := by
  have hdone : Keeps id s (s.queueMessage (.done k n)) :=
    keeps_queueMessage fun h => hk (Option.some.inj h)
  exact hdone.trans ((keeps_removeJob k).trans (keeps_ev hk))

/-- What the pump does with a block of another upload keeps the id gone. -/
theorem keeps_pumpBlock {k : ℤ} {ref : ℕ} (hk : k ≠ id) (href : (s.readHeap ref).id = k)
    (data : List UInt8) (finished : Bool) : Keeps id s (s.pumpBlock k ref data finished) := by
  have hblock : Keeps id s (s.queueBlock k ref data) := by
    unfold queueBlock
    split_ifs
    · exact keeps_queueMessage fun h => hk (Option.some.inj h)
    · exact Keeps.refl id s
  have href' : ((s.queueBlock k ref data).readHeap ref).id = k := by
    rw [(calm_queueBlock k ref data).readHeap, href]
  unfold pumpBlock
  refine hblock.trans ?_
  dsimp only
  split_ifs
  · exact (keeps_advanceUploadAfterFile hk href' _).trans keeps_endPump
  · refine Keeps.trans ?_ keeps_endPump
    exact keeps_finishUpload hk _
  · refine keeps_setPump fun p hp hid => ?_
    obtain rfl := Option.some.inj hp
    rfl

/-- A read for another upload keeps the id gone. -/
theorem keeps_sliceRead {k : ℤ} (hk : k ≠ id) (ref : ℕ) (file : File) (data : List UInt8)
    (failure : Option String) : Keeps id s (s.sliceRead k ref file data failure) := by
  cases failure with
  | none =>
    refine (keeps_updateRead ref (·.afterRead data)).trans (keeps_setPump fun p hp hid => ?_)
    obtain rfl := Option.some.inj hp
    exact absurd hid hk
  | some text =>
    have hnone : Keeps id s (s.setPump none) := keeps_setPump fun _ h => by cases h
    unfold sliceRead
    dsimp only
    split_ifs
    · exact hnone.trans (keeps_failLoop text)
    · exact hnone

/-! ## Messages of the host -/

/-- A confirmation of another upload keeps the id gone. -/
theorem keeps_sendConfirm {k : ℤ} (hk : k ≠ id) (n : ℤ) (skip : Bool) (offsetBlk : ℕ) :
    Keeps id s (s.sendConfirm k n skip offsetBlk) := by
  have hsent : Keeps id s (s.sendMessage (.sendConfirm k n skip offsetBlk)) :=
    keeps_sendMessage fun h => absurd (Option.some.inj h) hk
  unfold sendConfirm
  dsimp only
  split
  · split_ifs
    · exact hsent
    · exact hsent.trans (keeps_updateRead _ _)
  · exact hsent

/-- Writing to a download keeps the id gone. -/
theorem keeps_appendBytes (ref : ℕ) (k n : ℤ) (bytes : List UInt8) :
    Keeps id s (s.appendBytes ref k n bytes) := by
  unfold appendBytes
  split
  · exact keeps_setLoop nofun
  · exact (keeps_updateWrite _ _).trans (keeps_setLoop nofun)
  · exact (keeps_updateWrite _ _).trans keeps_setIdle
  · exact (keeps_updateWrite _ _).trans keeps_setIdle

/-- A message of the host keeps the id gone, if it is not a `Done` for it. -/
theorem keeps_onHostMessage {m : HostMessage} (hs : s.Gone id) (hkeyed : s.Keyed)
    (hm : ¬ (FtEvent.host m).Reuses id) : Keeps id s (s.onHostMessage m) := by
  cases m with
  | dir k path entries =>
    simp only [onHostMessage, handleDir]
    refine Keeps.trans ?_ (keeps_ev fun h => h)
    split
    · split_ifs
      · exact keeps_updateWrite _ _
      · exact Keeps.refl id s
    · exact Keeps.refl id s
  | emptyDirs path dirs => exact keeps_ev fun h => h
  | digest k n isUpload isIdentical =>
    by_cases hk : k = id
    · rw [hk]
      simp [onHostMessage, handleDigest, hs.readJobs, hs.writeJobs, Keeps.refl]
    · simp only [onHostMessage, handleDigest]
      split
      · exact Keeps.refl id s
      · split_ifs
        · exact keeps_ev fun h => h
        · exact keeps_ev fun h => h
        · exact keeps_sendConfirm hk _ _ _
  | block k n data compressed =>
    simp only [onHostMessage, handleBlock]
    split
    · exact Keeps.refl id s
    · split_ifs
      · exact keeps_setLoop fun _ _ _ h => by cases h
      · exact keeps_appendBytes _ _ _ _
  | done k n =>
    have hk : k ≠ id := hm
    simp only [onHostMessage, handleDone]
    split_ifs
    · exact Keeps.refl id s
    · split
      · exact keeps_setLoop fun ref n' how h => by injection h with _ hid; exact hk hid
      · exact keeps_ev hk
  | error k n err => exact (keeps_removeJob k).trans (keeps_pushJobError k n err)
  | sendConfirm k n skip offsetBlk =>
    simp only [onHostMessage, handleSendConfirm]
    split
    · exact Keeps.refl id s
    · rename_i ref hget
      have hk : k ≠ id := by
        rintro rfl
        rw [hs.readJobs] at hget
        cases hget
      split_ifs
      · exact keeps_advanceUploadAfterFile hk (hkeyed.jobs k ref hget).2 n
      · exact keeps_updateRead _ _
      · exact (keeps_updateRead ref (·.confirm offsetBlk)).trans
          (keeps_awaitPump.trans (keeps_pumpTurn k))
  | loginError text => exact keeps_endFileTransferSession _ _
  | other => exact Keeps.refl id s

/-! ## Calls -/

/-- An upload of another id may be asked for. -/
theorem keeps_sendFiles {k : ℤ} (hk : k ≠ id) (path toPath : String) (n : ℤ)
    (includeHidden isRemote isDir : Bool) :
    Keeps id s (s.sendFiles k path toPath n includeHidden isRemote isDir) := by
  unfold sendFiles
  dsimp only
  split_ifs
  · exact keeps_pushDownload hk
  · exact (keeps_pushDownload hk).trans keeps_nextDownload
  · split
    · exact keeps_pushJobError _ _ _
    · refine Keeps.trans ?_ (keeps_queueMessage fun h => hk (Option.some.inj h))
      refine Keeps.trans ?_ (keeps_queueMessage fun h => hk (Option.some.inj h))
      exact keeps_createUpload hk

/-- A request to the host about another id keeps the id gone. -/
theorem keeps_remoteOrDone {k : ℤ} (hk : k ≠ id) (isRemote : Bool) {m : OutMessage}
    (hm : m.id? = some k) (n : ℤ) : Keeps id s (s.remoteOrDone isRemote m k n) := by
  unfold remoteOrDone
  split_ifs
  · exact keeps_sendMessage fun h => absurd (Option.some.inj (hm.symm.trans h)) hk
  · exact keeps_ev hk

/-- So does one that goes to the host only. -/
theorem keeps_sendRemote {k : ℤ} (hk : k ≠ id) (isRemote : Bool) {m : OutMessage}
    (hm : m.id? = some k) : Keeps id s (if isRemote then s.sendMessage m else s) := by
  split_ifs
  · exact keeps_sendMessage fun h => absurd (Option.some.inj (hm.symm.trans h)) hk
  · exact Keeps.refl id s

/-- A call keeps the id gone, if it does not use it anew. -/
theorem keeps_onCall {c : BridgeCall} (hs : s.Gone id)
    (hc : ¬ (FtEvent.call c).Reuses id) : Keeps id s (s.onCall c) := by
  cases c with
  | readRemoteDir path includeHidden => exact keeps_queueMessage fun h => by cases h
  | sendFiles k path toPath n includeHidden isRemote isDir =>
    exact keeps_sendFiles (fun h => hc (congrArg some h)) _ _ _ _ _ _
  | sendLocalFiles k picked path toPath n includeHidden isRemote =>
    cases picked with
    | none => exact keeps_pushJobError _ _ _
    | some file =>
      exact (keeps_setPending k file).trans
        (keeps_sendFiles (fun h => hc (congrArg some h)) _ _ _ _ _ _)
  | sendFolderUpload k plan toPath includeHidden =>
    have hk : k ≠ id := fun h => hc (congrArg some h)
    cases plan with
    | none => exact keeps_pushJobError _ _ _
    | some plan =>
      simp only [onCall, sendFolderUpload]
      refine Keeps.trans ?_ (keeps_queueDigestForCurrentFile fun h => hk ?_)
      · refine Keeps.trans ?_ (keeps_queueMessage fun h => hk (Option.some.inj h))
        exact keeps_createUpload hk
      · simpa [queueMessage, observe, createUpload, ReadJob.new] using h
  | addJob k path toPath n includeHidden isRemote =>
    have hk : k ≠ id := fun h => hc (congrArg some h)
    simp only [onCall, addJob]
    split_ifs
    · exact keeps_createDownload _ hk
    · split
      · exact keeps_createUpload hk
      · exact Keeps.refl id s
  | resumeJob k isRemote =>
    simp only [onCall, resumeJob]
    split_ifs
    · split
      · rename_i ref hget
        refine keeps_pushResuming ?_
        rintro rfl
        rw [hs.writeJobs] at hget
        cases hget
      · exact Keeps.refl id s
    · split
      · split_ifs
        · exact (keeps_updateRead _ _).trans (keeps_pumpUploadBlocks k)
        · exact Keeps.refl id s
      · exact Keeps.refl id s
  | confirmOverrideFile k n needOverride isUpload =>
    have hconfirm : Keeps id s (s.sendConfirm k n (!needOverride) 0) :=
      keeps_sendConfirm (fun h => hc (congrArg some h)) _ _ _
    simp only [onCall, confirmOverrideFile]
    split_ifs
    · split
      · exact hconfirm.trans (keeps_updateRead _ _)
      · exact hconfirm
    · exact hconfirm
  | cancelJob k => exact (keeps_removeJob k).trans (keeps_sendCancel k)
  | removeFile k path n isRemote =>
    exact keeps_remoteOrDone (fun h => hc (congrArg some h)) _ rfl _
  | createDir k path isRemote =>
    exact keeps_remoteOrDone (fun h => hc (congrArg some h)) _ rfl _
  | renameFile k path newName isRemote =>
    exact keeps_remoteOrDone (fun h => hc (congrArg some h)) _ rfl _
  | readDirToRemoveRecursive k path isRemote showHidden =>
    exact keeps_sendRemote (fun h => hc (congrArg some h)) _ rfl
  | removeAllEmptyDirs k path isRemote =>
    exact keeps_sendRemote (fun h => hc (congrArg some h)) _ rfl
  | readEmptyDirs path includeHidden => exact keeps_sendMessage fun h => by cases h

/-! ## Runs -/

/-- The start of another download keeps the id gone. -/
theorem keeps_startPicked {item : QueuedDownload} (hitem : item.id ≠ id) (ref : ℕ) (pick : Pick) :
    Keeps id s (s.startPicked item ref pick) := by
  have hpick := keeps_afterPick s id ref pick
  unfold startPicked
  dsimp only
  split_ifs
  · exact hpick.trans (keeps_sendMessage fun h => absurd (Option.some.inj h) hitem)
  · exact hpick.trans ((keeps_removeJob _).trans (keeps_pushJobError _ _ _))

/-- Going on with another download keeps the id gone. -/
theorem keeps_resumePicked {task : Resuming} (htask : task.id ≠ id) (pick : Pick) :
    Keeps id s (s.resumePicked task pick) := by
  have hpick : Keeps id s (if task.picking then s.afterPick task.job pick else (s, true)).1 := by
    split_ifs
    · exact keeps_afterPick _ _ _ _
    · exact Keeps.refl id s
  unfold resumePicked
  generalize (if task.picking then s.afterPick task.job pick else (s, true)) = picked at hpick ⊢
  obtain ⟨s', goesOn⟩ := picked
  dsimp only at hpick ⊢
  split_ifs
  · exact hpick.trans (keeps_sendMessage fun h => absurd (Option.some.inj h) htask)
  · exact hpick.trans (keeps_pushJobError _ _ _)

/-- A block that was written keeps the id gone. -/
theorem keeps_blockWritten (ref : ℕ) (n : ℤ) (bytes : List UInt8) (storage : WriteJob.Storage) :
    Keeps id s (s.blockWritten ref n bytes storage) := by
  unfold blockWritten
  split
  · exact (keeps_updateWrite _ _).trans (keeps_observe (o := .wrote _ bytes) fun h => h)
  · exact keeps_updateWrite _ _

/-- The end of another download keeps the id gone. -/
theorem keeps_finalized {k : ℤ} (hk : k ≠ id) (ref : ℕ) (n : ℤ) (how : WriteJob.Finalization)
    (failure : Option String) : Keeps id s (s.finalized ref k n how failure) := by
  cases failure with
  | some err => exact (keeps_pushJobError _ _ _).trans (keeps_removeJob _)
  | none =>
    refine Keeps.trans ?_ ((keeps_removeJob k).trans (keeps_ev hk))
    unfold saved
    split
    · exact keeps_observe (o := .wrote _ _) fun h => h
    · refine Keeps.trans ?_ (keeps_observe (o := .wrote _ _) fun h => h)
      exact .frame rfl rfl rfl rfl rfl rfl rfl (fun h => h) fun h => h
    · exact Keeps.refl id s

/-- Only messages that were queued are handed over. -/
theorem keeps_flush (hs : s.Gone id) : Keeps id s s.flush := by
  unfold flush
  split_ifs
  · exact Keeps.refl id s
  · refine ⟨fun hs => ⟨⟨by simp, hs.downloadQueue, hs.starting, hs.resuming, hs.pump, hs.loop⟩,
      hs.readJobs, hs.writeJobs⟩, s.msgs.map .sent, rfl, ?_⟩
    rintro o hmem
    obtain ⟨m, hm, rfl⟩ := List.mem_map.mp hmem
    exact fun hrevives => hs.msgs m hm hrevives.1
  · exact .frame rfl rfl rfl rfl rfl rfl rfl (fun h => h) fun h => h

/-- **One step.** -/
theorem keeps_step {decompress : List UInt8 → Option (List UInt8)} {e : FtEvent}
    (hs : s.Gone id) (hkeyed : s.Keyed) (he : ¬ e.Reuses id)
    (hstep : s.step decompress e = some t) : Keeps id s t := by
  cases performed_of_step hstep with
  | prepare => exact keeps_startMessagePump
  | connected => exact keeps_connectRelay
  | host m =>
    exact (keeps_observe (o := .host m) fun h => h).trans
      (keeps_onHostMessage (hs.observe _) (hkeyed.observe _) he)
  | disconnected text => exact keeps_loseSocket.trans (keeps_failLoop text)
  | flush => exact keeps_flush hs
  | sliceRead failure hpump =>
    exact keeps_sliceRead (fun h => by cases hs.pump _ hpump h) _ _ _ failure
  | pumpContinues hpump =>
    exact keeps_pumpBlock (fun h => by cases hs.pump _ hpump h) (hkeyed.pump _ _ hpump rfl).2 _ _
  | timer => exact keeps_pumpTurn _
  | decompressed => exact keeps_setIdle.trans (keeps_appendBytes _ _ _ _)
  | undecodable => exact keeps_setIdle.trans (keeps_pushJobError _ _ _)
  | written => exact keeps_setIdle.trans (keeps_blockWritten _ _ _ _)
  | notWritten err => exact keeps_setIdle.trans (keeps_pushJobError _ _ _)
  | finalized failure hloop =>
    refine keeps_setIdle.trans (keeps_finalized ?_ _ _ _ failure)
    rintro rfl
    exact hs.loop _ _ _ hloop
  | startPicked pick hstarting =>
    exact (keeps_startPicked (hs.starting _ _ hstarting) _ pick).trans keeps_nextDownload
  | resumePicked i pick htask =>
    exact (keeps_dropResuming i).trans
      (keeps_resumePicked (hs.resuming _ (List.mem_of_getElem? htask)) pick)
  | call c =>
    exact (keeps_observe (o := .call c) fun h => h).trans
      (keeps_onCall (hs.observe _) he)
  | removeSession => exact keeps_close.trans keeps_unregister
  | endSession title text => exact keeps_endFileTransferSession _ _

/-- **A run.** -/
theorem keeps_run {decompress : List UInt8 → Option (List UInt8)} {registered : Bool}
    {events : List FtEvent} (hs : s.Gone id) (hkeyed : s.Keyed)
    (hrun : (ftMachine decompress registered).RunWhere (fun _ e => ¬ e.Reuses id) s events t) :
    Keeps id s t ∧ t.Keyed := by
  induction hrun with
  | nil => exact ⟨Keeps.refl id _, hkeyed⟩
  | snoc _ hok hse ih =>
    obtain ⟨hkeeps, hkeyed'⟩ := ih
    exact ⟨hkeeps.trans (keeps_step (hkeeps.gone hs) hkeyed' hok hse), hkeyed'.step hse⟩

/-- `cancelJob` leaves nothing of an id for which nothing is on its way. -/
theorem gone_cancelJob (hs : s.Settled id) : (s.cancelJob id).Gone id := by
  refine (keeps_sendCancel (s := s.removeJob id) id).gone ⟨⟨hs.msgs, hs.downloadQueue,
    hs.starting, hs.resuming, hs.pump, hs.loop⟩, ?_, ?_⟩
  · simp [removeJob]
  · simp [removeJob]

/-- **Cancellation is final.** In every run in which nothing is on its way for the id when it
is cancelled, and neither a `Done` nor a new call names it afterwards. -/
theorem cancel_final (decompress : List UInt8 → Option (List UInt8)) (registered : Bool) (id : ℤ)
    {s t u : FtConnection} {events : List FtEvent}
    (hreach : (ftMachine decompress registered).Reachable s) (hsettled : s.Settled id)
    (hcancel : s.step decompress (.call (.cancelJob id)) = some t)
    (hrun : (ftMachine decompress registered).RunWhere (fun _ e => ¬ e.Reuses id) t events u) :
    ∃ later, u.log = t.log ++ later ∧ ∀ o ∈ later, ¬ o.Revives id := by
  have hkeyed := (keyed_of_reachable hreach).step hcancel
  have hgone : t.Gone id := by
    cases performed_of_step hcancel
    exact gone_cancelJob (s := s.observe (.call (.cancelJob id))) ⟨hsettled.msgs,
      hsettled.downloadQueue, hsettled.starting, hsettled.resuming, hsettled.pump, hsettled.loop⟩
  exact (keeps_run hgone hkeyed hrun).1.log

/-! ## An upload that is cancelled before and after its messages went out -/

/-- A job that is cancelled after its messages went out stays gone. -/
theorem cancel_final_after_flush :
    ∃ t u, (demoRun (demoUpload ++ [.flush])).step (fun _ => none) (.call (.cancelJob 1)) = some t ∧
      demoMachine.Run t [.host (.error 1 0 "gone"), .flush] u ∧
      ∃ later, u.log = t.log ++ later ∧ ∀ o ∈ later, ¬ o.Revives 1 := by
  have hreach : demoMachine.Reachable (demoRun (demoUpload ++ [.flush])) :=
    ⟨demoUpload ++ [.flush], Machine.run_of_replay rfl⟩
  have hsettled : (demoRun (demoUpload ++ [.flush])).Settled 1 :=
    ⟨nofun, nofun, nofun, nofun, nofun, nofun⟩
  have hrun : demoMachine.RunWhere (fun _ e => ¬ e.Reuses 1)
      (demoRun (demoUpload ++ [.flush, .call (.cancelJob 1)]))
      [.host (.error 1 0 "gone"), .flush]
      (demoRun (demoUpload ++ [.flush, .call (.cancelJob 1), .host (.error 1 0 "gone"), .flush])) :=
    .cons (fun h => h) rfl (.single (fun h => h) rfl)
  exact ⟨_, _, rfl, hrun.run, cancel_final (fun _ => none) true 1 hreach hsettled rfl hrun⟩

/-- Messages queued before the cancel are sent after it. -/
theorem not_final_queued_messages :
    ∃ t u, (demoRun demoUpload).step (fun _ => none) (.call (.cancelJob 1)) = some t ∧
      demoMachine.Run t [.flush] u ∧
      ∃ receive digest, u.log = t.log ++ [.sent receive, .sent digest] ∧
        (Observation.sent receive).Revives 1 ∧ (Observation.sent digest).Revives 1 := by
  have hcancelled : (demoRun demoUpload).step (fun _ => none) (.call (.cancelJob 1)) =
      some (demoRun (demoUpload ++ [.call (.cancelJob 1)])) := rfl
  have hflushed : demoMachine.Run (demoRun (demoUpload ++ [.call (.cancelJob 1)])) [.flush]
      (demoRun (demoUpload ++ [.call (.cancelJob 1), .flush])) := .single trivial rfl
  have hlog : (demoRun (demoUpload ++ [.call (.cancelJob 1), .flush])).log =
      (demoRun (demoUpload ++ [.call (.cancelJob 1)])).log ++
        [.sent (.receive 1 "/tmp/a.txt" [.ofFile "" ⟨"a.txt", [1, 2, 3], 0⟩] 0 3),
          .sent (.digest 1 0 3 0)] := rfl
  exact ⟨_, _, hcancelled, hflushed, _, _, hlog, ⟨rfl, by simp⟩, ⟨rfl, by simp⟩⟩

end FtConnection

end RdWeb.FileTransfer
