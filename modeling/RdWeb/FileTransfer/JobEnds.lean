import RdWeb.FileTransfer.Keyed
import RdWeb.FileTransfer.JobController

/-!
# How often the end of a job is reported

A place in a job table or in the download queue entitles an id to one report. The account
of an id adds the places it holds to the reports it had. Reports that take the job out of
its table keep the account; a block that fails, a resumed download whose picker is
cancelled, and a report for an id that no table holds run it up.
-/

namespace RdWeb.FileTransfer

namespace FtConnection

variable {s t u : FtConnection} {id : ℤ}

/-- Some table holds a job for the id. -/
def Held (s : FtConnection) (id : ℤ) : Prop :=
  s.readJobs.has id = true ∨ s.writeJobs.has id = true

/-- The reports that can still come for the id. -/
def outstanding (s : FtConnection) (id : ℤ) : ℕ :=
  (s.readJobs.has id).toNat + (s.writeJobs.has id).toNat +
    s.downloadQueue.countP fun item => item.id = id

/-- The endings that were reported, and those that may still come. -/
def account (s : FtConnection) (id : ℤ) : ℕ := (endings id s.log).length + s.outstanding id

/-- Downloads are stored under their own ids. -/
def WriteKeyed (s : FtConnection) : Prop :=
  ∀ id ref, s.writeJobs.get? id = some ref → ref < s.nextWrite ∧ (s.writeHeap ref).id = id

/-- The account of the id is not run up. -/
structure Settles (id : ℤ) (s t : FtConnection) : Prop where
  keyed : s.WriteKeyed → t.WriteKeyed
  account : t.account id ≤ s.account id

/-- Doing nothing settles. -/
theorem Settles.refl (id : ℤ) (s : FtConnection) : Settles id s s := ⟨fun h => h, Nat.le_refl _⟩

/-- Two steps that settle do so together. -/
theorem Settles.trans (hst : Settles id s t) (htu : Settles id t u) : Settles id s u :=
  ⟨fun h => htu.keyed (hst.keyed h), Nat.le_trans htu.account hst.account⟩

/-- Nothing that counts has changed. -/
theorem Settles.frame (hheap : t.writeHeap = s.writeHeap) (hnext : t.nextWrite = s.nextWrite)
    (hread : t.readJobs = s.readJobs) (hwrite : t.writeJobs = s.writeJobs)
    (hqueue : t.downloadQueue = s.downloadQueue)
    (hlog : endings id t.log = endings id s.log) : Settles id s t where
  keyed h := by
    unfold WriteKeyed
    rw [hheap, hnext, hwrite]
    exact h
  account := by
    have heq : t.account id = s.account id := by
      simp only [FtConnection.account, outstanding, hlog, hread, hwrite, hqueue]
    exact Nat.le_of_eq heq

/-! ## The operations -/

/-- An observation that reports nothing. -/
theorem settles_observe {o : Observation} (h : o.ending? id = none) :
    Settles id s (s.observe o) := by
  have hnil : endings id [o] = [] := by simp [endings, h]
  have hlog : endings id (s.observe o).log = endings id s.log := by
    rw [observe, endings_append, hnil, List.append_nil]
  exact .frame rfl rfl rfl rfl rfl hlog

/-- An event that ends no such job settles. -/
theorem settles_ev {e : UiEvent} (h : e.ends id = false) : Settles id s (s.ev e) :=
  settles_observe (by simp [Observation.ending?, h])

variable (id) in
/-- A report counts once. -/
theorem account_ev_le (e : UiEvent) : (s.ev e).account id ≤ s.account id + 1 := by
  have hone : (endings id [.event e]).length ≤ 1 := List.length_filterMap_le _ _
  have hlog : (endings id (s.ev e).log).length =
      (endings id s.log).length + (endings id [.event e]).length := by
    rw [← List.length_append, ← endings_append]
    rfl
  have hout : (s.ev e).outstanding id = s.outstanding id := rfl
  unfold account
  omega

/-- An error of another id settles. -/
theorem settles_pushJobError {k : ℤ} (hk : k ≠ id) (n : ℤ) (err : String) :
    Settles id s (s.pushJobError k n err) :=
  settles_ev (by simp [UiEvent.ends, hk])

/-- Queueing a message settles. -/
theorem settles_queueMessage (m : OutMessage) : Settles id s (s.queueMessage m) := by
  have hmsgs : Settles id s { s with msgs := s.msgs ++ [m] } := .frame rfl rfl rfl rfl rfl rfl
  exact hmsgs.trans (settles_observe rfl)

/-- Sending a message at once settles. -/
theorem settles_sendMessage (m : OutMessage) : Settles id s (s.sendMessage m) := by
  unfold sendMessage
  split_ifs
  · exact settles_observe rfl
  · exact Settles.refl id s

/-- Where the loop stands settles. -/
theorem settles_setLoop (state : LoopState) : Settles id s (s.setLoop state) :=
  .frame rfl rfl rfl rfl rfl rfl

/-- The pump may change. -/
theorem settles_setPump (pump : Option Pump) : Settles id s (s.setPump pump) :=
  .frame rfl rfl rfl rfl rfl rfl

/-- An upload may change. -/
theorem settles_updateRead (ref : ℕ) (f : ReadJob → ReadJob) :
    Settles id s (s.updateRead ref f) :=
  .frame rfl rfl rfl rfl rfl rfl

/-- Assignments to the other fields of a download keep its id. -/
theorem settles_updateWrite (ref : ℕ) {f : WriteJob → WriteJob}
    (hf : ∀ job, (f job).id = job.id) : Settles id s (s.updateWrite ref f) where
  keyed h := by
    intro k ref' hget
    obtain ⟨hlt, hkey⟩ := h k ref' hget
    refine ⟨hlt, ?_⟩
    simp only [updateWrite]
    split_ifs
    · rw [hf, hkey]
    · exact hkey
  account := Nat.le_refl _

/-- The keys after a removal. -/
theorem has_delete {k k' : ℤ} (m : OrderedMap ℤ ℕ) :
    (m.delete k).has k' = (decide (k' ≠ k) && m.has k') := by
  unfold OrderedMap.has
  rw [OrderedMap.get?_delete]
  by_cases h : k' = k <;> simp [h]

/-- Removing a job settles, as it takes from the account. -/
theorem settles_removeJob (k : ℤ) : Settles id s (s.removeJob k) where
  keyed h := by
    intro k' ref hget
    simp only [removeJob, OrderedMap.get?_delete] at hget
    split_ifs at hget
    exact h k' ref hget
  account := by
    have hread : ((s.readJobs.delete k).has id).toNat ≤ (s.readJobs.has id).toNat := by
      rw [has_delete]
      by_cases h : id = k <;> simp [h]
    have hwrite : ((s.writeJobs.delete k).has id).toNat ≤ (s.writeJobs.has id).toNat := by
      rw [has_delete]
      by_cases h : id = k <;> simp [h]
    simp only [FtConnection.account, outstanding, removeJob]
    omega

/-- Taking a job out of its table makes room for a report. -/
theorem account_removeJob (h : s.Held id) : (s.removeJob id).account id + 1 ≤ s.account id := by
  have hread : (s.readJobs.delete id).has id = false := by simp [has_delete]
  have hwrite : (s.writeJobs.delete id).has id = false := by simp [has_delete]
  simp only [account, outstanding, removeJob, hread, hwrite, Bool.toNat_false]
  rcases h with h | h
  · rw [h, Bool.toNat_true]
    omega
  · rw [h, Bool.toNat_true]
    omega

/-- A report that takes the job out of its table. -/
theorem settles_retire {k : ℤ} {e : UiEvent} (h : e.ends id = true → k = id ∧ s.Held id) :
    Settles id s ((s.removeJob k).ev e) where
  keyed hkeyed := by
    have hremove : Settles id s (s.removeJob k) := settles_removeJob k
    exact hremove.keyed hkeyed
  account := by
    by_cases hends : e.ends id = true
    · obtain ⟨rfl, hheld⟩ := h hends
      have hroom := account_removeJob hheld
      have hreport := account_ev_le (s := s.removeJob k) k e
      omega
    · have hquiet : Settles id (s.removeJob k) ((s.removeJob k).ev e) :=
        settles_ev (by simpa using hends)
      exact Nat.le_trans hquiet.account (settles_removeJob k).account

/-- Dropping all jobs settles. -/
theorem settles_clearJobs : Settles id s s.clearJobs where
  keyed _ := fun k ref hget => by simp [clearJobs] at hget
  account := by
    have hnone : (OrderedMap.empty : OrderedMap ℤ ℕ).has id = false := rfl
    simp only [FtConnection.account, outstanding, clearJobs, hnone, Bool.toNat_false]
    omega

/-- A file may be chosen. -/
theorem settles_setPending (k : ℤ) (file : File) : Settles id s (s.setPending k file) :=
  .frame rfl rfl rfl rfl rfl rfl

/-- Leaving the registry settles. -/
theorem settles_unregister : Settles id s s.unregister := .frame rfl rfl rfl rfl rfl rfl

/-- Losing the socket settles. -/
theorem settles_loseSocket : Settles id s s.loseSocket := .frame rfl rfl rfl rfl rfl rfl

/-- Starting the interval settles. -/
theorem settles_startMessagePump : Settles id s s.startMessagePump :=
  .frame rfl rfl rfl rfl rfl rfl

/-- Connecting settles. -/
theorem settles_connectRelay : Settles id s s.connectRelay := .frame rfl rfl rfl rfl rfl rfl

/-- Closing the socket settles. -/
theorem settles_baseClose : Settles id s s.baseClose := .frame rfl rfl rfl rfl rfl rfl

/-- A question may be asked. -/
theorem settles_pushResuming (task : Resuming) : Settles id s (s.pushResuming task) :=
  .frame rfl rfl rfl rfl rfl rfl

/-- A question may be taken back. -/
theorem settles_dropResuming (i : ℕ) : Settles id s (s.dropResuming i) :=
  .frame rfl rfl rfl rfl rfl rfl

/-- The keys after one was set. -/
theorem has_set (m : OrderedMap ℤ ℕ) (k k' : ℤ) (ref : ℕ) :
    (m.set k ref).has k' = (decide (k' = k) || m.has k') := by
  unfold OrderedMap.has
  rw [OrderedMap.get?_set]
  by_cases h : k' = k <;> simp [h]

variable (id) in
/-- A new upload counts once for its id. -/
theorem account_createUpload (job : ReadJob) :
    (s.createUpload job).account id ≤ s.account id + (decide (job.id = id)).toNat := by
  simp only [account, outstanding, createUpload, has_set]
  by_cases h : id = job.id
  · have hle := Bool.toNat_le (s.readJobs.has id)
    simp [h]
    omega
  · simp [h, Ne.symm h]

/-- An upload of another id may begin. -/
theorem settles_createUpload {job : ReadJob} (h : job.id ≠ id) :
    Settles id s (s.createUpload job) where
  keyed hkeyed := hkeyed
  account := by simpa [h] using account_createUpload (s := s) id job

/-- A new download has its own key. -/
theorem keyed_createDownload (h : s.WriteKeyed) (job : WriteJob) :
    (s.createDownload job).WriteKeyed := by
  intro k ref hget
  simp only [createDownload, OrderedMap.get?_set] at hget ⊢
  split_ifs at hget with hk
  · obtain rfl := Option.some.inj hget
    simp [hk]
  · obtain ⟨hlt, hkey⟩ := h k ref hget
    have hne : ref ≠ s.nextWrite := by omega
    exact ⟨by omega, by rw [if_neg hne]; exact hkey⟩

variable (id) in
/-- A new download may end once. -/
theorem account_createDownload (job : WriteJob) :
    (s.createDownload job).account id ≤ s.account id + (decide (job.id = id)).toNat := by
  simp only [account, outstanding, createDownload, has_set]
  by_cases h : id = job.id
  · have hle := Bool.toNat_le (s.writeJobs.has id)
    simp [h]
    omega
  · simp [h, Ne.symm h]

/-- A download of another id may begin. -/
theorem settles_createDownload (job : WriteJob) (h : job.id ≠ id) :
    Settles id s (s.createDownload job) where
  keyed hkeyed := keyed_createDownload hkeyed job
  account := by simpa [h] using account_createDownload (s := s) id job

variable (id) in
/-- A queued download may end once. -/
theorem account_pushDownload (item : QueuedDownload) :
    (s.pushDownload item).account id = s.account id + (decide (item.id = id)).toNat := by
  simp only [account, outstanding, pushDownload, List.countP_append, List.countP_singleton]
  by_cases h : item.id = id
  · simp [h]
    omega
  · simp [h]

/-- A download that leaves the queue keeps its place in the table. -/
theorem settles_nextDownload : Settles id s s.nextDownload := by
  unfold nextDownload
  split
  · exact .frame rfl rfl rfl rfl rfl rfl
  · rename_i item rest hqueue
    refine ⟨fun h => keyed_createDownload h _, ?_⟩
    have hcreate : (s.createDownload (.new item.id item.path item.toPath item.fileNum
        item.isDir)).account id ≤ s.account id + (decide (item.id = id)).toNat :=
      account_createDownload id _
    have hcount : s.downloadQueue.countP (fun item => item.id = id) =
        rest.countP (fun item => item.id = id) + (decide (item.id = id)).toNat := by
      rw [hqueue, List.countP_cons]
      by_cases h : item.id = id <;> simp [h]
    simp only [FtConnection.account, outstanding, createDownload, WriteJob.new] at hcreate ⊢
    omega

/-- A loop whose rounds settle does so. -/
theorem settles_foldl {α : Type} {f : FtConnection → α → FtConnection}
    (h : ∀ t a, Settles id t (f t a)) (l : List α) (s : FtConnection) :
    Settles id s (l.foldl f s) := by
  induction l generalizing s with
  | nil => exact Settles.refl id s
  | cons a l ih => exact (h s a).trans (ih _)

/-- Cancelling all jobs settles. -/
theorem settles_cancelAllJobs : Settles id s s.cancelAllJobs := by
  unfold cancelAllJobs
  dsimp only
  split_ifs
  · exact (settles_foldl (fun _ _ => settles_sendMessage _) _ s).trans settles_clearJobs
  · exact settles_clearJobs

/-- Closing settles. -/
theorem settles_close : Settles id s s.close := by
  have hclosing : Settles id s { s with closing := true } := .frame rfl rfl rfl rfl rfl rfl
  unfold close
  split_ifs
  · exact Settles.refl id s
  · exact hclosing.trans (settles_cancelAllJobs.trans settles_baseClose)

/-- One report for each entry of a table. -/
theorem pushJobErrors_eq (key num : ℕ → ℤ) (err : String) (refs : List ℕ) (s : FtConnection) :
    refs.foldl (fun t r => t.pushJobError (key r) (num r) err) s =
      { s with log := s.log ++ refs.map fun r => .event (.jobError (key r) (num r) err) } := by
  induction refs generalizing s with
  | nil => simp
  | cons r refs ih =>
    rw [List.foldl_cons, ih]
    simp [pushJobError, ev, observe]

/-- Failing jobs of one key reports as many endings. -/
theorem length_endings_jobErrors (key num : ℕ → ℤ) (err : String) (refs : List ℕ) :
    (endings id (refs.map fun r => .event (.jobError (key r) (num r) err))).length =
      refs.countP fun r => key r = id := by
  rw [endings, List.length_filterMap_eq_countP, List.countP_map]
  apply List.countP_congr
  intro r _
  by_cases h : key r = id <;> simp [Observation.ending?, UiEvent.ends, h]

/-- All jobs fail, and leave their tables. -/
theorem settles_failActiveJobs (hread : s.Keyed) (hwrite : s.WriteKeyed) (err : String) :
    Settles id s (s.failActiveJobs err) where
  keyed _ := fun k ref hget => by simp [failActiveJobs, clearJobs] at hget
  account := by
    have hreads : s.readJobs.values.countP (fun r => (s.readHeap r).id = id) =
        (s.readJobs.has id).toNat := by
      rw [OrderedMap.countP_values (fun k r hget => (hread.jobs k r hget).2) id, OrderedMap.has]
      cases s.readJobs.get? id <;> rfl
    have hwrites : s.writeJobs.values.countP (fun r => (s.writeHeap r).id = id) =
        (s.writeJobs.has id).toNat := by
      rw [OrderedMap.countP_values (fun k r hget => (hwrite k r hget).2) id, OrderedMap.has]
      cases s.writeJobs.get? id <;> rfl
    have hnone : (OrderedMap.empty : OrderedMap ℤ ℕ).has id = false := rfl
    simp only [FtConnection.account, outstanding, failActiveJobs, pushJobErrors_eq, clearJobs,
      endings_append, List.length_append, length_endings_jobErrors, hreads, hwrites, hnone,
      Bool.toNat_false]
    omega

/-- Ending the session settles, as every job is reported and dropped. -/
theorem settles_endFileTransferSession (hread : s.Keyed) (hwrite : s.WriteKeyed)
    (title text : String) : Settles id s (s.endFileTransferSession title text) := by
  have hended : Settles id s { s with ftSessionEnded := true } := .frame rfl rfl rfl rfl rfl rfl
  unfold endFileTransferSession
  split_ifs
  · refine Settles.trans ?_ (settles_ev rfl)
    refine Settles.trans ?_ settles_unregister
    refine Settles.trans ?_ settles_close
    refine hended.trans (settles_failActiveJobs ?_ (hended.keyed hwrite) _)
    exact hread.calm (.of_eq rfl rfl rfl rfl rfl)
  · exact Settles.refl id s

/-- A failure of the loop settles, in the same way. -/
theorem settles_failLoop (hread : s.Keyed) (hwrite : s.WriteKeyed) (text : String) :
    Settles id s (s.failLoop text) := by
  have hended : Settles id s (s.setLoop .ended) := settles_setLoop _
  have hread' : (s.setLoop .ended).Keyed := hread.calm (calm_setLoop _)
  have hfail : Settles id (s.setLoop .ended) ((s.setLoop .ended).failActiveJobs _) :=
    settles_failActiveJobs hread' (hended.keyed hwrite) "Connection lost"
  unfold failLoop
  split_ifs
  · refine hended.trans (hfail.trans (settles_endFileTransferSession ?_ ?_ _ _))
    · exact hread'.calm (calm_failActiveJobs _)
    · exact hfail.keyed (hended.keyed hwrite)
  · exact hended

/-! ## Uploads -/

/-- The digest of a file settles. -/
theorem settles_queueDigestForCurrentFile (ref : ℕ) :
    Settles id s (s.queueDigestForCurrentFile ref) := by
  unfold queueDigestForCurrentFile
  split
  · exact settles_queueMessage _
  · exact Settles.refl id s

/-- A finished file does not change what is left. -/
theorem addFinished_hasMore (n m : ℤ) (job : ReadJob) :
    (job.addFinished n).hasMore m = job.hasMore m := by
  unfold ReadJob.addFinished
  split <;> rfl

/-- The upload turns to its next file, or its end is reported while it is held. -/
theorem settles_advanceUploadAfterFile {k : ℤ} {ref : ℕ} {n : ℤ}
    (h : (s.readHeap ref).hasMore n = true ∨ (k = id → s.Held id)) :
    Settles id s (s.advanceUploadAfterFile k ref n) := by
  have hadd : Settles id s (s.updateRead ref (·.addFinished n)) := settles_updateRead _ _
  unfold advanceUploadAfterFile
  dsimp only
  rw [updateRead_same, addFinished_hasMore]
  split_ifs with hmore
  · exact hadd.trans ((settles_updateRead _ _).trans (settles_queueDigestForCurrentFile ref))
  · refine hadd.trans (settles_retire fun hends => ?_)
    have hk : k = id := by simpa [UiEvent.ends] using hends
    exact ⟨hk, h.resolve_left hmore hk⟩

/-- The end of a pump settles. -/
theorem settles_endPump : Settles id s s.endPump := by
  unfold endPump
  split_ifs
  · exact (settles_setPump none).trans (settles_setLoop _)
  · exact settles_setPump none

/-- A turn of the pump settles. -/
theorem settles_pumpTurn (k : ℤ) : Settles id s (s.pumpTurn k) := by
  rcases pumpTurn_cases s k with ⟨heq, -⟩ | ⟨ref, phase, -, -, -, heq⟩
  · rw [heq]
    exact settles_endPump
  · rw [heq]
    exact settles_setPump _

/-- Starting a pump settles. -/
theorem settles_pumpUploadBlocks (k : ℤ) : Settles id s (s.pumpUploadBlocks k) := by
  unfold pumpUploadBlocks
  split_ifs
  · exact Settles.refl id s
  · exact settles_pumpTurn k

/-- A block of a file settles. -/
theorem settles_queueBlock (k : ℤ) (ref : ℕ) (data : List UInt8) :
    Settles id s (s.queueBlock k ref data) := by
  unfold queueBlock
  split_ifs
  · exact settles_queueMessage _
  · exact Settles.refl id s

/-- The end of an upload settles if the upload was held. -/
theorem settles_finishUpload {k : ℤ} (h : k = id → s.Held id) (n : ℤ) :
    Settles id s (s.finishUpload k n) := by
  refine (settles_queueMessage (.done k n)).trans (settles_retire fun hends => ?_)
  have hk : k = id := by simpa [UiEvent.ends] using hends
  exact ⟨hk, h hk⟩

/-- A block leaves an upload held. -/
theorem queueBlock_held {k : ℤ} {ref : ℕ} {data : List UInt8} (h : s.Held id) :
    (s.queueBlock k ref data).Held id := by
  unfold queueBlock
  split_ifs <;> exact h

/-- The last block of a file that is not the last, or of a held upload. -/
theorem settles_pumpBlock {k : ℤ} {ref : ℕ} {finished : Bool}
    (h : finished = true → k = id →
      (s.readHeap ref).hasMore (s.readHeap ref).fileNum = true ∨ s.Held id)
    (data : List UInt8) : Settles id s (s.pumpBlock k ref data finished) := by
  have hblock : Settles id s (s.queueBlock k ref data) := settles_queueBlock k ref data
  have hheap := (calm_queueBlock (s := s) k ref data).readHeap
  unfold pumpBlock
  dsimp only
  rw [hheap]
  split_ifs with hfinished hmore
  · refine hblock.trans (Settles.trans ?_ settles_endPump)
    refine settles_advanceUploadAfterFile (.inl ?_)
    rw [hheap]
    exact hmore
  · refine hblock.trans (Settles.trans ?_ settles_endPump)
    refine settles_finishUpload (fun hk => ?_) _
    exact queueBlock_held ((h hfinished hk).resolve_left hmore)
  · exact hblock.trans (settles_setPump _)

/-- A read of the pump settles. -/
theorem settles_sliceRead (hread : s.Keyed) (hwrite : s.WriteKeyed) (k : ℤ) (ref : ℕ)
    (file : File) (data : List UInt8) (failure : Option String) :
    Settles id s (s.sliceRead k ref file data failure) := by
  cases failure with
  | none => exact (settles_updateRead ref (·.afterRead data)).trans (settles_setPump _)
  | some text =>
    have hstop : Settles id s (s.setPump none) := settles_setPump none
    have hread' : (s.setPump none).Keyed := hread.setPump none fun _ _ hp => by cases hp
    unfold sliceRead
    dsimp only
    split_ifs
    · exact hstop.trans (settles_failLoop hread' (hstop.keyed hwrite) text)
    · exact hstop

/-! ## Downloads -/

/-- A confirmation settles. -/
theorem settles_sendConfirm (k n : ℤ) (skip : Bool) (offsetBlk : ℕ) :
    Settles id s (s.sendConfirm k n skip offsetBlk) := by
  have hsent : Settles id s (s.sendMessage (.sendConfirm k n skip offsetBlk)) :=
    settles_sendMessage _
  unfold sendConfirm
  dsimp only
  split
  · split_ifs
    · exact hsent
    · exact hsent.trans (settles_updateRead _ _)
  · exact hsent

/-- Writing to a download settles. -/
theorem settles_appendBytes (ref : ℕ) (k n : ℤ) (bytes : List UInt8) :
    Settles id s (s.appendBytes ref k n bytes) := by
  unfold appendBytes
  split
  · exact settles_setLoop _
  · exact Settles.trans (settles_updateWrite ref (by intro job; rfl)) (settles_setLoop _)
  · exact Settles.trans (settles_updateWrite ref (by intro job; rfl)) (settles_setLoop _)
  · exact Settles.trans (settles_updateWrite ref (by intro job; rfl)) (settles_setLoop _)

/-- The answer to a question settles. -/
theorem settles_afterPick (ref : ℕ) (pick : Pick) : Settles id s (s.afterPick ref pick).1 := by
  cases pick with
  | cancelled => exact Settles.refl id s
  | unsupported => exact Settles.refl id s
  | target =>
    have hnext : Settles id s { s with nextTarget := s.nextTarget + 1 } :=
      .frame rfl rfl rfl rfl rfl rfl
    simp only [afterPick]
    exact hnext.trans (settles_updateWrite ref (by intro job; rfl))

/-- A block that was written settles. -/
theorem settles_blockWritten (ref : ℕ) (n : ℤ) (bytes : List UInt8)
    (storage : WriteJob.Storage) : Settles id s (s.blockWritten ref n bytes storage) := by
  unfold blockWritten
  split
  · exact Settles.trans (settles_updateWrite ref (by intro job; rfl)) (settles_observe rfl)
  · exact settles_updateWrite ref (by intro job; rfl)

/-- A file that was saved settles. -/
theorem settles_saved (how : WriteJob.Finalization) : Settles id s (s.saved how) := by
  have hnext : Settles id s { s with nextTarget := s.nextTarget + 1 } :=
    .frame rfl rfl rfl rfl rfl rfl
  unfold saved
  split
  · exact settles_observe rfl
  · exact hnext.trans (settles_observe rfl)
  · exact Settles.refl id s

/-- A file that was saved leaves a job held. -/
theorem saved_held {how : WriteJob.Finalization} (h : s.Held id) : (s.saved how).Held id := by
  unfold saved
  split <;> exact h

/-- The end of a download that is still held. -/
theorem settles_finalized {k : ℤ} (h : k = id → s.Held id) (ref : ℕ) (n : ℤ)
    (how : WriteJob.Finalization) (failure : Option String) :
    Settles id s (s.finalized ref k n how failure) := by
  have hends {t : FtConnection} {e : UiEvent} (he : e.ends id = decide (k = id))
      (hheld : k = id → t.Held id) :
      Settles id t ((t.removeJob k).ev e) :=
    settles_retire fun h' => by
      have hk : k = id := by simpa [he] using h'
      exact ⟨hk, hheld hk⟩
  cases failure with
  | some err => exact hends rfl h
  | none => exact (settles_saved how).trans (hends rfl fun hk => saved_held (h hk))

/-- Sending the queue settles. -/
theorem settles_flush : Settles id s s.flush := by
  have hnil (msgs : List OutMessage) : endings id (msgs.map .sent) = [] := by
    induction msgs with
    | nil => rfl
    | cons m msgs ih => exact ih
  unfold flush
  split_ifs
  · exact Settles.refl id s
  · refine .frame rfl rfl rfl rfl rfl ?_
    rw [endings_append, hnil, List.append_nil]
  · exact .frame rfl rfl rfl rfl rfl rfl

end FtConnection

/-- The calls that name a job without using its id anew. -/
def BridgeCall.steers : BridgeCall → Bool
  | .resumeJob .. | .confirmOverrideFile .. | .cancelJob _ => true
  | _ => false

/-- The id is used for one job: it is started while nothing was known of its id, and only
the calls that steer it name the id otherwise. -/
def FtEvent.UsesOnce (id : ℤ) (s : FtConnection) : FtEvent → Prop
  | .call c => c.id? = some id → c.steers = true ∨ c.starts = true ∧ s.account id = 0
  | _ => True

/-- Every end of the job is reported while a table holds it, and by code that takes it out. -/
def FtEvent.Retires (decompress : List UInt8 → Option (List UInt8)) (id : ℤ)
    (s : FtConnection) : FtEvent → Prop
  | .host (.done k _) | .host (.error k ..) => k = id → s.Held id
  | .pumpContinues =>
    match s.pump with
    | some ⟨k, .returned ref _ true⟩ =>
      k = id → (s.readHeap ref).hasMore (s.readHeap ref).fileNum = true ∨ s.Held id
    | _ => True
  | .decompressed =>
    match s.loop with
    | .decompressing _ k _ data => k = id → (decompress data).isSome = true
    | _ => True
  | .written (some _) =>
    match s.loop with
    | .writing _ k .. => k ≠ id
    | _ => True
  | .finalized _ =>
    match s.loop with
    | .finalizing _ k .. => k = id → s.Held id
    | _ => True
  | .startPicked .cancelled =>
    match s.starting with
    | some (item, _) => item.id = id → s.Held id
    | none => True
  | .resumePicked i .cancelled =>
    match s.resuming[i]? with
    | some task => task.id = id → task.picking = false
    | none => True
  | _ => True

namespace FtConnection

variable {s t u : FtConnection} {id : ℤ} {decompress : List UInt8 → Option (List UInt8)}

/-- A message of the host settles if it retires the job it ends. -/
theorem settles_onHostMessage (hread : s.Keyed) (hwrite : s.WriteKeyed) {m : HostMessage}
    (h : (FtEvent.host m).Retires decompress id s) : Settles id s (s.onHostMessage m) := by
  cases m with
  | dir k path entries =>
    simp only [onHostMessage, handleDir]
    refine Settles.trans ?_ (settles_ev rfl)
    split
    · split_ifs
      · exact settles_updateWrite _ (by intro job; rfl)
      · exact Settles.refl id s
    · exact Settles.refl id s
  | emptyDirs path dirs => exact settles_ev rfl
  | digest k n isUpload isIdentical =>
    simp only [onHostMessage, handleDigest]
    split
    · exact Settles.refl id s
    · split_ifs
      · exact settles_ev rfl
      · exact settles_ev rfl
      · exact settles_sendConfirm k n false 0
  | block k n data compressed =>
    simp only [onHostMessage, handleBlock]
    split
    · exact Settles.refl id s
    · split_ifs
      · exact settles_setLoop _
      · exact settles_appendBytes _ _ _ _
  | done k n =>
    simp only [onHostMessage, handleDone]
    split_ifs with hreading
    · exact Settles.refl id s
    · split
      · exact settles_setLoop _
      · rename_i hnone
        refine settles_ev ?_
        by_cases hk : k = id
        · rcases h hk with hheld | hheld
          · exact absurd (hk ▸ hheld) hreading
          · rw [OrderedMap.has, ← hk, hnone] at hheld
            cases hheld
        · simp [UiEvent.ends, hk]
  | error k n err =>
    refine settles_retire fun hends => ?_
    have hk : k = id := by simpa [UiEvent.ends] using hends
    exact ⟨hk, h hk⟩
  | sendConfirm k n skip offsetBlk =>
    simp only [onHostMessage, handleSendConfirm]
    split
    · exact Settles.refl id s
    · rename_i ref hget
      split_ifs
      · refine settles_advanceUploadAfterFile (.inr fun hk => .inl ?_)
        exact OrderedMap.has_iff.mpr ⟨ref, hk ▸ hget⟩
      · exact settles_updateRead _ _
      · exact (settles_updateRead _ _).trans ((settles_setLoop _).trans (settles_pumpTurn k))
  | loginError text => exact settles_endFileTransferSession hread hwrite _ _
  | other => exact Settles.refl id s

/-- A place in the queue is taken for the job that starts. -/
theorem settles_sendFiles {k : ℤ} (hk : k ≠ id) (path toPath : String) (n : ℤ)
    (includeHidden isRemote isDir : Bool) :
    Settles id s (s.sendFiles k path toPath n includeHidden isRemote isDir) := by
  have hpush (item : QueuedDownload) (hitem : item.id ≠ id) : Settles id s (s.pushDownload item) :=
    ⟨fun h => h, Nat.le_of_eq (by simpa [hitem] using account_pushDownload id item)⟩
  unfold sendFiles
  dsimp only
  split_ifs
  · exact hpush _ hk
  · exact (hpush _ hk).trans settles_nextDownload
  · split
    · exact settles_pushJobError hk _ _
    · refine Settles.trans ?_ (settles_queueMessage _)
      exact (settles_createUpload hk).trans (settles_queueMessage _)

/-- A request about another id settles. -/
theorem settles_remoteOrDone {k : ℤ} (hk : k ≠ id) (isRemote : Bool) (m : OutMessage) (n : ℤ) :
    Settles id s (s.remoteOrDone isRemote m k n) := by
  unfold remoteOrDone
  split_ifs
  · exact settles_sendMessage _
  · exact settles_ev (by simp [UiEvent.ends, hk])

/-- A request that goes to the host only settles. -/
theorem settles_sendRemote (isRemote : Bool) (m : OutMessage) :
    Settles id s (if isRemote then s.sendMessage m else s) := by
  split_ifs
  · exact settles_sendMessage _
  · exact Settles.refl id s

/-- A call that does not use the id anew. -/
theorem settles_onCall {c : BridgeCall} (h : c.id? = some id → c.steers = true) :
    Settles id s (s.onCall c) := by
  have hne {k : ℤ} (hid : c.id? = some k) (hsteers : c.steers = false) : k ≠ id := by
    rintro rfl
    rw [h hid] at hsteers
    cases hsteers
  cases c with
  | readRemoteDir path includeHidden => exact settles_queueMessage _
  | sendFiles k path toPath n includeHidden isRemote isDir =>
    exact settles_sendFiles (hne rfl rfl) _ _ _ _ _ _
  | sendLocalFiles k picked path toPath n includeHidden isRemote =>
    cases picked with
    | none => exact settles_pushJobError (hne rfl rfl) _ _
    | some file =>
      exact (settles_setPending k file).trans (settles_sendFiles (hne rfl rfl) _ _ _ _ _ _)
  | sendFolderUpload k plan toPath includeHidden =>
    cases plan with
    | none => exact settles_pushJobError (hne rfl rfl) _ _
    | some plan =>
      refine Settles.trans ?_ (settles_queueDigestForCurrentFile _)
      exact (settles_createUpload (hne rfl rfl)).trans (settles_queueMessage _)
  | addJob k path toPath n includeHidden isRemote =>
    have hk : k ≠ id := hne rfl rfl
    simp only [onCall, addJob]
    split_ifs
    · exact settles_createDownload _ hk
    · split
      · exact settles_createUpload hk
      · exact Settles.refl id s
  | resumeJob k isRemote =>
    simp only [onCall, resumeJob]
    split_ifs
    · split
      · exact settles_pushResuming _
      · exact Settles.refl id s
    · split
      · split_ifs
        · exact (settles_updateRead _ _).trans (settles_pumpUploadBlocks k)
        · exact Settles.refl id s
      · exact Settles.refl id s
  | confirmOverrideFile k n needOverride isUpload =>
    have hconfirm : Settles id s (s.sendConfirm k n (!needOverride) 0) :=
      settles_sendConfirm _ _ _ _
    simp only [onCall, confirmOverrideFile]
    split_ifs
    · split
      · exact hconfirm.trans (settles_updateRead _ _)
      · exact hconfirm
    · exact hconfirm
  | cancelJob k => exact (settles_removeJob k).trans (settles_sendMessage _)
  | removeFile k path n isRemote => exact settles_remoteOrDone (hne rfl rfl) _ _ _
  | createDir k path isRemote => exact settles_remoteOrDone (hne rfl rfl) _ _ _
  | renameFile k path newName isRemote => exact settles_remoteOrDone (hne rfl rfl) _ _ _
  | readDirToRemoveRecursive k path isRemote showHidden => exact settles_sendRemote _ _
  | removeAllEmptyDirs k path isRemote => exact settles_sendRemote _ _
  | readEmptyDirs path includeHidden => exact settles_sendMessage _

variable (id) in
/-- A call that starts a job counts once. -/
theorem account_starts {c : BridgeCall} (h : c.starts = true) (hwrite : s.WriteKeyed) :
    (s.onCall c).WriteKeyed ∧ (s.onCall c).account id ≤ s.account id + 1 := by
  have hone (p : Prop) [Decidable p] : (decide p).toNat ≤ 1 := Bool.toNat_le _
  have hfiles (t : FtConnection) (ht : t.WriteKeyed) (k : ℤ) (path toPath : String) (n : ℤ)
      (includeHidden isRemote isDir : Bool) :
      (t.sendFiles k path toPath n includeHidden isRemote isDir).WriteKeyed ∧
        (t.sendFiles k path toPath n includeHidden isRemote isDir).account id ≤
          t.account id + 1 := by
    unfold sendFiles
    dsimp only
    split_ifs
    · refine ⟨ht, ?_⟩
      rw [account_pushDownload]
      exact Nat.add_le_add_left (hone _) _
    · have hnext : Settles id (t.pushDownload ⟨k, path, toPath, n, includeHidden, isDir⟩)
          (t.pushDownload ⟨k, path, toPath, n, includeHidden, isDir⟩).nextDownload :=
        settles_nextDownload
      refine ⟨hnext.keyed ht, Nat.le_trans hnext.account ?_⟩
      rw [account_pushDownload]
      exact Nat.add_le_add_left (hone _) _
    · split
      · exact ⟨ht, account_ev_le id _⟩
      · rename_i file _
        have hcreate := account_createUpload (s := t) id
          (.new k path toPath n [file] [.ofFile "" file] file.size includeHidden)
        refine ⟨ht, Nat.le_trans (settles_queueMessage _).account ?_⟩
        refine Nat.le_trans (settles_queueMessage _).account (Nat.le_trans hcreate ?_)
        exact Nat.add_le_add_left (hone _) _
  cases c with
  | sendFiles k path toPath n includeHidden isRemote isDir => exact hfiles s hwrite _ _ _ _ _ _ _
  | sendLocalFiles k picked path toPath n includeHidden isRemote =>
    cases picked with
    | none => exact ⟨hwrite, account_ev_le id _⟩
    | some file => exact hfiles (s.setPending k file) hwrite _ _ _ _ _ _ _
  | sendFolderUpload k plan toPath includeHidden =>
    cases plan with
    | none => exact ⟨hwrite, account_ev_le id _⟩
    | some plan =>
      simp only [onCall, sendFolderUpload]
      have hdigest (t : FtConnection) :
          Settles id t (t.queueDigestForCurrentFile s.nextRead) :=
        settles_queueDigestForCurrentFile _
      refine ⟨(hdigest _).keyed hwrite, Nat.le_trans (hdigest _).account ?_⟩
      refine Nat.le_trans (settles_queueMessage _).account ?_
      exact Nat.le_trans (account_createUpload id _) (Nat.add_le_add_left (hone _) _)
  | addJob k path toPath n includeHidden isRemote =>
    simp only [onCall, addJob]
    split_ifs
    · refine ⟨keyed_createDownload hwrite _, ?_⟩
      exact Nat.le_trans (account_createDownload id _) (Nat.add_le_add_left (hone _) _)
    · split
      · refine ⟨hwrite, ?_⟩
        exact Nat.le_trans (account_createUpload id _) (Nat.add_le_add_left (hone _) _)
      · exact ⟨hwrite, Nat.le_succ _⟩
  | _ => cases h

/-! ## Runs -/

/-- **One step.** -/
theorem settles_step {e : FtEvent} (hread : s.Keyed) (hwrite : s.WriteKeyed)
    (honce : e.UsesOnce id s) (hretires : e.Retires decompress id s)
    (hstep : s.step decompress e = some t) :
    t.WriteKeyed ∧ (s.account id ≤ 1 → t.account id ≤ 1) := by
  have hsettles (h : Settles id s t) : t.WriteKeyed ∧ (s.account id ≤ 1 → t.account id ≤ 1) :=
    ⟨h.keyed hwrite, Nat.le_trans h.account⟩
  have hidle : Settles id s (s.setLoop .idle) := settles_setLoop _
  cases performed_of_step hstep with
  | prepare => exact hsettles settles_startMessagePump
  | connected => exact hsettles settles_connectRelay
  | host m =>
    have hheard : Settles id s (s.observe (.host m)) := settles_observe rfl
    exact hsettles (hheard.trans
      (settles_onHostMessage (hread.observe _) (hheard.keyed hwrite) hretires))
  | disconnected text =>
    have hlost : Settles id s s.loseSocket := settles_loseSocket
    exact hsettles (hlost.trans
      (settles_failLoop (hread.calm calm_loseSocket) (hlost.keyed hwrite) text))
  | flush => exact hsettles settles_flush
  | sliceRead failure => exact hsettles (settles_sliceRead hread hwrite _ _ _ _ failure)
  | pumpContinues hpump =>
    refine hsettles (settles_pumpBlock (fun hfinished => ?_) _)
    subst hfinished
    simpa [FtEvent.Retires, hpump] using hretires
  | timer => exact hsettles (settles_pumpTurn _)
  | decompressed => exact hsettles (hidle.trans (settles_appendBytes _ _ _ _))
  | undecodable hloop hbytes =>
    refine hsettles (hidle.trans (settles_pushJobError (fun hk => ?_) _ _))
    have hdecodes := hretires
    simp only [FtEvent.Retires, hloop] at hdecodes
    simpa [hbytes] using hdecodes hk
  | written => exact hsettles (hidle.trans (settles_blockWritten _ _ _ _))
  | notWritten err hloop =>
    refine hsettles (hidle.trans (settles_pushJobError ?_ _ _))
    simpa [FtEvent.Retires, hloop] using hretires
  | finalized failure hloop =>
    refine hsettles (hidle.trans (settles_finalized (fun hk => ?_) _ _ _ failure))
    have hheld := hretires
    simp only [FtEvent.Retires, hloop] at hheld
    exact hheld hk
  | startPicked pick hstarting =>
    rename_i item ref
    refine hsettles (Settles.trans ?_ settles_nextDownload)
    cases pick with
    | cancelled =>
      refine settles_retire fun hends => ?_
      have hk : item.id = id := by simpa [UiEvent.ends] using hends
      have hheld := hretires
      simp only [FtEvent.Retires, hstarting] at hheld
      exact ⟨hk, hheld hk⟩
    | unsupported => exact settles_sendMessage _
    | target => exact (settles_afterPick _ .target).trans (settles_sendMessage _)
  | resumePicked i pick htask =>
    rename_i task
    have hdrop : Settles id s (s.dropResuming i) := settles_dropResuming i
    refine hsettles (hdrop.trans ?_)
    unfold resumePicked
    cases hpicking : task.picking with
    | false => exact settles_sendMessage _
    | true =>
      cases pick with
      | cancelled =>
        refine settles_pushJobError (fun hk => ?_) _ _
        have hnot := hretires
        simp only [FtEvent.Retires, htask] at hnot
        rw [hnot hk] at hpicking
        cases hpicking
      | unsupported => exact settles_sendMessage _
      | target => exact (settles_afterPick _ .target).trans (settles_sendMessage _)
  | call c =>
    have hheard : Settles id s (s.observe (.call c)) := settles_observe rfl
    by_cases hid : c.id? = some id ∧ c.steers = false
    · obtain ⟨hstarts, hnone⟩ := (honce hid.1).resolve_left (by simp [hid.2])
      obtain ⟨hkeyed, hle⟩ := account_starts id hstarts (hheard.keyed hwrite)
      have hheard' := hheard.account
      exact ⟨hkeyed, fun _ => by omega⟩
    · refine hsettles (hheard.trans (settles_onCall fun hc => ?_))
      simpa [hc] using hid
  | removeSession => exact hsettles (settles_close.trans settles_unregister)
  | endSession title text =>
    exact hsettles (settles_endFileTransferSession hread hwrite title text)

/-- **A run** that uses the id for one job. -/
theorem account_run {registered : Bool} {events : List FtEvent}
    (hrun : (ftMachine decompress registered).RunWhere
      (fun s e => e.UsesOnce id s ∧ e.Retires decompress id s)
      (ftMachine decompress registered).init events u) :
    u.account id ≤ 1 := by
  have hall : u.Keyed ∧ u.WriteKeyed ∧ u.account id ≤ 1 := by
    apply hrun.invariant (P := fun s => s.Keyed ∧ s.WriteKeyed ∧ s.account id ≤ 1)
    · rintro s e t ⟨honce, hretires⟩ hstep ⟨hread, hwrite, haccount⟩
      obtain ⟨hwrite', hle⟩ := settles_step hread hwrite honce hretires hstep
      exact ⟨hread.step hstep, hwrite', hle haccount⟩
    · refine ⟨keyed_new registered, fun k ref hget => ?_, Nat.zero_le 1⟩
      simp [ftMachine, FtConnection.new] at hget
  exact hall.2.2

/-- **One report.** In every run that uses the id for one job, and in which no end of the job is
reported while no table holds it or by code that leaves it there, the user interface gets at
most one report, and shows a failed job as failed. -/
theorem ends_once (decompress : List UInt8 → Option (List UInt8)) (registered : Bool) (id : ℤ)
    {events : List FtEvent} {u : FtConnection}
    (hrun : (ftMachine decompress registered).RunWhere
      (fun s e => e.UsesOnce id s ∧ e.Retires decompress id s)
      (ftMachine decompress registered).init events u) :
    (endings id u.log).length ≤ 1 ∧
      ∀ (job : JobProgress) (fileNum : ℤ) (err : String), job.id = id → err ≠ "skipped" →
        .event (.jobError id fileNum err) ∈ u.log → (job.receiveAll u.log).state = .error := by
  have hone : (endings id u.log).length ≤ 1 := by
    have haccount := account_run hrun
    unfold account at haccount
    omega
  refine ⟨hone, fun job fileNum err hid herr hmem => ?_⟩
  subst hid
  exact JobProgress.receiveAll_state hone hmem herr

/-- A download that the host gives up. -/
theorem ends_once_error :
    ∃ u, demoMachine.Run demoMachine.init
        (demoDownload ++ [.host (.block 1 0 [1, 2] false), .host (.error 1 0 "gone")]) u ∧
      (endings 1 u.log).length ≤ 1 ∧
      ((JobProgress.transferring 1 1 2).receiveAll u.log).state = .error := by
  have hrun : demoMachine.RunWhere
      (fun s e => e.UsesOnce 1 s ∧ e.Retires (fun _ => none) 1 s) demoMachine.init
      (demoDownload ++ [.host (.block 1 0 [1, 2] false), .host (.error 1 0 "gone")])
      (demoRun (demoDownload ++ [.host (.block 1 0 [1, 2] false), .host (.error 1 0 "gone")])) :=
    .cons ⟨trivial, trivial⟩ rfl <| .cons ⟨trivial, trivial⟩ rfl <|
      .cons ⟨fun _ => .inr ⟨rfl, rfl⟩, trivial⟩ rfl <| .cons ⟨trivial, trivial⟩ rfl <|
      .cons ⟨trivial, trivial⟩ rfl <| .single ⟨trivial, fun _ => .inr rfl⟩ rfl
  have hmem : Observation.event (.jobError 1 0 "gone") ∈
      (demoRun (demoDownload ++
        [.host (.block 1 0 [1, 2] false), .host (.error 1 0 "gone")])).log :=
    List.mem_append_right _ (List.mem_singleton.mpr rfl)
  obtain ⟨hone, hshown⟩ := ends_once (fun _ => none) true 1 hrun
  exact ⟨_, hrun.run, hone, hshown _ 0 "gone" rfl (by decide) hmem⟩

/-- A block that cannot be written to the picked target, and then the `Done` of the host: the job
has failed, and then it is done. -/
theorem ends_twice_unwritten :
    ∃ u, demoMachine.RunWhere (fun s e => e.UsesOnce 1 s) demoMachine.init
        (demoStreamed ++ [.host (.block 1 0 [9] false), .written (some "Error: disk full"),
          .host (.done 1 0), .finalized none]) u ∧
      endings 1 u.log = [.jobError 1 0 "Error: disk full", .jobDone 1 0] ∧
      ((JobProgress.transferring 1 1 2).receiveAll u.log).state = .done := by
  refine ⟨demoRun (demoStreamed ++ [.host (.block 1 0 [9] false),
    .written (some "Error: disk full"), .host (.done 1 0), .finalized none]), ?_, rfl, rfl⟩
  exact .cons trivial rfl <| .cons trivial rfl <| .cons (fun _ => .inr ⟨rfl, rfl⟩) rfl <|
    .cons trivial rfl <| .cons trivial rfl <| .cons trivial rfl <| .cons trivial rfl <|
    .single trivial rfl

/-- The `Done` that the host echoes after an upload is reported once more. -/
theorem ends_twice_echo :
    ∃ u, demoMachine.RunWhere (fun s e => e.UsesOnce 1 s) demoMachine.init
        (demoUpload ++ [.host (.sendConfirm 1 0 false 0), .sliceRead none, .pumpContinues,
          .host (.done 1 0)]) u ∧
      endings 1 u.log = [.jobDone 1 0, .jobDone 1 0] := by
  refine ⟨demoRun (demoUpload ++ [.host (.sendConfirm 1 0 false 0), .sliceRead none,
    .pumpContinues, .host (.done 1 0)]), ?_, rfl⟩
  exact .cons trivial rfl <| .cons trivial rfl <| .cons (fun _ => .inr ⟨rfl, rfl⟩) rfl <|
    .cons trivial rfl <| .cons trivial rfl <| .cons trivial rfl <| .single trivial rfl

end FtConnection

end RdWeb.FileTransfer
