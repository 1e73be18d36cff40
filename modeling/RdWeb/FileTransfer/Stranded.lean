import RdWeb.FileTransfer.Keyed
import RdWeb.Lib.History

/-!
# When no upload is stranded

An upload moves on when the host confirms its file or the user answers the question of
the host. Some of the ways to confirm set the job active and start no pump, or find the
pump busy with another job. The condition names those steps; without them every job is
waiting for something, or the pump serves it.
-/

namespace RdWeb.FileTransfer

/-- The digest of a file is queued. -/
def Observation.DigestFor (id n : ℤ) : Observation → Prop
  | .queued (.digest id' n' _ _) => id' = id ∧ n' = n
  | _ => False

/-- The host confirms the file or asks about it. -/
def Observation.AnswersDigest (id n : ℤ) : Observation → Prop
  | .host (.sendConfirm id' n' _ _) | .host (.digest id' n' _ _) => id' = id ∧ n' = n
  | _ => False

/-- The host asks whether to override the file. -/
def Observation.AsksUser (id n : ℤ) : Observation → Prop
  | .host (.digest id' n' isUpload _) => id' = id ∧ n' = n ∧ isUpload = true
  | _ => False

/-- The user answers a question about the file of a job. -/
def Observation.UserAnswers (id n : ℤ) : Observation → Prop
  | .call (.confirmOverrideFile id' n' _ _) => id' = id ∧ n' = n
  | _ => False

/-- The digest of the file is unanswered. -/
def DigestOpen (log : List Observation) (id n : ℤ) : Prop :=
  History.Open (Observation.DigestFor id n) (Observation.AnswersDigest id n) log

/-- The question about the file is unanswered. -/
def QuestionOpen (log : List Observation) (id n : ℤ) : Prop :=
  History.Open (Observation.AsksUser id n) (Observation.UserAnswers id n) log

/-- A digest or a question of the file still waits for its answer. -/
def Waiting (log : List Observation) (id n : ℤ) : Prop :=
  DigestOpen log id n ∨ QuestionOpen log id n

/-- What the jobs rely on to find their files. -/
structure ReadJob.Wf (job : ReadJob) : Prop where
  file : job.file.isSome = true
  files : job.uploadFiles.length = job.files.length
  fileNum : -1 ≤ job.fileNum

namespace FtConnection

variable {s t : FtConnection}

/-- No job is left without a pump and without anything to wait for. -/
def NotStranded (s : FtConnection) : Prop :=
  s.pump = none → ∀ id ref, s.readJobs.get? id = some ref →
    (s.readHeap ref).active = false ∧ Waiting s.log id (s.readHeap ref).fileNum

/-- The pump is going to look at this object under the id. -/
def Serves (s : FtConnection) (id : ℤ) (ref : ℕ) : Prop :=
  ∃ p, s.pump = some p ∧ p.id = id ∧ ∀ ref', p.phase.job? = some ref' → ref' = ref

/-- The steps that strand no job:
* a confirmation of the host, a resumption: the pump is free, or serves the job;
* a digest of a download for an upload, an override: the pump serves the job;
* a refused override: the job is active, or something else is open for it;
* a skip, an upload: the number of the file is not below -1;
* a failed read: it ends the message loop, or the job is inactive;
* a job from the history has no file picked for it. -/
def Steady (s : FtConnection) : FtEvent → Prop
  | .host (.sendConfirm id n skip _) => ∀ ref, s.readJobs.get? id = some ref →
    if skip then -1 ≤ n else s.pump = none ∨ s.Serves id ref
  | .host (.digest id _ isUpload _) => isUpload = false → ∀ ref,
    s.readJobs.get? id = some ref → s.Serves id ref
  | .sliceRead (some _) =>
    (s.loop = .awaitingPump ∧ s.closing = false ∧ s.ftSessionEnded = false) ∨
      ∀ p ref, s.pump = some p → s.readJobs.get? p.id = some ref →
        (s.readHeap ref).active = false
  | .call (.sendLocalFiles _ _ _ _ n _ isRemote) | .call (.sendFiles _ _ _ n _ isRemote _) =>
    isRemote = false → -1 ≤ n
  | .call (.addJob id _ _ _ _ isRemote) => isRemote = false → s.pendingUploads.get? id = none
  | .call (.resumeJob id isRemote) => isRemote = false → ∀ ref, s.readJobs.get? id = some ref →
    s.pump = none ∨ s.Serves id ref
  | .call (.confirmOverrideFile id n needOverride _) => ∀ ref, s.readJobs.get? id = some ref →
    if needOverride then s.Serves id ref
    else (s.readHeap ref).active = true ∨ n ≠ (s.readHeap ref).fileNum ∨
      DigestOpen s.log id (s.readHeap ref).fileNum
  | _ => True

/-- What a steady run keeps of a job. -/
structure JobInv (s : FtConnection) (id : ℤ) (ref : ℕ) : Prop where
  wf : (s.readHeap ref).Wf
  active : (s.readHeap ref).active = true → s.Serves id ref
  waiting : (s.readHeap ref).active = false → Waiting s.log id (s.readHeap ref).fileNum

/-- The invariant for all jobs but those under one id. -/
structure InvBut (s : FtConnection) (k : ℤ) : Prop where
  keyed : s.Keyed
  jobs : ∀ id ref, id ≠ k → s.readJobs.get? id = some ref → s.JobInv id ref

/-- Every upload can go on. -/
structure Inv (s : FtConnection) : Prop where
  keyed : s.Keyed
  jobs : ∀ id ref, s.readJobs.get? id = some ref → s.JobInv id ref

/-- Where all uploads can go on, all but one can. -/
theorem Inv.but (h : s.Inv) (k : ℤ) : s.InvBut k := ⟨h.keyed, fun id ref _ => h.jobs id ref⟩

/-- The jobs under the last id complete the invariant. -/
theorem InvBut.inv {k : ℤ} (h : s.InvBut k)
    (hk : ∀ ref, s.readJobs.get? k = some ref → s.JobInv k ref) : s.Inv := by
  refine ⟨h.keyed, fun id ref hget => ?_⟩
  by_cases hid : id = k
  · subst hid
    exact hk ref hget
  · exact h.jobs id ref hid hget

/-- An upload that can go on is not stranded. -/
theorem Inv.notStranded (h : s.Inv) : s.NotStranded := by
  intro hpump id ref hget
  have hjob := h.jobs id ref hget
  have hinactive : (s.readHeap ref).active = false := by
    by_contra hactive
    obtain ⟨p, hp, -⟩ := hjob.active (by simpa using hactive)
    simp [hpump] at hp
  exact ⟨hinactive, hjob.waiting hinactive⟩

/-! ## What keeps a job waiting -/

/-- What waits goes on waiting while nothing answers it. -/
theorem waiting_append {log later : List Observation} {id n : ℤ} (h : Waiting log id n)
    (hdigest : ∀ o ∈ later, ¬ o.AnswersDigest id n) (huser : ∀ o ∈ later, ¬ o.UserAnswers id n) :
    Waiting (log ++ later) id n :=
  h.imp (·.append hdigest) (·.append huser)

/-- What happens inside answers no digest. -/
theorem not_answersDigest_of_internal {o : Observation} (h : o.Internal) (id n : ℤ) :
    ¬ o.AnswersDigest id n := by
  cases o <;> first | exact fun h' => h' | exact h.elim

/-- What happens inside answers no question. -/
theorem not_userAnswers_of_internal {o : Observation} (h : o.Internal) (id n : ℤ) :
    ¬ o.UserAnswers id n := by
  cases o <;> first | exact fun h' => h' | exact h.elim

/-- Calm steps leave waiting what waits. -/
theorem Calm.waiting (hst : s.Calm t) {id n : ℤ} (h : Waiting s.log id n) :
    Waiting t.log id n := by
  obtain ⟨later, hlog, hinternal⟩ := hst.log
  rw [hlog]
  exact waiting_append h (fun o ho => not_answersDigest_of_internal (hinternal o ho) id n)
    fun o ho => not_userAnswers_of_internal (hinternal o ho) id n

/-- The pump serves an upload as long as it stays. -/
theorem Serves.of_pump {id : ℤ} {ref : ℕ} (h : s.Serves id ref) (hpump : t.pump = s.pump) :
    t.Serves id ref := by
  obtain ⟨p, hp, hrest⟩ := h
  exact ⟨p, hpump.trans hp, hrest⟩

/-- A job whose object, pump and log mean the same to it. -/
theorem JobInv.congr {id : ℤ} {ref : ℕ} (h : s.JobInv id ref)
    (hjob : t.readHeap ref = s.readHeap ref)
    (hserves : (s.readHeap ref).active = true → s.Serves id ref → t.Serves id ref)
    (hwaiting : (s.readHeap ref).active = false → Waiting s.log id (s.readHeap ref).fileNum →
      Waiting t.log id (s.readHeap ref).fileNum) : t.JobInv id ref where
  wf := hjob ▸ h.wf
  active hactive := by
    rw [hjob] at hactive
    exact hserves hactive (h.active hactive)
  waiting hactive := by
    rw [hjob] at hactive ⊢
    exact hwaiting hactive (h.waiting hactive)

/-- Calm steps leave an upload able to go on. -/
theorem JobInv.calm {id : ℤ} {ref : ℕ} (h : s.JobInv id ref) (hst : s.Calm t) :
    t.JobInv id ref :=
  h.congr (by rw [hst.readHeap]) (fun _ hserves => hserves.of_pump hst.pump)
    fun _ => hst.waiting

/-- Calm steps leave all uploads but one able to go on. -/
theorem InvBut.calm {k : ℤ} (h : s.InvBut k) (hst : s.Calm t) : t.InvBut k :=
  ⟨h.keyed.calm hst, fun id ref hid hget => (h.jobs id ref hid (hst.readJobs id ref hget)).calm hst⟩

/-- Calm steps leave all uploads able to go on. -/
theorem Inv.calm (h : s.Inv) (hst : s.Calm t) : t.Inv :=
  ⟨h.keyed.calm hst, fun id ref hget => (h.jobs id ref (hst.readJobs id ref hget)).calm hst⟩

/-- An observation that answers nothing leaves an upload able to go on. -/
theorem JobInv.observe {id : ℤ} {ref : ℕ} (h : s.JobInv id ref) {o : Observation}
    (hdigest : ¬ o.AnswersDigest id (s.readHeap ref).fileNum)
    (huser : ¬ o.UserAnswers id (s.readHeap ref).fileNum) : (s.observe o).JobInv id ref :=
  h.congr rfl (fun _ hserves => hserves.of_pump rfl) fun _ hwaiting =>
    waiting_append hwaiting (by simpa using hdigest) (by simpa using huser)

/-- An observation that answers nothing. -/
theorem Inv.observe (h : s.Inv) {o : Observation} (hdigest : ∀ id n, ¬ o.AnswersDigest id n)
    (huser : ∀ id n, ¬ o.UserAnswers id n) : (s.observe o).Inv :=
  ⟨h.keyed.observe o, fun id ref hget => (h.jobs id ref hget).observe (hdigest _ _) (huser _ _)⟩

/-- An observation about one id answers nothing for the others. -/
theorem Inv.observeAbout (h : s.Inv) {k : ℤ} {o : Observation}
    (hdigest : ∀ id n, id ≠ k → ¬ o.AnswersDigest id n)
    (huser : ∀ id n, id ≠ k → ¬ o.UserAnswers id n) : (s.observe o).InvBut k :=
  ⟨h.keyed.observe o, fun id ref hid hget =>
    (h.jobs id ref hget).observe (hdigest _ _ hid) (huser _ _ hid)⟩

/-! ## The operations -/

/-- A loop that fails on an open connection drops all jobs. -/
theorem failLoop_readJobs {id : ℤ} (text : String) (hclosing : s.closing = false)
    (hended : s.ftSessionEnded = false) : (s.failLoop text).readJobs.get? id = none := by
  have hcalm := calm_endFileTransferSession (s := (s.setLoop .ended).failActiveJobs
    "Connection lost") "Connection Error" text
  unfold failLoop
  rw [if_pos (by simp [hclosing, hended])]
  by_contra hsome
  obtain ⟨ref, hget⟩ := Option.ne_none_iff_exists'.mp hsome
  have hget' := hcalm.readJobs id ref hget
  simp [failActiveJobs, clearJobs] at hget'

/-- A well formed upload has a current file. -/
theorem wf_currentFile {job : ReadJob} (h : job.Wf) : job.currentFile ≠ none := by
  obtain ⟨file, hfile⟩ := Option.isSome_iff_exists.mp h.file
  simp [ReadJob.currentFile, hfile]

/-- With no pump, or a pump for another id, a job is inactive. -/
theorem JobInv.inactive {id : ℤ} {ref : ℕ} (h : s.JobInv id ref)
    (hpump : ∀ p, s.pump = some p → p.id ≠ id) : (s.readHeap ref).active = false := by
  by_contra hactive
  obtain ⟨p, hp, hid, -⟩ := h.active (by simpa using hactive)
  exact hpump p hp hid

/-- The pump returns: the jobs under its id must be inactive. -/
theorem InvBut.endPump {k : ℤ} (h : s.InvBut k) (hpump : ∀ p, s.pump = some p → p.id = k)
    (hk : ∀ ref, s.readJobs.get? k = some ref → (s.readHeap ref).Wf ∧
      (s.readHeap ref).active = false ∧ Waiting s.log k (s.readHeap ref).fileNum) :
    s.endPump.Inv := by
  have hheap : s.endPump.readHeap = s.readHeap := by
    unfold FtConnection.endPump
    split_ifs <;> rfl
  have hjobs : s.endPump.readJobs = s.readJobs := by
    unfold FtConnection.endPump
    split_ifs <;> rfl
  have hlog : s.endPump.log = s.log := by
    unfold FtConnection.endPump
    split_ifs <;> rfl
  refine ⟨h.keyed.endPump, fun id ref hget => ?_⟩
  rw [hjobs] at hget
  by_cases hid : id = k
  · subst hid
    obtain ⟨hwf, hinactive, hwaiting⟩ := hk ref hget
    refine ⟨by rwa [hheap], fun hactive => ?_, fun _ => by rwa [hheap, hlog]⟩
    rw [hheap, hinactive] at hactive
    cases hactive
  · have hjob := h.jobs id ref hid hget
    have hinactive := hjob.inactive fun p hp heq => hid (heq.symm.trans (hpump p hp))
    refine hjob.congr (by rw [hheap]) (fun hactive => ?_) fun _ hwaiting => by rwa [hlog]
    rw [hinactive] at hactive
    cases hactive

/-- The pump waits for the current object of its id, or for its timer. -/
theorem InvBut.setPump {k : ℤ} {p : Pump} (h : s.InvBut k) (hid : p.id = k)
    (hpump : ∀ q, s.pump = some q → q.id = k)
    (hkeyed : ∀ ref, p.phase.job? = some ref →
      ref < s.nextRead ∧ (s.readHeap ref).id = p.id)
    (hk : ∀ ref, s.readJobs.get? k = some ref → (s.readHeap ref).Wf ∧
      ((s.readHeap ref).active = true → ∀ ref', p.phase.job? = some ref' → ref' = ref) ∧
      ((s.readHeap ref).active = false → Waiting s.log k (s.readHeap ref).fileNum)) :
    (s.setPump (some p)).Inv := by
  refine ⟨h.keyed.setPump _ fun q ref hq href => ?_, fun id ref hget => ?_⟩
  · obtain rfl := Option.some.inj hq
    exact hkeyed ref href
  · by_cases hidk : id = k
    · subst hidk
      obtain ⟨hwf, hactive, hwaiting⟩ := hk ref hget
      exact ⟨hwf, fun ha => ⟨p, rfl, hid, hactive ha⟩, hwaiting⟩
    · have hjob := h.jobs id ref hidk hget
      have hinactive := hjob.inactive fun q hq heq => hidk (heq.symm.trans (hpump q hq))
      refine hjob.congr rfl (fun hactive => ?_) fun _ hwaiting => hwaiting
      rw [hinactive] at hactive
      cases hactive

/-- A turn of the pump finds an active job with a file, or returns. -/
theorem InvBut.pumpTurn {k : ℤ} (h : s.InvBut k) (hpump : ∀ p, s.pump = some p → p.id = k)
    (hk : ∀ ref, s.readJobs.get? k = some ref → (s.readHeap ref).Wf ∧
      ((s.readHeap ref).active = false → Waiting s.log k (s.readHeap ref).fileNum)) :
    (s.pumpTurn k).Inv := by
  rcases pumpTurn_cases s k with ⟨heq, hnone⟩ | ⟨ref, phase, hget, hactive, hphase, heq⟩
  · rw [heq]
    refine h.endPump hpump fun ref hget => ?_
    obtain ⟨hwf, hwaiting⟩ := hk ref hget
    have hinactive : (s.readHeap ref).active = false := by
      by_contra hactive
      exact wf_currentFile hwf (hnone ref hget (by simpa using hactive))
    exact ⟨hwf, hinactive, hwaiting hinactive⟩
  · rw [heq]
    refine h.setPump rfl hpump (fun ref' href => ?_) fun ref' hget' => ?_
    · obtain rfl := Option.some.inj (hphase.symm.trans href)
      exact h.keyed.jobs k ref hget
    · obtain rfl := Option.some.inj (hget.symm.trans hget')
      refine ⟨(hk ref hget).1, fun _ ref' href => ?_, (hk ref hget).2⟩
      exact Option.some.inj (href.symm.trans hphase)

/-- Objects other than the updated one are untouched, so other ids are too. -/
theorem InvBut.updateRead {k : ℤ} (h : s.InvBut k) {ref : ℕ} (href : (s.readHeap ref).id = k)
    (f : ReadJob → ReadJob) (hf : ∀ job, (f job).id = job.id) : (s.updateRead ref f).InvBut k := by
  refine ⟨h.keyed.updateRead ref f hf, fun id ref' hid hget => ?_⟩
  have hne : ref' ≠ ref := by
    rintro rfl
    exact hid ((h.keyed.jobs id ref' hget).2.symm.trans href)
  exact (h.jobs id ref' hid hget).congr (updateRead_other f hne)
    (fun _ hserves => hserves.of_pump rfl) fun _ hwaiting => hwaiting

/-- A finished file keeps the upload well formed. -/
theorem wf_addFinished {job : ReadJob} (h : job.Wf) (n : ℤ) : (job.addFinished n).Wf := by
  unfold ReadJob.addFinished
  split <;> exact ⟨h.file, h.files, h.fileNum⟩

/-- Turning to the next file keeps the upload well formed. -/
theorem wf_turnTo {job : ReadJob} (h : job.Wf) {n : ℤ} (hn : -1 ≤ n)
    (hmore : job.hasMore n = true) : (job.turnTo (n + 1)).Wf := by
  have hlt : n + 1 < job.files.length := by simpa [ReadJob.hasMore] using hmore
  refine ⟨at?_isSome (by omega) (by rw [h.files]; exact hlt), h.files, ?_⟩
  show -1 ≤ n + 1
  omega

/-- A digest that is queued waits for its answer. -/
theorem log_queueDigestForCurrentFile {ref : ℕ} (h : (s.readHeap ref).Wf) :
    DigestOpen (s.queueDigestForCurrentFile ref).log (s.readHeap ref).id
      (s.readHeap ref).fileNum := by
  obtain ⟨file, hfile⟩ := Option.ne_none_iff_exists'.mp (wf_currentFile h)
  unfold queueDigestForCurrentFile ReadJob.digest?
  rw [hfile]
  exact History.open_concat ⟨rfl, rfl⟩

/-- After a file the job waits for its next file, or is gone. -/
theorem InvBut.advanceUploadAfterFile {k : ℤ} (h : s.InvBut k) {ref : ℕ} {n : ℤ}
    (href : (s.readHeap ref).id = k)
    (hcurrent : s.readJobs.get? k = some ref → (s.readHeap ref).Wf ∧ -1 ≤ n)
    (hstale : ∀ ref', ref' ≠ ref → s.readJobs.get? k = some ref' → s.JobInv k ref') :
    (s.advanceUploadAfterFile k ref n).Inv ∧ (s.advanceUploadAfterFile k ref n).pump = s.pump ∧
      ∀ ref', (s.advanceUploadAfterFile k ref n).readJobs.get? k = some ref' →
        s.readJobs.get? k = some ref' ∧
        (ref' = ref → ((s.advanceUploadAfterFile k ref n).readHeap ref').active = false) ∧
        (ref' ≠ ref → (s.advanceUploadAfterFile k ref n).readHeap ref' = s.readHeap ref') := by
  have hadd := h.updateRead href (·.addFinished n) (addFinished_id n)
  have hwf : s.readJobs.get? k = some ref →
      ((s.updateRead ref (·.addFinished n)).readHeap ref).Wf := fun hget => by
    rw [updateRead_same]
    exact wf_addFinished (hcurrent hget).1 n
  have hid : ((s.updateRead ref (·.addFinished n)).readHeap ref).id = k := by
    rw [updateRead_id (addFinished_id n), href]
  have hother : ∀ ref', ref' ≠ ref →
      (s.updateRead ref (·.addFinished n)).readHeap ref' = s.readHeap ref' :=
    fun ref' hne => updateRead_other _ hne
  have hjobs : (s.updateRead ref (·.addFinished n)).readJobs = s.readJobs := rfl
  have hpump : (s.updateRead ref (·.addFinished n)).pump = s.pump := rfl
  have hlog : (s.updateRead ref (·.addFinished n)).log = s.log := rfl
  unfold FtConnection.advanceUploadAfterFile
  generalize s.updateRead ref (·.addFinished n) = added at *
  dsimp only
  split_ifs with hmore
  · have hturn := hadd.updateRead hid (·.turnTo (n + 1)) fun _ => rfl
    have hcalm := calm_queueDigestForCurrentFile (s := added.updateRead ref (·.turnTo (n + 1))) ref
    refine ⟨(hturn.calm hcalm).inv fun ref' hget => ?_, hcalm.pump.trans hpump,
      fun ref' hget => ?_⟩
    · have hget' : s.readJobs.get? k = some ref' := hjobs ▸ hcalm.readJobs k ref' hget
      by_cases hne : ref' = ref
      · subst hne
        have hwf' : ((added.updateRead ref' (·.turnTo (n + 1))).readHeap ref').Wf := by
          rw [updateRead_same]
          exact wf_turnTo (hwf hget') (hcurrent hget').2 hmore
        have hopen := log_queueDigestForCurrentFile hwf'
        refine ⟨by rwa [hcalm.readHeap], fun hactive => ?_, fun _ => ?_⟩
        · rw [hcalm.readHeap, updateRead_same] at hactive
          cases hactive
        · rw [hcalm.readHeap]
          rw [updateRead_same] at hopen ⊢
          have hid' : ((added.readHeap ref').turnTo (n + 1)).id = k := hid
          exact .inl (hid' ▸ hopen)
      · refine JobInv.calm ?_ hcalm
        refine (hstale ref' hne hget').congr ?_ (fun _ hserves => hserves.of_pump hpump)
          fun _ hwaiting => ?_
        · rw [updateRead_other _ hne, hother ref' hne]
        · show Waiting added.log _ _
          rwa [hlog]
    · refine ⟨hjobs ▸ hcalm.readJobs k ref' hget, ?_, fun hne => ?_⟩
      · rintro rfl
        rw [hcalm.readHeap, updateRead_same]
        rfl
      · rw [hcalm.readHeap, updateRead_other _ hne, hother ref' hne]
  · have hcalm := (calm_removeJob (s := added) k).trans (calm_ev (.jobDone k n))
    have hgone : ∀ ref', ((added.removeJob k).ev (.jobDone k n)).readJobs.get? k ≠ some ref' :=
      fun ref' => by simp [removeJob, FtConnection.ev, FtConnection.observe]
    exact ⟨(hadd.calm hcalm).inv fun ref' hget => absurd hget (hgone ref'),
      hcalm.pump.trans hpump, fun ref' hget => absurd hget (hgone ref')⟩

/-- The pump goes on with a block: at the end of a file, it returns. -/
theorem Inv.pumpBlock (h : s.Inv) {k : ℤ} {ref : ℕ} {data : List UInt8} {finished : Bool}
    (hpump : s.pump = some ⟨k, .returned ref data finished⟩) :
    (s.pumpBlock k ref data finished).Inv := by
  have hcalm := calm_queueBlock (s := s) k ref data
  have hblock := h.calm hcalm
  have hpump' := hcalm.pump.trans hpump
  unfold FtConnection.pumpBlock
  generalize s.queueBlock k ref data = block at hblock hpump'
  have href := (hblock.keyed.pump _ ref hpump' rfl).2
  have hk : ∀ p, block.pump = some p → p.id = k := fun p hp => by
    obtain rfl := Option.some.inj (hpump'.symm.trans hp)
    rfl
  -- an object the pump does not hold is inactive
  have hstale : ∀ ref', ref' ≠ ref → block.readJobs.get? k = some ref' →
      (block.readHeap ref').active = false := by
    intro ref' hne hget
    by_contra hactive
    obtain ⟨p, hp, -, hserves⟩ := (hblock.jobs k ref' hget).active (by simpa using hactive)
    obtain rfl := Option.some.inj (hpump'.symm.trans hp)
    exact hne (hserves ref rfl).symm
  dsimp only
  split_ifs with hfinished hmore
  · obtain ⟨hinv, hpumpA, hafter⟩ := (hblock.but k).advanceUploadAfterFile href
      (n := (block.readHeap ref).fileNum)
      (fun hget => ⟨(hblock.jobs k ref hget).wf, (hblock.jobs k ref hget).wf.fileNum⟩)
      (fun ref' _ hget => hblock.jobs k ref' hget)
    refine (hinv.but k).endPump (fun p hp => hk p (hpumpA ▸ hp)) fun ref' hget => ?_
    obtain ⟨hget', hsame, hother⟩ := hafter ref' hget
    have hinactive : ((block.advanceUploadAfterFile k ref
        (block.readHeap ref).fileNum).readHeap ref').active = false := by
      by_cases hne : ref' = ref
      · exact hsame hne
      · rw [hother hne]
        exact hstale ref' hne hget'
    have hjob := hinv.jobs k ref' hget
    exact ⟨hjob.wf, hinactive, hjob.waiting hinactive⟩
  · have hdone := calm_finishUpload (s := block) k (block.readHeap ref).fileNum
    refine ((hblock.calm hdone).but k).endPump (fun p hp => hk p (hdone.pump ▸ hp)) ?_
    intro ref' hget
    simp [finishUpload, removeJob, FtConnection.ev, FtConnection.observe] at hget
  · refine (hblock.but k).setPump rfl hk (fun ref' href => by cases href) fun ref' hget => ?_
    have hjob := hblock.jobs k ref' hget
    exact ⟨hjob.wf, fun _ ref' href => by (cases href), hjob.waiting⟩

/-- A read that fails must end the loop, or be for an inactive job. -/
theorem Inv.sliceRead (h : s.Inv) {k : ℤ} {ref : ℕ} {file : File} {data : List UInt8}
    (hpump : s.pump = some ⟨k, .reading ref file data⟩) {failure : Option String}
    (hok : s.Steady (.sliceRead failure)) : (s.sliceRead k ref file data failure).Inv := by
  have hk : ∀ p, s.pump = some p → p.id = k := fun p hp => by
    obtain rfl := Option.some.inj (hpump.symm.trans hp)
    rfl
  obtain ⟨hlt, href⟩ := h.keyed.pump _ ref hpump rfl
  have hserves : ∀ ref', s.readJobs.get? k = some ref' → (s.readHeap ref').active = true →
      ref' = ref := by
    intro ref' hget hactive
    obtain ⟨p, hp, -, hrest⟩ := (h.jobs k ref' hget).active hactive
    obtain rfl := Option.some.inj (hpump.symm.trans hp)
    exact (hrest ref rfl).symm
  cases failure with
  | none =>
    have hread := (h.but k).updateRead href (·.afterRead data) fun _ => rfl
    refine hread.setPump rfl hk (fun ref' href' => ?_) fun ref' hget => ?_
    · obtain rfl := Option.some.inj href'
      exact ⟨hlt, by rw [updateRead_same]; exact href⟩
    · have hjob := h.jobs k ref' hget
      by_cases hne : ref' = ref
      · subst hne
        rw [updateRead_same]
        exact ⟨⟨hjob.wf.file, hjob.wf.files, hjob.wf.fileNum⟩,
          fun _ ref'' href' => (Option.some.inj href').symm, hjob.waiting⟩
      · rw [updateRead_other _ hne]
        exact ⟨hjob.wf, fun hactive => absurd (hserves ref' hget hactive) hne, hjob.waiting⟩
  | some text =>
    have hstop : (∀ ref', s.readJobs.get? k = some ref' → (s.readHeap ref').active = false) →
        (s.setPump none).Inv := by
      intro hinactive
      refine ⟨h.keyed.setPump none fun _ _ hp => by (cases hp), fun id ref' hget => ?_⟩
      have hjob := h.jobs id ref' hget
      have hidle : (s.readHeap ref').active = false := by
        by_cases hid : id = k
        · exact hinactive ref' (hid ▸ hget)
        · exact hjob.inactive fun p hp heq => hid (heq.symm.trans (hk p hp))
      refine hjob.congr rfl (fun hactive => ?_) fun _ hwaiting => hwaiting
      rw [hidle] at hactive
      cases hactive
    unfold FtConnection.sliceRead
    dsimp only
    rcases hok with ⟨hloop, hclosing, hended⟩ | hinactive
    · rw [if_pos hloop]
      refine ⟨(h.keyed.setPump none fun _ _ hp => by (cases hp)).calm (calm_failLoop text), ?_⟩
      intro id ref' hget
      rw [failLoop_readJobs (s := s.setPump none) text hclosing hended] at hget
      cases hget
    · have hnone := hstop fun ref' hget => hinactive _ ref' hpump hget
      split_ifs
      · exact hnone.calm (calm_failLoop text)
      · exact hnone

/-- A new upload, announced by a message and its digest. -/
theorem Inv.startUpload (h : s.Inv) {job : ReadJob} (hwf : job.Wf) (hinactive : job.active = false)
    {u : FtConnection} (hcalm : (s.createUpload job).Calm u)
    (hopen : DigestOpen u.log job.id job.fileNum) : u.Inv := by
  have hcreated : (s.createUpload job).InvBut job.id := by
    refine ⟨h.keyed.createUpload job, fun id ref hid hget => ?_⟩
    have hget' : s.readJobs.get? id = some ref := by
      simpa [FtConnection.createUpload, hid] using hget
    have hlt := (h.keyed.jobs id ref hget').1
    refine (h.jobs id ref hget').congr ?_ (fun _ hserves => hserves.of_pump rfl)
      fun _ hwaiting => hwaiting
    exact if_neg (by omega)
  refine (hcreated.calm hcalm).inv fun ref hget => ?_
  have href : ref = s.nextRead := by
    have hget' := hcalm.readJobs _ _ hget
    simpa [FtConnection.createUpload, eq_comm] using hget'
  have hheap : u.readHeap ref = job := by
    rw [hcalm.readHeap, href]
    exact if_pos rfl
  refine ⟨by rwa [hheap], fun hactive => ?_, fun _ => ?_⟩
  · rw [hheap, hinactive] at hactive
    cases hactive
  · rw [hheap]
    exact .inl hopen

/-! ## Messages of the host and calls -/

/-- The jobs but one kept the invariant, and that one is activated under its pump. -/
theorem InvBut.activate {k : ℤ} (h : s.InvBut k) {ref : ℕ} (hget : s.readJobs.get? k = some ref)
    (hwf : (s.readHeap ref).Wf) (hserves : s.Serves k ref) :
    (s.updateRead ref .activate).Inv := by
  have href := (h.keyed.jobs k ref hget).2
  refine (h.updateRead href .activate fun _ => rfl).inv fun ref' hget' => ?_
  obtain rfl := Option.some.inj (hget.symm.trans hget')
  refine ⟨?_, fun _ => hserves.of_pump rfl, fun hactive => ?_⟩
  · rw [updateRead_same]
    exact ⟨hwf.file, hwf.files, hwf.fileNum⟩
  · rw [updateRead_same] at hactive
    cases hactive

/-- A confirmation keeps the upload well formed. -/
theorem wf_confirm {job : ReadJob} (h : job.Wf) (offsetBlk : ℕ) : (job.confirm offsetBlk).Wf := by
  unfold ReadJob.confirm
  dsimp only
  split_ifs <;> exact ⟨h.file, h.files, h.fileNum⟩

/-- The confirmation of the host lets its upload go on. -/
theorem Inv.onSendConfirm (h : s.Inv) {k n : ℤ} {skip : Bool} {offsetBlk : ℕ}
    (hok : s.Steady (.host (.sendConfirm k n skip offsetBlk))) :
    ((s.observe (.host (.sendConfirm k n skip offsetBlk))).onHostMessage
      (.sendConfirm k n skip offsetBlk)).Inv := by
  have hbut : (s.observe (.host (.sendConfirm k n skip offsetBlk))).InvBut k :=
    h.observeAbout (fun id m hid hanswers => hid hanswers.1.symm) fun _ _ _ hanswers => hanswers
  simp only [onHostMessage, handleSendConfirm]
  split
  · rename_i hget
    refine hbut.inv fun ref hget' => ?_
    rw [hget] at hget'
    cases hget'
  · rename_i ref hget
    have hjob := h.jobs k ref hget
    have href := (h.keyed.jobs k ref hget).2
    have hok := hok ref hget
    split_ifs with hskip hpump
    · rw [if_pos hskip] at hok
      refine (hbut.advanceUploadAfterFile href (fun _ => ⟨hjob.wf, hok⟩) ?_).1
      intro ref' hne hget'
      exact absurd (Option.some.inj (hget'.symm.trans hget)) hne
    · rw [if_neg hskip] at hok
      have hserves : s.Serves k ref := hok.resolve_left fun hnone => by
        have hsome : s.pump.isSome = true := hpump
        simp [hnone] at hsome
      refine (hbut.updateRead href (·.confirm offsetBlk) (confirm_id offsetBlk)).inv ?_
      intro ref' hget'
      obtain rfl := Option.some.inj (hget.symm.trans hget')
      refine ⟨?_, fun _ => hserves.of_pump rfl, fun hactive => ?_⟩
      · rw [updateRead_same]
        exact wf_confirm hjob.wf offsetBlk
      · rw [updateRead_same, confirm_active] at hactive
        cases hactive
    · have hnone : s.pump = none := Option.not_isSome_iff_eq_none.mp hpump
      refine ((hbut.updateRead href (·.confirm offsetBlk) (confirm_id offsetBlk)).calm
        (calm_setLoop .awaitingPump)).pumpTurn (fun p hp => ?_) fun ref' hget' => ?_
      · have hp' : s.pump = some p := hp
        rw [hnone] at hp'
        cases hp'
      · obtain rfl := Option.some.inj (hget.symm.trans hget')
        have hheap : (((s.observe (.host (.sendConfirm k n skip offsetBlk))).updateRead ref
            (·.confirm offsetBlk)).setLoop .awaitingPump).readHeap ref =
            (s.readHeap ref).confirm offsetBlk :=
          updateRead_same (s := s.observe (.host (.sendConfirm k n skip offsetBlk))) ref
            (·.confirm offsetBlk)
        rw [hheap]
        refine ⟨wf_confirm hjob.wf offsetBlk, fun hactive => ?_⟩
        rw [confirm_active] at hactive
        cases hactive

/-- A confirmation sent for an upload activates it, under its pump. -/
theorem InvBut.sendConfirm {k : ℤ} (h : s.InvBut k) (n : ℤ) (offsetBlk : ℕ)
    (hk : ∀ ref, s.readJobs.get? k = some ref → (s.readHeap ref).Wf ∧ s.Serves k ref) :
    (s.sendConfirm k n false offsetBlk).Inv := by
  have hcalm := calm_sendMessage (s := s) (.sendConfirm k n false offsetBlk)
  have hsent := h.calm hcalm
  unfold FtConnection.sendConfirm
  generalize s.sendMessage (.sendConfirm k n false offsetBlk) = sent at hsent hcalm
  dsimp only
  split
  · rename_i ref hget
    obtain ⟨hwf, hserves⟩ := hk ref (hcalm.readJobs k ref hget)
    exact hsent.activate hget (hcalm.readHeap ▸ hwf) (hserves.of_pump hcalm.pump)
  · rename_i hnone
    refine hsent.inv fun ref hget => ?_
    rw [hnone] at hget
    cases hget

/-- The digest of the host is answered or asked about. -/
theorem Inv.onDigest (h : s.Inv) {k n : ℤ} {isUpload isIdentical : Bool}
    (hok : s.Steady (.host (.digest k n isUpload isIdentical))) :
    ((s.observe (.host (.digest k n isUpload isIdentical))).onHostMessage
      (.digest k n isUpload isIdentical)).Inv := by
  have hbut : (s.observe (.host (.digest k n isUpload isIdentical))).InvBut k :=
    h.observeAbout (fun id m hid hanswers => hid hanswers.1.symm) fun _ _ _ hanswers => hanswers
  cases isUpload with
  | true =>
    -- the question takes the place of the digest it answers
    have hinv : (s.observe (.host (.digest k n true isIdentical))).Inv := by
      refine hbut.inv fun ref hget => ?_
      have hjob := h.jobs k ref hget
      by_cases hn : (s.readHeap ref).fileNum = n
      · exact hjob.congr rfl (fun _ hserves => hserves.of_pump rfl) fun _ _ =>
          .inr (History.open_concat ⟨rfl, hn.symm, rfl⟩)
      · exact hjob.observe (fun hanswers => hn hanswers.2.symm) fun hanswers => hanswers
    simp only [onHostMessage, handleDigest]
    split
    · exact hinv
    · split_ifs <;> exact hinv.calm (calm_ev _)
  | false =>
    simp only [onHostMessage, handleDigest]
    split
    · rename_i hnone
      refine hbut.inv fun ref hget => ?_
      have hget' : s.readJobs.get? k = some ref := hget
      simp [FtConnection.observe, hget'] at hnone
    · rw [if_neg (by simp)]
      exact hbut.sendConfirm n 0 fun ref hget =>
        ⟨(h.jobs k ref hget).wf, (hok rfl ref hget).of_pump rfl⟩

/-- A message of the host leaves all uploads able to go on. -/
theorem Inv.onHostMessage (h : s.Inv) {m : HostMessage} (hok : s.Steady (.host m)) :
    ((s.observe (.host m)).onHostMessage m).Inv := by
  cases m with
  | sendConfirm k n skip offsetBlk => exact h.onSendConfirm hok
  | digest k n isUpload isIdentical => exact h.onDigest hok
  | dir k path entries =>
    refine Inv.calm ?_ (calm_handleDir k path entries)
    exact h.observe (fun _ _ h => h) fun _ _ h => h
  | emptyDirs path dirs =>
    refine Inv.calm ?_ (calm_ev (.emptyDirs path dirs))
    exact h.observe (fun _ _ h => h) fun _ _ h => h
  | block k n data compressed =>
    refine Inv.calm ?_ (calm_handleBlock k n data compressed)
    exact h.observe (fun _ _ h => h) fun _ _ h => h
  | done k n =>
    refine Inv.calm ?_ (calm_handleDone k n)
    exact h.observe (fun _ _ h => h) fun _ _ h => h
  | error k n err =>
    refine Inv.calm ?_ (calm_handleError k n err)
    exact h.observe (fun _ _ h => h) fun _ _ h => h
  | loginError text =>
    refine Inv.calm ?_ (calm_endFileTransferSession _ text)
    exact h.observe (fun _ _ h => h) fun _ _ h => h
  | other => exact h.observe (fun _ _ h => h) fun _ _ h => h

/-- A new upload of a plan is well formed. -/
theorem wf_new {id : ℤ} {localPath remotePath : String} {n : ℤ} {files : List File}
    {entries : List FileEntry} {totalSize : ℕ} {includeHidden : Bool} (hfiles : files ≠ [])
    (hlength : files.length = entries.length) (hn : -1 ≤ n) :
    (ReadJob.new id localPath remotePath n files entries totalSize includeHidden).Wf := by
  refine ⟨?_, hlength, hn⟩
  obtain ⟨file, rest, rfl⟩ := List.exists_cons_of_ne_nil hfiles
  simp [ReadJob.new]

/-- A transfer that is asked for can go on. -/
theorem Inv.sendFiles (h : s.Inv) {k n : ℤ} (path toPath : String) (includeHidden : Bool)
    {isRemote : Bool} (isDir : Bool) (hn : isRemote = false → -1 ≤ n) :
    (s.sendFiles k path toPath n includeHidden isRemote isDir).Inv := by
  unfold FtConnection.sendFiles
  dsimp only
  split_ifs with hremote
  · exact h.calm (calm_pushDownload _)
  · exact (h.calm (calm_pushDownload _)).calm calm_nextDownload
  · split
    · exact h.calm (calm_pushJobError _ _ _)
    · rename_i file hget
      refine h.startUpload (wf_new (by simp) rfl (hn (by simpa using hremote))) rfl
        ((calm_queueMessage _).trans (calm_queueMessage _)) ?_
      exact History.open_concat ⟨rfl, rfl⟩

/-- The upload of a folder can go on. -/
theorem Inv.sendFolderUpload (h : s.Inv) (k : ℤ) (plan : Option FolderUploadPlan)
    (toPath : String) (includeHidden : Bool) :
    (s.sendFolderUpload k plan toPath includeHidden).Inv := by
  cases plan with
  | none => exact h.calm (calm_pushJobError _ _ _)
  | some plan =>
    let entries := plan.relativeNames.zipWith FileEntry.ofFile plan.files
    let job := ReadJob.new k plan.folderName toPath 0 plan.files entries plan.totalSize
      includeHidden
    have hwf : job.Wf := by
      refine wf_new plan.files_ne_nil ?_ (by omega)
      simp [entries, plan.names_length]
    let announced := (s.createUpload job).queueMessage (.receive k toPath entries 0 plan.totalSize)
    have hheap : announced.readHeap s.nextRead = job := if_pos rfl
    have hopen := log_queueDigestForCurrentFile (s := announced) (hheap.symm ▸ hwf)
    rw [hheap] at hopen
    exact h.startUpload hwf rfl
      ((calm_queueMessage _).trans (calm_queueDigestForCurrentFile s.nextRead)) hopen

/-- A resumption under a free pump starts it, under its own pump it changes nothing. -/
theorem Inv.resumeUpload (h : s.Inv) {k : ℤ} {ref : ℕ} (hget : s.readJobs.get? k = some ref)
    (hok : s.pump = none ∨ s.Serves k ref) :
    ((s.updateRead ref .activate).pumpUploadBlocks k).Inv := by
  have hjob := h.jobs k ref hget
  unfold pumpUploadBlocks
  split_ifs with hpump
  · refine (h.but k).activate hget hjob.wf (hok.resolve_left fun hnone => ?_)
    have hsome : s.pump.isSome = true := hpump
    simp [hnone] at hsome
  · have hnone : s.pump = none := Option.not_isSome_iff_eq_none.mp hpump
    have href := (h.keyed.jobs k ref hget).2
    refine ((h.but k).updateRead href .activate fun _ => rfl).pumpTurn (fun p hp => ?_)
      fun ref' hget' => ?_
    · have hp' : s.pump = some p := hp
      rw [hnone] at hp'
      cases hp'
    · obtain rfl := Option.some.inj (hget.symm.trans hget')
      rw [updateRead_same]
      exact ⟨⟨hjob.wf.file, hjob.wf.files, hjob.wf.fileNum⟩, fun hactive => by cases hactive⟩

/-- The answer of the user lets its upload go on. -/
theorem Inv.onConfirmOverride (h : s.Inv) {k n : ℤ} {needOverride isUpload : Bool}
    (hok : s.Steady (.call (.confirmOverrideFile k n needOverride isUpload))) :
    ((s.observe (.call (.confirmOverrideFile k n needOverride isUpload))).onCall
      (.confirmOverrideFile k n needOverride isUpload)).Inv := by
  have hbut : (s.observe (.call (.confirmOverrideFile k n needOverride isUpload))).InvBut k :=
    h.observeAbout (fun _ _ _ hanswers => hanswers) fun id m hid hanswers => hid hanswers.1.symm
  simp only [onCall, confirmOverrideFile]
  cases needOverride with
  | true =>
    have hserves : ∀ ref, s.readJobs.get? k = some ref → s.Serves k ref :=
      fun ref hget => by simpa using hok ref hget
    have hconfirmed := hbut.sendConfirm n 0 fun ref hget =>
      ⟨(h.jobs k ref hget).wf, (hserves ref hget).of_pump rfl⟩
    obtain ⟨hpump, hjobs⟩ := sendConfirm_frame
      (s.observe (.call (.confirmOverrideFile k n true isUpload))) k n false 0
    split_ifs
    · split
      · rename_i ref hget
        exact (hconfirmed.but k).activate hget (hconfirmed.jobs k ref hget).wf
          ((hserves ref (hjobs ▸ hget)).of_pump hpump)
      · exact hconfirmed
    · exact hconfirmed
  | false =>
    rw [if_neg (by simp)]
    have hinv : (s.observe (.call (.confirmOverrideFile k n false isUpload))).Inv := by
      refine hbut.inv fun ref hget => ?_
      have hjob := h.jobs k ref hget
      have hok := hok ref hget
      simp only [Bool.false_eq_true, if_false] at hok
      refine hjob.congr rfl (fun _ hserves => hserves.of_pump rfl) fun hinactive hwaiting => ?_
      rcases hok with hactive | hother | hopen
      · rw [hinactive] at hactive
        cases hactive
      · exact waiting_append hwaiting (by simp [Observation.AnswersDigest])
          (by simpa [Observation.UserAnswers] using hother)
      · exact .inl (hopen.append (by simp [Observation.AnswersDigest]))
    have hskip : ∀ u : FtConnection, u.sendConfirm k n true 0 =
        u.sendMessage (.sendConfirm k n true 0) := fun u => by
      unfold FtConnection.sendConfirm
      dsimp only
      split <;> rfl
    rw [Bool.not_false, hskip]
    exact hinv.calm (calm_sendMessage _)

/-- A call of the interface leaves all uploads able to go on. -/
theorem Inv.onCall (h : s.Inv) {c : BridgeCall} (hok : s.Steady (.call c)) :
    ((s.observe (.call c)).onCall c).Inv := by
  cases c with
  | confirmOverrideFile k n needOverride isUpload => exact h.onConfirmOverride hok
  | sendFiles k path toPath n includeHidden isRemote isDir =>
    refine Inv.sendFiles ?_ path toPath includeHidden isDir hok
    exact h.observe (fun _ _ h => h) fun _ _ h => h
  | sendLocalFiles k picked path toPath n includeHidden isRemote =>
    have hobserved : (s.observe (.call (.sendLocalFiles k picked path toPath n includeHidden
      isRemote))).Inv := h.observe (fun _ _ h => h) fun _ _ h => h
    cases picked with
    | none => exact hobserved.calm (calm_pushJobError _ _ _)
    | some file =>
      exact (hobserved.calm (calm_setPending k file)).sendFiles path toPath includeHidden false hok
  | sendFolderUpload k plan toPath includeHidden =>
    refine Inv.sendFolderUpload ?_ k plan toPath includeHidden
    exact h.observe (fun _ _ h => h) fun _ _ h => h
  | addJob k path toPath n includeHidden isRemote =>
    have hobserved : (s.observe (.call (.addJob k path toPath n includeHidden isRemote))).Inv :=
      h.observe (fun _ _ h => h) fun _ _ h => h
    simp only [FtConnection.onCall, addJob]
    split_ifs with hremote
    · exact hobserved.calm (calm_createDownload _)
    · have hnone : s.pendingUploads.get? k = none := hok (by simpa using hremote)
      simpa [FtConnection.observe, hnone] using hobserved
  | resumeJob k isRemote =>
    have hobserved : (s.observe (.call (.resumeJob k isRemote))).Inv :=
      h.observe (fun _ _ h => h) fun _ _ h => h
    simp only [FtConnection.onCall, resumeJob]
    split_ifs with hremote
    · split
      · exact hobserved.calm (calm_pushResuming _)
      · exact hobserved
    · split
      · rename_i ref hget
        split_ifs
        · exact hobserved.resumeUpload hget ((hok (by simpa using hremote) ref hget).imp
            (fun hnone => hnone) fun hserves => hserves.of_pump rfl)
        · exact hobserved
      · exact hobserved
  | readRemoteDir path includeHidden =>
    refine Inv.calm ?_ (calm_queueMessage _)
    exact h.observe (fun _ _ h => h) fun _ _ h => h
  | cancelJob k =>
    refine Inv.calm ?_ (calm_cancelJob k)
    exact h.observe (fun _ _ h => h) fun _ _ h => h
  | removeFile k path n isRemote =>
    refine Inv.calm ?_ (calm_remoteOrDone _ _ _ _)
    exact h.observe (fun _ _ h => h) fun _ _ h => h
  | createDir k path isRemote =>
    refine Inv.calm ?_ (calm_remoteOrDone _ _ _ _)
    exact h.observe (fun _ _ h => h) fun _ _ h => h
  | renameFile k path newName isRemote =>
    refine Inv.calm ?_ (calm_remoteOrDone _ _ _ _)
    exact h.observe (fun _ _ h => h) fun _ _ h => h
  | readDirToRemoveRecursive k path isRemote showHidden =>
    refine Inv.calm ?_ (calm_sendRemote isRemote _)
    exact h.observe (fun _ _ h => h) fun _ _ h => h
  | removeAllEmptyDirs k path isRemote =>
    refine Inv.calm ?_ (calm_sendRemote isRemote _)
    exact h.observe (fun _ _ h => h) fun _ _ h => h
  | readEmptyDirs path includeHidden =>
    refine Inv.calm ?_ (calm_sendMessage _)
    exact h.observe (fun _ _ h => h) fun _ _ h => h

/-! ## Runs -/

/-- **One step.** -/
theorem Inv.step {decompress : List UInt8 → Option (List UInt8)} {e : FtEvent} (h : s.Inv)
    (hok : s.Steady e) (hstep : s.step decompress e = some t) : t.Inv := by
  cases performed_of_step hstep with
  | prepare => exact h.calm calm_startMessagePump
  | connected => exact h.calm calm_connectRelay
  | host m => exact h.onHostMessage hok
  | disconnected text => exact (h.calm calm_loseSocket).calm (calm_failLoop text)
  | flush => exact h.calm calm_flush
  | sliceRead failure hpump => exact h.sliceRead hpump hok
  | pumpContinues hpump => exact h.pumpBlock hpump
  | timer hpump =>
    refine (h.but _).pumpTurn (fun p hp => ?_) fun ref hget =>
      ⟨(h.jobs _ ref hget).wf, (h.jobs _ ref hget).waiting⟩
    obtain rfl := Option.some.inj (hpump.symm.trans hp)
    rfl
  | decompressed => exact (h.calm (calm_setLoop _)).calm (calm_appendBytes _ _ _ _)
  | undecodable => exact (h.calm (calm_setLoop _)).calm (calm_pushJobError _ _ _)
  | written => exact (h.calm (calm_setLoop _)).calm (calm_blockWritten _ _ _ _)
  | notWritten err => exact (h.calm (calm_setLoop _)).calm (calm_pushJobError _ _ _)
  | finalized failure => exact (h.calm (calm_setLoop _)).calm (calm_finalized _ _ _ _ _)
  | startPicked pick => exact (h.calm (calm_startPicked _ _ pick)).calm calm_nextDownload
  | resumePicked i pick => exact (h.calm (calm_dropResuming i)).calm (calm_resumePicked _ pick)
  | call c => exact h.onCall hok
  | removeSession => exact (h.calm calm_close).calm calm_unregister
  | endSession title text => exact h.calm (calm_endFileTransferSession title text)

/-- A new connection has no upload to strand. -/
theorem inv_new (registered : Bool) : (FtConnection.new registered).Inv :=
  ⟨keyed_new registered, fun _ _ h => by simp [FtConnection.new] at h⟩

/-- **No stranded upload.** In a run whose steps are steady, whenever no pump is running every
upload is inactive and waits for the host or for the user. -/
theorem notStranded_of_steady (decompress : List UInt8 → Option (List UInt8)) (registered : Bool)
    {events : List FtEvent} {s : FtConnection}
    (hrun : (ftMachine decompress registered).RunWhere Steady (.new registered) events s) :
    s.NotStranded :=
  (hrun.invariant (fun _ _ _ hok hstep h => Inv.step h hok hstep) (inv_new registered)).notStranded

/-- A confirmed upload of one file, and another one that waits for its confirmation. -/
def demoTwoUploads : List FtEvent :=
  demoUpload ++ [.host (.sendConfirm 1 0 false 0), .sliceRead none, .pumpContinues,
    .call (.sendLocalFiles 2 (some ⟨"b.txt", [], 0⟩) "b.txt" "/tmp/b.txt" 0 false false)]

/-- Two uploads, the second of which waits while the pump rests. -/
theorem notStranded_two_uploads :
    ∃ s, demoMachine.Run demoMachine.init demoTwoUploads s ∧ s.pump = none ∧
      s.readJobs.get? 2 = some 1 ∧ s.NotStranded := by
  have hn : (-1 : ℤ) ≤ 0 := by decide
  have hrun : demoMachine.RunWhere Steady demoMachine.init demoTwoUploads
      (demoRun demoTwoUploads) :=
    .cons trivial rfl <| .cons trivial rfl <| .cons (fun _ => hn) rfl <|
      .cons (fun _ _ => .inl rfl) rfl <| .cons trivial rfl <| .cons trivial rfl <|
      .single (fun _ => hn) rfl
  exact ⟨_, hrun.run, rfl, rfl, notStranded_of_steady (fun _ => none) true hrun⟩

/-- The user overrides the file on the host: the job is active and nothing pumps it. -/
theorem stranded_override :
    ∃ s, demoMachine.Run demoMachine.init (demoUpload ++ [.host (.digest 1 0 true false),
        .call (.confirmOverrideFile 1 0 true true)]) s ∧
      s.pump = none ∧ s.readJobs.get? 1 = some 0 ∧ (s.readHeap 0).active = true ∧
      ¬ s.NotStranded :=
  ⟨_, Machine.run_of_replay rfl, rfl, rfl, rfl, fun h => by cases (h rfl 1 0 rfl).1⟩

end FtConnection

end RdWeb.FileTransfer
