import RdWeb.FileTransfer.UploadRuns

/-!
# How an upload starts

The calls that start an upload, with one file or with the plan of a folder, and what is
queued for it at once.
-/

namespace RdWeb.FileTransfer

namespace Upload

/-- The upload of one file, as `sendFiles` and `addJob` create it. -/
def ofFile (s : FtConnection) (id : ℤ) (toPath : String) {n : ℤ} (hpos : 0 ≤ n) (file : File) :
    Upload where
  id := id
  ref := s.nextRead
  base := s.log
  receive := .receive id toPath [.ofFile "" file] n file.size
  unsent := []
  files := [file]
  count := 1
  first := (n, file)
  rest := []
  follows := by
    have hlast : ¬ n + 1 < (1 : ℕ) := by omega
    exact hlast

/-- `addJob` queues nothing. -/
def silent (up : Upload) : Upload := { up with unsent := [up.receive, up.first.digest up.id] }

/-- The upload of a folder, as `sendFolderUpload` creates it. -/
def ofPlan (s : FtConnection) (id : ℤ) (toPath : String) (plan : FolderUploadPlan) : Upload where
  id := id
  ref := s.nextRead
  base := s.log
  receive := .receive id toPath (plan.relativeNames.zipWith FileEntry.ofFile plan.files) 0
    plan.totalSize
  unsent := []
  files := plan.files
  count := plan.files.length
  first := (0, plan.files.head plan.files_ne_nil)
  rest := numberFrom 1 plan.files.tail
  follows := by
    have hnumbered :=
      follows_numberFrom [plan.files.head plan.files_ne_nil] plan.files.tail
    rwa [List.singleton_append, List.cons_head_tail] at hnumbered

end Upload

/-- A message that announces an upload. -/
def OutMessage.Announces (id : ℤ) : OutMessage → Prop
  | .receive id' .. | .digest id' .. => id' = id
  | _ => False

/-- A call starts an upload. -/
inductive BridgeCall.Begins (s : FtConnection) : BridgeCall → Upload → Prop
  | sendFiles {id n : ℤ} {path toPath : String} {includeHidden isDir : Bool} {file : File}
      (hpos : 0 ≤ n) (hpending : s.pendingUploads.get? id = some file) :
      Begins s (.sendFiles id path toPath n includeHidden false isDir)
        (.ofFile s id toPath hpos file)
  | sendLocalFiles {id n : ℤ} {path toPath : String} {includeHidden : Bool} {file : File}
      (hpos : 0 ≤ n) :
      Begins s (.sendLocalFiles id (some file) path toPath n includeHidden false)
        (.ofFile s id toPath hpos file)
  | sendFolderUpload {id : ℤ} {plan : FolderUploadPlan} {toPath : String} {includeHidden : Bool} :
      Begins s (.sendFolderUpload id (some plan) toPath includeHidden) (.ofPlan s id toPath plan)
  | addJob {id n : ℤ} {path toPath : String} {includeHidden : Bool} {file : File}
      (hpos : 0 ≤ n) (hpending : s.pendingUploads.get? id = some file) :
      Begins s (.addJob id path toPath n includeHidden false)
        (Upload.ofFile s id toPath hpos file).silent

namespace Upload

variable {up : Upload} {d : Prop} {s t : FtConnection}

/-- The job of one file. -/
theorem jobAt_ofFile (s : FtConnection) (id : ℤ) (path toPath : String) {n : ℤ} (hpos : 0 ≤ n)
    (file : File) (includeHidden : Bool) :
    (ofFile s id toPath hpos file).JobAt
      (.new id path toPath n [file] [.ofFile "" file] file.size includeHidden) (n, file) [] where
  id := rfl
  files := rfl
  count := rfl
  fileNum := rfl
  current := by
    have hfile : (at? [file] n).or (some file) = some file := by
      unfold at?
      rw [if_pos hpos]
      cases hnum : n.toNat with
      | zero => rfl
      | succ k => rfl
    simp only [ReadJob.currentFile, ReadJob.new, List.head?_cons, hfile, Option.some_or]
  follows := (ofFile s id toPath hpos file).follows

/-- The job of a folder. -/
theorem jobAt_ofPlan (s : FtConnection) (id : ℤ) (toPath : String) (plan : FolderUploadPlan)
    (includeHidden : Bool) :
    (ofPlan s id toPath plan).JobAt
      (.new id plan.folderName toPath 0 plan.files
        (plan.relativeNames.zipWith FileEntry.ofFile plan.files) plan.totalSize includeHidden)
      (0, plan.files.head plan.files_ne_nil) (numberFrom 1 plan.files.tail) where
  id := rfl
  files := rfl
  count := by
    have hnames := plan.names_length
    simp only [ReadJob.new, ofPlan, List.length_zipWith]
    omega
  fileNum := rfl
  current := by
    have hhead : plan.files.head? = some (plan.files.head plan.files_ne_nil) :=
      List.head?_eq_some_head plan.files_ne_nil
    have hzero : at? plan.files 0 = plan.files.head? := by simp [at?, List.head?_eq_getElem?]
    simp only [ReadJob.currentFile, ReadJob.new, hzero, hhead, Option.some_or]
  follows := (ofPlan s id toPath plan).follows

/-- The silent upload has the same job. -/
theorem JobAt.silent {job : ReadJob} {f : Listed} {rest : List Listed}
    (h : up.JobAt job f rest) : up.silent.JobAt job f rest :=
  ⟨h.id, h.files, h.count, h.fileNum, h.current, h.follows⟩

/-- Queueing some messages. -/
theorem queueMessages_frame (messages : List OutMessage) (s : FtConnection) :
    (messages.foldl FtConnection.queueMessage s).log = s.log ++ messages.map .queued ∧
      (messages.foldl FtConnection.queueMessage s).readHeap = s.readHeap ∧
      (messages.foldl FtConnection.queueMessage s).nextRead = s.nextRead ∧
      (messages.foldl FtConnection.queueMessage s).readJobs = s.readJobs ∧
      (messages.foldl FtConnection.queueMessage s).pump = s.pump := by
  induction messages generalizing s with
  | nil => simp
  | cons m messages ih =>
    obtain ⟨hlog, hframe⟩ := ih (s.queueMessage m)
    refine ⟨?_, hframe⟩
    rw [List.foldl_cons, hlog]
    simp [FtConnection.queueMessage, FtConnection.observe]

/-- A job is created and announced, and its first file waits for its answer. -/
theorem tracks_created {c : BridgeCall} {announced : List OutMessage} {job : ReadJob}
    (hc : ∀ n, (Observation.call c).answer? up.id n = none)
    (hplain : ∀ m ∈ announced, m.Announces up.id)
    (hannounced : up.unsent ++ announced = [up.receive, up.first.digest up.id])
    (hjob : up.JobAt job up.first up.rest)
    (hwaits : job.active = false ∧ job.offset = 0 ∧ job.blkId = 0)
    (hlog : s.log = up.base ++ [.call c]) (hnext : s.nextRead = up.ref)
    (hresting : PumpPhase.Resting (s.phaseOf up.id)) :
    up.Tracks d (announced.foldl FtConnection.queueMessage (s.createUpload job)) := by
  obtain ⟨htlog, htheap, htnext, htjobs, htpump⟩ :=
    queueMessages_frame announced (s.createUpload job)
  generalize announced.foldl FtConnection.queueMessage (s.createUpload job) = t at *
  have htlog' : t.log = up.base ++ .call c :: announced.map .queued := by
    simp [htlog, FtConnection.createUpload, hlog]
  have hsince : up.since t = .call c :: announced.map .queued := by
    rw [since, htlog', List.drop_left]
  have hheap : up.job t = job := by simp [Upload.job, htheap, FtConnection.createUpload, hnext]
  have hlive : up.Live t := by
    simp [Live, htjobs, FtConnection.createUpload, hjob.id, hnext]
  have hphase : PumpPhase.Resting (t.phaseOf up.id) := by
    rw [FtConnection.phaseOf, htpump]
    exact hresting
  have hanswer (n : ℤ) : answer? up.id n (up.since t) = none := by
    rw [hsince, answer?, List.findSome?_cons, hc]
    exact answer?_map_queued up.id n announced
  have hids (m : OutMessage) (hmem : m ∈ announced) : m.id? = some up.id := by
    have hm := hplain m hmem
    cases m with
    | receive => exact congrArg some hm
    | digest => exact congrArg some hm
    | _ => exact hm.elim
  have hqueued : queuedAbout up.id (up.since t) = announced := by
    rw [hsince, queuedAbout, List.filterMap_cons_none (by rfl)]
    exact queuedAbout_map_queued hids
  have hconfirmed : History.Grounded (Earned up.id) (up.since t) := by
    rw [hsince]
    apply History.grounded_of_forall
    rintro o hmem before n data compressed blkId rfl
    have hblock : OutMessage.block up.id n data compressed blkId ∈ announced := by
      simpa using hmem
    exact (hplain _ hblock).elim
  obtain ⟨hactive, hoffset, hblkId⟩ := hwaits
  rw [← hheap] at hactive hoffset hblkId hjob
  refine ⟨htlog' ▸ List.prefix_append _ _, by simp [htnext, FtConnection.createUpload, hnext],
    [], up.first, up.rest, [], rfl, hjob, fun _ m _ => hanswer m, fun g hmem => (by cases hmem),
    ?_, hconfirmed, ?_⟩
  · rw [view, hqueued, hannounced]
    rfl
  · exact .waiting hactive hoffset hblkId hphase (.inl hlive) fun _ => hanswer up.first.1

/-- `sendFiles` with a local file. -/
theorem tracks_sendFiles {c : BridgeCall} {id n : ℤ} {path toPath : String} {file : File}
    (hc : ∀ n, (Observation.call c).answer? id n = none) (hpos : 0 ≤ n)
    (includeHidden isDir : Bool) {s' : FtConnection} (hlog : s'.log = s.log ++ [.call c])
    (hnext : s'.nextRead = s.nextRead) (hresting : PumpPhase.Resting (s'.phaseOf id))
    (hpending : s'.pendingUploads.get? id = some file) :
    (ofFile s id toPath hpos file).Tracks d
      (s'.sendFiles id path toPath n includeHidden false isDir) := by
  have hplain : ∀ m ∈ [OutMessage.receive id toPath [.ofFile "" file] n file.size,
      .digest id n file.size file.modifiedTime], m.Announces id := by
    simp [OutMessage.Announces]
  have hcreated := tracks_created (d := d) hc hplain rfl
    (jobAt_ofFile s id path toPath hpos file includeHidden)
    ⟨rfl, rfl, rfl⟩ hlog hnext hresting
  simp only [FtConnection.sendFiles, Bool.false_eq_true, if_false, hpending]
  exact hcreated

/-- `sendFolderUpload` with a plan. -/
theorem tracks_sendFolderUpload {id : ℤ} {toPath : String} (plan : FolderUploadPlan)
    (includeHidden : Bool) {c : BridgeCall} (hc : ∀ n, (Observation.call c).answer? id n = none)
    {s' : FtConnection} (hlog : s'.log = s.log ++ [.call c])
    (hnext : s'.nextRead = s.nextRead) (hresting : PumpPhase.Resting (s'.phaseOf id)) :
    (ofPlan s id toPath plan).Tracks d
      (s'.sendFolderUpload id (some plan) toPath includeHidden) := by
  have hjob := jobAt_ofPlan s id toPath plan includeHidden
  have hplain : ∀ m ∈ [(ofPlan s id toPath plan).receive,
      (ofPlan s id toPath plan).first.digest id], m.Announces id := by
    simp [OutMessage.Announces, ofPlan, Listed.digest]
  have hcreated := tracks_created (d := d) hc hplain rfl hjob ⟨rfl, rfl, rfl⟩ hlog hnext hresting
  have hdigest (t : FtConnection) (hheap : t.readHeap s'.nextRead = .new id plan.folderName toPath
      0 plan.files (plan.relativeNames.zipWith FileEntry.ofFile plan.files) plan.totalSize
      includeHidden) : t.queueDigestForCurrentFile s'.nextRead =
        t.queueMessage ((ofPlan s id toPath plan).first.digest id) := by
    rw [FtConnection.queueDigestForCurrentFile, hheap, hjob.digest]
    rfl
  simp only [FtConnection.sendFolderUpload]
  rw [hdigest _ (if_pos rfl)]
  exact hcreated

/-- No pump holds a block for an id that is new. -/
theorem resting_of_new {id : ℤ} (hkeyed : s.Keyed)
    (hnew : ∀ ref < s.nextRead, (s.readHeap ref).id ≠ id) :
    PumpPhase.Resting (s.phaseOf id) := by
  have hfree {p : Pump} {ref : ℕ} (hpump : s.pump = some p) (hjob : p.phase.job? = some ref) :
      p.id ≠ id := by
    obtain ⟨hlt, hid⟩ := hkeyed.pump p ref hpump hjob
    exact hid ▸ hnew ref hlt
  rw [FtConnection.phaseOf]
  cases hpump : s.pump with
  | none => trivial
  | some p =>
    obtain ⟨k, phase⟩ := p
    cases phase with
    | sleeping => by_cases hk : k = id <;> simp [hk, PumpPhase.Resting]
    | reading ref file data =>
      have hk : k ≠ id := hfree hpump rfl
      simp [hk, PumpPhase.Resting]
    | returned ref data finished =>
      have hk : k ≠ id := hfree hpump rfl
      simp [hk, PumpPhase.Resting]

/-- **The start of an upload.** -/
theorem tracks_start {decompress : List UInt8 → Option (List UInt8)} {c : BridgeCall}
    (hbegins : c.Begins s up) (hresting : PumpPhase.Resting (s.phaseOf up.id))
    (hstep : s.step decompress (.call c) = some t) : up.Tracks d t := by
  cases FtConnection.performed_of_step hstep
  cases hbegins with
  | sendFiles hpos hpending =>
    exact tracks_sendFiles (fun _ => rfl) hpos _ _ rfl rfl hresting hpending
  | sendLocalFiles hpos =>
    refine tracks_sendFiles (fun _ => rfl) hpos _ false rfl rfl hresting ?_
    simp [FtConnection.setPending]
  | sendFolderUpload => exact tracks_sendFolderUpload _ _ (fun _ => rfl) rfl rfl hresting
  | @addJob id n path toPath includeHidden file hpos hpending =>
    have hjob := (jobAt_ofFile s id path toPath hpos file includeHidden).silent
    have hplain : ∀ m ∈ ([] : List OutMessage), m.Announces id := by simp
    have hcreated := tracks_created (d := d)
      (s := s.observe (.call (.addJob id path toPath n includeHidden false))) (fun _ => rfl)
      hplain rfl hjob ⟨rfl, rfl, rfl⟩ rfl rfl hresting
    have hpending' : (s.observe (.call (.addJob id path toPath n includeHidden
      false))).pendingUploads.get? id = some file := hpending
    simp only [FtConnection.onCall, FtConnection.addJob, Bool.false_eq_true, if_false, hpending']
    exact hcreated

/-! ## A folder of two files -/

/-- A folder with two files. -/
def demoPlan : FolderUploadPlan where
  folderName := "d"
  files := [⟨"a.txt", [1, 2, 3], 0⟩, ⟨"b.txt", [4, 5], 0⟩]
  relativeNames := ["a.txt", "b.txt"]
  totalSize := 5
  files_ne_nil := by simp
  names_length := rfl

/-- A connection before the upload of the folder. -/
def demoConnected : FtConnection := .demoRun [.prepare, .connected]

/-- The demo connection can be reached. -/
theorem reachable_demoConnected : FtConnection.demoMachine.Reachable demoConnected :=
  ⟨[.prepare, .connected], Machine.run_of_replay rfl⟩

/-- In it no pump is at work. -/
theorem resting_demoConnected (id : ℤ) : PumpPhase.Resting (demoConnected.phaseOf id) :=
  resting_of_new (FtConnection.keyed_of_reachable reachable_demoConnected) fun ref hlt =>
    absurd hlt (Nat.not_lt_zero ref)

/-- The upload of that folder. -/
def demoFolder : Upload := .ofPlan demoConnected 1 "/tmp/d" demoPlan

/-- The connection after the start of the upload and some more events. -/
def demoFolderRun (events : List FtEvent) : FtConnection :=
  .demoRun ([.prepare, .connected, .call (.sendFolderUpload 1 (some demoPlan) "/tmp/d" false)] ++
    events)

end Upload

end RdWeb.FileTransfer
