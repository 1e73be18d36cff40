import RdWeb.FileTransfer.PickedFiles
import RdWeb.FileTransfer.UploadCount

/-!
# The progress of an upload

The progress grows to the size of all files, unless the host resumes a file with bytes before it
or skips the last one.
-/

namespace RdWeb.FileTransfer

/-- A plan comes with the sizes of its files added up. -/
def BridgeCall.Summed : BridgeCall → Prop
  | .sendFolderUpload _ (some plan) _ _ => plan.totalSize = (plan.files.map File.size).sum
  | _ => True

/-- So does the plan of a folder that was picked. -/
theorem summed_buildFolderUploadPlan {Session : Type*} {localeCompare : String → String → Bool}
    {files : List (PickedFile Session)} {includeHidden : Bool} {plan : FolderUploadPlan}
    (hplan : buildFolderUploadPlan localeCompare files includeHidden = some plan) (id : ℤ)
    (toPath : String) :
    (BridgeCall.sendFolderUpload id (some plan) toPath includeHidden).Summed := by
  simp only [buildFolderUploadPlan] at hplan
  split_ifs at hplan
  split at hplan
  · cases hplan
  · obtain rfl := Option.some.inj hplan
    simp only [BridgeCall.Summed, List.map_map]
    rfl

/-- The host's answers for an upload keep its count, and the id is used once. -/
def FtEvent.KeepsCount (id : ℤ) (s : FtConnection) : FtEvent → Prop
  | .host (.sendConfirm id' n skip offsetBlk) => id' = id → ∀ ref ∈ s.readJobs.get? id,
      (skip = true → (s.readHeap ref).Skips (s.phaseOf id) n) ∧
        (skip = false → 0 < offsetBlk →
          (s.readHeap ref).Resumes (s.phaseOf id) (offsetBlk * BLOCK_SIZE))
  | .call c => c.starts = true → c.id? ≠ some id
  | .finalized failure => ¬ (FtEvent.finalized failure).Drops id s
  | _ => True

/-- The events by which an upload ends with an error, is cancelled or ends with its connection. -/
def FtEvent.Fails (id : ℤ) (s : FtConnection) : FtEvent → Prop
  | .finalized _ => False
  | e => e.Drops id s

namespace Upload

/-- The progress of an upload is what its files say. -/
structure Measured (up : Upload) (s : FtConnection) : Prop where
  bounded : (up.job s).finishedSize ≤ (up.job s).totalSize
  counted : up.Live s → ∃ passed file rest,
    up.listing = passed ++ ((up.job s).fileNum, file) :: rest ∧
      (up.job s).currentFile = some file ∧
      (up.job s).finishedSize = sizes passed + (up.job s).offset

/-- A step does not take the progress back, and an upload that ends without an error is done. -/
structure Advances (up : Upload) (s : FtConnection) (e : FtEvent) (t : FtConnection) : Prop where
  grows : (up.job s).finishedSize ≤ (up.job t).finishedSize
  complete : up.Live s → ¬ up.Live t → ¬ e.Fails up.id s →
    (up.job t).finishedSize = (up.job t).totalSize

variable {up : Upload} {d : Prop} {s t u : FtConnection} {v : View} {job : ReadJob}
  {phase : Option PumpPhase} {decompress : List UInt8 → Option (List UInt8)}

/-- What is counted can be measured. -/
theorem Counts.measured (h : up.Counts (up.view s)) : up.Measured s where
  bounded := Nat.le_trans h.size_le (Nat.le_of_eq h.total.symm)
  counted hlive := by
    obtain ⟨passed, f, rest, hat⟩ := h.at_of_live hlive
    have hcurrent : (up.job s).currentFile = some f.2 := hat.isAt.current
    have hnum : (up.job s).fileNum = f.1 := hat.isAt.fileNum
    refine ⟨passed, f.2, rest, ?_, hcurrent, ?_⟩
    · rw [hnum]
      exact hat.listing
    · rw [← hat.base]
      exact hat.finishedSize

/-- A step that works on the upload. -/
theorem Moves.own_step {e : FtEvent} (h : up.Counts (up.view s)) (hconcerns : e.Concerns up.id s)
    (hkeeps : e.KeepsCount up.id s) (hstep : s.step decompress e = some t) :
    up.Moves (e.Drops up.id s) s t := by
  -- the pump that works for the id is the pump of the upload
  have hpumps {k : ℤ} {phase : PumpPhase} (hpump : s.pump = some ⟨k, phase⟩)
      (hsome : s.phaseOf up.id ≠ none) : k = up.id := by
    by_contra hk
    simp [FtConnection.phaseOf, hpump, hk] at hsome
  have hheard (o : Observation) : up.Moves (e.Drops up.id s) s (s.observe o) :=
    ⟨Nat.le_refl _, h.drop (.inl rfl), Nat.le_refl _, fun hlive hgone => absurd hlive hgone⟩
  cases FtConnection.performed_of_step hstep with
  | host m =>
    cases m with
    | sendConfirm k n skip offsetBlk =>
      obtain rfl : k = up.id := hconcerns
      have hcounts := (hheard (.host (.sendConfirm up.id n skip offsetBlk))).goes.counts
      exact (hheard _).trans (.handleSendConfirm hcounts (hkeeps rfl))
    | digest k n isUpload isIdentical =>
      cases isUpload with
      | true => exact hconcerns.elim
      | false =>
        obtain rfl : k = up.id := hconcerns
        have hcounts := (hheard (.host (.digest up.id n false isIdentical))).goes.counts
        simp only [FtConnection.onHostMessage, FtConnection.handleDigest]
        split
        · exact hheard _
        · exact (hheard _).trans (.sendConfirm hcounts n)
    | _ => exact hconcerns.elim
  | sliceRead failure hpump =>
    obtain rfl := hpumps hpump hconcerns
    exact Moves.sliceRead h hpump failure
  | pumpContinues hpump =>
    obtain rfl := hpumps hpump hconcerns
    exact Moves.pumpBlock h hpump
  | timer hpump =>
    obtain rfl := hpumps hpump hconcerns
    exact Moves.pumpTurn h
  | call c =>
    have hcounts := (hheard (.call c)).goes.counts
    cases c with
    | resumeJob k isRemote =>
      cases isRemote with
      | true => exact absurd hconcerns.1 (by simp [BridgeCall.starts])
      | false =>
        obtain rfl : k = up.id := hconcerns
        exact (hheard _).trans (.resumeJob hcounts)
    | confirmOverrideFile k n needOverride isUpload =>
      cases needOverride with
      | false => exact absurd hconcerns.1 (by simp [BridgeCall.starts])
      | true =>
        obtain rfl : k = up.id := hconcerns
        exact (hheard _).trans (.confirmOverrideFile hcounts n isUpload)
    | sendFiles => exact absurd hconcerns.2 (hkeeps hconcerns.1)
    | sendLocalFiles => exact absurd hconcerns.2 (hkeeps hconcerns.1)
    | sendFolderUpload => exact absurd hconcerns.2 (hkeeps hconcerns.1)
    | addJob => exact absurd hconcerns.2 (hkeeps hconcerns.1)
    | _ => exact absurd hconcerns.1 (by simp [BridgeCall.starts])
  | _ => exact hconcerns.elim

/-- The count of an upload whose reference is allocated. -/
structure Counted (up : Upload) (s : FtConnection) : Prop where
  allocated : up.ref < s.nextRead
  counts : up.Counts (up.view s)

/-- **One step.** -/
theorem Counted.step {e : FtEvent} (h : up.Counted s) (hkeyed : s.Keyed)
    (hkeeps : e.KeepsCount up.id s) (hstep : s.step decompress e = some t) :
    up.Counted t ∧ up.Advances s e t := by
  have hmoves : up.Moves (e.Drops up.id s) s t := by
    by_cases hconcerns : e.Concerns up.id s
    · exact Moves.own_step h.counts hconcerns hkeeps hstep
    · exact .apart h.counts (FtConnection.apart_step hkeyed h.allocated h.counts.job_id
        (fun hdrops => hdrops) hconcerns hstep)
  refine ⟨⟨Nat.lt_of_lt_of_le h.allocated hmoves.nextRead, hmoves.goes.counts⟩,
    hmoves.goes.grows, fun hlive hgone hfails => ?_⟩
  rcases hmoves.goes.ends hlive hgone with hdrops | hsize
  · cases e with
    | finalized failure => exact absurd hdrops hkeeps
    | _ => exact absurd hdrops hfails
  · exact hsize.trans hmoves.goes.counts.total.symm

/-- The count of a job that was created, with some messages queued for it. -/
theorem counted_created (announced : List OutMessage) (hjob : up.JobAt job up.first up.rest)
    (hlisted : up.rest ≠ [] → at? up.files up.first.1 = some up.first.2)
    (hzero : job.finishedBase = 0 ∧ job.finishedSize = 0 ∧ job.offset = 0)
    (htotal : job.totalSize = sizes up.listing) (hnext : s.nextRead = up.ref)
    (hresting : PumpPhase.Resting (s.phaseOf up.id)) :
    up.Counted (announced.foldl FtConnection.queueMessage (s.createUpload job)) := by
  obtain ⟨-, htheap, htnext, htjobs, htpump⟩ :=
    queueMessages_frame announced (s.createUpload job)
  generalize announced.foldl FtConnection.queueMessage (s.createUpload job) = t at *
  have hheap : up.job t = job := by simp [Upload.job, htheap, FtConnection.createUpload, hnext]
  have hlive : up.Live t := by
    simp [Live, htjobs, FtConnection.createUpload, hjob.id, hnext]
  have hphase : PumpPhase.Resting (t.phaseOf up.id) := by
    rw [FtConnection.phaseOf, htpump]
    exact hresting
  obtain ⟨hbase, hsize, hoffset⟩ := hzero
  have hnil : sizes [] = 0 := rfl
  have hat : up.CountedAt job none [] up.first up.rest := by
    refine ⟨rfl, hjob, hlisted, by rw [hbase, hnil], by omega, ?_, htotal, trivial⟩
    rw [hoffset]
    exact Nat.zero_le _
  rw [← hheap] at hat
  exact ⟨by simp [htnext, FtConnection.createUpload, hnext],
    .going (.inl hlive) (hat.release hphase)⟩

/-- The sizes of an upload are those of the plan. -/
theorem sizes_ofPlan (s : FtConnection) (id : ℤ) (toPath : String) (plan : FolderUploadPlan) :
    sizes (ofPlan s id toPath plan).listing = (plan.files.map File.size).sum := by
  have hsum : (plan.files.map File.size).sum =
      (plan.files.head plan.files_ne_nil).size + (plan.files.tail.map File.size).sum := by
    conv_lhs => rw [← List.cons_head_tail plan.files_ne_nil]
    rw [List.map_cons, List.sum_cons]
  rw [hsum, listing, sizes_cons, ofPlan, sizes_numberFrom]

/-- The first file of a folder is listed under its number. -/
theorem listed_ofPlan (s : FtConnection) (id : ℤ) (toPath : String) (plan : FolderUploadPlan) :
    at? (ofPlan s id toPath plan).files (ofPlan s id toPath plan).first.1 =
      some (ofPlan s id toPath plan).first.2 := by
  have hhead : plan.files.head? = some (plan.files.head plan.files_ne_nil) :=
    List.head?_eq_some_head plan.files_ne_nil
  have hzero : at? plan.files 0 = plan.files.head? := by simp [at?, List.head?_eq_getElem?]
  exact hzero.trans hhead

/-- `sendFiles` with a local file. -/
theorem counted_sendFiles {id n : ℤ} {path toPath : String} {file : File} (hpos : 0 ≤ n)
    (includeHidden isDir : Bool) {s' : FtConnection} (hnext : s'.nextRead = s.nextRead)
    (hresting : PumpPhase.Resting (s'.phaseOf id))
    (hpending : s'.pendingUploads.get? id = some file) :
    (ofFile s id toPath hpos file).Counted
      (s'.sendFiles id path toPath n includeHidden false isDir) := by
  have hcreated := counted_created [OutMessage.receive id toPath [.ofFile "" file] n file.size,
      .digest id n file.size file.modifiedTime]
    (jobAt_ofFile s id path toPath hpos file includeHidden) (fun hrest => absurd rfl hrest)
    ⟨rfl, rfl, rfl⟩ rfl hnext hresting
  simp only [FtConnection.sendFiles, Bool.false_eq_true, if_false, hpending]
  exact hcreated

/-- The upload of a folder is counted if the plan was summed. -/
theorem counted_sendFolderUpload {id : ℤ} {toPath : String} {plan : FolderUploadPlan}
    (hsummed : plan.totalSize = (plan.files.map File.size).sum) (includeHidden : Bool)
    {s' : FtConnection} (hnext : s'.nextRead = s.nextRead)
    (hresting : PumpPhase.Resting (s'.phaseOf id)) :
    (ofPlan s id toPath plan).Counted
      (s'.sendFolderUpload id (some plan) toPath includeHidden) := by
  have hjob := jobAt_ofPlan s id toPath plan includeHidden
  have hcreated := counted_created [(ofPlan s id toPath plan).receive] hjob
    (fun _ => listed_ofPlan s id toPath plan) ⟨rfl, rfl, rfl⟩
    (hsummed.trans (sizes_ofPlan s id toPath plan).symm) hnext hresting
  simp only [FtConnection.sendFolderUpload, FtConnection.queueDigestForCurrentFile]
  split
  · exact ⟨hcreated.allocated, hcreated.counts.drop (.inl rfl)⟩
  · exact hcreated

/-- **The start of an upload.** -/
theorem counted_start {c : BridgeCall} (hbegins : c.Begins s up) (hsummed : c.Summed)
    (hresting : PumpPhase.Resting (s.phaseOf up.id))
    (hstep : s.step decompress (.call c) = some t) : up.Counted t := by
  cases FtConnection.performed_of_step hstep
  cases hbegins with
  | sendFiles hpos hpending => exact counted_sendFiles hpos _ _ rfl hresting hpending
  | sendLocalFiles hpos =>
    refine counted_sendFiles hpos _ false rfl hresting ?_
    simp [FtConnection.setPending]
  | sendFolderUpload => exact counted_sendFolderUpload hsummed _ rfl hresting
  | @addJob id n path toPath includeHidden file hpos hpending =>
    have hjob := (jobAt_ofFile s id path toPath hpos file includeHidden).silent
    have hcreated := counted_created []
      (s := s.observe (.call (.addJob id path toPath n includeHidden false)))
      hjob (fun hrest => absurd rfl hrest) ⟨rfl, rfl, rfl⟩ rfl rfl hresting
    have hpending' : (s.observe (.call (.addJob id path toPath n includeHidden
      false))).pendingUploads.get? id = some file := hpending
    simp only [FtConnection.onCall, FtConnection.addJob, Bool.false_eq_true, if_false, hpending']
    exact hcreated

/-- The progress is sound after a run of an upload, and so is each of its steps. -/
structure SoundProgress (up : Upload) (M : Machine FtConnection FtEvent) (s : FtConnection)
    (events : List FtEvent) (t : FtConnection) : Prop where
  measured : up.Measured t
  steps : ∀ first e u v, first ++ [e] <+: events → M.Run s first u → M.step u e = some v →
    up.Advances u e v

/-- **The progress of an upload is sound** in every run whose steps keep the count. -/
theorem soundProgress_of_keepsCount {registered : Bool} {c : BridgeCall} {events : List FtEvent}
    (hreach : (ftMachine decompress registered).Reachable s) (hbegins : c.Begins s up)
    (hsummed : c.Summed) (hresting : PumpPhase.Resting (s.phaseOf up.id))
    (hstart : s.step decompress (.call c) = some t)
    (hrun : (ftMachine decompress registered).RunWhere (fun s e => e.KeepsCount up.id s) t events
      u) : up.SoundProgress (ftMachine decompress registered) t events u := by
  have hkeyed : t.Keyed := (FtConnection.keyed_of_reachable hreach).step hstart
  have hcounted := counted_start hbegins hsummed hresting hstart
  have hinv {first : List FtEvent} {v : FtConnection}
      (hfirst : (ftMachine decompress registered).RunWhere
        (fun s e => e.KeepsCount up.id s) t first v) : v.Keyed ∧ up.Counted v := by
    refine hfirst.invariant (P := fun v => v.Keyed ∧ up.Counted v) ?_ ⟨hkeyed, hcounted⟩
    rintro v e w hkeeps hstep ⟨hkeyed, hcounted⟩
    exact ⟨hkeyed.step hstep, (hcounted.step hkeyed hkeeps hstep).1⟩
  refine ⟨(hinv hrun).2.counts.measured, fun first e v w hinitial hfirst hstep => ?_⟩
  obtain ⟨x, hx⟩ := hrun.initial hinitial
  obtain ⟨v', hv', hkeeps, -⟩ := Machine.runWhere_snoc_iff.mp hx
  obtain rfl := hv'.end_eq hfirst
  obtain ⟨hkeyed, hcounted⟩ := hinv hv'
  exact (hcounted.step hkeyed hkeeps hstep).2

/-! ## A folder of two files -/

/-- The first file is skipped, the second one is sent. -/
def skippedFirst : List FtEvent :=
  [.host (.sendConfirm 1 0 true 0), .host (.sendConfirm 1 1 false 0), .sliceRead none,
    .pumpContinues]

/-- The first file is sent, the second one is skipped. -/
def skippedLast : List FtEvent :=
  [.host (.sendConfirm 1 0 false 0), .sliceRead none, .pumpContinues,
    .host (.sendConfirm 1 1 true 0)]

/-- The picked files of the folder, not in order. -/
def demoPicked : List (PickedFile ℕ) :=
  [⟨⟨"b.txt", [4, 5], 0⟩, "d/b.txt", 0, 0, 0⟩, ⟨⟨"a.txt", [1, 2, 3], 0⟩, "d/a.txt", 0, 0, 1⟩]

/-- The plan that the picker builds for the demo. -/
theorem buildFolderUploadPlan_demoPicked :
    buildFolderUploadPlan (fun a b => decide (a ≤ b)) demoPicked false = some demoPlan := by
  decide

/-- A run that skips the first file, along which the progress is sound. -/
theorem soundProgress_of_keepsCount_skippedFirst :
    demoFolder.SoundProgress FtConnection.demoMachine (demoFolderRun []) skippedFirst
      (demoFolderRun skippedFirst) := by
  refine soundProgress_of_keepsCount reachable_demoConnected .sendFolderUpload
    (summed_buildFolderUploadPlan buildFolderUploadPlan_demoPicked 1 "/tmp/d")
    (resting_demoConnected 1) rfl ?_
  refine .cons ?_ rfl (.cons ?_ rfl (.cons trivial rfl (.cons trivial rfl (.nil _))))
  · rintro - ref href
    obtain rfl := Option.some.inj href
    exact ⟨fun _ => ⟨rfl, fun hengaged => hengaged, .inl rfl⟩, fun hfalse => by cases hfalse⟩
  · rintro - ref href
    obtain rfl := Option.some.inj href
    exact ⟨fun htrue => by (cases htrue), fun _ hpos => absurd hpos (Nat.lt_irrefl 0)⟩

/-- The upload ends with the size of the first file. -/
theorem not_soundProgress_skippedLast :
    ¬ ∀ (decompress : List UInt8 → Option (List UInt8)) (registered : Bool) (c : BridgeCall)
      (up : Upload) (events : List FtEvent) (s t u : FtConnection),
      (ftMachine decompress registered).Reachable s → c.Begins s up → c.Summed →
      PumpPhase.Resting (s.phaseOf up.id) → s.step decompress (.call c) = some t →
      (ftMachine decompress registered).Run t events u →
      up.SoundProgress (ftMachine decompress registered) t events u := by
  intro hall
  have hsound := hall (fun _ => none) true
    (.sendFolderUpload 1 (some demoPlan) "/tmp/d" false) demoFolder skippedLast demoConnected
    (demoFolderRun []) (demoFolderRun skippedLast) reachable_demoConnected .sendFolderUpload rfl
    (resting_demoConnected 1) rfl (Machine.run_of_replay rfl)
  have hcomplete := (hsound.steps (skippedLast.take 3) (.host (.sendConfirm 1 1 true 0))
    (demoFolderRun (skippedLast.take 3)) (demoFolderRun skippedLast) (List.prefix_refl _)
    (Machine.run_of_replay rfl) rfl).complete rfl (fun hlive => by cases hlive)
    fun hfails => hfails
  revert hcomplete
  decide

end Upload

end RdWeb.FileTransfer
