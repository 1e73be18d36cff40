import RdWeb.FileTransfer.UploadPlace

/-!
# Uploads that are answered in turn

While every answer is for the file that was asked about and comes before its first block,
an upload goes through its listing file by file.
-/

namespace RdWeb.FileTransfer

namespace Upload

variable {up : Upload} {d : Prop} {v : View} {passed rest : List Listed} {f : Listed}
  {sent : List OutMessage} {s t : FtConnection}

/-! ## The view of the operations -/

/-- What a change of the job changes for the upload. -/
theorem view_updateRead (g : ReadJob → ReadJob) :
    up.view (s.updateRead up.ref g) = { up.view s with job := g (up.view s).job } := by
  simp [view, Upload.job, FtConnection.phaseOf, since, FtConnection.updateRead]

/-- What a phase of its own pump changes for the upload. -/
theorem view_setPump_own (phase : PumpPhase) :
    up.view (s.setPump (some ⟨up.id, phase⟩)) = { up.view s with phase := some phase } := by
  simp [view, Upload.job, FtConnection.phaseOf, since, FtConnection.setPump]

/-- What the end of its pump changes for the upload. -/
theorem view_endPump : up.view s.endPump = { up.view s with phase := none } := by
  unfold FtConnection.endPump
  split_ifs <;> rfl

/-- What its removal changes for the upload. -/
theorem view_removeJob : up.view (s.removeJob up.id) = { up.view s with entry := none } := by
  simp [view, Upload.job, FtConnection.phaseOf, since, FtConnection.removeJob]

/-- What an observation changes for the upload. -/
theorem view_observe (hbase : up.base <+: s.log) (o : Observation) :
    up.view (s.observe o) = { up.view s with later := (up.view s).later ++ [o] } := by
  have hlength : up.base.length ≤ s.log.length := hbase.length_le
  simp only [view, since, FtConnection.observe, List.drop_append_of_le_length hlength]
  rfl

/-- What a queued message changes for the upload. -/
theorem view_queueMessage (hbase : up.base <+: s.log) (m : OutMessage) :
    up.view (s.queueMessage m) =
      { up.view s with later := (up.view s).later ++ [.queued m] } :=
  view_observe (s := { s with msgs := s.msgs ++ [m] }) hbase (.queued m)

/-- The upload is at some file of its listing. -/
structure Tracks (up : Upload) (d : Prop) (s : FtConnection) : Prop where
  base : up.base <+: s.log
  allocated : up.ref < s.nextRead
  place : ∃ passed f rest sent, up.At d (up.view s) passed f rest sent

/-- An upload that is tracked is in the table or gone from it. -/
theorem Tracks.entry (h : up.Tracks d s) : up.Live s ∨ s.readJobs.get? up.id = none := by
  obtain ⟨-, -, _, _, _, _, hat⟩ := h
  exact hat.entry

/-- An upload that is gone can hear anything. -/
theorem Tracks.observe_gone (h : up.Tracks d s) {o : Observation} (hqueued : o.queued? up.id = none)
    (hgone : s.readJobs.get? up.id = none) : up.Tracks d (s.observe o) := by
  obtain ⟨hbase, hlt, passed, f, rest, sent, hat⟩ := h
  have hdead {p : Prop} (hlive : (up.view s).entry = some up.ref) : p := by
    have hnone : (up.view s).entry = none := hgone
    rw [hnone] at hlive
    cases hlive
  refine ⟨hbase.trans (List.prefix_append _ _), hlt, passed, f, rest, sent, ?_⟩
  rw [view_observe hbase]
  exact hat.observe hqueued (fun hlive => hdead hlive) fun hlive => hdead hlive

/-- Steps that leave the upload alone, or drop it. -/
theorem Tracks.apart (h : up.Tracks d s)
    (ha : FtConnection.Apart (d ∨ s.readJobs.get? up.id = none) up.id up.ref s t) :
    up.Tracks d t := by
  obtain ⟨hbase, hlt, passed, f, rest, sent, hat⟩ := h
  obtain ⟨later, hlog, hforeign⟩ := ha.log
  have hlength := hbase.length_le
  have hsince : up.since t = up.since s ++ later := by
    rw [since, since, hlog, List.drop_append_of_le_length hlength]
  have hview : up.view t = { up.view s with
      later := (up.view s).later ++ later, entry := t.readJobs.get? up.id } := by
    simp only [view, hsince, ha.phase, Upload.job, ha.job]
  refine ⟨hbase.trans (hlog ▸ List.prefix_append _ _), Nat.lt_of_lt_of_le hlt ha.nextRead,
    passed, f, rest, sent, ?_⟩
  rw [hview]
  have hkept := hat.foreign hforeign
  rcases ha.table with heq | ⟨hd | hnone, hgone⟩
  · rw [heq]
    exact hkept
  · rw [hgone]
    exact hkept.drop hd
  · rw [hgone, ← hnone]
    exact hkept

/-- The end of a pump leaves the log and the references. -/
theorem endPump_frame (s : FtConnection) :
    s.endPump.log = s.log ∧ s.endPump.nextRead = s.nextRead := by
  unfold FtConnection.endPump
  split_ifs <;> exact ⟨rfl, rfl⟩

/-- The pump returns. -/
theorem Tracks.endPump (h : up.Tracks d s) (hresting : PumpPhase.Resting (s.phaseOf up.id)) :
    up.Tracks d s.endPump := by
  obtain ⟨hbase, hlt, passed, f, rest, sent, hat⟩ := h
  obtain ⟨hlog, hnext⟩ := endPump_frame s
  refine ⟨hlog ▸ hbase, hnext ▸ hlt, passed, f, rest, sent, ?_⟩
  rw [view_endPump]
  exact hat.repose hresting trivial

/-- A turn of the pump that holds nothing. -/
theorem Tracks.pumpTurn (h : up.Tracks d s) (hresting : PumpPhase.Resting (s.phaseOf up.id)) :
    up.Tracks d (s.pumpTurn up.id) := by
  obtain ⟨hbase, hlt, passed, f, rest, sent, hat⟩ := h
  rcases hat.entry with hlive | hgone
  · have hget : s.readJobs.get? up.id = some up.ref := hlive
    cases hactive : (s.readHeap up.ref).active with
    | false =>
      have hturn : s.pumpTurn up.id = s.endPump := by
        simp [FtConnection.pumpTurn, hget, hactive]
      rw [hturn]
      exact Tracks.endPump ⟨hbase, hlt, passed, f, rest, sent, hat⟩ hresting
    | true =>
      have hcurrent : (s.readHeap up.ref).currentFile = some f.2 := hat.job.current
      have hturn : s.pumpTurn up.id =
          s.setPump (some ⟨up.id, .next up.ref (s.readHeap up.ref) f.2⟩) := by
        simp only [FtConnection.pumpTurn, hget, hactive, hcurrent, if_true, PumpPhase.next]
        split_ifs <;> rfl
      rw [hturn]
      refine ⟨hbase, hlt, passed, f, rest, sent, ?_⟩
      rw [view_setPump_own]
      exact hat.turn hlive hactive hresting
  · have hget : s.readJobs.get? up.id = none := hgone
    have hturn : s.pumpTurn up.id = s.endPump := by simp [FtConnection.pumpTurn, hget]
    rw [hturn]
    exact Tracks.endPump ⟨hbase, hlt, passed, f, rest, sent, hat⟩ hresting

/-- A pump is started where none runs. -/
theorem Tracks.pumpUploadBlocks (h : up.Tracks d s) :
    up.Tracks d (s.pumpUploadBlocks up.id) := by
  unfold FtConnection.pumpUploadBlocks
  cases hpump : s.pump with
  | some p => exact h
  | none =>
    apply h.pumpTurn
    rw [FtConnection.phaseOf, hpump]
    trivial

/-- Activating a job that is active. -/
theorem Tracks.activate (h : up.Tracks d s) (hactive : (s.readHeap up.ref).active = true) :
    up.Tracks d (s.updateRead up.ref .activate) := by
  obtain ⟨hbase, hlt, passed, f, rest, sent, hat⟩ := h
  refine ⟨hbase, hlt, passed, f, rest, sent, ?_⟩
  rw [view_updateRead]
  exact hat.retouch (hat.job.congr rfl rfl rfl rfl rfl) hactive.symm rfl rfl

/-- The upload is through with a file: it turns to the next, or it is gone. -/
theorem Through.advance {a : Answer} (h : up.Through (up.view s) passed f rest a)
    (hbase : up.base <+: s.log) (hjob : up.JobAt (up.view s).job f rest)
    (hlasts : up.Lasts d (up.view s)) (hlast : rest = [] → a = .skip)
    {phase : Option PumpPhase} (hresting : PumpPhase.Resting phase) :
    ∃ passed' f' rest' sent', up.At d
      { up.view (s.advanceUploadAfterFile up.id up.ref f.1) with phase := phase }
      passed' f' rest' sent' := by
  have hadd := hjob.addFinished f.1
  have hmore : ((s.updateRead up.ref (·.addFinished f.1)).readHeap up.ref).hasMore f.1 =
      decide (rest ≠ []) := by
    rw [FtConnection.updateRead_same, Bool.eq_iff_iff, decide_eq_true_iff]
    exact hadd.hasMore_iff
  unfold FtConnection.advanceUploadAfterFile
  dsimp only
  rw [hmore]
  cases rest with
  | cons g rest =>
    have hturn := hadd.turnTo
    have hdigest := hturn.digest
    obtain ⟨hnum, -⟩ := hjob.follows
    have hlt : f.1 < g.1 := by omega
    have hstep : (((s.updateRead up.ref (·.addFinished f.1)).updateRead up.ref
        (·.turnTo (f.1 + 1))).queueDigestForCurrentFile up.ref) =
        ((s.updateRead up.ref (·.addFinished f.1)).updateRead up.ref
          (·.turnTo (f.1 + 1))).queueMessage (g.digest up.id) := by
      unfold FtConnection.queueDigestForCurrentFile
      rw [FtConnection.updateRead_same, FtConnection.updateRead_same]
      have hview : (s.readHeap up.ref) = (up.view s).job := rfl
      rw [hview, hdigest]
    have hbase' : up.base <+: ((s.updateRead up.ref (·.addFinished f.1)).updateRead up.ref
        (·.turnTo (f.1 + 1))).log := hbase
    rw [if_pos (by simp), hstep, view_queueMessage hbase', view_updateRead, view_updateRead]
    exact ⟨_, g, rest, [], h.turnTo hlt hlasts hturn rfl rfl rfl hresting⟩
  | nil =>
    obtain rfl := hlast rfl
    have hbase' : up.base <+:
        ((s.updateRead up.ref (·.addFinished f.1)).removeJob up.id).log := hbase
    rw [if_neg (by simp), FtConnection.ev, view_observe hbase', view_removeJob, view_updateRead]
    have hat := h.skipLast (d := d) hadd hresting
    exact ⟨passed, f, [], [], hat.observe rfl (fun hlive => by cases hlive)
      fun hlive => by cases hlive⟩

/-! ## The steps of the upload -/

/-- Advancing adds to the log and leaves the references. -/
theorem advanceUploadAfterFile_frame (s : FtConnection) (id : ℤ) (ref : ℕ) (n : ℤ) :
    s.log <+: (s.advanceUploadAfterFile id ref n).log ∧
      (s.advanceUploadAfterFile id ref n).nextRead = s.nextRead ∧
      (s.advanceUploadAfterFile id ref n).pump = s.pump := by
  unfold FtConnection.advanceUploadAfterFile FtConnection.queueDigestForCurrentFile
  dsimp only
  split_ifs
  · split
    · exact ⟨List.prefix_append _ _, rfl, rfl⟩
    · exact ⟨List.prefix_refl _, rfl, rfl⟩
  · exact ⟨List.prefix_append _ _, rfl, rfl⟩

/-- The block that the pump holds, as it is queued. -/
theorem view_queueBlock (hbase : up.base <+: s.log) (hat : up.JobAt (up.view s).job f rest)
    {data : List UInt8} {finished : Bool}
    (hphase : (up.view s).phase = some (.returned up.ref data finished)) :
    up.view (s.queueBlock up.id up.ref data) = { up.view s with
      later := (up.view s).later ++ (PumpPhase.pending up.id f.1 (up.view s).job.blkId
        (up.view s).phase).map .queued } := by
  have hnum : (s.readHeap up.ref).fileNum = f.1 := hat.fileNum
  have hblkId : (s.readHeap up.ref).blkId = (up.view s).job.blkId := rfl
  rw [hphase]
  unfold FtConnection.queueBlock
  by_cases hdata : data = []
  · simp [hdata, PumpPhase.pending]
  · rw [if_pos hdata, view_queueMessage hbase, hnum, hblkId]
    simp [hdata, PumpPhase.pending]

/-- The pump goes on with a block of the upload. -/
theorem Tracks.pumpBlock (h : up.Tracks d s) {r : ℕ} {data : List UInt8} {finished : Bool}
    (hpump : s.pump = some ⟨up.id, .returned r data finished⟩) :
    up.Tracks d (s.pumpBlock up.id r data finished) := by
  obtain ⟨hbase, hlt, passed, f, rest, sent, hat⟩ := h
  have hphase : (up.view s).phase = some (.returned r data finished) := by
    simp [view, FtConnection.phaseOf, hpump]
  have hresting : PumpPhase.Resting none := trivial
  obtain ⟨rfl, hlasts, offsetBlk, hanswer, hqueued, hend⟩ := hat.queueBlock hphase hresting
  have hview := view_queueBlock hbase hat.job hphase
  have hcalm := FtConnection.calm_queueBlock (s := s) up.id up.ref data
  obtain ⟨more, hlog, -⟩ := hcalm.log
  have hbase' : up.base <+: (s.queueBlock up.id up.ref data).log :=
    hbase.trans (hlog ▸ List.prefix_append _ _)
  have hlt' : up.ref < (s.queueBlock up.id up.ref data).nextRead := by
    rw [hcalm.nextRead]
    exact hlt
  have hjob : up.JobAt (up.view (s.queueBlock up.id up.ref data)).job f rest := by
    rw [hview]
    exact hat.job
  have hnum : ((s.queueBlock up.id up.ref data).readHeap up.ref).fileNum = f.1 := hjob.fileNum
  unfold FtConnection.pumpBlock
  dsimp only
  rw [hnum]
  have hmore := hjob.hasMore_iff
  generalize hq : s.queueBlock up.id up.ref data = q at hview hbase' hlt' hjob hmore ⊢
  have hthrough (hfinished : finished = true) :
      up.Through (up.view q) passed f rest (.goOn offsetBlk) := by
    have hdone := hqueued.through (answer?_append_of_some hanswer) (hend hfinished)
    rw [hview]
    exact ⟨hdone.listing, hdone.ahead, hdone.answered, hdone.answer, hdone.queued,
      hdone.confirmed⟩
  have hlasts' : up.Lasts d (up.view q) := by
    rw [hview]
    exact hlasts
  split_ifs with hfinished hhasMore
  · have hrest := hmore.mp hhasMore
    obtain ⟨hinitial, hnext, -⟩ := advanceUploadAfterFile_frame q up.id up.ref f.1
    obtain ⟨passed', f', rest', sent', hplace⟩ := (hthrough hfinished).advance hbase' hjob hlasts'
      (fun hnil => absurd hnil hrest) hresting
    refine ⟨?_, ?_, passed', f', rest', sent', ?_⟩
    · rw [(endPump_frame _).1]
      exact hbase'.trans hinitial
    · rw [(endPump_frame _).2, hnext]
      exact hlt'
    · rw [view_endPump]
      exact hplace
  · have hnil : rest = [] := by
      by_contra hrest
      exact hhasMore (hmore.mpr hrest)
    subst hnil
    have hdone := (hthrough hfinished).finish (d := d) hjob hresting
    have hbase'' : up.base <+: ((q.queueMessage (.done up.id f.1)).removeJob up.id).log :=
      hbase'.trans (List.prefix_append _ _)
    refine ⟨?_, ?_, passed, f, [], f.answered up.id (.goOn offsetBlk) ++ [.done up.id f.1], ?_⟩
    · rw [(endPump_frame _).1]
      exact hbase''.trans (List.prefix_append _ _)
    · rw [(endPump_frame _).2]
      exact hlt'
    · rw [view_endPump, FtConnection.finishUpload, FtConnection.ev, view_observe hbase'',
        view_removeJob, view_queueMessage hbase']
      exact hdone.observe rfl (fun hlive => by cases hlive) fun hlive => by cases hlive
  · have hsleeping : PumpPhase.Resting (some .sleeping) := trivial
    obtain ⟨-, -, -, -, hslept, -⟩ := hat.queueBlock hphase hsleeping
    refine ⟨hbase', hlt', passed, f, rest,
      sent ++ PumpPhase.pending up.id f.1 (up.view s).job.blkId (up.view s).phase, ?_⟩
    rw [view_setPump_own, hview]
    exact hslept

/-- A read of its pump keeps the upload tracked. -/
theorem Tracks.sliceRead (h : up.Tracks d s) {r : ℕ} {file : File} {data : List UInt8}
    (hpump : s.pump = some ⟨up.id, .reading r file data⟩) {failure : Option String}
    (hdrop : (FtEvent.sliceRead failure).Drops up.id s → d ∨ s.readJobs.get? up.id = none) :
    up.Tracks d (s.sliceRead up.id r file data failure) := by
  obtain ⟨hbase, hlt, passed, f, rest, sent, hat⟩ := h
  have hphase : (up.view s).phase = some (.reading r file data) := by
    simp [view, FtConnection.phaseOf, hpump]
  cases failure with
  | none =>
    obtain ⟨rfl, rfl, hread⟩ := hat.read hphase
    refine ⟨hbase, hlt, passed, f, rest, sent, ?_⟩
    unfold FtConnection.sliceRead
    dsimp only
    rw [view_setPump_own, view_updateRead, FtConnection.updateRead_same]
    exact hread
  | some text =>
    have hstopped : up.Tracks d (s.setPump none) :=
      ⟨hbase, hlt, passed, f, rest, sent, hat.halt hphase⟩
    unfold FtConnection.sliceRead
    dsimp only
    split_ifs with hloop
    · exact hstopped.apart (FtConnection.apart_failLoop (hdrop hloop) text)
    · exact hstopped

/-- The confirmation of the host is taken up by the pump, unless one runs. -/
theorem Tracks.confirmed (h : up.Tracks d s) :
    up.Tracks d (if s.pump.isSome then s else (s.setLoop .awaitingPump).pumpTurn up.id) := by
  have hawait : up.Tracks d (s.setLoop .awaitingPump) := ⟨h.base, h.allocated, h.place⟩
  cases hpump : s.pump with
  | some p => exact h
  | none =>
    apply hawait.pumpTurn
    have hphase : (s.setLoop .awaitingPump).phaseOf up.id = none := by
      simp [FtConnection.phaseOf, FtConnection.setLoop, hpump]
    rw [hphase]
    trivial

/-- A fresh job is confirmed at the block and the offset of the answer. -/
theorem confirm_blkId {job : ReadJob} (hoffset : job.offset = 0) (hblkId : job.blkId = 0)
    (offsetBlk : ℕ) : (job.confirm offsetBlk).offset = offsetBlk * BLOCK_SIZE ∧
      (job.confirm offsetBlk).blkId = offsetBlk := by
  unfold ReadJob.confirm
  dsimp only
  split_ifs with hpos
  · exact ⟨rfl, rfl⟩
  · have hzero : offsetBlk = 0 := by omega
    simp [hoffset, hblkId, hzero]

/-- A stored upload goes on with its file: it starts with the first answer, and a later one
changes nothing. -/
theorem Tracks.goesOn (h : up.Tracks d s) (hlive : up.Live s) {o : Observation} {n : ℤ}
    {offsetBlk : ℕ} (hexpects : (s.readHeap up.ref).Expects n) (hqueued : o.queued? up.id = none)
    (hanswer : ∀ m, o.answer? up.id m = if n = m then some (.goOn offsetBlk) else none)
    {g : ReadJob → ReadJob}
    (hstays : ∀ f rest, up.JobAt (s.readHeap up.ref) f rest →
      up.JobAt (g (s.readHeap up.ref)) f rest)
    (hactive : (g (s.readHeap up.ref)).active = true)
    (hkeeps : (s.readHeap up.ref).active = true →
      (g (s.readHeap up.ref)).offset = (s.readHeap up.ref).offset ∧
        (g (s.readHeap up.ref)).blkId = (s.readHeap up.ref).blkId)
    (hstarts : (s.readHeap up.ref).offset = 0 → (s.readHeap up.ref).blkId = 0 →
      (g (s.readHeap up.ref)).offset = offsetBlk * BLOCK_SIZE ∧
        (g (s.readHeap up.ref)).blkId = offsetBlk) :
    up.Tracks d ((s.observe o).updateRead up.ref g) := by
  obtain ⟨hbase, hlt, passed, f, rest, sent, hat⟩ := h
  obtain ⟨hahead, hfirst⟩ := hat.job.answers hexpects hanswer
  have hjob : up.JobAt (g (up.view s).job) f rest := hstays f rest hat.job
  refine ⟨hbase.trans (List.prefix_append _ _), hlt, passed, f, rest, ?_⟩
  rw [view_updateRead, view_observe hbase]
  cases hisActive : (up.view s).job.active with
  | true =>
    obtain ⟨hoffset, hblkId⟩ := hkeeps hisActive
    have hheard := hat.observe hqueued (fun _ => hahead) fun _ hinactive => by
      rw [hisActive] at hinactive
      cases hinactive
    exact ⟨sent, hheard.retouch hjob (hactive.trans hisActive.symm) hoffset hblkId⟩
  | false =>
    obtain ⟨hoffset, hblkId⟩ := hat.at_start hlive hisActive
    obtain ⟨hoffset', hblkId'⟩ := hstarts hoffset hblkId
    obtain ⟨-, -, hbegun⟩ := hat.begin hlive hisActive hqueued hahead (hfirst hisActive).2 hjob
      hactive hoffset' hblkId'
    exact ⟨[], hbegun⟩

/-- The host skips the file that a stored upload is at. -/
theorem Tracks.skips (h : up.Tracks d s) (hlive : up.Live s) {n : ℤ} {offsetBlk : ℕ}
    (hexpects : (s.readHeap up.ref).Expects n) (hinactive : (s.readHeap up.ref).active = false) :
    up.Tracks d ((s.observe (.host (.sendConfirm up.id n true offsetBlk))).advanceUploadAfterFile
      up.id up.ref n) := by
  obtain ⟨hbase, hlt, passed, f, rest, sent, hat⟩ := h
  generalize ho : Observation.host (.sendConfirm up.id n true offsetBlk) = o
  have hbase' : up.base <+: (s.observe o).log := hbase.trans (List.prefix_append _ _)
  have hqueued : o.queued? up.id = none := by rw [← ho]; rfl
  have hanswer (m : ℤ) : o.answer? up.id m = if n = m then some .skip else none := by
    rw [← ho]
    simp [Observation.answer?]
  obtain ⟨hahead, hfirst⟩ := hat.job.answers hexpects hanswer
  obtain ⟨rfl, hskip⟩ := hfirst hinactive
  obtain ⟨hresting, hlasts, hthrough⟩ := hat.skip hlive hinactive hqueued hahead hskip
  rw [← view_observe hbase] at hthrough
  have hjob : up.JobAt (up.view (s.observe o)).job f rest := hat.job
  have hlasts' : up.Lasts d (up.view (s.observe o)) := hlasts
  obtain ⟨hinitial, hnext, hpump⟩ := advanceUploadAfterFile_frame (s.observe o) up.id up.ref f.1
  obtain ⟨passed', f', rest', sent', hplace⟩ :=
    hthrough.advance hbase' hjob hlasts' (fun _ => rfl) hresting
  have hphase : (up.view ((s.observe o).advanceUploadAfterFile up.id up.ref f.1)).phase =
      (up.view s).phase := by
    simp only [view, FtConnection.phaseOf, hpump]
    rfl
  refine ⟨hbase'.trans hinitial, hnext ▸ hlt, passed', f', rest', sent', ?_⟩
  rw [← hphase] at hplace
  exact hplace

/-- An answer of the host that is in turn. -/
theorem Tracks.hears (h : up.Tracks d s) {n : ℤ} {skip : Bool} {offsetBlk : ℕ}
    (hturn : up.Live s → (s.readHeap up.ref).Expects n ∧
      ((s.readHeap up.ref).active = true → skip = false ∧ offsetBlk = 0)) :
    up.Tracks d ((s.observe (.host (.sendConfirm up.id n skip offsetBlk))).handleSendConfirm
      up.id n skip offsetBlk) := by
  rcases h.entry with hlive | hgone
  · have hget : (s.observe (.host (.sendConfirm up.id n skip offsetBlk))).readJobs.get? up.id =
        some up.ref := hlive
    obtain ⟨hexpects, hactive⟩ := hturn hlive
    simp only [FtConnection.handleSendConfirm, hget]
    cases skip with
    | true =>
      have hinactive : (s.readHeap up.ref).active = false := by
        cases hisActive : (s.readHeap up.ref).active with
        | false => rfl
        | true =>
          obtain ⟨hskip, -⟩ := hactive hisActive
          cases hskip
      exact h.skips hlive hexpects hinactive
    | false =>
      have hanswer (m : ℤ) :
          (Observation.host (.sendConfirm up.id n false offsetBlk)).answer? up.id m =
            if n = m then some (.goOn offsetBlk) else none := by
        simp [Observation.answer?]
      have hkeeps (hisActive : (s.readHeap up.ref).active = true) :
          ((s.readHeap up.ref).confirm offsetBlk).offset = (s.readHeap up.ref).offset ∧
            ((s.readHeap up.ref).confirm offsetBlk).blkId = (s.readHeap up.ref).blkId := by
        obtain ⟨-, rfl⟩ := hactive hisActive
        exact ⟨rfl, rfl⟩
      have hconfirmed := h.goesOn hlive hexpects rfl hanswer (g := (·.confirm offsetBlk))
        (fun _ _ hjob => hjob.confirm offsetBlk) (FtConnection.confirm_active _ offsetBlk) hkeeps
        fun hoffset hblkId => confirm_blkId hoffset hblkId offsetBlk
      exact hconfirmed.confirmed
  · have hget : (s.observe (.host (.sendConfirm up.id n skip offsetBlk))).readJobs.get? up.id =
        none := hgone
    simp only [FtConnection.handleSendConfirm, hget]
    exact h.observe_gone rfl hgone

/-- A confirmation that is sent for an upload activates it. -/
theorem sendConfirm_of_some {k n : ℤ} {ref : ℕ} {offsetBlk : ℕ}
    (hget : s.readJobs.get? k = some ref) : s.sendConfirm k n false offsetBlk =
      (s.updateRead ref .activate).sendMessage (.sendConfirm k n false offsetBlk) := by
  have hjobs := (FtConnection.sendMessage_frame s (.sendConfirm k n false offsetBlk)).2
  have hcommute : (s.sendMessage (.sendConfirm k n false offsetBlk)).updateRead ref .activate =
      (s.updateRead ref .activate).sendMessage (.sendConfirm k n false offsetBlk) := by
    have hws : (s.updateRead ref .activate).ws = s.ws := rfl
    unfold FtConnection.sendMessage
    rw [hws]
    split_ifs <;> rfl
  unfold FtConnection.sendConfirm
  dsimp only
  rw [hjobs, hget]
  exact hcommute

/-- Without a job a confirmation is a message only. -/
theorem sendConfirm_of_none {k n : ℤ} {offsetBlk : ℕ} (hget : s.readJobs.get? k = none) :
    s.sendConfirm k n false offsetBlk = s.sendMessage (.sendConfirm k n false offsetBlk) := by
  have hjobs := (FtConnection.sendMessage_frame s (.sendConfirm k n false offsetBlk)).2
  unfold FtConnection.sendConfirm
  dsimp only
  rw [hjobs, hget]

/-- Sending a message keeps the upload tracked. -/
theorem Tracks.sendMessage (h : up.Tracks d s) (m : OutMessage) :
    up.Tracks d (s.sendMessage m) := h.apart (FtConnection.apart_sendMessage m)

/-- `sendConfirm` for a file that the upload is at already. -/
theorem Tracks.sendConfirm (h : up.Tracks d s) (n : ℤ)
    (hactive : up.Live s → (s.readHeap up.ref).active = true) :
    up.Tracks d (s.sendConfirm up.id n false 0) := by
  rcases h.entry with hlive | hgone
  · rw [sendConfirm_of_some hlive]
    exact (h.activate (hactive hlive)).sendMessage _
  · rw [sendConfirm_of_none hgone]
    exact h.sendMessage _

/-- The user overrides the file that a stored upload is at. -/
theorem Tracks.overridden (h : up.Tracks d s) (hlive : up.Live s) {n : ℤ}
    (hexpects : (s.readHeap up.ref).Expects n) (isUpload : Bool) :
    up.Tracks d ((s.observe (.call (.confirmOverrideFile up.id n true isUpload))).updateRead
      up.ref .activate) := by
  have hanswer (m : ℤ) :
      (Observation.call (.confirmOverrideFile up.id n true isUpload)).answer? up.id m =
        if n = m then some (.goOn 0) else none := by
    simp [Observation.answer?]
  apply h.goesOn hlive hexpects rfl hanswer
  · exact fun _ _ hjob => hjob.congr rfl rfl rfl rfl rfl
  · rfl
  · exact fun _ => ⟨rfl, rfl⟩
  · intro hoffset hblkId
    rw [Nat.zero_mul]
    exact ⟨hoffset, hblkId⟩

/-- The user overrides the file that the upload is at. -/
theorem Tracks.overrides (h : up.Tracks d s) {n : ℤ} {isUpload : Bool}
    (hturn : up.Live s → (s.readHeap up.ref).Expects n) :
    up.Tracks d ((s.observe (.call (.confirmOverrideFile up.id n true isUpload))).onCall
      (.confirmOverrideFile up.id n true isUpload)) := by
  have hentry := h.entry
  have hgone := h.observe_gone (o := .call (.confirmOverrideFile up.id n true isUpload)) rfl
  have hoverridden (hlive : up.Live s) := h.overridden hlive (hturn hlive) isUpload
  have hget : (s.observe (.call (.confirmOverrideFile up.id n true isUpload))).readJobs.get? up.id =
      s.readJobs.get? up.id := rfl
  simp only [FtConnection.onCall, FtConnection.confirmOverrideFile, Bool.and_true, Bool.not_true]
  generalize s.observe (.call (.confirmOverrideFile up.id n true isUpload)) = t at *
  have hjobs := (FtConnection.sendConfirm_frame t up.id n false 0).2
  rcases hentry with hlive | hnone
  · rw [hlive] at hget
    have hactivated := (hoverridden hlive).sendMessage (.sendConfirm up.id n false 0)
    rw [← sendConfirm_of_some hget] at hactivated
    split_ifs
    · simp only [hjobs, hget]
      apply hactivated.activate
      rw [sendConfirm_of_some hget, (FtConnection.calm_sendMessage _).readHeap,
        FtConnection.updateRead_same]
      rfl
    · exact hactivated
  · rw [hnone] at hget
    have hsent := (hgone hnone).sendMessage (.sendConfirm up.id n false 0)
    rw [← sendConfirm_of_none hget] at hsent
    split_ifs
    · simp only [hjobs, hget]
      exact hsent
    · exact hsent

end Upload

/-- Answers for an upload that lasts are for the file that was asked about; once its blocks are
sent, only confirmations from its start or of earlier files come. Nothing else activates its job,
and the id is used once. -/
def FtEvent.InTurn (id : ℤ) (s : FtConnection) : FtEvent → Prop
  | .host (.sendConfirm id' n skip offsetBlk) =>
    id' = id → ∀ ref, s.readJobs.get? id = some ref → (s.readHeap ref).Expects n ∧
      ((s.readHeap ref).active = true → skip = false ∧ offsetBlk = 0)
  | .host (.digest id' _ false _) =>
    id' = id → ∀ ref, s.readJobs.get? id = some ref → (s.readHeap ref).active = true
  | .call (.resumeJob id' false) =>
    id' = id → ∀ ref, s.readJobs.get? id = some ref → (s.readHeap ref).active = true
  | .call (.confirmOverrideFile id' n true _) =>
    id' = id → ∀ ref, s.readJobs.get? id = some ref → (s.readHeap ref).Expects n
  | .call c => c.starts = true → c.id? ≠ some id
  | _ => True

namespace Upload

variable {up : Upload} {d : Prop} {s t u : FtConnection}
  {decompress : List UInt8 → Option (List UInt8)}

/-- The first answer for the file that was asked about. -/
theorem inTurn_of_waiting {id n : ℤ} {ref : ℕ} {skip : Bool} {offsetBlk : ℕ}
    (hget : s.readJobs.get? id = some ref) (hnum : n = (s.readHeap ref).fileNum)
    (hactive : (s.readHeap ref).active = false) :
    (FtEvent.host (.sendConfirm id n skip offsetBlk)).InTurn id s := by
  rintro - ref' hget'
  obtain rfl := Option.some.inj (hget.symm.trans hget')
  refine ⟨?_, fun htrue => ?_⟩
  · simp [ReadJob.Expects, hactive, hnum]
  · rw [hactive] at htrue
    cases htrue

/-- The job keeps the id of the upload. -/
theorem Tracks.job_id (h : up.Tracks d s) : (s.readHeap up.ref).id = up.id := by
  obtain ⟨-, -, _, _, _, _, hat⟩ := h
  exact hat.job.id

/-- An observation that is nothing to the upload. -/
theorem Tracks.observe (h : up.Tracks d s) {o : Observation} (ho : o.Foreign up.id) :
    up.Tracks d (s.observe o) := h.apart (FtConnection.apart_observe ho)

/-- A step that works on the upload. -/
theorem Tracks.own_step {e : FtEvent} (h : up.Tracks d s) (hconcerns : e.Concerns up.id s)
    (hturn : e.InTurn up.id s) (hdrop : e.Drops up.id s → d ∨ s.readJobs.get? up.id = none)
    (hstep : s.step decompress e = some t) : up.Tracks d t := by
  -- the pump that works for the id is the pump of the upload
  have hpumps {k : ℤ} {phase : PumpPhase} (hpump : s.pump = some ⟨k, phase⟩)
      (hsome : s.phaseOf up.id ≠ none) : k = up.id := by
    by_contra hk
    simp [FtConnection.phaseOf, hpump, hk] at hsome
  cases FtConnection.performed_of_step hstep with
  | host m =>
    cases m with
    | sendConfirm k n skip offsetBlk =>
      obtain rfl : k = up.id := hconcerns
      exact h.hears fun hlive => hturn rfl up.ref hlive
    | digest k n isUpload isIdentical =>
      cases isUpload with
      | true => exact hconcerns.elim
      | false =>
        obtain rfl : k = up.id := hconcerns
        have hheard : up.Tracks d (s.observe (.host (.digest up.id n false isIdentical))) :=
          h.observe ⟨rfl, fun _ => rfl⟩
        simp only [FtConnection.onHostMessage, FtConnection.handleDigest]
        split
        · exact hheard
        · exact hheard.sendConfirm n fun hlive => hturn rfl up.ref hlive
    | _ => exact hconcerns.elim
  | sliceRead failure hpump =>
    obtain rfl := hpumps hpump hconcerns
    exact h.sliceRead hpump hdrop
  | pumpContinues hpump =>
    obtain rfl := hpumps hpump hconcerns
    exact h.pumpBlock hpump
  | timer hpump =>
    obtain rfl := hpumps hpump hconcerns
    apply h.pumpTurn
    simp [FtConnection.phaseOf, hpump, PumpPhase.Resting]
  | call c =>
    cases c with
    | resumeJob k isRemote =>
      cases isRemote with
      | true => exact absurd hconcerns.1 (by simp [BridgeCall.starts])
      | false =>
        obtain rfl : k = up.id := hconcerns
        have hheard : up.Tracks d (s.observe (.call (.resumeJob up.id false))) :=
          h.observe ⟨rfl, fun _ => rfl⟩
        simp only [FtConnection.onCall, FtConnection.resumeJob, Bool.false_eq_true, if_false]
        split
        · rename_i ref hget
          have hactive := hturn rfl ref hget
          obtain ⟨-, -, _, _, _, _, hat⟩ := h
          obtain rfl : ref = up.ref := by
            rcases hat.entry with hlive | hgone
            · exact Option.some.inj (hget.symm.trans hlive)
            · exact absurd (hget.symm.trans hgone) (by simp)
          split_ifs
          · exact (hheard.activate hactive).pumpUploadBlocks
          · exact hheard
        · exact hheard
    | confirmOverrideFile k n needOverride isUpload =>
      cases needOverride with
      | false => exact absurd hconcerns.1 (by simp [BridgeCall.starts])
      | true =>
        obtain rfl : k = up.id := hconcerns
        exact h.overrides fun hlive => hturn rfl up.ref hlive
    | sendFiles => exact absurd hconcerns.2 (hturn hconcerns.1)
    | sendLocalFiles => exact absurd hconcerns.2 (hturn hconcerns.1)
    | sendFolderUpload => exact absurd hconcerns.2 (hturn hconcerns.1)
    | addJob => exact absurd hconcerns.2 (hturn hconcerns.1)
    | _ => exact absurd hconcerns.1 (by simp [BridgeCall.starts])
  | _ => exact hconcerns.elim

/-- **One step.** -/
theorem Tracks.step {e : FtEvent} (h : up.Tracks d s) (hkeyed : s.Keyed)
    (hturn : e.InTurn up.id s) (hdrop : e.Drops up.id s → d ∨ s.readJobs.get? up.id = none)
    (hstep : s.step decompress e = some t) : up.Tracks d t := by
  by_cases hconcerns : e.Concerns up.id s
  · exact h.own_step hconcerns hturn hdrop hstep
  · exact h.apart (FtConnection.apart_step hkeyed h.allocated h.job_id hdrop hconcerns hstep)

/-- **A run.** -/
theorem tracks_run {registered : Bool} {events : List FtEvent} (h : up.Tracks d s)
    (hkeyed : s.Keyed)
    (hrun : (ftMachine decompress registered).RunWhere (fun s e => e.InTurn up.id s ∧
      (e.Drops up.id s → d ∨ s.readJobs.get? up.id = none)) s events t) : up.Tracks d t := by
  have hboth : t.Keyed ∧ up.Tracks d t := by
    apply hrun.invariant (P := fun s => s.Keyed ∧ up.Tracks d s)
    · rintro s e t ⟨hturn, hdrop⟩ hstep ⟨hkeyed, htracks⟩
      exact ⟨hkeyed.step hstep, htracks.step hkeyed hturn hdrop hstep⟩
    · exact ⟨hkeyed, h⟩
  exact hboth.2

end Upload

end RdWeb.FileTransfer
