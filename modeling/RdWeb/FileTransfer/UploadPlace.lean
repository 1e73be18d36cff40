import RdWeb.FileTransfer.Apart

/-!
# The place of an upload in its listing

What is queued for an upload is at any time the messages of the files it has passed, the
digest of the current file, and those of its blocks that the pump is through with. This is
said of what the upload depends on in a connection, and kept by all that can happen to it.
-/

namespace RdWeb.FileTransfer

/-- An answer for the file the job is at, or a late one once that is answered. -/
def ReadJob.Expects (job : ReadJob) (n : ℤ) : Prop :=
  if job.active then n ≤ job.fileNum else n = job.fileNum

/-- What an upload depends on in a connection. -/
structure View where
  job : ReadJob
  /-- The entry of the table. -/
  entry : Option ℕ
  /-- Where the pump waits for the upload. -/
  phase : Option PumpPhase
  /-- The history since the upload was started. -/
  later : List Observation

/-- The block the pump holds and has not queued. -/
def PumpPhase.pending (id n : ℤ) (blkId : ℕ) : Option PumpPhase → List OutMessage
  | some (.returned _ data _) => if data ≠ [] then [.block id n data false blkId] else []
  | _ => []

/-- The pump does not wait with a job in its hands. -/
def PumpPhase.Resting : Option PumpPhase → Prop
  | some (.reading ..) | some (.returned ..) => False
  | _ => True

/-- What the pump holds belongs to the file the job is at. -/
def PumpPhase.Fits (ref : ℕ) (job : ReadJob) (file : File) : Option PumpPhase → Prop
  | some (.reading r f data) =>
    r = ref ∧ f = file ∧ data = job.nextSlice file ∧ job.offset < file.size
  | some (.returned r _ finished) => r = ref ∧ finished = decide (file.size ≤ job.offset)
  | _ => True

namespace PumpPhase

/-- A pump that rests has nothing pending. -/
theorem Resting.pending {phase : Option PumpPhase} (h : Resting phase) (id n : ℤ) (blkId : ℕ) :
    pending id n blkId phase = [] := by
  rcases phase with _ | _ | _ | _
  · rfl
  · exact h.elim
  · exact h.elim
  · rfl

/-- A pump that rests fits any job. -/
theorem Resting.fits {phase : Option PumpPhase} (h : Resting phase) (ref : ℕ) (job : ReadJob)
    (file : File) : Fits ref job file phase := by
  rcases phase with _ | _ | _ | _
  · trivial
  · exact h.elim
  · exact h.elim
  · trivial

/-- Where a turn of the pump waits for an active job. -/
def next (ref : ℕ) (job : ReadJob) (file : File) : PumpPhase :=
  if file.size ≤ job.offset then .returned ref [] true
  else .reading ref file (job.nextSlice file)

/-- The next slice fits its job. -/
theorem fits_next (ref : ℕ) (job : ReadJob) (file : File) :
    Fits ref job file (some (next ref job file)) := by
  unfold next
  split_ifs with hend
  · exact ⟨rfl, (decide_eq_true hend).symm⟩
  · exact ⟨rfl, rfl, rfl, Nat.lt_of_not_le hend⟩

/-- The next slice has not been sent. -/
theorem pending_next (id n : ℤ) (blkId ref : ℕ) (job : ReadJob) (file : File) :
    pending id n blkId (some (next ref job file)) = [] := by
  unfold next
  split_ifs <;> rfl

end PumpPhase

namespace Upload

/-- What the upload sees of the connection. -/
def view (up : Upload) (s : FtConnection) : View :=
  ⟨up.job s, s.readJobs.get? up.id, s.phaseOf up.id, up.since s⟩

/-- The upload lasts, or it was dropped where that may be. -/
def Lasts (up : Upload) (d : Prop) (v : View) : Prop :=
  v.entry = some up.ref ∨ d ∧ v.entry = none

/-- The job is at a file. -/
structure JobAt (up : Upload) (job : ReadJob) (f : Listed) (rest : List Listed) : Prop where
  id : job.id = up.id
  files : job.uploadFiles = up.files
  count : job.files.length = up.count
  fileNum : job.fileNum = f.1
  current : job.currentFile = some f.2
  follows : Follows up.files up.count f.1 rest

/-- How far the upload is with a file, and the blocks of it that are queued. -/
inductive Stage (up : Upload) (d : Prop) (v : View) (f : Listed) (rest : List Listed) :
    List OutMessage → Prop
  | waiting (hactive : v.job.active = false) (hoffset : v.job.offset = 0)
      (hblkId : v.job.blkId = 0) (hresting : PumpPhase.Resting v.phase) (hlasts : up.Lasts d v)
      (hopen : v.entry = some up.ref → answer? up.id f.1 v.later = none) : Stage up d v f rest []
  | sending {offsetBlk : ℕ} {sent : List OutMessage} (hactive : v.job.active = true)
      (hanswer : answer? up.id f.1 v.later = some (.goOn offsetBlk))
      (hfits : PumpPhase.Fits up.ref v.job f.2 v.phase) (hlasts : up.Lasts d v)
      (hblocks : sent ++ PumpPhase.pending up.id f.1 v.job.blkId v.phase ++
        blocks up.id f.1 (f.2.bytes.drop v.job.offset) v.job.blkId =
          f.answered up.id (.goOn offsetBlk)) : Stage up d v f rest sent
  | finished {offsetBlk : ℕ} (hanswer : answer? up.id f.1 v.later = some (.goOn offsetBlk))
      (hgone : v.entry = none) (hresting : PumpPhase.Resting v.phase) (hlast : rest = []) :
      Stage up d v f rest (f.answered up.id (.goOn offsetBlk) ++ [.done up.id f.1])
  | skipped (hanswer : answer? up.id f.1 v.later = some .skip) (hgone : v.entry = none)
      (hresting : PumpPhase.Resting v.phase) (hlast : rest = []) : Stage up d v f rest []

/-- The upload is at a file: it has passed the files before, and not come to those after. -/
structure At (up : Upload) (d : Prop) (v : View) (passed : List Listed) (f : Listed)
    (rest : List Listed) (sent : List OutMessage) : Prop where
  listing : up.listing = passed ++ f :: rest
  job : up.JobAt v.job f rest
  ahead : v.entry = some up.ref → ∀ m, f.1 < m → answer? up.id m v.later = none
  answered : ∀ g ∈ passed, ∃ a, answer? up.id g.1 v.later = some a
  queued : up.unsent ++ queuedAbout up.id v.later =
    up.receive :: (passed.flatMap (·.messages up.id v.later) ++ f.digest up.id :: sent)
  confirmed : History.Grounded (Earned up.id) v.later
  stage : up.Stage d v f rest sent

variable {up : Upload} {d : Prop} {v : View} {passed rest : List Listed} {f : Listed}
  {sent : List OutMessage}

/-! ## What the view can go through -/

/-- Later answers for the files that are passed change nothing. -/
theorem flatMap_messages_append (log later : List Observation)
    (h : ∀ g ∈ passed, ∃ a, answer? up.id g.1 log = some a) :
    passed.flatMap (·.messages up.id (log ++ later)) =
      passed.flatMap (·.messages up.id log) := by
  apply List.flatMap_congr
  intro g hmem
  obtain ⟨a, ha⟩ := h g hmem
  rw [Listed.messages_of_answer ha, Listed.messages_of_answer (answer?_append_of_some ha)]

/-- An observation that queues nothing, and answers nothing that is still open. -/
theorem At.observe (h : up.At d v passed f rest sent) {o : Observation}
    (hqueued : o.queued? up.id = none)
    (hahead : v.entry = some up.ref → ∀ m, f.1 < m → o.answer? up.id m = none)
    (hopen : v.entry = some up.ref → v.job.active = false → o.answer? up.id f.1 = none) :
    up.At d { v with later := v.later ++ [o] } passed f rest sent where
  listing := h.listing
  job := h.job
  ahead hlive m hm := by
    apply answer?_append_of_none (h.ahead hlive m hm)
    rw [answer?_singleton, hahead hlive m hm]
  answered := answered_append h.answered [o]
  queued := by
    rw [queuedAbout_append, queuedAbout_of_not_queued hqueued, List.append_nil, h.queued,
      flatMap_messages_append v.later [o] h.answered]
  confirmed := h.confirmed.concat (earned_of_not_queued hqueued _)
  stage := by
    cases h.stage with
    | waiting hactive hoffset hblkId hresting hlasts hnone =>
      refine .waiting hactive hoffset hblkId hresting hlasts fun hlive => ?_
      apply answer?_append_of_none (hnone hlive)
      rw [answer?_singleton, hopen hlive hactive]
    | sending hactive hanswer hfits hlasts hblocks =>
      exact .sending hactive (answer?_append_of_some hanswer) hfits hlasts hblocks
    | finished hanswer hgone hresting hlast =>
      exact .finished (answer?_append_of_some hanswer) hgone hresting hlast
    | skipped hanswer hgone hresting hlast =>
      exact .skipped (answer?_append_of_some hanswer) hgone hresting hlast

/-- Observations that are nothing to the upload. -/
theorem At.foreign (h : up.At d v passed f rest sent) {l : List Observation}
    (hl : ∀ o ∈ l, o.Foreign up.id) :
    up.At d { v with later := v.later ++ l } passed f rest sent := by
  induction l generalizing v with
  | nil => simpa using h
  | cons o l ih =>
    obtain ⟨hqueued, hanswer⟩ := hl o (by simp)
    have hone := h.observe hqueued (fun _ m _ => hanswer m) fun _ _ => hanswer f.1
    have hrest := ih hone fun o' hmem => hl o' (by simp [hmem])
    simpa using hrest

/-- With the same history, the place is a matter of the job and the stage. -/
theorem At.restage (h : up.At d v passed f rest sent) {v' : View} (hlater : v'.later = v.later)
    (hentry : v'.entry = some up.ref → v.entry = some up.ref) (hjob : up.JobAt v'.job f rest)
    (hstage : up.Stage d v' f rest sent) : up.At d v' passed f rest sent where
  listing := h.listing
  job := hjob
  ahead hlive := hlater ▸ h.ahead (hentry hlive)
  answered := hlater ▸ h.answered
  queued := hlater ▸ h.queued
  confirmed := hlater ▸ h.confirmed
  stage := hstage

/-- Dropping the upload where it may be dropped. -/
theorem At.drop (h : up.At d v passed f rest sent) (hd : d) :
    up.At d { v with entry := none } passed f rest sent := by
  have hlasts : up.Lasts d { v with entry := none } := .inr ⟨hd, rfl⟩
  refine h.restage rfl (fun hlive => by cases hlive) h.job ?_
  cases h.stage with
  | waiting hactive hoffset hblkId hresting _ _ =>
    exact .waiting hactive hoffset hblkId hresting hlasts fun hlive => by cases hlive
  | sending hactive hanswer hfits _ hblocks => exact .sending hactive hanswer hfits hlasts hblocks
  | finished hanswer _ hresting hlast => exact .finished hanswer rfl hresting hlast
  | skipped hanswer _ hresting hlast => exact .skipped hanswer rfl hresting hlast

/-- Fields that only the progress display reads. -/
theorem At.retouch (h : up.At d v passed f rest sent) {job : ReadJob}
    (hjob : up.JobAt job f rest) (hactive : job.active = v.job.active)
    (hoffset : job.offset = v.job.offset) (hblkId : job.blkId = v.job.blkId) :
    up.At d { v with job := job } passed f rest sent := by
  refine h.restage rfl (fun hlive => hlive) hjob ?_
  cases h.stage with
  | waiting hactive' hoffset' hblkId' hresting hlasts hopen =>
    exact .waiting (hactive.trans hactive') (hoffset.trans hoffset') (hblkId.trans hblkId')
      hresting hlasts hopen
  | sending hactive' hanswer hfits hlasts hblocks =>
    have hslice : job.nextSlice f.2 = v.job.nextSlice f.2 := by
      rw [ReadJob.nextSlice, ReadJob.nextSlice, hoffset]
    refine .sending (hactive.trans hactive') hanswer ?_ hlasts ?_
    · unfold PumpPhase.Fits at hfits ⊢
      rw [hslice, hoffset]
      exact hfits
    · simp only [hoffset, hblkId]
      exact hblocks
  | finished hanswer hgone hresting hlast => exact .finished hanswer hgone hresting hlast
  | skipped hanswer hgone hresting hlast => exact .skipped hanswer hgone hresting hlast

/-- A pump that holds nothing may wait anywhere else with nothing in its hands. -/
theorem At.repose (h : up.At d v passed f rest sent) (hresting : PumpPhase.Resting v.phase)
    {phase : Option PumpPhase} (hphase : PumpPhase.Resting phase) :
    up.At d { v with phase := phase } passed f rest sent := by
  refine h.restage rfl (fun hlive => hlive) h.job ?_
  cases h.stage with
  | waiting hactive hoffset hblkId _ hlasts hopen =>
    exact .waiting hactive hoffset hblkId hphase hlasts hopen
  | sending hactive hanswer _ hlasts hblocks =>
    refine .sending hactive hanswer (hphase.fits _ _ _) hlasts ?_
    rw [hphase.pending]
    rwa [hresting.pending] at hblocks
  | finished hanswer hgone _ hlast => exact .finished hanswer hgone hphase hlast
  | skipped hanswer hgone _ hlast => exact .skipped hanswer hgone hphase hlast

/-- The answer the upload waits for. -/
theorem At.begin (h : up.At d v passed f rest sent) (hlive : v.entry = some up.ref)
    (hinactive : v.job.active = false) {o : Observation} {offsetBlk : ℕ}
    (hqueued : o.queued? up.id = none) (hahead : ∀ m, f.1 < m → o.answer? up.id m = none)
    (hanswer : o.answer? up.id f.1 = some (.goOn offsetBlk)) {job : ReadJob}
    (hjob : up.JobAt job f rest) (hactive : job.active = true)
    (hoffset : job.offset = offsetBlk * BLOCK_SIZE) (hblkId : job.blkId = offsetBlk) :
    sent = [] ∧ PumpPhase.Resting v.phase ∧
      up.At d { v with job := job, later := v.later ++ [o] } passed f rest [] := by
  have hgone {p : Prop} (hgone : v.entry = none) : p := by
    rw [hlive] at hgone
    cases hgone
  cases h.stage with
  | waiting _ _ _ hresting hlasts hopen =>
    refine ⟨rfl, hresting, h.listing, hjob, fun _ m hm => ?_, answered_append h.answered [o], ?_,
      h.confirmed.concat (earned_of_not_queued hqueued _), ?_⟩
    · apply answer?_append_of_none (h.ahead hlive m hm)
      rw [answer?_singleton, hahead m hm]
    · rw [queuedAbout_append, queuedAbout_of_not_queued hqueued, List.append_nil, h.queued,
        flatMap_messages_append v.later [o] h.answered]
    · have hfirst : answer? up.id f.1 (v.later ++ [o]) = some (.goOn offsetBlk) := by
        rw [answer?_append, hopen hlive, Option.none_or, answer?_singleton, hanswer]
      refine .sending hactive hfirst (hresting.fits _ _ _) hlasts ?_
      have hpending := hresting.pending up.id f.1 job.blkId
      rw [hpending, List.nil_append, List.nil_append, hoffset, hblkId, Listed.answered]
  | sending hactive' => rw [hactive'] at hinactive; cases hinactive
  | finished _ h' => exact hgone h'
  | skipped _ h' => exact hgone h'

/-- A stored job that is not active has sent nothing of its file. -/
theorem At.at_start (h : up.At d v passed f rest sent) (hlive : v.entry = some up.ref)
    (hinactive : v.job.active = false) : v.job.offset = 0 ∧ v.job.blkId = 0 := by
  cases h.stage with
  | waiting _ hoffset hblkId => exact ⟨hoffset, hblkId⟩
  | sending hactive => rw [hinactive] at hactive; cases hactive
  | finished _ hgone => rw [hlive] at hgone; cases hgone
  | skipped _ hgone => rw [hlive] at hgone; cases hgone

/-- A turn of the pump, for a job that is active. -/
theorem At.turn (h : up.At d v passed f rest sent) (hlive : v.entry = some up.ref)
    (hactive : v.job.active = true) (hresting : PumpPhase.Resting v.phase) :
    up.At d { v with phase := some (.next up.ref v.job f.2) } passed f rest sent := by
  refine h.restage rfl (fun hlive => hlive) h.job ?_
  cases h.stage with
  | waiting hinactive => rw [hactive] at hinactive; cases hinactive
  | sending _ hanswer _ hlasts hblocks =>
    refine .sending hactive hanswer (PumpPhase.fits_next _ _ _) hlasts ?_
    rw [hresting.pending] at hblocks
    rw [PumpPhase.pending_next]
    exact hblocks
  | finished _ hgone => rw [hlive] at hgone; cases hgone
  | skipped _ hgone => rw [hlive] at hgone; cases hgone

/-- The next slice is the next block of the bytes. -/
theorem nextSlice_eq (job : ReadJob) (file : File) :
    job.nextSlice file = (file.bytes.drop job.offset).take BLOCK_SIZE := by
  unfold ReadJob.nextSlice File.readFileChunk File.size
  apply List.take_eq_take_iff.mpr
  rw [List.length_drop]
  omega

/-- What is left of a file behind a slice. -/
theorem drop_length_take {bytes : List UInt8} (size : ℕ) :
    bytes.drop (bytes.take size).length = bytes.drop size := by
  rw [List.length_take]
  by_cases h : size ≤ bytes.length
  · rw [Nat.min_eq_left h]
  · have hshort : bytes.length ≤ size := by omega
    rw [Nat.min_eq_right hshort, List.drop_length, List.drop_of_length_le hshort]

/-- The slice was read. -/
theorem At.read (h : up.At d v passed f rest sent) {r : ℕ} {file : File} {data : List UInt8}
    (hphase : v.phase = some (.reading r file data)) :
    r = up.ref ∧ file = f.2 ∧
      up.At d { v with
        job := v.job.afterRead data
        phase := some (.returned r data (f.2.size ≤ (v.job.afterRead data).offset)) }
        passed f rest sent := by
  have hbusy {p : Prop} (hresting : PumpPhase.Resting v.phase) : p := by
    rw [hphase] at hresting
    exact hresting.elim
  cases h.stage with
  | waiting _ _ _ hresting => exact hbusy hresting
  | finished _ _ hresting => exact hbusy hresting
  | skipped _ _ hresting => exact hbusy hresting
  | sending hactive hanswer hfits hlasts hblocks =>
    rw [hphase] at hfits hblocks
    obtain ⟨rfl, rfl, hdata, hlt⟩ := hfits
    have hslice : data = (f.2.bytes.drop v.job.offset).take BLOCK_SIZE := by
      rw [hdata, nextSlice_eq]
    have hleft : f.2.bytes.drop v.job.offset ≠ [] := by
      intro hnil
      have hlength := List.drop_eq_nil_iff.mp hnil
      unfold File.size at hlt
      omega
    have hne : data ≠ [] := by
      rw [hslice]
      simp [hleft, BLOCK_SIZE]
    have hbehind : f.2.bytes.drop (v.job.offset + data.length) =
        (f.2.bytes.drop v.job.offset).drop BLOCK_SIZE := by
      rw [← List.drop_drop, hslice, drop_length_take]
    refine ⟨rfl, rfl, h.listing, ?_, h.ahead, h.answered, h.queued, h.confirmed, ?_⟩
    · obtain ⟨hid, hfiles, hcount, hnum, hcurrent, hfollows⟩ := h.job
      exact ⟨hid, hfiles, hcount, hnum, hcurrent, hfollows⟩
    · refine .sending hactive hanswer ⟨rfl, rfl⟩ hlasts ?_
      rw [blocks_of_ne_nil _ _ hleft, ← hslice, ← hbehind] at hblocks
      simpa [PumpPhase.pending, hne, ReadJob.afterRead] using hblocks

/-- The block in the hands of the pump is queued. -/
theorem At.queueBlock (h : up.At d v passed f rest sent) {r : ℕ} {data : List UInt8}
    {finished : Bool} (hphase : v.phase = some (.returned r data finished))
    {phase : Option PumpPhase} (hresting : PumpPhase.Resting phase) :
    r = up.ref ∧ up.Lasts d v ∧ ∃ offsetBlk, answer? up.id f.1 v.later = some (.goOn offsetBlk) ∧
      up.At d { v with
        phase := phase
        later := v.later ++
          (PumpPhase.pending up.id f.1 v.job.blkId v.phase).map .queued } passed f rest
        (sent ++ PumpPhase.pending up.id f.1 v.job.blkId v.phase) ∧
      (finished = true → sent ++ PumpPhase.pending up.id f.1 v.job.blkId v.phase =
        f.answered up.id (.goOn offsetBlk)) := by
  have hbusy {p : Prop} (hresting : PumpPhase.Resting v.phase) : p := by
    rw [hphase] at hresting
    exact hresting.elim
  cases h.stage with
  | waiting _ _ _ hresting => exact hbusy hresting
  | finished _ _ hresting => exact hbusy hresting
  | skipped _ _ hresting => exact hbusy hresting
  | @sending offsetBlk _ hactive hanswer hfits hlasts hblocks =>
    rw [hphase] at hfits
    obtain ⟨rfl, hfinished⟩ := hfits
    generalize hblock : PumpPhase.pending up.id f.1 v.job.blkId v.phase = block at hblocks ⊢
    have hqueued : queuedAbout up.id (block.map .queued) = block := by
      apply queuedAbout_map_queued
      rw [← hblock, hphase]
      by_cases hdata : data = [] <;> simp [PumpPhase.pending, hdata, OutMessage.id?]
    have hearned : History.Grounded (Earned up.id)
        (v.later ++ block.map .queued) := by
      rw [← hblock, hphase]
      by_cases hdata : data = []
      · simpa [PumpPhase.pending, hdata] using h.confirmed
      · have hone : Earned up.id v.later
            (.queued (.block up.id f.1 data false v.job.blkId)) := by
          rintro n _ _ _ heq
          cases heq
          exact ⟨offsetBlk, hanswer⟩
        simpa [PumpPhase.pending, hdata] using h.confirmed.concat hone
    refine ⟨rfl, hlasts, offsetBlk, hanswer,
      ⟨h.listing, h.job, ?_, answered_append h.answered _, ?_, hearned, ?_⟩, ?_⟩
    · intro hlive m hm
      exact answer?_append_of_none (h.ahead hlive m hm) (answer?_map_queued up.id m block)
    · rw [queuedAbout_append, hqueued, ← List.append_assoc, h.queued,
        flatMap_messages_append v.later _ h.answered]
      simp
    · refine .sending hactive (answer?_append_of_some hanswer) (hresting.fits _ _ _) hlasts ?_
      rw [hresting.pending, List.append_nil]
      exact hblocks
    · intro hend
      have hsize : f.2.size ≤ v.job.offset := by simpa [hend] using hfinished
      have hnil : f.2.bytes.drop v.job.offset = [] := List.drop_of_length_le hsize
      rw [hnil, blocks_nil, List.append_nil] at hblocks
      exact hblocks

/-- A slice that could not be read ends the pump, not the upload. -/
theorem At.halt (h : up.At d v passed f rest sent) {r : ℕ} {file : File} {data : List UInt8}
    (hphase : v.phase = some (.reading r file data)) :
    up.At d { v with phase := none } passed f rest sent := by
  refine h.restage rfl (fun hlive => hlive) h.job ?_
  have hresting : PumpPhase.Resting none := trivial
  cases h.stage with
  | waiting hactive hoffset hblkId _ hlasts hopen =>
    exact .waiting hactive hoffset hblkId hresting hlasts hopen
  | sending hactive hanswer _ hlasts hblocks =>
    refine .sending hactive hanswer trivial hlasts ?_
    rwa [hphase] at hblocks
  | finished hanswer hgone _ hlast => exact .finished hanswer hgone hresting hlast
  | skipped hanswer hgone _ hlast => exact .skipped hanswer hgone hresting hlast

/-- The table holds the upload or nothing under its id. -/
theorem At.entry (h : up.At d v passed f rest sent) :
    v.entry = some up.ref ∨ v.entry = none := by
  cases h.stage with
  | waiting _ _ _ _ hlasts => exact hlasts.imp_right And.right
  | sending _ _ _ hlasts => exact hlasts.imp_right And.right
  | finished _ hgone => exact .inr hgone
  | skipped _ hgone => exact .inr hgone

/-! ## From one file to the next -/

/-- The upload is through with a file and has not turned to another. -/
structure Through (up : Upload) (v : View) (passed : List Listed) (f : Listed)
    (rest : List Listed) (a : Answer) : Prop where
  listing : up.listing = passed ++ f :: rest
  ahead : v.entry = some up.ref → ∀ m, f.1 < m → answer? up.id m v.later = none
  answered : ∀ g ∈ passed, ∃ a, answer? up.id g.1 v.later = some a
  answer : answer? up.id f.1 v.later = some a
  queued : up.unsent ++ queuedAbout up.id v.later =
    up.receive :: (passed.flatMap (·.messages up.id v.later) ++
      f.digest up.id :: f.answered up.id a)
  confirmed : History.Grounded (Earned up.id) v.later

/-- All blocks of the file are queued. -/
theorem At.through (h : up.At d v passed f rest sent) {a : Answer}
    (hanswer : answer? up.id f.1 v.later = some a) (hsent : sent = f.answered up.id a) :
    up.Through v passed f rest a :=
  ⟨h.listing, h.ahead, h.answered, hanswer, hsent ▸ h.queued, h.confirmed⟩

/-- The host skips the file. -/
theorem At.skip (h : up.At d v passed f rest sent) (hlive : v.entry = some up.ref)
    (hinactive : v.job.active = false) {o : Observation} (hqueued : o.queued? up.id = none)
    (hahead : ∀ m, f.1 < m → o.answer? up.id m = none)
    (hanswer : o.answer? up.id f.1 = some .skip) :
    PumpPhase.Resting v.phase ∧ up.Lasts d v ∧
      up.Through { v with later := v.later ++ [o] } passed f rest .skip := by
  cases h.stage with
  | sending hactive => rw [hactive] at hinactive; cases hinactive
  | finished _ hgone => rw [hlive] at hgone; cases hgone
  | skipped _ hgone => rw [hlive] at hgone; cases hgone
  | waiting _ _ _ hresting hlasts hopen =>
    refine ⟨hresting, hlasts, h.listing, fun _ m hm => ?_, answered_append h.answered [o], ?_, ?_,
      h.confirmed.concat (earned_of_not_queued hqueued _)⟩
    · apply answer?_append_of_none (h.ahead hlive m hm)
      rw [answer?_singleton, hahead m hm]
    · rw [answer?_append, hopen hlive, Option.none_or, answer?_singleton, hanswer]
    · rw [queuedAbout_append, queuedAbout_of_not_queued hqueued, List.append_nil, h.queued,
        flatMap_messages_append v.later [o] h.answered]
      rfl

/-- The messages about all files up to the one the upload is through with. -/
theorem Through.messages {a : Answer} (h : up.Through v passed f rest a) :
    up.unsent ++ queuedAbout up.id v.later =
      up.receive :: (passed ++ [f]).flatMap (·.messages up.id v.later) := by
  rw [h.queued, List.flatMap_append, List.flatMap_singleton, Listed.messages_of_answer h.answer]

/-- A message of the upload is about it. -/
theorem queuedAbout_queued {m : OutMessage} (h : m.id? = some up.id) :
    queuedAbout up.id [.queued m] = [m] := by
  simp [queuedAbout, Observation.queued?, h]

/-- The upload turns to the next file. -/
theorem Through.turnTo {g : Listed} {a : Answer} (h : up.Through v passed f (g :: rest) a)
    (hlt : f.1 < g.1) (hlasts : up.Lasts d v) {job : ReadJob} (hjob : up.JobAt job g rest)
    (hactive : job.active = false) (hoffset : job.offset = 0) (hblkId : job.blkId = 0)
    {phase : Option PumpPhase} (hresting : PumpPhase.Resting phase) :
    up.At d { v with
      job := job
      phase := phase
      later := v.later ++ [.queued (g.digest up.id)] } (passed ++ [f]) g rest [] := by
  have hahead (hlive : v.entry = some up.ref) (m : ℤ) (hm : f.1 < m) :
      answer? up.id m (v.later ++ [.queued (g.digest up.id)]) = none :=
    answer?_append_of_none (h.ahead hlive m hm) rfl
  have hanswered : ∀ e ∈ passed ++ [f], ∃ a, answer? up.id e.1 v.later = some a := by
    intro e hmem
    rcases List.mem_append.mp hmem with hmem | hmem
    · exact h.answered e hmem
    · rw [List.mem_singleton.mp hmem]
      exact ⟨a, h.answer⟩
  have hearned (m : OutMessage) (hm : ∀ n data compressed blkId,
      m ≠ .block up.id n data compressed blkId) : Earned up.id v.later (.queued m) :=
    fun n data compressed blkId heq => absurd (Observation.queued.inj heq) (hm _ _ _ _)
  refine ⟨by rw [h.listing]; simp, hjob, fun hlive m hm => ?_, answered_append hanswered _, ?_,
    h.confirmed.concat (hearned _ fun _ _ _ _ heq => by cases heq), ?_⟩
  · exact hahead hlive m (Int.lt_trans hlt hm)
  · rw [queuedAbout_append, queuedAbout_queued rfl, ← List.append_assoc, h.messages,
      flatMap_messages_append v.later _ hanswered]
    simp
  · exact .waiting hactive hoffset hblkId hresting hlasts fun hlive => hahead hlive g.1 hlt

/-- The last file is finished. -/
theorem Through.finish {offsetBlk : ℕ} (h : up.Through v passed f [] (.goOn offsetBlk))
    (hjob : up.JobAt v.job f []) {phase : Option PumpPhase} (hresting : PumpPhase.Resting phase) :
    up.At d { v with
      entry := none
      phase := phase
      later := v.later ++ [.queued (.done up.id f.1)] } passed f []
      (f.answered up.id (.goOn offsetBlk) ++ [.done up.id f.1]) := by
  have hearned : Earned up.id v.later (.queued (.done up.id f.1)) :=
    fun _ _ _ _ heq => by cases heq
  refine ⟨h.listing, hjob, fun hlive => (by cases hlive), answered_append h.answered _, ?_,
    h.confirmed.concat hearned, ?_⟩
  · rw [queuedAbout_append, queuedAbout_queued rfl, ← List.append_assoc, h.queued,
      flatMap_messages_append v.later _ h.answered, List.cons_append, List.append_assoc,
      List.cons_append]
  · exact .finished (answer?_append_of_some h.answer) rfl hresting rfl

/-- The last file is skipped: nothing is queued. -/
theorem Through.skipLast (h : up.Through v passed f [] .skip) {job : ReadJob}
    (hjob : up.JobAt job f []) {phase : Option PumpPhase} (hresting : PumpPhase.Resting phase) :
    up.At d { v with job := job, entry := none, phase := phase } passed f [] [] :=
  ⟨h.listing, hjob, fun hlive => (by cases hlive), h.answered, h.queued, h.confirmed,
    .skipped h.answer rfl hresting rfl⟩

/-! ## The job at a file -/

variable {job : ReadJob}

/-- There is more behind a file if the rest is not empty. -/
theorem JobAt.hasMore_iff (h : up.JobAt job f rest) : job.hasMore f.1 = true ↔ rest ≠ [] := by
  have hmore : job.hasMore f.1 = true ↔ f.1 + 1 < up.count := by
    rw [ReadJob.hasMore, decide_eq_true_iff, h.count]
  rw [hmore]
  cases rest with
  | nil => exact ⟨fun hlt => absurd hlt h.follows, fun hne => absurd rfl hne⟩
  | cons g rest =>
    obtain ⟨hnum, hlt, -⟩ := h.follows
    exact ⟨fun _ => List.cons_ne_nil g rest, fun _ => hnum ▸ hlt⟩

/-- The digest of the job is that of its file. -/
theorem JobAt.digest (h : up.JobAt job f rest) : job.digest? = some (f.digest up.id) := by
  rw [ReadJob.digest?, h.current, Option.map_some, h.id, h.fileNum]
  rfl

/-- Assignments to the other fields keep the job at its file. -/
theorem JobAt.congr (h : up.JobAt job f rest) {job' : ReadJob} (hid : job'.id = job.id)
    (hfiles : job'.uploadFiles = job.uploadFiles) (hentries : job'.files = job.files)
    (hnum : job'.fileNum = job.fileNum) (hfile : job'.file = job.file) : up.JobAt job' f rest where
  id := hid.trans h.id
  files := hfiles.trans h.files
  count := by rw [hentries, h.count]
  fileNum := hnum.trans h.fileNum
  current := by
    rw [ReadJob.currentFile, hfile, hfiles, hnum]
    exact h.current
  follows := h.follows

/-- A finished file leaves the job where it is. -/
theorem JobAt.addFinished (h : up.JobAt job f rest) (n : ℤ) :
    up.JobAt (job.addFinished n) f rest := by
  unfold ReadJob.addFinished
  split
  · exact h.congr rfl rfl rfl rfl rfl
  · exact h

/-- A confirmation leaves the job at its file. -/
theorem JobAt.confirm (h : up.JobAt job f rest) (offsetBlk : ℕ) :
    up.JobAt (job.confirm offsetBlk) f rest := by
  unfold ReadJob.confirm
  dsimp only
  split_ifs <;> exact h.congr rfl rfl rfl rfl rfl

/-- An answer that the job expects: it is none for later files, and a first answer is for the
file the job is at. -/
theorem JobAt.answers (h : up.JobAt job f rest) {n : ℤ} (hn : job.Expects n) {o : Observation}
    {a : Answer} (ho : ∀ m, o.answer? up.id m = if n = m then some a else none) :
    (∀ m, f.1 < m → o.answer? up.id m = none) ∧
      (job.active = false → n = f.1 ∧ o.answer? up.id f.1 = some a) := by
  have hnum := h.fileNum
  unfold ReadJob.Expects at hn
  constructor
  · intro m hm
    have hne : n ≠ m := by split_ifs at hn <;> omega
    rw [ho, if_neg hne]
  · intro hinactive
    have heq : n = f.1 := by
      rw [hinactive, if_neg (by simp)] at hn
      omega
    exact ⟨heq, by rw [ho, if_pos heq]⟩

/-- The next file. -/
theorem JobAt.turnTo {g : Listed} (h : up.JobAt job f (g :: rest)) :
    up.JobAt (job.turnTo (f.1 + 1)) g rest := by
  obtain ⟨n, file⟩ := g
  obtain ⟨rfl, -, hat, hrest⟩ := h.follows
  refine ⟨h.id, h.files, h.count, rfl, ?_, hrest⟩
  simp [ReadJob.currentFile, ReadJob.turnTo, h.files, hat]

end Upload

end RdWeb.FileTransfer
