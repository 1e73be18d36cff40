import RdWeb.FileTransfer.UploadStart

/-!
# What an upload counts

`nextUploadBlock`, `advanceUploadAfterFile` and `handleFileAction` set `finishedSize`, each in its
own way. It is the sizes of the files that the job has passed with the offset in the current one,
as long as the host resumes and skips files where the three agree.
-/

namespace RdWeb.FileTransfer

/-- The sizes of some files, added up. -/
def sizes (files : List Listed) : ℕ := (files.map fun f => f.2.size).sum

/-- The sizes of files, part by part. -/
theorem sizes_append (first second : List Listed) :
    sizes (first ++ second) = sizes first + sizes second := by
  rw [sizes, List.map_append, List.sum_append]
  rfl

/-- The sizes of files, one at a time. -/
theorem sizes_cons (f : Listed) (files : List Listed) :
    sizes (f :: files) = f.2.size + sizes files := rfl

/-- Numbering the files keeps their sizes. -/
theorem sizes_numberFrom (n : ℤ) (files : List File) :
    sizes (numberFrom n files) = (files.map File.size).sum := by
  induction files generalizing n with
  | nil => rfl
  | cons file rest ih => rw [numberFrom, sizes_cons, ih, List.map_cons, List.sum_cons]

namespace PumpPhase

/-- The bytes of the slice that is being read. -/
def unread : Option PumpPhase → ℕ
  | some (.reading _ _ data) => data.length
  | _ => 0

/-- The pump is at a file, or about to pass it. -/
def Engaged : Option PumpPhase → Prop
  | some (.reading ..) | some (.returned _ _ true) => True
  | _ => False

/-- Whether the pump is engaged is decided by its phase. -/
instance (phase : Option PumpPhase) : Decidable (Engaged phase) :=
  match phase with
  | some (.reading ..) | some (.returned _ _ true) => inferInstanceAs (Decidable True)
  | some (.returned _ _ false) | some .sleeping | none => inferInstanceAs (Decidable False)

/-- What the pump holds is of the file the job is at. -/
def Holds (ref : ℕ) (job : ReadJob) (file : File) : Option PumpPhase → Prop
  | some (.reading r held _) => r = ref ∧ held = file
  | some (.returned r _ finished) => r = ref ∧ (finished = true → file.size ≤ job.offset)
  | _ => True

end PumpPhase

/-- A file is resumed behind no other bytes, not before what was sent, and within its bytes. -/
def ReadJob.Resumes (job : ReadJob) (phase : Option PumpPhase) (offset : ℕ) : Prop :=
  job.finishedBase = 0 ∧ job.offset ≤ offset ∧
    ∀ file ∈ job.currentFile, offset + PumpPhase.unread phase ≤ file.size

/-- The file that the job is at is skipped while the pump leaves it alone. It is not the last one,
or nothing of it is left. -/
def ReadJob.Skips (job : ReadJob) (phase : Option PumpPhase) (n : ℤ) : Prop :=
  n = job.fileNum ∧ ¬ PumpPhase.Engaged phase ∧
    (job.hasMore n = true ∨ ∀ file ∈ job.currentFile, file.size ≤ job.offset)

/-- Whether a job resumes is decided by the job and the phase. -/
instance (job : ReadJob) (phase : Option PumpPhase) (offset : ℕ) :
    Decidable (job.Resumes phase offset) :=
  inferInstanceAs (Decidable (_ ∧ _ ∧ _))

/-- Whether a job skips is decided by the job and the phase. -/
instance (job : ReadJob) (phase : Option PumpPhase) (n : ℤ) : Decidable (job.Skips phase n) :=
  inferInstanceAs (Decidable (_ ∧ _ ∧ _))

namespace Upload

/-! ## The count -/

/-- Where the count of a job is. -/
structure CountedAt (up : Upload) (job : ReadJob) (phase : Option PumpPhase)
    (passed : List Listed) (f : Listed) (rest : List Listed) : Prop where
  listing : up.listing = passed ++ f :: rest
  isAt : up.JobAt job f rest
  listed : rest ≠ [] → at? up.files f.1 = some f.2
  base : job.finishedBase = sizes passed
  finishedSize : job.finishedSize = job.finishedBase + job.offset
  within : job.offset + PumpPhase.unread phase ≤ f.2.size
  total : job.totalSize = sizes up.listing
  holds : PumpPhase.Holds up.ref job f.2 phase

/-- All that is left of a job whose last file was skipped. -/
structure CountedOut (up : Upload) (job : ReadJob) (phase : Option PumpPhase) : Prop where
  id : job.id = up.id
  finishedSize : job.finishedSize = sizes up.listing
  total : job.totalSize = sizes up.listing
  free : ¬ PumpPhase.Engaged phase

/-- The count of an upload that is in the table or was. -/
inductive Counts (up : Upload) (v : View) : Prop
  | going {passed rest : List Listed} {f : Listed} (hentry : v.entry = some up.ref ∨ v.entry = none)
      (h : up.CountedAt v.job v.phase passed f rest)
  | out (hgone : v.entry = none) (h : up.CountedOut v.job v.phase)

/-- What an operation does to the count; the upload may be dropped where it says so. -/
structure Goes (up : Upload) (d : Prop) (v w : View) : Prop where
  counts : up.Counts w
  grows : v.job.finishedSize ≤ w.job.finishedSize
  ends : v.entry = some up.ref → w.entry ≠ some up.ref →
    d ∨ w.job.finishedSize = sizes up.listing

/-- The operation on a connection, in which no reference is taken back. -/
structure Moves (up : Upload) (d : Prop) (s t : FtConnection) : Prop where
  nextRead : s.nextRead ≤ t.nextRead
  goes : up.Goes d (up.view s) (up.view t)

variable {up : Upload} {d : Prop} {s t u : FtConnection} {v w x : View} {job : ReadJob}
  {phase : Option PumpPhase} {passed rest : List Listed} {f g : Listed}

/-- What is finished is no more than the whole. -/
theorem CountedAt.size_le (h : up.CountedAt job phase passed f rest) :
    job.finishedSize ≤ sizes up.listing := by
  have hwithin := h.within
  rw [h.finishedSize, h.base, h.listing, sizes_append, sizes_cons]
  omega

/-- The last file is through. -/
theorem CountedAt.size_eq (h : up.CountedAt job phase passed f []) (hend : f.2.size ≤ job.offset) :
    job.finishedSize = sizes up.listing := by
  have hwithin := h.within
  have hnil : sizes [] = 0 := rfl
  rw [h.finishedSize, h.base, h.listing, sizes_append, sizes_cons, hnil]
  omega

/-- The total of the job is that of its files. -/
theorem Counts.total (h : up.Counts v) : v.job.totalSize = sizes up.listing := by
  cases h with
  | going _ h => exact h.total
  | out _ h => exact h.total

/-- What was counted is no more than the whole. -/
theorem Counts.size_le (h : up.Counts v) : v.job.finishedSize ≤ sizes up.listing := by
  cases h with
  | going _ h => exact h.size_le
  | out _ h => exact Nat.le_of_eq h.finishedSize

/-- The job keeps the id of the upload. -/
theorem Counts.job_id (h : up.Counts v) : v.job.id = up.id := by
  cases h with
  | going _ h => exact h.isAt.id
  | out _ h => exact h.id

/-- The table holds the upload or nothing under its id. -/
theorem Counts.entry (h : up.Counts v) : v.entry = some up.ref ∨ v.entry = none := by
  cases h with
  | going hentry _ => exact hentry
  | out hgone _ => exact .inr hgone

/-- An upload that is in the table has a file that it is at. -/
theorem Counts.at_of_live (h : up.Counts v) (hlive : v.entry = some up.ref) :
    ∃ passed f rest, up.CountedAt v.job v.phase passed f rest := by
  cases h with
  | going _ h => exact ⟨_, _, _, h⟩
  | out hgone _ => exact absurd (hlive.symm.trans hgone) (by simp)

/-- The entry of the upload is kept, or it is gone. -/
theorem Counts.drop (h : up.Counts v) {entry : Option ℕ} {later : List Observation}
    (hentry : entry = v.entry ∨ entry = none) :
    up.Counts { v with entry := entry, later := later } := by
  cases h with
  | going hold h =>
    refine .going ?_ h
    rcases hentry with hsame | hgone
    · exact hsame ▸ hold
    · exact .inr hgone
  | out hold h =>
    refine .out ?_ h
    rcases hentry with hsame | hgone
    · exact hsame.trans hold
    · exact hgone

/-- Staying goes on. -/
theorem Goes.refl (h : up.Counts v) : up.Goes d v v :=
  ⟨h, Nat.le_refl _, fun hlive hgone => absurd hlive hgone⟩

/-- Two ways on are one. -/
theorem Goes.trans (hvw : up.Goes d v w) (hwx : up.Goes d w x) : up.Goes d v x where
  counts := hwx.counts
  grows := Nat.le_trans hvw.grows hwx.grows
  ends hlive hgone := by
    by_cases hw : w.entry = some up.ref
    · exact hwx.ends hw hgone
    · refine (hvw.ends hlive hw).imp_right fun hsize => ?_
      have hgrows := hwx.grows
      have hle := hwx.counts.size_le
      omega

/-- Two moves are one. -/
theorem Moves.trans (hst : up.Moves d s t) (htu : up.Moves d t u) : up.Moves d s u :=
  ⟨Nat.le_trans hst.nextRead htu.nextRead, hst.goes.trans htu.goes⟩

/-- Steps that leave the upload alone, or drop it. -/
theorem Moves.apart (h : up.Counts (up.view s)) (ha : FtConnection.Apart d up.id up.ref s t) :
    up.Moves d s t := by
  have hview : up.view t = { up.view s with
      entry := t.readJobs.get? up.id
      later := up.since t } := by
    simp only [view, ha.phase, Upload.job, ha.job]
  refine ⟨ha.nextRead, ?_⟩
  rw [hview]
  refine ⟨h.drop (ha.table.imp_right And.right), Nat.le_refl _, fun hlive hgone => ?_⟩
  rcases ha.table with hsame | ⟨hd, -⟩
  · exact absurd (hsame.trans hlive) hgone
  · exact .inl hd

/-! ## What the operations do to the count -/

/-- A pump that is not engaged has no bytes to add, and no file to pass. -/
theorem CountedAt.holds_free (h : up.CountedAt job phase passed f rest)
    (hfree : ¬ PumpPhase.Engaged phase) (job' : ReadJob) (file : File) :
    PumpPhase.unread phase = 0 ∧ PumpPhase.Holds up.ref job' file phase := by
  have hholds := h.holds
  rcases phase with _ | _ | ⟨r, data, _ | _⟩ | _
  · exact ⟨rfl, trivial⟩
  · exact absurd trivial hfree
  · exact ⟨rfl, hholds.1, fun htrue => by cases htrue⟩
  · exact absurd trivial hfree
  · exact ⟨rfl, trivial⟩

/-- Where a turn of the pump waits. -/
theorem CountedAt.turn (h : up.CountedAt job phase passed f rest) :
    up.CountedAt job (some (.next up.ref job f.2)) passed f rest := by
  have hwithin := h.within
  have hnext : job.offset + PumpPhase.unread (some (.next up.ref job f.2)) ≤ f.2.size ∧
      PumpPhase.Holds up.ref job f.2 (some (.next up.ref job f.2)) := by
    unfold PumpPhase.next
    split_ifs with hend
    · have hunread : PumpPhase.unread (some (.returned up.ref [] true)) = 0 := rfl
      exact ⟨by omega, rfl, fun _ => hend⟩
    · have hslice : (job.nextSlice f.2).length ≤ f.2.size - job.offset := by
        rw [ReadJob.nextSlice, File.readFileChunk, List.length_take]
        omega
      have hunread : PumpPhase.unread (some (.reading up.ref f.2 (job.nextSlice f.2))) =
          (job.nextSlice f.2).length := rfl
      exact ⟨by omega, rfl, rfl⟩
  exact ⟨h.listing, h.isAt, h.listed, h.base, h.finishedSize, hnext.1, h.total, hnext.2⟩

/-- The pump lets the upload go. -/
theorem CountedAt.release (h : up.CountedAt job phase passed f rest) {phase' : Option PumpPhase}
    (hresting : PumpPhase.Resting phase') : up.CountedAt job phase' passed f rest := by
  have hwithin := h.within
  have hfree : PumpPhase.unread phase' = 0 ∧ PumpPhase.Holds up.ref job f.2 phase' := by
    rcases phase' with _ | _ | _ | _
    · exact ⟨rfl, trivial⟩
    · exact hresting.elim
    · exact hresting.elim
    · exact ⟨rfl, trivial⟩
  exact ⟨h.listing, h.isAt, h.listed, h.base, h.finishedSize, by omega, h.total, hfree.2⟩

/-- The slice was read. -/
theorem CountedAt.read {r : ℕ} {file : File} {data : List UInt8}
    (h : up.CountedAt job (some (.reading r file data)) passed f rest) :
    r = up.ref ∧ up.CountedAt (job.afterRead data)
      (some (.returned r data (file.size ≤ (job.afterRead data).offset))) passed f rest := by
  obtain ⟨rfl, rfl⟩ := h.holds
  have hwithin : job.offset + data.length ≤ f.2.size := h.within
  refine ⟨rfl, h.listing, h.isAt.congr rfl rfl rfl rfl rfl, h.listed, h.base, rfl, ?_, h.total, rfl,
    fun hend => of_decide_eq_true hend⟩
  exact hwithin

/-- Activating the job does not change what was counted. -/
theorem CountedAt.activate (h : up.CountedAt job phase passed f rest) :
    up.CountedAt job.activate phase passed f rest := by
  have hholds : PumpPhase.Holds up.ref job.activate f.2 phase := by
    rcases phase with _ | _ | _ | _ <;> exact h.holds
  exact ⟨h.listing, h.isAt.congr rfl rfl rfl rfl rfl, h.listed, h.base, h.finishedSize, h.within,
    h.total, hholds⟩

/-- A confirmation of the host. -/
theorem CountedAt.confirm (h : up.CountedAt job phase passed f rest) (offsetBlk : ℕ)
    (hresumes : 0 < offsetBlk → job.Resumes phase (offsetBlk * BLOCK_SIZE)) :
    up.CountedAt (job.confirm offsetBlk) phase passed f rest ∧
      job.finishedSize ≤ (job.confirm offsetBlk).finishedSize := by
  have hat := h.isAt.confirm offsetBlk
  unfold ReadJob.confirm at hat ⊢
  dsimp only at hat ⊢
  split_ifs at hat ⊢ with hpos
  · obtain ⟨hbase, hforward, hwithin⟩ := hresumes hpos
    have hfile := hwithin f.2 h.isAt.current
    have hsize := h.finishedSize
    have hholds : PumpPhase.Holds up.ref { job with
        offset := offsetBlk * BLOCK_SIZE
        finishedSize := offsetBlk * BLOCK_SIZE
        blkId := offsetBlk
        active := true
        waitingConfirm := false } f.2 phase := by
      rcases phase with _ | _ | ⟨r, data, finished⟩ | _
      · trivial
      · exact h.holds
      · exact ⟨h.holds.1, fun hend => Nat.le_trans (h.holds.2 hend) hforward⟩
      · trivial
    refine ⟨⟨h.listing, hat, h.listed, h.base, ?_, hfile, h.total, hholds⟩, ?_⟩
    · dsimp only
      omega
    · dsimp only
      omega
  · have hholds : PumpPhase.Holds up.ref { job with active := true, waitingConfirm := false } f.2
        phase := by
      rcases phase with _ | _ | _ | _ <;> exact h.holds
    exact ⟨⟨h.listing, hat, h.listed, h.base, h.finishedSize, h.within, h.total, hholds⟩,
      Nat.le_refl _⟩

/-- The job turns to the next file. -/
theorem CountedAt.advance (h : up.CountedAt job phase passed f (g :: rest))
    {phase' : Option PumpPhase}
    (hfree : ∀ job' file, PumpPhase.unread phase' = 0 ∧ PumpPhase.Holds up.ref job' file phase') :
    up.CountedAt ((job.addFinished f.1).turnTo (f.1 + 1)) phase' (passed ++ [f]) g rest ∧
      job.finishedSize ≤ ((job.addFinished f.1).turnTo (f.1 + 1)).finishedSize := by
  have hfile : at? job.uploadFiles f.1 = some f.2 := by
    rw [h.isAt.files]
    exact h.listed (List.cons_ne_nil g rest)
  have hadd : job.addFinished f.1 = { job with finishedBase := job.finishedBase + f.2.size } := by
    simp only [ReadJob.addFinished, hfile]
  have hturn := (h.isAt.addFinished f.1).turnTo
  have hsize := h.finishedSize
  have hwithin := h.within
  obtain ⟨-, -, hnext, -⟩ := h.isAt.follows
  have hnil : sizes [] = 0 := rfl
  rw [hadd] at hturn ⊢
  constructor
  · refine ⟨?_, hturn, fun _ => hnext, ?_, rfl, ?_, h.total, (hfree _ _).2⟩
    · rw [h.listing, List.append_assoc, List.singleton_append]
    · rw [sizes_append, sizes_cons, hnil, ← h.base]
      rfl
    · rw [(hfree job g.2).1]
      exact Nat.zero_le _
  · simp only [ReadJob.turnTo]
    omega

/-- The last file is skipped when nothing of it is left. -/
theorem CountedAt.out (h : up.CountedAt job phase passed f []) (hend : f.2.size ≤ job.offset)
    {phase' : Option PumpPhase} (hfree : ¬ PumpPhase.Engaged phase') :
    up.CountedOut (job.addFinished f.1) phase' ∧
      (job.addFinished f.1).finishedSize = sizes up.listing := by
  have hsame : (job.addFinished f.1).finishedSize = job.finishedSize ∧
      (job.addFinished f.1).totalSize = job.totalSize := by
    unfold ReadJob.addFinished
    split <;> exact ⟨rfl, rfl⟩
  have hsize := hsame.1.trans (h.size_eq hend)
  exact ⟨⟨(h.isAt.addFinished f.1).id, hsize, hsame.2.trans h.total, hfree⟩, hsize⟩

/-- After a file with another behind it the job turns to the next file. -/
theorem advanceUploadAfterFile_more (id n : ℤ) (ref : ℕ)
    (hmore : ((s.readHeap ref).addFinished n).hasMore n = true) :
    (s.advanceUploadAfterFile id ref n).readHeap ref =
        ((s.readHeap ref).addFinished n).turnTo (n + 1) ∧
      (s.advanceUploadAfterFile id ref n).readJobs = s.readJobs := by
  unfold FtConnection.advanceUploadAfterFile FtConnection.queueDigestForCurrentFile
  dsimp only
  rw [FtConnection.updateRead_same, if_pos hmore]
  have hjob : ((s.updateRead ref (·.addFinished n)).updateRead ref
      (·.turnTo (n + 1))).readHeap ref = ((s.readHeap ref).addFinished n).turnTo (n + 1) := by
    rw [FtConnection.updateRead_same, FtConnection.updateRead_same]
  split <;> exact ⟨hjob, rfl⟩

/-- After the last file the job stays where it is. -/
theorem advanceUploadAfterFile_last (id n : ℤ) (ref : ℕ)
    (hmore : ((s.readHeap ref).addFinished n).hasMore n = false) :
    (s.advanceUploadAfterFile id ref n).readHeap ref = (s.readHeap ref).addFinished n ∧
      (s.advanceUploadAfterFile id ref n).readJobs.get? id = none := by
  unfold FtConnection.advanceUploadAfterFile
  dsimp only
  rw [FtConnection.updateRead_same, hmore, if_neg (by simp)]
  have hjob := FtConnection.updateRead_same (s := s) ref (·.addFinished n)
  refine ⟨hjob, ?_⟩
  simp [FtConnection.ev, FtConnection.observe, FtConnection.removeJob]

/-- The upload is through with a file. -/
theorem CountedAt.goes (h : up.CountedAt (up.job s) phase passed f rest)
    (hentry : up.Live s ∨ s.readJobs.get? up.id = none)
    (hlast : rest = [] → f.2.size ≤ (up.job s).offset) {phase' : Option PumpPhase}
    (hfree : ∀ job' file, PumpPhase.unread phase' = 0 ∧ PumpPhase.Holds up.ref job' file phase')
    (hdone : ¬ PumpPhase.Engaged phase') :
    up.Goes d (up.view s)
      { up.view (s.advanceUploadAfterFile up.id up.ref f.1) with phase := phase' } := by
  have hmore := (h.isAt.addFinished f.1).hasMore_iff
  cases rest with
  | cons g rest =>
    obtain ⟨hjob, hjobs⟩ := advanceUploadAfterFile_more up.id f.1 up.ref
      (hmore.mpr (List.cons_ne_nil g rest))
    obtain ⟨hcounted, hgrows⟩ := h.advance hfree
    unfold Upload.job at hcounted hgrows
    rw [← hjob] at hcounted hgrows
    refine ⟨.going ?_ hcounted, hgrows, fun hlive hgone => absurd ?_ hgone⟩
    · rw [view, hjobs]
      exact hentry
    · rw [view, hjobs]
      exact hlive
  | nil =>
    have hnone : ((s.readHeap up.ref).addFinished f.1).hasMore f.1 = false :=
      Bool.eq_false_iff.mpr fun htrue => hmore.mp htrue rfl
    obtain ⟨hjob, hgone⟩ := advanceUploadAfterFile_last up.id f.1 up.ref hnone
    obtain ⟨hout, hsize⟩ := h.out (hlast rfl) hdone
    have hle := h.size_le
    unfold Upload.job at hout hsize hle
    rw [← hjob] at hout hsize
    refine ⟨.out hgone hout, ?_, fun _ _ => .inr hsize⟩
    rw [← hsize] at hle
    exact hle

/-- The pump returns. -/
theorem Moves.endPump (h : up.Counts (up.view s)) : up.Moves d s s.endPump := by
  obtain ⟨-, hnext⟩ := endPump_frame s
  have hresting : PumpPhase.Resting none := trivial
  refine ⟨Nat.le_of_eq hnext.symm, ?_⟩
  rw [view_endPump]
  refine ⟨?_, Nat.le_refl _, fun hlive hgone => absurd hlive hgone⟩
  cases h with
  | going hentry h => exact .going hentry (h.release hresting)
  | out hgone h => exact .out hgone ⟨h.id, h.finishedSize, h.total, fun hengaged => hengaged⟩

/-- A turn of the pump. -/
theorem Moves.pumpTurn (h : up.Counts (up.view s)) : up.Moves d s (s.pumpTurn up.id) := by
  rcases h.entry with hlive | hgone
  · have hget : s.readJobs.get? up.id = some up.ref := hlive
    obtain ⟨passed, f, rest, hat⟩ := h.at_of_live hlive
    cases hactive : (s.readHeap up.ref).active with
    | false =>
      have hturn : s.pumpTurn up.id = s.endPump := by
        simp [FtConnection.pumpTurn, hget, hactive]
      rw [hturn]
      exact Moves.endPump h
    | true =>
      have hcurrent : (s.readHeap up.ref).currentFile = some f.2 := hat.isAt.current
      have hturn : s.pumpTurn up.id =
          s.setPump (some ⟨up.id, .next up.ref (s.readHeap up.ref) f.2⟩) := by
        simp only [FtConnection.pumpTurn, hget, hactive, hcurrent, if_true, PumpPhase.next]
        split_ifs <;> rfl
      rw [hturn]
      refine ⟨Nat.le_refl _, ?_⟩
      rw [view_setPump_own]
      exact ⟨.going (.inl hlive) hat.turn, Nat.le_refl _, fun hlive hgone => absurd hlive hgone⟩
  · have hget : s.readJobs.get? up.id = none := hgone
    have hturn : s.pumpTurn up.id = s.endPump := by simp [FtConnection.pumpTurn, hget]
    rw [hturn]
    exact Moves.endPump h

/-- Doing nothing is a move. -/
theorem Moves.refl (h : up.Counts (up.view s)) : up.Moves d s s := ⟨Nat.le_refl _, .refl h⟩

/-- Starting the pump is a move. -/
theorem Moves.pumpUploadBlocks (h : up.Counts (up.view s)) :
    up.Moves d s (s.pumpUploadBlocks up.id) := by
  unfold FtConnection.pumpUploadBlocks
  split_ifs
  · exact Moves.refl h
  · exact Moves.pumpTurn h

/-- Fields of the job of an upload that is in the table. -/
theorem Moves.updateRead (hlive : up.Live s) {change : ReadJob → ReadJob}
    (hcounted : up.CountedAt (change (up.job s)) (s.phaseOf up.id) passed f rest)
    (hgrows : (up.job s).finishedSize ≤ (change (up.job s)).finishedSize) :
    up.Moves d s (s.updateRead up.ref change) := by
  refine ⟨Nat.le_refl _, ?_⟩
  rw [view_updateRead]
  exact ⟨.going (.inl hlive) hcounted, hgrows, fun hlive hgone => absurd hlive hgone⟩

/-- Activating the job is a move. -/
theorem Moves.activate (h : up.Counts (up.view s)) (hlive : up.Live s) :
    up.Moves d s (s.updateRead up.ref .activate) := by
  obtain ⟨passed, f, rest, hat⟩ := h.at_of_live hlive
  exact Moves.updateRead hlive hat.activate (Nat.le_refl _)

/-- Sending a message is a move. -/
theorem Moves.sendMessage (h : up.Counts (up.view s)) (m : OutMessage) :
    up.Moves d s (s.sendMessage m) := .apart h (FtConnection.apart_sendMessage m)

/-- A confirmation is a move. -/
theorem Moves.sendConfirm (h : up.Counts (up.view s)) (n : ℤ) :
    up.Moves d s (s.sendConfirm up.id n false 0) := by
  rcases h.entry with hlive | hgone
  · rw [sendConfirm_of_some hlive]
    have hactivated : up.Moves d s (s.updateRead up.ref .activate) := .activate h hlive
    exact hactivated.trans (.sendMessage hactivated.goes.counts _)
  · rw [sendConfirm_of_none hgone]
    exact Moves.sendMessage h _

/-- The entry that is found is the upload's own. -/
theorem Counts.ref_eq (h : up.Counts (up.view s)) {ref : ℕ}
    (hget : s.readJobs.get? up.id = some ref) : ref = up.ref := by
  rcases h.entry with hlive | hgone
  · exact Option.some.inj (hget.symm.trans hlive)
  · exact absurd (hget.symm.trans hgone) (by simp)

/-- The user overrides a file. -/
theorem Moves.confirmOverrideFile (h : up.Counts (up.view s)) (n : ℤ) (isUpload : Bool) :
    up.Moves d s (s.confirmOverrideFile up.id n true isUpload) := by
  have hsent : up.Moves d s (s.sendConfirm up.id n false 0) := .sendConfirm h n
  simp only [FtConnection.confirmOverrideFile, Bool.and_true, Bool.not_true]
  split_ifs
  · split
    · rename_i ref hget
      obtain rfl := hsent.goes.counts.ref_eq hget
      exact hsent.trans (.activate hsent.goes.counts hget)
    · exact hsent
  · exact hsent

/-- Resuming is a move. -/
theorem Moves.resumeJob (h : up.Counts (up.view s)) :
    up.Moves d s (s.resumeJob up.id false) := by
  simp only [FtConnection.resumeJob, Bool.false_eq_true, if_false]
  split
  · rename_i ref hget
    obtain rfl := h.ref_eq hget
    split_ifs
    · have hactivated : up.Moves d s (s.updateRead up.ref .activate) := .activate h hget
      exact hactivated.trans (.pumpUploadBlocks hactivated.goes.counts)
    · exact Moves.refl h
  · exact Moves.refl h

/-- The host skips the file that the upload is at. -/
theorem Moves.skip (h : up.Counts (up.view s)) (hlive : up.Live s) {n : ℤ}
    (hskips : (s.readHeap up.ref).Skips (s.phaseOf up.id) n) :
    up.Moves d s (s.advanceUploadAfterFile up.id up.ref n) := by
  obtain ⟨hnum, hfree, hlast⟩ := hskips
  obtain ⟨passed, f, rest, hat⟩ := h.at_of_live hlive
  obtain rfl : n = f.1 := hnum.trans hat.isAt.fileNum
  obtain ⟨-, hnext, hpump⟩ := advanceUploadAfterFile_frame s up.id up.ref f.1
  have hend (hnil : rest = []) : f.2.size ≤ (up.job s).offset := by
    rcases hlast with hmore | hleft
    · exact absurd hnil (hat.isAt.hasMore_iff.mp hmore)
    · exact hleft f.2 hat.isAt.current
  have hgoes := hat.goes (d := d) (.inl hlive) hend (hat.holds_free hfree) hfree
  have hphase : (s.advanceUploadAfterFile up.id up.ref f.1).phaseOf up.id = s.phaseOf up.id := by
    rw [FtConnection.phaseOf, hpump]
    rfl
  refine ⟨Nat.le_of_eq hnext.symm, ?_⟩
  unfold view at hgoes ⊢
  rw [hphase]
  exact hgoes

/-- An answer of the host. -/
theorem Moves.handleSendConfirm (h : up.Counts (up.view s)) {n : ℤ} {skip : Bool} {offsetBlk : ℕ}
    (hkeeps : ∀ ref ∈ s.readJobs.get? up.id,
      (skip = true → (s.readHeap ref).Skips (s.phaseOf up.id) n) ∧
        (skip = false → 0 < offsetBlk →
          (s.readHeap ref).Resumes (s.phaseOf up.id) (offsetBlk * BLOCK_SIZE))) :
    up.Moves d s (s.handleSendConfirm up.id n skip offsetBlk) := by
  rcases h.entry with hlive | hgone
  · have hget : s.readJobs.get? up.id = some up.ref := hlive
    obtain ⟨hskips, hresumes⟩ := hkeeps up.ref hget
    simp only [FtConnection.handleSendConfirm, hget]
    cases skip with
    | true => exact Moves.skip h hlive (hskips rfl)
    | false =>
      obtain ⟨passed, f, rest, hat⟩ := h.at_of_live hlive
      obtain ⟨hcounted, hgrows⟩ := hat.confirm offsetBlk (hresumes rfl)
      have hconfirmed : up.Moves d s (s.updateRead up.ref (·.confirm offsetBlk)) :=
        .updateRead hget hcounted hgrows
      rw [if_neg (by simp)]
      split_ifs
      · exact hconfirmed
      · have hawaits : up.Counts (up.view
            ((s.updateRead up.ref (·.confirm offsetBlk)).setLoop .awaitingPump)) :=
          hconfirmed.goes.counts
        have hturned := Moves.pumpTurn (d := d) hawaits
        exact hconfirmed.trans ⟨hturned.nextRead, hturned.goes⟩
  · have hget : s.readJobs.get? up.id = none := hgone
    simp only [FtConnection.handleSendConfirm, hget]
    exact Moves.refl h

/-- A block is queued. -/
theorem Moves.queueBlock (h : up.Counts (up.view s)) (r : ℕ) (data : List UInt8) :
    up.Moves d s (s.queueBlock up.id r data) ∧
      (s.queueBlock up.id r data).phaseOf up.id = s.phaseOf up.id := by
  unfold FtConnection.queueBlock
  split_ifs
  · exact ⟨⟨Nat.le_refl _, h.drop (.inl rfl), Nat.le_refl _, fun hlive hgone => absurd hlive hgone⟩,
      rfl⟩
  · exact ⟨Moves.refl h, rfl⟩

/-- The pump goes to sleep. -/
theorem Moves.sleep (h : up.Counts (up.view s)) :
    up.Moves d s (s.setPump (some ⟨up.id, .sleeping⟩)) := by
  have hresting : PumpPhase.Resting (some .sleeping) := trivial
  refine ⟨Nat.le_refl _, ?_⟩
  rw [view_setPump_own]
  refine ⟨?_, Nat.le_refl _, fun hlive hgone => absurd hlive hgone⟩
  cases h with
  | going hentry h => exact .going hentry (h.release hresting)
  | out hgone h => exact .out hgone ⟨h.id, h.finishedSize, h.total, fun hengaged => hengaged⟩

/-- A file whose last block is queued is passed. -/
theorem Moves.finish (hentry : up.Live s ∨ s.readJobs.get? up.id = none)
    (h : up.CountedAt (up.job s) phase passed f rest) (hend : f.2.size ≤ (up.job s).offset) :
    up.Moves d s (if (s.readHeap up.ref).hasMore (s.readHeap up.ref).fileNum then
      (s.advanceUploadAfterFile up.id up.ref (s.readHeap up.ref).fileNum).endPump
      else (s.finishUpload up.id (s.readHeap up.ref).fileNum).endPump) := by
  have hnum : (s.readHeap up.ref).fileNum = f.1 := h.isAt.fileNum
  have hresting : PumpPhase.Resting none := trivial
  rw [hnum]
  split_ifs with hmore
  · obtain ⟨-, hnext, -⟩ := advanceUploadAfterFile_frame s up.id up.ref f.1
    obtain ⟨-, hended⟩ := endPump_frame (s.advanceUploadAfterFile up.id up.ref f.1)
    refine ⟨Nat.le_of_eq (hended.trans hnext).symm, ?_⟩
    rw [view_endPump]
    exact h.goes hentry (fun _ => hend) (fun _ _ => ⟨rfl, trivial⟩) fun hengaged => hengaged
  · have hnil : rest = [] := by
      by_contra hrest
      exact hmore (h.isAt.hasMore_iff.mpr hrest)
    subst hnil
    have hgone : (s.finishUpload up.id f.1).readJobs.get? up.id = none := by
      simp [FtConnection.finishUpload, FtConnection.ev, FtConnection.observe,
        FtConnection.removeJob]
    obtain ⟨-, hended⟩ := endPump_frame (s.finishUpload up.id f.1)
    refine ⟨Nat.le_of_eq hended.symm, ?_⟩
    rw [view_endPump]
    exact ⟨.going (.inr hgone) (h.release hresting), Nat.le_refl _,
      fun _ _ => .inr (h.size_eq hend)⟩

/-- The pump goes on with a block. -/
theorem Moves.pumpBlock (h : up.Counts (up.view s)) {r : ℕ} {data : List UInt8} {finished : Bool}
    (hpump : s.pump = some ⟨up.id, .returned r data finished⟩) :
    up.Moves d s (s.pumpBlock up.id r data finished) := by
  have hphase : s.phaseOf up.id = some (.returned r data finished) := by
    simp [FtConnection.phaseOf, hpump]
  obtain ⟨hqueued, hsame⟩ := Moves.queueBlock (d := d) h r data
  rw [hphase] at hsame
  unfold FtConnection.pumpBlock
  dsimp only
  refine hqueued.trans ?_
  generalize s.queueBlock up.id r data = q at hqueued hsame ⊢
  have hcounts := hqueued.goes.counts
  cases finished with
  | false => exact Moves.sleep hcounts
  | true =>
    rw [if_pos rfl]
    cases hcounts with
    | out _ h =>
      have hengaged : PumpPhase.Engaged (q.phaseOf up.id) := hsame ▸ trivial
      exact absurd hengaged h.free
    | going hentry h =>
      have hholds : PumpPhase.Holds up.ref (up.job q) _ (q.phaseOf up.id) := h.holds
      rw [hsame] at hholds
      obtain ⟨rfl, hend⟩ := hholds
      exact Moves.finish hentry h (hend rfl)

/-- A slice was read, or the read failed. -/
theorem Moves.sliceRead (h : up.Counts (up.view s)) {r : ℕ} {file : File} {data : List UInt8}
    (hpump : s.pump = some ⟨up.id, .reading r file data⟩) (failure : Option String) :
    up.Moves ((FtEvent.sliceRead failure).Drops up.id s) s
      (s.sliceRead up.id r file data failure) := by
  have hphase : s.phaseOf up.id = some (.reading r file data) := by
    simp [FtConnection.phaseOf, hpump]
  cases h with
  | out _ h =>
    have hengaged : PumpPhase.Engaged (s.phaseOf up.id) := hphase ▸ trivial
    exact absurd hengaged h.free
  | going hentry h =>
    have hat : up.CountedAt (up.job s) (s.phaseOf up.id) _ _ _ := h
    rw [hphase] at hat
    cases failure with
    | none =>
      obtain ⟨rfl, hread⟩ := hat.read
      have hsize := hat.finishedSize
      refine ⟨Nat.le_refl _, ?_⟩
      unfold FtConnection.sliceRead
      dsimp only
      rw [view_setPump_own, view_updateRead, FtConnection.updateRead_same]
      refine ⟨.going hentry hread, ?_, fun hlive hgone => absurd hlive hgone⟩
      change (up.job s).finishedSize ≤ (up.job s).finishedBase + ((up.job s).offset + data.length)
      omega
    | some text =>
      have hresting : PumpPhase.Resting none := trivial
      have hstopped : up.Moves (s.loop = .awaitingPump) s (s.setPump none) :=
        ⟨Nat.le_refl _, .going hentry (hat.release hresting), Nat.le_refl _,
          fun hlive hgone => absurd hlive hgone⟩
      unfold FtConnection.sliceRead
      dsimp only
      split_ifs with hloop
      · exact hstopped.trans (.apart hstopped.goes.counts (FtConnection.apart_failLoop hloop text))
      · exact hstopped

end Upload

end RdWeb.FileTransfer
