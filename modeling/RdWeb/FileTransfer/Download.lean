import RdWeb.FileTransfer.Connection

/-!
# What a download saves

A download with a picked target is streamed to it. Without one the blocks are kept in
memory: those before the first listing with entries on one list, the later ones under
their file numbers, and only one of these lists is saved. Blocks that could not be
decompressed or written are reported and then forgotten.
-/

namespace RdWeb.FileTransfer

/-- A block: the number of its file and its decompressed bytes. -/
abbrev Received : Type := ℤ × List UInt8

/-- The bytes of some blocks, in order. -/
def bytesOf (blocks : List Received) : List UInt8 := (blocks.map Prod.snd).flatten

/-- The blocks the host sent for a download, before and after its first listing with entries,
and whether one of them could not be decompressed or written. -/
structure Tally where
  listed : Bool
  before : List Received
  after : List Received
  failed : Bool
  deriving DecidableEq

namespace Tally

/-- Nothing was received yet. -/
def start : Tally := ⟨false, [], [], false⟩

/-- A block counts before or after the listing. -/
def block (p : Tally) (b : Received) : Tally :=
  if p.listed then { p with after := p.after ++ [b] } else { p with before := p.before ++ [b] }

/-- A block is lost. -/
def fail (p : Tally) : Tally := { p with failed := true }

/-- All blocks, in the order in which they came. -/
def blocks (p : Tally) : List Received := p.before ++ p.after

/-- What one event adds for a download. -/
def add (decompress : List UInt8 → Option (List UInt8)) (id : ℤ) (p : Tally) : FtEvent → Tally
  | .host (.dir id' _ entries) =>
    if id' = id ∧ entries ≠ [] then { p with listed := true } else p
  | .host (.block id' n data compressed) =>
    if id' = id then
      if compressed then
        match decompress data with
        | some bytes => p.block (n, bytes)
        | none => (p.block (n, [])).fail
      else p.block (n, data)
    else p
  | .written (some _) => p.fail
  | _ => p

/-- The tally of a list of events. -/
def of (decompress : List UInt8 → Option (List UInt8)) (id : ℤ) (events : List FtEvent) : Tally :=
  events.foldl (add decompress id) start

end Tally

/-- The bytes written to save targets. -/
def written : List Observation → List UInt8
  | [] => []
  | .wrote _ bytes :: log => bytes ++ written log
  | _ :: log => written log

/-- The bytes written, part by part. -/
theorem written_append (first second : List Observation) :
    written (first ++ second) = written first ++ written second := by
  induction first with
  | nil => rfl
  | cons o log ih => cases o <;> simp [written, ih]

/-- The events of a download that receives: its listings and blocks, and what they await. -/
def FtEvent.Receives (id : ℤ) : FtEvent → Prop
  | .host (.dir id' ..) | .host (.block id' ..) => id' = id
  | .decompressed | .written _ => True
  | _ => False

/-! ## Blocks left out of what is saved -/

/-- Fewer blocks have fewer bytes. -/
theorem length_bytesOf_filter_le (blocks : List Received) (p : Received → Bool) :
    (bytesOf (blocks.filter p)).length ≤ (bytesOf blocks).length := by
  induction blocks with
  | nil => simp [bytesOf]
  | cons b blocks ih =>
    unfold bytesOf at *
    by_cases hb : p b = true
    · simp [hb] at ih ⊢
      omega
    · simp [hb] at ih ⊢
      omega

/-- No bytes means empty blocks. -/
theorem bytesOf_eq_nil {blocks : List Received} : bytesOf blocks = [] ↔ ∀ b ∈ blocks, b.2 = [] := by
  simp only [bytesOf, List.flatten_eq_nil_iff, List.forall_mem_map]

/-- Leaving out blocks loses nothing exactly where they are empty. -/
theorem bytesOf_filter_eq_iff (blocks : List Received) (p : Received → Bool) :
    bytesOf (blocks.filter p) = bytesOf blocks ↔ ∀ b ∈ blocks, p b = false → b.2 = [] := by
  induction blocks with
  | nil => simp [bytesOf]
  | cons b blocks ih =>
    by_cases hb : p b = true
    · have hcons : bytesOf ((b :: blocks).filter p) = b.2 ++ bytesOf (blocks.filter p) := by
        simp [bytesOf, hb]
      have hall : bytesOf (b :: blocks) = b.2 ++ bytesOf blocks := by simp [bytesOf]
      rw [hcons, hall, List.append_cancel_left_eq, ih]
      simp [hb]
    · have hcons : bytesOf ((b :: blocks).filter p) = bytesOf (blocks.filter p) := by
        simp [bytesOf, hb]
      have hall : bytesOf (b :: blocks) = b.2 ++ bytesOf blocks := by simp [bytesOf]
      have hle := length_bytesOf_filter_le blocks p
      have hempty : bytesOf (blocks.filter p) = b.2 ++ bytesOf blocks → b.2 = [] := by
        intro heq
        have hlength := congrArg List.length heq
        rw [List.length_append] at hlength
        exact List.length_eq_zero_iff.mp (by omega)
      rw [hcons, hall]
      constructor
      · intro heq
        have hb2 := hempty heq
        rw [hb2, List.nil_append] at heq
        simpa [hb, hb2] using ih.mp heq
      · intro h
        have hb2 := h b (by simp) (by simpa using hb)
        rw [hb2, List.nil_append]
        exact ih.mpr fun c hc => h c (by simp [hc])

/-- Blocks in front of those saved lose nothing exactly where they are empty. -/
theorem bytesOf_after_eq_iff (before after : List Received) (p : Received → Bool) :
    bytesOf (after.filter p) = bytesOf (before ++ after) ↔
      (∀ b ∈ before, b.2 = []) ∧ ∀ b ∈ after, p b = false → b.2 = [] := by
  have hsplit : bytesOf (before ++ after) = bytesOf before ++ bytesOf after := by simp [bytesOf]
  rw [hsplit, ← bytesOf_eq_nil, ← bytesOf_filter_eq_iff]
  constructor
  · intro heq
    have hle := length_bytesOf_filter_le after p
    have hlength := congrArg List.length heq
    rw [List.length_append] at hlength
    have hnil : bytesOf before = [] := List.length_eq_zero_iff.mp (by omega)
    exact ⟨hnil, by rw [heq, hnil, List.nil_append]⟩
  · rintro ⟨hnil, heq⟩
    rw [hnil, List.nil_append, heq]

/-! ## What a job stores -/

/-- A job in memory stores the blocks of a tally. -/
structure Kept (job : WriteJob) (p : Tally) : Prop where
  streaming : job.streamingToDisk = false
  chunks : job.chunks = p.before.map Prod.snd
  fileChunks : ∀ n, job.chunksForFile n = (p.after.filter (·.1 = n)).map Prod.snd
  entries : job.fileChunks.entries = [] ↔ p.after = []
  fileNum : ∀ b ∈ p.after.getLast?, job.fileNum = b.1

/-- A job on disk has written the blocks of a tally. -/
structure Streamed (job : WriteJob) (p : Tally) (out : List UInt8) : Prop where
  streaming : job.streamingToDisk = false ↔ p.blocks = []
  chunks : job.chunks = []
  entries : job.fileChunks.entries = []
  out : out = bytesOf p.blocks

/-- What a job of either kind has stored and written. -/
def Stores (target : Option ℕ) (job : WriteJob) (p : Tally) (out : List UInt8) : Prop :=
  match target with
  | some _ => Streamed job p out
  | none => Kept job p ∧ out = []

/-- A block is no listing. -/
@[simp] theorem Tally.block_listed (p : Tally) (b : Received) : (p.block b).listed = p.listed := by
  unfold Tally.block
  split_ifs <;> rfl

/-- A block that counts is no failure. -/
@[simp] theorem Tally.block_failed (p : Tally) (b : Received) : (p.block b).failed = p.failed := by
  unfold Tally.block
  split_ifs <;> rfl

/-- A block comes after the ones before it. -/
theorem Tally.blocks_block (p : Tally) (b : Received) (h : p.listed = false → p.after = []) :
    (p.block b).blocks = p.blocks ++ [b] := by
  unfold Tally.block Tally.blocks
  cases hlisted : p.listed with
  | true => simp
  | false => simp [h hlisted]

/-- A block after the listing goes under its file number. -/
theorem Kept.keepPerFile {job : WriteJob} {p : Tally} (h : Kept job p) (hlisted : p.listed = true)
    (n : ℤ) (bytes : List UInt8) :
    Kept ((job.keepPerFile n bytes).received n bytes) (p.block (n, bytes)) := by
  unfold Tally.block
  rw [if_pos hlisted]
  refine ⟨h.streaming, h.chunks, fun m => ?_, ?_, ?_⟩
  · have hset : ((job.keepPerFile n bytes).received n bytes).chunksForFile m =
        if m = n then job.chunksForFile n ++ [bytes] else job.chunksForFile m := by
      simp only [WriteJob.chunksForFile, WriteJob.received, WriteJob.keepPerFile,
        OrderedMap.get?_set]
      split_ifs <;> rfl
    rw [hset]
    by_cases hm : m = n
    · simp [hm, h.fileChunks n]
    · simp [hm, h.fileChunks m, Ne.symm hm]
  · simp [WriteJob.received, WriteJob.keepPerFile, OrderedMap.entries_set_ne_nil]
  · simp [WriteJob.received]

/-- A block before the listing goes on the list of the job. -/
theorem Kept.keepChunk {job : WriteJob} {p : Tally} (h : Kept job p) (hlisted : p.listed = false)
    (hafter : p.after = []) (n : ℤ) (bytes : List UInt8) :
    Kept ((job.keepChunk bytes).received n bytes) (p.block (n, bytes)) := by
  unfold Tally.block
  rw [if_neg (by simp [hlisted])]
  refine ⟨h.streaming, ?_, h.fileChunks, h.entries, ?_⟩
  · simp [WriteJob.received, WriteJob.keepChunk, h.chunks]
  · simp [hafter]

/-- A block written to the target of the job. -/
theorem Streamed.received {job : WriteJob} {p : Tally} {out : List UInt8}
    (h : Streamed job p out) (hafter : p.listed = false → p.after = []) (n : ℤ)
    (bytes : List UInt8) :
    Streamed ({ job with streamingToDisk := true }.received n bytes) (p.block (n, bytes))
      (out ++ bytes) := by
  refine ⟨?_, h.chunks, h.entries, ?_⟩
  · simp [WriteJob.received, Tally.blocks_block p _ hafter]
  · rw [Tally.blocks_block p _ hafter, h.out]
    simp [bytesOf]

/-- Nothing kept in memory is left out of what is saved: all of it is on the list of the job, or
under the number of the last file. -/
def Tally.SavedWhole (p : Tally) (target : Option ℕ) : Prop :=
  target.isSome ∨ p.after = [] ∨
    (∀ b ∈ p.before, b.2 = []) ∧ ∀ last ∈ p.after.getLast?, ∀ b ∈ p.after, b.1 ≠ last.1 → b.2 = []

/-- What is saved from memory is everything exactly when it is kept in one place. -/
theorem Kept.saved_iff {job : WriteJob} {p : Tally} (h : Kept job p) :
    (if job.fileChunks.entries ≠ [] then job.chunksForFile job.fileNum else job.chunks).flatten =
      bytesOf p.blocks ↔ p.SavedWhole none := by
  by_cases hafter : p.after = []
  · rw [if_neg (not_not.mpr (h.entries.mpr hafter)), h.chunks]
    exact iff_of_true (by simp [Tally.blocks, hafter, bytesOf]) (.inr (.inl hafter))
  · obtain ⟨last, hlast⟩ : ∃ last, p.after.getLast? = some last :=
      ⟨_, List.getLast?_eq_some_getLast hafter⟩
    rw [if_pos (fun hnil => hafter (h.entries.mp hnil)), h.fileNum last hlast, h.fileChunks]
    simpa [Tally.SavedWhole, hafter, hlast, bytesOf, Tally.blocks] using
      bytesOf_after_eq_iff p.before p.after fun b => b.1 = last.1

/-- The end of a streamed file closes it, unless no block came. -/
theorem Streamed.finalizeDownload {job : WriteJob} {p : Tally} {out : List UInt8} {k : ℕ}
    (h : Streamed job p out) (hsingle : job.isFolderDownload = false)
    (htarget : job.saveTarget = some k) :
    job.finalizeDownload = .close ∨ p.blocks = [] ∧
      ∃ name, job.finalizeDownload = .save name [] (some k) := by
  unfold WriteJob.finalizeDownload
  rw [if_neg (by simp [hsingle])]
  cases hstreaming : job.streamingToDisk with
  | true => exact .inl (if_pos ⟨rfl, by simp [htarget]⟩)
  | false =>
    refine .inr ⟨h.streaming.mp hstreaming,
      if job.fileName = "" then "download" else job.fileName, ?_⟩
    simp [h.entries, h.chunks, htarget]

/-- The end of a file in memory saves it, and all of it exactly when it is kept in one place. -/
theorem Kept.finalizeDownload {job : WriteJob} {p : Tally} (h : Kept job p)
    (hsingle : job.isFolderDownload = false) (htarget : job.saveTarget = none) :
    ∃ name out, job.finalizeDownload = .save name out none ∧
      (out = bytesOf p.blocks ↔ p.SavedWhole none) := by
  refine ⟨if job.fileName = "" then "download" else job.fileName, _, ?_, h.saved_iff⟩
  unfold WriteJob.finalizeDownload
  rw [if_neg (by simp [hsingle]), if_neg (by simp [htarget]), htarget]

/-! ## Receiving -/

/-- The block the message loop is busy with. -/
def pendingBlock (decompress : List UInt8 → Option (List UInt8)) : LoopState → Option Received
  | .decompressing _ _ n data => some (n, (decompress data).getD [])
  | .writing _ _ n bytes _ => some (n, bytes)
  | _ => none

/-- A tally with the block the loop is busy with. -/
def Tally.withPending (p : Tally) : Option Received → Tally
  | none => p
  | some b => p.block b

namespace FtConnection

variable {decompress : List UInt8 → Option (List UInt8)} {id : ℤ} {ref : ℕ} {target : Option ℕ}
  {s t u : FtConnection} {events : List FtEvent}

/-- The job as it is created for a single file, with its picked target. -/
structure FreshDownload (s : FtConnection) (id : ℤ) (ref : ℕ) (target : Option ℕ) : Prop where
  get : s.writeJobs.get? id = some ref
  job : ∃ remotePath localPath n, s.writeHeap ref =
    { WriteJob.new id remotePath localPath n false with saveTarget := target }
  loop : s.loop = .idle

/-- What receiving keeps, against the tally of the events so far. -/
structure Receiving (decompress : List UInt8 → Option (List UInt8)) (id : ℤ) (ref : ℕ)
    (target : Option ℕ) (s : FtConnection) (tally : Tally) (t : FtConnection) : Prop where
  get : t.writeJobs.get? id = some ref
  single : (t.writeHeap ref).isFolderDownload = false
  saveTarget : (t.writeHeap ref).saveTarget = target
  files : (t.writeHeap ref).files ≠ [] ↔ tally.listed = true
  loop : t.loop = .idle ∨
    (∃ n data, t.loop = .decompressing ref id n data ∧
      (decompress data = none → tally.failed = true)) ∨
    ∃ n bytes k, target = some k ∧ t.loop = .writing ref id n bytes (.disk k)
  log : ∃ later, t.log = s.log ++ later ∧ (∀ n, Observation.event (.jobDone id n) ∉ later) ∧
    (tally.failed = false → ∃ p : Tally, (p.listed = false → p.after = []) ∧
      tally = p.withPending (pendingBlock decompress t.loop) ∧
      Stores target (t.writeHeap ref) p (written later))

/-- A new download receives from the start. -/
theorem FreshDownload.receiving (h : s.FreshDownload id ref target) :
    Receiving decompress id ref target s .start s := by
  obtain ⟨remotePath, localPath, n, hjob⟩ := h.job
  refine ⟨h.get, by simp [hjob, WriteJob.new], by simp [hjob],
    by simp [hjob, WriteJob.new, Tally.start], .inl h.loop, [], by simp, by simp,
    fun _ => ⟨.start, fun _ => rfl, ?_, ?_⟩⟩
  · rw [h.loop]
    rfl
  · rw [hjob]
    cases target with
    | some k => exact ⟨by simp [WriteJob.new, Tally.start, Tally.blocks], rfl, rfl, rfl⟩
    | none => exact ⟨⟨rfl, rfl, fun _ => rfl, by simp [WriteJob.new, OrderedMap.empty, Tally.start],
        by simp [Tally.start]⟩, rfl⟩

/-- Observations that neither complete the job nor write. -/
theorem Receiving.observe {tally : Tally} (h : Receiving decompress id ref target s tally t)
    {o : Observation} (hdone : ∀ n, o ≠ .event (.jobDone id n)) (hwritten : written [o] = []) :
    Receiving decompress id ref target s tally (t.observe o) := by
  obtain ⟨later, hlog, hquiet, hcontent⟩ := h.log
  refine ⟨h.get, h.single, h.saveTarget, h.files, h.loop, later ++ [o], ?_, fun n hmem => ?_,
    fun hfailed => ?_⟩
  · simp [FtConnection.observe, hlog]
  · rcases List.mem_append.mp hmem with hmem | hmem
    · exact hquiet n hmem
    · exact hdone n (List.mem_singleton.mp hmem).symm
  · rw [written_append, hwritten, List.append_nil]
    exact hcontent hfailed

/-- The loop is done with its block, and it is not stored. -/
theorem Receiving.setIdle {tally : Tally} (h : Receiving decompress id ref target s tally t) :
    ∃ p, p.listed = tally.listed ∧ (tally.failed = false → p.failed = false ∧
        tally = p.withPending (pendingBlock decompress t.loop)) ∧
      Receiving decompress id ref target s p (t.setLoop .idle) := by
  obtain ⟨later, hlog, hquiet, hcontent⟩ := h.log
  cases hfailed : tally.failed with
  | true =>
    refine ⟨tally, rfl, nofun, h.get, h.single, h.saveTarget, h.files, .inl rfl, later, hlog,
      hquiet, fun hok => ?_⟩
    rw [hfailed] at hok
    cases hok
  | false =>
    obtain ⟨p, hafter, htally, hstores⟩ := hcontent hfailed
    have hlisted : p.listed = tally.listed := by
      rw [htally]
      cases pendingBlock decompress t.loop <;> simp [Tally.withPending]
    have hok : p.failed = false := by
      rw [htally] at hfailed
      cases hp : pendingBlock decompress t.loop <;> simpa [hp, Tally.withPending] using hfailed
    exact ⟨p, hlisted, fun _ => ⟨hok, htally⟩, h.get, h.single, h.saveTarget,
      by rw [hlisted]; exact h.files, .inl rfl, later, hlog, hquiet,
      fun _ => ⟨p, hafter, rfl, hstores⟩⟩

/-- A block before the listing does not come after it. -/
theorem Tally.block_after {p : Tally} (h : p.listed = false → p.after = []) (b : Received) :
    (p.block b).listed = false → (p.block b).after = [] := by
  intro hlisted
  rw [Tally.block_listed] at hlisted
  simp [Tally.block, hlisted, h hlisted]

/-- A block is kept in memory. -/
theorem Receiving.store {p tally : Tally} {n : ℤ} {bytes : List UInt8} {f : WriteJob → WriteJob}
    (h : Receiving decompress id ref none s p t) (hloop : t.loop = .idle)
    (hlisted : tally.listed = p.listed)
    (htally : tally.failed = false → p.failed = false ∧ tally = p.block (n, bytes))
    (hframe : ∀ job, (f job).isFolderDownload = job.isFolderDownload ∧
      (f job).saveTarget = job.saveTarget ∧ (f job).files = job.files)
    (hkept : Kept (t.writeHeap ref) p → (p.listed = false → p.after = []) →
      Kept (f (t.writeHeap ref)) (p.block (n, bytes))) :
    Receiving decompress id ref none s tally ((t.updateWrite ref f).setLoop .idle) := by
  obtain ⟨later, hlog, hquiet, hcontent⟩ := h.log
  have hjob : ((t.updateWrite ref f).setLoop .idle).writeHeap ref = f (t.writeHeap ref) := by
    simp [FtConnection.updateWrite, FtConnection.setLoop]
  obtain ⟨hsingle, hsave, hfiles⟩ := hframe (t.writeHeap ref)
  refine ⟨h.get, ?_, ?_, ?_, .inl rfl, later, hlog, hquiet, fun hok => ?_⟩
  · rw [hjob, hsingle, h.single]
  · rw [hjob, hsave, h.saveTarget]
  · rw [hjob, hfiles, hlisted, h.files]
  · obtain ⟨hpok, rfl⟩ := htally hok
    obtain ⟨q, hafter, hq, hstores, hout⟩ := hcontent hpok
    obtain rfl : p = q := by rw [hq, hloop]; rfl
    refine ⟨_, Tally.block_after hafter (n, bytes), rfl, ?_, hout⟩
    rw [hjob]
    exact hkept hstores hafter

/-- The bytes of a block are stored, or on their way to the target. -/
theorem Receiving.appendBytes {p tally : Tally} {n : ℤ} {bytes : List UInt8}
    (h : Receiving decompress id ref target s p t) (hloop : t.loop = .idle)
    (hlisted : tally.listed = p.listed)
    (htally : tally.failed = false → p.failed = false ∧ tally = p.block (n, bytes)) :
    Receiving decompress id ref target s tally (t.appendBytes ref id n bytes) := by
  obtain ⟨later, hlog, hquiet, hcontent⟩ := h.log
  unfold FtConnection.appendBytes WriteJob.storage
  rw [h.saveTarget, h.single]
  cases target with
  | some k =>
    refine ⟨h.get, h.single, h.saveTarget, by rw [hlisted]; exact h.files,
      .inr (.inr ⟨n, bytes, k, rfl, rfl⟩), later, hlog, hquiet, fun hok => ?_⟩
    obtain ⟨hpok, rfl⟩ := htally hok
    obtain ⟨q, hafter, hq, hstores⟩ := hcontent hpok
    obtain rfl : p = q := by rw [hq, hloop]; rfl
    exact ⟨p, hafter, rfl, hstores⟩
  | none =>
    by_cases hlist : (t.writeHeap ref).files = []
    · have hplisted : p.listed = false := by
        by_contra hne
        exact h.files.mpr (by simpa using hne) hlist
      rw [if_neg (by simpa using hlist)]
      exact h.store hloop hlisted htally (fun _ => ⟨rfl, rfl, rfl⟩)
        fun hkept hafter => hkept.keepChunk hplisted (hafter hplisted) n bytes
    · rw [if_pos (.inr hlist)]
      exact h.store hloop hlisted htally (fun _ => ⟨rfl, rfl, rfl⟩)
        fun hkept _ => hkept.keepPerFile (h.files.mp hlist) n bytes

/-- What the tally counts of one event keeps up with the job. -/
theorem Receiving.dir {p : Tally} (h : Receiving decompress id ref target s p t)
    (hloop : t.loop = .idle) (path : String) (entries : List FileEntry) :
    Receiving decompress id ref target s (p.add decompress id (.host (.dir id path entries)))
      (t.handleDir id path entries) := by
  unfold FtConnection.handleDir Tally.add
  rw [h.get]
  refine Receiving.observe ?_ (fun _ => nofun) rfl
  by_cases hentries : entries = []
  · simpa [hentries] using h
  · obtain ⟨later, hlog, hquiet, hcontent⟩ := h.log
    have hjob : (t.updateWrite ref (·.setDownloadFiles entries)).writeHeap ref =
        (t.writeHeap ref).setDownloadFiles entries := by
      simp [FtConnection.updateWrite]
    simp only [hentries, ne_eq, not_false_eq_true, and_self, if_true]
    refine ⟨h.get, ?_, ?_, ?_, .inl hloop, later, hlog, hquiet, fun hok => ?_⟩
    · rw [hjob]
      exact h.single
    · rw [hjob]
      exact h.saveTarget
    · rw [hjob]
      simp [WriteJob.setDownloadFiles, hentries]
    · obtain ⟨q, hafter, hq, hstores⟩ := hcontent hok
      obtain rfl : p = q := by rw [hq, hloop]; rfl
      have hpending : pendingBlock decompress
          (t.updateWrite ref (·.setDownloadFiles entries)).loop = none := by
        show pendingBlock decompress t.loop = none
        rw [hloop]
        rfl
      refine ⟨{ p with listed := true }, nofun, by rw [hpending]; rfl, ?_⟩
      rw [hjob]
      cases target with
      | some k => exact ⟨hstores.streaming, hstores.chunks, hstores.entries, hstores.out⟩
      | none =>
        obtain ⟨hkept, hout⟩ := hstores
        exact ⟨⟨hkept.streaming, hkept.chunks, hkept.fileChunks, hkept.entries, hkept.fileNum⟩,
          hout⟩

/-- A block that arrives while the loop is idle is added to the tally. -/
theorem Receiving.block {p : Tally} (h : Receiving decompress id ref target s p t)
    (hloop : t.loop = .idle) (n : ℤ) (data : List UInt8) (compressed : Bool) :
    Receiving decompress id ref target s
      (p.add decompress id (.host (.block id n data compressed)))
      (t.handleBlock id n data compressed) := by
  unfold FtConnection.handleBlock Tally.add
  rw [h.get]
  cases compressed with
  | false =>
    exact h.appendBytes hloop (by simp) fun hok => ⟨by simpa using hok, by simp⟩
  | true =>
    simp only [if_true]
    obtain ⟨later, hlog, hquiet, hcontent⟩ := h.log
    have hkeep (q : Tally) (hq : q.listed = p.listed) (hfailed : decompress data = none →
        q.failed = true) (hblock : q.failed = false → p.failed = false ∧
        q = p.block (n, (decompress data).getD [])) :
        Receiving decompress id ref target s q (t.setLoop (.decompressing ref id n data)) := by
      refine ⟨h.get, h.single, h.saveTarget, by rw [hq]; exact h.files,
        .inr (.inl ⟨n, data, rfl, hfailed⟩), later, hlog, hquiet, fun hok => ?_⟩
      obtain ⟨hpok, rfl⟩ := hblock hok
      obtain ⟨r, hafter, hr, hstores⟩ := hcontent hpok
      obtain rfl : p = r := by rw [hr, hloop]; rfl
      exact ⟨p, hafter, rfl, hstores⟩
    cases hbytes : decompress data with
    | none => exact hkeep _ (by simp [Tally.fail]) (fun _ => rfl) nofun
    | some bytes =>
      exact hkeep _ (by simp) (by simp [hbytes]) fun hok =>
        ⟨by simpa using hok, by simp [hbytes]⟩

/-- The bytes of a block reached the target. -/
theorem Receiving.blockWritten {p : Tally} {n : ℤ} {bytes : List UInt8} {k : ℕ}
    (h : Receiving decompress id ref (some k) s p t)
    (hloop : t.loop = .writing ref id n bytes (.disk k)) :
    Receiving decompress id ref (some k) s p
      ((t.setLoop .idle).blockWritten ref n bytes (.disk k)) := by
  obtain ⟨later, hlog, hquiet, hcontent⟩ := h.log
  have hjob : ((t.setLoop .idle).blockWritten ref n bytes (.disk k)).writeHeap ref =
      { t.writeHeap ref with streamingToDisk := true }.received n bytes := by
    simp [FtConnection.blockWritten, FtConnection.updateWrite, FtConnection.observe,
      FtConnection.setLoop]
  refine ⟨h.get, ?_, ?_, ?_, .inl rfl, later ++ [.wrote k bytes], ?_, ?_, fun hok => ?_⟩
  · rw [hjob]
    exact h.single
  · rw [hjob]
    exact h.saveTarget
  · rw [hjob]
    exact h.files
  · simp [FtConnection.blockWritten, FtConnection.updateWrite, FtConnection.observe,
      FtConnection.setLoop, hlog]
  · intro m hmem
    simp only [List.mem_append, List.mem_singleton, reduceCtorEq, or_false] at hmem
    exact hquiet m hmem
  · obtain ⟨q, hafter, rfl, hstreamed⟩ := hcontent hok
    have hwritten : written (later ++ [.wrote k bytes]) =
        written later ++ bytes := by
      simp [written_append, written]
    rw [hloop]
    refine ⟨_, Tally.block_after hafter (n, bytes), rfl, ?_⟩
    rw [hjob, hwritten]
    exact hstreamed.received hafter n bytes

/-- A failed block is only reported. -/
theorem Receiving.failed {p q : Tally} (h : Receiving decompress id ref target s p t)
    (hlisted : q.listed = p.listed) (hfailed : q.failed = true) (n : ℤ) (err : String) :
    Receiving decompress id ref target s q ((t.setLoop .idle).pushJobError id n err) := by
  refine Receiving.observe ?_ (fun _ => nofun) rfl
  obtain ⟨later, hlog, hquiet, -⟩ := h.log
  refine ⟨h.get, h.single, h.saveTarget, by rw [hlisted]; exact h.files, .inl rfl, later, hlog,
    hquiet, fun hok => ?_⟩
  rw [hfailed] at hok
  cases hok

/-- **One event** of receiving keeps the job in step with its tally. -/
theorem Receiving.step {p : Tally} {e : FtEvent} (h : Receiving decompress id ref target s p t)
    (he : e.Receives id) (hstep : t.step decompress e = some u) :
    Receiving decompress id ref target s (p.add decompress id e) u := by
  cases performed_of_step hstep with
  | host m hloop =>
    have hobserved : Receiving decompress id ref target s p (t.observe (.host m)) :=
      h.observe (fun _ => nofun) rfl
    cases m with
    | dir id' path entries =>
      obtain rfl : id' = id := he
      exact hobserved.dir hloop path entries
    | block id' n data compressed =>
      obtain rfl : id' = id := he
      exact hobserved.block hloop n data compressed
    | _ => exact he.elim
  | decompressed hloop hbytes =>
    rename_i n data bytes
    obtain ⟨q, hq, hpending, hidle⟩ := h.setIdle
    rcases h.loop with hother | ⟨n', data', hsame, -⟩ | ⟨n', bytes', k, -, hother⟩
    · rw [hother] at hloop
      cases hloop
    · rw [hsame] at hloop
      cases hloop
      refine hidle.appendBytes rfl hq.symm fun hok => ?_
      obtain ⟨hqok, htally⟩ := hpending hok
      rw [hsame] at htally
      exact ⟨hqok, by simpa [Tally.withPending, pendingBlock, hbytes, Tally.add] using htally⟩
    · rw [hother] at hloop
      cases hloop
  | undecodable hloop hbytes =>
    rcases h.loop with hother | ⟨n', data', hsame, hfailed⟩ | ⟨n', bytes', k, -, hother⟩
    · rw [hother] at hloop
      cases hloop
    · rw [hsame] at hloop
      cases hloop
      exact h.failed rfl (hfailed hbytes) _ _
    · rw [hother] at hloop
      cases hloop
  | written hloop =>
    rcases h.loop with hother | ⟨n', data', hother, -⟩ | ⟨n', bytes', k, rfl, hsame⟩
    · rw [hother] at hloop
      cases hloop
    · rw [hother] at hloop
      cases hloop
    · rw [hsame] at hloop
      cases hloop
      exact h.blockWritten hsame
  | notWritten err hloop =>
    rcases h.loop with hother | ⟨n', data', hother, -⟩ | ⟨n', bytes', k, rfl, hsame⟩
    · rw [hother] at hloop
      cases hloop
    · rw [hother] at hloop
      cases hloop
    · rw [hsame] at hloop
      cases hloop
      exact h.failed (q := p.fail) rfl rfl _ _
  | _ => exact he.elim

/-- The tally of the events, with one more. -/
theorem Tally.of_concat (events : List FtEvent) (e : FtEvent) :
    Tally.of decompress id (events ++ [e]) =
      (Tally.of decompress id events).add decompress id e := by
  simp [Tally.of]

/-- **A run** of receiving keeps the job in step with its tally. -/
theorem receiving_run {registered : Bool} (h : s.FreshDownload id ref target)
    (hrun : (ftMachine decompress registered).RunWhere (fun _ e => e.Receives id) s events t) :
    Receiving decompress id ref target s (.of decompress id events) t := by
  induction hrun with
  | nil => exact h.receiving
  | snoc hrun he hstep ih =>
    rw [Tally.of_concat]
    exact ih.step he hstep

/-! ## Saving -/

/-- A run of receiving that ended idle, and what is done with its blocks. -/
theorem Receiving.handleDone {p : Tally} (h : Receiving decompress id ref target s p t)
    (hloop : t.loop = .idle) {n : ℤ}
    (hfinalizing : (t.handleDone id n).loop ≠ .idle) :
    t.handleDone id n =
      t.setLoop (.finalizing ref id n (t.writeHeap ref).finalizeDownload) := by
  unfold FtConnection.handleDone at *
  rw [h.get] at *
  split_ifs at * with hread
  · exact absurd hloop hfinalizing
  · rfl

/-- What saving writes, after what was streamed. -/
theorem stores_saved {job : WriteJob} {p : Tally} {out : List UInt8}
    (h : Stores target job p out) (hsingle : job.isFolderDownload = false)
    (htarget : job.saveTarget = target) (t : FtConnection) :
    out ++ written ((t.saved job.finalizeDownload).log.drop t.log.length) = bytesOf p.blocks ↔
      p.SavedWhole target := by
  cases target with
  | some k =>
    have hstreamed : Streamed job p out := h
    refine iff_of_true ?_ (.inl rfl)
    rcases hstreamed.finalizeDownload hsingle htarget with hclose | ⟨hempty, name, hsave⟩
    · simp [hclose, FtConnection.saved, written, hstreamed.out]
    · simp [hsave, FtConnection.saved, FtConnection.observe, written, hstreamed.out]
  | none =>
    obtain ⟨hkept, rfl⟩ := h
    obtain ⟨name, saved, hsave, hiff⟩ := hkept.finalizeDownload hsingle htarget
    rw [← hiff]
    simp [hsave, FtConnection.saved, FtConnection.observe, written]

/-- Saving writes, and nothing else is observed. -/
theorem saved_log (how : WriteJob.Finalization) :
    ∃ more, (t.saved how).log = t.log ++ more ∧ ∀ e, Observation.event e ∉ more := by
  cases how with
  | save name out pick => cases pick <;> exact ⟨[.wrote _ out], rfl, by simp⟩
  | _ => exact ⟨[], by simp [FtConnection.saved], by simp⟩

/-- **Download integrity.** A single-file download receives any events; then the host is done
and the download is finalized. Whether a `job_done` is right is decided by the finalization, the
failed blocks and where the blocks were kept. -/
theorem downloadIntegrity_iff {registered : Bool} {n : ℤ} {failure : Option String}
    (hfresh : s.FreshDownload id ref target)
    (hrun : (ftMachine decompress registered).RunWhere (fun _ e => e.Receives id) s events t)
    {done u : FtConnection} (hdone : t.step decompress (.host (.done id n)) = some done)
    (hfinal : done.step decompress (.finalized failure) = some u) :
    (∀ m, Observation.event (.jobDone id m) ∈ u.log.drop s.log.length →
        (Tally.of decompress id events).failed = false ∧
        written (u.log.drop s.log.length) = bytesOf (Tally.of decompress id events).blocks) ↔
      failure.isSome ∨ (Tally.of decompress id events).failed = false ∧
        (Tally.of decompress id events).SavedWhole target := by
  have hreceived := receiving_run hfresh hrun
  generalize Tally.of decompress id events = p at hreceived ⊢
  cases performed_of_step hdone with
  | host _ hidle =>
  have h : Receiving decompress id ref target s p (t.observe (.host (.done id n))) :=
    hreceived.observe (fun _ => nofun) rfl
  change _ = LoopState.idle at hidle
  cases performed_of_step hfinal with
  | finalized _ hloop =>
  rename_i ref' id' n' how
  change (FtConnection.handleDone _ id n).loop = _ at hloop
  have hfinalizing := h.handleDone hidle (n := n) (by rw [hloop]; nofun)
  rw [hfinalizing] at hloop
  obtain ⟨rfl, rfl, rfl, rfl⟩ := LoopState.finalizing.inj hloop
  set v := t.observe (.host (.done id n)) with hv
  set w := (v.setLoop (.finalizing ref id n (v.writeHeap ref).finalizeDownload)).setLoop .idle
  have hu : (((FtConnection.onHostMessage v (.done id n)).setLoop .idle).finalized ref id n
      (v.writeHeap ref).finalizeDownload failure).log =
      (w.finalized ref id n (v.writeHeap ref).finalizeDownload failure).log := by
    rw [show v.onHostMessage (.done id n) = v.handleDone id n from rfl, hfinalizing]
  rw [hu]
  obtain ⟨later, hlog, hquiet, hcontent⟩ := h.log
  have hw : w.log = s.log ++ later := hlog
  cases failure with
  | some err =>
    refine iff_of_true (fun m hmem => ?_) (.inl rfl)
    have hlate : (w.finalized ref id n (v.writeHeap ref).finalizeDownload (some err)).log =
        s.log ++ (later ++ [.event (.jobError id n err)]) := by
      simp [finalized, pushJobError, ev, FtConnection.observe, removeJob, hw]
    rw [hlate, List.drop_left] at hmem
    simp only [List.mem_append, List.mem_singleton, Observation.event.injEq, reduceCtorEq,
      or_false] at hmem
    exact absurd hmem (hquiet m)
  | none =>
    obtain ⟨more, hmore, hnone⟩ := saved_log (t := w) (v.writeHeap ref).finalizeDownload
    have hlate : (w.finalized ref id n (v.writeHeap ref).finalizeDownload none).log =
        s.log ++ (later ++ more ++ [.event (.jobDone id n)]) := by
      have hsingle : (w.writeHeap ref).isFolderDownload = false := h.single
      simp [finalized, ev, FtConnection.observe, removeJob, hmore, hw, hsingle]
    rw [hlate, List.drop_left]
    have hwritten : written (later ++ more ++ [.event (.jobDone id n)]) =
        written later ++ written more := by
      simp [written_append, written]
    have hsaved (hok : p.failed = false) : written later ++
        written more = bytesOf p.blocks ↔ p.SavedWhole target := by
      obtain ⟨q, -, hq, hstores⟩ := hcontent hok
      have hpending : pendingBlock decompress v.loop = none := by
        rw [show v.loop = .idle from hidle]
        rfl
      obtain rfl : p = q := by rw [hq, hpending]; rfl
      have hdrop : (w.saved (v.writeHeap ref).finalizeDownload).log.drop w.log.length = more := by
        rw [hmore, List.drop_left]
      simpa [hdrop] using stores_saved hstores h.single h.saveTarget w
    rw [hwritten]
    constructor
    · intro hdone
      obtain ⟨hok, hbytes⟩ := hdone n (by simp)
      exact .inr ⟨hok, (hsaved hok).mp hbytes⟩
    · rintro (hfailure | ⟨hok, hwhole⟩) m -
      · cases hfailure
      · exact ⟨hok, (hsaved hok).mpr hwhole⟩

/-- Whether an event counts for the download is decided by its kind and its id. -/
instance (e : FtEvent) : Decidable (e.Receives id) := by
  unfold FtEvent.Receives
  split <;> infer_instance

/-- The demo starts a new download. -/
theorem freshDownload_demo : (demoRun demoDownload).FreshDownload 1 0 none :=
  ⟨rfl, ⟨"/tmp/a.txt", "a.txt", 0, rfl⟩, rfl⟩

/-- Two blocks without a listing are saved whole. -/
theorem downloadIntegrity_two_blocks :
    ∃ t done u, demoMachine.RunWhere (fun _ e => e.Receives 1) (demoRun demoDownload)
        [.host (.block 1 0 [1, 2] false), .host (.block 1 0 [3] false)] t ∧
      t.step (fun _ => none) (.host (.done 1 0)) = some done ∧
      done.step (fun _ => none) (.finalized none) = some u ∧
      ∀ m, Observation.event (.jobDone 1 m) ∈ u.log.drop (demoRun demoDownload).log.length →
        written (u.log.drop (demoRun demoDownload).log.length) = [1, 2, 3] := by
  have hrun : demoMachine.RunWhere (fun _ e => e.Receives 1) (demoRun demoDownload)
      [.host (.block 1 0 [1, 2] false), .host (.block 1 0 [3] false)]
      (demoRun (demoDownload ++
        [.host (.block 1 0 [1, 2] false), .host (.block 1 0 [3] false)])) :=
    Machine.runWhere_of_replayWhere rfl
  refine ⟨_, _, _, hrun, rfl, rfl, fun m hmem => ?_⟩
  exact ((downloadIntegrity_iff freshDownload_demo hrun rfl rfl).mpr
    (.inr ⟨rfl, .inr (.inl rfl)⟩) m hmem).2

/-- A block that cannot be written to the picked target is left out, and the download is done; a
block before the listing is lost where another one follows the listing. -/
theorem not_downloadIntegrity :
    (∃ u, demoMachine.Run (demoRun demoStreamed)
        [.host (.block 1 0 [1, 2] false), .written (some "Error: disk full"), .host (.done 1 0),
          .finalized none] u ∧
      Observation.event (.jobError 1 0 "Error: disk full") ∈ u.log ∧
      Observation.event (.jobDone 1 0) ∈ u.log ∧ written u.log = []) ∧
    ∃ u, demoMachine.Run (demoRun demoDownload)
        [.host (.block 1 0 [1, 2] false), .host (.dir 1 "/tmp" [⟨"a.txt", 3, 0, 4⟩]),
          .host (.block 1 0 [3] false), .host (.done 1 0), .finalized none] u ∧
      Observation.event (.jobDone 1 0) ∈ u.log ∧ written u.log = [3] := by
  refine ⟨⟨_, Machine.run_of_replay rfl, ?_, ?_, rfl⟩, _, Machine.run_of_replay rfl, ?_, rfl⟩
  · repeat constructor
  · repeat constructor
  · repeat constructor

end FtConnection

end RdWeb.FileTransfer
