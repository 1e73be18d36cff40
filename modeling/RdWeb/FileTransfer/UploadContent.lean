import RdWeb.FileTransfer.UploadStart
import Mathlib.Data.List.Infix

/-!
# What the blocks of an upload hold

Under the number of a file only bytes of that file are queued, from the offset of its answer
on, in numbered blocks. This needs answers that come in turn: `handleFileAction` takes a
confirmation for the file the job is at, whatever its number says, and a skip for the file
that its number says.
-/

namespace RdWeb.FileTransfer

/-- The bytes and the number of a block for a file. -/
def OutMessage.blockOf? (n : ℤ) : OutMessage → Option (List UInt8 × ℕ)
  | .block _ n' data _ blkId => if n' = n then some (data, blkId) else none
  | _ => none

/-- The blocks for a file among some messages. -/
def blocksOf (n : ℤ) (messages : List OutMessage) : List (List UInt8 × ℕ) :=
  messages.filterMap (·.blockOf? n)

/-- The blocks of a file, part by part. -/
theorem blocksOf_append (n : ℤ) (first second : List OutMessage) :
    blocksOf n (first ++ second) = blocksOf n first ++ blocksOf n second :=
  List.filterMap_append

/-- The bytes that some blocks make up. -/
def contents (blocks : List (List UInt8 × ℕ)) : List UInt8 := (blocks.map Prod.fst).flatten

/-- Fewer blocks hold less. -/
theorem contents_prefix {first second : List (List UInt8 × ℕ)} (h : first <+: second) :
    contents first <+: contents second :=
  List.IsPrefix.flatten (h.map Prod.fst)

/-- Some bytes in blocks, after the block with a number. -/
def numbered (bytes : List UInt8) (blkId : ℕ) : List (List UInt8 × ℕ) :=
  (pieces BLOCK_SIZE bytes).zipIdx (blkId + 1)

/-- The numbered blocks hold the bytes. -/
theorem contents_numbered (bytes : List UInt8) (blkId : ℕ) :
    contents (numbered bytes blkId) = bytes := by
  have hsize : 0 < BLOCK_SIZE := by decide
  rw [contents, numbered, List.zipIdx_map_fst, flatten_pieces hsize]

/-- The numbers of the blocks rise. -/
theorem numbered_pairwise (bytes : List UInt8) (blkId : ℕ) :
    (numbered bytes blkId).Pairwise fun block block' => block.2 < block'.2 := by
  apply List.pairwise_map.mp
  rw [numbered, List.zipIdx_map_snd]
  exact List.pairwise_lt_range'

/-- No block is longer than the size of a block. -/
theorem length_le_of_mem_numbered {bytes : List UInt8} {blkId : ℕ} {block : List UInt8 × ℕ}
    (hmem : block ∈ numbered bytes blkId) : block.1.length ≤ BLOCK_SIZE := by
  have hsize : 0 < BLOCK_SIZE := by decide
  have hpiece : block.1 ∈ pieces BLOCK_SIZE bytes := by
    rw [← List.zipIdx_map_fst (blkId + 1) (pieces BLOCK_SIZE bytes)]
    exact List.mem_map_of_mem hmem
  exact length_le_of_mem_pieces hsize hpiece

/-- The blocks that are sent are the numbered ones. -/
theorem blocksOf_blocks (id n : ℤ) (bytes : List UInt8) (blkId : ℕ) :
    blocksOf n (blocks id n bytes blkId) = numbered bytes blkId := by
  have hblock : (fun piece : List UInt8 × ℕ =>
      (OutMessage.block id n piece.1 false (piece.2 + 1)).blockOf? n) =
        some ∘ fun piece => (piece.1, piece.2 + 1) := by
    funext piece
    simp [OutMessage.blockOf?]
  rw [blocksOf, blocks, List.filterMap_map, numbered, List.zipIdx_succ]
  rw [← List.filterMap_eq_map, ← hblock]
  rfl

/-- Blocks of another file are not counted. -/
theorem blocksOf_blocks_other (id : ℤ) {m n : ℤ} (h : m ≠ n) (bytes : List UInt8) (blkId : ℕ) :
    blocksOf n (blocks id m bytes blkId) = [] := by
  simp [blocksOf, blocks, OutMessage.blockOf?, h]

/-- The blocks that an answer asks for. -/
def Listed.numbered (f : Listed) : Answer → List (List UInt8 × ℕ)
  | .skip => []
  | .goOn offsetBlk => FileTransfer.numbered (f.2.bytes.drop (offsetBlk * BLOCK_SIZE)) offsetBlk

/-- The blocks of a file that was answered. -/
theorem blocksOf_answered (id : ℤ) (f : Listed) (a : Answer) :
    blocksOf f.1 (f.answered id a) = f.numbered a := by
  cases a with
  | skip => rfl
  | goOn offsetBlk => exact blocksOf_blocks id f.1 _ offsetBlk

/-- They are not blocks of another file. -/
theorem blocksOf_answered_other (id : ℤ) {f : Listed} {n : ℤ} (h : f.1 ≠ n) (a : Answer) :
    blocksOf n (f.answered id a) = [] := by
  cases a with
  | skip => rfl
  | goOn offsetBlk => exact blocksOf_blocks_other id h _ offsetBlk

/-- The end of a file is not among its answered messages. -/
theorem done_not_mem_answered {id n : ℤ} (f : Listed) (a : Answer) :
    .done id n ∉ f.answered id a := by
  cases a <;> simp [Listed.answered, blocks]

/-- The messages of another file hold no block of this one. -/
theorem blocksOf_messages_other {id n : ℤ} {f : Listed} (h : f.1 ≠ n) (log : List Observation) :
    blocksOf n (f.messages id log) = [] := by
  cases ha : answer? id f.1 log with
  | none => simp [Listed.messages, ha, Listed.digest, blocksOf, OutMessage.blockOf?]
  | some a =>
    rw [Listed.messages_of_answer ha]
    exact blocksOf_answered_other id h a

/-- Announcements hold no blocks. -/
theorem blocksOf_of_announces {id n : ℤ} {messages : List OutMessage}
    (h : ∀ m ∈ messages, m.Announces id) : blocksOf n messages = [] := by
  apply List.filterMap_eq_nil_iff.mpr
  intro m hmem
  have hm := h m hmem
  cases m with
  | receive => rfl
  | digest => rfl
  | _ => exact hm.elim

/-! ## The files of a listing -/

/-- The files are found under their numbers. -/
theorem Follows.found {files : List File} {count : ℕ} {n : ℤ} {rest : List Listed}
    (h : Follows files count n rest) {f : Listed} (hmem : f ∈ rest) :
    at? files f.1 = some f.2 := by
  induction rest generalizing n with
  | nil => cases hmem
  | cons g rest ih =>
    obtain ⟨m, file⟩ := g
    obtain ⟨-, -, hfile, hrest⟩ := h
    rcases List.mem_cons.mp hmem with rfl | hmem
    · exact hfile
    · exact ih hrest hmem

/-- The numbers grow. -/
theorem Follows.pairwise {files : List File} {count : ℕ} {n : ℤ} {rest : List Listed}
    (h : Follows files count n rest) : rest.Pairwise fun f g => f.1 < g.1 := by
  induction rest generalizing n with
  | nil => exact .nil
  | cons g rest ih =>
    obtain ⟨m, file⟩ := g
    obtain ⟨-, -, -, hrest⟩ := h
    exact List.pairwise_cons.mpr ⟨fun f hmem => hrest.lt hmem, ih hrest⟩

/-- No number is left out. -/
theorem Follows.covers {files : List File} {count : ℕ} {n m : ℤ} {before after : List Listed}
    {f : Listed} (h : Follows files count n (before ++ f :: after)) (hlt : n < m)
    (hm : m < f.1) : ∃ g ∈ before, g.1 = m := by
  induction before generalizing n with
  | nil =>
    obtain ⟨hnum, -⟩ := h
    omega
  | cons g before ih =>
    obtain ⟨hnum, -, -, hrest⟩ := h
    by_cases heq : g.1 = m
    · exact ⟨g, by simp, heq⟩
    · have hafter : g.1 < m := by omega
      obtain ⟨g', hmem, hg'⟩ := ih hrest hafter
      exact ⟨g', by simp [hmem], hg'⟩

namespace Upload

variable {up : Upload} {d : Prop} {v : View} {s t u : FtConnection} {passed rest : List Listed}
  {f : Listed} {sent : List OutMessage}

/-- The numbers of the files rise. -/
theorem listing_pairwise (up : Upload) : up.listing.Pairwise fun f g => f.1 < g.1 :=
  List.pairwise_cons.mpr ⟨fun _ hmem => up.follows.lt hmem, up.follows.pairwise⟩

/-- A file of the listing is found under its number. -/
theorem listing_found (hfirst : at? up.files up.first.1 = some up.first.2)
    (hmem : f ∈ up.listing) : at? up.files f.1 = some f.2 := by
  rcases List.mem_cons.mp hmem with rfl | hmem
  · exact hfirst
  · exact up.follows.found hmem

/-- A number between the first file and this one is that of a file passed. -/
theorem listing_covers (h : up.listing = passed ++ f :: rest) {n : ℤ} (hn : up.first.1 ≤ n)
    (hlt : n < f.1) : ∃ g ∈ passed, g.1 = n := by
  cases passed with
  | nil =>
    obtain ⟨rfl, -⟩ := List.cons.inj h
    omega
  | cons g passed =>
    obtain ⟨rfl, hrest⟩ := List.cons.inj h
    by_cases heq : up.first.1 = n
    · exact ⟨up.first, by simp, heq⟩
    · have hafter : up.first.1 < n := by omega
      obtain ⟨g, hmem, hg⟩ := (hrest ▸ up.follows).covers hafter hlt
      exact ⟨g, by simp [hmem], hg⟩

/-! ## The blocks in the queue -/

/-- What is queued at the start announces the upload. -/
def Plain (up : Upload) : Prop :=
  up.receive.Announces up.id ∧ ∀ m ∈ up.unsent, m.Announces up.id

/-- The blocks for a number, of the files that are passed and of the current file. -/
theorem At.blocksOf (h : up.At d v passed f rest sent) (hplain : up.Plain) (n : ℤ) :
    blocksOf n (queuedAbout up.id v.later) =
      passed.flatMap (fun g => FileTransfer.blocksOf n (g.messages up.id v.later)) ++
        FileTransfer.blocksOf n sent := by
  obtain ⟨hreceive, hunsent⟩ := hplain
  have hreceives : ∀ m ∈ [up.receive], m.Announces up.id := by simpa using hreceive
  have hfirst : FileTransfer.blocksOf n [up.receive] = [] := blocksOf_of_announces hreceives
  have hdigest : FileTransfer.blocksOf n [f.digest up.id] = [] := rfl
  have hqueued := congrArg (FileTransfer.blocksOf n) h.queued
  rw [blocksOf_append, blocksOf_of_announces hunsent, List.nil_append] at hqueued
  rw [hqueued, ← List.singleton_append, blocksOf_append, hfirst, List.nil_append,
    blocksOf_append, ← List.singleton_append (l := sent), blocksOf_append, hdigest,
    List.nil_append]
  congr 1
  exact List.filterMap_flatMap ..

/-- The numbers of a listing are different. -/
theorem number_ne {before after : List Listed} {g e : Listed}
    (h : up.listing = before ++ g :: after) (hmem : e ∈ before ∨ e ∈ after) : e.1 ≠ g.1 := by
  have hpairwise := up.listing_pairwise
  rw [h] at hpairwise
  obtain ⟨-, hafter, hbefore⟩ := List.pairwise_append.mp hpairwise
  rcases hmem with hmem | hmem
  · have hlt := hbefore e hmem g (by simp)
    omega
  · have hlt := (List.pairwise_cons.mp hafter).1 e hmem
    omega

/-- The messages of other files hold no block of this one. -/
theorem flatMap_messages_other {n : ℤ} (h : ∀ g ∈ passed, g.1 ≠ n) (log : List Observation) :
    passed.flatMap (fun g => FileTransfer.blocksOf n (g.messages up.id log)) = [] :=
  List.flatMap_eq_nil_iff.mpr fun g hmem => blocksOf_messages_other (h g hmem) log

/-- What was sent at the current file holds no block of another one. -/
theorem Stage.blocksOf_other (h : up.Stage d v f rest sent) {n : ℤ} (hn : f.1 ≠ n) :
    FileTransfer.blocksOf n sent = [] := by
  cases h with
  | waiting => rfl
  | @sending offsetBlk _ _ _ _ _ hblocks =>
    have hinitial : sent <+: f.answered up.id (.goOn offsetBlk) := by
      rw [← hblocks, List.append_assoc]
      exact List.prefix_append _ _
    have hprefix := hinitial.filterMap (·.blockOf? n)
    have hnone := blocksOf_answered_other up.id hn (.goOn offsetBlk)
    exact List.prefix_nil.mp (hnone ▸ hprefix)
  | finished =>
    rw [blocksOf_append, blocksOf_answered_other up.id hn]
    rfl
  | skipped => rfl

/-- The blocks of the current file. -/
theorem Stage.blocksOf_current (h : up.Stage d v f rest sent) :
    FileTransfer.blocksOf f.1 sent = [] ∨
      ∃ offsetBlk, answer? up.id f.1 v.later = some (.goOn offsetBlk) ∧
        FileTransfer.blocksOf f.1 sent <+: f.numbered (.goOn offsetBlk) := by
  cases h with
  | waiting => exact .inl rfl
  | @sending offsetBlk _ _ hanswer _ _ hblocks =>
    have hinitial : sent <+: f.answered up.id (.goOn offsetBlk) := by
      rw [← hblocks, List.append_assoc]
      exact List.prefix_append _ _
    refine .inr ⟨offsetBlk, hanswer, ?_⟩
    rw [← blocksOf_answered up.id]
    exact hinitial.filterMap _
  | @finished offsetBlk hanswer =>
    have hdone : FileTransfer.blocksOf f.1 [.done up.id f.1] = [] := rfl
    have hall : FileTransfer.blocksOf f.1 (f.answered up.id (.goOn offsetBlk) ++
        [.done up.id f.1]) = f.numbered (.goOn offsetBlk) := by
      rw [blocksOf_append, blocksOf_answered, hdone, List.append_nil]
    exact .inr ⟨offsetBlk, hanswer, hall ▸ List.prefix_refl _⟩
  | skipped => exact .inl rfl

/-- The current file of an upload that lasts is not skipped. -/
theorem Stage.not_skip (h : up.Stage d v f rest sent) (hlive : v.entry = some up.ref) :
    answer? up.id f.1 v.later ≠ some .skip := by
  intro hskip
  cases h with
  | waiting _ _ _ _ _ hopen => cases (hopen hlive).symm.trans hskip
  | sending _ hanswer => cases hanswer.symm.trans hskip
  | finished _ hgone => cases hgone.symm.trans hlive
  | skipped _ hgone => cases hgone.symm.trans hlive

/-- The blocks of a file that is passed. -/
theorem At.blocksOf_passed (h : up.At d v passed f rest sent) (hplain : up.Plain) {g : Listed}
    (hmem : g ∈ passed) : ∃ a, answer? up.id g.1 v.later = some a ∧
      FileTransfer.blocksOf g.1 (queuedAbout up.id v.later) = g.numbered a := by
  obtain ⟨a, ha⟩ := h.answered g hmem
  refine ⟨a, ha, ?_⟩
  obtain ⟨before, after, rfl⟩ := List.append_of_mem hmem
  have hlisting : up.listing = before ++ g :: (after ++ f :: rest) := by
    rw [h.listing]
    simp
  have hbefore : ∀ e ∈ before, e.1 ≠ g.1 := fun e he => number_ne hlisting (.inl he)
  have hafter : ∀ e ∈ after, e.1 ≠ g.1 := fun e he => number_ne hlisting (.inr (by simp [he]))
  have hcurrent : f.1 ≠ g.1 := number_ne hlisting (.inr (by simp))
  have hnone : FileTransfer.blocksOf g.1 [g.digest up.id] = [] := rfl
  rw [h.blocksOf hplain, h.stage.blocksOf_other hcurrent, List.append_nil, List.flatMap_append,
    List.flatMap_cons, flatMap_messages_other hbefore, flatMap_messages_other hafter,
    List.nil_append, List.append_nil, Listed.messages_of_answer ha,
    ← List.singleton_append, blocksOf_append, hnone, List.nil_append, blocksOf_answered]

/-- The blocks of the current file, in the queue. -/
theorem At.blocksOf_current (h : up.At d v passed f rest sent) (hplain : up.Plain) :
    FileTransfer.blocksOf f.1 (queuedAbout up.id v.later) = FileTransfer.blocksOf f.1 sent := by
  have hpassed : ∀ e ∈ passed, e.1 ≠ f.1 := fun e he => number_ne h.listing (.inl he)
  rw [h.blocksOf hplain, flatMap_messages_other hpassed, List.nil_append]

/-- **The blocks for a number** are the first blocks that its answer asks for. -/
theorem At.blocksOf_initial (h : up.At d v passed f rest sent) (hplain : up.Plain) (n : ℤ) :
    FileTransfer.blocksOf n (queuedAbout up.id v.later) = [] ∨
      ∃ g ∈ up.listing, g.1 = n ∧ ∃ offsetBlk, answer? up.id n v.later = some (.goOn offsetBlk) ∧
        FileTransfer.blocksOf n (queuedAbout up.id v.later) <+: g.numbered (.goOn offsetBlk) := by
  by_cases hpassed : ∃ g ∈ passed, g.1 = n
  · obtain ⟨g, hmem, rfl⟩ := hpassed
    obtain ⟨a, ha, hblocks⟩ := h.blocksOf_passed hplain hmem
    cases a with
    | skip => exact .inl hblocks
    | goOn offsetBlk =>
      refine .inr ⟨g, ?_, rfl, offsetBlk, ha, hblocks ▸ List.prefix_refl _⟩
      rw [h.listing]
      exact List.mem_append_left _ hmem
  · by_cases hcurrent : f.1 = n
    · subst hcurrent
      rw [h.blocksOf_current hplain]
      refine h.stage.blocksOf_current.imp_right fun ⟨offsetBlk, hanswer, hinitial⟩ => ?_
      refine ⟨f, ?_, rfl, offsetBlk, hanswer, hinitial⟩
      rw [h.listing]
      simp
    · have hother : ∀ g ∈ passed, g.1 ≠ n := fun g hmem hn => hpassed ⟨g, hmem, hn⟩
      left
      rw [h.blocksOf hplain, flatMap_messages_other hother, h.stage.blocksOf_other hcurrent,
        List.append_nil]

/-- Nothing but the end of the last file is a `Done`. -/
theorem At.done_mem (h : up.At d v passed f rest sent) (hplain : up.Plain) {n : ℤ}
    (hmem : .done up.id n ∈ queuedAbout up.id v.later) :
    f.1 = n ∧ ∃ offsetBlk, answer? up.id f.1 v.later = some (.goOn offsetBlk) ∧
      FileTransfer.blocksOf f.1 sent = f.numbered (.goOn offsetBlk) := by
  have hall := List.mem_append_right up.unsent hmem
  rw [h.queued] at hall
  rcases List.mem_cons.mp hall with hreceive | hall
  · exact (hreceive ▸ hplain.1 : OutMessage.Announces up.id (.done up.id n)).elim
  · rcases List.mem_append.mp hall with hpassed | hall
    · obtain ⟨g, hg, hmessage⟩ := List.mem_flatMap.mp hpassed
      obtain ⟨a, ha⟩ := h.answered g hg
      rw [Listed.messages_of_answer ha] at hmessage
      rcases List.mem_cons.mp hmessage with hdigest | hblock
      · cases hdigest
      · exact absurd hblock (done_not_mem_answered g a)
    · rcases List.mem_cons.mp hall with hdigest | hsent
      · cases hdigest
      · cases h.stage with
        | waiting => cases hsent
        | @sending offsetBlk _ _ _ _ _ hblocks =>
          have hblock : .done up.id n ∈ f.answered up.id (.goOn offsetBlk) := by
            rw [← hblocks, List.append_assoc]
            exact List.mem_append_left _ hsent
          exact absurd hblock (done_not_mem_answered f _)
        | @finished offsetBlk hanswer =>
          rcases List.mem_append.mp hsent with hblock | hdone
          · exact absurd hblock (done_not_mem_answered f _)
          · have hnum := List.mem_singleton.mp hdone
            refine ⟨by injection hnum with _ hn; exact hn.symm, offsetBlk, hanswer, ?_⟩
            have hnone : FileTransfer.blocksOf f.1 [.done up.id f.1] = [] := rfl
            rw [blocksOf_append, blocksOf_answered, hnone, List.append_nil]
        | skipped => cases hsent

/-! ## Runs -/

/-- The blocks queued for a file. -/
def blocksFor (up : Upload) (s : FtConnection) (n : ℤ) : List (List UInt8 × ℕ) :=
  FileTransfer.blocksOf n (queuedAbout up.id (up.since s))

/-- The upload is through with a file. -/
def Past (up : Upload) (s : FtConnection) (n : ℤ) : Prop :=
  n < (up.job s).fileNum ∨ .done up.id n ∈ queuedAbout up.id (up.since s)

/-- What is queued for the files of an upload is what was asked for. -/
structure Faithful (up : Upload) (s : FtConnection) : Prop where
  /-- The blocks for a number hold bytes of the file with that number. -/
  content : ∀ n, up.blocksFor s n ≠ [] → ∃ file offsetBlk, at? up.files n = some file ∧
    answer? up.id n (up.since s) = some (.goOn offsetBlk) ∧
    contents (up.blocksFor s n) <+: file.bytes.drop (offsetBlk * BLOCK_SIZE)
  size : ∀ n, ∀ block ∈ up.blocksFor s n, block.1.length ≤ BLOCK_SIZE
  order : ∀ n, (up.blocksFor s n).Pairwise fun block block' => block.2 < block'.2
  /-- No block comes before the answer for its file. -/
  confirmed : History.Grounded (Earned up.id) (up.since s)
  /-- A file the upload is through with was skipped, or it is complete. -/
  past : ∀ n file, at? up.files n = some file → up.Past s n →
    answer? up.id n (up.since s) = some .skip ∧ up.blocksFor s n = [] ∨
      ∃ offsetBlk, answer? up.id n (up.since s) = some (.goOn offsetBlk) ∧
        contents (up.blocksFor s n) = file.bytes.drop (offsetBlk * BLOCK_SIZE)
  /-- A file that is skipped is left behind. -/
  skips : ∀ n, up.Live s → answer? up.id n (up.since s) = some .skip → n < (up.job s).fileNum

/-- An upload that is tracked is faithful. -/
theorem Tracks.faithful (h : up.Tracks d s) (hplain : up.Plain) (hzero : up.first.1 = 0)
    (hfirst : at? up.files up.first.1 = some up.first.2) : up.Faithful s := by
  obtain ⟨-, -, passed, f, rest, sent, hat⟩ := h
  have hinitial (n : ℤ) := hat.blocksOf_initial hplain n
  have hnum : (up.job s).fileNum = f.1 := hat.job.fileNum
  refine ⟨fun n hne => ?_, fun n block hmem => ?_, fun n => ?_, hat.confirmed,
    fun n file hfile hpast => ?_, fun n hlive hskip => ?_⟩
  · obtain ⟨g, hg, rfl, offsetBlk, hanswer, hblocks⟩ := (hinitial n).resolve_left hne
    refine ⟨g.2, offsetBlk, listing_found hfirst hg, hanswer, ?_⟩
    rw [← contents_numbered (g.2.bytes.drop (offsetBlk * BLOCK_SIZE)) offsetBlk]
    exact contents_prefix hblocks
  · rcases hinitial n with hnil | ⟨g, -, -, offsetBlk, -, hblocks⟩
    · rw [blocksFor, show up.since s = (up.view s).later from rfl, hnil] at hmem
      cases hmem
    · exact length_le_of_mem_numbered (hblocks.subset hmem)
  · rcases hinitial n with hnil | ⟨g, -, -, offsetBlk, -, hblocks⟩
    · rw [blocksFor, show up.since s = (up.view s).later from rfl, hnil]
      exact .nil
    · exact (numbered_pairwise _ offsetBlk).sublist hblocks.sublist
  · have hpos : 0 ≤ n := by
      by_contra hneg
      rw [at?, if_neg hneg] at hfile
      cases hfile
    rcases hpast with hlt | hdone
    · rw [hnum] at hlt
      obtain ⟨g, hmem, rfl⟩ := listing_covers hat.listing (hzero ▸ hpos) hlt
      obtain ⟨a, ha, hblocks⟩ := hat.blocksOf_passed hplain hmem
      have hg : g ∈ up.listing := by
        rw [hat.listing]
        exact List.mem_append_left _ hmem
      obtain rfl := Option.some.inj (hfile.symm.trans (listing_found hfirst hg))
      cases a with
      | skip => exact .inl ⟨ha, hblocks⟩
      | goOn offsetBlk =>
        refine .inr ⟨offsetBlk, ha, ?_⟩
        exact (congrArg contents hblocks).trans (contents_numbered _ offsetBlk)
    · obtain ⟨rfl, offsetBlk, hanswer, hblocks⟩ := hat.done_mem hplain hdone
      have hf : f ∈ up.listing := by
        rw [hat.listing]
        simp
      obtain rfl := Option.some.inj (hfile.symm.trans (listing_found hfirst hf))
      refine .inr ⟨offsetBlk, hanswer, ?_⟩
      have hqueued := (hat.blocksOf_current hplain).trans hblocks
      exact (congrArg contents hqueued).trans (contents_numbered _ offsetBlk)
  · rw [hnum]
    have hanswered : ¬ f.1 < n := fun hlt => by
      rw [show up.since s = (up.view s).later from rfl, hat.ahead hlive n hlt] at hskip
      cases hskip
    have hother : n ≠ f.1 := by
      rintro rfl
      exact hat.stage.not_skip hlive hskip
    omega

/-- An upload that begins is plain. -/
theorem plain_of_begins {c : BridgeCall} (h : c.Begins s up) : up.Plain := by
  cases h with
  | sendFiles => exact ⟨rfl, fun _ hmem => by cases hmem⟩
  | sendLocalFiles => exact ⟨rfl, fun _ hmem => by cases hmem⟩
  | sendFolderUpload => exact ⟨rfl, fun _ hmem => by cases hmem⟩
  | addJob =>
    refine ⟨rfl, fun m hmem => ?_⟩
    rcases List.mem_cons.mp hmem with rfl | hmem
    · exact rfl
    · rw [List.mem_singleton.mp hmem]
      exact rfl

/-- The first file under the number 0. -/
theorem found_of_begins {c : BridgeCall} (h : c.Begins s up) (hzero : up.first.1 = 0) :
    at? up.files up.first.1 = some up.first.2 := by
  rw [hzero]
  cases h with
  | sendFiles => rfl
  | sendLocalFiles => rfl
  | @sendFolderUpload id plan =>
    have hhead : plan.files.head? = some (plan.files.head plan.files_ne_nil) :=
      List.head?_eq_some_head plan.files_ne_nil
    have hzero : at? plan.files 0 = plan.files.head? := by simp [at?, List.head?_eq_getElem?]
    exact hzero.trans hhead
  | addJob => rfl

/-- **What an upload sends.** While every answer is for the file that was asked about, and comes
before its first block, the blocks queued for each number hold what was asked for of the file
with that number. -/
theorem faithful_of_inTurn (decompress : List UInt8 → Option (List UInt8)) (registered : Bool)
    {c : BridgeCall} {events : List FtEvent}
    (hreach : (ftMachine decompress registered).Reachable s) (hbegins : c.Begins s up)
    (hzero : up.first.1 = 0) (hresting : PumpPhase.Resting (s.phaseOf up.id))
    (hstart : s.step decompress (.call c) = some t)
    (hrun : (ftMachine decompress registered).RunWhere (fun s e => e.InTurn up.id s) t events u) :
    up.Faithful u := by
  have hkeyed := (FtConnection.keyed_of_reachable hreach).step hstart
  have htracks : up.Tracks True u :=
    tracks_run (tracks_start hbegins hresting hstart) hkeyed
      (hrun.mono fun _ _ hok => ⟨hok, fun _ => .inl trivial⟩)
  exact htracks.faithful (plain_of_begins hbegins) hzero (found_of_begins hbegins hzero)

/-- Both files are confirmed. -/
theorem faithful_confirmed :
    ∃ t u, demoConnected.step (fun _ => none)
        (.call (.sendFolderUpload 1 (some demoPlan) "/tmp/d" false)) = some t ∧
      FtConnection.demoMachine.Run t [.host (.sendConfirm 1 0 false 0), .sliceRead none,
        .pumpContinues, .host (.sendConfirm 1 1 false 0), .sliceRead none, .pumpContinues] u ∧
      demoFolder.blocksFor u 0 = [([1, 2, 3], 1)] ∧ demoFolder.blocksFor u 1 = [([4, 5], 1)] ∧
      demoFolder.Faithful u := by
  have hrun : FtConnection.demoMachine.RunWhere (fun s e => e.InTurn demoFolder.id s)
      (demoFolderRun []) [.host (.sendConfirm 1 0 false 0), .sliceRead none, .pumpContinues,
        .host (.sendConfirm 1 1 false 0), .sliceRead none, .pumpContinues]
      (demoFolderRun [.host (.sendConfirm 1 0 false 0), .sliceRead none, .pumpContinues,
        .host (.sendConfirm 1 1 false 0), .sliceRead none, .pumpContinues]) :=
    .cons (inTurn_of_waiting rfl rfl rfl) rfl <| .cons trivial rfl <| .cons trivial rfl <|
      .cons (inTurn_of_waiting rfl rfl rfl) rfl <| .cons trivial rfl <| .single trivial rfl
  exact ⟨_, _, rfl, hrun.run, rfl, rfl,
    faithful_of_inTurn (fun _ => none) true reachable_demoConnected .sendFolderUpload rfl
      (resting_demoConnected 1) rfl hrun⟩

/-- The host confirms the first file twice: the second file is sent without an answer for it. -/
theorem not_faithful_repeated :
    ∃ t u, demoConnected.step (fun _ => none)
        (.call (.sendFolderUpload 1 (some demoPlan) "/tmp/d" false)) = some t ∧
      FtConnection.demoMachine.Run t [.host (.sendConfirm 1 0 false 0), .sliceRead none,
        .pumpContinues, .host (.sendConfirm 1 0 false 0), .sliceRead none, .pumpContinues] u ∧
      demoFolder.blocksFor u 1 = [([4, 5], 1)] ∧ answer? 1 1 (demoFolder.since u) = none ∧
      ¬ demoFolder.Faithful u := by
  have hblocks : demoFolder.blocksFor (demoFolderRun [.host (.sendConfirm 1 0 false 0),
      .sliceRead none, .pumpContinues, .host (.sendConfirm 1 0 false 0), .sliceRead none,
      .pumpContinues]) 1 = [([4, 5], 1)] := rfl
  have hanswer : answer? 1 1 (demoFolder.since (demoFolderRun [.host (.sendConfirm 1 0 false 0),
      .sliceRead none, .pumpContinues, .host (.sendConfirm 1 0 false 0), .sliceRead none,
      .pumpContinues])) = none := rfl
  have hnot : ¬ demoFolder.Faithful (demoFolderRun [.host (.sendConfirm 1 0 false 0),
      .sliceRead none, .pumpContinues, .host (.sendConfirm 1 0 false 0), .sliceRead none,
      .pumpContinues]) := by
    intro h
    obtain ⟨file, offsetBlk, -, hconfirmed, -⟩ := h.content 1 (by simp [hblocks])
    cases hanswer.symm.trans hconfirmed
  exact ⟨demoFolderRun [], _, rfl, Machine.run_of_replay rfl, hblocks, hanswer, hnot⟩

end Upload

end RdWeb.FileTransfer
