import RdWeb.FileTransfer.Keyed
import RdWeb.Lib.Pieces
import RdWeb.Lib.History

/-!
# What an upload sends

For each file a digest, and after the host has answered it the blocks of the file from the
answered offset on, or nothing if the host skips it.
-/

namespace RdWeb.FileTransfer

/-- The answer to the digest of a file. -/
inductive Answer
  | skip
  | goOn (offsetBlk : ℕ)
  deriving DecidableEq

/-- An observation as an answer for a file: the host confirms it, or the user overrides it. -/
def Observation.answer? (id n : ℤ) : Observation → Option Answer
  | .host (.sendConfirm id' n' skip offsetBlk) =>
    if id' = id ∧ n' = n then some (if skip then .skip else .goOn offsetBlk) else none
  | .call (.confirmOverrideFile id' n' true _) =>
    if id' = id ∧ n' = n then some (.goOn 0) else none
  | _ => none

/-- The first answer for a file. -/
def answer? (id n : ℤ) (log : List Observation) : Option Answer :=
  log.findSome? (·.answer? id n)

/-- The answer in a log is that of its first part, else of its second. -/
theorem answer?_append (id n : ℤ) (first second : List Observation) :
    answer? id n (first ++ second) = (answer? id n first).or (answer? id n second) :=
  List.findSome?_append

/-- The first answer stays. -/
theorem answer?_append_of_some {id n : ℤ} {log later : List Observation} {a : Answer}
    (h : answer? id n log = some a) : answer? id n (log ++ later) = some a := by
  rw [answer?_append, h, Option.some_or]

/-- An answer stays open while nothing gives it. -/
theorem answer?_append_of_none {id n : ℤ} {log later : List Observation}
    (h : answer? id n log = none) (hlater : answer? id n later = none) :
    answer? id n (log ++ later) = none := by
  rw [answer?_append, h, hlater, Option.none_or]

/-- The answer in a single observation. -/
theorem answer?_singleton (id n : ℤ) (o : Observation) : answer? id n [o] = o.answer? id n := by
  cases h : o.answer? id n <;> simp [answer?, h]

/-- An observation as a message queued for an id. -/
def Observation.queued? (id : ℤ) : Observation → Option OutMessage
  | .queued m => if m.id? = some id then some m else none
  | _ => none

/-- The messages queued for an id, oldest first. -/
def queuedAbout (id : ℤ) (log : List Observation) : List OutMessage := log.filterMap (·.queued? id)

/-- The messages about an upload, part by part. -/
theorem queuedAbout_append (id : ℤ) (first second : List Observation) :
    queuedAbout id (first ++ second) = queuedAbout id first ++ queuedAbout id second :=
  List.filterMap_append

/-- What is not queued is no message about it. -/
theorem queuedAbout_of_not_queued {id : ℤ} {o : Observation} (h : o.queued? id = none) :
    queuedAbout id [o] = [] := by
  simp [queuedAbout, h]

/-- Messages are queued for the id they name. -/
theorem queuedAbout_map_queued {id : ℤ} {messages : List OutMessage}
    (h : ∀ m ∈ messages, m.id? = some id) : queuedAbout id (messages.map .queued) = messages := by
  induction messages with
  | nil => rfl
  | cons m messages ih =>
    have hm : (Observation.queued m).queued? id = some m := by simp [Observation.queued?, h m]
    have hrest := ih fun m' hmem => h m' (by simp [hmem])
    rw [List.map_cons, queuedAbout, List.filterMap_cons_some hm]
    exact congrArg (m :: ·) hrest

/-- Queued messages answer nothing. -/
theorem answer?_map_queued (id n : ℤ) (messages : List OutMessage) :
    answer? id n (messages.map .queued) = none := by
  simp [answer?, Observation.answer?]

/-- A block is earned by an answer before it. -/
def Earned (id : ℤ) (before : List Observation) (o : Observation) : Prop :=
  ∀ n data compressed blkId, o = .queued (.block id n data compressed blkId) →
    ∃ offsetBlk, answer? id n before = some (.goOn offsetBlk)

/-- What is not queued need not be earned. -/
theorem earned_of_not_queued {id : ℤ} {o : Observation} (h : o.queued? id = none)
    (before : List Observation) : Earned id before o := by
  rintro n data compressed blkId rfl
  simp [Observation.queued?, OutMessage.id?] at h

/-- The blocks of some bytes, after the block with a number. -/
def blocks (id n : ℤ) (bytes : List UInt8) (blkId : ℕ) : List OutMessage :=
  ((pieces BLOCK_SIZE bytes).zipIdx blkId).map fun piece =>
    .block id n piece.1 false (piece.2 + 1)

/-- No bytes make no block. -/
@[simp] theorem blocks_nil (id n : ℤ) (blkId : ℕ) : blocks id n [] blkId = [] := by
  simp [blocks]

/-- The blocks of a file, one at a time. -/
theorem blocks_of_ne_nil (id n : ℤ) {bytes : List UInt8} (h : bytes ≠ []) (blkId : ℕ) :
    blocks id n bytes blkId = .block id n (bytes.take BLOCK_SIZE) false (blkId + 1) ::
      blocks id n (bytes.drop BLOCK_SIZE) (blkId + 1) := by
  have hsize : 0 < BLOCK_SIZE := by decide
  simp only [blocks, pieces_of_ne_nil hsize h, List.zipIdx_cons, List.map_cons]

/-- A file under its number. -/
abbrev Listed : Type := ℤ × File

/-- The digest of a file of the upload. -/
def Listed.digest (id : ℤ) (f : Listed) : OutMessage :=
  .digest id f.1 f.2.size f.2.modifiedTime

/-- The blocks an answer asks for. -/
def Listed.answered (id : ℤ) (f : Listed) : Answer → List OutMessage
  | .skip => []
  | .goOn offsetBlk => blocks id f.1 (f.2.bytes.drop (offsetBlk * BLOCK_SIZE)) offsetBlk

/-- The messages about one file. -/
def Listed.messages (id : ℤ) (log : List Observation) (f : Listed) : List OutMessage :=
  f.digest id :: ((answer? id f.1 log).map (f.answered id)).getD []

/-- The messages of a file that was answered. -/
theorem Listed.messages_of_answer {id : ℤ} {log : List Observation} {f : Listed} {a : Answer}
    (h : answer? id f.1 log = some a) : f.messages id log = f.digest id :: f.answered id a := by
  rw [Listed.messages, h, Option.map_some, Option.getD_some]

/-- Files that are answered stay so. -/
theorem answered_append {id : ℤ} {files : List Listed} {log : List Observation}
    (h : ∀ f ∈ files, ∃ a, answer? id f.1 log = some a) (later : List Observation) :
    ∀ f ∈ files, ∃ a, answer? id f.1 (log ++ later) = some a := by
  intro f hmem
  obtain ⟨a, ha⟩ := h f hmem
  exact ⟨a, answer?_append_of_some ha⟩

/-- The files after number `n`, as `advanceUploadAfterFile` finds them. -/
def Follows (files : List File) (count : ℕ) (n : ℤ) : List Listed → Prop
  | [] => ¬ n + 1 < count
  | (m, file) :: rest =>
    m = n + 1 ∧ m < count ∧ at? files m = some file ∧ Follows files count m rest

/-- The number of each file from `n` on. -/
def numberFrom (n : ℤ) : List File → List Listed
  | [] => []
  | file :: rest => (n, file) :: numberFrom (n + 1) rest

/-- The element behind the first part of a list. -/
theorem at?_append_cons {α : Type} (before : List α) (a : α) (after : List α) :
    at? (before ++ a :: after) before.length = some a := by
  simp [at?]

/-- The files of a list are found under their numbers. -/
theorem follows_numberFrom (before rest : List File) :
    Follows (before ++ rest) (before ++ rest).length ((before.length : ℤ) - 1)
      (numberFrom before.length rest) := by
  induction rest generalizing before with
  | nil => simp [numberFrom, Follows]
  | cons file rest ih =>
    have hsplit : before ++ file :: rest = (before ++ [file]) ++ rest := by simp
    have hlength : ((before ++ [file]).length : ℤ) = before.length + 1 := by simp
    have hrest := ih (before ++ [file])
    rw [← hsplit, hlength, Int.add_sub_cancel] at hrest
    refine ⟨by omega, ?_, at?_append_cons before file rest, hrest⟩
    rw [List.length_append, List.length_cons]
    omega

/-- Numbers grow along the list. -/
theorem Follows.lt {files : List File} {count : ℕ} {n : ℤ} {rest : List Listed}
    (h : Follows files count n rest) {f : Listed} (hmem : f ∈ rest) : n < f.1 := by
  induction rest generalizing n with
  | nil => cases hmem
  | cons g rest ih =>
    obtain ⟨m, file⟩ := g
    obtain ⟨rfl, -, -, hrest⟩ := h
    rcases List.mem_cons.mp hmem with rfl | hmem
    · exact Int.lt_succ n
    · have hlt := ih hrest hmem
      omega

/-- An upload: what it was started with, and the history before it. -/
structure Upload where
  id : ℤ
  /-- The reference of its job. -/
  ref : ℕ
  base : List Observation
  receive : OutMessage
  /-- What a start of the upload announces and `addJob` does not. -/
  unsent : List OutMessage
  /-- `uploadFiles`. -/
  files : List File
  /-- The length of `files` of the job. -/
  count : ℕ
  first : Listed
  rest : List Listed
  follows : Follows files count first.1 rest

namespace Upload

/-- The files of the upload with their numbers. -/
def listing (up : Upload) : List Listed := up.first :: up.rest

/-- The last file of the upload. -/
def last (up : Upload) : Listed := up.listing.getLast (List.cons_ne_nil _ _)

/-- All that is queued for an upload, given the answers in a history. -/
def protocol (up : Upload) (log : List Observation) : List OutMessage :=
  up.receive :: (up.listing.flatMap (·.messages up.id log) ++ [.done up.id up.last.1])

/-- What was observed since the upload was started. -/
def since (up : Upload) (s : FtConnection) : List Observation := s.log.drop up.base.length

/-- The job of the upload. -/
def job (up : Upload) (s : FtConnection) : ReadJob := s.readHeap up.ref

/-- The upload is in the table. -/
def Live (up : Upload) (s : FtConnection) : Prop := s.readJobs.get? up.id = some up.ref

end Upload

/-- Where the pump waits for an id. -/
def FtConnection.phaseOf (s : FtConnection) (id : ℤ) : Option PumpPhase :=
  s.pump.bind fun p => if p.id = id then some p.phase else none

end RdWeb.FileTransfer
