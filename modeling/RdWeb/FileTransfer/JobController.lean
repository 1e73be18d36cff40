import RdWeb.FileTransfer.Messages
import Mathlib.Data.List.Basic

/-!
# The job table of the user interface

`JobController` keeps one `JobProgress` for each job and writes its state anew on every
report of an end.
-/

namespace RdWeb.FileTransfer

/-- Whether an event reports the end of a job. -/
def UiEvent.ends (id : ℤ) : UiEvent → Bool
  | .jobDone id' _ | .jobError id' .. => id' = id
  | _ => false

/-- An observation as a report of the end of a job. -/
def Observation.ending? (id : ℤ) : Observation → Option UiEvent
  | .event e => if e.ends id then some e else none
  | _ => none

/-- The reports of the end of a job, oldest first. -/
def endings (id : ℤ) (log : List Observation) : List UiEvent := log.filterMap (·.ending? id)

/-- The endings of a job, part by part. -/
theorem endings_append (id : ℤ) (first second : List Observation) :
    endings id (first ++ second) = endings id first ++ endings id second :=
  List.filterMap_append

/-- An event that ends a job is one of its endings. -/
theorem mem_endings {id : ℤ} {log : List Observation} {e : UiEvent}
    (hmem : .event e ∈ log) (hends : e.ends id = true) : e ∈ endings id log :=
  List.mem_filterMap.mpr ⟨.event e, hmem, by simp [Observation.ending?, hends]⟩

/-- The kinds of jobs. -/
inductive JobType
  | none
  | transfer
  | deleteFile
  | deleteDir
  deriving DecidableEq

/-- The states of a job. -/
inductive JobState
  | none
  | inProgress
  | done
  | error
  | paused
  deriving DecidableEq

/-- An entry of the job table. -/
structure JobProgress where
  type : JobType
  state : JobState
  recvJobRes : Bool
  id : ℤ
  fileNum : ℤ
  finishedSize : ℕ
  totalSize : ℕ
  fileCount : ℕ
  err : String
  deriving DecidableEq

namespace JobProgress

/-- A transfer that has just started. -/
def transferring (id : ℤ) (fileCount totalSize : ℕ) : JobProgress :=
  ⟨.transfer, .inProgress, false, id, 0, 0, totalSize, fileCount, ""⟩

/-- The job got an answer. -/
def responded (job : JobProgress) : JobProgress := { job with recvJobRes := true }

/-- The job goes on to a state. -/
def setState (job : JobProgress) (state : JobState) : JobProgress := { job with state := state }

/-- The job goes on to a file. -/
def setFileNum (job : JobProgress) (fileNum : ℤ) : JobProgress := { job with fileNum := fileNum }

/-- `jobDone` for the job it finds. -/
def jobDone (job : JobProgress) (fileNum : ℤ) : JobProgress :=
  match job.type with
  | .deleteFile => job.responded.setState .done
  | .deleteDir =>
    if fileNum < job.fileNum then job.responded
    else if (job.fileCount : ℤ) - 1 ≤ fileNum then
      (job.responded.setFileNum fileNum).setState .done
    else job.responded.setFileNum fileNum
  | .none | .transfer =>
    if job.fileCount ≤ 1 ∨ (job.fileCount : ℤ) - 1 ≤ fileNum then
      (job.responded.setFileNum fileNum).setState .done
    else job.responded.setFileNum fileNum

/-- `jobError` for the job it finds. -/
def jobError (job : JobProgress) (fileNum : ℤ) (err : String) : JobProgress :=
  let job := { job.responded.setState .error with err := err }
  match job.type with
  | .transfer =>
    if err = "skipped" then
      { (job.setFileNum fileNum).setState .done with finishedSize := job.totalSize }
    else job.setFileNum fileNum
  | .deleteDir => job.setFileNum fileNum
  | .none | .deleteFile => job

/-- An event of the connection, as it reaches one job. -/
def receive (job : JobProgress) : UiEvent → JobProgress
  | .jobDone id fileNum => if id = job.id then job.jobDone fileNum else job
  | .jobError id fileNum err => if id = job.id then job.jobError fileNum err else job
  | _ => job

/-- All that a connection observed, as it reaches one job. -/
def receiveAll (job : JobProgress) (log : List Observation) : JobProgress :=
  (endings job.id log).foldl receive job

/-- A failed job is shown as failed. -/
theorem jobError_state {err : String} (herr : err ≠ "skipped") (job : JobProgress) (fileNum : ℤ) :
    (job.jobError fileNum err).state = .error := by
  unfold jobError
  simp only [if_neg herr]
  split <;> rfl

/-- Where a failure is the only report, the job stays failed. -/
theorem receiveAll_state {job : JobProgress} {log : List Observation} {fileNum : ℤ} {err : String}
    (hone : (endings job.id log).length ≤ 1)
    (hmem : .event (.jobError job.id fileNum err) ∈ log) (herr : err ≠ "skipped") :
    (job.receiveAll log).state = .error := by
  have hend : .jobError job.id fileNum err ∈ endings job.id log :=
    mem_endings hmem (by simp [UiEvent.ends])
  obtain ⟨e, he⟩ : ∃ e, endings job.id log = [e] := by
    have hpos := List.length_pos_of_mem hend
    exact List.length_eq_one_iff.mp (by omega)
  have heq : .jobError job.id fileNum err = e := by simpa [he] using hend
  rw [receiveAll, he, ← heq, List.foldl_cons, List.foldl_nil, receive, if_pos rfl]
  exact jobError_state herr job fileNum

end JobProgress

end RdWeb.FileTransfer
