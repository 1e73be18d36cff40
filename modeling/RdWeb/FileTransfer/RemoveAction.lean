import RdWeb.FileTransfer.JobController
import RdWeb.Lib.Machine

/-!
# Removing a directory

`removeAction` of `file_model.dart` asks for each entry of a directory, sends its removal and waits
for a result; the directory itself is removed when the result of the last entry comes. The waiting
is done by one `JobResultListener` for all jobs of the session, which the next report of any job
completes.
-/

namespace RdWeb.FileTransfer

/-- `updateJobStatus` for the job it finds. -/
def JobProgress.updateStatus (job : JobProgress) (fileNum : Option ℤ) (error : Option String)
    (state : Option JobState) : JobProgress :=
  let job := job.responded
  let job : JobProgress := match fileNum with
    | some fileNum => job.setFileNum fileNum
    | none => job
  let job : JobProgress := match error with
    | some err => { job with err := err, state := .error }
    | none => job
  let job : JobProgress := match state with
    | some state => job.setState state
    | none => job
  if job.type = .deleteFile ∧ error = none then job.setState .done else job

/-- The directory to remove, the paths of the entries found in it, and the job made for that. -/
structure RemoveDir where
  path : String
  entries : List String
  deleteJobId : ℤ

/-- Where `removeAction` stands. -/
inductive RemovePhase
  /-- the dialog for a directory without entries -/
  | emptyDialog
  /-- the dialog for entry `i` -/
  | dialog (i : ℕ)
  /-- the wait for the result of entry `i` -/
  | waiting (i : ℕ)
  /-- the wait for the result of entry `j`, which the answer for entry `i` covers -/
  | remembered (i j : ℕ)
  | finished
  deriving DecidableEq

/-- The entry whose result is waited for. -/
def RemovePhase.awaited : RemovePhase → Option ℕ
  | .waiting i => some i
  | .remembered _ j => some j
  | .emptyDialog | .dialog _ | .finished => none

/-- What is sent to the host. -/
inductive RemoveRequest
  | removeFile (path : String) (fileNum : ℕ) (actId : ℤ)
  | removeEmptyDir (path : String) (fileNum : ℕ) (actId : ℤ)
  deriving DecidableEq

/-- The request removes a directory. -/
def RemoveRequest.isRemoveEmptyDir : RemoveRequest → Bool
  | .removeEmptyDir .. => true
  | .removeFile .. => false

/-- Who waits for the completer of the `JobResultListener`. -/
inductive ListenerOwner
  | thisDelete
  | otherDelete
  deriving DecidableEq

/-- One run of `removeAction` over a directory, with what it shares with the rest. The last three
fields are not in the program: the entries that were confirmed, the results that arrived, and
whether every entry so far was confirmed and every wait ended by the result waited for. -/
structure RemoveState where
  phase : RemovePhase
  /-- `_removeCheckboxRemember` -/
  remember : Bool
  jobResultListener : Option ListenerOwner
  jobTable : List JobProgress
  sent : List RemoveRequest
  confirmed : List ℕ
  arrived : List (ℤ × ℤ)
  undisturbed : Bool

/-- What happens while a directory is deleted. -/
inductive RemoveEvent
  /-- the dialog is closed -/
  | answer (confirm : Option Bool)
  /-- a checkbox is set, or another delete starts and clears it -/
  | remember (value : Bool)
  | jobDone (id fileNum : ℤ)
  | jobError (id fileNum : ℤ) (err : String)
  /-- the timer of the listener -/
  | timeout
  /-- another delete starts to listen -/
  | otherStart
  /-- jobs come and go -/
  | jobTable (table : List JobProgress)

namespace RemoveState

variable (d : RemoveDir)

/-- A change of the job with an id. -/
def updateJob (s : RemoveState) (id : ℤ) (f : JobProgress → JobProgress) : RemoveState :=
  { s with jobTable := s.jobTable.modify (s.jobTable.findIdx (·.id = id)) f }

/-- The head of the loop over the entries. -/
def enter (s : RemoveState) (i : ℕ) : RemoveState :=
  { s with phase := if i < d.entries.length then .dialog i else .finished }

/-- A file is asked to be removed, which its user has confirmed. -/
def sendRemoveFile (s : RemoveState) (i : ℕ) : RemoveState :=
  { s with
    sent := s.sent ++ [.removeFile (d.entries.getD i "") i d.deleteJobId]
    confirmed := s.confirmed ++ [i] }

/-- The directory itself is asked to be removed. -/
def sendRemoveEmptyDir (s : RemoveState) (i : ℕ) : RemoveState :=
  { s with sent := s.sent ++ [.removeEmptyDir d.path i d.deleteJobId] }

/-- The `catch` around the turn of entry `i`: the loop goes on. -/
def caught (s : RemoveState) (i : ℕ) : RemoveState :=
  { s with undisturbed := false }.enter d (i + 1)

/-- Send the removal of entry `k` in the turn of entry `i`, and wait in `phase`;
`jobResultListener.start` fails where somebody listens already. -/
def removeEntry (s : RemoveState) (i k : ℕ) (phase : RemovePhase) : RemoveState :=
  let s := s.sendRemoveFile d k
  if s.jobResultListener = none then
    { s with jobResultListener := some .thisDelete, phase := phase }
  else s.caught d i

/-- The loop over the entries that the answer for entry `i` covers, from entry `j` on. -/
def removeRest (s : RemoveState) (i j : ℕ) : RemoveState :=
  if j < d.entries.length then s.removeEntry d i j (.remembered i j)
  else { s with phase := .finished }

/-- The answer of the dialog for entry `i`. -/
def answer (s : RemoveState) (i : ℕ) (confirm : Option Bool) : RemoveState :=
  if confirm = some true then s.removeEntry d i i (.waiting i)
  else
    let s := { s with undisturbed := false }.updateJob d.deleteJobId
      (·.updateStatus (some i) (some "cancel") none)
    if s.remember then
      { s.updateJob d.deleteJobId
          (·.updateStatus (some d.entries.length) (some "cancel") (some .done)) with
        phase := .finished }
    else s.enter d (i + 1)

/-- The answer of the dialog for a directory without entries. -/
def answerEmpty (s : RemoveState) (confirm : Option Bool) : RemoveState :=
  let s := { s with phase := .finished }
  if confirm = some true then s.sendRemoveEmptyDir d 0
  else s.updateJob d.deleteJobId (·.updateStatus none (some "cancel") (some .done))

/-- The result of the wait for entry `k`, in the turn of entry `i`; only the number in it counts. -/
def handleResult (s : RemoveState) (i k : ℕ) (fileNum : ℤ) : RemoveState :=
  let s := { s with undisturbed := s.undisturbed && decide (fileNum = k) }
  if fileNum = (d.entries.length : ℤ) - 1 then s.sendRemoveEmptyDir d i else s

/-- What follows the wait. -/
def resume (s : RemoveState) (fileNum : ℤ) : RemoveState :=
  match s.phase with
  | .waiting i =>
    let s := s.handleResult d i i fileNum
    if s.remember then s.removeRest d i (i + 1) else s.enter d (i + 1)
  | .remembered i j => (s.handleResult d i j fileNum).removeRest d i (j + 1)
  | .emptyDialog | .dialog _ | .finished => s

/-- `jobResultListener.complete`. -/
def complete (s : RemoveState) (fileNum : ℤ) : RemoveState :=
  match s.jobResultListener with
  | none => s
  | some .otherDelete => { s with jobResultListener := none }
  | some .thisDelete => { s with jobResultListener := none }.resume d fileNum

/-- `completeError` by the timer. -/
def timeout (s : RemoveState) : RemoveState :=
  match s.phase with
  | .waiting i | .remembered i _ => s.caught d i
  | .emptyDialog | .dialog _ | .finished => s

/-- Whether `jobError` completes the listener: the job is in the table, to delete something. -/
def isDelete (s : RemoveState) (id : ℤ) : Bool :=
  match s.jobTable.find? (·.id = id) with
  | some job => job.type = .deleteDir ∨ job.type = .deleteFile
  | none => false

/-- An answer of the host, which goes to the job and to the wait. -/
def jobDone (s : RemoveState) (id fileNum : ℤ) : RemoveState :=
  ({ s with arrived := s.arrived ++ [(id, fileNum)] }.updateJob id (·.jobDone fileNum)).complete d
    fileNum

/-- An error of the host, which ends the wait of a delete only. -/
def jobError (s : RemoveState) (id fileNum : ℤ) (err : String) : RemoveState :=
  let s' := { s with arrived := s.arrived ++ [(id, fileNum)] }.updateJob id
    (·.jobError fileNum err)
  if s.isDelete id then s'.complete d fileNum else s'

/-- One step of the dialog or of the host. -/
def step (s : RemoveState) : RemoveEvent → Option RemoveState
  | .answer confirm =>
    match s.phase with
    | .dialog i => some (s.answer d i confirm)
    | .emptyDialog => some (s.answerEmpty d confirm)
    | .waiting _ | .remembered .. | .finished => none
  | .remember value => some { s with remember := value }
  | .jobDone id fileNum => some (s.jobDone d id fileNum)
  | .jobError id fileNum err => some (s.jobError d id fileNum err)
  | .timeout =>
    match s.jobResultListener with
    | none => none
    | some .otherDelete => some { s with jobResultListener := none }
    | some .thisDelete => some ({ s with jobResultListener := none }.timeout d)
  | .otherStart =>
    if s.jobResultListener = none then some { s with jobResultListener := some .otherDelete }
    else none
  | .jobTable table => some { s with jobTable := table }

/-- The delete begins, with the jobs there are. -/
def init (table : List JobProgress) : RemoveState where
  phase := if d.entries = [] then .emptyDialog else .dialog 0
  remember := false
  jobResultListener := none
  jobTable := table
  sent := []
  confirmed := []
  arrived := []
  undisturbed := true

/-- Any answers, any reports of any jobs and any timers. -/
def machine (table : List JobProgress) : Machine RemoveState RemoveEvent := ⟨init d table, step d⟩

/-- How often the removal of the directory was requested. -/
def dirRequests (s : RemoveState) : ℕ := s.sent.countP (·.isRemoveEmptyDir)

/-- Every entry was confirmed, and its result arrived. -/
def AllRemoved (s : RemoveState) : Prop :=
  ∀ k < d.entries.length, k ∈ s.confirmed ∧ (d.deleteJobId, (k : ℤ)) ∈ s.arrived

/-- The job and the number of an entry in the report that completes the listener. -/
def completion (s : RemoveState) : RemoveEvent → Option (ℤ × ℤ)
  | .jobDone id fileNum => some (id, fileNum)
  | .jobError id fileNum _ => if s.isDelete id then some (id, fileNum) else none
  | _ => none

/-- The job a report is about. -/
def reportedJob : RemoveEvent → Option ℤ
  | .jobDone id _ | .jobError id .. => some id
  | _ => none

/-- The law of a step: the removal of the directory is requested at most once, and only after every
entry was confirmed and its result arrived; no report of another job ends the wait. -/
structure Lawful (s : RemoveState) (e : RemoveEvent) (s' : RemoveState) : Prop where
  once : s'.dirRequests ≤ 1
  complete : 0 < s'.dirRequests → s'.AllRemoved d
  other : ∀ id, reportedJob e = some id → id ≠ d.deleteJobId → s'.phase = s.phase

/-- The reports that end the wait are those of this delete, and the result with the last number is
that of the last entry, before which every entry was confirmed and every wait ended by the result
waited for. -/
def Careful (s : RemoveState) (e : RemoveEvent) : Prop :=
  s.jobResultListener = some .thisDelete → ∀ report ∈ s.completion e,
    report.1 = d.deleteJobId ∧ (report.2 = (d.entries.length : ℤ) - 1 →
      s.undisturbed = true ∧ ∃ k ∈ s.phase.awaited, (k : ℤ) = report.2)

/-- Whether an event is careful is decided by the state before it. -/
instance (s : RemoveState) (e : RemoveEvent) : Decidable (Careful d s e) :=
  inferInstanceAs (Decidable (_ → _))

/-- How many entries had their turn before. -/
def turn : RemovePhase → ℕ
  | .dialog i | .waiting i | .remembered _ i => i
  | .emptyDialog | .finished => 0

/-- The first `m` entries were confirmed and their results arrived, if nothing was disturbed. -/
def Settled (s : RemoveState) (m : ℕ) : Prop :=
  s.undisturbed = true → ∀ k < m, k ∈ s.confirmed ∧ (d.deleteJobId, (k : ℤ)) ∈ s.arrived

/-- What careful steps keep. -/
structure Sound (s : RemoveState) : Prop where
  once : s.dirRequests ≤ 1
  complete : 0 < s.dirRequests → s.phase = .finished ∧ s.AllRemoved d
  confirmed : ∀ k ∈ s.phase.awaited, k ∈ s.confirmed
  settled : s.Settled d (turn s.phase)
  empty : s.phase = .emptyDialog → d.entries = []

variable {d} {s s' : RemoveState}

/-- While the delete goes on, nothing was requested for the directory. -/
theorem Sound.dirRequests_eq (h : Sound d s) (hphase : s.phase ≠ .finished) :
    s.dirRequests = 0 := by
  by_contra hne
  exact hphase (h.complete (Nat.pos_of_ne_zero hne)).1

/-- The rest of the program does not touch what the law is about. -/
theorem Sound.congr (h : Sound d s) (hphase : s'.phase = s.phase) (hsent : s'.sent = s.sent)
    (hconfirmed : s'.confirmed = s.confirmed) (hundisturbed : s'.undisturbed = s.undisturbed)
    (harrived : s.arrived ⊆ s'.arrived) : Sound d s' := by
  have hrequests : s'.dirRequests = s.dirRequests := by simp only [dirRequests, hsent]
  refine ⟨hrequests ▸ h.once, fun hpos => ?_, ?_, ?_, fun hempty => h.empty (hphase ▸ hempty)⟩
  · obtain ⟨hfinished, hall⟩ := h.complete (hrequests ▸ hpos)
    refine ⟨hphase.trans hfinished, fun k hk => ?_⟩
    rw [hconfirmed]
    exact ⟨(hall k hk).1, harrived (hall k hk).2⟩
  · rw [hphase, hconfirmed]
    exact h.confirmed
  · intro hund k hk
    rw [hphase] at hk
    rw [hconfirmed]
    obtain ⟨hc, ha⟩ := h.settled (hundisturbed ▸ hund) k hk
    exact ⟨hc, harrived ha⟩

/-- The end of the loop, where nothing was requested for the directory. -/
theorem sound_finished (hphase : s.phase = .finished) (hrequests : s.dirRequests = 0) :
    Sound d s := by
  refine ⟨by omega, by omega, by simp [hphase, RemovePhase.awaited], fun _ k hk => ?_,
    by simp [hphase]⟩
  rw [hphase] at hk
  exact absurd hk (Nat.not_lt_zero k)

/-- The loop goes on after the turns of the first `i` entries. -/
theorem sound_enter {i : ℕ} (hrequests : s.dirRequests = 0) (hsettled : s.Settled d i) :
    Sound d (s.enter d i) := by
  have hrequests' : (s.enter d i).dirRequests = 0 := hrequests
  refine ⟨by omega, by omega, ?_, ?_, ?_⟩
  · simp only [enter]
    split_ifs <;> simp [RemovePhase.awaited]
  · simp only [enter]
    split_ifs
    · exact hsettled
    · exact fun _ k hk => absurd hk (Nat.not_lt_zero k)
  · simp only [enter]
    split_ifs <;> simp

/-- An error of the loop leaves it sound. -/
theorem sound_caught {i : ℕ} (hrequests : s.dirRequests = 0) : Sound d (s.caught d i) := by
  refine sound_enter (s := { s with undisturbed := false }) hrequests fun hund => ?_
  cases hund

/-- The removal of an entry after the turns of all before it. -/
theorem sound_removeEntry {i k : ℕ} {phase : RemovePhase} (hrequests : s.dirRequests = 0)
    (hsettled : s.Settled d k) (hawaited : phase.awaited = some k) (hturn : turn phase = k) :
    Sound d (s.removeEntry d i k phase) := by
  have hrequests' : (s.sendRemoveFile d k).dirRequests = 0 := by
    simpa [dirRequests, sendRemoveFile, RemoveRequest.isRemoveEmptyDir] using hrequests
  unfold removeEntry
  by_cases hfree : (s.sendRemoveFile d k).jobResultListener = none
  · rw [if_pos hfree]
    refine ⟨?_, ?_, ?_, ?_, ?_⟩
    · have hle : (s.sendRemoveFile d k).dirRequests ≤ 1 := by omega
      exact hle
    · intro hpos
      exact absurd hrequests' (Nat.ne_of_gt hpos)
    · intro k' hk'
      obtain rfl : k = k' := Option.some.inj (hawaited.symm.trans hk')
      simp [sendRemoveFile]
    · intro hund m hm
      rw [hturn] at hm
      obtain ⟨hc, ha⟩ := hsettled hund m hm
      exact ⟨List.mem_append_left _ hc, ha⟩
    · rintro rfl
      cases hawaited
  · rw [if_neg hfree]
    exact sound_caught hrequests'

/-- The rest of the files is removed soundly. -/
theorem sound_removeRest {i j : ℕ} (hrequests : s.dirRequests = 0) (hsettled : s.Settled d j) :
    Sound d (s.removeRest d i j) := by
  unfold removeRest
  split_ifs
  · exact sound_removeEntry hrequests hsettled rfl rfl
  · exact sound_finished rfl hrequests

/-- An answer of the user is followed soundly. -/
theorem sound_answer {i : ℕ} (hrequests : s.dirRequests = 0) (hsettled : s.Settled d i)
    (confirm : Option Bool) : Sound d (s.answer d i confirm) := by
  simp only [answer]
  split_ifs
  · exact sound_removeEntry hrequests hsettled rfl rfl
  · exact sound_finished rfl hrequests
  · refine sound_enter hrequests fun hund => ?_
    cases hund

/-- A directory without entries is removed at once. -/
theorem sound_answerEmpty (hrequests : s.dirRequests = 0) (hempty : d.entries = [])
    (confirm : Option Bool) : Sound d (s.answerEmpty d confirm) := by
  unfold answerEmpty
  split_ifs with hconfirm
  · refine ⟨?_, fun _ => ⟨rfl, fun k hk => ?_⟩, by simp [sendRemoveEmptyDir, RemovePhase.awaited],
      fun _ k hk => absurd hk (Nat.not_lt_zero k), fun _ => hempty⟩
    · have hone : (s.sendRemoveEmptyDir d 0).dirRequests = 1 := by
        simpa [dirRequests, sendRemoveEmptyDir, RemoveRequest.isRemoveEmptyDir] using hrequests
      exact Nat.le_of_eq hone
    · simp [hempty] at hk
  · exact sound_finished rfl hrequests

/-- The result of entry `k` of this delete, which is the entry waited for where it is the last. -/
theorem sound_handleResult {i k : ℕ} {fileNum : ℤ} (hrequests : s.dirRequests = 0)
    (hsettled : s.Settled d k) (hconfirmed : k ∈ s.confirmed)
    (harrived : (d.deleteJobId, fileNum) ∈ s.arrived)
    (hlast : fileNum = (d.entries.length : ℤ) - 1 → s.undisturbed = true ∧ (k : ℤ) = fileNum) :
    Sound d ((s.handleResult d i k fileNum).removeRest d i (k + 1)) ∧
      Sound d ((s.handleResult d i k fileNum).enter d (k + 1)) := by
  by_cases hfileNum : fileNum = (d.entries.length : ℤ) - 1
  · obtain ⟨hund, hk⟩ := hlast hfileNum
    have hend : ¬ k + 1 < d.entries.length := by omega
    have hone : (s.handleResult d i k fileNum).dirRequests = 1 := by
      rw [handleResult, if_pos hfileNum]
      simpa [dirRequests, sendRemoveEmptyDir, RemoveRequest.isRemoveEmptyDir] using hrequests
    have hall : (s.handleResult d i k fileNum).AllRemoved d := by
      rw [handleResult, if_pos hfileNum]
      intro m hm
      rcases Nat.lt_or_ge m k with hlt | hge
      · exact hsettled hund m hlt
      · obtain rfl : k = m := by omega
        exact ⟨hconfirmed, hk ▸ harrived⟩
    have hdone : Sound d { s.handleResult d i k fileNum with phase := .finished } :=
      ⟨Nat.le_of_eq hone, fun _ => ⟨rfl, hall⟩, by simp [RemovePhase.awaited],
        fun _ m hm => absurd hm (Nat.not_lt_zero m), by simp⟩
    constructor
    · rw [removeRest, if_neg hend]
      exact hdone
    · rw [enter, if_neg hend]
      exact hdone
  · have hsettled' : Settled d (s.handleResult d i k fileNum) (k + 1) := by
      simp only [handleResult, if_neg hfileNum, Settled, Bool.and_eq_true, decide_eq_true_eq]
      rintro ⟨hund, rfl⟩ m hm
      rcases Nat.lt_succ_iff_lt_or_eq.mp hm with hlt | rfl
      · exact hsettled hund m hlt
      · exact ⟨hconfirmed, harrived⟩
    have hrequests' : (s.handleResult d i k fileNum).dirRequests = 0 := by
      rw [handleResult, if_neg hfileNum]
      exact hrequests
    exact ⟨sound_removeRest hrequests' hsettled', sound_enter hrequests' hsettled'⟩

/-- The wait goes on where it was. -/
theorem sound_resume (h : Sound d s) {fileNum : ℤ}
    (harrived : (d.deleteJobId, fileNum) ∈ s.arrived)
    (hlast : fileNum = (d.entries.length : ℤ) - 1 →
      s.undisturbed = true ∧ ∃ k ∈ s.phase.awaited, (k : ℤ) = fileNum) :
    Sound d (s.resume d fileNum) := by
  have hconfirmed := h.confirmed
  have hsettled := h.settled
  unfold resume
  cases hphase : s.phase with
  | waiting i =>
    have hrequests := h.dirRequests_eq (by simp [hphase])
    rw [hphase] at hconfirmed hsettled hlast
    obtain ⟨hrest, henter⟩ := sound_handleResult (i := i) (k := i) hrequests hsettled
      (hconfirmed i rfl) harrived (by simpa [RemovePhase.awaited] using hlast)
    by_cases hremember : (s.handleResult d i i fileNum).remember = true
    · simp only [hremember, if_true]
      exact hrest
    · simp only [hremember]
      exact henter
  | remembered i j =>
    have hrequests := h.dirRequests_eq (by simp [hphase])
    rw [hphase] at hconfirmed hsettled hlast
    exact (sound_handleResult (i := i) (k := j) hrequests hsettled (hconfirmed j rfl) harrived
      (by simpa [RemovePhase.awaited] using hlast)).1
  | emptyDialog => exact h
  | dialog i => exact h
  | finished => exact h

/-- A report completes the listener, if anybody listens. -/
theorem sound_complete (h : Sound d s) (id : ℤ) {fileNum : ℤ} (harrived : (id, fileNum) ∈ s.arrived)
    (hcareful : s.jobResultListener = some .thisDelete → id = d.deleteJobId ∧
      (fileNum = (d.entries.length : ℤ) - 1 →
        s.undisturbed = true ∧ ∃ k ∈ s.phase.awaited, (k : ℤ) = fileNum)) :
    Sound d (s.complete d fileNum) := by
  have hfree : Sound d { s with jobResultListener := none } :=
    h.congr rfl rfl rfl rfl (List.Subset.refl _)
  unfold complete
  split
  · exact h
  · exact hfree
  · rename_i hlistener
    obtain ⟨rfl, hlast⟩ := hcareful hlistener
    exact sound_resume hfree harrived hlast

/-- A report is noted, and the job it is about is changed. -/
theorem Sound.report (h : Sound d s) (id fileNum : ℤ) (f : JobProgress → JobProgress) :
    Sound d ({ s with arrived := s.arrived ++ [(id, fileNum)] }.updateJob id f) :=
  h.congr rfl rfl rfl rfl (List.subset_append_left _ _)

/-- The end of a wait is sound. -/
theorem sound_timeout (h : Sound d s) : Sound d (s.timeout d) := by
  unfold timeout
  cases hphase : s.phase with
  | waiting i => exact sound_caught (h.dirRequests_eq (by simp [hphase]))
  | remembered i j => exact sound_caught (h.dirRequests_eq (by simp [hphase]))
  | emptyDialog => exact h
  | dialog i => exact h
  | finished => exact h

/-- A new delete is sound. -/
theorem sound_init (table : List JobProgress) : Sound d (init d table) := by
  refine ⟨Nat.zero_le 1, fun hpos => absurd hpos (Nat.lt_irrefl 0), ?_, ?_, ?_⟩
  · simp only [init]
    split_ifs <;> simp [RemovePhase.awaited]
  · intro _ k hk
    simp only [init] at hk
    split_ifs at hk
    · exact absurd hk (Nat.not_lt_zero k)
    · exact absurd hk (Nat.not_lt_zero k)
  · simp only [init]
    split_ifs with hempty <;> simp [hempty]

/-- A careful step keeps the delete sound. -/
theorem Sound.step (h : Sound d s) {e : RemoveEvent} (hcareful : Careful d s e)
    (hstep : step d s e = some s') : Sound d s' := by
  cases e with
  | answer confirm =>
    simp only [RemoveState.step] at hstep
    split at hstep
    · rename_i i hphase
      obtain rfl := Option.some.inj hstep
      have hsettled := h.settled
      rw [hphase] at hsettled
      exact sound_answer (h.dirRequests_eq (by simp [hphase])) hsettled confirm
    · rename_i hphase
      obtain rfl := Option.some.inj hstep
      exact sound_answerEmpty (h.dirRequests_eq (by simp [hphase])) (h.empty hphase) confirm
    · cases hstep
    · cases hstep
    · cases hstep
  | remember value =>
    obtain rfl := Option.some.inj hstep
    exact h.congr rfl rfl rfl rfl (List.Subset.refl _)
  | jobDone id fileNum =>
    obtain rfl := Option.some.inj hstep
    refine sound_complete (h.report id fileNum _) id (by simp [updateJob]) fun hlistener => ?_
    exact hcareful hlistener (id, fileNum) rfl
  | jobError id fileNum err =>
    obtain rfl := Option.some.inj hstep
    simp only [jobError]
    split_ifs with hdelete
    · refine sound_complete (h.report id fileNum _) id (by simp [updateJob]) fun hlistener => ?_
      exact hcareful hlistener (id, fileNum) (by simp [completion, hdelete])
    · exact h.report id fileNum _
  | timeout =>
    simp only [RemoveState.step] at hstep
    have hfree : Sound d { s with jobResultListener := none } :=
      h.congr rfl rfl rfl rfl (List.Subset.refl _)
    split at hstep
    · cases hstep
    · obtain rfl := Option.some.inj hstep
      exact hfree
    · obtain rfl := Option.some.inj hstep
      exact sound_timeout hfree
  | otherStart =>
    simp only [RemoveState.step] at hstep
    split_ifs at hstep
    obtain rfl := Option.some.inj hstep
    exact h.congr rfl rfl rfl rfl (List.Subset.refl _)
  | jobTable table =>
    obtain rfl := Option.some.inj hstep
    exact h.congr rfl rfl rfl rfl (List.Subset.refl _)

/-- A report of another job that a careful step lets through does not reach the wait. -/
theorem phase_eq_of_other {e : RemoveEvent} (hcareful : Careful d s e)
    (hstep : RemoveState.step d s e = some s') {id : ℤ} (hjob : reportedJob e = some id)
    (hother : id ≠ d.deleteJobId) : s'.phase = s.phase := by
  have hcomplete (s' : RemoveState) (fileNum : ℤ)
      (hlistener : s'.jobResultListener ≠ some .thisDelete) :
      (s'.complete d fileNum).phase = s'.phase := by
    unfold complete
    split
    · rfl
    · rfl
    · rename_i h
      exact absurd h hlistener
  cases e with
  | jobDone id' fileNum =>
    obtain rfl := Option.some.inj hjob
    obtain rfl := Option.some.inj hstep
    refine hcomplete _ fileNum fun hlistener => ?_
    exact hother (hcareful hlistener (id', fileNum) rfl).1
  | jobError id' fileNum err =>
    obtain rfl := Option.some.inj hjob
    obtain rfl := Option.some.inj hstep
    simp only [jobError]
    split_ifs with hdelete
    · refine hcomplete _ fileNum fun hlistener => ?_
      exact hother (hcareful hlistener (id', fileNum) (by simp [completion, hdelete])).1
    · rfl
  | answer => cases hjob
  | remember => cases hjob
  | timeout => cases hjob
  | otherStart => cases hjob
  | jobTable => cases hjob

/-- **The directory is removed once and after its own files, and waits for its own results, all
along a run** in which every wait is ended by a report of this delete or by the timer, and the
result with the last number is that of the last entry, after every entry was confirmed and every
wait ended by the result waited for. -/
theorem lawful_of_careful {table : List JobProgress} {events : List RemoveEvent}
    (hrun : (machine d table).RunWhere (Careful d) (init d table) events s) :
    ∀ first e u v, first ++ [e] <+: events → (machine d table).Run (init d table) first u →
      RemoveState.step d u e = some v → Lawful d u e v := by
  refine Machine.RunWhere.forall_steps (M := machine d table) (I := Sound d) ?_ ?_
    (sound_init table) hrun
  · exact fun u e v hcareful hstep h => h.step hcareful hstep
  · intro u e v hcareful hstep h
    have hafter := h.step hcareful hstep
    exact ⟨hafter.once, fun hpos => (hafter.complete hpos).2,
      fun id hjob hother => phase_eq_of_other hcareful hstep hjob hother⟩

/-- A directory with two files, and job 7 to delete it. -/
def srvLogs : RemoveDir := ⟨"/srv/logs", ["/srv/logs/a", "/srv/logs/b"], 7⟩

/-- Job 7 beside a running transfer. -/
def srvJobs : List JobProgress :=
  [.transferring 3 2 100, ⟨.deleteDir, .none, false, 7, 0, 0, 0, 2, ""⟩]

/-- Both files are removed while reports of the transfer come between the waits. -/
def srvLogsRemoved : List RemoveEvent :=
  [.jobDone 3 0, .answer (some true), .jobDone 7 0, .jobDone 3 1, .remember true,
    .answer (some true), .jobError 7 1 "denied", .jobDone 7 1]

/-- A run over the logs of a server, each step of which is lawful. -/
theorem lawful_of_careful_srvLogs :
    ∃ s, (machine srvLogs srvJobs).Run (init srvLogs srvJobs) srvLogsRemoved s ∧
      ∀ first e u v, first ++ [e] <+: srvLogsRemoved →
        (machine srvLogs srvJobs).Run (init srvLogs srvJobs) first u →
        RemoveState.step srvLogs u e = some v → Lawful srvLogs u e v := by
  have hreplay : ((machine srvLogs srvJobs).replayWhere (Careful srvLogs) (init srvLogs srvJobs)
      srvLogsRemoved).isSome = true := by
    decide +kernel
  obtain ⟨s, hs⟩ := Option.isSome_iff_exists.mp hreplay
  have hwhere := Machine.runWhere_of_replayWhere hs
  exact ⟨s, hwhere.run, lawful_of_careful hwhere⟩

/-- The end of the transfer ends the wait for the second file, and the directory is removed before
that file; it is also removed where the first file is to be kept. -/
theorem not_lawful_srvLogs :
    (∃ u v, (machine srvLogs srvJobs).Run (init srvLogs srvJobs)
        [.answer (some true), .jobDone 7 0, .answer (some true)] u ∧
      RemoveState.step srvLogs u (.jobDone 3 1) = some v ∧
      ¬ Lawful srvLogs u (.jobDone 3 1) v ∧
      .removeEmptyDir "/srv/logs" 1 7 ∈ v.sent ∧ (7, 1) ∉ v.arrived) ∧
    ∃ u v, (machine srvLogs srvJobs).Run (init srvLogs srvJobs)
        [.answer (some false), .answer (some true)] u ∧
      RemoveState.step srvLogs u (.jobDone 7 1) = some v ∧
      .removeEmptyDir "/srv/logs" 1 7 ∈ v.sent ∧ 0 ∉ v.confirmed := by
  refine ⟨⟨_, _, Machine.run_of_replay rfl, rfl, ?_, by decide +kernel, by decide +kernel⟩,
    ⟨_, _, Machine.run_of_replay rfl, rfl, by decide +kernel, by decide +kernel⟩⟩
  intro hlawful
  have hsame := hlawful.other 3 rfl (by decide)
  revert hsame
  decide +kernel

end RemoveState

end RdWeb.FileTransfer
