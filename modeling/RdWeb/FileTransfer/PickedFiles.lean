import RdWeb.FileTransfer.Connection
import Mathlib.Data.List.Sort

/-!
# The files picked for uploads

`ft_browser_io.ts` keeps the last picked files and the last folder plan of the whole page, and
`selectFiles` announces them to the user interface by a bare index or by nothing at all. The calls
that start the uploads come later, and read whatever is there then. Objects of the browser are told
apart by the pick they come from.
-/

namespace RdWeb.FileTransfer

variable {Session : Type*}

/-- A `File` object: the answer of a picker and the place in it make it what it is. -/
structure PickedFile (Session : Type*) where
  file : File
  /-- empty where the browser has none -/
  webkitRelativePath : String
  session : Session
  pick : ℕ
  position : ℕ
  deriving DecidableEq

deriving instance DecidableEq for FolderUploadPlan

/-- A `FolderUploadPlan` object. -/
structure PickedPlan (Session : Type*) where
  plan : FolderUploadPlan
  session : Session
  pick : ℕ
  deriving DecidableEq

/-- What an event announces. -/
inductive Selection (Session : Type*)
  /-- `selected_files`, with the place in the picked files as its handle index -/
  | file (f : PickedFile Session)
  /-- `selected_folder` -/
  | folder (p : PickedPlan Session)
  deriving DecidableEq

namespace Selection

/-- The session that a selection is for. -/
def session : Selection Session → Session
  | .file f => f.session
  | .folder p => p.session

/-- The pick from which a selection comes. -/
def pick : Selection Session → ℕ
  | .file f => f.pick
  | .folder p => p.pick

/-- The files a job of this selection carries. -/
def files : Selection Session → List File
  | .file f => [f.file]
  | .folder p => p.plan.files

end Selection

/-- The path of a picked file inside its folder, or its name. -/
def relativePath (f : PickedFile Session) : String :=
  if f.webkitRelativePath ≠ "" then f.webkitRelativePath else f.file.name

/-- The first part of the first path that has a slash after its first character. -/
def folderRootName (files : List (PickedFile Session)) : String :=
  ((files.map fun f => (relativePath f).toList).find? fun rel =>
    '/' ∈ rel ∧ rel.head? ≠ some '/').elim "" fun rel => .ofList (rel.takeWhile (· ≠ '/'))

/-- Some part of the path starts with a dot. -/
def hasHiddenPathSegment (rel : List Char) : Bool :=
  (rel.splitOn '/').any fun part => part.head? = some '.'

/-- What `buildFolderUploadPlan` keeps of the files: those below the root, each with its path from
there. -/
def pickedBelow (root : String) (includeHidden : Bool) (files : List (PickedFile Session)) :
    List (File × String) :=
  files.filterMap fun f =>
    let relPath := (relativePath f).toList
    let rel := relPath.drop (root.toList.length + 1)
    if root.toList ++ ['/'] <+: relPath ∧ rel ≠ [] ∧ (includeHidden ∨ !hasHiddenPathSegment rel)
    then some (f.file, .ofList rel)
    else none

/-- `buildFolderUploadPlan`; `localeCompare` says whether a name comes before another or is equal
to it. -/
def buildFolderUploadPlan (localeCompare : String → String → Bool)
    (files : List (PickedFile Session)) (includeHidden : Bool) : Option FolderUploadPlan :=
  let root := folderRootName files
  if root = "" then none
  else
    match (pickedBelow root includeHidden files).insertionSort
        fun a b => localeCompare a.2 b.2 = true with
    | [] => none
    | first :: rest =>
      some {
        folderName := root
        files := (first :: rest).map Prod.fst
        relativeNames := (first :: rest).map Prod.snd
        totalSize := ((first :: rest).map fun entry => entry.1.size).sum
        files_ne_nil := by simp
        names_length := by simp }

/-- A call that was made for an event, and the connection before and after it. -/
structure UploadCall (Session : Type*) where
  announced : Selection Session
  /-- what the call found -/
  taken : Option (Selection Session)
  id : ℤ
  fileNum : ℤ
  before : FtConnection
  after : FtConnection

/-- The handler of the file input: whose `selectFiles` it resolves, and whether it has done so. -/
structure PickHandler (Session : Type*) where
  session : Session
  isFolder : Bool
  resolved : Bool

/-- The page: the module variables, the events so far and the connections of the sessions. -/
structure PickerPage (Session : Type*) where
  onchange : Option (PickHandler Session)
  lastPickedFiles : List (PickedFile Session)
  lastFolderPlan : Option (PickedPlan Session)
  /-- how many pickers were answered -/
  picks : ℕ
  announced : List (Selection Session)
  connections : Session → FtConnection
  calls : List (UploadCall Session)

/-- What happens on the page. -/
inductive PickerEvent (Session : Type*)
  | selectFiles (session : Session) (isFolder : Bool)
  /-- the browser answers the picker; the option `remote_show_hidden` is read then -/
  | change (answer : List (File × String)) (includeHidden : Bool)
  /-- the browser tells nothing of a cancelled picker -/
  | cancel
  /-- `sendLocalFiles` for an event -/
  | sendLocalFiles (event : ℕ) (id : ℤ) (path toPath : String) (fileNum : ℤ)
    (includeHidden : Bool)
  /-- `sendFolderUpload` for an event -/
  | sendFolderUpload (event : ℕ) (id : ℤ) (toPath : String) (includeHidden : Bool)
  /-- anything else a connection does -/
  | progress (session : Session) (connection : FtConnection)

namespace PickerPage

/-- The files of an answered picker as objects. -/
def asPicked (s : PickerPage Session) (session : Session) (files : List (File × String)) :
    List (PickedFile Session) :=
  files.zipIdx.map fun entry => ⟨entry.1.1, entry.1.2, session, s.picks + 1, entry.2⟩

/-- What `selectFiles` does with its files. -/
def selected (localeCompare : String → String → Bool) (s : PickerPage Session) (session : Session)
    (isFolder : Bool) (files : List (PickedFile Session)) (includeHidden : Bool) :
    PickerPage Session :=
  if files = [] then s
  else if isFolder then
    match buildFolderUploadPlan localeCompare files includeHidden with
    | none => s
    | some plan =>
      let picked : PickedPlan Session := ⟨plan, session, s.picks⟩
      { s with lastFolderPlan := some picked, announced := s.announced ++ [.folder picked] }
  else { s with announced := s.announced ++ files.map .file }

/-- The handler of the file input. -/
def answered (s : PickerPage Session) (handler : PickHandler Session)
    (answer : List (File × String)) : PickerPage Session :=
  { s with
    lastPickedFiles := s.asPicked handler.session answer
    picks := s.picks + 1
    onchange := some { handler with resolved := true } }

/-- The handler, and what comes after the promise it resolves. -/
def change (localeCompare : String → String → Bool) (s : PickerPage Session)
    (handler : PickHandler Session) (answer : List (File × String)) (includeHidden : Bool) :
    PickerPage Session :=
  if handler.resolved then s.answered handler answer
  else
    (s.answered handler answer).selected localeCompare handler.session handler.isFolder
      (s.asPicked handler.session answer) includeHidden

variable [DecidableEq Session]

/-- A call for an event, in the session of the event. -/
def call (s : PickerPage Session) (announced : Selection Session)
    (taken : Option (Selection Session)) (id fileNum : ℤ) (run : FtConnection → FtConnection) :
    PickerPage Session :=
  let before := s.connections announced.session
  { s with
    connections := Function.update s.connections announced.session (run before)
    calls := s.calls ++ [⟨announced, taken, id, fileNum, before, run before⟩] }

/-- One step of the page. -/
def step (localeCompare : String → String → Bool) (s : PickerPage Session) :
    PickerEvent Session → Option (PickerPage Session)
  | .selectFiles session isFolder =>
    some { s with onchange := some ⟨session, isFolder, false⟩ }
  | .change answer includeHidden =>
    s.onchange.map fun handler => s.change localeCompare handler answer includeHidden
  | .cancel => some s
  | .sendLocalFiles event id path toPath fileNum includeHidden =>
    match s.announced[event]? with
    | some (.file f) =>
      let file := s.lastPickedFiles[f.position]?
      some (s.call (.file f) (file.map .file) id fileNum fun connection =>
        connection.sendLocalFiles id (file.map PickedFile.file) path toPath fileNum includeHidden
          false)
    | _ => none
  | .sendFolderUpload event id toPath includeHidden =>
    match s.announced[event]? with
    | some (.folder p) =>
      let plan := s.lastFolderPlan
      some ({ s with lastFolderPlan := none }.call (.folder p) (plan.map .folder) id 0
        fun connection =>
          connection.sendFolderUpload id (plan.map PickedPlan.plan) toPath includeHidden)
    | _ => none
  | .progress session connection =>
    some { s with connections := Function.update s.connections session connection }

/-- A page on which nothing was picked. -/
def machine (localeCompare : String → String → Bool) (connections : Session → FtConnection) :
    Machine (PickerPage Session) (PickerEvent Session) :=
  ⟨⟨none, [], none, 0, [], connections, []⟩, step localeCompare⟩

end PickerPage

/-- The job under an id has these files. -/
def JobCarries (connection : FtConnection) (id : ℤ) (files : List File) : Prop :=
  ∃ ref, connection.readJobs.get? id = some ref ∧ (connection.readHeap ref).uploadFiles = files

/-- The job of a call has what the event announced, or it fails. -/
def UploadCall.Honest (c : UploadCall Session) : Prop :=
  match c.taken with
  | none => ∃ text, c.after = c.before.pushJobError c.id c.fileNum text
  | some taken => taken = c.announced ∧ JobCarries c.after c.id c.announced.files

/-- An upload of one file carries that file. -/
theorem sendLocalFiles_carries (c : FtConnection) (id : ℤ) (file : File) (path toPath : String)
    (fileNum : ℤ) (includeHidden : Bool) :
    JobCarries (c.sendLocalFiles id (some file) path toPath fileNum includeHidden false) id
      [file] := by
  refine ⟨c.nextRead, ?_, ?_⟩
  · simp [FtConnection.sendLocalFiles, FtConnection.sendFiles,
      FtConnection.createUploadJob, FtConnection.createUpload, FtConnection.queueMessage,
      FtConnection.observe, FtConnection.setPending, ReadJob.new]
  · simp [FtConnection.sendLocalFiles, FtConnection.sendFiles,
      FtConnection.createUploadJob, FtConnection.createUpload, FtConnection.queueMessage,
      FtConnection.observe, FtConnection.setPending, ReadJob.new]

/-- An upload of a folder carries the files of its plan. -/
theorem sendFolderUpload_carries (c : FtConnection) (id : ℤ) (plan : FolderUploadPlan)
    (toPath : String) (includeHidden : Bool) :
    JobCarries (c.sendFolderUpload id (some plan) toPath includeHidden) id plan.files := by
  have hdigest (s : FtConnection) (ref : ℕ) :
      (s.queueDigestForCurrentFile ref).readJobs = s.readJobs ∧
        (s.queueDigestForCurrentFile ref).readHeap = s.readHeap := by
    unfold FtConnection.queueDigestForCurrentFile
    split
    · exact ⟨rfl, rfl⟩
    · exact ⟨rfl, rfl⟩
  refine ⟨c.nextRead, ?_, ?_⟩
  · simp [FtConnection.sendFolderUpload, (hdigest _ _).1, FtConnection.createUpload,
      FtConnection.queueMessage, FtConnection.observe, ReadJob.new]
  · simp [FtConnection.sendFolderUpload, (hdigest _ _).2, FtConnection.createUpload,
      FtConnection.queueMessage, FtConnection.observe, ReadJob.new]

namespace PickerPage

/-- Every upload sends what was announced for it. -/
def Honest (s : PickerPage Session) : Prop := ∀ c ∈ s.calls, c.Honest

/-- A call comes before another pick takes the place of what its event announced: the last picked
files are still those of the event, or have nothing at its index, and the folder plan that is not
taken yet, if there is one, is the event's own. -/
def Current (s : PickerPage Session) : PickerEvent Session → Prop
  | .sendLocalFiles event .. => ∀ f, s.announced[event]? = some (.file f) →
      f.pick = s.picks ∨ s.lastPickedFiles.length ≤ f.position
  | .sendFolderUpload event .. => ∀ p, s.announced[event]? = some (.folder p) →
      ∀ q, s.lastFolderPlan = some q → q.pick = p.pick
  | _ => True

/-- The picks are numbered, and what the last one announced is there. -/
structure Numbered (s : PickerPage Session) : Prop where
  picked : ∀ (i : ℕ) f, s.lastPickedFiles[i]? = some f → f.pick = s.picks ∧ f.position = i
  announced_le : ∀ a ∈ s.announced, a.pick ≤ s.picks
  current : ∀ f, .file f ∈ s.announced → f.pick = s.picks →
    s.lastPickedFiles[f.position]? = some f
  plan_announced : ∀ p, s.lastFolderPlan = some p → .folder p ∈ s.announced
  one_plan : ∀ p q, .folder p ∈ s.announced → .folder q ∈ s.announced → p.pick = q.pick → p = q

variable {localeCompare : String → String → Bool} {s t : PickerPage Session}

/-- What was picked has its pick and its place. -/
theorem getElem?_asPicked {session : Session} {answer : List (File × String)} {i : ℕ}
    {f : PickedFile Session} (h : (s.asPicked session answer)[i]? = some f) :
    f.pick = s.picks + 1 ∧ f.position = i := by
  unfold asPicked at h
  rw [List.getElem?_map] at h
  obtain ⟨entry, hentry, rfl⟩ := Option.map_eq_some_iff.mp h
  rw [List.getElem?_zipIdx] at hentry
  obtain ⟨x, -, rfl⟩ := Option.map_eq_some_iff.mp hentry
  exact ⟨rfl, Nat.zero_add i⟩

/-- A pick that is not announced yet. -/
theorem Numbered.answered (h : s.Numbered) (handler : PickHandler Session)
    (answer : List (File × String)) : (s.answered handler answer).Numbered where
  picked i f hf := getElem?_asPicked hf
  announced_le a ha := Nat.le_succ_of_le (h.announced_le a ha)
  current f hf hpick := by
    have hle : f.pick ≤ s.picks := h.announced_le _ hf
    have hlast : f.pick = s.picks + 1 := hpick
    omega
  plan_announced := h.plan_announced
  one_plan := h.one_plan

/-- A folder may be announced after a new pick. -/
theorem Numbered.announce_folder (h : s.Numbered) (hnew : ∀ a ∈ s.announced, a.pick < s.picks)
    (plan : FolderUploadPlan) (session : Session) :
    { s with
      lastFolderPlan := some ⟨plan, session, s.picks⟩
      announced := s.announced ++ [Selection.folder ⟨plan, session, s.picks⟩] }.Numbered where
  picked := h.picked
  announced_le a ha := by
    rcases List.mem_append.mp ha with hold | hlast
    · exact h.announced_le a hold
    · obtain rfl := List.mem_singleton.mp hlast
      exact Nat.le_refl _
  current f hf := by
    rcases List.mem_append.mp hf with hold | hlast
    · exact h.current f hold
    · simp at hlast
  plan_announced p hp := by
    obtain rfl := Option.some.inj hp
    exact List.mem_append_right _ (List.mem_singleton_self _)
  one_plan p q hp hq hsame := by
    have hcases (r : PickedPlan Session) (hr : .folder r ∈ s.announced ++
        [Selection.folder ⟨plan, session, s.picks⟩]) :
        .folder r ∈ s.announced ∧ r.pick < s.picks ∨ r = ⟨plan, session, s.picks⟩ := by
      rcases List.mem_append.mp hr with hr | hr
      · exact Or.inl ⟨hr, hnew _ hr⟩
      · exact Or.inr (by simpa using hr)
    rcases hcases p hp with ⟨hp, hplt⟩ | rfl
    · rcases hcases q hq with ⟨hq, -⟩ | rfl
      · exact h.one_plan p q hp hq hsame
      · exact absurd hsame (Nat.ne_of_lt hplt)
    · rcases hcases q hq with ⟨-, hqlt⟩ | rfl
      · exact absurd hsame.symm (Nat.ne_of_lt hqlt)
      · rfl

/-- Files may be announced after a new pick. -/
theorem Numbered.announce_files (h : s.Numbered) :
    { s with announced := s.announced ++ s.lastPickedFiles.map Selection.file }.Numbered where
  picked := h.picked
  announced_le a ha := by
    rcases List.mem_append.mp ha with hold | hlast
    · exact h.announced_le a hold
    · obtain ⟨f, hf, rfl⟩ := List.mem_map.mp hlast
      obtain ⟨i, hi⟩ := List.mem_iff_getElem?.mp hf
      exact Nat.le_of_eq (h.picked i f hi).1
  current f hf hpick := by
    rcases List.mem_append.mp hf with hold | hlast
    · exact h.current f hold hpick
    · obtain ⟨f', hf', hsame⟩ := List.mem_map.mp hlast
      obtain rfl : f' = f := by simpa using hsame
      obtain ⟨i, hi⟩ := List.mem_iff_getElem?.mp hf'
      obtain ⟨-, rfl⟩ := h.picked i f' hi
      exact hi
  plan_announced p hp := List.mem_append_left _ (h.plan_announced p hp)
  one_plan p q hp hq := by
    have hold (r : PickedPlan Session)
        (hr : .folder r ∈ s.announced ++ s.lastPickedFiles.map Selection.file) :
        .folder r ∈ s.announced := by
      rcases List.mem_append.mp hr with hr | hr
      · exact hr
      · simp at hr
    exact h.one_plan p q (hold p hp) (hold q hq)

/-- An answer of the picker keeps the picks numbered. -/
theorem Numbered.change (h : s.Numbered) (handler : PickHandler Session)
    (answer : List (File × String)) (includeHidden : Bool) :
    (s.change localeCompare handler answer includeHidden).Numbered := by
  have hanswered := h.answered handler answer
  unfold PickerPage.change
  split_ifs with hresolved
  · exact hanswered
  · unfold selected
    split
    · exact hanswered
    · split
      · split
        · exact hanswered
        · next plan _ =>
          exact hanswered.announce_folder (fun a ha => Nat.lt_succ_of_le (h.announced_le a ha))
            plan handler.session
      · exact hanswered.announce_files

variable [DecidableEq Session]

/-- **Every step** keeps the picks numbered. -/
theorem Numbered.step (h : s.Numbered) {e : PickerEvent Session}
    (hstep : PickerPage.step localeCompare s e = some t) : t.Numbered := by
  cases e with
  | selectFiles session isFolder =>
    obtain rfl := Option.some.inj hstep
    exact ⟨h.picked, h.announced_le, h.current, h.plan_announced, h.one_plan⟩
  | change answer includeHidden =>
    obtain ⟨handler, -, rfl⟩ := Option.map_eq_some_iff.mp hstep
    exact h.change handler answer includeHidden
  | cancel =>
    obtain rfl := Option.some.inj hstep
    exact h
  | sendLocalFiles event id path toPath fileNum includeHidden =>
    simp only [PickerPage.step] at hstep
    split at hstep
    · obtain rfl := Option.some.inj hstep
      exact ⟨h.picked, h.announced_le, h.current, h.plan_announced, h.one_plan⟩
    · cases hstep
  | sendFolderUpload event id toPath includeHidden =>
    simp only [PickerPage.step] at hstep
    split at hstep
    · obtain rfl := Option.some.inj hstep
      exact ⟨h.picked, h.announced_le, h.current, fun p hp => (by cases hp), h.one_plan⟩
    · cases hstep
  | progress session connection =>
    obtain rfl := Option.some.inj hstep
    exact ⟨h.picked, h.announced_le, h.current, h.plan_announced, h.one_plan⟩

/-- A call keeps the uploads honest if and only if it is honest itself. -/
theorem honest_call_iff (h : s.Honest) {announced : Selection Session}
    {taken : Option (Selection Session)} {id fileNum : ℤ} {run : FtConnection → FtConnection} :
    (s.call announced taken id fileNum run).Honest ↔
      UploadCall.Honest ⟨announced, taken, id, fileNum, s.connections announced.session,
        run (s.connections announced.session)⟩ := by
  constructor
  · intro hall
    exact hall _ (List.mem_append_right _ (List.mem_singleton_self _))
  · intro hnew c hc
    rcases List.mem_append.mp hc with hold | hlast
    · exact h c hold
    · obtain rfl := List.mem_singleton.mp hlast
      exact hnew

omit [DecidableEq Session] in
/-- A pick starts no upload. -/
theorem calls_change (localeCompare : String → String → Bool) (handler : PickHandler Session)
    (answer : List (File × String)) (includeHidden : Bool) :
    (s.change localeCompare handler answer includeHidden).calls = s.calls := by
  unfold PickerPage.change selected
  split_ifs
  · rfl
  · rfl
  · split
    · rfl
    · rfl
  · rfl

omit [DecidableEq Session] in
/-- The file at the announced index is the announced one only until the next pick. -/
theorem honest_sendLocalFiles_iff (hnumbered : s.Numbered) {f : PickedFile Session}
    (hannounced : .file f ∈ s.announced) (connection : FtConnection) (id fileNum : ℤ)
    (path toPath : String) (includeHidden : Bool) :
    UploadCall.Honest ⟨.file f, s.lastPickedFiles[f.position]?.map .file, id, fileNum, connection,
        connection.sendLocalFiles id (s.lastPickedFiles[f.position]?.map PickedFile.file) path
          toPath fileNum includeHidden false⟩ ↔
      f.pick = s.picks ∨ s.lastPickedFiles.length ≤ f.position := by
  cases hfile : s.lastPickedFiles[f.position]? with
  | none =>
    have hlong := List.getElem?_eq_none_iff.mp hfile
    exact iff_of_true ⟨_, rfl⟩ (Or.inr hlong)
  | some g =>
    have hlt := (List.getElem?_eq_some_iff.mp hfile).1
    constructor
    · rintro ⟨hsame, -⟩
      obtain rfl : g = f := by simpa using hsame
      exact Or.inl (hnumbered.picked _ g hfile).1
    · rintro (hlast | hlong)
      · have hcurrent := hnumbered.current f hannounced hlast
        obtain rfl : g = f := Option.some.inj (hfile.symm.trans hcurrent)
        exact ⟨rfl, sendLocalFiles_carries _ _ _ _ _ _ _⟩
      · omega

omit [DecidableEq Session] in
/-- The plan that is not taken yet is the announced one only if it is of the same pick. -/
theorem honest_sendFolderUpload_iff (hnumbered : s.Numbered) {p : PickedPlan Session}
    (hannounced : .folder p ∈ s.announced) (connection : FtConnection) (id : ℤ) (toPath : String)
    (includeHidden : Bool) :
    UploadCall.Honest ⟨.folder p, s.lastFolderPlan.map .folder, id, 0, connection,
        connection.sendFolderUpload id (s.lastFolderPlan.map PickedPlan.plan) toPath
          includeHidden⟩ ↔
      ∀ q, s.lastFolderPlan = some q → q.pick = p.pick := by
  cases hplan : s.lastFolderPlan with
  | none => exact iff_of_true ⟨_, rfl⟩ (by simp)
  | some q =>
    simp only [Option.some.injEq, forall_eq']
    constructor
    · rintro ⟨hsame, -⟩
      obtain rfl : q = p := by simpa using hsame
      rfl
    · intro hpick
      obtain rfl := hnumbered.one_plan q p (hnumbered.plan_announced q hplan) hannounced hpick
      exact ⟨rfl, sendFolderUpload_carries _ _ _ _ _⟩

/-- **One step** keeps the uploads honest if and only if no other pick has come in between. -/
theorem honest_step_iff {e : PickerEvent Session}
    (hstep : step localeCompare s e = some t) (hnumbered : s.Numbered) (h : s.Honest) :
    t.Honest ↔ s.Current e := by
  cases e with
  | selectFiles session isFolder =>
    obtain rfl := Option.some.inj hstep
    exact iff_of_true h trivial
  | change answer includeHidden =>
    obtain ⟨handler, -, rfl⟩ := Option.map_eq_some_iff.mp hstep
    refine iff_of_true (fun c hc => ?_) trivial
    exact h c (calls_change localeCompare handler answer includeHidden ▸ hc)
  | cancel =>
    obtain rfl := Option.some.inj hstep
    exact iff_of_true h trivial
  | sendLocalFiles event id path toPath fileNum includeHidden =>
    simp only [step] at hstep
    split at hstep
    · next f hevent =>
      obtain rfl := Option.some.inj hstep
      rw [honest_call_iff h]
      simp only [Current, hevent, Option.some.injEq, Selection.file.injEq, forall_eq']
      exact honest_sendLocalFiles_iff hnumbered (List.mem_of_getElem? hevent) _ id fileNum path
        toPath includeHidden
    · cases hstep
  | sendFolderUpload event id toPath includeHidden =>
    simp only [step] at hstep
    split at hstep
    · next p hevent =>
      obtain rfl := Option.some.inj hstep
      rw [honest_call_iff (s := { s with lastFolderPlan := none }) h]
      simp only [Current, hevent, Option.some.injEq, Selection.folder.injEq, forall_eq']
      exact honest_sendFolderUpload_iff hnumbered (List.mem_of_getElem? hevent) _ id toPath
        includeHidden
    · cases hstep
  | progress session connection =>
    obtain rfl := Option.some.inj hstep
    exact iff_of_true h trivial

/-- **An upload sends the file that was picked for it.** For any sessions and any interleaving of
selections, answers of the pickers and uploads, every upload carries what its own event announced,
or fails, if and only if no call comes after another pick took its place. -/
theorem honest_iff_current (connections : Session → FtConnection)
    {events : List (PickerEvent Session)}
    (hrun : (machine localeCompare connections).Run (machine localeCompare connections).init
      events s) :
    (∀ first u, first <+: events → (machine localeCompare connections).Run
      (machine localeCompare connections).init first u → u.Honest) ↔
      (machine localeCompare connections).RunWhere Current
        (machine localeCompare connections).init events s := by
  have hnumbered : (machine localeCompare connections).init.Numbered := by
    refine ⟨?_, ?_, ?_, ?_, ?_⟩
    · intro i f hf
      simp [machine] at hf
    · rintro a ha
      cases ha
    · rintro f hf
      cases hf
    · rintro p hp
      cases hp
    · rintro p q hp
      cases hp
  have hhonest : (machine localeCompare connections).init.Honest := by
    rintro c hc
    cases hc
  exact Machine.runWhere_iff_beside (M := machine localeCompare connections)
    (fun _ _ _ hstep h => h.step hstep)
    (fun _ _ _ hstep h hs => honest_step_iff hstep h hs) hnumbered hhonest hrun

/-- The two files of the examples. -/
def demoFileA : File := ⟨"a.txt", [1], 0⟩

/-- The second of two files. -/
def demoFileB : File := ⟨"b.txt", [2], 0⟩

/-- A page with a fresh connection for every session, and names compared for equality only. -/
def demoMachine : Machine (PickerPage ℕ) (PickerEvent ℕ) :=
  machine (fun a b => a == b) fun _ => .new true

/-- Each of two sessions picks a file and uploads it before the next pick; the first one then
picks a folder. -/
def inTurn : List (PickerEvent ℕ) :=
  [.selectFiles 1 false, .change [(demoFileA, "")] false,
    .sendLocalFiles 0 3 "a.txt" "/a.txt" 0 false,
    .selectFiles 2 false, .change [(demoFileB, "")] false,
    .sendLocalFiles 1 4 "b.txt" "/b.txt" 0 false,
    .selectFiles 1 true, .cancel, .selectFiles 1 true, .change [(demoFileA, "dir/a.txt")] false,
    .sendFolderUpload 2 5 "/dir" false]

/-- The page after these steps. -/
def afterInTurn : PickerPage ℕ :=
  (demoMachine.replay demoMachine.init inTurn).getD demoMachine.init

/-- The equivalence on a run that starts each upload before the next pick. -/
theorem honest_iff_current_inTurn :
    (∀ first u, first <+: inTurn → demoMachine.Run demoMachine.init first u → u.Honest) ↔
      demoMachine.RunWhere Current demoMachine.init inTurn afterInTurn :=
  honest_iff_current (fun _ => .new true) (Machine.run_of_replay rfl)

/-- Two sessions pick a file each, and then the first one uploads its own. -/
def replaced : List (PickerEvent ℕ) :=
  [.selectFiles 1 false, .change [(demoFileA, "")] false, .selectFiles 2 false,
    .change [(demoFileB, "")] false, .sendLocalFiles 0 3 "a.txt" "/a.txt" 0 false]

/-- The page after these steps. -/
def afterReplaced : PickerPage ℕ :=
  (demoMachine.replay demoMachine.init replaced).getD demoMachine.init

/-- A second pick replaces the folder before the first is uploaded. -/
theorem not_honest_replaced :
    ¬ ∀ localeCompare (connections : ℕ → FtConnection) events s,
      (machine localeCompare connections).Run (machine localeCompare connections).init events s →
        s.Honest := by
  intro hall
  have hhonest := hall (fun a b => a == b) (fun _ => .new true) replaced afterReplaced
    (Machine.run_of_replay rfl)
  obtain ⟨hsame, -⟩ := hhonest ⟨.file ⟨demoFileA, "", 1, 1, 0⟩,
    some (.file ⟨demoFileB, "", 2, 2, 0⟩), 3, 0, .new true,
    (FtConnection.new true).sendLocalFiles 3 (some demoFileB) "a.txt" "/a.txt" 0 false false⟩
    (List.mem_singleton_self _)
  revert hsame
  decide

end PickerPage

end RdWeb.FileTransfer
