import RdWeb.Clipboard.Basic

/-!
# The files a peer offers

`local_file.rs` over a file system that is a parameter: reading a file's metadata,
listing a directory and opening a file each return what the operating system
returns, errors included.
-/

namespace RdWeb.Clipboard

/-- What `stat` says. The size is an `off_t`. -/
structure Metadata where
  len : ℕ
  len_lt : len < 2 ^ 63
  isDir : Bool
  mode : BitVec 32
  /-- `none` where the platform does not say. -/
  modified : Option SystemTime

/-- The bytes an open file reads, and the error that stands where they stop; `none`
for the end of the file. -/
structure FileContent where
  bytes : List UInt8
  fault : Option IoError
  deriving DecidableEq

/-- The file system, as the standard library's calls see it. -/
structure FileSystem where
  metadata : PathBuf → Except IoError Metadata
  readDir : PathBuf → Except IoError (List (Except IoError PathBuf))
  openFile : PathBuf → Except IoError FileContent

/-- `std::fs::metadata`, which rejects a path with a null byte before it asks. -/
def FileSystem.stat (fs : FileSystem) (path : PathBuf) : Except IoError Metadata :=
  if 0 ∈ path then .error ⟨.invalidInput, "file name contained an unexpected NUL byte"⟩
  else fs.metadata path

/-- A buffered reader on an open file. -/
structure FileReader where
  content : FileContent
  pos : ℕ
  deriving DecidableEq

namespace FileReader

/-- `seek` to a position from the start, an `off_t`. -/
def seek (r : FileReader) (offset : ℕ) : Except IoError FileReader :=
  if offset < 2 ^ 63 then .ok { r with pos := offset }
  else .error ⟨.invalidInput, "Invalid argument"⟩

/-- `read_exact`: all `n` bytes, or an error with everything before it consumed. -/
def readExact (r : FileReader) (n : ℕ) : FileReader × Except IoError (List UInt8) :=
  let chunk := (r.content.bytes.drop r.pos).take n
  if chunk.length = n then ({ r with pos := r.pos + n }, .ok chunk)
  else
    ({ r with pos := max r.pos r.content.bytes.length },
      .error (r.content.fault.getD ⟨.unexpectedEof, "failed to fill whole buffer"⟩))

end FileReader

/-- A file of the offered list. -/
structure LocalFile where
  relativeRoot : PathBuf
  path : PathBuf
  handle : Option FileReader
  offset : ℕ
  size : ℕ
  size_lt : size < 2 ^ 63
  lastWriteTime : SystemTime
  isDir : Bool
  perm : BitVec 32
  readOnly : Bool
  hidden : Bool
  system : Bool
  archive : Bool
  normal : Bool

namespace LocalFile

/-- An I/O error at the path of a file. -/
def fileErrorAt (path : PathBuf) (err : IoError) : CliprdrError :=
  .fileError path.toStringLossy err

/-- A file is described by what the disk says of its path. -/
def tryOpen (fs : FileSystem) (relativeRoot path : PathBuf) : Except CliprdrError LocalFile :=
  match fs.stat path with
  | .error e => .error (fileErrorAt path e)
  | .ok mt =>
    let readOnly := mt.mode &&& 0o222 = 0
    let hidden := path.toStringLossy.startsWith "."
    .ok {
      relativeRoot := relativeRoot
      path := path
      handle := none
      offset := 0
      size := mt.len
      size_lt := mt.len_lt
      lastWriteTime := mt.modified.getD 0
      isDir := mt.isDir
      perm := mt.mode
      readOnly := readOnly
      hidden := hidden
      system := false
      archive := false
      normal := !(mt.isDir || readOnly || hidden) }

/-- A file that was opened exists at its path, and nothing of it was read. -/
theorem tryOpen_spec {fs : FileSystem} {relativeRoot path : PathBuf} {f : LocalFile}
    (h : tryOpen fs relativeRoot path = .ok f) :
    f.path = path ∧ 0 ∉ path ∧ f.handle = none ∧ f.offset = 0 := by
  unfold tryOpen at h
  cases hstat : fs.stat path with
  | error e => simp [hstat] at h
  | ok mt =>
    have hnull : 0 ∉ path := by
      unfold FileSystem.stat at hstat
      split_ifs at hstat with hmem
      exact hmem
    simp only [hstat, Except.ok.injEq] at h
    subst h
    exact ⟨rfl, hnull, rfl, rfl⟩

/-- Opening the file and filling the reader's buffer. -/
def openReader (fs : FileSystem) (path : PathBuf) : Except IoError FileReader :=
  match fs.openFile path with
  | .error e => .error e
  | .ok content =>
    match content.bytes, content.fault with
    | [], some e => .error e
    | _, _ => .ok ⟨content, 0⟩

/-- The handle is opened unless there is one or the path is a directory. -/
def loadHandle (fs : FileSystem) (f : LocalFile) : LocalFile × Except CliprdrError Unit :=
  if f.isDir = false ∧ f.handle = none then
    match openReader fs f.path with
    | .error e => (f, .error (fileErrorAt f.path e))
    | .ok reader => ({ f with handle := some reader }, .ok ())
  else (f, .ok ())

/-- The last lines of `read_exact_at`: remember the position, or drop the handle at
the end of the file. -/
def advance (f : LocalFile) (handle : FileReader) (newOffset : ℕ) : LocalFile :=
  if f.size ≤ newOffset then { f with handle := none, offset := 0 }
  else { f with handle := some handle, offset := newOffset }

/-- The part of `read_exact_at` after the handle is there. -/
def readAt (f : LocalFile) (handle : FileReader) (n offset : ℕ) :
    LocalFile × Except CliprdrError (List UInt8) :=
  match if offset ≠ f.offset then handle.seek offset else .ok handle with
  | .error e => ({ f with handle := some handle }, .error (fileErrorAt f.path e))
  | .ok handle =>
    match handle.readExact n with
    | (handle, .error e) => ({ f with handle := some handle }, .error (fileErrorAt f.path e))
    | (handle, .ok buf) => (f.advance handle (offset + n), .ok buf)

/-- `read_exact_at` into a buffer of `n` bytes. -/
def readExactAt (fs : FileSystem) (f : LocalFile) (n offset : ℕ) :
    LocalFile × Except CliprdrError (List UInt8) :=
  match f.loadHandle fs with
  | (f, .error e) => (f, .error e)
  | (f, .ok ()) =>
    match f.handle with
    | none => (f, .error (fileErrorAt f.path ⟨.notFound, "file handle not found"⟩))
    | some handle => f.readAt handle n offset

end LocalFile

/-- The recursion of `construct_file_list` as a loop over the paths still to visit.
`none` is a walk that is not over yet. -/
def constrFileLst (fs : FileSystem) (relativeRoot : PathBuf) :
    ℕ → List (Except CliprdrError PathBuf) → List (List Component) → List LocalFile →
      Option (Except CliprdrError (List LocalFile))
  | 0, _, _, _ => none
  | _, [], _, fileList => some (.ok fileList)
  | _, .error e :: _, _, _ => some (.error e)
  | fuel + 1, .ok path :: rest, visited, fileList =>
    -- paths are equal when their components are
    if path.components ∈ visited then constrFileLst fs relativeRoot fuel rest visited fileList
    else
      match LocalFile.tryOpen fs relativeRoot path with
      | .error e => some (.error e)
      | .ok file =>
        let visited := path.components :: visited
        let fileList := fileList ++ [file]
        if file.isDir then
          match fs.readDir path with
          | .error e => some (.error (LocalFile.fileErrorAt path e))
          | .ok dir =>
            let entries := dir.map fun entry => entry.mapError (LocalFile.fileErrorAt path)
            constrFileLst fs relativeRoot fuel (entries ++ rest) visited fileList
        else constrFileLst fs relativeRoot fuel rest visited fileList

/-- `construct_file_list`, with the number of steps the walk may take. -/
def constructFileList (fs : FileSystem) (fuel : ℕ) (paths : List PathBuf) :
    Option (Except CliprdrError (List LocalFile)) :=
  match paths with
  | [] => some (.error (.invalidRequest "empty file list"))
  | first :: _ =>
    match first.parent with
    | none => some (.error (.invalidRequest "empty parent"))
    | some relativeRoot => constrFileLst fs relativeRoot fuel (paths.map .ok) [] []

/-- Whatever every opened file has, every file of a constructed list has. -/
theorem forall_of_constrFileLst {fs : FileSystem} {relativeRoot : PathBuf} {P : LocalFile → Prop}
    (hP : ∀ path file, LocalFile.tryOpen fs relativeRoot path = .ok file → P file)
    {fuel : ℕ} {work : List (Except CliprdrError PathBuf)} {visited : List (List Component)}
    {acc files : List LocalFile} (hacc : ∀ f ∈ acc, P f)
    (h : constrFileLst fs relativeRoot fuel work visited acc = some (.ok files)) :
    ∀ f ∈ files, P f := by
  induction fuel generalizing work visited acc with
  | zero => simp [constrFileLst] at h
  | succ fuel ih =>
    match work with
    | [] =>
      obtain rfl : acc = files := by simpa [constrFileLst] using h
      exact hacc
    | .error e :: rest => simp [constrFileLst] at h
    | .ok path :: rest =>
      rw [constrFileLst] at h
      by_cases hvisited : path.components ∈ visited
      · rw [if_pos hvisited] at h
        exact ih hacc h
      · rw [if_neg hvisited] at h
        cases hopen : LocalFile.tryOpen fs relativeRoot path with
        | error e => simp [hopen] at h
        | ok file =>
          have hacc' : ∀ f ∈ acc ++ [file], P f := by
            intro f hf
            rcases List.mem_append.mp hf with hf | hf
            · exact hacc f hf
            · obtain rfl := List.mem_singleton.mp hf
              exact hP path f hopen
          simp only [hopen] at h
          by_cases hdir : file.isDir = true
          · rw [if_pos hdir] at h
            cases hread : fs.readDir path with
            | error e => simp [hread] at h
            | ok dir =>
              simp only [hread] at h
              exact ih hacc' h
          · rw [if_neg hdir] at h
            exact ih hacc' h

/-- What holds of every opened file holds of the whole list. -/
theorem forall_of_constructFileList {fs : FileSystem} {P : LocalFile → Prop}
    (hP : ∀ relativeRoot path file,
      LocalFile.tryOpen fs relativeRoot path = .ok file → P file)
    {fuel : ℕ} {paths : List PathBuf} {files : List LocalFile}
    (h : constructFileList fs fuel paths = some (.ok files)) : ∀ f ∈ files, P f := by
  unfold constructFileList at h
  split at h
  · simp at h
  · split at h
    · simp at h
    · exact forall_of_constrFileLst (hP _) (by simp) h

/-- A disk on which every path is a file of three bytes. -/
def threeByteDisk : FileSystem where
  metadata _ := .ok ⟨3, by omega, false, 0o644, some 0⟩
  readDir _ := .error ⟨.other, "Not a directory"⟩
  openFile _ := .ok ⟨[1, 2, 3], none⟩

/-- A file of that disk directly under the root. -/
def threeByteFile (path : PathBuf) : LocalFile where
  relativeRoot := [47]
  path := path
  handle := none
  offset := 0
  size := 3
  size_lt := by omega
  lastWriteTime := 0
  isDir := false
  perm := 0o644
  readOnly := false
  hidden := path.toStringLossy.startsWith "."
  system := false
  archive := false
  normal := !path.toStringLossy.startsWith "."

/-- The list of a path that names the file of the small disk. -/
theorem constructFileList_threeByteDisk {path : PathBuf} (hnull : 0 ∉ path)
    (hparent : path.parent = some [47]) :
    constructFileList threeByteDisk 2 [path] = some (.ok [threeByteFile path]) := by
  simp [constructFileList, hparent, constrFileLst, LocalFile.tryOpen, FileSystem.stat, hnull,
    threeByteDisk, threeByteFile]

end RdWeb.Clipboard
