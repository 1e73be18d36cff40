import RdWeb.Clipboard.ServeRuns

/-!
# The list stays the list

Serving opens, moves and closes the readers of the cached files, and nothing else: after any
requests the list names the same paths, sizes and kinds in the same order.
-/

namespace RdWeb.Clipboard

namespace LocalFile

/-- What the peer was told about a file. -/
def listed (f : LocalFile) : PathBuf × ℕ × Bool := (f.path, f.size, f.isDir)

/-- Opening the handle keeps what a file is listed as. -/
theorem listed_loadHandle (fs : FileSystem) (f : LocalFile) :
    (f.loadHandle fs).1.listed = f.listed := by
  unfold loadHandle
  split_ifs
  · cases openReader fs f.path <;> rfl
  · rfl

/-- So does a read that moves the handle. -/
theorem listed_advance (f : LocalFile) (handle : FileReader) (newOffset : ℕ) :
    (f.advance handle newOffset).listed = f.listed := by
  unfold advance
  split_ifs <;> rfl

/-- So does a read. -/
theorem listed_readAt (f : LocalFile) (handle : FileReader) (n offset : ℕ) :
    (f.readAt handle n offset).1.listed = f.listed := by
  unfold readAt
  split
  · rfl
  · split
    · rfl
    · exact listed_advance ..

/-- So does an exact read. -/
theorem listed_readExactAt (fs : FileSystem) (f : LocalFile) (n offset : ℕ) :
    (f.readExactAt fs n offset).1.listed = f.listed := by
  have hload := f.listed_loadHandle fs
  unfold readExactAt
  revert hload
  rcases f.loadHandle fs with ⟨g, e | u⟩
  · exact id
  · intro hload
    dsimp only
    split
    · exact hload
    · rw [listed_readAt]
      exact hload

end LocalFile

namespace ClipFiles

/-- What the peer was told about the files. -/
def listed (s : ClipFiles) : List (PathBuf × ℕ × Bool) := s.fileList.map LocalFile.listed

/-- Loading the first file keeps what the files are listed as. -/
theorem listed_loadFirstFile (fs : FileSystem) (files : List LocalFile) :
    (loadFirstFile fs files).1.map LocalFile.listed = files.map LocalFile.listed := by
  induction files with
  | nil => rfl
  | cons file rest ih =>
    unfold loadFirstFile
    split_ifs
    · simp only [List.map_cons, ih]
    · simp only [List.map_cons, LocalFile.listed_loadHandle]

/-- A reload keeps the list. -/
theorem listed_hotReload (fs : FileSystem) (s : ClipFiles) (fileIdx : ℕ)
    (response : FileContentsResponse) : (s.hotReload fs fileIdx response).1.listed = s.listed := by
  have hlater := listed_loadFirstFile fs (s.fileList.drop (fileIdx + 1))
  have hsplit : (s.fileList.take (fileIdx + 1) ++
      (loadFirstFile fs (s.fileList.drop (fileIdx + 1))).1).map LocalFile.listed = s.listed := by
    rw [List.map_append, hlater, ← List.map_append, List.take_append_drop]
    rfl
  unfold hotReload
  revert hsplit
  rcases loadFirstFile fs (s.fileList.drop (fileIdx + 1)) with ⟨later, e | u⟩
  · exact id
  · exact id

/-- An answer keeps the list. -/
theorem listed_answerRead (s : ClipFiles) (streamId : BitVec 32) {fileIdx : ℕ} {file : LocalFile}
    (hfile : s.fileList[fileIdx]? = some file)
    {read : LocalFile × Except CliprdrError (List UInt8)}
    (hread : read.1.listed = file.listed) :
    (s.answerRead streamId fileIdx read).1.listed = s.listed := by
  have hset : (s.fileList.set fileIdx read.1).map LocalFile.listed = s.listed := by
    obtain ⟨hlt, hget⟩ := List.getElem?_eq_some_iff.mp hfile
    have hlt' : fileIdx < (s.fileList.map LocalFile.listed).length := by simpa using hlt
    have hsame : (s.fileList.map LocalFile.listed)[fileIdx] = read.1.listed := by
      rw [List.getElem_map, hget, hread]
    rw [List.map_set, ← hsame, List.set_getElem_self]
    rfl
  rcases read with ⟨file', e | buf⟩
  · exact hset
  · exact hset

/-- A range keeps the list. -/
theorem listed_serveRange (fs : FileSystem) (checked : Bool) (s : ClipFiles)
    (connId streamId : BitVec 32) (fileIdx offset length : ℕ) :
    (s.serveRange fs checked connId streamId fileIdx offset length).1.listed = s.listed := by
  unfold serveRange
  split
  · rfl
  · rename_i file hfile
    split_ifs
    · rfl
    · split
      · rfl
      · exact s.listed_answerRead streamId hfile (file.listed_readExactAt fs _ _)

/-- A request keeps the list. -/
theorem listed_serveFileContents (fs : FileSystem) (checked : Bool) (s : ClipFiles)
    (connId : BitVec 32) (request : FileContentsRequest) :
    (s.serveFileContents fs checked connId request).1.listed = s.listed := by
  cases request with
  | size streamId fileIdx =>
    unfold serveFileContents
    dsimp only
    split
    · exact listed_hotReload ..
    · rfl
    · rfl
  | range streamId fileIdx offset length =>
    have hserve := listed_serveRange fs checked s connId streamId fileIdx offset length
    unfold serveFileContents
    dsimp only
    split
    · rw [listed_hotReload]
      exact hserve
    · exact hserve
    · exact hserve

end ClipFiles

/-- **One request** leaves the list as it is. -/
theorem listed_readFileContents (fs : FileSystem) (checked : Bool) (s : ClipFiles)
    (connId : BitVec 32) (r : FileContentsRequest) :
    (readFileContents fs checked s connId r).1.listed = s.listed := by
  unfold readFileContents
  split
  · rfl
  · exact ClipFiles.listed_serveFileContents ..

/-- **Every run** leaves the list as it is. -/
theorem listed_of_reachable {fs : FileSystem} {checked : Bool} {cached s : ClipFiles}
    (hs : (serveMachine fs checked cached).Reachable s) : s.listed = cached.listed := by
  refine Machine.Reachable.invariant (P := fun s => s.listed = cached.listed) rfl ?_ hs
  intro s request s' hstep h
  obtain rfl : (readFileContents fs checked s request.1 request.2).1 = s' := Option.some.inj hstep
  rw [listed_readFileContents, h]

end RdWeb.Clipboard
