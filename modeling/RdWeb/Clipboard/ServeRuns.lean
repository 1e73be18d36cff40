import RdWeb.Clipboard.ServeTotal
import RdWeb.Lib.Machine

/-!
# Readers stay in step with the remembered offsets

Over every run of requests on one cached list, the reader of a file that has all its
bytes stands where the file's offset says. A failed read can move a reader without
the offset, but only on a file that is shorter than its announced size.
-/

namespace RdWeb.Clipboard

namespace LocalFile

/-- The reader shows the file on disk, and the offset is its position while the file
has all its bytes. -/
structure Synced (fs : FileSystem) (f : LocalFile) : Prop where
  dir_closed : f.isDir = true → f.handle = none
  closed_offset : f.handle = none → f.offset = 0
  on_disk : ∀ r, f.handle = some r → openReader fs f.path = .ok { r with pos := 0 }
  in_step : ∀ r, f.handle = some r → f.size ≤ r.content.bytes.length → r.pos = f.offset

/-- A file without a handle is in step with the disk. -/
theorem synced_of_fresh {fs : FileSystem} {f : LocalFile} (hhandle : f.handle = none)
    (hoffset : f.offset = 0) : f.Synced fs where
  dir_closed _ := hhandle
  closed_offset _ := hoffset
  on_disk r h := by simp [hhandle] at h
  in_step r h := by simp [hhandle] at h

/-- A reader is opened at the start. -/
theorem pos_of_openReader {fs : FileSystem} {path : PathBuf} {r : FileReader}
    (h : openReader fs path = .ok r) : r.pos = 0 := by
  unfold openReader at h
  split at h
  · cases h
  · split at h
    · cases h
    · rw [← Except.ok.inj h]

/-- In a synced state the reader a request uses shows the file on disk. -/
theorem Synced.reader_on_disk {fs : FileSystem} {f : LocalFile} (h : f.Synced fs) {r : FileReader}
    (hreader : f.reader fs = .ok r) : openReader fs f.path = .ok { r with pos := 0 } := by
  unfold reader at hreader
  cases hhandle : f.handle with
  | some r' =>
    rw [hhandle] at hreader
    rw [← Except.ok.inj hreader]
    exact h.on_disk r' hhandle
  | none =>
    rw [hhandle] at hreader
    rw [← pos_of_openReader hreader]
    exact hreader

/-- In a synced state every read of a complete file starts at its offset. -/
theorem Synced.startPos_eq {fs : FileSystem} {f : LocalFile} (h : f.Synced fs) {r : FileReader}
    (hreader : f.reader fs = .ok r) (hlong : f.size ≤ r.content.bytes.length) (offset : ℕ) :
    f.startPos r offset = offset := by
  unfold startPos
  split_ifs with hsame
  · unfold reader at hreader
    cases hhandle : f.handle with
    | some r' =>
      rw [hhandle] at hreader
      obtain rfl := Except.ok.inj hreader
      rw [h.in_step r' hhandle hlong, hsame]
    | none =>
      rw [hhandle] at hreader
      rw [pos_of_openReader hreader, hsame, h.closed_offset hhandle]
  · rfl

/-- Opening the handle keeps a file in step. -/
theorem Synced.loadHandle {fs : FileSystem} {f : LocalFile} (h : f.Synced fs) :
    (f.loadHandle fs).1.Synced fs := by
  by_cases hdir : f.isDir = true
  · have hsame : f.loadHandle fs = (f, .ok ()) := by simp [LocalFile.loadHandle, hdir]
    rw [hsame]
    exact h
  · have hfile : f.isDir = false := by simpa using hdir
    rw [loadHandle_eq hfile]
    cases hreader : f.reader fs with
    | error e => exact h
    | ok r =>
      refine ⟨fun hd => absurd hd hdir, fun hnone => by simp at hnone, ?_, ?_⟩
      · intro r' hr'
        obtain rfl : r = r' := by simpa using hr'
        exact h.reader_on_disk hreader
      · intro r' hr' hlong
        obtain rfl : r = r' := by simpa using hr'
        have hstart := h.startPos_eq hreader hlong f.offset
        simpa [startPos] using hstart

/-- A read that moves the reader keeps a file in step. -/
theorem Synced.advance {fs : FileSystem} {f : LocalFile} {r : FileReader} {newOffset : ℕ}
    (hdir : f.isDir = false) (hdisk : openReader fs f.path = .ok { r with pos := 0 })
    (hpos : f.size ≤ r.content.bytes.length → r.pos = newOffset) :
    (f.advance r newOffset).Synced fs := by
  unfold LocalFile.advance
  split_ifs with hend
  · exact synced_of_fresh rfl rfl
  · refine ⟨fun hd => by simp [hdir] at hd, fun hnone => by simp at hnone, ?_, ?_⟩
    · intro r' hr'
      obtain rfl : r = r' := by simpa using hr'
      exact hdisk
    · intro r' hr' hlong
      obtain rfl : r = r' := by simpa using hr'
      exact hpos hlong

/-- **One read.** A read inside the file keeps its reader in step. -/
theorem Synced.readExactAt {fs : FileSystem} {f : LocalFile} (h : f.Synced fs) {n offset : ℕ}
    (hoffset : offset ≤ f.size) (hn : n ≤ f.size - offset) :
    (f.readExactAt fs n offset).1.Synced fs := by
  have hsmall : offset < 2 ^ 63 := lt_of_le_of_lt hoffset f.size_lt
  by_cases hdir : f.isDir = true
  · have hclosed := h.dir_closed hdir
    have hsame : (f.readExactAt fs n offset).1 = f := by
      simp [LocalFile.readExactAt, LocalFile.loadHandle, hdir, hclosed]
    rw [hsame]
    exact h
  · have hfile : f.isDir = false := by simpa using hdir
    cases hreader : f.reader fs with
    | error e =>
      have hsame : (f.readExactAt fs n offset).1 = f := by
        simp [LocalFile.readExactAt, loadHandle_eq hfile, hreader]
      rw [hsame]
      exact h
    | ok r =>
      have hdisk := h.reader_on_disk hreader
      rw [readExactAt_eq hfile hreader hsmall]
      rcases Nat.lt_or_ge (r.content.bytes.length - f.startPos r offset) n with hlt | hle
      · -- the file is shorter than its size, so its reader may stand anywhere
        have hshort : ¬ f.size ≤ r.content.bytes.length := by
          intro hlong
          rw [h.startPos_eq hreader hlong] at hlt
          omega
        have hfailed : { r with pos := f.startPos r offset }.readExact n =
            ({ r with pos := max (f.startPos r offset) r.content.bytes.length },
              .error (r.content.fault.getD ⟨.unexpectedEof, "failed to fill whole buffer"⟩)) := by
          have hlength : ((r.content.bytes.drop (f.startPos r offset)).take n).length ≠ n := by
            rw [List.length_take, List.length_drop]
            omega
          rw [FileReader.readExact]
          simp only [hlength, if_false]
        rw [hfailed]
        refine ⟨fun hd => absurd hd hdir, fun hnone => by simp at hnone, ?_, ?_⟩
        · intro r' hr'
          rw [← Option.some.inj hr']
          exact hdisk
        · intro r' hr' hlong
          rw [← Option.some.inj hr'] at hlong
          exact absurd hlong hshort
      · rw [readExact_of_le (r := { r with pos := f.startPos r offset }) hle]
        refine Synced.advance hfile hdisk ?_
        intro hlong
        show f.startPos r offset + n = offset + n
        rw [h.startPos_eq hreader hlong]

end LocalFile

namespace ClipFiles

/-- Every file of the list is synced. -/
def Synced (fs : FileSystem) (s : ClipFiles) : Prop := ∀ f ∈ s.fileList, f.Synced fs

/-- Loading the first file keeps all files in step. -/
theorem synced_loadFirstFile {fs : FileSystem} {files : List LocalFile}
    (h : ∀ f ∈ files, f.Synced fs) : ∀ f ∈ (loadFirstFile fs files).1, f.Synced fs := by
  induction files with
  | nil => simp [loadFirstFile]
  | cons file rest ih =>
    have hfile := h file (by simp)
    have hrest : ∀ f ∈ rest, f.Synced fs := fun f hf => h f (by simp [hf])
    unfold loadFirstFile
    split_ifs with hdir
    · intro f hf
      rcases List.mem_cons.mp hf with rfl | hf
      · exact hfile
      · exact ih hrest f hf
    · intro f hf
      rcases List.mem_cons.mp hf with rfl | hf
      · exact hfile.loadHandle
      · exact hrest f hf

/-- Loading the next file keeps all files in step. -/
theorem Synced.hotReload {fs : FileSystem} {s : ClipFiles} (h : s.Synced fs) (fileIdx : ℕ)
    (response : FileContentsResponse) : (s.hotReload fs fileIdx response).1.Synced fs := by
  have hlater := synced_loadFirstFile fun f hf => h f (List.mem_of_mem_drop (i := fileIdx + 1) hf)
  unfold ClipFiles.hotReload
  revert hlater
  rcases loadFirstFile fs (s.fileList.drop (fileIdx + 1)) with ⟨later, e | u⟩
  · intro hlater f hf
    rcases List.mem_append.mp hf with hf | hf
    · exact h f (List.mem_of_mem_take hf)
    · exact hlater f hf
  · intro hlater f hf
    rcases List.mem_append.mp hf with hf | hf
    · exact h f (List.mem_of_mem_take hf)
    · exact hlater f hf

/-- An answer keeps all files in step. -/
theorem Synced.answerRead {fs : FileSystem} {s : ClipFiles} (h : s.Synced fs)
    (streamId : BitVec 32) (fileIdx : ℕ) {read : LocalFile × Except CliprdrError (List UInt8)}
    (hread : read.1.Synced fs) : (s.answerRead streamId fileIdx read).1.Synced fs := by
  have hset : ∀ f ∈ s.fileList.set fileIdx read.1, f.Synced fs := by
    intro f hf
    rcases List.mem_or_eq_of_mem_set hf with hf | rfl
    · exact h f hf
    · exact hread
  rcases read with ⟨file, e | buf⟩
  · exact hset
  · exact hset

/-- A read of a range keeps all files in step. -/
theorem Synced.serveRange {fs : FileSystem} {s : ClipFiles} (h : s.Synced fs) (checked : Bool)
    (connId streamId : BitVec 32) (fileIdx offset : ℕ) {length : ℕ} (hlength : length < 2 ^ 64) :
    (s.serveRange fs checked connId streamId fileIdx offset length).1.Synced fs := by
  cases hfile : s.fileList[fileIdx]? with
  | none => simpa [ClipFiles.serveRange, hfile] using h
  | some file =>
    rcases Nat.lt_or_ge file.size offset with hpast | hoffset
    · simpa [ClipFiles.serveRange, hfile, hpast] using h
    · rcases Nat.lt_or_ge (offset + length) (2 ^ 64) with hsum | hsum
      · rw [serveRange_of_lt hfile hoffset hsum]
        refine h.answerRead streamId fileIdx ?_
        exact (h file (List.mem_of_getElem? hfile)).readExactAt hoffset (Nat.min_le_right _ _)
      · obtain ⟨p, hp⟩ := panic_of_wrap checked hoffset file.size_lt hlength hsum
        have hnot : ¬ file.size < offset := by omega
        simp only [ClipFiles.serveRange, hfile, if_neg hnot, hp]
        exact h

end ClipFiles

/-- **One request** keeps every reader in step. -/
theorem synced_readFileContents {fs : FileSystem} {checked : Bool} {s : ClipFiles}
    (h : s.Synced fs) (connId : BitVec 32) (r : FileContentsRequest) :
    (readFileContents fs checked s connId r).1.Synced fs := by
  by_cases hrange : r.dwFlags = 2#32
  · rw [readFileContents_range hrange, ClipFiles.serveFileContents]
    have hstep := h.serveRange checked connId r.streamId r.fileIdx r.offset
      (show r.length < 2 ^ 64 from BitVec.isLt _)
    revert hstep
    rcases s.serveRange fs checked connId r.streamId r.fileIdx r.offset r.length
      with ⟨s', p | e | response⟩
    · exact id
    · exact id
    · exact fun hstep => hstep.hotReload r.fileIdx response
  · by_cases hsize : r.dwFlags = 1#32
    · rw [readFileContents_size hsize, ClipFiles.serveFileContents]
      rcases s.serveSize connId r.streamId r.fileIdx with p | e | response
      · exact h
      · exact h
      · exact h.hotReload r.fileIdx response
    · simpa [readFileContents, FileContentsRequest.decode, hrange, hsize] using h

/-- Requests, one after the other, on one cached list and one file system. -/
def serveMachine (fs : FileSystem) (checked : Bool) (cached : ClipFiles) :
    Machine ClipFiles (BitVec 32 × FileContentsRequest) where
  init := cached
  step s request := some (readFileContents fs checked s request.1 request.2).1

/-- **Every run.** On a list that was just constructed, readers are in step after any
requests. -/
theorem synced_of_reachable {fs : FileSystem} {checked : Bool} {cached : ClipFiles} {fuel : ℕ}
    {paths : List PathBuf}
    (hlist : constructFileList fs fuel paths = some (.ok cached.fileList)) {s : ClipFiles}
    (hs : (serveMachine fs checked cached).Reachable s) : s.Synced fs := by
  have hfresh : cached.Synced fs := by
    refine forall_of_constructFileList ?_ hlist
    intro relativeRoot path file hopen
    obtain ⟨-, -, hhandle, hoffset⟩ := LocalFile.tryOpen_spec hopen
    exact LocalFile.synced_of_fresh hhandle hoffset
  refine hs.invariant hfresh ?_
  intro s request s' hstep h
  obtain rfl : (readFileContents fs checked s request.1 request.2).1 = s' := Option.some.inj hstep
  exact synced_readFileContents h request.1 request.2

end RdWeb.Clipboard
