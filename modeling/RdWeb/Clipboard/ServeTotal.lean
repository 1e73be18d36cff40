import RdWeb.Clipboard.ServFiles

/-!
# When serving is total and local

A request is served without a panic, and independently of the other files, exactly
when its range does not wrap, the next file can be opened, and the reader left by
earlier requests is not past the range.
-/

namespace RdWeb.Clipboard

namespace LocalFile

/-- The reader a request reads from: the one left open, or a fresh one. -/
def reader (fs : FileSystem) (f : LocalFile) : Except IoError FileReader :=
  match f.handle with
  | some r => .ok r
  | none => openReader fs f.path

/-- The file is not a directory and its reader has all the bytes of its size. -/
def Readable (fs : FileSystem) (f : LocalFile) : Prop :=
  f.isDir = false ∧ ∃ r, f.reader fs = .ok r ∧ f.size ≤ r.content.bytes.length

/-- Where a read at an offset starts: the reader is moved only when the offset is not
the remembered one. -/
def startPos (f : LocalFile) (r : FileReader) (offset : ℕ) : ℕ :=
  if offset = f.offset then r.pos else offset

/-- A file that is no directory gets the reader that the disk gives. -/
theorem loadHandle_eq {fs : FileSystem} {f : LocalFile} (hdir : f.isDir = false) :
    f.loadHandle fs = match f.reader fs with
      | .ok r => ({ f with handle := some r }, .ok ())
      | .error e => (f, .error (fileErrorAt f.path e)) := by
  unfold loadHandle reader
  cases hhandle : f.handle with
  | none => cases openReader fs f.path <;> simp [hdir]
  | some r =>
    have hself : { f with handle := some r } = f := by rw [← hhandle]
    simp [hself]

/-- Reading from a reader at a position that exists. -/
theorem readExact_of_le {r : FileReader} {n : ℕ} (h : n ≤ r.content.bytes.length - r.pos) :
    r.readExact n = ({ r with pos := r.pos + n }, .ok ((r.content.bytes.drop r.pos).take n)) := by
  have hlength : ((r.content.bytes.drop r.pos).take n).length = n := by
    rw [List.length_take, List.length_drop]
    omega
  rw [FileReader.readExact]
  simp only [hlength, if_true]

/-- A read past the end fails. -/
theorem readExact_of_lt {r : FileReader} {n : ℕ} (h : r.content.bytes.length - r.pos < n) :
    ∃ r' e, r.readExact n = (r', .error e) := by
  have hlength : ((r.content.bytes.drop r.pos).take n).length ≠ n := by
    rw [List.length_take, List.length_drop]
    omega
  rw [FileReader.readExact]
  simp only [hlength, if_false]
  exact ⟨_, _, rfl⟩

/-- A read through a reader, in one piece. -/
theorem readExactAt_eq {fs : FileSystem} {f : LocalFile} {r : FileReader} {n offset : ℕ}
    (hdir : f.isDir = false) (hreader : f.reader fs = .ok r) (hoffset : offset < 2 ^ 63) :
    f.readExactAt fs n offset =
      match { r with pos := f.startPos r offset }.readExact n with
      | (handle, .error e) => ({ f with handle := some handle }, .error (fileErrorAt f.path e))
      | (handle, .ok buf) => (f.advance handle (offset + n), .ok buf) := by
  have hseek : (if offset ≠ f.offset then r.seek offset else .ok r) =
      .ok { r with pos := f.startPos r offset } := by
    unfold startPos FileReader.seek
    rw [if_pos hoffset]
    by_cases hsame : offset = f.offset
    · simp [hsame]
    · simp [hsame]
  rw [readExactAt, loadHandle_eq hdir, hreader]
  simp only [readAt, hseek]
  rcases { r with pos := f.startPos r offset }.readExact n with ⟨handle, e | buf⟩
  · rfl
  · unfold advance
    split_ifs <;> rfl

/-- A read succeeds exactly when its bytes are there. -/
theorem readExactAt_isOk_iff {fs : FileSystem} {f : LocalFile} {r : FileReader} {n offset : ℕ}
    (hdir : f.isDir = false) (hreader : f.reader fs = .ok r) (hoffset : offset < 2 ^ 63) :
    (∃ buf, (f.readExactAt fs n offset).2 = .ok buf) ↔
      n ≤ r.content.bytes.length - f.startPos r offset := by
  rw [readExactAt_eq hdir hreader hoffset]
  rcases Nat.lt_or_ge (r.content.bytes.length - f.startPos r offset) n with hlt | hle
  · obtain ⟨r', e, herror⟩ :=
      readExact_of_lt (r := { r with pos := f.startPos r offset }) hlt
    rw [herror]
    simp only [reduceCtorEq, exists_false, false_iff]
    omega
  · rw [readExact_of_le (r := { r with pos := f.startPos r offset }) hle]
    simp [hle]

end LocalFile

namespace ClipFiles

/-- A read within the file asks for what is there. -/
theorem readSize_of_lt {checked : Bool} {size offset length : ℕ} (hoffset : offset ≤ size)
    (hsum : offset + length < 2 ^ 64) :
    readSize checked size offset length = .ok (min length (size - offset)) := by
  unfold readSize
  rw [Nat.mod_eq_of_lt hsum, if_neg (by omega)]
  split_ifs with hclamp
  · rw [Nat.min_eq_right (by omega)]
  · rw [Nat.min_eq_left (by omega)]

/-- A range that wraps panics in every build: the sum overflows, or the wrapped sum
lets the whole length through. -/
theorem panic_of_wrap (checked : Bool) {size offset length : ℕ} (hoffset : offset ≤ size)
    (hsize : size < 2 ^ 63) (hlength : length < 2 ^ 64) (hsum : 2 ^ 64 ≤ offset + length) :
    ∃ p, (readSize checked size offset length).bind allocate = .error p := by
  unfold readSize
  split_ifs with hchecked hclamp
  · exact ⟨_, rfl⟩
  · have hwrapped : (offset + length) % 2 ^ 64 = offset + length - 2 ^ 64 := by
      rw [Nat.mod_eq_sub_mod hsum, Nat.mod_eq_of_lt (by omega)]
    omega
  · have hcapacity : ¬ length < 2 ^ 63 := by omega
    refine ⟨.capacityOverflow, ?_⟩
    show allocate length = _
    rw [allocate, if_neg hcapacity]

/-- Without a wrap the buffer is no larger than the rest of the file. -/
theorem allocate_of_lt {checked : Bool} {size offset length : ℕ} (hoffset : offset ≤ size)
    (hsize : size < 2 ^ 63) (hsum : offset + length < 2 ^ 64) :
    (readSize checked size offset length).bind allocate = .ok (min length (size - offset)) := by
  have hfits : min length (size - offset) < 2 ^ 63 := by omega
  rw [readSize_of_lt hoffset hsum]
  show allocate _ = _
  rw [allocate, if_pos hfits]

/-- The first file of a list that is not a directory is open or can be opened. -/
def FirstOpens (fs : FileSystem) (files : List LocalFile) : Prop :=
  ∀ f, files.find? (fun f => !f.isDir) = some f → ∃ r, f.reader fs = .ok r

/-- Loading succeeds if the first file opens. -/
theorem loadFirstFile_isOk_iff {fs : FileSystem} {files : List LocalFile} :
    (loadFirstFile fs files).2 = .ok () ↔ FirstOpens fs files := by
  induction files with
  | nil => simp [loadFirstFile, FirstOpens]
  | cons file rest ih =>
    by_cases hdir : file.isDir = true
    · simpa [loadFirstFile, FirstOpens, hdir] using ih
    · have hfile : file.isDir = false := by simpa using hdir
      cases hreader : file.reader fs <;>
        simp [loadFirstFile, FirstOpens, hfile, LocalFile.loadHandle_eq hfile, hreader]

/-- A reload answers if the next file opens. -/
theorem hotReload_snd {fs : FileSystem} {s : ClipFiles} {fileIdx : ℕ}
    {response : FileContentsResponse} :
    (s.hotReload fs fileIdx response).2 =
      .ok ((loadFirstFile fs (s.fileList.drop (fileIdx + 1))).2.map fun _ => response) := by
  unfold hotReload
  rcases loadFirstFile fs (s.fileList.drop (fileIdx + 1)) with ⟨later, e | u⟩
  · rfl
  · rfl

/-- The response stands exactly when the next file opens. -/
theorem hotReload_isOk_iff {fs : FileSystem} {s : ClipFiles} {fileIdx : ℕ}
    {response response' : FileContentsResponse} :
    (s.hotReload fs fileIdx response).2 = .ok (.ok response') ↔
      FirstOpens fs (s.fileList.drop (fileIdx + 1)) ∧ response = response' := by
  rw [hotReload_snd, ← loadFirstFile_isOk_iff]
  rcases (loadFirstFile fs (s.fileList.drop (fileIdx + 1))).2 with e | u
  · simp [Except.map]
  · simp [Except.map]

/-- A range within a file is served, up to the reload. -/
theorem serveRange_of_lt {fs : FileSystem} {checked : Bool} {s : ClipFiles}
    {connId streamId : BitVec 32} {fileIdx offset length : ℕ} {file : LocalFile}
    (hfile : s.fileList[fileIdx]? = some file) (hoffset : offset ≤ file.size)
    (hsum : offset + length < 2 ^ 64) :
    s.serveRange fs checked connId streamId fileIdx offset length =
      s.answerRead streamId fileIdx
        (file.readExactAt fs (min length (file.size - offset)) offset) := by
  have hnot : ¬ file.size < offset := by omega
  simp only [serveRange, hfile, if_neg hnot, allocate_of_lt hoffset file.size_lt hsum]

/-- A range request panics exactly when it reaches the clamp and wraps there. -/
theorem serveRange_panics_iff (fs : FileSystem) (checked : Bool) {s : ClipFiles}
    (connId streamId : BitVec 32) {fileIdx offset length : ℕ} (hlength : length < 2 ^ 64) :
    (∃ p, (s.serveRange fs checked connId streamId fileIdx offset length).2 = .error p) ↔
      ∃ file, s.fileList[fileIdx]? = some file ∧ offset ≤ file.size ∧ 2 ^ 64 ≤ offset + length := by
  cases hfile : s.fileList[fileIdx]? with
  | none => simp [serveRange, hfile]
  | some file =>
    rcases Nat.lt_or_ge file.size offset with hpast | hoffset
    · simp [serveRange, hfile, hpast, Nat.not_le.mpr hpast]
    · rcases Nat.lt_or_ge (offset + length) (2 ^ 64) with hsum | hsum
      · rw [serveRange_of_lt hfile hoffset hsum]
        rcases file.readExactAt fs (min length (file.size - offset)) offset with ⟨file', e | buf⟩
        · simpa [answerRead] using fun _ => hsum
        · simpa [answerRead] using fun _ => hsum
      · obtain ⟨p, hp⟩ := panic_of_wrap checked hoffset file.size_lt hlength hsum
        have hnot : ¬ file.size < offset := by omega
        simp only [serveRange, hfile, if_neg hnot, hp]
        simpa using ⟨hoffset, hsum⟩

/-- The rest of the list is what it was before the read. -/
theorem drop_answerRead (s : ClipFiles) (streamId : BitVec 32) (fileIdx : ℕ)
    (read : LocalFile × Except CliprdrError (List UInt8)) :
    (s.answerRead streamId fileIdx read).1.fileList.drop (fileIdx + 1) =
      s.fileList.drop (fileIdx + 1) := by
  rcases read with ⟨file, e | buf⟩
  · exact List.drop_set_of_lt (Nat.lt_succ_self fileIdx)
  · exact List.drop_set_of_lt (Nat.lt_succ_self fileIdx)

/-- A range of a file with a reader is served exactly when the bytes are in reach
and the next file opens. -/
theorem serve_range_isOk_iff {fs : FileSystem} {checked : Bool} {s : ClipFiles}
    {connId streamId : BitVec 32} {fileIdx offset length : ℕ} {file : LocalFile} {r : FileReader}
    (hfile : s.fileList[fileIdx]? = some file) (hdir : file.isDir = false)
    (hreader : file.reader fs = .ok r) (hoffset : offset ≤ file.size)
    (hsum : offset + length < 2 ^ 64) :
    (∃ response, (s.serveFileContents fs checked connId
      (.range streamId fileIdx offset length)).2 = .ok (.ok response)) ↔
      min length (file.size - offset) ≤ r.content.bytes.length - file.startPos r offset ∧
        FirstOpens fs (s.fileList.drop (fileIdx + 1)) := by
  have hsmall : offset < 2 ^ 63 := lt_of_le_of_lt hoffset file.size_lt
  have hiff := LocalFile.readExactAt_isOk_iff (n := min length (file.size - offset)) hdir hreader
    hsmall
  rw [← hiff, serveFileContents]
  simp only [serveRange_of_lt hfile hoffset hsum]
  have hdrop := drop_answerRead s streamId fileIdx
    (file.readExactAt fs (min length (file.size - offset)) offset)
  revert hdrop
  rcases file.readExactAt fs (min length (file.size - offset)) offset with ⟨file', e | buf⟩
  · simp [answerRead]
  · simp only [answerRead, hotReload_isOk_iff]
    intro hdrop
    simp [hdrop]

/-- The size of an entry is served exactly when the next file opens. -/
theorem serve_size_isOk_iff {fs : FileSystem} {checked : Bool} {s : ClipFiles}
    {connId streamId : BitVec 32} {fileIdx : ℕ} {file : LocalFile}
    (hfile : s.fileList[fileIdx]? = some file) :
    (∃ response, (s.serveFileContents fs checked connId (.size streamId fileIdx)).2 =
      .ok (.ok response)) ↔ FirstOpens fs (s.fileList.drop (fileIdx + 1)) := by
  simp [serveFileContents, serveSize, hfile, hotReload_isOk_iff]

/-- A request panics exactly when it is a range that wraps at a valid offset. -/
theorem serve_panics_iff {fs : FileSystem} {checked : Bool} {s : ClipFiles}
    {connId streamId : BitVec 32} {fileIdx offset length : ℕ} (hlength : length < 2 ^ 64) :
    (∃ p, (s.serveFileContents fs checked connId
      (.range streamId fileIdx offset length)).2 = .error p) ↔
      ∃ file, s.fileList[fileIdx]? = some file ∧ offset ≤ file.size ∧
        2 ^ 64 ≤ offset + length := by
  rw [← serveRange_panics_iff fs checked connId streamId hlength, serveFileContents]
  rcases s.serveRange fs checked connId streamId fileIdx offset length with ⟨s', p | e | response⟩
  · simp
  · simp
  · simp [hotReload_snd]

end ClipFiles

section Requests

variable (fs : FileSystem) (checked : Bool) (s : ClipFiles) (connId : BitVec 32)
  (r : FileContentsRequest)

/-- The request asks for the size of the entry, or for a range from within it. -/
def FileContentsRequest.AsksWithin (file : LocalFile) : Prop :=
  r.dwFlags = 1#32 ∨ r.dwFlags = 2#32 ∧ r.offset ≤ file.size

/-- Serving one request is total and local: no panic, no buffer beyond the file, and
a response for every readable file whatever the others are. -/
structure ServedTotally : Prop where
  no_panic : ∃ result, (readFileContents fs checked s connId r).2 = .ok result
  bounded : ∀ file n, s.fileList[r.fileIdx]? = some file → r.dwFlags = 2#32 →
    r.offset ≤ file.size → ClipFiles.readSize checked file.size r.offset r.length = .ok n →
    n ≤ file.size
  local_success : ∀ file, s.fileList[r.fileIdx]? = some file → file.Readable fs →
    r.AsksWithin file → ∃ response, (readFileContents fs checked s connId r).2 = .ok (.ok response)

/-- What a request needs: the range does not wrap, the next file opens, and a range at
the remembered offset is within reach of the reader left open there. -/
structure Servable : Prop where
  no_wrap : ∀ file, s.fileList[r.fileIdx]? = some file → r.dwFlags = 2#32 →
    r.offset ≤ file.size → r.offset + r.length < 2 ^ 64
  next_opens : ∀ file, s.fileList[r.fileIdx]? = some file → file.Readable fs →
    r.AsksWithin file → ClipFiles.FirstOpens fs (s.fileList.drop (r.fileIdx + 1))
  in_reach : ∀ file reader, s.fileList[r.fileIdx]? = some file → file.isDir = false →
    r.dwFlags = 2#32 → r.offset ≤ file.size → r.offset = file.offset → file.reader fs = .ok reader →
    file.size ≤ reader.content.bytes.length →
    min r.length (file.size - r.offset) ≤ reader.content.bytes.length - reader.pos

variable {fs checked s connId r}

/-- The request for a range is a range. -/
theorem readFileContents_range (h : r.dwFlags = 2#32) :
    readFileContents fs checked s connId r =
      s.serveFileContents fs checked connId
        (.range r.streamId r.fileIdx r.offset r.length) := by
  simp [readFileContents, FileContentsRequest.decode, h]

/-- The request for a size is a size. -/
theorem readFileContents_size (h : r.dwFlags = 1#32) :
    readFileContents fs checked s connId r =
      s.serveFileContents fs checked connId (.size r.streamId r.fileIdx) := by
  simp [readFileContents, FileContentsRequest.decode, h]

/-- Only a range that wraps panics. -/
theorem readFileContents_panics_iff :
    (∃ p, (readFileContents fs checked s connId r).2 = .error p) ↔
      ∃ file, s.fileList[r.fileIdx]? = some file ∧ r.dwFlags = 2#32 ∧ r.offset ≤ file.size ∧
        2 ^ 64 ≤ r.offset + r.length := by
  by_cases hrange : r.dwFlags = 2#32
  · rw [readFileContents_range hrange,
      ClipFiles.serve_panics_iff (show r.length < 2 ^ 64 from BitVec.isLt _)]
    simp [hrange]
  · by_cases hsize : r.dwFlags = 1#32
    · rw [readFileContents_size hsize]
      cases hfile : s.fileList[r.fileIdx]? <;>
        simp [ClipFiles.serveFileContents, ClipFiles.serveSize, hfile, hrange,
          ClipFiles.hotReload_snd]
    · simp [readFileContents, FileContentsRequest.decode, hrange, hsize]

/-- A request that asks within its file does not wrap. -/
private theorem hwrap_of_asks {file : LocalFile} (hasks : r.AsksWithin file)
    (h : r.dwFlags = 2#32 → r.offset ≤ file.size → r.offset + r.length < 2 ^ 64) :
    r.dwFlags = 2#32 → r.offset + r.length < 2 ^ 64 := by
  intro hrange
  rcases hasks with hsize | ⟨-, hoffset⟩
  · rw [hsize] at hrange
    exact absurd hrange (by decide)
  · exact h hrange hoffset

/-- Without a wrap a readable file is served exactly when the other two needs are met. -/
theorem readFileContents_isOk_iff {file : LocalFile} {reader : FileReader}
    (hfile : s.fileList[r.fileIdx]? = some file) (hdir : file.isDir = false)
    (hreader : file.reader fs = .ok reader) (hlong : file.size ≤ reader.content.bytes.length)
    (hasks : r.AsksWithin file) (hwrap : r.dwFlags = 2#32 → r.offset + r.length < 2 ^ 64) :
    (∃ response, (readFileContents fs checked s connId r).2 = .ok (.ok response)) ↔
      (r.dwFlags = 2#32 → r.offset = file.offset →
        min r.length (file.size - r.offset) ≤ reader.content.bytes.length - reader.pos) ∧
        ClipFiles.FirstOpens fs (s.fileList.drop (r.fileIdx + 1)) := by
  rcases hasks with hsize | ⟨hrange, hoffset⟩
  · have hrange : r.dwFlags ≠ 2#32 := by rw [hsize]; decide
    rw [readFileContents_size hsize, ClipFiles.serve_size_isOk_iff hfile]
    simp [hrange]
  · rw [readFileContents_range hrange,
      ClipFiles.serve_range_isOk_iff hfile hdir hreader hoffset (hwrap hrange)]
    unfold LocalFile.startPos
    by_cases hsame : r.offset = file.offset
    · simp [hsame, hrange]
    · have hfits : min r.length (file.size - r.offset) ≤
          reader.content.bytes.length - r.offset := by omega
      simp [hsame, hfits]

/-- **Total and local serving.** In any state of the list, for any fields and any set
of files that cannot be opened, a request is served totally and locally exactly when
it is servable. -/
theorem servedTotally_iff :
    ServedTotally fs checked s connId r ↔ Servable fs s r := by
  constructor
  · intro h
    have hwrap : ∀ file, s.fileList[r.fileIdx]? = some file → r.dwFlags = 2#32 →
        r.offset ≤ file.size → r.offset + r.length < 2 ^ 64 := by
      intro file hfile hrange hoffset
      by_contra hsum
      obtain ⟨p, hp⟩ := readFileContents_panics_iff.mpr
        ⟨file, hfile, hrange, hoffset, Nat.le_of_not_lt hsum⟩
      obtain ⟨result, hresult⟩ := h.no_panic
      rw [hp] at hresult
      cases hresult
    refine ⟨hwrap, ?_, ?_⟩
    · intro file hfile hreadable hasks
      have hserved := h.local_success file hfile hreadable hasks
      obtain ⟨hdir, reader, hreader, hlong⟩ := hreadable
      exact ((readFileContents_isOk_iff hfile hdir hreader hlong hasks
        (hwrap_of_asks hasks (hwrap file hfile))).mp hserved).2
    · intro file reader hfile hdir hrange hoffset hsame hreader hlong
      have hasks : r.AsksWithin file := Or.inr ⟨hrange, hoffset⟩
      have hserved := h.local_success file hfile ⟨hdir, reader, hreader, hlong⟩ hasks
      exact ((readFileContents_isOk_iff hfile hdir hreader hlong hasks
        (hwrap_of_asks hasks (hwrap file hfile))).mp hserved).1 hrange hsame
  · intro h
    refine ⟨?_, ?_, ?_⟩
    · cases hresult : (readFileContents fs checked s connId r).2 with
      | error p =>
        obtain ⟨file, hfile, hrange, hoffset, hsum⟩ :=
          readFileContents_panics_iff.mp ⟨p, hresult⟩
        have hlt := h.no_wrap file hfile hrange hoffset
        omega
      | ok result => exact ⟨result, rfl⟩
    · intro file n hfile hrange hoffset hn
      rw [ClipFiles.readSize_of_lt hoffset (h.no_wrap file hfile hrange hoffset)] at hn
      obtain rfl := Except.ok.inj hn
      omega
    · intro file hfile hreadable hasks
      obtain ⟨hdir, reader, hreader, hlong⟩ := hreadable
      refine (readFileContents_isOk_iff hfile hdir hreader hlong hasks
        (hwrap_of_asks hasks (h.no_wrap file hfile))).mpr ⟨?_, ?_⟩
      · intro hrange hsame
        have hoffset : r.offset ≤ file.size := by
          rcases hasks with hsize | ⟨-, hoffset⟩
          · rw [hsize] at hrange
            exact absurd hrange (by decide)
          · exact hoffset
        exact h.in_reach file reader hfile hdir hrange hoffset hsame hreader hlong
      · exact h.next_opens file hfile ⟨hdir, reader, hreader, hlong⟩ hasks

end Requests

/-- A plain file of ten bytes that no request has touched. -/
def tenByteFile : LocalFile where
  relativeRoot := [47]
  path := [47, 97]
  handle := none
  offset := 0
  size := 10
  size_lt := by omega
  lastWriteTime := 0
  isDir := false
  perm := 0o644
  readOnly := false
  hidden := false
  system := false
  archive := false
  normal := true

/-- A range from offset 1 whose length field is `-1`. -/
def minusOneRequest : FileContentsRequest where
  streamId := 0
  listIndex := 0
  dwFlags := 2
  nPositionLow := 1
  nPositionHigh := 0
  cbRequested := -1
  haveClipDataId := false
  clipDataId := 0

/-- The length becomes `2 ^ 64 - 1`, and adding it to the offset wraps. -/
theorem not_servedTotally_minusOne :
    ¬ ∀ fs checked s connId r, ServedTotally fs checked s connId r := by
  intro h
  let fs : FileSystem := ⟨fun _ => .error ⟨.notFound, ""⟩, fun _ => .ok [], fun _ => .ok ⟨[], none⟩⟩
  let s : ClipFiles := ⟨[], [tenByteFile], []⟩
  obtain ⟨result, hresult⟩ := (h fs true s 0 minusOneRequest).no_panic
  obtain ⟨p, hp⟩ : ∃ p, (readFileContents fs true s 0 minusOneRequest).2 = .error p :=
    readFileContents_panics_iff.mpr ⟨tenByteFile, rfl, by decide, by decide, by decide⟩
  rw [hp] at hresult
  cases hresult

end RdWeb.Clipboard
