import RdWeb.Clipboard.LocalFile
import RdWeb.Lib.Machine

/-!
# The cached position of an open file

`read_exact_at` moves its reader only when the requested offset is not the cached one. Here every
call may fail on its own: at opening the file, at the seek, or in the read after any number of
bytes. The cached offset is stored only on success, so a failed read is what separates it from
the reader.
-/

namespace RdWeb.Clipboard

/-- What goes wrong in one call: opening the file or filling its first buffer, the seek, and the
read after so many bytes. -/
structure ReadFaults where
  openFault : Option IoError
  seekFault : Option IoError
  readFault : Option (ℕ × IoError)

namespace FileReader

/-- How many bytes a `read_exact` of `n` bytes from `pos` consumes before it fails, and with which
error; `none` where it fills its buffer. -/
def stopsAfter (bytes : List UInt8) (pos n : ℕ) (fault : Option (ℕ × IoError)) :
    Option (ℕ × IoError) :=
  let available := bytes.length - pos
  let short : Option (ℕ × IoError) :=
    if available < n then some (available, ⟨.unexpectedEof, "failed to fill whole buffer"⟩)
    else none
  match fault with
  | some (k, e) => if k < n ∧ k ≤ available then some (k, e) else short
  | none => short

/-- `read_exact` on a disk that may fail. -/
def readExactUnder (r : FileReader) (fault : Option (ℕ × IoError)) (n : ℕ) :
    FileReader × Except IoError (List UInt8) :=
  match stopsAfter r.content.bytes r.pos n fault with
  | some (k, e) => ({ r with pos := r.pos + k }, .error e)
  | none => ({ r with pos := r.pos + n }, .ok ((r.content.bytes.drop r.pos).take n))

/-- `seek` on a disk that may fail. -/
def seekUnder (r : FileReader) (fault : Option IoError) (offset : ℕ) : Except IoError FileReader :=
  match fault with
  | some e => .error e
  | none => r.seek offset

/-- A read that does not stop has its bytes. -/
theorem length_of_not_stopsAfter {bytes : List UInt8} {pos n : ℕ} {fault : Option (ℕ × IoError)}
    (h : stopsAfter bytes pos n fault = none) : ((bytes.drop pos).take n).length = n := by
  have hlong : ¬ bytes.length - pos < n := by
    intro hshort
    cases fault with
    | none => simp [stopsAfter, hshort] at h
    | some fault =>
      simp only [stopsAfter, hshort, if_true] at h
      split_ifs at h
  rw [List.length_take, List.length_drop]
  omega

end FileReader

namespace LocalFile

/-- `load_handle` on a disk that may fail. -/
def loadHandleUnder (bytes : List UInt8) (faults : ReadFaults) (f : LocalFile) :
    LocalFile × Except CliprdrError Unit :=
  if f.isDir = false ∧ f.handle = none then
    match faults.openFault with
    | some e => (f, .error (fileErrorAt f.path e))
    | none => ({ f with handle := some ⟨⟨bytes, none⟩, 0⟩ }, .ok ())
  else (f, .ok ())

/-- The part of `read_exact_at` after the handle is there, on a disk that may fail. -/
def readAtUnder (faults : ReadFaults) (f : LocalFile) (handle : FileReader) (n offset : ℕ) :
    LocalFile × Except CliprdrError (List UInt8) :=
  match if offset ≠ f.offset then handle.seekUnder faults.seekFault offset else .ok handle with
  | .error e => ({ f with handle := some handle }, .error (fileErrorAt f.path e))
  | .ok handle =>
    match handle.readExactUnder faults.readFault n with
    | (handle, .error e) => ({ f with handle := some handle }, .error (fileErrorAt f.path e))
    | (handle, .ok buf) => (f.advance handle (offset + n), .ok buf)

/-- `read_exact_at` on a file of the given bytes, on a disk that may fail. -/
def readExactAtUnder (bytes : List UInt8) (faults : ReadFaults) (f : LocalFile) (n offset : ℕ) :
    LocalFile × Except CliprdrError (List UInt8) :=
  match f.loadHandleUnder bytes faults with
  | (f, .error e) => (f, .error e)
  | (f, .ok ()) =>
    match f.handle with
    | none => (f, .error (fileErrorAt f.path ⟨.notFound, "file handle not found"⟩))
    | some handle => f.readAtUnder faults handle n offset

/-- A closed file has no cached position, and an open one reads the bytes of the file. -/
structure Settled (bytes : List UInt8) (f : LocalFile) : Prop where
  closed_offset : f.handle = none → f.offset = 0
  open_file : ∀ r, f.handle = some r → f.isDir = false
  open_content : ∀ r, f.handle = some r → r.content = ⟨bytes, none⟩

/-- Whenever a handle is open, its reader stands at the cached offset. -/
def InPlace (f : LocalFile) : Prop := ∀ r, f.handle = some r → r.pos = f.offset

/-- Without faults, a reader of the bytes reads as the file system's reader does. -/
theorem readExactUnder_of_calm {bytes : List UInt8} {r : FileReader}
    (hcontent : r.content = ⟨bytes, none⟩) (n : ℕ) : r.readExactUnder none n = r.readExact n := by
  have hlength : ((bytes.drop r.pos).take n).length = min n (bytes.length - r.pos) := by
    simp
  unfold FileReader.readExactUnder FileReader.readExact FileReader.stopsAfter
  simp only [hcontent, hlength, Option.getD_none]
  by_cases hshort : bytes.length - r.pos < n
  · have hne : min n (bytes.length - r.pos) ≠ n := by omega
    have hpos : r.pos + (bytes.length - r.pos) = max r.pos bytes.length := by omega
    simp [hshort, hne, hpos]
  · have heq : min n (bytes.length - r.pos) = n := by omega
    simp [hshort, heq]

/-- Without faults a read is the plain read. -/
theorem readAtUnder_of_calm {bytes : List UInt8} (f : LocalFile) {r : FileReader}
    (hcontent : r.content = ⟨bytes, none⟩) (n offset : ℕ) :
    f.readAtUnder ⟨none, none, none⟩ r n offset = f.readAt r n offset := by
  unfold readAtUnder readAt FileReader.seekUnder
  split_ifs with hsame
  · unfold FileReader.seek
    split_ifs with hsmall
    · have hread := readExactUnder_of_calm (r := { r with pos := offset }) hcontent n
      dsimp only
      exact hread ▸ rfl
    · rfl
  · have hread := readExactUnder_of_calm hcontent n
    dsimp only
    exact hread ▸ rfl

/-- Without faults, this is `read_exact_at` on a file system that has the bytes at the path. -/
theorem readExactAtUnder_of_calm {fs : FileSystem} {bytes : List UInt8} {f : LocalFile}
    (hsettled : f.Settled bytes) (hdisk : fs.openFile f.path = .ok ⟨bytes, none⟩) (n offset : ℕ) :
    f.readExactAtUnder bytes ⟨none, none, none⟩ n offset = f.readExactAt fs n offset := by
  have hopen : openReader fs f.path = .ok ⟨⟨bytes, none⟩, 0⟩ := by
    simp [openReader, hdisk]
  have hload : f.loadHandleUnder bytes ⟨none, none, none⟩ = f.loadHandle fs := by
    simp [loadHandleUnder, loadHandle, hopen]
  unfold readExactAtUnder readExactAt
  rw [hload]
  cases hhandle : f.handle with
  | some r =>
    have hkeep : f.loadHandle fs = (f, .ok ()) := by simp [loadHandle, hhandle]
    simp only [hkeep, hhandle]
    exact readAtUnder_of_calm f (hsettled.open_content r hhandle) n offset
  | none =>
    by_cases hdir : f.isDir = true
    · have hkeep : f.loadHandle fs = (f, .ok ()) := by simp [loadHandle, hdir]
      simp only [hkeep, hhandle]
    · have hfresh : f.loadHandle fs = ({ f with handle := some ⟨⟨bytes, none⟩, 0⟩ }, .ok ()) := by
        simp [loadHandle, hhandle, hdir, hopen]
      simp only [hfresh]
      exact readAtUnder_of_calm _ rfl n offset

end LocalFile

/-- One call of `read_exact_at` into a buffer of `n` bytes. -/
structure ReadCall where
  n : ℕ
  offset : ℕ
  faults : ReadFaults

/-- A call that returned `Ok`, and what it put in its buffer. -/
structure ServedRead where
  n : ℕ
  offset : ℕ
  buf : List UInt8
  deriving DecidableEq

/-- A file and the reads it has served. -/
structure ReadHistory where
  file : LocalFile
  served : List ServedRead

namespace ReadHistory

/-- The file after a call and the call's result, with the bytes it served. -/
def record (s : ReadHistory) (call : ReadCall)
    (read : LocalFile × Except CliprdrError (List UInt8)) : ReadHistory :=
  match read with
  | (file, .ok buf) => ⟨file, s.served ++ [⟨call.n, call.offset, buf⟩]⟩
  | (file, .error _) => ⟨file, s.served⟩

/-- Every read served so far gave the bytes of the file it asked for. -/
def ServedExact (bytes : List UInt8) (s : ReadHistory) : Prop :=
  ∀ read ∈ s.served, read.buf = (bytes.drop read.offset).take read.n ∧ read.buf.length = read.n

/-- What the cached offset is for: every read served was exact, and an open reader stands at the
cached offset. -/
def Exact (bytes : List UInt8) (s : ReadHistory) : Prop :=
  s.ServedExact bytes ∧ s.file.InPlace

end ReadHistory

/-- Calls of `read_exact_at` on one file of the given bytes, one after the other. -/
def readMachine (bytes : List UInt8) (f : LocalFile) : Machine ReadHistory ReadCall where
  init := ⟨f, []⟩
  step s call :=
    some (s.record call (s.file.readExactAtUnder bytes call.faults call.n call.offset))

namespace ReadCall

/-- The call opens the file if it has to and moves the reader if it has to. -/
def ReachesRead (call : ReadCall) (f : LocalFile) : Prop :=
  f.isDir = false ∧ (f.handle = none → call.faults.openFault = none) ∧
    (call.offset ≠ f.offset → call.faults.seekFault = none ∧ call.offset < 2 ^ 63)

/-- A read that stops early leaves the reader at the cached offset. -/
def StopsInPlace (bytes : List UInt8) (call : ReadCall) (f : LocalFile) : Prop :=
  call.ReachesRead f → ∀ k e,
    FileReader.stopsAfter bytes call.offset call.n call.faults.readFault = some (k, e) →
      call.offset + k = f.offset

end ReadCall

namespace LocalFile

variable {bytes : List UInt8} {f : LocalFile}

/-- A handle that was just opened is settled. -/
theorem settled_of_open {r : FileReader} (hdir : f.isDir = false)
    (hcontent : r.content = ⟨bytes, none⟩) :
    ({ f with handle := some r } : LocalFile).Settled bytes where
  closed_offset h := by simp at h
  open_file _ _ := hdir
  open_content r' h := by
    obtain rfl : r = r' := Option.some.inj h
    exact hcontent

/-- A read that moves the handle leaves it settled. -/
theorem settled_advance {r : FileReader} (hdir : f.isDir = false)
    (hcontent : r.content = ⟨bytes, none⟩) (newOffset : ℕ) :
    (f.advance r newOffset).Settled bytes := by
  unfold advance
  split_ifs with hend
  · exact ⟨fun _ => rfl, fun r' h => by simp at h, fun r' h => by simp at h⟩
  · exact settled_of_open (f := { f with offset := newOffset }) hdir hcontent

/-- Opening the handle under faults leaves the file settled. -/
theorem Settled.loadHandleUnder (h : f.Settled bytes) (faults : ReadFaults) :
    (f.loadHandleUnder bytes faults).1.Settled bytes := by
  unfold LocalFile.loadHandleUnder
  split_ifs with hclosed
  · cases faults.openFault with
    | some e => exact h
    | none => exact settled_of_open hclosed.1 rfl
  · exact h

/-- A read under faults leaves the file settled. -/
theorem settled_readAtUnder {r : FileReader} (hdir : f.isDir = false)
    (hcontent : r.content = ⟨bytes, none⟩) (faults : ReadFaults) (n offset : ℕ) :
    (f.readAtUnder faults r n offset).1.Settled bytes := by
  have hread (r : FileReader) (hcontent : r.content = ⟨bytes, none⟩) :
      (match r.readExactUnder faults.readFault n with
        | (handle, .error e) => (({ f with handle := some handle } : LocalFile),
            (.error (fileErrorAt f.path e) : Except CliprdrError (List UInt8)))
        | (handle, .ok buf) => (f.advance handle (offset + n), .ok buf)).1.Settled bytes := by
    unfold FileReader.readExactUnder
    cases FileReader.stopsAfter r.content.bytes r.pos n faults.readFault with
    | some stop => exact settled_of_open hdir hcontent
    | none => exact settled_advance (r := { r with pos := r.pos + n }) hdir hcontent _
  unfold readAtUnder FileReader.seekUnder FileReader.seek
  split_ifs with hmoves hsmall
  · cases faults.seekFault with
    | some e => exact settled_of_open hdir hcontent
    | none => exact hread { r with pos := offset } hcontent
  · cases faults.seekFault with
    | some e => exact settled_of_open hdir hcontent
    | none => exact settled_of_open hdir hcontent
  · exact hread r hcontent

/-- **Any call** leaves a file closed at no position or open on its own bytes. -/
theorem Settled.readExactAtUnder (h : f.Settled bytes) (faults : ReadFaults) (n offset : ℕ) :
    (f.readExactAtUnder bytes faults n offset).1.Settled bytes := by
  have hload := h.loadHandleUnder faults
  unfold LocalFile.readExactAtUnder
  generalize f.loadHandleUnder bytes faults = loaded at hload ⊢
  obtain ⟨g, e | u⟩ := loaded
  · exact hload
  · cases hhandle : g.handle with
    | none => simpa [hhandle] using hload
    | some r =>
      simp only [hhandle]
      exact settled_readAtUnder (hload.open_file r hhandle) (hload.open_content r hhandle) _ _ _

/-- The seek a call needs goes through. -/
def Seeks (f : LocalFile) (faults : ReadFaults) (offset : ℕ) : Prop :=
  offset ≠ f.offset → faults.seekFault = none ∧ offset < 2 ^ 63

/-- What a call does once its reader stands at the requested offset. -/
def readThere (bytes : List UInt8) (f : LocalFile) (faults : ReadFaults) (n offset : ℕ) :
    LocalFile × Except CliprdrError (List UInt8) :=
  match FileReader.stopsAfter bytes offset n faults.readFault with
  | some (k, e) =>
    ({ f with handle := some ⟨⟨bytes, none⟩, offset + k⟩ }, .error (fileErrorAt f.path e))
  | none => (f.advance ⟨⟨bytes, none⟩, offset + n⟩ (offset + n), .ok ((bytes.drop offset).take n))

/-- A read that seeks reads where it was asked to. -/
theorem readAtUnder_of_seeks {faults : ReadFaults} {n offset pos : ℕ} (hpos : pos = f.offset)
    (hseeks : f.Seeks faults offset) :
    f.readAtUnder faults ⟨⟨bytes, none⟩, pos⟩ n offset = f.readThere bytes faults n offset := by
  have hreader : (if offset ≠ f.offset then
      FileReader.seekUnder ⟨⟨bytes, none⟩, pos⟩ faults.seekFault offset
      else .ok ⟨⟨bytes, none⟩, pos⟩) = .ok ⟨⟨bytes, none⟩, offset⟩ := by
    split_ifs with hmoves
    · obtain ⟨hfault, hsmall⟩ := hseeks hmoves
      simp only [FileReader.seekUnder, FileReader.seek, hfault, if_pos hsmall]
    · rw [not_not.mp hmoves, hpos]
  unfold readAtUnder readThere
  rw [hreader]
  simp only [FileReader.readExactUnder]
  cases FileReader.stopsAfter bytes offset n faults.readFault with
  | some stop => rfl
  | none => rfl

/-- A read whose seek fails drops the handle. -/
theorem readAtUnder_of_not_seeks {r : FileReader} {faults : ReadFaults} {n offset : ℕ}
    (hseeks : ¬ f.Seeks faults offset) :
    ∃ e, f.readAtUnder faults r n offset = ({ f with handle := some r }, .error e) := by
  obtain ⟨hmoves, hfails⟩ := Classical.not_imp.mp hseeks
  unfold readAtUnder FileReader.seekUnder FileReader.seek
  rw [if_pos hmoves]
  cases hfault : faults.seekFault with
  | some e => exact ⟨_, rfl⟩
  | none =>
    have hlarge : ¬ offset < 2 ^ 63 := fun hsmall => hfails ⟨hfault, hsmall⟩
    simp only [if_neg hlarge]
    exact ⟨_, rfl⟩

/-- A call that reaches its read does so at the requested offset. -/
theorem readExactAtUnder_of_reaches (h : f.Settled bytes) (hplace : f.InPlace) {call : ReadCall}
    (hreaches : call.ReachesRead f) :
    f.readExactAtUnder bytes call.faults call.n call.offset =
      f.readThere bytes call.faults call.n call.offset := by
  obtain ⟨hfile, hopens, hseeks⟩ := hreaches
  cases hhandle : f.handle with
  | some r =>
    have hkeep : f.loadHandleUnder bytes call.faults = (f, .ok ()) := by
      simp [LocalFile.loadHandleUnder, hhandle]
    obtain rfl : r = ⟨⟨bytes, none⟩, f.offset⟩ := by
      rw [← h.open_content r hhandle, ← hplace r hhandle]
    simp only [LocalFile.readExactAtUnder, hkeep, hhandle]
    exact readAtUnder_of_seeks rfl hseeks
  | none =>
    have hfresh : f.loadHandleUnder bytes call.faults =
        ({ f with handle := some ⟨⟨bytes, none⟩, 0⟩ }, .ok ()) := by
      simp [LocalFile.loadHandleUnder, hhandle, hfile, hopens hhandle]
    simp only [LocalFile.readExactAtUnder, hfresh]
    exact readAtUnder_of_seeks (f := { f with handle := some ⟨⟨bytes, none⟩, 0⟩ })
      (h.closed_offset hhandle).symm hseeks

/-- A call that does not reach its read fails with its reader in place. -/
theorem readExactAtUnder_of_not_reaches (h : f.Settled bytes) (hplace : f.InPlace)
    {call : ReadCall} (hreaches : ¬ call.ReachesRead f) :
    ∃ g e, f.readExactAtUnder bytes call.faults call.n call.offset = (g, .error e) ∧
      g.InPlace := by
  cases hhandle : f.handle with
  | some r =>
    have hkeep : f.loadHandleUnder bytes call.faults = (f, .ok ()) := by
      simp [LocalFile.loadHandleUnder, hhandle]
    have hseeks : ¬ f.Seeks call.faults call.offset := fun hseeks =>
      hreaches ⟨h.open_file r hhandle, fun hnone => by simp [hhandle] at hnone, hseeks⟩
    obtain ⟨e, hread⟩ := readAtUnder_of_not_seeks (r := r) (n := call.n) hseeks
    have hsame : ({ f with handle := some r } : LocalFile) = f := by
      cases f
      simp_all
    simp only [LocalFile.readExactAtUnder, hkeep, hhandle, hread, hsame]
    exact ⟨f, e, rfl, hplace⟩
  | none =>
    by_cases hdir : f.isDir = true
    · have hkeep : f.loadHandleUnder bytes call.faults = (f, .ok ()) := by
        simp [LocalFile.loadHandleUnder, hdir]
      simp only [LocalFile.readExactAtUnder, hkeep, hhandle]
      exact ⟨f, _, rfl, hplace⟩
    · have hfile : f.isDir = false := by simpa using hdir
      cases hopen : call.faults.openFault with
      | some e =>
        have hfails : f.loadHandleUnder bytes call.faults = (f, .error (fileErrorAt f.path e)) := by
          simp [LocalFile.loadHandleUnder, hhandle, hfile, hopen]
        simp only [LocalFile.readExactAtUnder, hfails]
        exact ⟨f, _, rfl, hplace⟩
      | none =>
        have hfresh : f.loadHandleUnder bytes call.faults =
            ({ f with handle := some ⟨⟨bytes, none⟩, 0⟩ }, .ok ()) := by
          simp [LocalFile.loadHandleUnder, hhandle, hfile, hopen]
        have hseeks : ¬ f.Seeks call.faults call.offset := fun hseeks =>
          hreaches ⟨hfile, fun _ => hopen, hseeks⟩
        obtain ⟨e, hread⟩ := readAtUnder_of_not_seeks (r := ⟨⟨bytes, none⟩, 0⟩)
          (f := { f with handle := some ⟨⟨bytes, none⟩, 0⟩ }) (n := call.n) hseeks
        simp only [LocalFile.readExactAtUnder, hfresh, hread]
        refine ⟨_, e, rfl, ?_⟩
        intro r hr
        obtain rfl := Option.some.inj hr
        exact (h.closed_offset hhandle).symm

/-- A handle that stands where the offset says is in place. -/
theorem inPlace_advance {r : FileReader} {newOffset : ℕ} (hpos : r.pos = newOffset) :
    (f.advance r newOffset).InPlace := by
  unfold advance
  split_ifs with hend
  · exact fun r' h => by simp at h
  · intro r' hr'
    obtain rfl := Option.some.inj hr'
    exact hpos

end LocalFile

namespace ReadHistory

variable {bytes : List UInt8} {s : ReadHistory}

/-- **One call** keeps the reads exact and the reader in place if and only if its read, where it
stops early, stops at the cached offset. -/
theorem exact_record_iff (hsettled : s.file.Settled bytes) (h : s.Exact bytes) (call : ReadCall) :
    (s.record call
      (s.file.readExactAtUnder bytes call.faults call.n call.offset)).Exact bytes ↔
      call.StopsInPlace bytes s.file := by
  by_cases hreaches : call.ReachesRead s.file
  · rw [LocalFile.readExactAtUnder_of_reaches hsettled h.2 hreaches]
    unfold LocalFile.readThere ReadCall.StopsInPlace
    cases hstops :
        FileReader.stopsAfter bytes call.offset call.n call.faults.readFault with
    | some stop =>
      obtain ⟨k, e⟩ := stop
      simp only [record]
      constructor
      · rintro ⟨-, hplace⟩ - k' e' hstop
        obtain ⟨rfl, rfl⟩ := Prod.mk.inj (Option.some.inj hstop)
        exact hplace _ rfl
      · intro hok
        refine ⟨h.1, ?_⟩
        intro r hr
        obtain rfl := Option.some.inj hr
        exact hok hreaches k e rfl
    | none =>
      have hlength := FileReader.length_of_not_stopsAfter hstops
      simp only [record]
      constructor
      · intro _ _ k e hstop
        simp at hstop
      · intro _
        refine ⟨?_, LocalFile.inPlace_advance rfl⟩
        intro read hread
        rcases List.mem_append.mp hread with hread | hread
        · exact h.1 read hread
        · obtain rfl := List.mem_singleton.mp hread
          exact ⟨rfl, hlength⟩
  · obtain ⟨g, e, hread, hplace⟩ :=
      LocalFile.readExactAtUnder_of_not_reaches hsettled h.2 hreaches
    rw [hread]
    constructor
    · exact fun _ hreaches' => absurd hreaches' hreaches
    · exact fun _ => ⟨h.1, hplace⟩

end ReadHistory

/-- **One call** leaves the file settled. -/
theorem settled_record {bytes : List UInt8} {s : ReadHistory} (h : s.file.Settled bytes)
    (call : ReadCall) :
    (s.record call
      (s.file.readExactAtUnder bytes call.faults call.n call.offset)).file.Settled bytes := by
  have hfile := h.readExactAtUnder call.faults call.n call.offset
  generalize s.file.readExactAtUnder bytes call.faults call.n call.offset = read at hfile ⊢
  obtain ⟨file, e | buf⟩ := read
  · exact hfile
  · exact hfile

/-- **Every run of calls.** On a file that was just opened for the list, all the calls that
return `Ok` give the bytes they ask for, with the reader at the cached offset throughout, if and
only if every read that stops early stops at the cached offset. -/
theorem reads_exact_iff {fs : FileSystem} {relativeRoot path : PathBuf} {f : LocalFile}
    (hopen : LocalFile.tryOpen fs relativeRoot path = .ok f) {bytes : List UInt8}
    {calls : List ReadCall} {s : ReadHistory}
    (hrun : (readMachine bytes f).Run (readMachine bytes f).init calls s) :
    (∀ first u, first <+: calls → (readMachine bytes f).Run (readMachine bytes f).init first u →
      u.Exact bytes) ↔
      (readMachine bytes f).RunWhere (fun t call => call.StopsInPlace bytes t.file)
        (readMachine bytes f).init calls s := by
  obtain ⟨-, -, hhandle, hoffset⟩ := LocalFile.tryOpen_spec hopen
  have hfresh : f.Settled bytes :=
    ⟨fun _ => hoffset, fun r hr => by simp [hhandle] at hr, fun r hr => by simp [hhandle] at hr⟩
  have hexact : (readMachine bytes f).init.Exact bytes := by
    refine ⟨?_, ?_⟩
    · intro read hread
      simp [readMachine] at hread
    · intro r hr
      simp [readMachine, hhandle] at hr
  refine Machine.runWhere_iff_beside (I := fun s => s.file.Settled bytes) ?_ ?_ hfresh hexact hrun
  · intro s call t hstep h
    obtain rfl := Option.some.inj hstep
    exact settled_record h call
  · intro s call t hstep hsettled hexact
    obtain rfl := Option.some.inj hstep
    exact ReadHistory.exact_record_iff hsettled hexact call

/-- A disk that does what it is asked to. -/
def noFaults : ReadFaults := ⟨none, none, none⟩

/-- The error of the faulty disk of the examples. -/
def diskError : IoError := ⟨.other, "Input/output error"⟩

/-- Two bytes are read, then the next read fails before it consumes any. -/
def failsInPlace : List ReadCall :=
  [⟨2, 0, noFaults⟩, ⟨1, 2, ⟨none, none, some (0, diskError)⟩⟩, ⟨1, 2, noFaults⟩]

/-- The file after these calls. -/
def afterFailsInPlace : ReadHistory :=
  ((readMachine [1, 2, 3] (threeByteFile [47, 97])).replay
    (readMachine [1, 2, 3] (threeByteFile [47, 97])).init failsInPlace).getD
      ⟨threeByteFile [47, 97], []⟩

/-- The equivalence on a run whose fault leaves the handle in place. -/
theorem reads_exact_iff_failsInPlace :
    (∀ first u, first <+: failsInPlace →
      (readMachine [1, 2, 3] (threeByteFile [47, 97])).Run
        (readMachine [1, 2, 3] (threeByteFile [47, 97])).init first u → u.Exact [1, 2, 3]) ↔
      (readMachine [1, 2, 3] (threeByteFile [47, 97])).RunWhere
        (fun t call => call.StopsInPlace [1, 2, 3] t.file)
        (readMachine [1, 2, 3] (threeByteFile [47, 97])).init failsInPlace afterFailsInPlace :=
  reads_exact_iff (show LocalFile.tryOpen threeByteDisk [47] [47, 97] = _ from rfl)
    (Machine.run_of_replay rfl)

/-- A read of two bytes fails after the first one, then a byte is read at the same offset. -/
def failsDisplaced : List ReadCall :=
  [⟨2, 0, ⟨none, none, some (1, diskError)⟩⟩, ⟨1, 0, noFaults⟩]

/-- A read that fails half way displaces the handle. -/
theorem not_exact_failsDisplaced :
    ¬ ∀ (fs : FileSystem) (relativeRoot path : PathBuf) (f : LocalFile),
      LocalFile.tryOpen fs relativeRoot path = .ok f → ∀ bytes calls s,
        (readMachine bytes f).Run (readMachine bytes f).init calls s → s.Exact bytes := by
  intro hall
  have hexact := hall threeByteDisk [47] [47, 97] (threeByteFile [47, 97]) rfl [1, 2, 3]
    failsDisplaced _ (Machine.run_of_replay rfl)
  have hserved := hexact.1 ⟨1, 0, [2]⟩ (by decide)
  revert hserved
  decide

end RdWeb.Clipboard
