import RdWeb.Lib.FileParts
import RdWeb.Lib.Machine
import RdWeb.Lib.OrderedMap

/-!
# The upload of a recording

`hbbs_http/record_upload.rs`: a thread sends the parts of a recording while the recorder writes
it. Every call that looks at the file is a step of its own, so the recorder may append to the file
or write over its header between any two of them.
-/

namespace RdWeb.Video

open FileParts

/-- `MAX_HEADER_LEN`. -/
def maxHeaderLen : ℕ := 1024

/-- `SHOULD_SEND_TIME`, in nanoseconds. -/
def shouldSendTime : ℕ := 1000000000

/-- `SHOULD_SEND_SIZE`. -/
def shouldSendSize : ℕ := 1024 * 1024

/-- `RecordUploader`. -/
structure RecordUploader where
  filepath : String
  filename : String
  uploadSize : ℕ
  running : Bool
  lastSend : ℕ
deriving DecidableEq

/-- What the thread does next. -/
inductive UploadPhase
  /-- it waits for an event -/
  | idle
  /-- `handle_frame` opens the file and asks for its length -/
  | stat (flush : Bool)
  /-- `read_to_end` has read this much, after the file had this length -/
  | reading (flush : Bool) (len : ℕ) (buf : List UInt8)
  /-- the part is sent; `flushed` is the length of the file when its end was read -/
  | sending (flush : Bool) (len : ℕ) (buf : List UInt8) (flushed : ℕ)
  /-- `handle_tail` opens the file; `flushed` is its length when the flush saw its end -/
  | tail (flushed : ℕ)
  /-- the header is sent; `seen` is the whole file when it was read -/
  | sendingTail (header seen : List UInt8) (flushed : ℕ)
deriving DecidableEq

/-- The uploader, the files on the disk and the files of the server. -/
structure RecordUpload where
  uploader : RecordUploader
  phase : UploadPhase
  /-- the recordings, under their paths -/
  files : OrderedMap String (List UInt8)
  /-- what the server put together, under the file names -/
  server : OrderedMap String (List UInt8)

/-- What the recorder writes and what the uploader does. -/
inductive UploadEvent
  /-- the recorder appends to a file, or creates it -/
  | append (path : String) (bytes : List UInt8)
  /-- the recorder writes over a byte of the header -/
  | rewrite (path : String) (i : ℕ) (b : UInt8)
  /-- `RecordState::NewFile` -/
  | newFile (path : String) (now : ℕ)
  /-- `RecordState::NewFrame` -/
  | newFrame (now : ℕ)
  /-- `RecordState::WriteTail` -/
  | writeTail
  /-- the file is opened and its length asked for -/
  | stat
  /-- `read_to_end` reads some bytes, or the end of the file -/
  | read (k : ℕ)
  /-- the part is sent -/
  | send (now : ℕ)
  /-- `handle_tail` reads the header -/
  | readTail
  /-- the header is sent -/
  | sendTail
  /-- a call on the file fails -/
  | fail

namespace RecordUpload

/-- The file of the uploader, empty before the recorder creates it. -/
def file (s : RecordUpload) : List UInt8 := (s.files.get? s.uploader.filepath).getD []

/-- What the server has of the file of the uploader. -/
def sent (s : RecordUpload) : List UInt8 := (s.server.get? s.uploader.filename).getD []

/-- An error ends the handler, and the uploader runs no more. -/
def stop (s : RecordUpload) : RecordUpload :=
  { s with uploader := { s.uploader with running := false }, phase := .idle }

/-- `handle_new_file`. -/
def handleNewFile (fileName : String → Option String) (s : RecordUpload) (path : String)
    (now : ℕ) : RecordUpload :=
  match fileName path with
  | some name =>
    { s with uploader := ⟨path, name, 0, true, now⟩, server := s.server.set name [] }
  | none => s.stop

/-- The start of `handle_frame(false)`. -/
def newFrame (s : RecordUpload) (now : ℕ) : RecordUpload :=
  if s.uploader.running ∧ ¬ now - s.uploader.lastSend < shouldSendTime then
    { s with phase := .stat false }
  else s

/-- The start of `handle_tail`, which flushes. -/
def writeTail (s : RecordUpload) : RecordUpload :=
  if s.uploader.running then { s with phase := .stat true } else s

/-- `handle_frame` up to the length of the file. -/
def stat (s : RecordUpload) (flush : Bool) : RecordUpload :=
  match s.files.get? s.uploader.filepath with
  | none => s.stop
  | some file =>
    if file.length ≤ s.uploader.uploadSize then
      { s with phase := if flush then .tail file.length else .idle }
    else if !flush && decide (file.length - s.uploader.uploadSize < shouldSendSize) then
      { s with phase := .idle }
    else { s with phase := .reading flush file.length [] }

/-- One read of `read_to_end`, which goes on until it reads nothing. -/
def read (s : RecordUpload) (flush : Bool) (len : ℕ) (buf : List UInt8) (k : ℕ) :
    Option RecordUpload :=
  let rest := s.file.drop (s.uploader.uploadSize + buf.length)
  if rest = [] then some { s with phase := .sending flush len buf s.file.length }
  else if 0 < k ∧ k ≤ rest.length then
    some { s with phase := .reading flush len (buf ++ rest.take k) }
  else none

/-- The server writes a part at its offset. -/
def write (s : RecordUpload) (offset : ℕ) (data : List UInt8) :
    OrderedMap String (List UInt8) :=
  s.server.set s.uploader.filename (writeAt s.sent offset data)

/-- The end of `handle_frame`. -/
def send (s : RecordUpload) (flush : Bool) (len : ℕ) (buf : List UInt8) (flushed now : ℕ) :
    RecordUpload :=
  { s with
    server := s.write s.uploader.uploadSize buf
    uploader := { s.uploader with uploadSize := len, lastSend := now }
    phase := if flush then .tail flushed else .idle }

/-- `handle_tail` up to the header. -/
def readTail (s : RecordUpload) (flushed : ℕ) : RecordUpload :=
  match s.files.get? s.uploader.filepath with
  | none => s.stop
  | some file => { s with phase := .sendingTail (file.take maxHeaderLen) file flushed }

/-- The end of `handle_tail`. -/
def sendTail (s : RecordUpload) (header : List UInt8) : RecordUpload :=
  { s with server := s.write 0 header, phase := .idle }

/-- What an event does, `none` where it cannot happen. -/
def step (fileName : String → Option String) (s : RecordUpload) :
    UploadEvent → Option RecordUpload
  | .append path bytes =>
    some { s with files := s.files.set path ((s.files.get? path).getD [] ++ bytes) }
  | .rewrite path i b =>
    if i < maxHeaderLen then
      (s.files.get? path).map fun file => { s with files := s.files.set path (file.set i b) }
    else none
  | .newFile path now => if s.phase = .idle then some (s.handleNewFile fileName path now) else none
  | .newFrame now => if s.phase = .idle then some (s.newFrame now) else none
  | .writeTail => if s.phase = .idle then some s.writeTail else none
  | .stat => match s.phase with
    | .stat flush => some (s.stat flush)
    | _ => none
  | .read k => match s.phase with
    | .reading flush len buf => s.read flush len buf k
    | _ => none
  | .send now => match s.phase with
    | .sending flush len buf flushed => some (s.send flush len buf flushed now)
    | _ => none
  | .readTail => match s.phase with
    | .tail flushed => some (s.readTail flushed)
    | _ => none
  | .sendTail => match s.phase with
    | .sendingTail header _ _ => some (s.sendTail header)
    | _ => none
  | .fail => if s.phase = .idle then none else some s.stop

/-- The thread before any event. -/
def init : RecordUpload := ⟨⟨"", "", 0, false, 0⟩, .idle, .empty, .empty⟩

/-- The recorder, the uploader and the server. -/
def machine (fileName : String → Option String) : Machine RecordUpload UploadEvent :=
  ⟨init, step fileName⟩

/-! ### What holds between the file and the server -/

/-- What each phase knows of the file and of what was sent. -/
def Holds (size : ℕ) (file sent : List UInt8) : UploadPhase → Prop
  | .idle | .stat _ => True
  | .reading _ len buf => len ≤ file.length ∧ PartOf maxHeaderLen size buf file
  | .sending _ len buf flushed =>
    len ≤ size + buf.length ∧ flushed = size + buf.length ∧ sent.length ≤ flushed ∧
      PartOf maxHeaderLen size buf file
  | .tail flushed => sent.length = flushed
  | .sendingTail header seen flushed =>
    sent.length = flushed ∧ header = seen.take maxHeaderLen ∧ PartOf maxHeaderLen 0 sent seen ∧
      PartOf maxHeaderLen 0 seen file

/-- The server has no gap: a part of the file, at least as long as the uploader counts. -/
structure Gapless (uploader : RecordUploader) (phase : UploadPhase) (file sent : List UInt8) :
    Prop where
  part : PartOf maxHeaderLen 0 sent file
  size_le : uploader.uploadSize ≤ sent.length
  holds : Holds uploader.uploadSize file sent phase

/-- While the uploader runs there is no gap, and a handler only goes on while it runs. -/
def Inv (s : RecordUpload) : Prop :=
  (s.uploader.running = false → s.phase = .idle) ∧
    (s.uploader.running = true → Gapless s.uploader s.phase s.file s.sent)

/-- What is held of a file is held of one that grew. -/
theorem Holds.mono {size : ℕ} {file file' sent : List UInt8} {phase : UploadPhase}
    (h : Holds size file sent phase) (hfile : PartOf maxHeaderLen 0 file file') :
    Holds size file' sent phase := by
  have hle := hfile.le
  cases phase with
  | idle => trivial
  | stat flush => trivial
  | reading flush len buf => exact ⟨by have := h.1; omega, h.2.trans hfile⟩
  | sending flush len buf flushed => exact ⟨h.1, h.2.1, h.2.2.1, h.2.2.2.trans hfile⟩
  | tail flushed => exact h
  | sendingTail header seen flushed => exact ⟨h.1, h.2.1, h.2.2.1, h.2.2.2.trans hfile⟩

variable {s t : RecordUpload} {fileName : String → Option String}

/-- An uploader at rest has nothing to hold. -/
theorem inv_init : Inv init := ⟨fun _ => rfl, nofun⟩

/-- Stopping leaves nothing to hold. -/
theorem inv_stop (s : RecordUpload) : Inv s.stop := ⟨fun _ => rfl, nofun⟩

/-- The recorder's writes leave no gap. -/
theorem Inv.of_files (h : Inv s) (huploader : t.uploader = s.uploader) (hphase : t.phase = s.phase)
    (hsent : t.sent = s.sent) (hfile : PartOf maxHeaderLen 0 s.file t.file) : Inv t := by
  refine ⟨fun hrun => ?_, fun hrun => ?_⟩
  · rw [huploader] at hrun
    rw [hphase]
    exact h.1 hrun
  · rw [huploader] at hrun ⊢
    have hgap := h.2 hrun
    rw [hphase, hsent]
    exact ⟨hgap.part.trans hfile, hgap.size_le, hgap.holds.mono hfile⟩

/-- A file that is set is what the uploader sees where it is its own. -/
theorem file_set (s : RecordUpload) (path : String) (bytes : List UInt8) :
    ({ s with files := s.files.set path bytes } : RecordUpload).file =
      if s.uploader.filepath = path then bytes else s.file := by
  unfold file
  rw [OrderedMap.get?_set]
  split_ifs <;> rfl

/-- A step of the uploader that keeps the files and the server. -/
theorem Inv.of_phase (hrun : s.uploader.running = true) (h : Inv s) {phase : UploadPhase}
    (hholds : Holds s.uploader.uploadSize s.file s.sent phase) : Inv { s with phase := phase } :=
  ⟨fun hstop => absurd (hstop.symm.trans hrun) nofun,
    fun _ => ⟨(h.2 hrun).part, (h.2 hrun).size_le, hholds⟩⟩

/-- A handler that goes on runs. -/
theorem Inv.running (h : Inv s) (hphase : s.phase ≠ .idle) : s.uploader.running = true := by
  by_contra hrun
  exact hphase (h.1 (by simpa using hrun))

/-- What was sent, with one write more. -/
theorem sent_write (s : RecordUpload) (offset : ℕ) (data : List UInt8) :
    ((s.write offset data).get? s.uploader.filename).getD [] = writeAt s.sent offset data := by
  rw [write, OrderedMap.get?_set, if_pos rfl]
  rfl

/-- A new file starts an upload that holds nothing yet. -/
theorem inv_handleNewFile (path : String) (now : ℕ) (hphase : s.phase = .idle) :
    Inv (s.handleNewFile fileName path now) := by
  unfold handleNewFile
  split
  · rename_i name hname
    have hempty : sent { s with
        uploader := ⟨path, name, 0, true, now⟩
        server := s.server.set name [] } = [] := by
      rw [sent, OrderedMap.get?_set, if_pos rfl]
      rfl
    refine ⟨nofun, fun _ => ?_⟩
    rw [hempty]
    exact ⟨partOf_nil _ (Nat.zero_le _), Nat.le_refl _, hphase ▸ trivial⟩
  · exact inv_stop s

/-- Asking for the size keeps what the uploader holds. -/
theorem inv_stat {flush : Bool} (h : Inv s) (hphase : s.phase = .stat flush) :
    Inv (s.stat flush) := by
  have hrun := h.running (hphase ▸ nofun)
  have hgap := h.2 hrun
  unfold stat
  split
  · exact inv_stop s
  · rename_i file hget
    have hfile : s.file = file := by rw [RecordUpload.file, hget]; rfl
    have hle := hfile ▸ hgap.part.le
    have hsize := hgap.size_le
    split_ifs with hlen hflush hsmall
    · exact h.of_phase hrun (show s.sent.length = file.length by omega)
    · exact h.of_phase hrun trivial
    · exact h.of_phase hrun trivial
    · refine h.of_phase hrun ⟨hfile ▸ Nat.le_refl _, partOf_nil _ ?_⟩
      rw [hfile]
      omega

/-- Reading a block keeps what the uploader holds. -/
theorem inv_read {flush : Bool} {len k : ℕ} {buf : List UInt8} (h : Inv s)
    (hphase : s.phase = .reading flush len buf) (hread : s.read flush len buf k = some t) :
    Inv t := by
  have hrun := h.running (hphase ▸ nofun)
  have hgap := h.2 hrun
  obtain ⟨hlen, hbuf⟩ : len ≤ s.file.length ∧
      PartOf maxHeaderLen s.uploader.uploadSize buf s.file := by
    have hholds := hgap.holds
    rwa [hphase] at hholds
  have hle := hbuf.le
  have hle' := hgap.part.le
  unfold read at hread
  dsimp only at hread
  split_ifs at hread with hend hk
  · -- the end of the file: what was read reaches it
    have hdrop := List.drop_eq_nil_iff.mp hend
    rw [← Option.some.inj hread]
    exact h.of_phase hrun ⟨by omega, by omega, by omega, hbuf⟩
  · rw [List.length_drop] at hk
    rw [← Option.some.inj hread]
    exact h.of_phase hrun ⟨hlen, hbuf.append (partOf_read _ (by omega))⟩

/-- Sending a block keeps what the uploader holds. -/
theorem inv_send {flush : Bool} {len flushed : ℕ} {buf : List UInt8} (h : Inv s)
    (hphase : s.phase = .sending flush len buf flushed) (now : ℕ) :
    Inv (s.send flush len buf flushed now) := by
  have hrun := h.running (hphase ▸ nofun)
  have hgap := h.2 hrun
  obtain ⟨hlen, hflushed, hle, hbuf⟩ : len ≤ s.uploader.uploadSize + buf.length ∧
      flushed = s.uploader.uploadSize + buf.length ∧ s.sent.length ≤ flushed ∧
        PartOf maxHeaderLen s.uploader.uploadSize buf s.file := by
    have hholds := hgap.holds
    rwa [hphase] at hholds
  have hsent : (s.send flush len buf flushed now).sent =
      writeAt s.sent s.uploader.uploadSize buf := sent_write s _ _
  have hlength : (writeAt s.sent s.uploader.uploadSize buf).length =
      max s.sent.length (s.uploader.uploadSize + buf.length) := length_writeAt hgap.size_le
  refine ⟨fun hstop => absurd (hstop.symm.trans hrun) nofun, fun _ => ?_⟩
  rw [hsent]
  refine ⟨hgap.part.writeAt hbuf hgap.size_le, ?_, ?_⟩
  · rw [hlength]
    exact Nat.le_trans hlen (Nat.le_max_right _ _)
  · cases flush with
    | false => trivial
    | true =>
      change (writeAt s.sent s.uploader.uploadSize buf).length = flushed
      omega

/-- Reading the header again keeps what the uploader holds. -/
theorem inv_readTail {flushed : ℕ} (h : Inv s) (hphase : s.phase = .tail flushed) :
    Inv (s.readTail flushed) := by
  have hrun := h.running (hphase ▸ nofun)
  have hgap := h.2 hrun
  have hflushed : s.sent.length = flushed := by
    have hholds := hgap.holds
    rwa [hphase] at hholds
  unfold readTail
  split
  · exact inv_stop s
  · rename_i file hget
    have hfile : s.file = file := by rw [RecordUpload.file, hget]; rfl
    exact h.of_phase hrun ⟨hflushed, rfl, hfile ▸ hgap.part, hfile ▸ partOf_refl _ _⟩

/-- Sending the header again ends the upload. -/
theorem inv_sendTail {header seen : List UInt8} {flushed : ℕ} (h : Inv s)
    (hphase : s.phase = .sendingTail header seen flushed) : Inv (s.sendTail header) := by
  have hrun := h.running (hphase ▸ nofun)
  have hgap := h.2 hrun
  obtain ⟨-, hheader, -, hseen⟩ : s.sent.length = flushed ∧
      header = seen.take maxHeaderLen ∧ PartOf maxHeaderLen 0 s.sent seen ∧
        PartOf maxHeaderLen 0 seen s.file := by
    have hholds := hgap.holds
    rwa [hphase] at hholds
  have hlength : header.length = min maxHeaderLen seen.length := by
    rw [hheader, List.length_take]
  have hpart : PartOf maxHeaderLen 0 header s.file :=
    ⟨by have := hseen.le; omega, fun j hj hge => by omega⟩
  have hsent : (s.sendTail header).sent = writeAt s.sent 0 header := sent_write s _ _
  refine ⟨fun hstop => absurd (hstop.symm.trans hrun) nofun, fun _ => ?_⟩
  rw [hsent]
  refine ⟨hgap.part.writeAt hpart (Nat.zero_le _), ?_, trivial⟩
  rw [length_writeAt (Nat.zero_le _)]
  exact Nat.le_trans hgap.size_le (Nat.le_max_left _ _)

/-- No step leaves a gap. -/
theorem Inv.step {e : UploadEvent} (h : Inv s) (hstep : step fileName s e = some t) : Inv t := by
  cases e with
  | append path bytes =>
    rw [← Option.some.inj hstep]
    refine h.of_files rfl rfl rfl ?_
    rw [file_set]
    split_ifs with hpath
    · rw [← hpath]
      exact partOf_append _ _ _
    · exact partOf_refl _ _
  | rewrite path i b =>
    simp only [RecordUpload.step] at hstep
    split_ifs at hstep with hi
    obtain ⟨file, hget, rfl⟩ := Option.map_eq_some_iff.mp hstep
    refine h.of_files rfl rfl rfl ?_
    rw [file_set]
    split_ifs with hpath
    · have hfile : s.file = file := by rw [RecordUpload.file, hpath, hget]; rfl
      rw [hfile]
      exact partOf_set hi _ _
    · exact partOf_refl _ _
  | newFile path now =>
    simp only [RecordUpload.step] at hstep
    split_ifs at hstep with hphase
    rw [← Option.some.inj hstep]
    exact inv_handleNewFile path now hphase
  | newFrame now =>
    simp only [RecordUpload.step] at hstep
    split_ifs at hstep
    rw [← Option.some.inj hstep]
    unfold newFrame
    split_ifs with hrun
    · exact h.of_phase hrun.1 trivial
    · exact h
  | writeTail =>
    simp only [RecordUpload.step] at hstep
    split_ifs at hstep
    rw [← Option.some.inj hstep]
    unfold writeTail
    split_ifs with hrun
    · exact h.of_phase hrun trivial
    · exact h
  | stat =>
    simp only [RecordUpload.step] at hstep
    split at hstep
    · rename_i hphase
      rw [← Option.some.inj hstep]
      exact inv_stat h hphase
    · cases hstep
  | read k =>
    simp only [RecordUpload.step] at hstep
    split at hstep
    · rename_i hphase
      exact inv_read h hphase hstep
    · cases hstep
  | send now =>
    simp only [RecordUpload.step] at hstep
    split at hstep
    · rename_i hphase
      rw [← Option.some.inj hstep]
      exact inv_send h hphase now
    · cases hstep
  | readTail =>
    simp only [RecordUpload.step] at hstep
    split at hstep
    · rename_i hphase
      rw [← Option.some.inj hstep]
      exact inv_readTail h hphase
    · cases hstep
  | sendTail =>
    simp only [RecordUpload.step] at hstep
    split at hstep
    · rename_i hphase
      rw [← Option.some.inj hstep]
      exact inv_sendTail h hphase
    · cases hstep
  | fail =>
    simp only [RecordUpload.step] at hstep
    split_ifs at hstep
    rw [← Option.some.inj hstep]
    exact inv_stop s

/-- In every run, where the file is as long when the header is read as the flush saw it, the
server has that file when the header is sent. -/
theorem server_eq_file (fileName : String → Option String) {events : List UploadEvent}
    {header seen : List UInt8} {flushed : ℕ} (hrun : (machine fileName).Run init events s)
    (hphase : s.phase = .sendingTail header seen flushed) (hquiet : seen.length = flushed)
    (hstep : (machine fileName).step s .sendTail = some t) :
    t.server.get? s.uploader.filename = some seen := by
  have hinv : Inv s := hrun.invariant (fun _ _ _ _ hse h => h.step hse) inv_init
  obtain ⟨hflushed, hheader, hpart, -⟩ : s.sent.length = flushed ∧
      header = seen.take maxHeaderLen ∧ PartOf maxHeaderLen 0 s.sent seen ∧
        PartOf maxHeaderLen 0 seen s.file := by
    have hholds := (hinv.2 (hinv.running (hphase ▸ nofun))).holds
    rwa [hphase] at hholds
  have ht : s.sendTail header = t := by
    simp only [machine, RecordUpload.step, hphase] at hstep
    exact Option.some.inj hstep
  rw [← ht]
  change (s.write 0 header).get? s.uploader.filename = some seen
  rw [write, OrderedMap.get?_set, if_pos rfl, hheader,
    hpart.writeAt_header (hflushed.trans hquiet.symm)]

/-! ### One recording -/

/-- The file name of the recording below. -/
def demoName (path : String) : Option String := if path = "/r/a.webm" then some "a.webm" else none

/-- A recording of three bytes whose header is written over after the flush. -/
def demoEvents : List UploadEvent :=
  [.append "/r/a.webm" [1, 2], .newFile "/r/a.webm" 0, .newFrame 5, .append "/r/a.webm" [3],
    .writeTail, .stat, .read 2, .read 1, .read 0, .send 9, .rewrite "/r/a.webm" 0 7, .readTail]

/-- The state in which the header is read and not yet sent. -/
def demoState : RecordUpload :=
  ⟨⟨"/r/a.webm", "a.webm", 3, true, 9⟩, .sendingTail [7, 2, 3] [7, 2, 3] 3,
    OrderedMap.empty.set "/r/a.webm" [7, 2, 3], OrderedMap.empty.set "a.webm" [1, 2, 3]⟩

/-- The server ends with the header as it was written last. -/
theorem server_eq_file_demo :
    (demoState.sendTail [7, 2, 3]).server.get? "a.webm" = some [7, 2, 3] := by
  have hrun : (machine demoName).Run init demoEvents demoState := Machine.run_of_replay rfl
  exact server_eq_file demoName hrun rfl rfl rfl

end RecordUpload

end RdWeb.Video
