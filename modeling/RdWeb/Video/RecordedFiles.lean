import RdWeb.Video.Recorder

/-!
# Recorded files are well formed

Every file is given frames of its own codec and size, a key frame first, with the times of the
frames in order, and the states that are sent open and close the files in turn. A timestamp is
the time of its frame in nanoseconds only while that fits 64 bits and is not negative.
-/

namespace RdWeb.Video

/-- The states that are sent: files are opened and closed in turn, and frames come while one is
open. The flag says whether one is. -/
inductive Bracketed : List RecordState → Bool → Prop
  | nil : Bracketed [] false
  | newFile {sent : List RecordState} (filename : String) :
      Bracketed sent false → Bracketed (sent ++ [.newFile filename]) true
  | newFrame {sent : List RecordState} :
      Bracketed sent true → Bracketed (sent ++ [.newFrame]) true
  | tail {sent : List RecordState} {state : RecordState} :
      Bracketed sent true → state = .writeTail ∨ state = .removeFile →
        Bracketed (sent ++ [state]) false

/-- What holds of every file, whatever the times of the frames. -/
structure FileSound (file : RecordFile) : Prop where
  same : ∀ m ∈ file.muxed, m.format = file.ctx.format ∧ m.width = file.ctx.width ∧
    m.height = file.ctx.height
  firstKey : ∀ m, file.muxed.head? = some m → m.frame.key = true
  ordered : file.muxed.Pairwise fun a b => a.frame.pts.toInt ≤ b.frame.pts.toInt
  stamped : ∀ m ∈ file.muxed, m.timestamp = m.frame.pts * 1000000#64
  started : file.hw = false → file.key = true → file.muxed ≠ []

/-- A file that was just opened. -/
theorem fileSound_new (hw : Bool) (ctx : RecorderContext) :
    FileSound ⟨hw, ctx, false, false, []⟩ :=
  ⟨by simp, by simp, .nil, by simp, by simp⟩

namespace RecordFile

variable {file : RecordFile} {frame : EncodedVideoFrame} {width height : ℕ}
  {format : CodecFormat} {ok : Bool}

/-- A frame does not change the kind of the file. -/
@[simp] theorem hw_writeVideo :
    (file.writeVideo frame width height format ok).hw = file.hw := by
  rw [writeVideo]
  split_ifs <;> rfl

/-- A frame does not change the context of the file. -/
@[simp] theorem ctx_writeVideo :
    (file.writeVideo frame width height format ok).ctx = file.ctx := by
  rw [writeVideo]
  split_ifs <;> rfl

/-- A file has a key frame once one was written. -/
theorem key_writeVideo :
    (file.writeVideo frame width height format ok).key = (file.key || frame.key) := by
  rw [writeVideo]
  split_ifs <;> simp_all

/-- A webm file is given the frame if it has a key frame or the frame is one. -/
theorem muxed_writeVideo :
    (file.writeVideo frame width height format ok).muxed =
      if file.hw = false ∧ (file.key = true ∨ frame.key = true) then
        file.muxed ++ [⟨frame, frame.pts * 1000000#64, width, height, format⟩]
      else file.muxed := by
  rw [writeVideo]
  cases frame.key <;> cases hkey : file.key <;> cases hhw : file.hw <;> simp [hkey, hhw]

end RecordFile

/-- A frame is given to a file of its codec and size, not earlier than the frames before it. -/
theorem FileSound.writeVideo {file : RecordFile} (h : FileSound file) (frame : EncodedVideoFrame)
    (ok : Bool) (hpts : ∀ m ∈ file.muxed, m.frame.pts.toInt ≤ frame.pts.toInt) :
    FileSound (file.writeVideo frame file.ctx.width file.ctx.height file.ctx.format ok) := by
  refine ⟨?_, ?_, ?_, ?_, ?_⟩ <;>
    simp only [RecordFile.hw_writeVideo, RecordFile.ctx_writeVideo, RecordFile.key_writeVideo,
      RecordFile.muxed_writeVideo] <;> split_ifs with hmuxed
  · simpa [or_imp, forall_and] using h.same
  · exact h.same
  · intro m hm
    cases hold : file.muxed with
    | nil =>
      obtain rfl : _ = m := by simpa [hold] using hm
      refine hmuxed.2.resolve_left fun hkey => h.started hmuxed.1 hkey hold
    | cons first rest =>
      exact h.firstKey m (by simpa [hold] using hm)
  · exact h.firstKey
  · rw [List.pairwise_append]
    exact ⟨h.ordered, List.pairwise_singleton _ _, by simpa using hpts⟩
  · exact h.ordered
  · simpa [or_imp, forall_and] using h.stamped
  · exact h.stamped
  · simp
  · intro hhw hkey
    exact absurd ⟨hhw, by simpa using hkey⟩ hmuxed

/-- The files of a recorder are sound, and the states open and close them. -/
structure Filed (r : Recorder) : Prop where
  closed : ∀ file ∈ r.closed, FileSound file
  inner : ∀ file, r.inner = some file → FileSound file
  sent : Bracketed r.sent (r.tx && r.inner.isSome)

/-- The file that is open is the one the context describes, and the recorder knows its last
time. -/
structure Sound (r : Recorder) : Prop extends Filed r where
  ctx : ∀ file, r.inner = some file → r.ctx = some file.ctx
  pts : ∀ file, r.inner = some file → ∀ m ∈ file.muxed,
    ∃ p, r.pts = some p ∧ m.frame.pts.toInt ≤ p.toInt

namespace Recorder

variable {hwcodec : Bool} {r : Recorder} {width height : ℕ} {format : CodecFormat}

/-- A file is open, of this size and format. -/
def Ready (r : Recorder) (width height : ℕ) (format : CodecFormat) : Prop :=
  ∃ file, r.inner = some file ∧ file.ctx.width = width ∧ file.ctx.height = height ∧
    file.ctx.format = format

/-- A new recorder is sound. -/
theorem sound_new (tx : Bool) : Sound (new tx) := by
  refine ⟨⟨by simp [new], by simp [new], ?_⟩, by simp [new], by simp [new]⟩
  simpa [new] using Bracketed.nil

/-- A message leaves the open file. -/
@[simp] theorem inner_sendState (state : RecordState) : (r.sendState state).inner = r.inner := by
  rw [sendState]
  split_ifs <;> rfl

/-- A message leaves the closed files. -/
@[simp] theorem closed_sendState (state : RecordState) :
    (r.sendState state).closed = r.closed := by
  rw [sendState]
  split_ifs <;> rfl

/-- A message leaves the context. -/
@[simp] theorem ctx_sendState (state : RecordState) : (r.sendState state).ctx = r.ctx := by
  rw [sendState]
  split_ifs <;> rfl

/-- A message leaves the last time. -/
@[simp] theorem pts_sendState (state : RecordState) : (r.sendState state).pts = r.pts := by
  rw [sendState]
  split_ifs <;> rfl

/-- A message leaves the channel. -/
@[simp] theorem tx_sendState (state : RecordState) : (r.sendState state).tx = r.tx := by
  rw [sendState]
  split_ifs <;> rfl

/-- The message is sent if there is a channel. -/
theorem sent_sendState (state : RecordState) :
    (r.sendState state).sent = if r.tx then r.sent ++ [state] else r.sent := by
  rw [sendState]
  split_ifs <;> rfl

/-- No file is open after it was dropped. -/
@[simp] theorem inner_dropInner (elapsedSecs : ℕ) : (r.dropInner elapsedSecs).inner = none := by
  rw [dropInner]
  split <;> simp_all

/-- Closing a file sends its tail. -/
theorem filed_dropInner (h : Filed r) (elapsedSecs : ℕ) : Filed (r.dropInner elapsedSecs) := by
  cases hinner : r.inner with
  | none => simpa [dropInner, hinner] using h
  | some file =>
    have hsent := h.sent
    rw [hinner, Option.isSome_some, Bool.and_true] at hsent
    refine ⟨?_, by simp, ?_⟩
    · simp only [dropInner, hinner, closed_sendState, List.mem_append, List.mem_singleton]
      rintro f (hf | rfl)
      · exact h.closed f hf
      · exact h.inner f hinner
    · rw [inner_dropInner, Option.isSome_none, Bool.and_false]
      simp only [dropInner, hinner, sent_sendState]
      split_ifs with htx
      · rw [htx] at hsent
        refine hsent.tail ?_
        rw [RecordFile.tail]
        split_ifs
        · exact .inr rfl
        · exact .inl rfl
      · simpa [htx] using hsent

/-- With no file open there is nothing to describe. -/
theorem sound_of_inner_none (h : Filed r) (hinner : r.inner = none) : Sound r :=
  ⟨h, by simp [hinner], by simp [hinner]⟩

/-- A file is opened for the context, unless one is open. -/
theorem sound_openInner (h : Sound r) {ctx : RecorderContext} (hctx : r.ctx = some ctx)
    (os : FileOs) : Sound (r.openInner hwcodec ctx format os).1 := by
  rw [openInner]
  split_ifs with hsome
  · exact h
  · split
    · exact h
    · split
      · exact h
      · have hnone : r.inner = none := by simpa using hsome
        have hsent := h.sent
        rw [hnone, Option.isSome_none, Bool.and_false] at hsent
        refine ⟨⟨by simpa using h.closed, ?_, ?_⟩, ?_, ?_⟩
        · simp only [inner_sendState, Option.some.injEq, forall_eq']
          exact fileSound_new _ _
        · simp only [inner_sendState, sent_sendState, tx_sendState, Option.isSome_some,
            Bool.and_true]
          split_ifs with htx
          · rw [htx]
            exact hsent.newFile _
          · simpa [htx] using hsent
        · simp [hctx]
        · simp

/-- After a successful check a file is open that has the context. -/
theorem ready_openInner {ctx : RecorderContext} (h : Sound r) (hctx : r.ctx = some ctx)
    (os : FileOs) (hok : (r.openInner hwcodec ctx format os).2 = .ok ()) :
    (r.openInner hwcodec ctx format os).1.Ready ctx.width ctx.height ctx.format := by
  rw [openInner] at hok ⊢
  split_ifs at hok ⊢ with hsome
  · obtain ⟨file, hfile⟩ := Option.isSome_iff_exists.mp hsome
    obtain rfl := Option.some.inj (hctx.symm.trans (h.ctx file hfile))
    exact ⟨file, hfile, rfl, rfl, rfl⟩
  · split at hok
    · cases hok
    · split at hok
      · cases hok
      · exact ⟨_, inner_sendState _, rfl, rfl, rfl⟩

/-- What `check` does: it keeps the context and opens a file for it, or makes a new one. -/
theorem check_cases (hwcodec : Bool) (r : Recorder) (width height : ℕ) (format : CodecFormat)
    (os : FileOs) :
    (∃ ctx, r.ctx = some ctx ∧ ctx.width = width ∧ ctx.height = height ∧ ctx.format = format ∧
      r.check hwcodec width height format os = r.openInner hwcodec ctx format os) ∨
    (∃ e, r.check hwcodec width height format os = (r, .error e)) ∨
    ∃ filename, r.check hwcodec width height format os =
      ({ r with ctx := some ⟨filename, width, height, format⟩ }.dropInner
        os.elapsedSecs).openInner hwcodec ⟨filename, width, height, format⟩ format os := by
  rw [check]
  dsimp only
  split
  case h_1 ctx hctx =>
    obtain ⟨hctx, hsame⟩ := Option.filter_eq_some_iff.mp hctx
    simp only [Bool.not_eq_true', Bool.or_eq_false_iff, decide_eq_false_iff_not, ne_eq,
      not_not] at hsame
    exact .inl ⟨ctx, hctx, hsame.1.1, hsame.1.2, hsame.2, rfl⟩
  case h_2 =>
    split
    case h_1 e _ => exact .inr (.inl ⟨e, rfl⟩)
    case h_2 filename _ => exact .inr (.inr ⟨filename, rfl⟩)

/-- The state in which a new context gets its file. -/
theorem sound_newCtx (h : Filed r) (ctx : RecorderContext) (elapsedSecs : ℕ) :
    Sound ({ r with ctx := some ctx }.dropInner elapsedSecs) ∧
      ({ r with ctx := some ctx }.dropInner elapsedSecs).ctx = some ctx := by
  have hfiled : Filed { r with ctx := some ctx } := ⟨h.closed, h.inner, h.sent⟩
  refine ⟨sound_of_inner_none (filed_dropInner hfiled _) (by simp), ?_⟩
  rw [dropInner]
  split <;> simp

/-- A check keeps the recorder sound. -/
theorem sound_check (h : Sound r) (os : FileOs) :
    Sound (r.check hwcodec width height format os).1 := by
  rcases check_cases hwcodec r width height format os with
    ⟨ctx, hctx, -, -, -, heq⟩ | ⟨e, heq⟩ | ⟨filename, heq⟩
  · rw [heq]
    exact sound_openInner h hctx os
  · rw [heq]
    exact h
  · obtain ⟨hsound, hctx⟩ := sound_newCtx h.toFiled ⟨filename, width, height, format⟩
      os.elapsedSecs
    rw [heq]
    exact sound_openInner hsound hctx os

/-- A check that succeeds leaves a file for the format. -/
theorem ready_check (h : Sound r) (os : FileOs)
    (hok : (r.check hwcodec width height format os).2 = .ok ()) :
    (r.check hwcodec width height format os).1.Ready width height format := by
  rcases check_cases hwcodec r width height format os with
    ⟨ctx, hctx, rfl, rfl, rfl, heq⟩ | ⟨e, heq⟩ | ⟨filename, heq⟩
  · rw [heq] at hok ⊢
    exact ready_openInner h hctx os hok
  · rw [heq] at hok
    cases hok
  · obtain ⟨hsound, hctx⟩ := sound_newCtx h.toFiled ⟨filename, width, height, format⟩
      os.elapsedSecs
    rw [heq] at hok ⊢
    exact ready_openInner hsound hctx os hok

/-- Where no file was open, a check opens an empty one. -/
theorem muxed_check (hnone : r.inner = none) (os : FileOs) {file : RecordFile}
    (hfile : (r.check hwcodec width height format os).1.inner = some file) :
    file.muxed = [] := by
  have hopen {r : Recorder} (hnone : r.inner = none) (ctx : RecorderContext)
      (hfile : (r.openInner hwcodec ctx format os).1.inner = some file) : file.muxed = [] := by
    rw [openInner, if_neg (by simp [hnone])] at hfile
    split at hfile
    · simp [hnone] at hfile
    · split at hfile
      · simp [hnone] at hfile
      · obtain rfl : _ = file := by simpa using hfile
        rfl
  rcases check_cases hwcodec r width height format os with
    ⟨ctx, -, -, -, -, heq⟩ | ⟨e, heq⟩ | ⟨filename, heq⟩
  · rw [heq] at hfile
    exact hopen hnone ctx hfile
  · rw [heq, hnone] at hfile
    cases hfile
  · rw [heq] at hfile
    exact hopen (by simp) _ hfile

/-- Ready for a frame of this time: a file of the size and format is open, and its frames are
not later. -/
structure ReadyFor (r : Recorder) (time : BitVec 64) (width height : ℕ)
    (format : CodecFormat) : Prop extends Sound r where
  ready : r.Ready width height format
  pts_eq : r.pts = some time

/-- The recorder after it has closed its file because a frame is earlier than the last one. -/
def restarted (r : Recorder) (pts : BitVec 64) (elapsedSecs : ℕ) : Recorder :=
  { { r with pts := some pts }.dropInner elapsedSecs with ctx := none }

/-- What `check_pts` does: it refuses the frame, goes on with the file, or starts a new one. -/
theorem checkPts_cases (hwcodec : Bool) (r : Recorder) (pts : BitVec 64) (key : Bool)
    (width height : ℕ) (format : CodecFormat) (os : FileOs) :
    (∃ e, r.checkPts hwcodec pts key width height format os = (r, .error e)) ∨
    ((r.pts.getD 0).toInt ≤ pts.toInt ∧
      r.checkPts hwcodec pts key width height format os = ({ r with pts := some pts }, .ok ())) ∨
    (∃ r' e, (r.restarted pts os.elapsedSecs).check hwcodec width height format os =
        (r', .error e) ∧
      r.checkPts hwcodec pts key width height format os =
        ({ r' with checkFailed := true }, .error e)) ∨
    ∃ r', (r.restarted pts os.elapsedSecs).check hwcodec width height format os = (r', .ok ()) ∧
      r.checkPts hwcodec pts key width height format os = ({ r' with pts := some pts }, .ok ()) := by
  rw [checkPts]
  dsimp only
  split_ifs with hfirst hearlier
  · exact .inl ⟨_, rfl⟩
  · rw [restarted]
    generalize check hwcodec _ width height format os = checked
    obtain ⟨r', e | _⟩ := checked
    · exact .inr (.inr (.inl ⟨r', e, rfl, rfl⟩))
    · exact .inr (.inr (.inr ⟨r', rfl, rfl⟩))
  · exact .inr (.inl ⟨not_lt.mp hearlier, rfl⟩)

/-- A restarted recorder is sound and has no file. -/
theorem sound_restarted (h : Filed r) (pts : BitVec 64) (elapsedSecs : ℕ) :
    Sound (r.restarted pts elapsedSecs) ∧ (r.restarted pts elapsedSecs).inner = none := by
  have hfiled : Filed { r with pts := some pts } := ⟨h.closed, h.inner, h.sent⟩
  have hdropped := filed_dropInner hfiled elapsedSecs
  have hnone : (r.restarted pts elapsedSecs).inner = none := inner_dropInner _
  exact ⟨sound_of_inner_none ⟨hdropped.closed, hdropped.inner, hdropped.sent⟩ hnone, hnone⟩

/-- `check_pts` keeps the recorder sound, and ready for the frame if it succeeds. -/
theorem readyFor_checkPts (h : Sound r) (hready : r.Ready width height format) (pts : BitVec 64)
    (key : Bool) (os : FileOs) :
    Sound (r.checkPts hwcodec pts key width height format os).1 ∧
      ((r.checkPts hwcodec pts key width height format os).2 = .ok () →
        (r.checkPts hwcodec pts key width height format os).1.ReadyFor pts width height
          format) := by
  obtain ⟨hrestarted, hnone⟩ := sound_restarted h.toFiled pts os.elapsedSecs
  have hchecked : Sound ((r.restarted pts os.elapsedSecs).check hwcodec width height format os).1 :=
    sound_check hrestarted os
  rcases checkPts_cases hwcodec r pts key width height format os with
    ⟨e, heq⟩ | ⟨hle, heq⟩ | ⟨r', e, hcheck, heq⟩ | ⟨r', hcheck, heq⟩
  · rw [heq]
    exact ⟨h, fun hok => by cases hok⟩
  · have hsound : Sound { r with pts := some pts } := by
      refine ⟨⟨h.closed, h.inner, h.sent⟩, h.ctx, fun file hfile m hm => ⟨pts, rfl, ?_⟩⟩
      obtain ⟨old, hold, hold'⟩ := h.pts file hfile m hm
      rw [hold, Option.getD_some] at hle
      exact hold'.trans hle
    rw [heq]
    exact ⟨hsound, fun _ => ⟨hsound, hready, rfl⟩⟩
  · rw [hcheck] at hchecked
    rw [heq]
    exact ⟨⟨⟨hchecked.closed, hchecked.inner, hchecked.sent⟩, hchecked.ctx, hchecked.pts⟩,
      fun hok => by cases hok⟩
  · have hready' := ready_check hrestarted os (by rw [hcheck])
    rw [hcheck] at hchecked hready'
    -- the new file is empty, so no frame of it is later than the present one
    have hsound : Sound { r' with pts := some pts } := by
      refine ⟨⟨hchecked.closed, hchecked.inner, hchecked.sent⟩, hchecked.ctx, ?_⟩
      intro file hfile m hm
      have hfile' : ((r.restarted pts os.elapsedSecs).check hwcodec width height format
          os).1.inner = some file := by rw [hcheck]; exact hfile
      rw [muxed_check hnone os hfile'] at hm
      cases hm
    rw [heq]
    exact ⟨hsound, fun _ => ⟨hsound, hready', rfl⟩⟩

/-- The frame is given to the file that is open. -/
theorem sound_writeInner {frame : EncodedVideoFrame}
    (h : r.ReadyFor frame.pts width height format) (ok : Bool) :
    Sound (r.writeInner frame width height format ok) ∧
      (r.writeInner frame width height format ok).Ready width height format := by
  obtain ⟨file, hfile, rfl, rfl, rfl⟩ := h.ready
  have hpts : ∀ m ∈ file.muxed, m.frame.pts.toInt ≤ frame.pts.toInt := by
    intro m hm
    obtain ⟨p, hp, hle⟩ := h.pts file hfile m hm
    obtain rfl := Option.some.inj (h.pts_eq.symm.trans hp)
    exact hle
  have hwritten := (h.inner file hfile).writeVideo frame ok hpts
  have hinner : (r.writeInner frame file.ctx.width file.ctx.height file.ctx.format ok).inner =
      some (file.writeVideo frame file.ctx.width file.ctx.height file.ctx.format ok) := by
    rw [writeInner, hfile, Option.map_some]
  refine ⟨⟨⟨h.closed, ?_, ?_⟩, ?_, ?_⟩, ⟨_, hinner, by simp⟩⟩
  · simpa [hinner] using hwritten
  · simpa [hinner, writeInner, hfile] using h.sent
  · rw [hinner]
    rintro _ ⟨⟩
    rw [RecordFile.ctx_writeVideo]
    exact h.ctx file hfile
  · intro file' hfile' m hm
    obtain rfl := Option.some.inj (hinner.symm.trans hfile')
    rw [RecordFile.muxed_writeVideo] at hm
    refine ⟨frame.pts, h.pts_eq, ?_⟩
    split_ifs at hm
    · rcases List.mem_append.mp hm with hm | hm
      · exact hpts m hm
      · obtain rfl := List.mem_singleton.mp hm
        exact le_refl _
    · exact hpts m hm

/-- The frames of a call. -/
theorem sound_writeFrames (h : Sound r) (hready : r.Ready width height format)
    (frames : List EncodedVideoFrame) (os : ℕ → FrameOs) :
    Sound (writeFrames hwcodec width height format r frames os).1 ∧
      ((writeFrames hwcodec width height format r frames os).2 = .ok () →
        (writeFrames hwcodec width height format r frames os).1.Ready width height format) := by
  induction frames generalizing r os with
  | nil => exact ⟨h, fun _ => hready⟩
  | cons f frames ih =>
    have hchecked : Sound (r.checkPts hwcodec f.pts f.key width height format (os 0).file).1 ∧
        _ := readyFor_checkPts h hready f.pts f.key (os 0).file
    rw [writeFrames]
    generalize r.checkPts hwcodec f.pts f.key width height format (os 0).file = checked
      at hchecked ⊢
    obtain ⟨r', _ | _⟩ := checked
    · exact ⟨hchecked.1, fun hok => by cases hok⟩
    · obtain ⟨hsound, hready'⟩ := sound_writeInner (hchecked.2 rfl) (os 0).added
      exact ih hsound hready' _

/-- A call keeps the recorder sound. -/
theorem sound_writeFrame (h : Sound r) (frame : VideoFrame) (os : FileOs)
    (frameOs : ℕ → FrameOs) :
    Sound (r.writeFrame hwcodec frame width height os frameOs).1 := by
  rw [writeFrame]
  split_ifs
  · exact h
  · exact h
  · have hchecked : Sound (r.check hwcodec width height (.ofFrame frame) os).1 :=
      sound_check h os
    have hready : (r.check hwcodec width height (.ofFrame frame) os).2 = .ok () →
        (r.check hwcodec width height (.ofFrame frame) os).1.Ready width height
          (.ofFrame frame) := ready_check h os
    generalize r.check hwcodec width height (.ofFrame frame) os = checked at hchecked hready ⊢
    obtain ⟨r', _ | _⟩ := checked
    · exact ⟨⟨hchecked.closed, hchecked.inner, hchecked.sent⟩, hchecked.ctx, hchecked.pts⟩
    · dsimp only
      cases hframes : framesOf hwcodec frame with
      | none => exact hchecked
      | some frames =>
        have hwritten : Sound (writeFrames hwcodec width height (.ofFrame frame) r' frames
            frameOs).1 ∧ _ := sound_writeFrames hchecked (hready rfl) frames frameOs
        dsimp only
        generalize writeFrames hwcodec width height (.ofFrame frame) r' frames frameOs = written
          at hwritten ⊢
        obtain ⟨r'', _ | _⟩ := written
        · exact hwritten.1
        · obtain ⟨hsound, hready'⟩ := hwritten
          obtain ⟨file, hfile, -⟩ := hready' rfl
          refine ⟨⟨by simpa using hsound.closed, by simpa using hsound.inner, ?_⟩,
            by simpa using hsound.ctx, by simpa using hsound.pts⟩
          have hsent := hsound.sent
          dsimp only at hfile hsent
          rw [hfile] at hsent
          rw [inner_sendState, tx_sendState, sent_sendState, hfile]
          split_ifs with htx
          · rw [htx] at hsent ⊢
            exact hsent.newFrame
          · exact hsent

/-! ### Which frames the files were given -/

/-- A frame was given to a webm file. -/
def Muxed (r : Recorder) (m : MuxedFrame) : Prop :=
  ∃ file, (file ∈ r.closed ∨ r.inner = some file) ∧ m ∈ file.muxed

/-- A frame that is written now is given to a webm file: the file has a key frame, or the
frame is one. -/
def Admits (r : Recorder) (frame : EncodedVideoFrame) : Prop :=
  ∃ file, r.inner = some file ∧ file.hw = false ∧ (file.key = true ∨ frame.key = true)

/-- The frames written are those of the closed files and the open one. -/
theorem muxed_congr {r r' : Recorder} (hclosed : r'.closed = r.closed)
    (hinner : r'.inner = r.inner) (m : MuxedFrame) : r'.Muxed m ↔ r.Muxed m := by
  simp only [Muxed, hclosed, hinner]

/-- Dropping a file keeps the frames that were written. -/
theorem muxed_dropInner (elapsedSecs : ℕ) (m : MuxedFrame) :
    (r.dropInner elapsedSecs).Muxed m ↔ r.Muxed m := by
  cases hinner : r.inner with
  | none => simp [dropInner, hinner]
  | some file =>
    simp only [Muxed, inner_dropInner, hinner, reduceCtorEq, or_false]
    simp [dropInner, hinner, eq_comm]

/-- Opening a file keeps the frames that were written. -/
theorem muxed_openInner (ctx : RecorderContext) (os : FileOs) (m : MuxedFrame) :
    (r.openInner hwcodec ctx format os).1.Muxed m ↔ r.Muxed m := by
  rw [openInner]
  split_ifs with hsome
  · rfl
  · split
    · rfl
    · split
      · rfl
      · have hnone : r.inner = none := by simpa using hsome
        simp only [Muxed, closed_sendState, inner_sendState, hnone, reduceCtorEq, or_false,
          Option.some.injEq]
        constructor
        · rintro ⟨file, hfile | rfl, hm⟩
          · exact ⟨file, hfile, hm⟩
          · cases hm
        · rintro ⟨file, hfile, hm⟩
          exact ⟨file, .inl hfile, hm⟩

/-- A check gives no frame to a file. -/
theorem muxed_check_iff (os : FileOs) (m : MuxedFrame) :
    (r.check hwcodec width height format os).1.Muxed m ↔ r.Muxed m := by
  rcases check_cases hwcodec r width height format os with
    ⟨ctx, -, -, -, -, heq⟩ | ⟨e, heq⟩ | ⟨filename, heq⟩
  · rw [heq, muxed_openInner]
  · rw [heq]
  · rw [heq, muxed_openInner, muxed_dropInner]
    exact muxed_congr rfl rfl m

/-- Starting again keeps the frames that were written. -/
theorem muxed_restarted_iff (pts : BitVec 64) (elapsedSecs : ℕ) (m : MuxedFrame) :
    (r.restarted pts elapsedSecs).Muxed m ↔ r.Muxed m := by
  have hdropped : ({ r with pts := some pts }.dropInner elapsedSecs).Muxed m ↔ r.Muxed m :=
    (muxed_dropInner elapsedSecs m).trans (muxed_congr rfl rfl m)
  refine Iff.trans ?_ hdropped
  rw [restarted]
  exact muxed_congr rfl rfl m

/-- The check of the time keeps the frames that were written. -/
theorem muxed_checkPts_iff (pts : BitVec 64) (key : Bool) (os : FileOs) (m : MuxedFrame) :
    (r.checkPts hwcodec pts key width height format os).1.Muxed m ↔ r.Muxed m := by
  have hchecked : ((r.restarted pts os.elapsedSecs).check hwcodec width height format
      os).1.Muxed m ↔ r.Muxed m := by
    rw [muxed_check_iff, muxed_restarted_iff]
  rcases checkPts_cases hwcodec r pts key width height format os with
    ⟨e, heq⟩ | ⟨-, heq⟩ | ⟨r', e, hcheck, heq⟩ | ⟨r', hcheck, heq⟩
  · rw [heq]
  · rw [heq]
    exact muxed_congr rfl rfl m
  · rw [hcheck] at hchecked
    rw [heq]
    exact (muxed_congr rfl rfl m).trans hchecked
  · rw [hcheck] at hchecked
    rw [heq]
    exact (muxed_congr rfl rfl m).trans hchecked

/-- A written frame is given to the file if it is admitted. -/
theorem muxed_writeInner_iff {frame : EncodedVideoFrame} {ok : Bool} (m : MuxedFrame) :
    (r.writeInner frame width height format ok).Muxed m ↔
      r.Muxed m ∨ r.Admits frame ∧
        m = ⟨frame, frame.pts * 1000000#64, width, height, format⟩ := by
  simp only [Muxed, Admits, writeInner]
  cases r.inner with
  | none => simp
  | some file =>
    simp only [Option.map_some, Option.some.injEq]
    have hmem : m ∈ (file.writeVideo frame width height format ok).muxed ↔ m ∈ file.muxed ∨
        (file.hw = false ∧ (file.key = true ∨ frame.key = true)) ∧
          m = ⟨frame, frame.pts * 1000000#64, width, height, format⟩ := by
      rw [RecordFile.muxed_writeVideo]
      split_ifs with hadmits
      · simp [hadmits]
      · simp [hadmits]
    constructor
    · rintro ⟨_, hclosed | rfl, hm⟩
      · exact .inl ⟨_, .inl hclosed, hm⟩
      · rcases hmem.mp hm with hm | ⟨hadmits, hm⟩
        · exact .inl ⟨file, .inr rfl, hm⟩
        · exact .inr ⟨⟨file, rfl, hadmits⟩, hm⟩
    · rintro (⟨_, hclosed | rfl, hm⟩ | ⟨⟨_, rfl, hadmits⟩, hm⟩)
      · exact ⟨_, .inl hclosed, hm⟩
      · exact ⟨_, .inr rfl, hmem.mpr (.inl hm)⟩
      · exact ⟨_, .inr rfl, hmem.mpr (.inr ⟨hadmits, hm⟩)⟩

/-- The time of a frame in nanoseconds fits the timestamp. -/
def Fits (pts : BitVec 64) : Prop := 0 ≤ pts.toInt ∧ pts.toInt * 1000000 < 2 ^ 64

/-- Every frame that is given to a file of a call fits. -/
def FramesFit (hwcodec : Bool) (width height : ℕ) (format : CodecFormat) :
    Recorder → List EncodedVideoFrame → (ℕ → FrameOs) → Prop
  | _, [], _ => True
  | r, f :: frames, os => ∀ r',
    r.checkPts hwcodec f.pts f.key width height format (os 0).file = (r', .ok ()) →
      (r'.Admits f → Fits f.pts) ∧
        FramesFit hwcodec width height format
          (r'.writeInner f width height format (os 0).added) frames fun i => os (i + 1)

/-- All frames that were given to webm files fit. -/
def AllFit (r : Recorder) : Prop := ∀ m, r.Muxed m → Fits m.frame.pts

/-- The times fit after frames if they did before and those of the frames do. -/
theorem allFit_writeFrames_iff (frames : List EncodedVideoFrame) (os : ℕ → FrameOs) :
    (writeFrames hwcodec width height format r frames os).1.AllFit ↔
      r.AllFit ∧ FramesFit hwcodec width height format r frames os := by
  induction frames generalizing r os with
  | nil => simp [writeFrames, FramesFit]
  | cons f frames ih =>
    have hchecked : ∀ m,
        (r.checkPts hwcodec f.pts f.key width height format (os 0).file).1.Muxed m ↔ r.Muxed m :=
      muxed_checkPts_iff f.pts f.key (os 0).file
    rw [writeFrames, FramesFit]
    generalize r.checkPts hwcodec f.pts f.key width height format (os 0).file = checked
      at hchecked ⊢
    obtain ⟨r', _ | _⟩ := checked
    · simp [AllFit, hchecked]
    · have hwritten : (r'.writeInner f width height format (os 0).added).AllFit ↔
          r.AllFit ∧ (r'.Admits f → Fits f.pts) := by
        simp only [AllFit, muxed_writeInner_iff, hchecked, or_imp, forall_and, and_imp,
          forall_eq_apply_imp_iff]
      dsimp only
      rw [ih, hwritten]
      simp [and_assoc]

/-- The times fit after a call if they did before and those of its frames do. -/
theorem allFit_writeFrame_iff (frame : VideoFrame) (os : FileOs) (frameOs : ℕ → FrameOs) :
    (r.writeFrame hwcodec frame width height os frameOs).1.AllFit ↔
      r.AllFit ∧ (r.checkFailed = false → ∀ r' frames,
        r.check hwcodec width height (.ofFrame frame) os = (r', .ok ()) →
          framesOf hwcodec frame = some frames →
            FramesFit hwcodec width height (.ofFrame frame) r' frames frameOs) := by
  have hchecked : ∀ m,
      (r.check hwcodec width height (.ofFrame frame) os).1.Muxed m ↔ r.Muxed m :=
    muxed_check_iff os
  rw [writeFrame]
  split_ifs with hfailed hunknown
  · simp [hfailed]
  · have hnone : framesOf hwcodec frame = none := by
      cases frame with
      | other => rfl
      | _ => cases hunknown
    simp [hnone]
  · generalize r.check hwcodec width height (.ofFrame frame) os = checked at hchecked ⊢
    obtain ⟨r', _ | _⟩ := checked
    · have hsame : ({ r' with checkFailed := true } : Recorder).AllFit ↔ r.AllFit := by
        simp only [AllFit, ← hchecked]
        rfl
      simp [hsame]
    · have hsame : r'.AllFit ↔ r.AllFit := by
        simp only [AllFit, ← hchecked]
      cases hframes : framesOf hwcodec frame with
      | none => simpa using hsame
      | some frames =>
        have hwritten : (writeFrames hwcodec width height (.ofFrame frame) r' frames
            frameOs).1.AllFit ↔ _ := allFit_writeFrames_iff frames frameOs
        dsimp only
        generalize writeFrames hwcodec width height (.ofFrame frame) r' frames frameOs = written
          at hwritten ⊢
        obtain ⟨r'', _ | _⟩ := written
        · simpa [hfailed, hsame] using hwritten
        · have hsent : (r''.sendState .newFrame).AllFit ↔ r''.AllFit := by
            simp only [AllFit, muxed_congr (closed_sendState _) (inner_sendState _)]
          simpa [hfailed, hsame, hsent] using hwritten

end Recorder

/-- What a webm file should be given: frames of its own codec and size, a key frame first, with
timestamps in order that are the times of the frames in nanoseconds. -/
structure FileWellFormed (file : RecordFile) : Prop where
  same : ∀ m ∈ file.muxed, m.format = file.ctx.format ∧ m.width = file.ctx.width ∧
    m.height = file.ctx.height
  firstKey : ∀ m, file.muxed.head? = some m → m.frame.key = true
  ordered : file.muxed.Pairwise fun a b => a.timestamp.toNat ≤ b.timestamp.toNat
  exact : ∀ m ∈ file.muxed, (m.timestamp.toNat : ℤ) = m.frame.pts.toInt * 1000000

/-- A timestamp is exact if the time of the frame fits it. -/
theorem toNat_timestamp_eq_iff (pts : BitVec 64) :
    ((pts * 1000000#64).toNat : ℤ) = pts.toInt * 1000000 ↔ Recorder.Fits pts := by
  have hlt := pts.isLt
  rw [Recorder.Fits, BitVec.toNat_mul, BitVec.toInt_eq_toNat_cond]
  simp only [BitVec.toNat_ofNat]
  split_ifs <;> omega

/-- A sound file is well formed if its times fit. -/
theorem fileWellFormed_iff {file : RecordFile} (h : FileSound file) :
    FileWellFormed file ↔ ∀ m ∈ file.muxed, Recorder.Fits m.frame.pts := by
  have hexact (m : MuxedFrame) (hm : m ∈ file.muxed) :
      (m.timestamp.toNat : ℤ) = m.frame.pts.toInt * 1000000 ↔ Recorder.Fits m.frame.pts := by
    rw [h.stamped m hm, toNat_timestamp_eq_iff]
  constructor
  · exact fun hfile m hm => (hexact m hm).mp (hfile.exact m hm)
  · intro hfits
    have hstamps (m : MuxedFrame) (hm : m ∈ file.muxed) := (hexact m hm).mpr (hfits m hm)
    refine ⟨h.same, h.firstKey, ?_, hstamps⟩
    refine h.ordered.imp_of_mem fun ha hb hle => ?_
    have ha' := hstamps _ ha
    have hb' := hstamps _ hb
    omega

namespace RecorderRun

variable {hwcodec : Bool} {s t : RecorderRun}

/-- All files are well formed, and the states open and close them; after the recorder was
dropped none is left open. -/
structure WellFormed (s : RecorderRun) : Prop where
  files : ∀ file, file ∈ s.recorder.closed ∨ s.recorder.inner = some file → FileWellFormed file
  states : ∃ isOpen, Bracketed s.recorder.sent isOpen ∧ (s.dropped = true → isOpen = false)

/-- What holds whatever the times of the frames. -/
structure Kept (s : RecorderRun) : Prop where
  sound : Sound s.recorder
  dropped : s.dropped = true → s.recorder.inner = none

/-- What was kept is well formed if all times fit. -/
theorem wellFormed_iff (h : Kept s) : WellFormed s ↔ s.recorder.AllFit := by
  have hsound (file : RecordFile)
      (hfile : file ∈ s.recorder.closed ∨ s.recorder.inner = some file) : FileSound file :=
    hfile.elim (h.sound.closed file) (h.sound.inner file)
  constructor
  · rintro hs m ⟨file, hfile, hm⟩
    exact (fileWellFormed_iff (hsound file hfile)).mp (hs.files file hfile) m hm
  · intro hfit
    refine ⟨fun file hfile => ?_, _, h.sound.sent, fun hdropped => ?_⟩
    · exact (fileWellFormed_iff (hsound file hfile)).mpr fun m hm => hfit m ⟨file, hfile, hm⟩
    · simp [h.dropped hdropped]

/-- **One call** keeps the recorder. -/
theorem kept_step (h : Kept s) {e : RecorderEvent} (hstep : step hwcodec s e = some t) :
    Kept t := by
  rw [step.eq_def] at hstep
  split_ifs at hstep
  cases e with
  | writeFrame frame width height os frameOs =>
    obtain rfl := Option.some.inj hstep
    exact ⟨Recorder.sound_writeFrame h.sound frame os frameOs, by simp⟩
  | drop elapsedSecs =>
    obtain rfl := Option.some.inj hstep
    exact ⟨Recorder.sound_of_inner_none (Recorder.filed_dropInner h.sound.toFiled _) (by simp),
      by simp⟩

/-- Every frame that the call gives to a webm file fits: the file has a key frame when the
frame comes, or the frame is one. -/
def CallFits (hwcodec : Bool) (s : RecorderRun) : RecorderEvent → Prop
  | .writeFrame frame width height os frameOs => s.recorder.checkFailed = false →
      ∀ r frames, s.recorder.check hwcodec width height (.ofFrame frame) os = (r, .ok ()) →
        Recorder.framesOf hwcodec frame = some frames →
          r.FramesFit hwcodec width height (.ofFrame frame) frames frameOs
  | .drop _ => True

/-- **One call** leaves well formed files if and only if the times it writes fit. -/
theorem wellFormed_step_iff (h : Kept s) (hs : WellFormed s) {e : RecorderEvent}
    (hstep : step hwcodec s e = some t) : WellFormed t ↔ CallFits hwcodec s e := by
  rw [wellFormed_iff (kept_step h hstep)]
  rw [wellFormed_iff h] at hs
  rw [step.eq_def] at hstep
  split_ifs at hstep
  cases e with
  | writeFrame frame width height os frameOs =>
    obtain rfl := Option.some.inj hstep
    rw [Recorder.allFit_writeFrame_iff, and_iff_right hs, CallFits]
  | drop elapsedSecs =>
    obtain rfl := Option.some.inj hstep
    refine iff_of_true ?_ trivial
    intro m hm
    exact hs m ((Recorder.muxed_dropInner elapsedSecs m).mp hm)

/-- **Recorded files.** In any calls of a recorder until it is dropped, after each of them all
files are well formed, if and only if every frame given to a webm file fits. -/
theorem wellFormed_iff_callFits (hwcodec tx : Bool) {events : List RecorderEvent}
    (hrun : (machine hwcodec tx).Run (machine hwcodec tx).init events s) :
    (∀ first u, first <+: events → (machine hwcodec tx).Run (machine hwcodec tx).init first u →
      WellFormed u) ↔
      (machine hwcodec tx).RunWhere (CallFits hwcodec) (machine hwcodec tx).init events s := by
  have hkept : Kept (machine hwcodec tx).init := ⟨Recorder.sound_new tx, by simp [machine]⟩
  have hinit : WellFormed (machine hwcodec tx).init := by
    rw [wellFormed_iff hkept]
    rintro m ⟨file, hfile, -⟩
    simp [machine, Recorder.new] at hfile
  exact Machine.runWhere_iff_beside (fun _ _ _ hstep h => kept_step h hstep)
    (fun _ _ _ hstep h hs => wellFormed_step_iff h hs hstep) hkept hinit hrun

/-- A system that opens every file. -/
def demoFileOs : FileOs := ⟨.ok "a.webm", .ok (), 5⟩

/-- One key frame of each time is recorded. -/
def recording (times : List (BitVec 64)) : List RecorderEvent :=
  [.writeFrame (.vp9s (times.map fun pts => ⟨[], pts, true⟩)) 640 480 demoFileOs
    fun _ => ⟨demoFileOs, true⟩, .drop 5]

/-- The recorder after that. -/
def afterRecording (times : List (BitVec 64)) : RecorderRun :=
  ((machine false true).replay (machine false true).init (recording times)).getD
    (machine false true).init

/-- The equivalence on a recording of two frames. -/
theorem wellFormed_iff_callFits_recording :
    (∀ first u, first <+: recording [0, 40] →
      (machine false true).Run (machine false true).init first u → WellFormed u) ↔
      (machine false true).RunWhere (CallFits false) (machine false true).init
        (recording [0, 40]) (afterRecording [0, 40]) :=
  wellFormed_iff_callFits false true (Machine.run_of_replay rfl)

/-- A time before the start of the file does not fit. -/
theorem not_wellFormed_negative :
    ¬ ∀ (hwcodec tx : Bool) (events : List RecorderEvent) (s : RecorderRun),
      (machine hwcodec tx).Run (machine hwcodec tx).init events s → WellFormed s := by
  intro hall
  have hs := hall false true (recording [-1]) (afterRecording [-1]) (Machine.run_of_replay rfl)
  have hexact : ∀ file ∈ (afterRecording [-1]).recorder.closed, ∀ m ∈ file.muxed,
      (m.timestamp.toNat : ℤ) = m.frame.pts.toInt * 1000000 :=
    fun file hfile => (hs.files file (.inl hfile)).exact
  revert hexact
  decide

end RecorderRun

end RdWeb.Video
