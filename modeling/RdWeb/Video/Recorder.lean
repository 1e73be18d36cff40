import Mathlib.Algebra.Order.Ring.Int
import Mathlib.Data.List.Basic
import RdWeb.Lib.Machine

/-!
# The recorder of a video

`record.rs` of `scrap`: the recorder with its checks, and the webm file it writes to. A file of
the hardware muxer is given no timestamps. What the system answers is part of a call. The files
that were closed, the frames a file was given and the states that were sent are kept as a
record; the code does not read it.
-/

namespace RdWeb.Video

/-- The codecs of a recording. -/
inductive CodecFormat
  | vp8
  | vp9
  | av1
  | h264
  | h265
  | unknown
  deriving DecidableEq, Repr

/-- An encoded frame with its time. -/
structure EncodedVideoFrame where
  data : List UInt8
  pts : BitVec 64
  key : Bool
  deriving DecidableEq

/-- `video_frame::Union`; other kinds of frames are not recorded. -/
inductive VideoFrame
  | vp8s (frames : List EncodedVideoFrame)
  | vp9s (frames : List EncodedVideoFrame)
  | av1s (frames : List EncodedVideoFrame)
  | h264s (frames : List EncodedVideoFrame)
  | h265s (frames : List EncodedVideoFrame)
  | other

/-- `CodecFormat::from`. -/
def CodecFormat.ofFrame : VideoFrame → CodecFormat
  | .vp8s _ => .vp8
  | .vp9s _ => .vp9
  | .av1s _ => .av1
  | .h264s _ => .h264
  | .h265s _ => .h265
  | .other => .unknown

/-- What is told about the recording. -/
inductive RecordState
  | newFile (filename : String)
  | newFrame
  | writeTail
  | removeFile
  deriving DecidableEq, Repr

/-- `RecorderContext2`. -/
structure RecorderContext where
  filename : String
  width : ℕ
  height : ℕ
  format : CodecFormat
  deriving DecidableEq, Repr

/-- What the system answers when a file is closed and another one opened. -/
structure FileOs where
  /-- `set_filename` -/
  filename : Except String String
  /-- `new` of the file -/
  opened : Except String Unit
  /-- how long the closed file was open -/
  elapsedSecs : ℕ

/-- What the system answers for one frame. -/
structure FrameOs where
  file : FileOs
  /-- whether the muxer took the frame -/
  added : Bool

/-- A frame given to a muxer, with the codec and size of the call that wrote it. -/
structure MuxedFrame where
  frame : EncodedVideoFrame
  timestamp : BitVec 64
  width : ℕ
  height : ℕ
  format : CodecFormat
  deriving DecidableEq

/-- `WebmRecorder`, or `HwRecorder` if `hw` is set. -/
structure RecordFile where
  hw : Bool
  ctx : RecorderContext
  key : Bool
  written : Bool
  /-- what the muxer of a webm file was given -/
  muxed : List MuxedFrame
  deriving DecidableEq

/-- The seconds below which a recording is thrown away. -/
def MIN_SECS : ℕ := 1

namespace RecordFile

/-- `write_video` for a call with this size and format. -/
def writeVideo (file : RecordFile) (frame : EncodedVideoFrame) (width height : ℕ)
    (format : CodecFormat) (ok : Bool) : RecordFile :=
  let file := if frame.key then { file with key := true } else file
  if file.key then
    { file with
      written := file.written || ok
      muxed :=
        if file.hw then file.muxed
        else file.muxed ++ [⟨frame, frame.pts * 1000000#64, width, height, format⟩] }
  else file

/-- What `drop` sends. -/
def tail (file : RecordFile) (elapsedSecs : ℕ) : RecordState :=
  if !file.written ∨ elapsedSecs < MIN_SECS then .removeFile else .writeTail

end RecordFile

/-- The recorder, with the files it has closed. -/
structure Recorder where
  inner : Option RecordFile
  /-- `ctx2` -/
  ctx : Option RecorderContext
  pts : Option (BitVec 64)
  checkFailed : Bool
  /-- whether `ctx.tx` is there -/
  tx : Bool
  closed : List RecordFile
  sent : List RecordState

namespace Recorder

/-- A recorder without a file. -/
def new (tx : Bool) : Recorder := ⟨none, none, none, false, tx, [], []⟩

/-- A message is sent if there is a channel. -/
def sendState (r : Recorder) (state : RecordState) : Recorder :=
  if r.tx then { r with sent := r.sent ++ [state] } else r

/-- `self.inner = None`. -/
def dropInner (r : Recorder) (elapsedSecs : ℕ) : Recorder :=
  match r.inner with
  | none => r
  | some file =>
    { r with inner := none, closed := r.closed ++ [file] }.sendState (file.tail elapsedSecs)

/-- Whether the files of a format are written by the hardware muxer, in a build that may have
it; `none` if they cannot be written. -/
def muxerOf (hwcodec : Bool) : CodecFormat → Option Bool
  | .vp8 | .vp9 | .av1 => some false
  | _ => if hwcodec then some true else none

/-- The last part of `check`: a file is opened if there is none. -/
def openInner (hwcodec : Bool) (r : Recorder) (ctx : RecorderContext) (format : CodecFormat)
    (os : FileOs) : Recorder × Except String Unit :=
  if r.inner.isSome then (r, .ok ())
  else
    match muxerOf hwcodec format with
    | none => (r, .error "unsupported codec type")
    | some hw =>
      match os.opened with
      | .error e => (r, .error e)
      | .ok () =>
        ({ r with inner := some ⟨hw, ctx, false, false, []⟩, pts := none }.sendState
          (.newFile ctx.filename), .ok ())

/-- A file is there for the size and the format, or an error. -/
def check (hwcodec : Bool) (r : Recorder) (width height : ℕ) (format : CodecFormat)
    (os : FileOs) : Recorder × Except String Unit :=
  let changed : RecorderContext → Bool := fun ctx =>
    ctx.width ≠ width || ctx.height ≠ height || ctx.format ≠ format
  match r.ctx.filter fun ctx => !changed ctx with
  | some ctx => r.openInner hwcodec ctx format os
  | none =>
    match os.filename with
    | .error e => (r, .error e)
    | .ok filename =>
      let ctx := ⟨filename, width, height, format⟩
      ({ r with ctx := some ctx }.dropInner os.elapsedSecs).openInner hwcodec ctx format os

/-- A file starts with a key frame, and a time that goes back starts another. -/
def checkPts (hwcodec : Bool) (r : Recorder) (pts : BitVec 64) (key : Bool) (width height : ℕ)
    (format : CodecFormat) (os : FileOs) : Recorder × Except String Unit :=
  if r.pts.isNone && !key then (r, .error "first frame is not key frame")
  else
    let oldPts := r.pts
    let r := { r with pts := some pts }
    if (oldPts.getD 0).toInt > pts.toInt then
      let r := { r.dropInner os.elapsedSecs with ctx := none }
      match r.check hwcodec width height format os with
      | (r, .error e) => ({ r with checkFailed := true }, .error e)
      | (r, .ok ()) => ({ r with pts := some pts }, .ok ())
    else (r, .ok ())

/-- `self.as_mut().map(|x| x.write_video(f))`. -/
def writeInner (r : Recorder) (frame : EncodedVideoFrame) (width height : ℕ)
    (format : CodecFormat) (ok : Bool) : Recorder :=
  { r with inner := r.inner.map fun file => file.writeVideo frame width height format ok }

/-- The loop over the frames of a call. -/
def writeFrames (hwcodec : Bool) (width height : ℕ) (format : CodecFormat) :
    Recorder → List EncodedVideoFrame → (ℕ → FrameOs) → Recorder × Except String Unit
  | r, [], _ => (r, .ok ())
  | r, f :: frames, os =>
    match r.checkPts hwcodec f.pts f.key width height format (os 0).file with
    | (r, .error e) => (r, .error e)
    | (r, .ok ()) =>
      writeFrames hwcodec width height format (r.writeInner f width height format (os 0).added)
        frames fun i => os (i + 1)

/-- The frames that are written, in a build that may have the hardware muxer. -/
def framesOf (hwcodec : Bool) : VideoFrame → Option (List EncodedVideoFrame)
  | .vp8s frames | .vp9s frames | .av1s frames => some frames
  | .h264s frames | .h265s frames => if hwcodec then some frames else none
  | .other => none

/-- A frame is written with all its parts, unless a check failed before. -/
def writeFrame (hwcodec : Bool) (r : Recorder) (frame : VideoFrame) (width height : ℕ)
    (os : FileOs) (frameOs : ℕ → FrameOs) : Recorder × Except String Unit :=
  let format := CodecFormat.ofFrame frame
  if r.checkFailed then (r, .error "check failed")
  else if format = .unknown then (r, .error "unsupported frame type")
  else
    match r.check hwcodec width height format os with
    | (r, .error e) => ({ r with checkFailed := true }, .error e)
    | (r, .ok ()) =>
      match framesOf hwcodec frame with
      | none => (r, .error "unsupported frame type")
      | some frames =>
        match writeFrames hwcodec width height format r frames frameOs with
        | (r, .error e) => (r, .error e)
        | (r, .ok ()) => (r.sendState .newFrame, .ok ())

end Recorder

/-- The calls of a recorder. -/
inductive RecorderEvent
  | writeFrame (frame : VideoFrame) (width height : ℕ) (os : FileOs) (frameOs : ℕ → FrameOs)
  | drop (elapsedSecs : ℕ)

/-- A recorder until it is dropped, and after. -/
structure RecorderRun where
  recorder : Recorder
  dropped : Bool

namespace RecorderRun

/-- One call, until the recorder is dropped. -/
def step (hwcodec : Bool) (s : RecorderRun) (e : RecorderEvent) : Option RecorderRun :=
  if s.dropped then none
  else
    match e with
    | .writeFrame frame width height os frameOs =>
      some ⟨(s.recorder.writeFrame hwcodec frame width height os frameOs).1, false⟩
    | .drop elapsedSecs => some ⟨s.recorder.dropInner elapsedSecs, true⟩

/-- A new recorder, with or without a receiver of its states. -/
def machine (hwcodec tx : Bool) : Machine RecorderRun RecorderEvent :=
  ⟨⟨.new tx, false⟩, step hwcodec⟩

end RecorderRun

end RdWeb.Video
