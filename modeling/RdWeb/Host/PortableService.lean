import Mathlib.Data.BitVec
import RdWeb.Lib.Machine

/-!
# Frames of the portable service

The hand-over of captured frames through shared memory (`portable_service.rs`). The service
process captures in `run_capture` and writes into the memory; the main process takes the frames
out with `CapturerPortable::frame`. What `frame` returns points into the memory. Each write of
the service and each call of the main process is one step here.
-/

namespace RdWeb.PortableService

/-- `i32::MAX`. -/
def I32_MAX : BitVec 32 := 0x7fffffff

/-- `TRUE` and `FALSE` of Windows. -/
def TRUE : BitVec 32 := 1

/-- The value for no. -/
def FALSE : BitVec 32 := 0

/-- `video_qos::MIN_FPS` and `video_qos::MAX_FPS`. -/
def MIN_FPS : ℤ := 1

/-- The greatest rate of frames. -/
def MAX_FPS : ℤ := 120

/-- How often the capture may fail before it falls back. -/
def MAX_DXGI_FAIL_TIME : ℕ := 5

/-- The two numbers of a counter: the writer's and the reader's. -/
structure Counter where
  write : BitVec 32
  read : BitVec 32

namespace Counter

/-- `utils::counter_ready`: there is something new, and the reader has now seen it. -/
def ready (c : Counter) : Bool × Counter :=
  if c.read ≠ c.write then (true, { c with read := c.write }) else (false, c)

/-- `utils::counter_equal`. -/
def equal (c : Counter) : Bool := c.write == c.read

/-- The number `increase_counter` goes on to. -/
def next (iw : BitVec 32) : BitVec 32 := if iw = I32_MAX then 0 else iw + 1

/-- `utils::increase_counter`. Its `ir` is read from the writer's number, too. -/
def increase (c : Counter) : Counter :=
  let iw := c.write
  let ir := c.write
  let iwPlus1 := next iw
  if ir = iwPlus1 then ⟨iwPlus1, iw⟩ else { c with write := iwPlus1 }

/-- The next count is another one. -/
theorem next_ne (iw : BitVec 32) : next iw ≠ iw := by
  rw [next, I32_MAX]
  split_ifs with hmax
  · simp [hmax]
  · intro h
    simp at h

/-- The reader's number is never moved by the writer. -/
theorem increase_eq (c : Counter) : c.increase = { c with write := next c.write } := by
  rw [increase]
  exact if_neg (next_ne c.write).symm

/-- The counter is equal if both ends have counted alike. -/
theorem equal_iff (c : Counter) : c.equal = true ↔ c.write = c.read := by
  rw [equal, beq_iff_eq]

end Counter

/-- What the reader asks of the writer. -/
structure CapturerPara where
  recreate : Bool
  currentDisplay : ℕ
  timeoutMs : BitVec 32

/-- The size of a frame. -/
structure FrameInfo where
  length : ℕ
  width : ℕ
  height : ℕ

/-- A frame the service has captured, with the size of the display. -/
structure CapturedFrame where
  data : List UInt8
  width : ℕ
  height : ℕ

/-- What `set_frame_info` writes for a frame. -/
def CapturedFrame.info (f : CapturedFrame) : FrameInfo := ⟨f.data.length, f.width, f.height⟩

/-- The shared memory from `ADDR_CAPTURER_PARA` on. `infoOf` and `frameOf` are not in the memory:
they tell which captured frame the info and the pixels were last written for. -/
structure SharedMemory where
  para : CapturerPara
  frameInfo : FrameInfo
  wouldblock : BitVec 32
  frameCounter : Counter
  frame : ℕ → UInt8
  infoOf : Option ℕ
  frameOf : Option ℕ

namespace SharedMemory

/-- The memory after `memset`. -/
def zeroed : SharedMemory where
  para := ⟨false, 0, 0⟩
  frameInfo := ⟨0, 0, 0⟩
  wouldblock := 0
  frameCounter := ⟨0, 0⟩
  frame _ := 0
  infoOf := none
  frameOf := none

/-- `utils::set_frame_info`, for the captured frame with the number `k`. -/
def setFrameInfo (m : SharedMemory) (k : ℕ) (info : FrameInfo) : SharedMemory :=
  { m with frameInfo := info, infoOf := some k }

/-- `shmem.write(ADDR_CAPTURE_FRAME, data)`, for the captured frame with the number `k`. -/
def writeFrame (m : SharedMemory) (k : ℕ) (data : List UInt8) : SharedMemory :=
  { m with frame := fun j => data[j]?.getD (m.frame j), frameOf := some k }

/-- The slice of `length` bytes at `ADDR_CAPTURE_FRAME`. -/
def slice (m : SharedMemory) (length : ℕ) : List UInt8 := (List.range length).map m.frame

/-- What was written is what a slice of its length holds. -/
theorem slice_writeFrame (m : SharedMemory) (k : ℕ) (data : List UInt8) :
    (m.writeFrame k data).slice data.length = data := by
  apply List.ext_getElem
  · simp [slice]
  · intro j hj hdata
    simp [slice, writeFrame, List.getElem?_eq_getElem hdata]

end SharedMemory

/-- `PixelBuffer`: a slice of the shared memory with a size. `infoOf` is the captured frame
whose info `frame` has read. -/
structure PixelBuffer where
  length : ℕ
  width : ℕ
  height : ℕ
  stride : ℕ
  infoOf : Option ℕ

/-- `PixelBuffer::new`, which divides by the height. -/
def PixelBuffer.new (length width height : ℕ) (infoOf : Option ℕ) : Option PixelBuffer :=
  if height = 0 then none else some ⟨length, width, height, length / height, infoOf⟩

/-- The errors that are told apart. -/
inductive ErrorKind
  | wouldBlock
  | other
  deriving DecidableEq

/-- What a call of `frame` ends in. -/
inductive FrameResult
  | ok (buffer : PixelBuffer)
  | error (kind : ErrorKind) (message : String)
  | panic

/-- The size of a display. -/
structure Display where
  width : ℕ
  height : ℕ

/-- `client::CapturerPortable`. -/
structure CapturerPortable where
  width : ℕ
  height : ℕ

namespace CapturerPortable

/-- `CapturerPortable::new`; `displays` is what `try_get_displays` returns. -/
def new (currentDisplay : ℕ) (displays : Option (List Display)) :
    CapturerPortable × SharedMemory :=
  let memory := { SharedMemory.zeroed with
    para := ⟨true, currentDisplay, 33⟩
    wouldblock := TRUE }
  match displays.bind fun displays => displays[currentDisplay]? with
  | some display => (⟨display.width, display.height⟩, memory)
  | none => (⟨0, 0⟩, memory)

/-- The start of `frame`, which passes a new timeout on. -/
def passTimeout (timeout : ℕ) (m : SharedMemory) : SharedMemory :=
  if timeout ≠ (m.para.timeoutMs.signExtend 128).toNat then
    { m with para := { m.para with timeoutMs := BitVec.ofNat 32 timeout } }
  else m

/-- The frame at hand has the size this capturer was made for. -/
def Fits (c : CapturerPortable) (m : SharedMemory) : Prop :=
  m.frameInfo.width = c.width ∧ m.frameInfo.height = c.height

/-- Whether a capturer fits the memory is decided by their sizes. -/
instance (c : CapturerPortable) (m : SharedMemory) : Decidable (c.Fits m) :=
  inferInstanceAs (Decidable (_ ∧ _))

/-- `TraitCapturer::frame`, with a timeout in milliseconds. -/
def frame (c : CapturerPortable) (timeout : ℕ) (m : SharedMemory) :
    FrameResult × SharedMemory :=
  let m := passTimeout timeout m
  match m.frameCounter.ready with
  | (true, counter) =>
    let m := { m with frameCounter := counter }
    if c.Fits m then
      match PixelBuffer.new m.frameInfo.length c.width c.height m.infoOf with
      | some buffer => (.ok buffer, m)
      | none => (.panic, m)
    else (.error .wouldBlock "wouldblock error", m)
  | (false, counter) =>
    let m := { m with frameCounter := counter }
    if m.wouldblock = TRUE then (.error .wouldBlock "wouldblock error", m)
    else (.error .other "other error", m)

end CapturerPortable

/-- Where `run_capture` is in its loop. -/
inductive CapturePhase
  | loopStart
  | waitEqual
  | captureFrame
  | setFrameInfo (data : List UInt8)
  | writeFrame (data : List UInt8)
  | writeWouldblock
  | increaseCounter
  | ended

/-- A captured frame is being written. -/
def CapturePhase.writing : CapturePhase → Bool
  | .setFrameInfo _ | .writeFrame _ | .writeWouldblock | .increaseCounter => true
  | _ => false

/-- The local variables of `run_capture`; `c` tells whether there is a capturer. -/
structure RunCapture where
  phase : CapturePhase
  c : Bool
  lastCurrentDisplay : ℕ
  lastTimeoutMs : BitVec 32
  firstFrameCaptured : Bool
  dxgiFailedTimes : ℕ
  displayWidth : ℕ
  displayHeight : ℕ

/-- What a capturer answers; `isGdi` is its `is_gdi()` after a failure. -/
inductive CaptureResult
  | pixelBuffer (data : List UInt8)
  | texture
  | error (desktopChanged wouldBlock isGdi : Bool)

/-- Both processes and the memory between them. `held n` is what the last call of `frame` on the
capturer `n` has returned. `captured`, `returned` and `superseded` are no variables of the code:
the frames captured so far, the numbers of those that were returned, and how many had been
captured when a capturer was last created. -/
structure HandOver where
  memory : SharedMemory
  exit : Bool
  capture : RunCapture
  capturers : ℕ → Option CapturerPortable
  held : ℕ → Option PixelBuffer
  poisoned : Bool
  captured : List CapturedFrame
  returned : List ℕ
  superseded : ℕ

/-- What the service and the capturers do. -/
inductive PortableEvent
  | setExit
  | loopStart (displays : Option (List Display)) (created : Bool)
  | waitEqual
  | captureFrame (result : CaptureResult)
  | setFrameInfo
  | writeFrame
  | writeWouldblock
  | increaseCounter
  | newCapturer (n currentDisplay : ℕ) (displays : Option (List Display))
  | frame (n timeout : ℕ)

namespace HandOver

/-- The memory is as `start_portable_service` leaves it; `last_current_display` is
`usize::MAX`. -/
def init : HandOver where
  memory := .zeroed
  exit := false
  capture := ⟨.loopStart, false, 2 ^ 64 - 1, 33, false, 0, 0, 0⟩
  capturers _ := none
  held _ := none
  poisoned := false
  captured := []
  returned := []
  superseded := 0

/-- The capture goes on to a phase. -/
def setPhase (s : HandOver) (phase : CapturePhase) : HandOver :=
  { s with capture := { s.capture with phase := phase } }

/-- The shared memory changes. -/
def setMemory (s : HandOver) (memory : SharedMemory) : HandOver :=
  { s with memory := memory }

/-- The loop cannot go on without displays. -/
def giveUp (s : HandOver) : HandOver :=
  { s.setPhase .ended with exit := true }

/-- `c = None`. -/
def dropCapturer (s : HandOver) : HandOver :=
  { s with capture := { s.capture with c := false, phase := .loopStart } }

/-- `run_capture` where `c` is `None`; `created` tells whether `Capturer::new` succeeds. -/
def createCapturer (s : HandOver) (displays : Option (List Display)) (created : Bool) :
    HandOver :=
  match displays with
  | none => s.giveUp
  | some displays =>
    match displays[s.memory.para.currentDisplay]? with
    | none => s.giveUp
    | some display =>
      if created then
        { s with
          capture := { s.capture with
            phase := .waitEqual
            c := true
            lastCurrentDisplay := s.memory.para.currentDisplay
            firstFrameCaptured := false
            dxgiFailedTimes :=
              if s.capture.dxgiFailedTimes > MAX_DXGI_FAIL_TIME then 0
              else s.capture.dxgiFailedTimes
            displayWidth := display.width
            displayHeight := display.height }
          memory := { s.memory with para := { s.memory.para with recreate := false } }
          superseded := s.captured.length }
      else
        { s with capture := { s.capture with
            displayWidth := display.width, displayHeight := display.height } }

/-- The loop of `run_capture` up to the wait. -/
def loopStart (s : HandOver) (displays : Option (List Display)) (created : Bool) :
    HandOver :=
  let para := s.memory.para
  if s.exit then s.setPhase .ended
  else if s.capture.c = false then s.createCapturer displays created
  else if para.recreate ∨ para.currentDisplay ≠ s.capture.lastCurrentDisplay then s.dropCapturer
  else if para.timeoutMs ≠ s.capture.lastTimeoutMs ∧ 1000 / MAX_FPS ≤ para.timeoutMs.toInt ∧
      para.timeoutMs.toInt ≤ 1000 / MIN_FPS then
    { s with capture := { s.capture with
        phase := .waitEqual, lastTimeoutMs := para.timeoutMs } }
  else s.setPhase .waitEqual

/-- The wait for `counter_equal`, which the first frame of a capturer skips. -/
def waitEqual (s : HandOver) : HandOver :=
  if s.capture.firstFrameCaptured ∧ s.memory.frameCounter.equal = false then
    s.setPhase .loopStart
  else s.setPhase .captureFrame

/-- `f.frame(spf)` and what happens to its failures. -/
def captureFrame (s : HandOver) : CaptureResult → HandOver
  | .pixelBuffer data =>
    { s.setPhase (.setFrameInfo data) with
      captured :=
        s.captured ++ [⟨data, s.capture.displayWidth, s.capture.displayHeight⟩] }
  | .texture => s.setPhase .loopStart
  | .error desktopChanged wouldBlock isGdi =>
    if desktopChanged then s.dropCapturer
    else if wouldBlock then
      (s.setPhase .loopStart).setMemory { s.memory with wouldblock := TRUE }
    else
      let dxgiFailedTimes :=
        if isGdi then s.capture.dxgiFailedTimes else s.capture.dxgiFailedTimes + 1
      let s := { s with capture := { s.capture with dxgiFailedTimes := dxgiFailedTimes } }
      if dxgiFailedTimes > MAX_DXGI_FAIL_TIME then
        s.dropCapturer.setMemory { s.memory with wouldblock := FALSE }
      else s.setPhase .loopStart

/-- The number of the frame captured last. -/
def last (s : HandOver) : ℕ := s.captured.length - 1

/-- The writes of `run_capture` for the frame captured last. -/
def setFrameInfo (s : HandOver) (data : List UInt8) : HandOver :=
  (s.setPhase (.writeFrame data)).setMemory (s.memory.setFrameInfo s.last
    ⟨data.length, s.capture.displayWidth, s.capture.displayHeight⟩)

/-- The data of the frame is written. -/
def writeFrame (s : HandOver) (data : List UInt8) : HandOver :=
  (s.setPhase .writeWouldblock).setMemory (s.memory.writeFrame s.last data)

/-- It is written that there is a frame. -/
def writeWouldblock (s : HandOver) : HandOver :=
  (s.setPhase .increaseCounter).setMemory { s.memory with wouldblock := TRUE }

/-- The frame is counted. -/
def increaseCounter (s : HandOver) : HandOver :=
  { s with
    capture := { s.capture with
      phase := .loopStart, firstFrameCaptured := true, dxgiFailedTimes := 0 }
    memory := { s.memory with frameCounter := s.memory.frameCounter.increase } }

/-- `CapturerPortable::new` of the main process. -/
def newCapturer (s : HandOver) (n currentDisplay : ℕ)
    (displays : Option (List Display)) : HandOver :=
  let (capturer, memory) := CapturerPortable.new currentDisplay displays
  { s with
    memory := memory
    capturers := Function.update s.capturers n (some capturer)
    held := Function.update s.held n none
    superseded := s.captured.length }

/-- A call of `frame` on the capturer `n`. A panic poisons the lock around the memory. -/
def callFrame (s : HandOver) (n : ℕ) (c : CapturerPortable) (timeout : ℕ) :
    HandOver :=
  let (result, memory) := c.frame timeout s.memory
  match result with
  | .ok buffer =>
    { s with
      memory := memory
      held := Function.update s.held n (some buffer)
      returned := buffer.infoOf.toList ++ s.returned }
  | .error _ _ => { s with memory := memory, held := Function.update s.held n none }
  | .panic =>
    { s with memory := memory, held := Function.update s.held n none, poisoned := true }

/-- One step of the service or of a capturer. -/
def step (s : HandOver) : PortableEvent → Option HandOver
  | .setExit => some { s with exit := true }
  | .loopStart displays created =>
    match s.capture.phase with
    | .loopStart => some (s.loopStart displays created)
    | _ => none
  | .waitEqual =>
    match s.capture.phase with
    | .waitEqual => some s.waitEqual
    | _ => none
  | .captureFrame result =>
    match s.capture.phase with
    | .captureFrame => some (s.captureFrame result)
    | _ => none
  | .setFrameInfo =>
    match s.capture.phase with
    | .setFrameInfo data => some (s.setFrameInfo data)
    | _ => none
  | .writeFrame =>
    match s.capture.phase with
    | .writeFrame data => some (s.writeFrame data)
    | _ => none
  | .writeWouldblock =>
    match s.capture.phase with
    | .writeWouldblock => some s.writeWouldblock
    | _ => none
  | .increaseCounter =>
    match s.capture.phase with
    | .increaseCounter => some s.increaseCounter
    | _ => none
  | .newCapturer n currentDisplay displays =>
    if s.poisoned then none else some (s.newCapturer n currentDisplay displays)
  | .frame n timeout =>
    if s.poisoned then none
    else (s.capturers n).map fun c => s.callFrame n c timeout

/-- The two processes, taking their steps in any order. -/
def machine : Machine HandOver PortableEvent := ⟨init, step⟩

end HandOver

end RdWeb.PortableService
