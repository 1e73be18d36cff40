import RdWeb.Lib.Machine
import RdWeb.Lib.SideQueue

/-!
# Video frames between two threads

The message loop of the desktop client hands the frames of a display to its decoder thread.
What contains a key frame goes through the channel. Any other frame waits in a bounded queue,
and the channel carries a token for it. A step is a piece of code of one thread that the
other cannot come between.
-/

namespace RdWeb.Client.VideoQueue

/-- A frame as the encoder gives it, of which only the key flag is used. -/
structure EncodedVideoFrame where
  key : Bool
  deriving DecidableEq

/-- `video_frame::Union`. -/
inductive FrameUnion
  | vp8s (frames : List EncodedVideoFrame)
  | vp9s (frames : List EncodedVideoFrame)
  | av1s (frames : List EncodedVideoFrame)
  | h264s (frames : List EncodedVideoFrame)
  | h265s (frames : List EncodedVideoFrame)
  | rgb
  | yuv
  deriving DecidableEq

/-- A frame of the display, with its place among those that arrived. -/
structure VideoFrame where
  number : ℕ
  union : Option FrameUnion
  deriving DecidableEq

/-- One of the frames of a message is a key frame. -/
def VideoFrame.containsKeyFrame (vf : VideoFrame) : Bool :=
  match vf.union with
  | some (.vp8s frames) | some (.vp9s frames) | some (.av1s frames) | some (.h264s frames)
  | some (.h265s frames) => frames.any EncodedVideoFrame.key
  | some .rgb | some .yuv | none => false

/-- The messages to the decoder thread. -/
inductive MediaData
  | videoQueue
  | videoFrame (vf : VideoFrame)
  | reset
  | recordScreen (start : Bool)
  deriving DecidableEq

/-- The frames that a queue holds. -/
def videoQueueSize : ℕ := 120

/-- Where the message loop is. -/
inductive LoopPhase
  | idle
  /-- `force_push` found room. -/
  | pushed
  /-- `force_push` replaced the oldest frame. -/
  | replaced
  /-- The thread's sender was dropped. -/
  | gone
  deriving DecidableEq

/-- Where the decoder thread is. -/
inductive DecoderPhase
  | idle
  | received (vf : VideoFrame)
  | receivedToken
  | popped (vf : VideoFrame)
  | exited
  deriving DecidableEq

/-- What becomes of a frame. -/
inductive Outcome
  /-- The decoder thread has the frame. -/
  | taken (vf : VideoFrame)
  | decoded (vf : VideoFrame)
  /-- Thrown away by the decoder thread, as `discard_queue` says. -/
  | skipped (vf : VideoFrame)
  /-- Replaced in the full queue. -/
  | dropped (vf : VideoFrame)
  /-- There was a token and no frame. -/
  | missed
  /-- `refresh_video`. -/
  | refreshAsked
  deriving DecidableEq

/-- A `VideoThread` with its decoder, and what happened to the frames, oldest first. -/
structure VideoThread where
  videoQueue : List VideoFrame
  channel : List MediaData
  discardQueue : Bool
  loop : LoopPhase
  decoder : DecoderPhase
  arrived : List VideoFrame
  log : List Outcome
  deriving DecidableEq

/-- The steps of the loop and of the decoder thread. -/
inductive Event
  /-- A frame of the display arrives. -/
  | frame (union : Option FrameUnion)
  /-- What comes after `force_push`. -/
  | afterPush
  /-- The loop sends a request to refresh the video. -/
  | refresh
  /-- The loop sends the decoder `Reset` or `RecordScreen`. -/
  | reset
  | recordScreen (start : Bool)
  | drop
  /-- `video_receiver.recv()`. -/
  | recv
  /-- The decoder thread goes on with what it received; decoding may fail. -/
  | goOn (failed : Bool)
  deriving DecidableEq

namespace VideoThread

/-- A message goes into the channel. -/
def send (s : VideoThread) (data : MediaData) : VideoThread :=
  { s with channel := s.channel ++ [data] }

/-- Outcomes are noted. -/
def note (s : VideoThread) (outcomes : List Outcome) : VideoThread :=
  { s with log := s.log ++ outcomes }

/-- `ArrayQueue::force_push`. -/
def forcePush (s : VideoThread) (vf : VideoFrame) : VideoThread :=
  match s.videoQueue with
  | oldest :: rest =>
    if s.videoQueue.length < videoQueueSize then
      { s with videoQueue := s.videoQueue ++ [vf], loop := .pushed }
    else
      { s with videoQueue := rest ++ [vf], loop := .replaced }.note [.dropped oldest]
  | [] => { s with videoQueue := [vf], loop := .pushed }

/-- `handle_msg_from_peer` for a video frame, up to the push. -/
def handleVideoFrame (s : VideoThread) (union : Option FrameUnion) : VideoThread :=
  let vf : VideoFrame := ⟨s.arrived.length, union⟩
  let s := { s with arrived := s.arrived ++ [vf] }
  if vf.containsKeyFrame then s.send (.videoFrame vf) else s.forcePush vf

/-- The decoder thread takes what the channel has, or ends with it. -/
def recv (s : VideoThread) : Option VideoThread :=
  match s.channel with
  | [] => if s.loop = .gone then some { s with decoder := .exited } else none
  | .videoFrame vf :: channel =>
    some ({ s with channel, decoder := .received vf }.note [.taken vf])
  | .videoQueue :: channel => some { s with channel, decoder := .receivedToken }
  | .reset :: channel => some { s with channel }
  | .recordScreen _ :: channel => some { s with channel }

/-- `handle_frame`, which asks for a refresh when it fails. -/
def decode (s : VideoThread) (vf : VideoFrame) (failed : Bool) : VideoThread :=
  { s with decoder := .idle }.note (.decoded vf :: if failed then [.refreshAsked] else [])

/-- The decoder thread after `recv`. -/
def goOn (s : VideoThread) (failed : Bool) : Option VideoThread :=
  match s.decoder with
  | .received vf => some ({ s with discardQueue := false }.decode vf failed)
  | .receivedToken =>
    match s.videoQueue with
    | vf :: videoQueue => some ({ s with videoQueue, decoder := .popped vf }.note [.taken vf])
    | [] => some ({ s with decoder := .idle }.note [.missed])
  | .popped vf =>
    if s.discardQueue then some ({ s with decoder := .idle }.note [.skipped vf])
    else some (s.decode vf failed)
  | .idle | .exited => none

/-- One step of the loop or of the decoder thread. -/
def step (s : VideoThread) : Event → Option VideoThread
  | .frame union => if s.loop = .idle then some (s.handleVideoFrame union) else none
  | .afterPush =>
    match s.loop with
    | .pushed => some ({ s with loop := .idle }.send .videoQueue)
    | .replaced => some ({ s with loop := .idle }.note [.refreshAsked])
    | .idle | .gone => none
  | .refresh => if s.loop = .idle then some { s with discardQueue := true } else none
  | .reset => if s.loop = .idle then some (s.send .reset) else none
  | .recordScreen start => if s.loop = .idle then some (s.send (.recordScreen start)) else none
  | .drop =>
    if s.loop = .idle then some { s with discardQueue := true, loop := .gone } else none
  | .recv => if s.decoder = .idle then s.recv else none
  | .goOn failed => s.goOn failed

end VideoThread

/-- `new_video_thread`. -/
def machine : Machine VideoThread Event where
  init := ⟨[], [], false, .idle, .idle, [], []⟩
  step := VideoThread.step

end RdWeb.Client.VideoQueue
