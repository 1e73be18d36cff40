import RdWeb.Client.VideoQueue
import Mathlib.Data.Nat.Basic

/-!
# Which frames are decoded, and in which order

The tokens of the channel match the frames of the queue in every state. Every frame is
accounted for, and the frames come out in the order they arrived in exactly the runs where
the full queue never drops a frame with a key frame waiting behind a token.
-/

namespace RdWeb.Client.VideoQueue

open SideQueue

/-! ### What the state says of the frames -/

/-- The frame that the loop sent over the channel, if it is one. -/
def MediaData.frame? : MediaData → Option VideoFrame
  | .videoFrame vf => some vf
  | _ => none

/-- A frame, or the token of one; the other messages are not in line. -/
def MediaData.entry? : MediaData → Option (Option VideoFrame)
  | .videoFrame vf => some (some vf)
  | .videoQueue => some none
  | _ => none

/-- The frame that the decoder thread took. -/
def Outcome.taken? : Outcome → Option VideoFrame
  | .taken vf => some vf
  | _ => none

/-- The frame whose fate is decided. -/
def Outcome.decided? : Outcome → Option VideoFrame
  | .decoded vf | .skipped vf => some vf
  | _ => none

/-- A frame that left the queue. -/
def Outcome.removed? : Outcome → Option VideoFrame
  | .taken vf => if vf.containsKeyFrame then none else some vf
  | .dropped vf => some vf
  | _ => none

/-- The token that the decoder thread has in hand. -/
def DecoderPhase.tokens : DecoderPhase → List (Option VideoFrame)
  | .receivedToken => [none]
  | _ => []

/-- The frame that the decoder thread has in hand. -/
def DecoderPhase.inHand : DecoderPhase → List VideoFrame
  | .received vf | .popped vf => [vf]
  | _ => []

/-- The token that the loop owes the channel. -/
def LoopPhase.tokens : LoopPhase → List (Option VideoFrame)
  | .pushed => [none]
  | _ => []

/-- The frames the decoder thread got, one way or the other. -/
def taken (log : List Outcome) : List VideoFrame := log.filterMap Outcome.taken?

/-- The frames decoded or skipped, in this order. -/
def decided (log : List Outcome) : List VideoFrame := log.filterMap Outcome.decided?

/-- The frames replaced in the queue, in this order. -/
def removed (log : List Outcome) : List VideoFrame := log.filterMap Outcome.removed?

/-- The frames that wait in the channel. -/
def waiting (channel : List MediaData) : List VideoFrame := channel.filterMap MediaData.frame?

section Lists

variable (log more : List Outcome) (channel others : List MediaData)

/-- The frames taken, part by part. -/
@[simp] theorem taken_append : taken (log ++ more) = taken log ++ taken more :=
  List.filterMap_append ..

/-- The frames decided, part by part. -/
@[simp] theorem decided_append : decided (log ++ more) = decided log ++ decided more :=
  List.filterMap_append ..

/-- The frames removed, part by part. -/
@[simp] theorem removed_append : removed (log ++ more) = removed log ++ removed more :=
  List.filterMap_append ..

/-- The frames taken, one outcome at a time. -/
@[simp] theorem taken_cons (outcome : Outcome) :
    taken (outcome :: log) = outcome.taken?.toList ++ taken log := by
  cases h : outcome.taken? <;> simp [taken, h]

/-- The frames decided, one outcome at a time. -/
@[simp] theorem decided_cons (outcome : Outcome) :
    decided (outcome :: log) = outcome.decided?.toList ++ decided log := by
  cases h : outcome.decided? <;> simp [decided, h]

/-- The frames removed, one outcome at a time. -/
@[simp] theorem removed_cons (outcome : Outcome) :
    removed (outcome :: log) = outcome.removed?.toList ++ removed log := by
  cases h : outcome.removed? <;> simp [removed, h]

/-- Nothing is taken at first. -/
@[simp] theorem taken_nil : taken [] = [] := rfl

/-- Nothing is decided at first. -/
@[simp] theorem decided_nil : decided [] = [] := rfl

/-- Nothing is removed at first. -/
@[simp] theorem removed_nil : removed [] = [] := rfl

/-- The frames that wait, part by part. -/
@[simp] theorem waiting_append :
    waiting (channel ++ others) = waiting channel ++ waiting others :=
  List.filterMap_append ..

/-- The frames that wait, one message at a time. -/
@[simp] theorem waiting_cons (data : MediaData) :
    waiting (data :: channel) = data.frame?.toList ++ waiting channel := by
  cases h : data.frame? <;> simp [waiting, h]

/-- Nothing waits in an empty channel. -/
@[simp] theorem waiting_nil : waiting [] = [] := rfl

end Lists

namespace VideoThread

variable {s t : VideoThread}

/-- The frames and tokens on the way to the decoder, with the token that is about to be sent. -/
def lane (s : VideoThread) : List (Option VideoFrame) :=
  s.decoder.tokens ++ s.channel.filterMap MediaData.entry? ++ s.loop.tokens

/-- The frames in the order in which the decoder thread gets them. -/
def line (s : VideoThread) : List VideoFrame := taken s.log ++ lineUp s.lane s.videoQueue

/-! ### What a step does -/

/-- A step, with what it changes. -/
inductive Effect (s : VideoThread) : Event → VideoThread → Prop
  | key {union : Option FrameUnion} (hloop : s.loop = .idle)
      (hkey : VideoFrame.containsKeyFrame ⟨s.arrived.length, union⟩ = true) :
      Effect s (.frame union)
        { s with
          arrived := s.arrived ++ [⟨s.arrived.length, union⟩]
          channel := s.channel ++ [.videoFrame ⟨s.arrived.length, union⟩] }
  | room {union : Option FrameUnion} (hloop : s.loop = .idle)
      (hkey : VideoFrame.containsKeyFrame ⟨s.arrived.length, union⟩ = false)
      (hroom : s.videoQueue.length < videoQueueSize) :
      Effect s (.frame union)
        { s with
          arrived := s.arrived ++ [⟨s.arrived.length, union⟩]
          videoQueue := s.videoQueue ++ [⟨s.arrived.length, union⟩]
          loop := .pushed }
  | full {union : Option FrameUnion} {oldest : VideoFrame} {rest : List VideoFrame}
      (hloop : s.loop = .idle)
      (hkey : VideoFrame.containsKeyFrame ⟨s.arrived.length, union⟩ = false)
      (hqueue : s.videoQueue = oldest :: rest) (hfull : videoQueueSize ≤ s.videoQueue.length) :
      Effect s (.frame union)
        { s with
          arrived := s.arrived ++ [⟨s.arrived.length, union⟩]
          videoQueue := rest ++ [⟨s.arrived.length, union⟩]
          loop := .replaced
          log := s.log ++ [.dropped oldest] }
  | token (hloop : s.loop = .pushed) :
      Effect s .afterPush { s with loop := .idle, channel := s.channel ++ [.videoQueue] }
  | askRefresh (hloop : s.loop = .replaced) :
      Effect s .afterPush { s with loop := .idle, log := s.log ++ [.refreshAsked] }
  | refresh (hloop : s.loop = .idle) : Effect s .refresh { s with discardQueue := true }
  | control {e : Event} {data : MediaData} (hloop : s.loop = .idle)
      (hevent : e = .reset ∨ ∃ start, e = .recordScreen start) (hdata : data.entry? = none)
      (hframe : data.frame? = none) : Effect s e { s with channel := s.channel ++ [data] }
  | drop (hloop : s.loop = .idle) : Effect s .drop { s with discardQueue := true, loop := .gone }
  | exit (hdecoder : s.decoder = .idle) : Effect s .recv { s with decoder := .exited }
  | takeKey {vf : VideoFrame} {channel : List MediaData} (hdecoder : s.decoder = .idle)
      (hchannel : s.channel = .videoFrame vf :: channel) :
      Effect s .recv { s with channel, decoder := .received vf, log := s.log ++ [.taken vf] }
  | takeToken {channel : List MediaData} (hdecoder : s.decoder = .idle)
      (hchannel : s.channel = .videoQueue :: channel) :
      Effect s .recv { s with channel, decoder := .receivedToken }
  | takeControl {data : MediaData} {channel : List MediaData} (hdecoder : s.decoder = .idle)
      (hchannel : s.channel = data :: channel) (hdata : data.entry? = none)
      (hframe : data.frame? = none) : Effect s .recv { s with channel }
  | decodeKey {vf : VideoFrame} {failed : Bool} (hdecoder : s.decoder = .received vf) :
      Effect s (.goOn failed)
        { s with
          discardQueue := false
          decoder := .idle
          log := s.log ++ .decoded vf :: if failed then [.refreshAsked] else [] }
  | pop {vf : VideoFrame} {videoQueue : List VideoFrame} {failed : Bool}
      (hdecoder : s.decoder = .receivedToken) (hqueue : s.videoQueue = vf :: videoQueue) :
      Effect s (.goOn failed)
        { s with videoQueue, decoder := .popped vf, log := s.log ++ [.taken vf] }
  | miss {failed : Bool} (hdecoder : s.decoder = .receivedToken) (hqueue : s.videoQueue = []) :
      Effect s (.goOn failed) { s with decoder := .idle, log := s.log ++ [.missed] }
  | skip {vf : VideoFrame} {failed : Bool} (hdecoder : s.decoder = .popped vf)
      (hdiscard : s.discardQueue = true) :
      Effect s (.goOn failed) { s with decoder := .idle, log := s.log ++ [.skipped vf] }
  | decode {vf : VideoFrame} {failed : Bool} (hdecoder : s.decoder = .popped vf)
      (hdiscard : s.discardQueue = false) :
      Effect s (.goOn failed)
        { s with
          decoder := .idle
          log := s.log ++ .decoded vf :: if failed then [.refreshAsked] else [] }

/-- What an arriving frame does. -/
theorem effect_of_handleVideoFrame (hloop : s.loop = .idle) (union : Option FrameUnion) :
    Effect s (.frame union) (s.handleVideoFrame union) := by
  unfold handleVideoFrame
  dsimp only
  split_ifs with hkey
  · exact .key hloop hkey
  · have hkey : VideoFrame.containsKeyFrame ⟨s.arrived.length, union⟩ = false := by
      simpa using hkey
    unfold forcePush
    dsimp only
    split
    · rename_i oldest rest hqueue
      split_ifs with hroom
      · exact .room hloop hkey hroom
      · exact .full hloop hkey hqueue (Nat.le_of_not_lt hroom)
    · rename_i hqueue
      have hroom : s.videoQueue.length < videoQueueSize := by simp [hqueue, videoQueueSize]
      have heffect : Effect s (.frame union) _ := .room hloop hkey hroom
      rwa [hqueue, List.nil_append] at heffect

/-- What receiving does. -/
theorem effect_of_recv (hdecoder : s.decoder = .idle) (h : s.recv = some t) : Effect s .recv t := by
  unfold recv at h
  split at h
  · split_ifs at h
    cases h
    exact .exit hdecoder
  all_goals
    rename_i hchannel
    cases h
  · exact .takeKey hdecoder hchannel
  · exact .takeToken hdecoder hchannel
  · exact .takeControl hdecoder hchannel rfl rfl
  · exact .takeControl hdecoder hchannel rfl rfl

/-- What the decoder thread does after receiving. -/
theorem effect_of_goOn {failed : Bool} (h : s.goOn failed = some t) :
    Effect s (.goOn failed) t := by
  unfold goOn at h
  split at h
  · rename_i hdecoder
    cases h
    exact .decodeKey hdecoder
  · rename_i hdecoder
    split at h
    · rename_i hqueue
      cases h
      exact .pop hdecoder hqueue
    · rename_i hqueue
      cases h
      exact .miss hdecoder hqueue
  · rename_i hdecoder
    split_ifs at h with hdiscard
    · cases h
      exact .skip hdecoder hdiscard
    · cases h
      exact .decode hdecoder (by simpa using hdiscard)
  · cases h
  · cases h

/-- What a step does, whatever it is. -/
theorem effect_of_step {e : Event} (h : s.step e = some t) : Effect s e t := by
  cases e with
  | frame union =>
    obtain ⟨hloop, heq⟩ := Option.ite_none_right_eq_some.mp h
    cases heq
    exact effect_of_handleVideoFrame hloop union
  | afterPush =>
    rw [step] at h
    split at h
    · rename_i hloop
      cases h
      exact .token hloop
    · rename_i hloop
      cases h
      exact .askRefresh hloop
    all_goals cases h
  | refresh =>
    obtain ⟨hloop, heq⟩ := Option.ite_none_right_eq_some.mp h
    cases heq
    exact .refresh hloop
  | reset =>
    obtain ⟨hloop, heq⟩ := Option.ite_none_right_eq_some.mp h
    cases heq
    exact .control hloop (.inl rfl) rfl rfl
  | recordScreen start =>
    obtain ⟨hloop, heq⟩ := Option.ite_none_right_eq_some.mp h
    cases heq
    exact .control hloop (.inr ⟨start, rfl⟩) rfl rfl
  | drop =>
    obtain ⟨hloop, heq⟩ := Option.ite_none_right_eq_some.mp h
    cases heq
    exact .drop hloop
  | recv =>
    obtain ⟨hdecoder, h⟩ := Option.ite_none_right_eq_some.mp h
    exact effect_of_recv hdecoder h
  | goOn failed => exact effect_of_goOn h

/-! ### Every frame is accounted for -/

/-- The tokens on the way are as many as the frames of the queue. -/
def Synced (s : VideoThread) : Prop := SideQueue.tokens s.lane = s.videoQueue.length

/-- **One step** keeps the tokens in step with the queue. -/
theorem synced_step {e : Event} (h : s.step e = some t) (hs : Synced s) : Synced t := by
  unfold Synced lane at hs ⊢
  cases effect_of_step h with
  | key => simpa [MediaData.entry?] using hs
  | room hloop =>
    simp [hloop, LoopPhase.tokens] at hs ⊢
    omega
  | full hloop _ hqueue =>
    simp [hloop, hqueue, LoopPhase.tokens] at hs ⊢
    omega
  | token hloop =>
    simp [hloop, LoopPhase.tokens, MediaData.entry?] at hs ⊢
    omega
  | askRefresh hloop => simpa [hloop, LoopPhase.tokens] using hs
  | refresh => exact hs
  | control _ _ hdata => simpa [hdata] using hs
  | drop hloop => simpa [hloop, LoopPhase.tokens] using hs
  | exit hdecoder => simpa [hdecoder, DecoderPhase.tokens] using hs
  | takeKey hdecoder hchannel =>
    simpa [hdecoder, hchannel, DecoderPhase.tokens, MediaData.entry?] using hs
  | takeToken hdecoder hchannel =>
    simp [hdecoder, hchannel, DecoderPhase.tokens, MediaData.entry?] at hs ⊢
    omega
  | takeControl hdecoder hchannel hdata => simpa [hchannel, hdata] using hs
  | decodeKey hdecoder => simpa [hdecoder, DecoderPhase.tokens] using hs
  | pop hdecoder hqueue =>
    simp [hdecoder, hqueue, DecoderPhase.tokens] at hs ⊢
    omega
  | miss hdecoder hqueue => simp [hdecoder, hqueue, DecoderPhase.tokens] at hs
  | skip hdecoder => simpa [hdecoder, DecoderPhase.tokens] using hs
  | decode hdecoder => simpa [hdecoder, DecoderPhase.tokens] using hs

/-- Every frame is accounted for. -/
structure Accounted (s : VideoThread) : Prop where
  synced : Synced s
  queue_le : s.videoQueue.length ≤ videoQueueSize
  /-- No frame with a key frame is lost, and these come in the order of their arrival. -/
  keys : s.arrived.filter VideoFrame.containsKeyFrame =
    (taken s.log).filter VideoFrame.containsKeyFrame ++ waiting s.channel
  waiting_keys : ∀ vf ∈ waiting s.channel, vf.containsKeyFrame = true
  /-- The others leave the queue in the order of their arrival, taken or dropped. -/
  others : s.arrived.filter (!·.containsKeyFrame) = removed s.log ++ s.videoQueue
  decided : taken s.log = decided s.log ++ s.decoder.inHand
  popped : ∀ vf, s.decoder = .popped vf → vf.containsKeyFrame = false
  /-- Only the others are thrown away by the decoder thread. -/
  skipped : ∀ vf, .skipped vf ∈ s.log → vf.containsKeyFrame = false
  /-- There is a frame for every token. -/
  not_missed : .missed ∉ s.log

/-- At first every frame is accounted for. -/
theorem accounted_init : Accounted machine.init := by
  constructor <;> simp [machine, Synced, lane, taken, VideoQueue.decided, removed,
    DecoderPhase.tokens, LoopPhase.tokens, DecoderPhase.inHand]

/-- The frames of the queue have no key frame. -/
theorem Accounted.queue_others (h : Accounted s) (vf : VideoFrame) (hmem : vf ∈ s.videoQueue) :
    vf.containsKeyFrame = false := by
  have harrived : vf ∈ s.arrived.filter (!·.containsKeyFrame) := by
    rw [h.others]
    exact List.mem_append_right _ hmem
  simpa using (List.mem_filter.mp harrived).2

/-- What `handle_frame` notes leaves the lists of the frames that were taken or removed. -/
theorem lists_decode (vf : VideoFrame) (failed : Bool) :
    taken (.decoded vf :: if failed then [.refreshAsked] else []) = [] ∧
    decided (.decoded vf :: if failed then [.refreshAsked] else []) = [vf] ∧
    removed (.decoded vf :: if failed then [.refreshAsked] else []) = [] := by
  cases failed <;> exact ⟨rfl, rfl, rfl⟩

/-- The frame in the hand of the decoder thread is decoded. -/
theorem Accounted.decode {vf : VideoFrame} {discardQueue failed : Bool} (hs : Accounted s)
    (hhand : s.decoder.inHand = [vf]) (htokens : s.decoder.tokens = DecoderPhase.idle.tokens) :
    Accounted { s with
      discardQueue
      decoder := .idle
      log := s.log ++ .decoded vf :: if failed then [.refreshAsked] else [] } := by
  obtain ⟨hsynced, hle, hkeys, hwaiting, hothers, hdecided, hpopped, hskipped, hmissed⟩ := hs
  obtain ⟨htaken, hdecidedOne, hremoved⟩ := lists_decode vf failed
  refine ⟨?_, hle, ?_, hwaiting, ?_, ?_, ?_, ?_, ?_⟩
  · unfold Synced lane at hsynced ⊢
    rwa [← htokens]
  · rwa [taken_append, htaken, List.append_nil]
  · rwa [removed_append, hremoved, List.append_nil]
  · rw [taken_append, decided_append, htaken, hdecidedOne, hdecided, hhand]
    simp [DecoderPhase.inHand]
  · simp
  · cases failed <;> simpa using hskipped
  · cases failed <;> simpa using hmissed

/-- **One step** accounts for every frame. -/
theorem accounted_step {e : Event} (h : s.step e = some t) (hs : Accounted s) : Accounted t := by
  have hsynced := synced_step h hs.synced
  have hqueueOthers := hs.queue_others
  have ⟨hbefore, hle, hkeys, hwaiting, hothers, hdecided, hpopped, hskipped, hmissed⟩ := hs
  cases effect_of_step h with
  | key _ hkey =>
    refine ⟨hsynced, hle, ?_, ?_, ?_, hdecided, hpopped, hskipped, hmissed⟩
    · simp [hkey, hkeys, MediaData.frame?]
    · simpa [MediaData.frame?, or_imp, forall_and, hkey] using hwaiting
    · simpa [hkey] using hothers
  | room _ hkey hroom =>
    refine ⟨hsynced, ?_, ?_, hwaiting, ?_, hdecided, hpopped, hskipped, hmissed⟩
    · simp
      omega
    · simpa [hkey] using hkeys
    · simp [hkey, hothers]
  | full _ hkey hqueue hfull =>
    refine ⟨hsynced, ?_, ?_, hwaiting, ?_, ?_, hpopped, ?_, ?_⟩
    · simpa [hqueue] using hle
    · simpa [hkey, Outcome.taken?] using hkeys
    · simp [hkey, hothers, hqueue, Outcome.removed?]
    · simpa [Outcome.taken?, Outcome.decided?] using hdecided
    · simpa using hskipped
    · simpa using hmissed
  | token =>
    refine ⟨hsynced, hle, ?_, ?_, hothers, hdecided, hpopped, hskipped, hmissed⟩
    · simpa [MediaData.frame?] using hkeys
    · simpa [MediaData.frame?] using hwaiting
  | askRefresh =>
    refine ⟨hsynced, hle, ?_, hwaiting, ?_, ?_, hpopped, ?_, ?_⟩
    · simpa [Outcome.taken?] using hkeys
    · simpa [Outcome.removed?] using hothers
    · simpa [Outcome.taken?, Outcome.decided?] using hdecided
    · simpa using hskipped
    · simpa using hmissed
  | refresh => exact ⟨hsynced, hle, hkeys, hwaiting, hothers, hdecided, hpopped, hskipped, hmissed⟩
  | control _ _ _ hframe =>
    refine ⟨hsynced, hle, ?_, ?_, hothers, hdecided, hpopped, hskipped, hmissed⟩
    · simpa [hframe] using hkeys
    · simpa [hframe] using hwaiting
  | drop => exact ⟨hsynced, hle, hkeys, hwaiting, hothers, hdecided, hpopped, hskipped, hmissed⟩
  | exit hdecoder =>
    refine ⟨hsynced, hle, hkeys, hwaiting, hothers, ?_, ?_, hskipped, hmissed⟩
    · simpa [hdecoder, DecoderPhase.inHand] using hdecided
    · simp
  | @takeKey vf channel hdecoder hchannel =>
    have hkey : vf.containsKeyFrame = true := hwaiting vf (by simp [hchannel, MediaData.frame?])
    refine ⟨hsynced, hle, ?_, ?_, ?_, ?_, ?_, ?_, ?_⟩
    · simp [hkeys, hchannel, hkey, Outcome.taken?, MediaData.frame?]
    · intro other hother
      exact hwaiting other (by simp [hchannel, hother])
    · simpa [hkey, Outcome.removed?] using hothers
    · simpa [hdecoder, Outcome.taken?, Outcome.decided?, DecoderPhase.inHand] using hdecided
    · simp
    · simpa using hskipped
    · simpa using hmissed
  | takeToken hdecoder hchannel =>
    refine ⟨hsynced, hle, ?_, ?_, hothers, ?_, ?_, hskipped, hmissed⟩
    · simpa [hchannel, MediaData.frame?] using hkeys
    · simpa [hchannel, MediaData.frame?] using hwaiting
    · simpa [hdecoder, DecoderPhase.inHand] using hdecided
    · simp
  | takeControl hdecoder hchannel _ hframe =>
    refine ⟨hsynced, hle, ?_, ?_, hothers, hdecided, hpopped, hskipped, hmissed⟩
    · simpa [hchannel, hframe] using hkeys
    · simpa [hchannel, hframe] using hwaiting
  | decodeKey hdecoder =>
    exact hs.decode (by rw [hdecoder]; rfl) (by rw [hdecoder]; rfl)
  | @pop vf videoQueue _ hdecoder hqueue =>
    have hkey := hqueueOthers vf (by simp [hqueue])
    refine ⟨hsynced, ?_, ?_, hwaiting, ?_, ?_, ?_, ?_, ?_⟩
    · rw [hqueue, List.length_cons] at hle
      exact Nat.le_of_succ_le hle
    · simpa [hkey, Outcome.taken?] using hkeys
    · simp [hkey, hothers, hqueue, Outcome.removed?]
    · simpa [hdecoder, Outcome.taken?, Outcome.decided?, DecoderPhase.inHand] using hdecided
    · rintro other ⟨⟩
      exact hkey
    · simpa using hskipped
    · simpa using hmissed
  | miss hdecoder hqueue =>
    -- a token is on the way and the queue is empty
    simp [Synced, lane, hdecoder, hqueue, DecoderPhase.tokens] at hbefore
  | @skip vf _ hdecoder =>
    have hkey := hpopped vf hdecoder
    refine ⟨hsynced, hle, ?_, hwaiting, ?_, ?_, ?_, ?_, ?_⟩
    · simpa [Outcome.taken?] using hkeys
    · simpa [Outcome.removed?] using hothers
    · simpa [hdecoder, Outcome.taken?, Outcome.decided?, DecoderPhase.inHand] using hdecided
    · simp
    · simpa [or_imp, forall_and, hkey] using hskipped
    · simpa using hmissed
  | decode hdecoder =>
    exact hs.decode (by rw [hdecoder]; rfl) (by rw [hdecoder]; rfl)

/-- **No frame is lost unseen.** In every state reached, the frames with a key frame are taken in
the order of their arrival and none is skipped, the others leave the queue in that order, and
no token is ever without its frame. -/
theorem accounted_of_reachable (h : machine.Reachable s) : Accounted s :=
  h.invariant accounted_init fun _ _ _ hse hs => accounted_step hse hs

/-! ### The order of the frames -/

/-- The numbers of the frames in line are below that of the next frame to arrive. -/
def Numbered (s : VideoThread) : Prop := ∀ vf ∈ s.line, vf.number < s.arrived.length

/-- A step leaves the line as it is, or puts the frame that arrives at its end, or loses the
oldest frame of the queue. -/
inductive LineEffect (s : VideoThread) : Event → VideoThread → Prop
  | same {e : Event} {t : VideoThread} (hevent : ∀ union, e ≠ .frame union)
      (harrived : t.arrived = s.arrived) (hline : t.line = s.line) : LineEffect s e t
  | last {union : Option FrameUnion} {t : VideoThread}
      (hroom : VideoFrame.containsKeyFrame ⟨s.arrived.length, union⟩ = true ∨
        s.videoQueue.length < videoQueueSize)
      (harrived : t.arrived = s.arrived ++ [⟨s.arrived.length, union⟩])
      (hline : t.line = s.line ++ [⟨s.arrived.length, union⟩]) : LineEffect s (.frame union) t
  | lost {union : Option FrameUnion} {t : VideoThread} {oldest : VideoFrame}
      {rest : List VideoFrame}
      (hkey : VideoFrame.containsKeyFrame ⟨s.arrived.length, union⟩ = false)
      (hqueue : s.videoQueue = oldest :: rest) (hfull : videoQueueSize ≤ s.videoQueue.length)
      (harrived : t.arrived = s.arrived ++ [⟨s.arrived.length, union⟩])
      (hline : t.line =
        taken s.log ++ lineUp s.lane (rest ++ [⟨s.arrived.length, union⟩])) :
      LineEffect s (.frame union) t

/-- What a step does to the frames on their way. -/
theorem lineEffect_of_step {e : Event} (h : s.step e = some t) (hs : Synced s) :
    LineEffect s e t := by
  cases effect_of_step h with
  | key hloop hkey =>
    refine .last (.inl hkey) rfl ?_
    simp [line, lane, hloop, LoopPhase.tokens, MediaData.entry?, ← List.append_assoc,
      lineUp_concat_item]
  | room hloop hkey hroom =>
    refine .last (.inr hroom) rfl ?_
    have htokens : SideQueue.tokens (s.decoder.tokens ++ s.channel.filterMap MediaData.entry?) =
        s.videoQueue.length := by
      simpa [Synced, lane, hloop, LoopPhase.tokens] using hs
    simp only [line, lane, hloop, LoopPhase.tokens, List.append_nil,
      lineUp_concat_token _ htokens, ← List.append_assoc]
  | full hloop hkey hqueue hfull =>
    refine .lost hkey hqueue hfull rfl ?_
    simp [line, lane, hloop, LoopPhase.tokens, Outcome.taken?]
  | token hloop =>
    refine .same (by simp) rfl ?_
    simp [line, lane, hloop, LoopPhase.tokens, MediaData.entry?]
  | askRefresh hloop =>
    refine .same (by simp) rfl ?_
    simp [line, lane, hloop, LoopPhase.tokens, Outcome.taken?]
  | refresh => exact .same (by simp) rfl rfl
  | control hloop hevent hdata =>
    refine .same ?_ rfl ?_
    · rintro union rfl
      simp at hevent
    · simp [line, lane, hdata]
  | drop hloop =>
    refine .same (by simp) rfl ?_
    simp [line, lane, hloop, LoopPhase.tokens]
  | exit hdecoder =>
    refine .same (by simp) rfl ?_
    simp [line, lane, hdecoder, DecoderPhase.tokens]
  | takeKey hdecoder hchannel =>
    refine .same (by simp) rfl ?_
    simp [line, lane, hdecoder, hchannel, DecoderPhase.tokens, MediaData.entry?, Outcome.taken?,
      lineUp]
  | takeToken hdecoder hchannel =>
    refine .same (by simp) rfl ?_
    simp [line, lane, hdecoder, hchannel, DecoderPhase.tokens, MediaData.entry?]
  | takeControl hdecoder hchannel hdata =>
    refine .same (by simp) rfl ?_
    simp [line, lane, hchannel, hdata]
  | @decodeKey vf failed hdecoder =>
    refine .same (by simp) rfl ?_
    simp [line, lane, hdecoder, DecoderPhase.tokens, (lists_decode vf failed).1]
  | pop hdecoder hqueue =>
    refine .same (by simp) rfl ?_
    simp [line, lane, hdecoder, hqueue, DecoderPhase.tokens, Outcome.taken?, lineUp]
  | miss hdecoder hqueue => simp [Synced, lane, hdecoder, hqueue, DecoderPhase.tokens] at hs
  | skip hdecoder =>
    refine .same (by simp) rfl ?_
    simp [line, lane, hdecoder, DecoderPhase.tokens, Outcome.taken?]
  | @decode vf failed hdecoder =>
    refine .same (by simp) rfl ?_
    simp [line, lane, hdecoder, DecoderPhase.tokens, (lists_decode vf failed).1]

/-- At first the numbers are in order. -/
theorem numbered_init : Numbered machine.init := by
  intro vf hmem
  simp [machine, line, lane, DecoderPhase.tokens, LoopPhase.tokens, lineUp] at hmem

/-- **One step** keeps the frames numbered. -/
theorem numbered_step {e : Event} (h : s.step e = some t) (hs : Synced s) (hn : Numbered s) :
    Numbered t := by
  intro vf hmem
  cases lineEffect_of_step h hs with
  | same _ harrived hline =>
    rw [harrived]
    exact hn vf (hline ▸ hmem)
  | last _ harrived hline =>
    rw [hline] at hmem
    rw [harrived, List.length_append, List.length_singleton]
    rcases List.mem_append.mp hmem with hmem | hmem
    · exact Nat.lt_succ_of_lt (hn vf hmem)
    · rw [List.mem_singleton.mp hmem]
      exact Nat.lt_succ_self _
  | @lost _ _ oldest rest _ hqueue _ harrived hline =>
    have hcount : SideQueue.tokens s.lane = rest.length + 1 := by
      rw [hs, hqueue, List.length_cons]
    rw [hline] at hmem
    rw [harrived, List.length_append, List.length_singleton]
    rcases List.mem_append.mp hmem with hmem | hmem
    · exact Nat.lt_succ_of_lt (hn vf (List.mem_append_left _ hmem))
    · rcases mem_of_mem_drop oldest hcount hmem with hmem | rfl
      · rw [← hqueue] at hmem
        exact Nat.lt_succ_of_lt (hn vf (List.mem_append_right _ hmem))
      · exact Nat.lt_succ_self _

/-- A frame with a key frame never waits behind a token when the full queue loses its oldest
frame. -/
def Harmless (s : VideoThread) (e : Event) : Prop :=
  ∀ union, e = .frame union → VideoFrame.containsKeyFrame ⟨s.arrived.length, union⟩ = false →
    videoQueueSize ≤ s.videoQueue.length → ItemsFirst s.lane

/-- The line with the frame that arrives at its end. -/
theorem inOrder_concat (hn : Numbered s) (horder : InOrder VideoFrame.number s.line)
    (union : Option FrameUnion) :
    InOrder VideoFrame.number (s.line ++ [⟨s.arrived.length, union⟩]) := by
  refine List.pairwise_append.mpr ⟨horder, List.pairwise_singleton _ _, ?_⟩
  intro vf hmem last hlast
  rw [List.mem_singleton.mp hlast]
  exact hn vf hmem

/-- A step keeps the line in order if and only if it is harmless. -/
theorem inOrder_step {e : Event} (h : s.step e = some t) (hs : Synced s ∧ Numbered s)
    (horder : InOrder VideoFrame.number s.line) :
    InOrder VideoFrame.number t.line ↔ Harmless s e := by
  obtain ⟨hsynced, hn⟩ := hs
  cases lineEffect_of_step h hsynced with
  | same hevent _ hline =>
    rw [hline]
    exact iff_of_true horder fun union he => absurd he (hevent union)
  | @last union _ hroom _ hline =>
    rw [hline]
    refine iff_of_true (inOrder_concat hn horder union) ?_
    intro other he hkey hfull
    cases he
    rcases hroom with hkey' | hroom
    · rw [hkey] at hkey'
      cases hkey'
    · exact absurd hroom (Nat.not_lt_of_le hfull)
  | @lost union _ oldest rest hkey hqueue hfull _ hline =>
    have hcount : SideQueue.tokens s.lane = rest.length + 1 := by
      rw [hsynced, hqueue, List.length_cons]
    have hconcat := inOrder_concat hn horder union
    rw [line, hqueue, List.append_assoc] at hconcat
    obtain ⟨htaken, htail, hcross⟩ := List.pairwise_append.mp hconcat
    have hdrop := inOrder_drop_iff hcount htail
    rw [hline]
    constructor
    · intro hnew other he _ _
      exact hdrop.mp (List.pairwise_append.mp hnew).2.1
    · intro hharmless
      have hitems := hharmless union rfl hkey hfull
      refine List.pairwise_append.mpr ⟨htaken, hdrop.mpr hitems, ?_⟩
      intro vf hmem other hother
      apply hcross vf hmem
      rcases mem_of_mem_drop oldest hcount hother with hmem | rfl
      · exact List.mem_append_left _ hmem
      · exact List.mem_append_right _ (List.mem_singleton_self _)

/-- Along a run the line is in order if and only if every step is harmless. -/
theorem line_inOrder_iff {events : List Event} (hrun : machine.Run machine.init events s) :
    (∀ first u, first <+: events → machine.Run machine.init first u →
      InOrder VideoFrame.number u.line) ↔ machine.RunWhere Harmless machine.init events s := by
  refine Machine.runWhere_iff_beside (I := fun s => Synced s ∧ Numbered s) ?_ ?_ ?_ ?_ hrun
  · exact fun s e t hse hs => ⟨synced_step hse hs.1, numbered_step hse hs.1 hs.2⟩
  · exact fun s e t hse hs horder => inOrder_step hse hs horder
  · exact ⟨accounted_init.synced, numbered_init⟩
  · exact .nil

/-- **Order.** Along a run, the frames come to the decoder in the order they arrived in, and those
on the way are lined up in it, if and only if the full queue never loses its oldest frame while
a frame with a key frame waits behind a token. In such a run the frames are decoded and thrown
away in that order. -/
theorem inOrder_iff_harmless {events : List Event} (hrun : machine.Run machine.init events s) :
    ((∀ first u, first <+: events → machine.Run machine.init first u →
      InOrder VideoFrame.number u.line) ↔ machine.RunWhere Harmless machine.init events s) ∧
    (machine.RunWhere Harmless machine.init events s →
      InOrder VideoFrame.number (decided s.log)) := by
  refine ⟨line_inOrder_iff hrun, fun hharmless => ?_⟩
  have haccounted : Accounted s :=
    hrun.invariant (fun _ _ _ _ => accounted_step) accounted_init
  have hline := (line_inOrder_iff hrun).mpr hharmless events s (List.prefix_refl _) hrun
  rw [line, haccounted.decided] at hline
  exact (List.pairwise_append.mp (List.pairwise_append.mp hline).1).1

/-- A key frame between two others: one is decoded, then the key frame is, while the third waits. -/
def shortRun : List Event :=
  [.frame (some (.vp9s [⟨false⟩])), .afterPush, .frame (some (.vp9s [⟨true⟩])), .recv, .goOn false,
    .goOn false, .frame (some (.vp9s [⟨false⟩])), .recv, .goOn false]

/-- The state after the short run. -/
def afterShortRun : VideoThread :=
  ⟨[⟨2, some (.vp9s [⟨false⟩])⟩], [], false, .pushed, .idle,
    [⟨0, some (.vp9s [⟨false⟩])⟩, ⟨1, some (.vp9s [⟨true⟩])⟩, ⟨2, some (.vp9s [⟨false⟩])⟩],
    [.taken ⟨0, some (.vp9s [⟨false⟩])⟩, .decoded ⟨0, some (.vp9s [⟨false⟩])⟩,
      .taken ⟨1, some (.vp9s [⟨true⟩])⟩, .decoded ⟨1, some (.vp9s [⟨true⟩])⟩]⟩

/-- The short run is a run. -/
theorem run_shortRun : machine.Run machine.init shortRun afterShortRun :=
  Machine.run_of_replay (by decide)

/-- The frames of the short run are accounted for. -/
theorem shortRun_accounted : Accounted afterShortRun :=
  accounted_of_reachable ⟨shortRun, run_shortRun⟩

/-- The queue never fills up. -/
theorem harmless_shortRun : machine.RunWhere Harmless machine.init shortRun afterShortRun := by
  have hroom {s : VideoThread} (hlt : s.videoQueue.length < videoQueueSize) (e : Event) :
      Harmless s e := fun _ _ _ hfull => absurd hfull (Nat.not_le.mpr hlt)
  exact .cons (hroom (by decide) _) rfl <| .cons (hroom (by decide) _) rfl <|
    .cons (hroom (by decide) _) rfl <| .cons (hroom (by decide) _) rfl <|
    .cons (hroom (by decide) _) rfl <| .cons (hroom (by decide) _) rfl <|
    .cons (hroom (by decide) _) rfl <| .cons (hroom (by decide) _) rfl <|
    .single (hroom (by decide) _) rfl

/-- The short run decides its frames in order. -/
theorem shortRun_inOrder :
    (∀ first u, first <+: shortRun → machine.Run machine.init first u →
      InOrder VideoFrame.number u.line) ∧
    InOrder VideoFrame.number (decided afterShortRun.log) := by
  obtain ⟨hiff, hdecided⟩ := inOrder_iff_harmless run_shortRun
  exact ⟨hiff.mpr harmless_shortRun, hdecided harmless_shortRun⟩

/-- The condition can fail: a full queue in front of a key frame makes the frame after the key
frame come out first. -/
example :
    let delta : Event := .frame (some (.vp9s [⟨false⟩]))
    let fill := (List.replicate videoQueueSize [delta, .afterPush]).flatten
    let drain := (List.replicate videoQueueSize [Event.recv, .goOn false, .goOn false]).flatten
    let s := machine.replay machine.init
      (fill ++ [.frame (some (.vp9s [⟨true⟩])), delta, .afterPush] ++ drain)
    s.map (fun s => ((decided s.log).map VideoFrame.number).getLast?) = some (some 121) := by
  decide +kernel

end VideoThread

end RdWeb.Client.VideoQueue
