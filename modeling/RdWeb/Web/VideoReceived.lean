import RdWeb.Lib.Machine
import Mathlib.Algebra.Order.Ring.Int

/-!
# Acknowledged video frames

`connections/rd_video.ts` answers a `video_frame` message with `video_received` once the decoder
has called back for each frame in it. A counter shared by the callbacks of one message finds the
last of them. What is drawn and measured is left out.
-/

namespace RdWeb.Web

/-- What a call of `dec.processFrame` does at once. -/
inductive ProcessFrame
  /-- the callback runs later, or never -/
  | waits
  | callsBack
  | throws
  /-- the callback runs and throws, when it draws -/
  | callsBackAndThrows
  deriving DecidableEq

/-- A `video_frame` message that was received. -/
structure VideoMessage where
  /-- the number of its VP9 frames, `n` -/
  frames : ℕ
  /-- `i` -/
  counter : ℕ
  /-- the callbacks that may still run -/
  pending : ℕ
  /-- the socket it came from -/
  socket : ℕ
  /-- the sockets `video_received` was sent to -/
  acks : List ℕ
  deriving DecidableEq

namespace VideoMessage

/-- A message that nothing is decoded of, at first. -/
def received (frames socket : ℕ) : VideoMessage := ⟨frames, 0, 0, socket, []⟩

/-- `i++`, and `sendVideoReceived` if `i` is `n`. -/
def count (m : VideoMessage) (socket : ℕ) : VideoMessage :=
  { m with
    counter := m.counter + 1
    acks := if m.counter + 1 = m.frames then m.acks ++ [socket] else m.acks }

/-- One frame of the loop over `vp9s.frames`. -/
def process (m : VideoMessage) (socket : ℕ) : ProcessFrame → VideoMessage
  | .waits => { m with pending := m.pending + 1 }
  | .callsBack | .throws => m.count socket
  | .callsBackAndThrows => (m.count socket).count socket

/-- Acknowledged once, to the host that sent it, when no callback is left, and not more before. -/
structure Acknowledged (m : VideoMessage) : Prop where
  settled : m.pending = 0 → m.acks = [m.socket]
  atMostOnce : m.acks = [] ∨ m.acks = [m.socket]

end VideoMessage

/-- What the video of a connection uses. -/
structure VideoConnection where
  firstFrame : Bool
  /-- `_videoDecoder` is set -/
  hasDecoder : Bool
  /-- the calls of `loadVp9` that have not called back -/
  loading : ℕ
  /-- the number of sockets so far; the last one is `_ws` -/
  socket : ℕ
  messages : List VideoMessage
  deriving DecidableEq

/-- What happens to the video of a connection. -/
inductive VideoEvent
  | loadVideoDecoder
  | decoderLoaded
  | connectRelay
  /-- a message, with what the decoder does at once for each frame if it has VP9 frames -/
  | videoFrame (vp9s : Option (List ProcessFrame))
  /-- the decoder calls back for a frame of a message -/
  | callback (k : ℕ)
  /-- the decoder will not call back for a frame of a message -/
  | lost (k : ℕ)

namespace VideoConnection

/-- A message with frames is handed to the decoder, or is answered at once. -/
def handleVideoFrame (s : VideoConnection) (vp9s : Option (List ProcessFrame)) : VideoConnection :=
  let s := { s with firstFrame := true }
  let message := match vp9s with
    | none => .received 0 s.socket
    | some frames =>
      if !s.hasDecoder then .received frames.length s.socket
      else frames.foldl (fun m f => m.process s.socket f) (.received frames.length s.socket)
  { s with messages := s.messages ++ [message] }

/-- Change a message of which a callback is left. -/
def withPending (s : VideoConnection) (k : ℕ) (f : VideoMessage → VideoMessage) :
    Option VideoConnection :=
  match s.messages[k]? with
  | none => none
  | some m =>
    if m.pending = 0 then none
    else some { s with messages := s.messages.set k (f { m with pending := m.pending - 1 }) }

/-- One step of the connection. -/
def step (s : VideoConnection) : VideoEvent → Option VideoConnection
  | .loadVideoDecoder => some { s with loading := s.loading + 1 }
  | .decoderLoaded =>
    if s.loading = 0 then none else some { s with loading := s.loading - 1, hasDecoder := true }
  | .connectRelay => some { s with socket := s.socket + 1 }
  | .videoFrame vp9s => if s.socket = 0 then none else some (s.handleVideoFrame vp9s)
  | .callback k => s.withPending k fun m => m.count s.socket
  | .lost k => s.withPending k id

/-- The connection before its first message. -/
def machine : Machine VideoConnection VideoEvent where
  init := ⟨false, false, 0, 0, []⟩
  step := step

/-- Every message is acknowledged as it should be. -/
def Acknowledges (s : VideoConnection) : Prop := ∀ m ∈ s.messages, m.Acknowledged

/-- A message has VP9 frames and a decoder; the callback that completes its count comes while the
connection has the same socket; and its last callback completes the count, unless it was complete
before. -/
def Decodes (s : VideoConnection) : VideoEvent → Prop
  | .videoFrame vp9s => (∃ frames, vp9s = some frames ∧ frames ≠ []) ∧ s.hasDecoder = true
  | .callback k => ∀ m ∈ s.messages[k]?,
      (m.counter + 1 = m.frames → s.socket = m.socket) ∧
        (m.pending = 1 → m.frames ≤ m.counter + 1)
  | .lost k => ∀ m ∈ s.messages[k]?, m.pending = 1 → m.frames ≤ m.counter
  | _ => True

end VideoConnection

/-! ## One message -/

namespace VideoMessage

variable {m : VideoMessage} {socket : ℕ}

/-- The acknowledgements of a message follow its counter. -/
structure Counted (m : VideoMessage) : Prop where
  acks : m.acks.length = if 0 < m.frames ∧ m.frames ≤ m.counter then 1 else 0
  pending_le : m.pending ≤ m.frames

/-- A message that was just received is counted. -/
theorem counted_received (frames socket : ℕ) : (received frames socket).Counted := by
  refine ⟨?_, Nat.zero_le _⟩
  rw [if_neg]
  · rfl
  · change ¬ (0 < frames ∧ frames ≤ 0)
    omega

/-- The acknowledgements after one more frame was counted. -/
theorem length_acks_count (h : m.acks.length = if 0 < m.frames ∧ m.frames ≤ m.counter then 1 else 0)
    (socket : ℕ) :
    (m.count socket).acks.length =
      if 0 < m.frames ∧ m.frames ≤ m.counter + 1 then 1 else 0 := by
  unfold count
  dsimp only
  by_cases hlast : m.counter + 1 = m.frames
  · rw [if_pos hlast, List.length_append, h, if_neg (by omega), if_pos (by omega)]
    rfl
  · rw [if_neg hlast, h]
    split_ifs with hle hle'
    · rfl
    · omega
    · omega
    · rfl

/-- Counting a frame keeps the count. -/
theorem Counted.count (h : m.Counted) (socket : ℕ) : (m.count socket).Counted :=
  ⟨length_acks_count h.acks socket, h.pending_le⟩

/-- A frame that is no longer pending keeps the count. -/
theorem Counted.lessPending (h : m.Counted) :
    ({ m with pending := m.pending - 1 } : VideoMessage).Counted :=
  ⟨h.acks, (Nat.sub_le _ _).trans h.pending_le⟩

/-- A message of which some frames have been processed, all with one socket. -/
structure Processed (m : VideoMessage) (frames socket done : ℕ) : Prop where
  frames_eq : m.frames = frames
  socket_eq : m.socket = socket
  acks_length : m.acks.length = if 0 < m.frames ∧ m.frames ≤ m.counter then 1 else 0
  acks_eq : ∀ x ∈ m.acks, x = socket
  pending_le : m.pending ≤ done
  done_le : done ≤ m.counter + m.pending

/-- More frames may be done. -/
theorem Processed.mono {frames done done' : ℕ} (h : m.Processed frames socket done)
    (hle : done ≤ done') (hle' : done' ≤ m.counter + m.pending) :
    m.Processed frames socket done' :=
  ⟨h.frames_eq, h.socket_eq, h.acks_length, h.acks_eq, h.pending_le.trans hle, hle'⟩

/-- Each call of the counter stands for a frame. -/
theorem Processed.count {frames done : ℕ} (h : m.Processed frames socket done) :
    (m.count socket).Processed frames socket done where
  frames_eq := h.frames_eq
  socket_eq := h.socket_eq
  acks_length := length_acks_count h.acks_length socket
  acks_eq x hx := by
    unfold VideoMessage.count at hx
    dsimp only at hx
    split_ifs at hx
    · rcases List.mem_append.mp hx with hx | hx
      · exact h.acks_eq x hx
      · exact List.mem_singleton.mp hx
    · exact h.acks_eq x hx
  pending_le := h.pending_le
  done_le := by
    have hdone := h.done_le
    change done ≤ m.counter + 1 + m.pending
    omega

/-- Processing a frame processes one more. -/
theorem Processed.process {frames done : ℕ} (h : m.Processed frames socket done)
    (f : ProcessFrame) : (m.process socket f).Processed frames socket (done + 1) := by
  have hdone := h.done_le
  have hpending := h.pending_le
  cases f with
  | waits =>
    refine ⟨h.frames_eq, h.socket_eq, h.acks_length, h.acks_eq, ?_, ?_⟩
    · change m.pending + 1 ≤ done + 1
      omega
    · change done + 1 ≤ m.counter + (m.pending + 1)
      omega
  | callsBack => exact h.count.mono (Nat.le_succ _) (by change _ ≤ m.counter + 1 + m.pending; omega)
  | throws => exact h.count.mono (Nat.le_succ _) (by change _ ≤ m.counter + 1 + m.pending; omega)
  | callsBackAndThrows =>
    exact h.count.count.mono (Nat.le_succ _) (by change _ ≤ m.counter + 1 + 1 + m.pending; omega)

/-- The loop over the frames. -/
theorem Processed.foldl {frames done : ℕ} (h : m.Processed frames socket done)
    (fs : List ProcessFrame) :
    (fs.foldl (fun m f => m.process socket f) m).Processed frames socket (done + fs.length) := by
  induction fs generalizing m done with
  | nil => exact h
  | cons f fs ih =>
    rw [List.foldl_cons, List.length_cons, Nat.add_comm fs.length 1, ← Nat.add_assoc]
    exact ih (h.process f)

/-- A message that was just received has no frame processed. -/
theorem processed_received (frames socket : ℕ) :
    (received frames socket).Processed frames socket 0 :=
  ⟨rfl, rfl, (counted_received frames socket).acks, fun _ h => absurd h List.not_mem_nil,
    Nat.le_refl _, Nat.zero_le _⟩

/-- A message whose frames are processed is counted. -/
theorem Processed.counted {frames : ℕ} (h : m.Processed frames socket frames) : m.Counted :=
  ⟨h.acks_length, h.frames_eq ▸ h.pending_le⟩

/-- A message all frames of which have been processed is acknowledged as it should be. -/
theorem Processed.acknowledged {frames : ℕ} (h : m.Processed frames socket frames)
    (hpos : 0 < frames) : m.Acknowledged := by
  have hlength := h.acks_length
  have hframes := h.frames_eq
  have hdone := h.done_le
  by_cases hle : m.frames ≤ m.counter
  · rw [if_pos ⟨by omega, hle⟩] at hlength
    obtain ⟨x, hx⟩ := List.length_eq_one_iff.mp hlength
    have hsocket : m.acks = [m.socket] := by
      rw [hx, h.socket_eq, h.acks_eq x (hx ▸ List.mem_singleton_self x)]
    exact ⟨fun _ => hsocket, .inr hsocket⟩
  · rw [if_neg (fun h => hle h.2)] at hlength
    exact ⟨fun hpending => by omega, .inl (List.length_eq_zero_iff.mp hlength)⟩

/-- A message without a frame that is processed is not. -/
theorem not_acknowledged_received (frames socket : ℕ) : ¬ (received frames socket).Acknowledged :=
  fun h => absurd (h.settled rfl) (List.cons_ne_nil _ _).symm

/-- A message that is acknowledged has frames. -/
theorem Acknowledged.frames_pos (h : m.Acknowledged) (hcounted : m.Counted) : 0 < m.frames := by
  by_contra hzero
  have hpending := hcounted.pending_le
  have hlength := hcounted.acks
  rw [h.settled (by omega), if_neg (fun h => hzero h.1)] at hlength
  cases hlength

/-- The callback of a frame keeps a message acknowledged under this condition. -/
theorem acknowledged_callback_iff (h : m.Acknowledged) (hcounted : m.Counted) (socket : ℕ)
    (hpending : m.pending ≠ 0) :
    (({ m with pending := m.pending - 1 } : VideoMessage).count socket).Acknowledged ↔
      (m.counter + 1 = m.frames → socket = m.socket) ∧
        (m.pending = 1 → m.frames ≤ m.counter + 1) := by
  have hpos := h.frames_pos hcounted
  have hlength := hcounted.acks
  by_cases hlast : m.counter + 1 = m.frames
  · have hacks : (({ m with pending := m.pending - 1 } : VideoMessage).count socket).acks =
        [socket] := by
      rw [if_neg (by omega)] at hlength
      change (if m.counter + 1 = m.frames then m.acks ++ [socket] else m.acks) = [socket]
      rw [if_pos hlast, List.length_eq_zero_iff.mp hlength, List.nil_append]
    constructor
    · intro hafter
      refine ⟨fun _ => ?_, fun _ => hlast.ge⟩
      have honce := hafter.atMostOnce
      rw [hacks] at honce
      rcases honce with honce | honce
      · cases honce
      · exact List.singleton_inj.mp honce
    · rintro ⟨hsocket, -⟩
      obtain rfl := hsocket hlast
      exact ⟨fun _ => hacks, .inr hacks⟩
  · have hacks : (({ m with pending := m.pending - 1 } : VideoMessage).count socket).acks =
        m.acks := if_neg hlast
    constructor
    · intro hafter
      refine ⟨fun h => absurd h hlast, fun hone => ?_⟩
      have hsettled := hafter.settled (by change m.pending - 1 = 0; omega)
      rw [hacks] at hsettled
      rw [hsettled] at hlength
      split_ifs at hlength with hle
      omega
    · rintro ⟨-, hsettles⟩
      refine ⟨fun hzero => ?_, by rw [hacks]; exact h.atMostOnce⟩
      have hle := hsettles (by change m.pending - 1 = 0 at hzero; omega)
      rw [if_pos ⟨hpos, by omega⟩] at hlength
      rw [hacks]
      rcases h.atMostOnce with hnil | hone
      · rw [hnil] at hlength
        cases hlength
      · exact hone

/-- And so does the loss of one. -/
theorem acknowledged_lost_iff (h : m.Acknowledged) (hcounted : m.Counted)
    (hpending : m.pending ≠ 0) :
    ({ m with pending := m.pending - 1 } : VideoMessage).Acknowledged ↔
      (m.pending = 1 → m.frames ≤ m.counter) := by
  have hpos := h.frames_pos hcounted
  have hlength := hcounted.acks
  constructor
  · intro hafter hone
    have hsettled : m.acks = [m.socket] :=
      hafter.settled (by change m.pending - 1 = 0; omega)
    rw [hsettled] at hlength
    split_ifs at hlength with hle
    exact hle.2
  · intro hsettles
    refine ⟨fun hzero => ?_, h.atMostOnce⟩
    have hle := hsettles (by change m.pending - 1 = 0 at hzero; omega)
    rw [if_pos ⟨hpos, hle⟩] at hlength
    rcases h.atMostOnce with hnil | hone
    · rw [hnil] at hlength
      cases hlength
    · exact hone

end VideoMessage

namespace VideoConnection

variable {s t : VideoConnection}

/-- Setting one message leaves a property to that message. -/
theorem forall_mem_set_iff {l : List VideoMessage} {P : VideoMessage → Prop} (h : ∀ m ∈ l, P m)
    {k : ℕ} (hlt : k < l.length) (m : VideoMessage) : (∀ m' ∈ l.set k m, P m') ↔ P m := by
  constructor
  · exact fun hall => hall m (List.mem_set hlt m)
  · intro hm m' hm'
    rcases List.mem_or_eq_of_mem_set hm' with hm' | rfl
    · exact h m' hm'
    · exact hm

/-- A pending frame belongs to one of the messages. -/
theorem withPending_eq {k : ℕ} {f : VideoMessage → VideoMessage}
    (h : s.withPending k f = some t) :
    ∃ m, s.messages[k]? = some m ∧ m ∈ s.messages ∧ k < s.messages.length ∧ m.pending ≠ 0 ∧
      t.messages = s.messages.set k (f { m with pending := m.pending - 1 }) := by
  unfold withPending at h
  split at h
  · cases h
  · rename_i m hm
    split_ifs at h with hpending
    obtain rfl := Option.some.inj h
    obtain ⟨hlt, -⟩ := List.getElem?_eq_some_iff.mp hm
    exact ⟨m, hm, List.mem_of_getElem? hm, hlt, hpending, rfl⟩

/-- What is received is counted. -/
def Counts (s : VideoConnection) : Prop := ∀ m ∈ s.messages, m.Counted

/-- The message that is received. -/
theorem exists_handleVideoFrame (s : VideoConnection) (vp9s : Option (List ProcessFrame)) :
    ∃ m, (s.handleVideoFrame vp9s).messages = s.messages ++ [m] ∧ m.Counted ∧
      (m.Acknowledged ↔ (∃ frames, vp9s = some frames ∧ frames ≠ []) ∧ s.hasDecoder = true) := by
  unfold handleVideoFrame
  cases vp9s with
  | none =>
    refine ⟨_, rfl, VideoMessage.counted_received _ _,
      iff_of_false (VideoMessage.not_acknowledged_received _ _) ?_⟩
    rintro ⟨⟨frames, hframes, -⟩, -⟩
    cases hframes
  | some frames =>
    dsimp only
    by_cases hdecoder : s.hasDecoder = true
    · have hprocessed := (VideoMessage.processed_received frames.length s.socket).foldl frames
      rw [Nat.zero_add] at hprocessed
      rw [if_neg (by simp [hdecoder])]
      refine ⟨_, rfl, hprocessed.counted, ?_⟩
      by_cases hframes : frames = []
      · subst hframes
        refine iff_of_false (VideoMessage.not_acknowledged_received 0 s.socket) ?_
        rintro ⟨⟨frames, heq, hne⟩, -⟩
        exact hne (Option.some.inj heq).symm
      · exact iff_of_true (hprocessed.acknowledged (List.length_pos_iff.mpr hframes))
          ⟨⟨frames, rfl, hframes⟩, hdecoder⟩
    · rw [if_pos (by simp [hdecoder])]
      exact ⟨_, rfl, VideoMessage.counted_received _ _,
        iff_of_false (VideoMessage.not_acknowledged_received _ _) fun h => hdecoder h.2⟩

/-- **One step** keeps the counts. -/
theorem Counts.step {e : VideoEvent} (h : s.Counts) (hstep : s.step e = some t) : t.Counts := by
  cases e with
  | loadVideoDecoder => exact Option.some.inj hstep ▸ h
  | decoderLoaded =>
    simp only [VideoConnection.step] at hstep
    split_ifs at hstep
    exact Option.some.inj hstep ▸ h
  | connectRelay => exact Option.some.inj hstep ▸ h
  | videoFrame vp9s =>
    simp only [VideoConnection.step] at hstep
    split_ifs at hstep
    obtain rfl := Option.some.inj hstep
    obtain ⟨m, hmessages, hcounted, -⟩ := exists_handleVideoFrame s vp9s
    unfold Counts
    rw [hmessages]
    exact List.forall_mem_append.mpr ⟨h, List.forall_mem_singleton.mpr hcounted⟩
  | callback k =>
    obtain ⟨m, -, hmem, hlt, -, hmessages⟩ :=
      withPending_eq (k := k) (f := fun m => m.count s.socket) hstep
    unfold Counts
    rw [hmessages, forall_mem_set_iff h hlt]
    exact (h m hmem).lessPending.count s.socket
  | lost k =>
    obtain ⟨m, -, hmem, hlt, -, hmessages⟩ := withPending_eq hstep
    unfold Counts
    rw [hmessages, forall_mem_set_iff h hlt]
    exact (h m hmem).lessPending

/-- One step keeps every message acknowledged if and only if it decodes. -/
theorem acknowledges_step_iff {e : VideoEvent} (hcounts : s.Counts) (h : s.Acknowledges)
    (hstep : s.step e = some t) : t.Acknowledges ↔ s.Decodes e := by
  cases e with
  | loadVideoDecoder => exact iff_of_true (Option.some.inj hstep ▸ h) trivial
  | decoderLoaded =>
    simp only [VideoConnection.step] at hstep
    split_ifs at hstep
    exact iff_of_true (Option.some.inj hstep ▸ h) trivial
  | connectRelay => exact iff_of_true (Option.some.inj hstep ▸ h) trivial
  | videoFrame vp9s =>
    simp only [VideoConnection.step] at hstep
    split_ifs at hstep
    obtain rfl := Option.some.inj hstep
    obtain ⟨m, hmessages, -, hiff⟩ := exists_handleVideoFrame s vp9s
    unfold Acknowledges
    rw [hmessages, List.forall_mem_append, List.forall_mem_singleton, Decodes, ← hiff]
    exact and_iff_right h
  | callback k =>
    obtain ⟨m, hm, hmem, hlt, hpending, hmessages⟩ :=
      withPending_eq (k := k) (f := fun m => m.count s.socket) hstep
    unfold Acknowledges
    rw [hmessages, forall_mem_set_iff h hlt,
      VideoMessage.acknowledged_callback_iff (h m hmem) (hcounts m hmem) s.socket hpending]
    simp only [Decodes, hm, Option.mem_def, Option.some.injEq, forall_eq']
  | lost k =>
    obtain ⟨m, hm, hmem, hlt, hpending, hmessages⟩ := withPending_eq hstep
    unfold Acknowledges
    rw [hmessages, forall_mem_set_iff h hlt]
    rw [id, VideoMessage.acknowledged_lost_iff (h m hmem) (hcounts m hmem) hpending]
    simp only [Decodes, hm, Option.mem_def, Option.some.injEq, forall_eq']

/-- **Each video frame is acknowledged once** in every state of a run if and only if every step of
the run decodes. -/
theorem acknowledges_iff_decodes {events : List VideoEvent}
    (hrun : machine.Run machine.init events t) :
    (∀ first u, first <+: events → machine.Run machine.init first u → u.Acknowledges) ↔
      machine.RunWhere Decodes machine.init events t :=
  Machine.runWhere_iff_beside (I := Counts) (fun _ _ _ hse h => h.step hse)
    (fun _ _ _ hse hcounts h => acknowledges_step_iff hcounts h hse)
    (fun _ hm => absurd hm List.not_mem_nil) (fun _ hm => absurd hm List.not_mem_nil) hrun

/-- The acknowledgements that a host gets. -/
def acksTo (s : VideoConnection) (socket : ℕ) : ℕ :=
  (s.messages.map fun m => m.acks.count socket).sum

/-- No host gets more acknowledgements than it sent messages. -/
theorem Acknowledges.acksTo_le (h : s.Acknowledges) (socket : ℕ) :
    s.acksTo socket ≤ s.messages.countP (·.socket = socket) := by
  unfold Acknowledges at h
  unfold acksTo
  generalize s.messages = messages at h ⊢
  induction messages with
  | nil => exact Nat.le_refl _
  | cons m messages ih =>
    have hmessages := ih fun m hm => h m (List.mem_cons_of_mem _ hm)
    rw [List.map_cons, List.sum_cons, List.countP_cons]
    rcases (h m List.mem_cons_self).atMostOnce with hacks | hacks
    · rw [hacks, List.count_nil]
      omega
    · rw [hacks, List.count_singleton]
      by_cases hsocket : m.socket = socket
      · simp only [hsocket, beq_self_eq_true, decide_true, if_true]
        omega
      · simp only [beq_iff_eq, hsocket, decide_false, if_false]
        omega

/-- The state after some events. -/
def after (events : List VideoEvent) : VideoConnection :=
  events.foldl (fun s e => (s.step e).getD s) machine.init

/-- A connection whose decoder is loaded. -/
def decoding : List VideoEvent := [.loadVideoDecoder, .decoderLoaded, .connectRelay]

/-- Two frames, of which one is decoded at once. -/
def twoFrames : List VideoEvent :=
  decoding ++ [.videoFrame (some [.waits, .callsBack]), .callback 0]

/-- Two frames are acknowledged once. -/
theorem acknowledges_twoFrames : (after twoFrames).Acknowledges := by
  have hcallback : (after (decoding ++ [.videoFrame (some [.waits, .callsBack])])).Decodes
      (.callback 0) := by
    rintro m ⟨⟩
    exact ⟨fun _ => rfl, fun _ => by decide⟩
  have hwhere : machine.RunWhere Decodes machine.init twoFrames (after twoFrames) :=
    .cons trivial rfl <| .cons trivial rfl <| .cons trivial rfl <|
      .cons ⟨⟨_, rfl, List.cons_ne_nil _ _⟩, rfl⟩ rfl <| .single hcallback rfl
  exact (acknowledges_iff_decodes hwhere.run).mpr hwhere twoFrames _ (List.prefix_refl _) hwhere.run

/-- A frame that comes before the decoder is loaded is never acknowledged. -/
theorem not_acknowledges_early :
    machine.Run machine.init [.loadVideoDecoder, .connectRelay, .videoFrame (some [.waits])]
        (after [.loadVideoDecoder, .connectRelay, .videoFrame (some [.waits])]) ∧
      (after [.loadVideoDecoder, .connectRelay, .videoFrame (some [.waits])]).messages =
        [⟨1, 0, 0, 1, []⟩] ∧
      ¬ (after [.loadVideoDecoder, .connectRelay, .videoFrame (some [.waits])]).Acknowledges := by
  refine ⟨Machine.run_of_replay rfl, rfl, fun h => ?_⟩
  exact VideoMessage.not_acknowledged_received 1 1 (h _ List.mem_cons_self)

end VideoConnection

end RdWeb.Web
