import Mathlib.Data.Finset.Card
import Mathlib.Data.Nat.Notation
import RdWeb.Lib.Machine

/-!
# Waiting until a frame is fetched

Each video service sends a frame to its subscribers and then waits until they have
fetched it. All services take the notices from one channel. A notice tells which
connection it came from, but not for which frame, and a service only counts them.
-/

namespace RdWeb.Host

/-- What a notice is about: a frame of a service, if it answers one, or the end of the
connection. The channel itself does not carry this. -/
inductive Notice (Service : Type)
  | fetched (frame : Option (Service × ℕ))
  | closed
  deriving DecidableEq

/-- The notice is an acknowledgement of a frame of another service. -/
def Notice.strays {Service : Type} [DecidableEq Service] (v : Service) : Notice Service → Bool
  | .fetched (some (w, _)) => w ≠ v
  | _ => false

/-- `VideoFrameController` and the wait of one service. -/
structure VideoFrameController (Conn : Type) where
  /-- The number of the current frame. -/
  cur : ℕ
  sendConnIds : Finset Conn
  fetchedConnIds : Finset Conn
  waiting : Bool

/-- The services, the channel, and what happened to the frames. -/
structure VideoServices (Service Conn : Type) where
  controller : Service → VideoFrameController Conn
  /-- `FRAME_FETCHED_NOTIFIER`. -/
  notifier : List (Conn × Notice Service)
  /-- To whom each frame was sent. -/
  recipients : Service → ℕ → Finset Conn
  /-- Which frames the connections acknowledged. -/
  acknowledged : List (Conn × Service × ℕ)
  closed : List Conn
  /-- A wait was left early before every recipient had acknowledged the frame or closed. -/
  premature : Bool
  /-- A service received an acknowledgement of a frame of another one. -/
  strayed : Bool

/-- What the services send and receive. -/
inductive VideoEvent (Service Conn : Type)
  /-- One turn of the loop: a frame is sent, or nothing where nobody is subscribed. -/
  | send (v : Service) (connIds : Finset Conn)
  | receive (v : Service)
  /-- Enough connections were counted. -/
  | leaveEarly (v : Service)
  /-- The limit of three seconds. -/
  | leaveLate (v : Service)
  /-- The loop ends with an error and is started anew. -/
  | restart (v : Service)
  /-- `notify_video_frame_fetched` for a connection. -/
  | fetched (c : Conn) (frame : Option (Service × ℕ))
  | close (c : Conn)

namespace VideoFrameController

variable {Conn : Type} [DecidableEq Conn]

/-- `reset` and `set_send`, and the wait that follows. -/
def setSend (s : VideoFrameController Conn) (connIds : Finset Conn) : VideoFrameController Conn :=
  { cur := if connIds = ∅ then s.cur else s.cur + 1
    sendConnIds := connIds
    fetchedConnIds := ∅
    waiting := true }

/-- `try_wait_next`, for a notice of a connection. -/
def tryWaitNext (s : VideoFrameController Conn) (c : Conn) : VideoFrameController Conn :=
  { s with fetchedConnIds := insert c s.fetchedConnIds }

/-- The loop no longer waits for the frame. -/
def leave (s : VideoFrameController Conn) : VideoFrameController Conn := { s with waiting := false }

/-- `VideoFrameController::new`: the frames are still told apart. -/
def restart (s : VideoFrameController Conn) : VideoFrameController Conn :=
  { cur := s.cur, sendConnIds := ∅, fetchedConnIds := ∅, waiting := false }

end VideoFrameController

namespace VideoServices

variable {Service Conn : Type} [DecidableEq Service] [DecidableEq Conn]

/-- The controller of a service changes. -/
def setController (s : VideoServices Service Conn) (v : Service) (k : VideoFrameController Conn) :
    VideoServices Service Conn :=
  { s with controller := Function.update s.controller v k }

/-- The current frame of a service was acknowledged, or one after it, or the connection closed. -/
def Done (s : VideoServices Service Conn) (v : Service) (c : Conn) : Prop :=
  c ∈ s.closed ∨ ∃ entry ∈ s.acknowledged, entry.1 = c ∧ entry.2.1 = v ∧
    (s.controller v).cur ≤ entry.2.2

/-- Whether a connection is done with a frame is decided by what it acknowledged. -/
instance (s : VideoServices Service Conn) (v : Service) (c : Conn) : Decidable (s.Done v c) := by
  unfold Done
  infer_instance

/-- A frame is sent, and the service waits if there is anybody to wait for. -/
def send (s : VideoServices Service Conn) (v : Service) (connIds : Finset Conn) :
    VideoServices Service Conn :=
  let k := (s.controller v).setSend connIds
  { s.setController v k with
    recipients := if connIds = ∅ then s.recipients else fun w n =>
      if w = v ∧ n = k.cur then connIds else s.recipients w n }

/-- A service takes a notice from the channel. -/
def take (s : VideoServices Service Conn) (v : Service) (c : Conn) (notice : Notice Service)
    (rest : List (Conn × Notice Service)) : VideoServices Service Conn :=
  { s.setController v ((s.controller v).tryWaitNext c) with
    notifier := rest
    strayed := s.strayed || notice.strays v }

/-- A notice is taken from the channel. -/
def receive (s : VideoServices Service Conn) (v : Service) : Option (VideoServices Service Conn) :=
  match s.notifier with
  | [] => none
  | (c, notice) :: rest => some (s.take v c notice rest)

/-- The loop goes on before all connections have fetched the frame. -/
def leaveEarly (s : VideoServices Service Conn) (v : Service) : VideoServices Service Conn :=
  { s.setController v (s.controller v).leave with
    premature := s.premature || !decide (∀ c ∈ (s.controller v).sendConnIds, s.Done v c) }

/-- A connection acknowledges only frames that were sent to it. -/
def fetched (s : VideoServices Service Conn) (c : Conn) (frame : Option (Service × ℕ)) :
    VideoServices Service Conn :=
  { s with
    notifier := s.notifier ++ [(c, .fetched frame)]
    acknowledged := s.acknowledged ++ (frame.map fun f => (c, f)).toList }

/-- A connection closes, and tells so. -/
def close (s : VideoServices Service Conn) (c : Conn) : VideoServices Service Conn :=
  { s with notifier := s.notifier ++ [(c, .closed)], closed := c :: s.closed }

/-- One step of a service or of a connection. -/
def step (s : VideoServices Service Conn) :
    VideoEvent Service Conn → Option (VideoServices Service Conn)
  | .send v connIds => if (s.controller v).waiting then none else some (s.send v connIds)
  | .receive v =>
    let k := s.controller v
    if k.waiting ∧ k.fetchedConnIds.card < k.sendConnIds.card then s.receive v else none
  | .leaveEarly v =>
    let k := s.controller v
    if k.waiting ∧ k.sendConnIds.card ≤ k.fetchedConnIds.card then some (s.leaveEarly v) else none
  | .leaveLate v =>
    let k := s.controller v
    if k.waiting ∧ k.fetchedConnIds.card < k.sendConnIds.card then
      some (s.setController v k.leave)
    else none
  | .restart v => some (s.setController v (s.controller v).restart)
  | .fetched c frame =>
    if c ∉ s.closed ∧ ∀ f ∈ frame, c ∈ s.recipients f.1 f.2 then some (s.fetched c frame) else none
  | .close c => if c ∉ s.closed then some (s.close c) else none

/-- Before the first frame. -/
def new : VideoServices Service Conn where
  controller _ := ⟨0, ∅, ∅, false⟩
  notifier := []
  recipients _ _ := ∅
  acknowledged := []
  closed := []
  premature := false
  strayed := false

/-- Every early leave was after all recipients acknowledged the frame or closed, and every
acknowledgement was received by the service it is for. -/
structure Accounted (s : VideoServices Service Conn) : Prop where
  complete : s.premature = false
  own : s.strayed = false

/-- A service waits for somebody to fetch its frame. -/
def Awaits (s : VideoServices Service Conn) (v : Service) : Prop :=
  (s.controller v).waiting = true ∧ (s.controller v).sendConnIds ≠ ∅

/-- A frame is sent only when the channel is empty and no other service waits. While a service
waits, only the recipients of its frame acknowledge, and this frame, or close. -/
def Orderly (s : VideoServices Service Conn) : VideoEvent Service Conn → Prop
  | .send _ connIds => connIds ≠ ∅ → s.notifier = [] ∧ ∀ w, ¬ s.Awaits w
  | .fetched c frame => ∀ v, s.Awaits v →
      c ∈ (s.controller v).sendConnIds ∧ frame = some (v, (s.controller v).cur)
  | .close c => ∀ v, s.Awaits v → c ∈ (s.controller v).sendConnIds
  | _ => True

end VideoServices

/-- Any number of services and connections. -/
def videoMachine (Service Conn : Type) [DecidableEq Service] [DecidableEq Conn] :
    Machine (VideoServices Service Conn) (VideoEvent Service Conn) where
  init := .new
  step := VideoServices.step

/-! ## What the waiting service can receive and has counted -/

namespace VideoServices

variable {Service Conn : Type} {s t : VideoServices Service Conn}

/-- A notice that may be counted: from a recipient that is done with the current frame, and
about no other frame. -/
structure Counts (s : VideoServices Service Conn) (v : Service) (c : Conn)
    (notice : Notice Service) : Prop where
  recipient : c ∈ (s.controller v).sendConnIds
  done : s.Done v c
  current : ∀ frame, notice = .fetched frame → frame = some (v, (s.controller v).cur)

/-- What the services keep while only one of them waits. -/
structure Sound (s : VideoServices Service Conn) : Prop where
  single : ∀ v w, s.Awaits v → s.Awaits w → v = w
  queued : ∀ v, s.Awaits v → ∀ entry ∈ s.notifier, s.Counts v entry.1 entry.2
  counted : ∀ v, s.Awaits v → ∀ c ∈ (s.controller v).fetchedConnIds,
    c ∈ (s.controller v).sendConnIds ∧ s.Done v c
  accounted : s.Accounted

/-- A service still sends, or waits for, the same frame. -/
structure SameFrame (s t : VideoServices Service Conn) (v : Service) : Prop where
  cur : (t.controller v).cur = (s.controller v).cur
  sendConnIds : (t.controller v).sendConnIds = (s.controller v).sendConnIds
  waiting : (t.controller v).waiting = (s.controller v).waiting

/-- The same controller has the same frame. -/
theorem SameFrame.of_eq {v : Service} (h : t.controller v = s.controller v) : s.SameFrame t v :=
  ⟨by rw [h], by rw [h], by rw [h]⟩

/-- The same frame is waited for. -/
theorem SameFrame.awaits_iff {v : Service} (h : s.SameFrame t v) : t.Awaits v ↔ s.Awaits v := by
  unfold Awaits
  rw [h.waiting, h.sendConnIds]

/-- The connections did no less than before. -/
structure Grows (s t : VideoServices Service Conn) : Prop where
  closed : s.closed ⊆ t.closed
  acknowledged : s.acknowledged ⊆ t.acknowledged

/-- Nothing closed and nothing acknowledged is growth. -/
theorem Grows.of_eq (hclosed : t.closed = s.closed) (hacks : t.acknowledged = s.acknowledged) :
    s.Grows t :=
  ⟨by rw [hclosed]; exact fun _ h => h, by rw [hacks]; exact fun _ h => h⟩

/-- What was done stays done while the frame is the same. -/
theorem Done.mono {v : Service} {c : Conn} (h : s.Done v c) (hgrows : s.Grows t)
    (hsame : s.SameFrame t v) : t.Done v c := by
  rcases h with h | ⟨entry, hentry, hc, hv, hle⟩
  · exact .inl (hgrows.closed h)
  · refine .inr ⟨entry, hgrows.acknowledged hentry, hc, hv, ?_⟩
    rw [hsame.cur]
    exact hle

/-- A notice goes on counting. -/
theorem Counts.mono {v : Service} {c : Conn} {notice : Notice Service} (h : s.Counts v c notice)
    (hgrows : s.Grows t) (hsame : s.SameFrame t v) : t.Counts v c notice where
  recipient := by
    rw [hsame.sendConnIds]
    exact h.recipient
  done := h.done.mono hgrows hsame
  current frame hframe := by
    rw [hsame.cur]
    exact h.current frame hframe

/-- Enough notices of recipients are notices of all recipients. -/
theorem Sound.complete (h : s.Sound) {v : Service} (hwaiting : (s.controller v).waiting = true)
    (hcard : (s.controller v).sendConnIds.card ≤ (s.controller v).fetchedConnIds.card) :
    ∀ c ∈ (s.controller v).sendConnIds, s.Done v c := by
  intro c hc
  have hawaits : s.Awaits v := ⟨hwaiting, Finset.ne_empty_of_mem hc⟩
  have hsubset : (s.controller v).fetchedConnIds ⊆ (s.controller v).sendConnIds :=
    fun d hd => (h.counted v hawaits d hd).1
  rw [← Finset.eq_of_subset_of_card_le hsubset hcard] at hc
  exact (h.counted v hawaits c hc).2

/-- A service that stops waiting counts nothing any more. -/
theorem Sound.stop (h : s.Sound) {v : Service}
    (hv : ¬ t.Awaits v) (hother : ∀ w, w ≠ v → s.SameFrame t w)
    (hfetched : ∀ w, w ≠ v → (t.controller w).fetchedConnIds = (s.controller w).fetchedConnIds)
    (hqueue : t.notifier = s.notifier) (hgrows : s.Grows t) (haccounted : t.Accounted) :
    t.Sound := by
  have hne {w : Service} (hw : t.Awaits w) : w ≠ v := by
    rintro rfl
    exact hv hw
  have hbefore {w : Service} (hw : t.Awaits w) : s.Awaits w :=
    (hother w (hne hw)).awaits_iff.mp hw
  constructor
  · intro w w' hw hw'
    exact h.single w w' (hbefore hw) (hbefore hw')
  · intro w hw entry hentry
    rw [hqueue] at hentry
    exact (h.queued w (hbefore hw) entry hentry).mono hgrows (hother w (hne hw))
  · intro w hw c hc
    have hsame := hother w (hne hw)
    rw [hfetched w (hne hw)] at hc
    obtain ⟨hmem, hdone⟩ := h.counted w (hbefore hw) c hc
    rw [hsame.sendConnIds]
    exact ⟨hmem, hdone.mono hgrows hsame⟩
  · exact haccounted

/-- A notice that is sent while a service waits may be counted by it. -/
theorem Sound.notify (h : s.Sound) {c : Conn} {notice : Notice Service}
    (hcontroller : t.controller = s.controller) (hqueue : t.notifier = s.notifier ++ [(c, notice)])
    (hgrows : s.Grows t) (haccounted : t.Accounted)
    (hcounts : ∀ v, s.Awaits v → t.Counts v c notice) : t.Sound := by
  have hsame (v : Service) : s.SameFrame t v := .of_eq (by rw [hcontroller])
  constructor
  · intro v w hv hw
    exact h.single v w ((hsame v).awaits_iff.mp hv) ((hsame w).awaits_iff.mp hw)
  · intro v hv entry hentry
    have hbefore := (hsame v).awaits_iff.mp hv
    rw [hqueue] at hentry
    rcases List.mem_append.mp hentry with hentry | hentry
    · exact (h.queued v hbefore entry hentry).mono hgrows (hsame v)
    · obtain rfl := List.mem_singleton.mp hentry
      exact hcounts v hbefore
  · intro v hv d hd
    have hbefore := (hsame v).awaits_iff.mp hv
    rw [hcontroller] at hd
    obtain ⟨hmem, hdone⟩ := h.counted v hbefore d hd
    rw [hcontroller]
    exact ⟨hmem, hdone.mono hgrows (hsame v)⟩
  · exact haccounted

variable [DecidableEq Service]

/-- The controller that was changed. -/
theorem setController_self (v : Service) (k : VideoFrameController Conn) :
    (s.setController v k).controller v = k := by
  simp [setController]

/-- The other controllers. -/
theorem setController_of_ne {v w : Service} (h : w ≠ v) (k : VideoFrameController Conn) :
    (s.setController v k).controller w = s.controller w := by
  simp [setController, h]

/-- A service that leaves its wait with an error or at the limit. -/
theorem Sound.setController (h : s.Sound) {v : Service} {k : VideoFrameController Conn}
    (hk : k.waiting = false) : (s.setController v k).Sound := by
  have hself : ¬ (s.setController v k).Awaits v := by
    rintro ⟨hwaiting, -⟩
    rw [setController_self, hk] at hwaiting
    cases hwaiting
  have hother (w : Service) (hw : w ≠ v) : (s.setController v k).controller w = s.controller w :=
    setController_of_ne hw _
  exact h.stop hself (fun w hw => .of_eq (hother w hw)) (fun w hw => by rw [hother w hw]) rfl
    (.of_eq rfl rfl) ⟨h.accounted.complete, h.accounted.own⟩

variable [DecidableEq Conn]

/-- Leaving with all frames fetched keeps the services sound. -/
theorem Sound.leaveEarly (h : s.Sound) {v : Service} (hwaiting : (s.controller v).waiting = true)
    (hcard : (s.controller v).sendConnIds.card ≤ (s.controller v).fetchedConnIds.card) :
    (s.leaveEarly v).Sound := by
  have hself : ¬ (s.leaveEarly v).Awaits v := by
    rintro ⟨hwaiting, -⟩
    rw [show (s.leaveEarly v).controller v = (s.controller v).leave from
      setController_self v _] at hwaiting
    cases hwaiting
  have hother (w : Service) (hw : w ≠ v) : (s.leaveEarly v).controller w = s.controller w :=
    setController_of_ne hw _
  have hcomplete : (s.leaveEarly v).premature = false := by
    have hdone : decide (∀ c ∈ (s.controller v).sendConnIds, s.Done v c) = true :=
      decide_eq_true (h.complete hwaiting hcard)
    unfold VideoServices.leaveEarly
    dsimp only
    rw [hdone, h.accounted.complete]
    rfl
  exact h.stop hself (fun w hw => .of_eq (hother w hw)) (fun w hw => by rw [hother w hw]) rfl
    (.of_eq rfl rfl) ⟨hcomplete, h.accounted.own⟩

/-- The notice that is received is from a recipient, and about the current frame. -/
theorem Sound.take (h : s.Sound) {v : Service} (hawaits : s.Awaits v) {c : Conn}
    {notice : Notice Service} {rest : List (Conn × Notice Service)}
    (hqueue : s.notifier = (c, notice) :: rest) : (s.take v c notice rest).Sound := by
  have hcounts : s.Counts v c notice := h.queued v hawaits (c, notice) (by simp [hqueue])
  have hself : (s.take v c notice rest).controller v = (s.controller v).tryWaitNext c :=
    setController_self v _
  have hsame (w : Service) : s.SameFrame (s.take v c notice rest) w := by
    by_cases hw : w = v
    · subst hw
      exact ⟨by rw [hself]; rfl, by rw [hself]; rfl, by rw [hself]; rfl⟩
    · exact .of_eq (setController_of_ne hw _)
  have hgrows : s.Grows (s.take v c notice rest) := .of_eq rfl rfl
  constructor
  · intro w w' hw hw'
    exact h.single w w' ((hsame w).awaits_iff.mp hw) ((hsame w').awaits_iff.mp hw')
  · intro w hw entry hentry
    have hmem : entry ∈ s.notifier := by
      rw [hqueue]
      exact List.mem_cons_of_mem _ hentry
    exact (h.queued w ((hsame w).awaits_iff.mp hw) entry hmem).mono hgrows (hsame w)
  · intro w hw d hd
    have hbefore := (hsame w).awaits_iff.mp hw
    obtain rfl := h.single w v hbefore hawaits
    rw [hself] at hd
    have hcounted : d ∈ (s.controller w).sendConnIds ∧ s.Done w d := by
      rcases Finset.mem_insert.mp hd with rfl | hd
      · exact ⟨hcounts.recipient, hcounts.done⟩
      · exact h.counted w hawaits d hd
    rw [(hsame w).sendConnIds]
    exact ⟨hcounted.1, hcounted.2.mono hgrows (hsame w)⟩
  · refine ⟨h.accounted.complete, ?_⟩
    have hown : notice.strays v = false := by
      unfold Notice.strays
      split
      · next w n =>
        have hcurrent := hcounts.current _ rfl
        simp only [Option.some.injEq, Prod.mk.injEq] at hcurrent
        simp [hcurrent.1]
      · rfl
    change (s.strayed || notice.strays v) = false
    rw [h.accounted.own, hown]
    rfl

/-- A frame that is sent finds an empty channel. -/
theorem Sound.send (h : s.Sound) {v : Service} {connIds : Finset Conn}
    (horderly : connIds ≠ ∅ → s.notifier = [] ∧ ∀ w, ¬ s.Awaits w) :
    (s.send v connIds).Sound := by
  have hself : (s.send v connIds).controller v = (s.controller v).setSend connIds :=
    setController_self v _
  have hother (w : Service) (hw : w ≠ v) : s.SameFrame (s.send v connIds) w :=
    .of_eq (setController_of_ne hw _)
  have haccounted : (s.send v connIds).Accounted := ⟨h.accounted.complete, h.accounted.own⟩
  by_cases hempty : connIds = ∅
  · -- Nothing was sent, so nothing is waited for.
    refine h.stop ?_ hother (fun w hw => ?_) rfl (.of_eq rfl rfl) haccounted
    · rintro ⟨-, hne⟩
      rw [hself] at hne
      exact hne hempty
    · rw [show (s.send v connIds).controller w = s.controller w from setController_of_ne hw _]
  · obtain ⟨hqueue, hidle⟩ := horderly hempty
    have honly {w : Service} (hw : (s.send v connIds).Awaits w) : w = v := by
      by_contra hne
      exact hidle w ((hother w hne).awaits_iff.mp hw)
    constructor
    · intro w w' hw hw'
      exact (honly hw).trans (honly hw').symm
    · intro w _ entry hentry
      rw [show (s.send v connIds).notifier = [] from hqueue] at hentry
      cases hentry
    · intro w hw c hc
      obtain rfl := honly hw
      rw [hself] at hc
      exact absurd hc (Finset.notMem_empty c)
    · exact haccounted

/-- **One step.** An orderly step keeps the counts sound. -/
theorem Sound.step {e : VideoEvent Service Conn} (h : s.Sound) (horderly : s.Orderly e)
    (hstep : s.step e = some t) : t.Sound := by
  cases e with
  | send v connIds =>
    simp only [VideoServices.step] at hstep
    split_ifs at hstep
    obtain rfl := Option.some.inj hstep
    exact h.send horderly
  | receive v =>
    simp only [VideoServices.step] at hstep
    split_ifs at hstep with hwait
    have hawaits : s.Awaits v := by
      refine ⟨hwait.1, fun hempty => ?_⟩
      rw [hempty, Finset.card_empty] at hwait
      omega
    unfold VideoServices.receive at hstep
    cases hqueue : s.notifier with
    | nil => simp [hqueue] at hstep
    | cons entry rest =>
      rw [hqueue] at hstep
      obtain rfl := Option.some.inj hstep
      exact h.take hawaits hqueue
  | leaveEarly v =>
    simp only [VideoServices.step] at hstep
    split_ifs at hstep with hwait
    obtain rfl := Option.some.inj hstep
    exact h.leaveEarly hwait.1 hwait.2
  | leaveLate v =>
    simp only [VideoServices.step] at hstep
    split_ifs at hstep
    obtain rfl := Option.some.inj hstep
    exact h.setController rfl
  | restart v =>
    obtain rfl := Option.some.inj hstep
    exact h.setController rfl
  | fetched c frame =>
    simp only [VideoServices.step] at hstep
    split_ifs at hstep
    obtain rfl := Option.some.inj hstep
    refine h.notify rfl rfl ⟨fun _ hc => hc, List.subset_append_left _ _⟩
      ⟨h.accounted.complete, h.accounted.own⟩ fun v hv => ?_
    obtain ⟨hmem, rfl⟩ := horderly v hv
    refine ⟨hmem, .inr ⟨(c, v, (s.controller v).cur), ?_, rfl, rfl, le_rfl⟩, ?_⟩
    · simp [VideoServices.fetched]
    · intro frame hframe
      cases hframe
      rfl
  | close c =>
    simp only [VideoServices.step] at hstep
    split_ifs at hstep
    obtain rfl := Option.some.inj hstep
    refine h.notify rfl rfl ⟨List.subset_cons_self _ _, fun _ hc => hc⟩
      ⟨h.accounted.complete, h.accounted.own⟩ fun v hv => ?_
    refine ⟨horderly v hv, .inl (List.mem_cons_self ..), ?_⟩
    intro frame hframe
    cases hframe

omit [DecidableEq Service] [DecidableEq Conn] in
/-- Before the first frame the services are sound. -/
theorem new_sound : (new : VideoServices Service Conn).Sound where
  single v w hv := by simp [Awaits, new] at hv
  queued v hv := by simp [Awaits, new] at hv
  counted v hv := by simp [Awaits, new] at hv
  accounted := ⟨rfl, rfl⟩

/-- **Frame acknowledgements.** In every orderly run all early leaves are complete, and every
acknowledgement is received by the service it is for. -/
theorem accounted_of_orderly {Service Conn : Type} [DecidableEq Service] [DecidableEq Conn]
    (s : VideoServices Service Conn) (events : List (VideoEvent Service Conn))
    (hrun : (videoMachine Service Conn).RunWhere Orderly (videoMachine Service Conn).init
      events s) : s.Accounted :=
  (hrun.invariant (fun _ _ _ horderly hstep h => h.step horderly hstep) new_sound).accounted

/-! ## One display and two -/

/-- One display, whose frame two connections acknowledge. -/
theorem accounted_one_display :
    ∃ s, (videoMachine Bool ℕ).Run (videoMachine Bool ℕ).init
        [.send false {1, 2}, .fetched 2 (some (false, 1)), .receive false,
          .fetched 1 (some (false, 1)), .receive false, .leaveEarly false] s ∧ s.Accounted := by
  have hwhere : ∃ s, (videoMachine Bool ℕ).RunWhere Orderly (videoMachine Bool ℕ).init
      [.send false {1, 2}, .fetched 2 (some (false, 1)), .receive false,
        .fetched 1 (some (false, 1)), .receive false, .leaveEarly false] s := by
    refine ⟨_, .cons (fun _ => ⟨rfl, fun w hw => ?_⟩) rfl (.cons (fun v hv => ?_) rfl
      (.cons trivial rfl (.cons (fun v hv => ?_) rfl (.cons trivial rfl (.single trivial rfl)))))⟩
    · cases hw.1
    · cases v with
      | false => exact ⟨by decide, rfl⟩
      | true => cases hv.1
    · cases v with
      | false => exact ⟨by decide, rfl⟩
      | true => cases hv.1
  obtain ⟨s, hwhere⟩ := hwhere
  exact ⟨s, hwhere.run, accounted_of_orderly s _ hwhere⟩

/-- Two displays wait at once, and the acknowledgement of one frame ends the other wait. -/
theorem not_accounted_two_displays :
    ∃ s, (videoMachine Bool ℕ).Run (videoMachine Bool ℕ).init
        [.send false {1}, .send true {1}, .fetched 1 (some (false, 1)), .receive true,
          .leaveEarly true] s ∧
      s.acknowledged = [(1, false, 1)] ∧ s.premature = true ∧ s.strayed = true ∧ ¬ s.Accounted :=
  ⟨_, Machine.run_of_replay rfl, rfl, rfl, rfl, fun h => by cases h.own⟩

end VideoServices

end RdWeb.Host
