import RdWeb.Lib.Machine
import Mathlib.Algebra.Order.Ring.Int
import Mathlib.Logic.Function.Basic

/-!
# Connection rounds of a native client

`ConnectionRoundState` and `reconnect` of `ui_session_interface.rs`, `session_start_` of
`flutter.rs`, and the `io_loop` threads of all rounds. Of what a thread changes, only
`set_disconnected` looks at the round number; and `reconnect` asks for the handle of a thread, which
`session_start_` does not keep.
-/

namespace RdWeb.Client

/-- The states of a round. -/
inductive ConnectionState
  | connecting
  | connected
  | disconnected
  deriving DecidableEq

/-- The number of the round and its state, which one lock guards. -/
structure ConnectionRoundState where
  /-- a `u32` -/
  round : ℕ
  state : ConnectionState
  deriving DecidableEq

namespace ConnectionRoundState

/-- The next round, which is connecting. -/
def newRound (c : ConnectionRoundState) : ConnectionRoundState := ⟨c.round + 1, .connecting⟩

/-- The round is connected. -/
def setConnected (c : ConnectionRoundState) : ConnectionRoundState := { c with state := .connected }

/-- Whether the current round comes after `round`, with the one wrap of the number. -/
def isRoundGt (c : ConnectionRoundState) (round : ℕ) : Bool :=
  if round = 2 ^ 32 - 1 ∧ c.round = 0 then true else decide (round < c.round)

/-- A thread that ends disconnects its own round only. -/
def setDisconnected (c : ConnectionRoundState) (round : ℕ) : ConnectionRoundState :=
  if c.isRoundGt round then c else { c with state := .disconnected }

end ConnectionRoundState

/-- Where the thread of a round is. -/
inductive RoundPhase
  | none
  /-- `reconnect` has the number, and has not spawned the thread yet -/
  | numbered
  | spawned
  /-- its sender is installed, and it waits for the connection -/
  | installed
  | connected
  | ended
  deriving DecidableEq

namespace RoundPhase

/-- The thread has installed its sender. -/
def HasInstalled (p : RoundPhase) : Prop := p = .installed ∨ p = .connected ∨ p = .ended

/-- The round has begun, and neither connected nor ended. -/
def Connecting (p : RoundPhase) : Prop := p = .numbered ∨ p = .spawned ∨ p = .installed

/-- Whether a thread holds a sender is decided by its phase. -/
instance : DecidablePred HasInstalled := fun _ => inferInstanceAs (Decidable (_ ∨ _))

/-- Whether a thread is connecting is decided by its phase. -/
instance : DecidablePred Connecting := fun _ => inferInstanceAs (Decidable (_ ∨ _))

/-- What the connection state is after the events of this round alone. -/
def state : RoundPhase → ConnectionState
  | .connected => .connected
  | .ended => .disconnected
  | _ => .connecting

end RoundPhase

/-- The thread of a round, and whether it was sent `Data::Close`. -/
structure RoundThread where
  phase : RoundPhase
  closed : Bool
  deriving DecidableEq

/-- A round that has begun, was not closed and has not disconnected. -/
def RoundThread.Open (t : RoundThread) : Prop :=
  t.closed = false ∧ t.phase ≠ .none ∧ t.phase ≠ .ended

/-- What the rounds of one `Session` share. -/
structure ClientRounds where
  roundState : ConnectionRoundState
  /-- whether `thread` has a handle -/
  thread : Bool
  /-- the round whose channel `sender` is -/
  sender : Option ℕ
  threads : ℕ → RoundThread
  /-- threads of `session_start_` that have no number yet -/
  starting : ℕ
  /-- whether some `reconnect` began a round while the newest one was connecting -/
  overlapped : Bool

/-- What happens to the rounds: the calls of the interface and the steps of the threads. -/
inductive RoundEvent
  | sessionStart
  /-- the thread of `session_start_` takes its number and goes on to `io_loop` -/
  | startRound
  /-- `reconnect` up to the end of its lock on the round state -/
  | reconnect
  /-- the rest of it -/
  | spawn (round : ℕ)
  | install (round : ℕ)
  | setConnected (round : ℕ)
  /-- the thread ends, by an error, by a `Data::Close` or because it could not connect -/
  | setDisconnected (round : ℕ)
  deriving DecidableEq

namespace ClientRounds

/-- The thread of the current round. -/
def newest (s : ClientRounds) : RoundThread := s.threads s.roundState.round

/-- The thread of a round goes on to a phase. -/
def setPhase (s : ClientRounds) (round : ℕ) (phase : RoundPhase) : ClientRounds :=
  { s with threads := Function.update s.threads round { s.threads round with phase := phase } }

/-- `send(Data::Close)`. -/
def sendClose (s : ClientRounds) : ClientRounds :=
  match s.sender with
  | some round =>
    { s with threads := Function.update s.threads round { s.threads round with closed := true } }
  | none => s

/-- A new number, for a thread in this phase. Numbers are assumed not to reach the last one. -/
def newRound (s : ClientRounds) (phase : RoundPhase) : Option ClientRounds :=
  if s.roundState.round + 1 < 2 ^ 32 - 1 then
    some ({ s with roundState := s.roundState.newRound }.setPhase (s.roundState.round + 1) phase)
  else none

/-- Whether `reconnect` returns at once. -/
def StaysAway (s : ClientRounds) : Prop :=
  s.thread = true ∧ s.roundState.state = .connecting

/-- Whether `reconnect` returns at once is decided by the handle and the state. -/
instance (s : ClientRounds) : Decidable s.StaysAway := inferInstanceAs (Decidable (_ ∧ _))

/-- Whether `reconnect` closes the connection first. -/
def Closes (s : ClientRounds) : Prop := s.thread = true ∧ s.roundState.state = .connected

/-- Whether `reconnect` closes the old thread is decided by the state. -/
instance (s : ClientRounds) : Decidable s.Closes := inferInstanceAs (Decidable (_ ∧ _))

/-- `reconnect`, up to the end of its lock on the round state. -/
def reconnect (s : ClientRounds) : Option ClientRounds :=
  if s.StaysAway then some s
  else
    let s' := if s.Closes then s.sendClose else s
    { s' with overlapped := s.overlapped || decide s.newest.phase.Connecting }.newRound .numbered

/-- One step of a call or of a thread. -/
def step (s : ClientRounds) : RoundEvent → Option ClientRounds
  | .sessionStart => some { s with starting := s.starting + 1 }
  | .startRound =>
    if 0 < s.starting then { s with starting := s.starting - 1 }.newRound .spawned else none
  | .reconnect => s.reconnect
  | .spawn round =>
    if (s.threads round).phase = .numbered then
      some ({ s with thread := true }.setPhase round .spawned)
    else none
  | .install round =>
    if (s.threads round).phase = .spawned then
      some ({ s with sender := some round }.setPhase round .installed)
    else none
  | .setConnected round =>
    if (s.threads round).phase = .installed then
      some ({ s with roundState := s.roundState.setConnected }.setPhase round .connected)
    else none
  | .setDisconnected round =>
    if (s.threads round).phase = .installed ∨ (s.threads round).phase = .connected then
      some ({ s with roundState := s.roundState.setDisconnected round }.setPhase round .ended)
    else none

/-- A session before its first round. -/
def machine : Machine ClientRounds RoundEvent :=
  ⟨⟨⟨0, .connecting⟩, false, none, fun _ => ⟨.none, false⟩, 0, false⟩, step⟩

/-- Only the newest round counts. -/
structure OnlyNewest (s : ClientRounds) : Prop where
  sender_newest : s.newest.phase.HasInstalled → s.sender = some s.roundState.round
  state_newest : s.newest.phase.HasInstalled → s.roundState.state = s.newest.phase.state
  no_overlap : s.overlapped = false
  one_open : ∀ r r', (s.threads r).Open → (s.threads r').Open → r = r'

/-- A step comes in order: a round begins when none is connecting and none stays open but the one
that is closed for it, and a thread of an older round is not heard of once the newest one has its
sender installed. -/
def InOrder (s : ClientRounds) : RoundEvent → Prop
  | .startRound => ∀ r, ¬ (s.threads r).Open
  | .reconnect => s.StaysAway ∨
      ¬ s.newest.phase.Connecting ∧
        ∀ r, (s.threads r).Open → s.Closes ∧ s.sender = some r
  | .install round =>
    if round = s.roundState.round then s.roundState.state = .connecting
    else ¬ s.newest.phase.HasInstalled
  | .setConnected round => round = s.roundState.round ∨ ¬ s.newest.phase.HasInstalled ∨
      s.newest.phase = .connected
  | _ => True

/-- The rounds that have begun are numbered from 1 to the newest one. -/
structure Numbered (s : ClientRounds) : Prop where
  later : ∀ r, s.roundState.round < r → s.threads r = ⟨.none, false⟩
  sender_le : ∀ r, s.sender = some r → r ≤ s.roundState.round
  bound : s.roundState.round < 2 ^ 32 - 1

variable {s t : ClientRounds}

/-- A phase does not touch the round. -/
@[simp] theorem setPhase_roundState (s : ClientRounds) (r : ℕ) (p : RoundPhase) :
    (s.setPhase r p).roundState = s.roundState := rfl

/-- A phase does not touch the sender. -/
@[simp] theorem setPhase_sender (s : ClientRounds) (r : ℕ) (p : RoundPhase) :
    (s.setPhase r p).sender = s.sender := rfl

/-- A phase does not touch the record of overlaps. -/
@[simp] theorem setPhase_overlapped (s : ClientRounds) (r : ℕ) (p : RoundPhase) :
    (s.setPhase r p).overlapped = s.overlapped := rfl

/-- The threads after one of them changed its phase. -/
theorem setPhase_threads (s : ClientRounds) (r r' : ℕ) (p : RoundPhase) :
    (s.setPhase r p).threads r' =
      if r' = r then { s.threads r with phase := p } else s.threads r' := by
  simp [setPhase, Function.update_apply]

/-- The thread that changed its phase. -/
theorem setPhase_threads_self (s : ClientRounds) (r : ℕ) (p : RoundPhase) :
    (s.setPhase r p).threads r = { s.threads r with phase := p } := by
  simp [setPhase_threads]

/-- The other threads stay. -/
theorem setPhase_threads_of_ne (s : ClientRounds) {r r' : ℕ} (p : RoundPhase) (h : r' ≠ r) :
    (s.setPhase r p).threads r' = s.threads r' := by
  simp [setPhase_threads, h]

/-- Closing does not touch the round. -/
theorem sendClose_roundState (s : ClientRounds) : s.sendClose.roundState = s.roundState := by
  unfold sendClose
  split <;> rfl

/-- Closing does not touch the sender. -/
theorem sendClose_sender (s : ClientRounds) : s.sendClose.sender = s.sender := by
  unfold sendClose
  split <;> rfl

/-- A thread is open after the `Data::Close` if it was before and is not the one it goes to. -/
theorem open_sendClose_iff (s : ClientRounds) (r : ℕ) :
    (s.sendClose.threads r).Open ↔ (s.threads r).Open ∧ s.sender ≠ some r := by
  unfold sendClose
  split
  · next round hsender =>
    simp only [Function.update_apply, hsender, ne_eq, Option.some.injEq]
    split_ifs with hr
    · subst hr
      simp [RoundThread.Open]
    · simp [eq_comm, hr]
  · next hsender => simp [hsender]

/-- A thread that goes on is open as before. -/
theorem open_setPhase_iff {r : ℕ} {p : RoundPhase} (hbefore : (s.threads r).phase ≠ .none)
    (hend : (s.threads r).phase ≠ .ended) (hp : p ≠ .none) (hp' : p ≠ .ended) (r' : ℕ) :
    ((s.setPhase r p).threads r').Open ↔ (s.threads r').Open := by
  by_cases hr : r' = r
  · subst hr
    rw [setPhase_threads_self]
    simp [RoundThread.Open, hbefore, hend, hp, hp']
  · rw [setPhase_threads_of_ne s p hr]

/-- What `newRound` gives: one more round, in its phase. -/
theorem newRound_eq {p : RoundPhase} (h : s.newRound p = some t) :
    s.roundState.round + 1 < 2 ^ 32 - 1 ∧
      t = { s with roundState := s.roundState.newRound }.setPhase (s.roundState.round + 1) p := by
  unfold newRound at h
  split_ifs at h with hbound
  exact ⟨hbound, (Option.some.inj h).symm⟩

/-- The numbering looks at the threads, the round and the sender only. -/
theorem Numbered.of_same {u : ClientRounds} (h : s.Numbered) (hthreads : u.threads = s.threads)
    (hround : u.roundState.round = s.roundState.round)
    (hsender : ∀ r, u.sender = some r → r ≤ s.roundState.round) : u.Numbered := by
  refine ⟨?_, ?_, ?_⟩
  · rw [hthreads, hround]
    exact h.later
  · rw [hround]
    exact hsender
  · rw [hround]
    exact h.bound

/-- A new round keeps the numbering. -/
theorem Numbered.newRound (h : s.Numbered) {p : RoundPhase} (hstep : s.newRound p = some t) :
    t.Numbered := by
  obtain ⟨hbound, rfl⟩ := newRound_eq hstep
  refine ⟨fun r hr => ?_, fun r hr => ?_, hbound⟩
  · have hr' : s.roundState.round + 1 < r := hr
    rw [setPhase_threads_of_ne _ p (by omega)]
    exact h.later r (by omega)
  · exact Nat.le_succ_of_le (h.sender_le r hr)

/-- A begun round is one of the numbered. -/
theorem Numbered.le_of_begun (h : s.Numbered) {r : ℕ} (hr : (s.threads r).phase ≠ .none) :
    r ≤ s.roundState.round := by
  by_contra hlt
  rw [h.later r (by omega)] at hr
  exact hr rfl

/-- A thread that exists may change its phase. -/
theorem Numbered.setPhase (h : s.Numbered) {r : ℕ} (hr : (s.threads r).phase ≠ .none)
    (p : RoundPhase) : (s.setPhase r p).Numbered := by
  refine ⟨fun r' hr' => ?_, h.sender_le, h.bound⟩
  have hle := h.le_of_begun hr
  have hlt : s.roundState.round < r' := hr'
  rw [setPhase_threads_of_ne s p (by omega)]
  exact h.later r' hlt

/-- Closing keeps the numbering. -/
theorem Numbered.sendClose (h : s.Numbered) : s.sendClose.Numbered := by
  refine ⟨fun r hr => ?_, fun r hr => ?_, ?_⟩
  · rw [sendClose_roundState] at hr
    unfold ClientRounds.sendClose
    split
    · next round hsender =>
      have hle := h.sender_le round hsender
      simp only [Function.update_apply]
      rw [if_neg (by omega)]
      exact h.later r hr
    · exact h.later r hr
  · rw [sendClose_sender] at hr
    rw [sendClose_roundState]
    exact h.sender_le r hr
  · rw [sendClose_roundState]
    exact h.bound

/-- **One step** keeps the numbering. -/
theorem Numbered.step (h : s.Numbered) {e : RoundEvent} (hstep : s.step e = some t) :
    t.Numbered := by
  cases e with
  | sessionStart =>
    obtain rfl := Option.some.inj hstep
    exact h.of_same rfl rfl h.sender_le
  | startRound =>
    simp only [ClientRounds.step] at hstep
    split_ifs at hstep
    have hsame : { s with starting := s.starting - 1 }.Numbered := h.of_same rfl rfl h.sender_le
    exact hsame.newRound hstep
  | reconnect =>
    simp only [ClientRounds.step, reconnect] at hstep
    split at hstep
    · obtain rfl := Option.some.inj hstep
      exact h
    · have hclosed : (if s.Closes then s.sendClose else s).Numbered := by
        split
        · exact h.sendClose
        · exact h
      have hsame := hclosed.of_same (u := { (if s.Closes then s.sendClose else s) with
        overlapped := s.overlapped || decide s.newest.phase.Connecting }) rfl rfl hclosed.sender_le
      exact hsame.newRound hstep
  | spawn round =>
    simp only [ClientRounds.step] at hstep
    split_ifs at hstep with hphase
    obtain rfl := Option.some.inj hstep
    have hsame : { s with thread := true }.Numbered := h.of_same rfl rfl h.sender_le
    exact hsame.setPhase (by simp [hphase]) _
  | install round =>
    simp only [ClientRounds.step] at hstep
    split_ifs at hstep with hphase
    obtain rfl := Option.some.inj hstep
    have hle := h.le_of_begun (r := round) (by simp [hphase])
    have hsame : { s with sender := some round }.Numbered :=
      h.of_same rfl rfl fun r hr => Option.some.inj hr ▸ hle
    exact hsame.setPhase (by simp [hphase]) _
  | setConnected round =>
    simp only [ClientRounds.step] at hstep
    split_ifs at hstep with hphase
    obtain rfl := Option.some.inj hstep
    have hsame : { s with roundState := s.roundState.setConnected }.Numbered :=
      h.of_same rfl rfl h.sender_le
    exact hsame.setPhase (by simp [hphase]) _
  | setDisconnected round =>
    simp only [ClientRounds.step] at hstep
    split_ifs at hstep with hphase
    obtain rfl := Option.some.inj hstep
    have hround : (s.roundState.setDisconnected round).round = s.roundState.round := by
      unfold ConnectionRoundState.setDisconnected
      split <;> rfl
    have hsame : { s with roundState := s.roundState.setDisconnected round }.Numbered :=
      h.of_same rfl hround h.sender_le
    refine hsame.setPhase ?_ _
    rcases hphase with hphase | hphase <;> simp [hphase]

/-- A round that begins while none stays open is the one open round. -/
theorem onlyNewest_newRound_iff (h : s.Numbered) {p : RoundPhase}
    (hp : p = .numbered ∨ p = .spawned) (hstep : s.newRound p = some t) :
    t.OnlyNewest ↔ s.overlapped = false ∧ ∀ r, ¬ (s.threads r).Open := by
  obtain ⟨-, rfl⟩ := newRound_eq hstep
  have hfresh : s.threads (s.roundState.round + 1) = ⟨.none, false⟩ := h.later _ (by omega)
  have hnewest : ({ s with roundState := s.roundState.newRound }.setPhase
      (s.roundState.round + 1) p).newest = ⟨p, false⟩ := by
    have hself := setPhase_threads_self { s with roundState := s.roundState.newRound }
      (s.roundState.round + 1) p
    exact hself.trans (by simp [hfresh])
  have hnot : ¬ p.HasInstalled := by rcases hp with rfl | rfl <;> decide
  have hopen : (⟨p, false⟩ : RoundThread).Open := by
    rcases hp with rfl | rfl <;> simp [RoundThread.Open]
  constructor
  · intro hafter
    refine ⟨hafter.no_overlap, fun r hr => ?_⟩
    have hne : r ≠ s.roundState.round + 1 := by
      rintro rfl
      rw [hfresh] at hr
      exact hr.2.1 rfl
    refine hne (hafter.one_open r (s.roundState.round + 1) ?_ ?_)
    · rw [setPhase_threads_of_ne _ p hne]
      exact hr
    · rw [setPhase_threads_self]
      simpa [hfresh] using hopen
  · rintro ⟨hoverlap, hnone⟩
    have honly : ∀ r, (({ s with roundState := s.roundState.newRound }.setPhase
        (s.roundState.round + 1) p).threads r).Open → r = s.roundState.round + 1 := by
      intro r hr
      by_contra hne
      rw [setPhase_threads_of_ne _ p hne] at hr
      exact hnone r hr
    refine ⟨fun hinst => ?_, fun hinst => ?_, hoverlap, fun r r' hr hr' => ?_⟩
    · rw [hnewest] at hinst
      exact absurd hinst hnot
    · rw [hnewest] at hinst
      exact absurd hinst hnot
    · rw [honly r hr, honly r' hr']

/-- The newest thread stays while another one changes its phase. -/
theorem newest_setPhase_of_ne {r : ℕ} (h : r ≠ s.roundState.round) (p : RoundPhase) :
    (s.setPhase r p).newest = s.newest :=
  setPhase_threads_of_ne s p (Ne.symm h)

/-- The newest thread after its own phase changed. -/
theorem newest_setPhase_self (p : RoundPhase) :
    (s.setPhase s.roundState.round p).newest = { s.newest with phase := p } :=
  setPhase_threads_self s _ p

/-- Threads that go on leave at most one round open. -/
theorem one_open_setPhase (h : ∀ r r', (s.threads r).Open → (s.threads r').Open → r = r') {r : ℕ}
    {p : RoundPhase} (hopen : ∀ r', ((s.setPhase r p).threads r').Open → (s.threads r').Open) :
    ∀ r' r'', ((s.setPhase r p).threads r').Open → ((s.setPhase r p).threads r'').Open →
      r' = r'' :=
  fun r' r'' hr' hr'' => h r' r'' (hopen r' hr') (hopen r'' hr'')

/-- `reconnect` leaves the newest thread alone connected if and only if it comes in order. -/
theorem onlyNewest_reconnect_iff (hnumbered : s.Numbered) (h : s.OnlyNewest)
    (hstep : s.reconnect = some t) : t.OnlyNewest ↔ s.InOrder .reconnect := by
  unfold reconnect at hstep
  split at hstep
  · next haway =>
    obtain rfl := Option.some.inj hstep
    exact iff_of_true h (Or.inl haway)
  · next haway =>
    have hclosed : (if s.Closes then s.sendClose else s).Numbered := by
      split
      · exact hnumbered.sendClose
      · exact hnumbered
    have hsame := hclosed.of_same (u := { (if s.Closes then s.sendClose else s) with
      overlapped := s.overlapped || decide s.newest.phase.Connecting }) rfl rfl hclosed.sender_le
    rw [onlyNewest_newRound_iff hsame (Or.inl rfl) hstep]
    have hopen (r : ℕ) : ((if s.Closes then s.sendClose else s).threads r).Open ↔
        (s.threads r).Open ∧ ¬ (s.Closes ∧ s.sender = some r) := by
      split
      · next hcloses =>
        rw [open_sendClose_iff]
        simp [hcloses]
      · next hcloses => simp [hcloses]
    have hnone : (∀ r, ¬ ((if s.Closes then s.sendClose else s).threads r).Open) ↔
        ∀ r, (s.threads r).Open → s.Closes ∧ s.sender = some r := by
      refine forall_congr' fun r => ?_
      rw [hopen r]
      tauto
    simp only [InOrder, haway, false_or, hnone, h.no_overlap, Bool.false_or,
      decide_eq_false_iff_not]

/-- The thread of a round installs its sender. -/
theorem onlyNewest_install_iff (h : s.OnlyNewest) {r : ℕ}
    (hphase : (s.threads r).phase = .spawned) :
    ({ s with sender := some r }.setPhase r .installed).OnlyNewest ↔ s.InOrder (.install r) := by
  have hone := one_open_setPhase (s := { s with sender := some r }) (r := r) (p := .installed)
    h.one_open fun r' => (open_setPhase_iff (s := { s with sender := some r })
      (by simp [hphase]) (by simp [hphase]) (by simp) (by simp) r').mp
  by_cases hr : r = s.roundState.round
  · subst hr
    have hnewest := newest_setPhase_self (s := { s with sender := some s.roundState.round })
      .installed
    simp only [InOrder, if_true]
    constructor
    · intro hafter
      have hstate := hafter.state_newest
      rw [hnewest] at hstate
      exact hstate (Or.inl rfl)
    · intro hstate
      refine ⟨fun _ => rfl, fun _ => ?_, h.no_overlap, hone⟩
      rw [hnewest]
      exact hstate
  · have hnewest := newest_setPhase_of_ne (s := { s with sender := some r }) hr .installed
    simp only [InOrder, if_neg hr]
    constructor
    · intro hafter hinst
      have hsender := hafter.sender_newest
      rw [hnewest] at hsender
      exact hr (Option.some.inj (hsender hinst))
    · intro hnot
      refine ⟨fun hinst => ?_, fun hinst => ?_, h.no_overlap, hone⟩
      · rw [hnewest] at hinst
        exact absurd hinst hnot
      · rw [hnewest] at hinst
        exact absurd hinst hnot

/-- The thread of a round is connected. -/
theorem onlyNewest_setConnected_iff (h : s.OnlyNewest) {r : ℕ}
    (hphase : (s.threads r).phase = .installed) :
    ({ s with roundState := s.roundState.setConnected }.setPhase r .connected).OnlyNewest ↔
      s.InOrder (.setConnected r) := by
  have hone := one_open_setPhase (s := { s with roundState := s.roundState.setConnected }) (r := r)
    (p := .connected) h.one_open fun r' =>
      (open_setPhase_iff (s := { s with roundState := s.roundState.setConnected })
        (by simp [hphase]) (by simp [hphase]) (by simp) (by simp) r').mp
  by_cases hr : r = s.roundState.round
  · subst hr
    have hnewest := newest_setPhase_self
      (s := { s with roundState := s.roundState.setConnected }) .connected
    refine iff_of_true ⟨fun _ => ?_, fun _ => ?_, h.no_overlap, hone⟩ (Or.inl rfl)
    · have hinst : s.newest.phase.HasInstalled := Or.inl hphase
      exact h.sender_newest hinst
    · have hphase' := congrArg RoundThread.phase hnewest
      exact (congrArg RoundPhase.state hphase').symm
  · have hnewest := newest_setPhase_of_ne
      (s := { s with roundState := s.roundState.setConnected }) hr .connected
    simp only [InOrder, hr, false_or]
    constructor
    · intro hafter
      by_cases hinst : s.newest.phase.HasInstalled
      · have hstate := hafter.state_newest
        rw [hnewest] at hstate
        have hconnected : .connected = s.newest.phase.state := hstate hinst
        right
        revert hconnected
        cases s.newest.phase <;> simp [RoundPhase.state]
      · exact Or.inl hinst
    · intro hok
      refine ⟨fun hinst => ?_, fun hinst => ?_, h.no_overlap, hone⟩
      · rw [hnewest] at hinst
        exact h.sender_newest hinst
      · rw [hnewest] at hinst ⊢
        rcases hok with hnot | hconnected
        · exact absurd hinst hnot
        · show ConnectionState.connected = s.newest.phase.state
          rw [hconnected]
          rfl

/-- The end of an older round changes nothing that counts. -/
theorem onlyNewest_setDisconnected (hnumbered : s.Numbered) (h : s.OnlyNewest) {r : ℕ}
    (hphase : (s.threads r).phase = .installed ∨ (s.threads r).phase = .connected) :
    ({ s with roundState := s.roundState.setDisconnected r }.setPhase r .ended).OnlyNewest := by
  have hbegun : (s.threads r).phase ≠ .none := by rcases hphase with hp | hp <;> simp [hp]
  have hle := hnumbered.le_of_begun hbegun
  have hbound := hnumbered.bound
  have hone := one_open_setPhase (s := { s with roundState := s.roundState.setDisconnected r })
    (r := r) (p := .ended) h.one_open fun r' hr' => by
      by_cases hsame : r' = r
      · subst hsame
        rw [setPhase_threads_self] at hr'
        exact absurd rfl hr'.2.2
      · rwa [setPhase_threads_of_ne _ _ hsame] at hr'
  by_cases hr : r = s.roundState.round
  · subst hr
    have hgt : s.roundState.isRoundGt s.roundState.round = false := by
      have hne : s.roundState.round ≠ 2 ^ 32 - 1 := by omega
      unfold ConnectionRoundState.isRoundGt
      rw [if_neg fun h => hne h.1]
      exact decide_eq_false (Nat.lt_irrefl _)
    have hstate : s.roundState.setDisconnected s.roundState.round =
        { s.roundState with state := .disconnected } := by
      simp [ConnectionRoundState.setDisconnected, hgt]
    rw [hstate] at hone ⊢
    have hnewest := newest_setPhase_self
      (s := { s with roundState := { s.roundState with state := .disconnected } }) .ended
    refine ⟨fun _ => ?_, fun _ => ?_, h.no_overlap, hone⟩
    · have hinst : s.newest.phase.HasInstalled := by
        rcases hphase with hp | hp
        · exact Or.inl hp
        · exact Or.inr (Or.inl hp)
      exact h.sender_newest hinst
    · have hphase' := congrArg RoundThread.phase hnewest
      exact (congrArg RoundPhase.state hphase').symm
  · have hgt : s.roundState.isRoundGt r = true := by
      have hlt : r < s.roundState.round := by omega
      unfold ConnectionRoundState.isRoundGt
      split_ifs
      · rfl
      · simpa using hlt
    have hstate : s.roundState.setDisconnected r = s.roundState := by
      simp [ConnectionRoundState.setDisconnected, hgt]
    rw [hstate] at hone ⊢
    have hnewest := newest_setPhase_of_ne hr .ended
    refine ⟨fun hinst => ?_, fun hinst => ?_, h.no_overlap, hone⟩
    · rw [hnewest] at hinst
      exact h.sender_newest hinst
    · rw [hnewest] at hinst ⊢
      exact h.state_newest hinst

/-- **One step** leaves only the newest round to count if and only if it comes in order. -/
theorem onlyNewest_step_iff {e : RoundEvent} (hstep : s.step e = some t)
    (hnumbered : s.Numbered) (h : s.OnlyNewest) : t.OnlyNewest ↔ s.InOrder e := by
  cases e with
  | sessionStart =>
    obtain rfl := Option.some.inj hstep
    exact iff_of_true ⟨h.sender_newest, h.state_newest, h.no_overlap, h.one_open⟩ trivial
  | startRound =>
    simp only [step] at hstep
    split_ifs at hstep
    have hsame : { s with starting := s.starting - 1 }.Numbered :=
      hnumbered.of_same rfl rfl hnumbered.sender_le
    rw [onlyNewest_newRound_iff hsame (Or.inr rfl) hstep]
    exact and_iff_right h.no_overlap
  | reconnect => exact onlyNewest_reconnect_iff hnumbered h hstep
  | spawn round =>
    simp only [step] at hstep
    split_ifs at hstep with hphase
    obtain rfl := Option.some.inj hstep
    refine iff_of_true ?_ trivial
    have hone := one_open_setPhase (s := { s with thread := true }) (r := round) (p := .spawned)
      h.one_open fun r' => (open_setPhase_iff (s := { s with thread := true })
        (by simp [hphase]) (by simp [hphase]) (by simp) (by simp) r').mp
    by_cases hr : round = s.roundState.round
    · subst hr
      have hnewest := newest_setPhase_self (s := { s with thread := true }) .spawned
      refine ⟨fun hinst => ?_, fun hinst => ?_, h.no_overlap, hone⟩
      · rw [hnewest] at hinst
        exact absurd hinst (by simp [RoundPhase.HasInstalled])
      · rw [hnewest] at hinst
        exact absurd hinst (by simp [RoundPhase.HasInstalled])
    · have hnewest := newest_setPhase_of_ne (s := { s with thread := true }) hr .spawned
      refine ⟨fun hinst => ?_, fun hinst => ?_, h.no_overlap, hone⟩
      · rw [hnewest] at hinst
        exact h.sender_newest hinst
      · rw [hnewest] at hinst ⊢
        exact h.state_newest hinst
  | install round =>
    simp only [step] at hstep
    split_ifs at hstep with hphase
    obtain rfl := Option.some.inj hstep
    exact onlyNewest_install_iff h hphase
  | setConnected round =>
    simp only [step] at hstep
    split_ifs at hstep with hphase
    obtain rfl := Option.some.inj hstep
    exact onlyNewest_setConnected_iff h hphase
  | setDisconnected round =>
    simp only [step] at hstep
    split_ifs at hstep with hphase
    obtain rfl := Option.some.inj hstep
    exact iff_of_true (onlyNewest_setDisconnected hnumbered h hphase) trivial

/-- **Only the newest round counts.** In any interleaving of `session_start_`, `reconnect` and
the threads of all rounds, only the newest round counts all along if and only if every step comes
in order. -/
theorem onlyNewest_iff_inOrder {events : List RoundEvent}
    (hrun : machine.Run machine.init events s) :
    (∀ first u, first <+: events → machine.Run machine.init first u → u.OnlyNewest) ↔
      machine.RunWhere InOrder machine.init events s := by
  have hnumbered : machine.init.Numbered :=
    ⟨fun _ _ => rfl, fun _ hr => (by cases hr), by decide⟩
  have honly : machine.init.OnlyNewest := by
    refine ⟨fun hinst => ?_, fun _ => rfl, rfl, fun r _ hr => absurd rfl hr.2.1⟩
    revert hinst
    decide
  exact Machine.runWhere_iff_beside (M := machine) (fun _ _ _ hstep h => h.step hstep)
    (fun _ _ _ hstep h hs => onlyNewest_step_iff hstep h hs) hnumbered honly hrun

/-- A connection is lost, made again, and then closed for a third round. -/
def threeRounds : List RoundEvent :=
  [.sessionStart, .startRound, .install 1, .setConnected 1, .setDisconnected 1, .reconnect,
    .spawn 2, .reconnect, .install 2, .setConnected 2, .reconnect, .spawn 3, .setDisconnected 2,
    .install 3, .setConnected 3]

/-- The rounds after these steps. -/
def afterThreeRounds : ClientRounds :=
  (machine.replay machine.init threeRounds).getD machine.init

/-- The equivalence on three rounds, each of which starts after the last one. -/
theorem onlyNewest_iff_inOrder_threeRounds :
    (∀ first u, first <+: threeRounds → machine.Run machine.init first u → u.OnlyNewest) ↔
      machine.RunWhere InOrder machine.init threeRounds afterThreeRounds :=
  onlyNewest_iff_inOrder (Machine.run_of_replay rfl)

/-- `reconnect` is called while the first round, which left no handle, is connecting. -/
def reconnectWhileConnecting : List RoundEvent :=
  [.sessionStart, .startRound, .install 1, .reconnect]

/-- The rounds after these steps. -/
def afterReconnectWhileConnecting : ClientRounds :=
  (machine.replay machine.init reconnectWhileConnecting).getD machine.init

/-- A reconnect while the first round still connects leaves two threads at work. -/
theorem not_onlyNewest_reconnectWhileConnecting :
    ¬ ∀ events s, machine.Run machine.init events s → s.OnlyNewest := by
  intro hall
  have honly := hall reconnectWhileConnecting afterReconnectWhileConnecting
    (Machine.run_of_replay rfl)
  have hoverlap := honly.no_overlap
  revert hoverlap
  decide

end ClientRounds

end RdWeb.Client
