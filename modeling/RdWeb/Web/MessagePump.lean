import Mathlib.Data.Option.Basic
import RdWeb.FileTransfer.Connection

/-!
# The pump of queued messages

`BaseConnection` of `session_base.ts`: `queueMessage` appends to `_msgs`, and the interval
that `prepareConnect` starts shifts the messages into the web socket. The shift stands in
the argument of `this._ws?.sendMessage(..)`, so it is not evaluated while `_ws` is undefined.
-/

namespace RdWeb.Web

/-- `readyState` of a web socket that has been open. `_ws` is set after `open` has resolved,
so it is never CONNECTING. -/
inductive ReadyState
  | OPEN
  | CLOSING
  | CLOSED
  deriving DecidableEq

/-- The fields that the pump reads. `hung` is set when a timer callback never returns,
`queued` has all that was given to `queueMessage`, and `handed` what was given to a web
socket, with its `readyState` then: it sends what it gets only in the state OPEN. -/
structure BaseConnection (M : Type*) where
  msgs : List M
  interval : Bool
  ws : Option ReadyState
  hung : Bool
  queued : List M
  handed : List (M × ReadyState)

namespace BaseConnection

variable {M : Type*} {s t : BaseConnection M}

/-- A connection without a socket. -/
def new : BaseConnection M where
  msgs := []
  interval := false
  ws := none
  hung := false
  queued := []
  handed := []

/-- `prepareConnect`, which ends with `startMessagePump`. -/
def startMessagePump (s : BaseConnection M) : BaseConnection M := { s with interval := true }

/-- A message is queued. -/
def queueMessage (s : BaseConnection M) (m : M) : BaseConnection M :=
  { s with msgs := s.msgs ++ [m], queued := s.queued ++ [m] }

/-- `connectRelay` has a web socket, in the state it has after the handshake. -/
def connectRelay (s : BaseConnection M) (state : ReadyState) : BaseConnection M :=
  { s with ws := some state }

/-- `Websock.close`. -/
def closeSocket : ReadyState → ReadyState
  | .OPEN => .CLOSING
  | state => state

/-- What every connection does to close. -/
def baseClose (s : BaseConnection M) : BaseConnection M :=
  { s with msgs := [], interval := false, ws := s.ws.map closeSocket }

/-- The body of the loop. -/
def turn (s : BaseConnection M) : BaseConnection M :=
  match s.ws, s.msgs with
  | some state, m :: rest => { s with msgs := rest, handed := s.handed ++ [(m, state)] }
  | _, _ => s

/-- `while (this._msgs.length)`, for at most so many turns. -/
def tickLoop : ℕ → BaseConnection M → Option (BaseConnection M)
  | 0, s => if s.msgs.isEmpty then some s else none
  | turns + 1, s => if s.msgs.isEmpty then some s else tickLoop turns s.turn

/-- The loop ends in `t`. -/
def TickEnds (s t : BaseConnection M) : Prop := ∃ turns, s.tickLoop turns = some t

/-- The callback of the interval. A loop that has not ended after a turn for each message
never does. -/
def tick (s : BaseConnection M) : BaseConnection M :=
  (s.tickLoop s.msgs.length).getD { s with hung := true }

end BaseConnection

/-- What happens to the pump. -/
inductive PumpEvent (M : Type*)
  | prepareConnect
  | queueMessage (m : M)
  | connection (state : ReadyState)
  /-- An attempt to connect fails before there is a web socket. -/
  | failure
  /-- The web socket of the connection changes its state. -/
  | socket (state : ReadyState)
  | tick
  | baseClose

/-- How `readyState` changes by itself. -/
def ReadyState.Follows : ReadyState → ReadyState → Bool
  | .OPEN, .CLOSING => true
  | .OPEN, .CLOSED => true
  | .CLOSING, .CLOSED => true
  | _, _ => false

namespace BaseConnection

variable {M : Type*} {s t : BaseConnection M}

/-- One step, unless a tick hangs. -/
def step (s : BaseConnection M) (e : PumpEvent M) : Option (BaseConnection M) :=
  if s.hung then none
  else
    match e with
    | .prepareConnect => some s.startMessagePump
    | .queueMessage m => some (s.queueMessage m)
    | .connection state => some (s.connectRelay state)
    | .failure => some s
    | .socket state => if s.ws.any (·.Follows state) then some { s with ws := some state } else none
    | .tick => if s.interval then some s.tick else none
    | .baseClose => some s.baseClose

end BaseConnection

/-- The pump of a connection. -/
def pumpMachine (M : Type*) : Machine (BaseConnection M) (PumpEvent M) where
  init := .new
  step := BaseConnection.step

namespace BaseConnection

variable {M : Type*} {s t : BaseConnection M}

/-! ## One tick -/

/-- Every message is handed to a web socket in the state. -/
def handAll (s : BaseConnection M) (state : ReadyState) : BaseConnection M :=
  { s with msgs := [], handed := s.handed ++ s.msgs.map (·, state) }

/-- A tick with an empty queue ends at once. -/
theorem tickLoop_of_nil (hmsgs : s.msgs = []) (turns : ℕ) : s.tickLoop turns = some s := by
  cases turns <;> simp [tickLoop, hmsgs]

/-- Without a web socket nothing is shifted. -/
theorem turn_of_none (hws : s.ws = none) : s.turn = s := by
  rw [turn, hws]

/-- **The loop never ends** without a web socket and with a message. -/
theorem tickLoop_of_none (hws : s.ws = none) (hmsgs : s.msgs ≠ []) (turns : ℕ) :
    s.tickLoop turns = none := by
  induction turns with
  | zero => simp [tickLoop, hmsgs]
  | succ turns ih => simp [tickLoop, hmsgs, turn_of_none hws, ih]

/-- With a web socket in whatever state a turn for each message is enough. -/
theorem tickLoop_of_some {state : ReadyState} (hws : s.ws = some state) :
    s.tickLoop s.msgs.length = some (s.handAll state) := by
  generalize hmsgs : s.msgs = msgs
  induction msgs generalizing s with
  | nil =>
    rw [tickLoop_of_nil hmsgs, handAll, hmsgs, List.map_nil, List.append_nil, ← hmsgs]
  | cons m rest ih =>
    have hturn : s.turn = { s with msgs := rest, handed := s.handed ++ [(m, state)] } := by
      rw [turn, hws, hmsgs]
    have hrest : s.turn.tickLoop rest.length = some (s.turn.handAll state) := by
      apply ih <;> simp [hturn, hws]
    rw [List.length_cons, tickLoop, hmsgs]
    simp only [List.isEmpty_cons, Bool.false_eq_true, if_false]
    rw [hrest, hturn]
    simp [handAll, hmsgs]

/-- More turns end where fewer have ended. -/
theorem tickLoop_add {turns : ℕ} (h : s.tickLoop turns = some t) (more : ℕ) :
    s.tickLoop (turns + more) = some t := by
  induction turns generalizing s with
  | zero =>
    rw [tickLoop] at h
    split_ifs at h with hmsgs
    rw [tickLoop_of_nil (List.isEmpty_iff.mp hmsgs)]
    exact h
  | succ turns ih =>
    rw [Nat.succ_add, tickLoop]
    rw [tickLoop] at h
    split_ifs at h ⊢ with hmsgs
    · exact h
    · exact ih h

/-- A tick ends in one state. -/
theorem TickEnds.unique {t' : BaseConnection M} (h : s.TickEnds t) (h' : s.TickEnds t') :
    t = t' := by
  obtain ⟨turns, hturns⟩ := h
  obtain ⟨turns', hturns'⟩ := h'
  have hsum := tickLoop_add hturns turns'
  rw [Nat.add_comm, tickLoop_add hturns' turns] at hsum
  exact (Option.some.inj hsum).symm

/-! ## What is wanted -/

/-- One tick ends, and takes messages only from the front of the queue into an open web
socket. -/
def Progresses (s : BaseConnection M) : Prop :=
  s.interval = true → ∃ t sent, s.TickEnds t ∧ s.msgs = sent ++ t.msgs ∧
    t.handed = s.handed ++ sent.map (·, ReadyState.OPEN)

/-- The messages an open web socket got, in order. -/
def delivered (s : BaseConnection M) : List M :=
  (s.handed.filter (·.2 = .OPEN)).map Prod.fst

/-- Every queued message was handed to an open web socket or is still in the queue. -/
def Conserved (s : BaseConnection M) : Prop := s.queued = s.delivered ++ s.msgs

/-- A connection makes progress if its socket is open whenever it has to send. -/
theorem progresses_iff :
    s.Progresses ↔ (s.interval = true → s.msgs ≠ [] → s.ws = some .OPEN) := by
  refine imp_congr_right fun _ => ⟨?_, fun hopen => ?_⟩
  · rintro ⟨t, sent, hends, hmsgs, hhanded⟩ hne
    cases hws : s.ws with
    | none =>
      obtain ⟨turns, hturns⟩ := hends
      rw [tickLoop_of_none hws hne] at hturns
      cases hturns
    | some state =>
      obtain rfl := hends.unique ⟨_, tickLoop_of_some hws⟩
      obtain ⟨m, hm⟩ := List.exists_mem_of_ne_nil _ hne
      have hall : s.msgs.map (·, state) = sent.map (·, ReadyState.OPEN) :=
        List.append_cancel_left hhanded
      have hpair : (m, state) ∈ sent.map (·, ReadyState.OPEN) :=
        hall ▸ List.mem_map_of_mem hm
      obtain ⟨m', -, heq⟩ := List.mem_map.mp hpair
      rw [(Prod.mk.inj heq).2]
  · by_cases hmsgs : s.msgs = []
    · exact ⟨s, [], ⟨0, tickLoop_of_nil hmsgs 0⟩, rfl, by simp⟩
    · exact ⟨s.handAll .OPEN, s.msgs, ⟨_, tickLoop_of_some (hopen hmsgs)⟩, by simp [handAll], rfl⟩

/-- What must hold before an event: the web socket is open while the interval runs and the
queue is not empty, and a connection is closed only with an empty queue. -/
def Safe (s : BaseConnection M) : PumpEvent M → Prop
  | .prepareConnect => s.msgs ≠ [] → s.ws = some .OPEN
  | .queueMessage _ => s.interval = true → s.ws = some .OPEN
  | .connection state => s.interval = true → s.msgs ≠ [] → state = .OPEN
  | .socket _ => s.interval = true → s.msgs = []
  | .baseClose => s.msgs = []
  | .tick => True
  | .failure => True

/-! ## Runs -/

/-- All messages are handed to an open socket. -/
theorem delivered_handAll : (s.handAll .OPEN).delivered = s.delivered ++ s.msgs := by
  simp [delivered, handAll, List.filter_map, Function.comp_def]

/-- A tick that progresses hands everything to the open web socket. -/
theorem tick_eq (hinterval : s.interval = true) (h : s.Progresses) :
    s.tick = s ∧ s.msgs = [] ∨ s.tick = s.handAll .OPEN := by
  by_cases hmsgs : s.msgs = []
  · left
    rw [tick, tickLoop_of_nil hmsgs]
    exact ⟨rfl, hmsgs⟩
  · right
    rw [tick, tickLoop_of_some (progresses_iff.mp h hinterval hmsgs)]
    rfl

/-- No web socket opens again. -/
theorem ne_open_of_follows {ws : Option ReadyState} {state : ReadyState}
    (h : ws.any (·.Follows state) = true) : state ≠ .OPEN := by
  rintro rfl
  cases ws with
  | none => cases h
  | some state => cases state <;> cases h

/-- One event keeps the progress and the messages exactly when it is safe. -/
theorem keeps_iff {e : PumpEvent M} (hstep : s.step e = some t)
    (hs : s.Progresses ∧ s.Conserved) : (t.Progresses ∧ t.Conserved) ↔ s.Safe e := by
  obtain ⟨hprogress, hconserved⟩ := hs
  have hopen := progresses_iff.mp hprogress
  rw [progresses_iff]
  unfold step at hstep
  by_cases hhung : s.hung = true
  · rw [if_pos hhung] at hstep
    cases hstep
  rw [if_neg hhung] at hstep
  cases e with
  | prepareConnect =>
    obtain rfl := Option.some.inj hstep
    exact ⟨fun h => h.1 rfl, fun h => ⟨fun _ => h, hconserved⟩⟩
  | queueMessage m =>
    obtain rfl := Option.some.inj hstep
    have hkept : (s.queueMessage m).Conserved := by
      change s.queued ++ [m] = s.delivered ++ (s.msgs ++ [m])
      rw [hconserved, List.append_assoc]
    exact ⟨fun h hinterval => h.1 hinterval (by simp [queueMessage]),
      fun h => ⟨fun hinterval _ => h hinterval, hkept⟩⟩
  | connection state =>
    obtain rfl := Option.some.inj hstep
    exact ⟨fun h hinterval hmsgs => Option.some.inj (h.1 hinterval hmsgs),
      fun h => ⟨fun hinterval hmsgs => congrArg some (h hinterval hmsgs), hconserved⟩⟩
  | failure =>
    obtain rfl := Option.some.inj hstep
    exact ⟨fun _ => trivial, fun _ => ⟨hopen, hconserved⟩⟩
  | socket state =>
    simp only at hstep
    split_ifs at hstep with hfollows
    obtain rfl := Option.some.inj hstep
    refine ⟨fun h hinterval => ?_, fun h => ⟨fun hinterval hmsgs => ?_, hconserved⟩⟩
    · by_contra hmsgs
      exact ne_open_of_follows hfollows (Option.some.inj (h.1 hinterval hmsgs))
    · exact absurd (h hinterval) hmsgs
  | tick =>
    simp only at hstep
    split_ifs at hstep with hinterval
    obtain rfl := Option.some.inj hstep
    refine ⟨fun _ => trivial, fun _ => ?_⟩
    rcases tick_eq hinterval hprogress with ⟨htick, -⟩ | htick
    · rw [htick]
      exact ⟨hopen, hconserved⟩
    · rw [htick]
      refine ⟨fun _ hmsgs => absurd rfl hmsgs, ?_⟩
      rw [Conserved, delivered_handAll]
      exact hconserved.trans (List.append_nil _).symm
  | baseClose =>
    obtain rfl := Option.some.inj hstep
    have hall : s.baseClose.Conserved ↔ s.msgs = [] := by
      change s.queued = s.delivered ++ [] ↔ s.msgs = []
      rw [hconserved, List.append_cancel_left_eq]
    exact ⟨fun h => hall.mp h.2, fun h => ⟨fun _ hmsgs => absurd rfl hmsgs, hall.mpr h⟩⟩

/-- In every state along the events a tick progresses, and no message is lost. -/
def AlwaysProgresses (events : List (PumpEvent M)) : Prop :=
  ∀ first u, first <+: events → (pumpMachine M).Run .new first u → u.Progresses ∧ u.Conserved

/-- **The pump progresses and loses nothing** in every state of a run if and only if each of
its events is safe. -/
theorem progresses_iff_safe {events : List (PumpEvent M)}
    (hrun : (pumpMachine M).Run .new events t) :
    AlwaysProgresses events ↔ (pumpMachine M).RunWhere Safe .new events t :=
  Machine.runWhere_iff_invariant (M := pumpMachine M) (P := fun s => s.Progresses ∧ s.Conserved)
    (fun _ _ _ hstep hs => keeps_iff hstep hs) ⟨fun h => absurd h (by simp [new]), rfl⟩ hrun

/-- Connected before the first message is queued, the pump hands it over. -/
theorem progresses_demo :
    AlwaysProgresses [.prepareConnect, .connection .OPEN, .queueMessage (7 : ℕ), .tick] := by
  have hsafe : (pumpMachine ℕ).RunWhere Safe .new
      [.prepareConnect, .connection .OPEN, .queueMessage (7 : ℕ), .tick]
      (((new.startMessagePump.connectRelay .OPEN).queueMessage 7).tick) :=
    .cons (fun h => absurd rfl h) rfl <| .cons (fun _ _ => rfl) rfl <|
      .cons (fun _ => (rfl : some ReadyState.OPEN = _)) rfl <| .single trivial rfl
  exact (progresses_iff_safe hsafe.run).mpr hsafe

/-- With a message queued before there is a web socket the loop of the next tick never ends;
with one queued after the web socket is closed the message is shifted and lost. -/
theorem not_progresses_early :
    (∃ s : BaseConnection ℕ, (pumpMachine ℕ).Run .new [.prepareConnect, .queueMessage 7] s ∧
      s.interval = true ∧ (∀ turns, s.tickLoop turns = none) ∧ ¬ s.Progresses) ∧
    ∃ s : BaseConnection ℕ, (pumpMachine ℕ).Run .new
        [.prepareConnect, .connection .OPEN, .socket .CLOSED, .queueMessage 7, .tick] s ∧
      s.msgs = [] ∧ s.handed = [(7, .CLOSED)] ∧ ¬ s.Conserved := by
  constructor
  · refine ⟨_, Machine.run_of_replay rfl, rfl, tickLoop_of_none rfl (List.cons_ne_nil _ _), ?_⟩
    rw [progresses_iff]
    intro h
    cases h rfl (List.cons_ne_nil _ _)
  · refine ⟨_, Machine.run_of_replay rfl, rfl, rfl, ?_⟩
    rw [Conserved]
    decide

/-! ## The connection for files -/

open FileTransfer in
/-- The pump of a connection for files. -/
def ofFt (s : FtConnection) : BaseConnection OutMessage where
  msgs := s.msgs
  interval := s.interval
  ws := if s.ws then some (if s.wsOpen then .OPEN else .CLOSED) else none
  hung := s.hung
  queued := s.msgs
  handed := []

open FileTransfer in
/-- `FtConnection.flush` does to the queue what the loop does. -/
theorem tick_ofFt (s : FtConnection) :
    (ofFt s).tick.msgs = s.flush.msgs ∧ (ofFt s).tick.hung = s.flush.hung := by
  unfold FtConnection.flush
  split_ifs with hmsgs hws
  · rw [tick, tickLoop_of_nil hmsgs]
    exact ⟨rfl, rfl⟩
  · have hsocket : (ofFt s).ws = some (if s.wsOpen then .OPEN else .CLOSED) := by
      rw [ofFt, if_pos hws]
    rw [tick, tickLoop_of_some hsocket]
    exact ⟨rfl, rfl⟩
  · have hsocket : (ofFt s).ws = none := by rw [ofFt, if_neg hws]
    rw [tick, tickLoop_of_none hsocket hmsgs]
    exact ⟨rfl, rfl⟩

end BaseConnection

end RdWeb.Web
