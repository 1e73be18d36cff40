import Mathlib.Algebra.Order.Ring.Int
import Mathlib.Logic.Function.Basic
import RdWeb.Lib.Machine

/-!
# Privacy mode and who it belongs to

`privacy_mode.rs` with its two implementations (`win_topmost_window.rs` and
`win_virtual_display.rs`), and the requests of the connections (`connection.rs`). The global
`PRIVACY_MODE` is behind a mutex, so an event is what one thread does while it holds the
mutex. What the system answers is part of an event. The notifications to the peer are left
out.
-/

namespace RdWeb.Host

/-- The id of a mode that nobody holds. -/
def INVALID_PRIVACY_MODE_CONN_ID : ℤ := 0

/-- The errors of the privacy mode. -/
inductive PrivacyError
  /-- `OCCUPIED` -/
  | occupied
  /-- `TURN_OFF_OTHER_ID` -/
  | turnOffOtherId
  | unsupported (implKey : String)
  | system (message : String)
  | deadline
  deriving DecidableEq, Repr

/-- The two implementations of the trait `PrivacyMode`. -/
inductive PrivacyKind
  | topmostWindow
  | virtualDisplay
  deriving DecidableEq, Repr

/-- What the system answers during one call. -/
structure PrivacyOs where
  /-- `get_supported_privacy_mode_impl` -/
  supportedImpls : List String
  /-- the option `privacy-mode-impl-key` -/
  implOption : String
  /-- `is_virtual_display_supported` -/
  iddSupported : Bool
  /-- whether `WindowInjection.dll` is there -/
  injected : Bool
  /-- the steps that turn the mode on -/
  on : Except String Unit
  /-- the steps that turn the mode off -/
  off : Except String Unit

/-- `PrivacyModeImpl` of either implementation. -/
structure PrivacyModeImpl where
  implKey : String
  kind : PrivacyKind
  connId : ℤ
  deriving DecidableEq, Repr

namespace PrivacyModeImpl

/-- An implementation that nobody holds. -/
def new (implKey : String) (kind : PrivacyKind) : PrivacyModeImpl :=
  ⟨implKey, kind, INVALID_PRIVACY_MODE_CONN_ID⟩

/-- A connection may turn the mode on if nobody else holds it. -/
def checkOnConnId (pm : PrivacyModeImpl) (connId : ℤ) : Except PrivacyError Bool :=
  if pm.connId = connId then .ok true
  else if pm.connId ≠ INVALID_PRIVACY_MODE_CONN_ID then .error .occupied
  else .ok false

/-- A connection may turn the mode off if nobody else holds it. -/
def checkOffConnId (pm : PrivacyModeImpl) (connId : ℤ) : Except PrivacyError Unit :=
  if pm.connId ≠ INVALID_PRIVACY_MODE_CONN_ID ∧ connId ≠ INVALID_PRIVACY_MODE_CONN_ID ∧
      pm.connId ≠ connId then .error .turnOffOtherId
  else .ok ()

/-- `turn_off_privacy` of either implementation: the id is given up only when the system did
its part. -/
def turnOffPrivacy (pm : PrivacyModeImpl) (connId : ℤ) (off : Except String Unit) :
    PrivacyModeImpl × Except PrivacyError Unit :=
  match pm.checkOffConnId connId with
  | .error e => (pm, .error e)
  | .ok () =>
    match off with
    | .error message => (pm, .error (.system message))
    | .ok () => ({ pm with connId := INVALID_PRIVACY_MODE_CONN_ID }, .ok ())

/-- `turn_on_privacy` of `win_topmost_window.rs`. -/
def turnOnTopmost (pm : PrivacyModeImpl) (connId : ℤ) (os : PrivacyOs) :
    PrivacyModeImpl × Except PrivacyError Bool :=
  match pm.checkOnConnId connId with
  | .error e => (pm, .error e)
  | .ok true => (pm, .ok true)
  | .ok false =>
    if !os.injected then (pm, .ok false)
    else
      match os.on with
      | .error message => (pm, .error (.system message))
      | .ok () => ({ pm with connId := connId }, .ok true)

/-- `turn_on_privacy` of `win_virtual_display.rs`. The guard of a failed attempt turns the
mode off with the invalid id. -/
def turnOnVirtual (pm : PrivacyModeImpl) (connId : ℤ) (os : PrivacyOs) :
    PrivacyModeImpl × Except PrivacyError Bool :=
  if !os.iddSupported then (pm, .error (.system "idd_not_support_under_win10_2004_tip"))
  else
    match pm.checkOnConnId connId with
    | .error e => (pm, .error e)
    | .ok true => (pm, .ok true)
    | .ok false =>
      match os.on with
      | .error message =>
        ((pm.turnOffPrivacy INVALID_PRIVACY_MODE_CONN_ID os.off).1, .error (.system message))
      | .ok () => ({ pm with connId := connId }, .ok true)

/-- Turning on, in the way of the implementation. -/
def turnOnPrivacy (pm : PrivacyModeImpl) (connId : ℤ) (os : PrivacyOs) :
    PrivacyModeImpl × Except PrivacyError Bool :=
  match pm.kind with
  | .topmostWindow => pm.turnOnTopmost connId os
  | .virtualDisplay => pm.turnOnVirtual connId os

end PrivacyModeImpl

/-- What does not change while the program runs: `PRIVACY_MODE_CREATOR`, the default
implementation, and whether virtual displays are those of Amyuni. -/
structure PrivacyPlatform where
  creator : String → Option PrivacyKind
  defaultImpl : String
  amyuniIdd : Bool

namespace PrivacyPlatform

/-- `get_supported_impl`. -/
def getSupportedImpl (platform : PrivacyPlatform) (os : PrivacyOs) (implKey : String) : String :=
  if implKey ∈ os.supportedImpls then implKey
  else if os.implOption ∈ os.supportedImpls then os.implOption
  else platform.defaultImpl

/-- `switch`. The implementation that is replaced is dropped, which turns it off. -/
def switch (platform : PrivacyPlatform) (pm : Option PrivacyModeImpl) (implKey : String) :
    Option PrivacyModeImpl :=
  if pm.map PrivacyModeImpl.implKey = some implKey then pm
  else
    match platform.creator implKey with
    | some kind => some (.new implKey kind)
    | none => pm

/-- `is_async_privacy_mode`. -/
def isAsync (platform : PrivacyPlatform) (pm : Option PrivacyModeImpl) : Bool :=
  match pm with
  | some pm => pm.kind = .virtualDisplay && platform.amyuniIdd
  | none => false

/-- The last part of `turn_on_privacy_sync`: the implementation is replaced if another one
was asked for, after it was cleared, and turned on. -/
def turnOnImpl (platform : PrivacyPlatform) (pm : Option PrivacyModeImpl) (implKey : String)
    (connId : ℤ) (os : PrivacyOs) :
    Option PrivacyModeImpl × Option (Except PrivacyError Bool) :=
  let curImplKey := (pm.map PrivacyModeImpl.implKey).getD ""
  if curImplKey ≠ implKey then
    match platform.creator implKey with
    | some kind =>
      let (pm', res) := (PrivacyModeImpl.new implKey kind).turnOnPrivacy connId os
      (some pm', some res)
    | none => (pm, some (.error (.unsupported implKey)))
  else
    match pm with
    | some pm =>
      let (pm', res) := pm.turnOnPrivacy connId os
      (some pm', some res)
    | none => (none, none)

/-- `turn_on_privacy_sync`. -/
def turnOnPrivacySync (platform : PrivacyPlatform) (pm : Option PrivacyModeImpl)
    (implKey : String) (connId : ℤ) (os : PrivacyOs) :
    Option PrivacyModeImpl × Option (Except PrivacyError Bool) :=
  let implKey := platform.getSupportedImpl os implKey
  match pm with
  | some cur =>
    match cur.checkOnConnId connId with
    | .error e => (pm, some (.error e))
    | .ok same =>
      if same ∧ cur.implKey = implKey then (pm, some (.ok true))
      else platform.turnOnImpl pm implKey connId os
  | none => platform.turnOnImpl pm implKey connId os

end PrivacyPlatform

/-- Where a connection is in `Connection::turn_on_privacy`, or after its loop. -/
inductive PrivacyPhase
  | idle
  | calling (implKey : String)
  | waiting (thread : ℕ)
  | returned (res : Option (Except PrivacyError Bool))
  /-- about to turn off what it just turned on -/
  | turningOffOwn
  /-- about to turn off after its request failed -/
  | turningOffAny
  | closing
  | closed
  deriving DecidableEq

/-- The global, the connections, and the threads of `turn_on_privacy_async` that did not run. -/
structure PrivacyHost where
  pm : Option PrivacyModeImpl
  phase : ℤ → PrivacyPhase
  threads : ℕ → Option (ℤ × String)
  nextThread : ℕ

/-- The requests of the connections, with the threads that serve them. -/
inductive PrivacyEvent
  /-- `turn_on_privacy` of a connection, up to the call -/
  | request (c : ℤ) (implKey : String)
  | turnOnSync (c : ℤ) (os : PrivacyOs)
  | threadRuns (thread : ℕ) (os : PrivacyOs)
  | timeout (c : ℤ)
  /-- `Some(Ok(true))`: `check_privacy_mode_err`, whether it found no error -/
  | checkErr (c : ℤ) (noError : Bool)
  /-- `Some(Err(_))`: `is_in_privacy_mode` -/
  | checkInPrivacyMode (c : ℤ)
  /-- `Some(Ok(false))` and `None` -/
  | finish (c : ℤ)
  /-- `turn_off_privacy_to_msg` of either failure -/
  | turnOffFailed (c : ℤ) (off : Except String Unit)
  /-- `turn_off_privacy` of a connection -/
  | turnOff (c : ℤ) (off : Except String Unit)
  /-- after the loop of a connection -/
  | leave (c : ℤ)
  | turnOffClosing (c : ℤ) (off : Except String Unit)
  /-- `turn_off_privacy` of the host itself, with the invalid id -/
  | localOff (off : Except String Unit)
  | switch (implKey : String)

namespace PrivacyHost

variable (platform : PrivacyPlatform)

/-- A connection goes on to a phase. -/
def setPhase (s : PrivacyHost) (c : ℤ) (phase : PrivacyPhase) : PrivacyHost :=
  { s with phase := Function.update s.phase c phase }

/-- `turn_off_privacy`, whatever it returns. -/
def turnOffPrivacy (s : PrivacyHost) (connId : ℤ) (off : Except String Unit) : PrivacyHost :=
  { s with pm := s.pm.map fun pm => (pm.turnOffPrivacy connId off).1 }

/-- `get_privacy_mode_conn_id`. -/
def connId? (s : PrivacyHost) : Option ℤ := s.pm.map PrivacyModeImpl.connId

/-- `is_in_privacy_mode`. -/
def isInPrivacyMode (s : PrivacyHost) : Bool :=
  (s.connId?.map fun id => decide (id ≠ INVALID_PRIVACY_MODE_CONN_ID)).getD false

/-- The connection calls `turn_on_privacy_sync`, or starts a thread that does. -/
def call (s : PrivacyHost) (c : ℤ) (implKey : String) : PrivacyHost :=
  if platform.isAsync s.pm then
    { s.setPhase c (.waiting s.nextThread) with
      threads := Function.update s.threads s.nextThread (some (c, implKey))
      nextThread := s.nextThread + 1 }
  else s.setPhase c (.calling implKey)

/-- One event of a connection whose id the server gave out. -/
def connStep (s : PrivacyHost) : PrivacyEvent → Option PrivacyHost
  | .request c implKey =>
    if s.phase c = .idle then
      if platform.defaultImpl = "" then some s else some (s.call platform c implKey)
    else none
  | .turnOnSync c os =>
    match s.phase c with
    | .calling implKey =>
      let (pm, res) := platform.turnOnPrivacySync s.pm implKey c os
      some ({ s with pm := pm }.setPhase c (.returned res))
    | _ => none
  | .timeout c =>
    match s.phase c with
    | .waiting _ => some (s.setPhase c (.returned (some (.error .deadline))))
    | _ => none
  | .checkErr c noError =>
    if s.phase c = .returned (some (.ok true)) then
      some (s.setPhase c (if noError then .idle else .turningOffOwn))
    else none
  | .checkInPrivacyMode c =>
    match s.phase c with
    | .returned (some (.error _)) =>
      some (s.setPhase c (if s.isInPrivacyMode then .turningOffAny else .idle))
    | _ => none
  | .finish c =>
    if s.phase c = .returned none ∨ s.phase c = .returned (some (.ok false)) then
      some (s.setPhase c .idle)
    else none
  | .turnOffFailed c off =>
    match s.phase c with
    | .turningOffOwn => some ((s.turnOffPrivacy c off).setPhase c .idle)
    | .turningOffAny =>
      some ((s.turnOffPrivacy INVALID_PRIVACY_MODE_CONN_ID off).setPhase c .idle)
    | _ => none
  | .turnOff c off =>
    if s.phase c = .idle then
      if platform.defaultImpl = "" then some s else some (s.turnOffPrivacy c off)
    else none
  | .leave c =>
    if s.phase c = .idle then
      some (s.setPhase c (if s.connId? = some c then .closing else .closed))
    else none
  | .turnOffClosing c off =>
    if s.phase c = .closing then some ((s.turnOffPrivacy c off).setPhase c .closed) else none
  | _ => none

/-- A thread has the mutex. Its result is lost if its connection does not wait any more. -/
def runThread (s : PrivacyHost) (thread : ℕ) (os : PrivacyOs) : Option PrivacyHost :=
  match s.threads thread with
  | some (c, implKey) =>
    let (pm, res) := platform.turnOnPrivacySync s.pm implKey c os
    let s := { s with pm := pm, threads := Function.update s.threads thread none }
    some (if s.phase c = .waiting thread then s.setPhase c (.returned res) else s)
  | none => none

/-- One step of a connection or of a thread. -/
def step (s : PrivacyHost) (e : PrivacyEvent) : Option PrivacyHost :=
  match e with
  | .threadRuns thread os => s.runThread platform thread os
  | .localOff off => some (s.turnOffPrivacy INVALID_PRIVACY_MODE_CONN_ID off)
  | .switch implKey => some { s with pm := platform.switch s.pm implKey }
  | .request c _ | .turnOnSync c _ | .timeout c | .checkErr c _ | .checkInPrivacyMode c
  | .finish c | .turnOffFailed c _ | .turnOff c _ | .leave c | .turnOffClosing c _ =>
    -- `get_new_id` counts up from a positive number
    if 0 < c then s.connStep platform e else none

/-- The host before any connection, with the implementation of the option. -/
def machine (pm : Option PrivacyModeImpl) : Machine PrivacyHost PrivacyEvent :=
  ⟨⟨pm, fun _ => .idle, fun _ => none, 0⟩, step platform⟩

end PrivacyHost

end RdWeb.Host
