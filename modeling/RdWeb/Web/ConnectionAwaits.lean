import RdWeb.Lib.Machine

/-!
# What a connection awaits

The calls of `start` of a remote desktop connection, through `startPunchHole`, `connectRelay`,
`secureHandshake` and `msgLoop`, over the sockets of `websock.ts`. A step goes from one await to
the next. What is shown is recorded with the socket it comes from; what the page does when a
fatal box is shown is left out.
-/

namespace RdWeb.Web

/-- `_status` of a socket: empty before it opens and after `close`, or the last event. -/
inductive WsStatus
  | empty
  | isOpen
  | event (isClose : Bool)
  deriving DecidableEq

/-- `readyState` of a socket. -/
inductive SocketState
  | CONNECTING
  | OPEN
  | CLOSING
  | CLOSED
  deriving DecidableEq

/-- A rejected value. -/
inductive Reason
  | text (text : String)
  | event (isClose : Bool)
  deriving DecidableEq

namespace Reason

/-- `String(e)`. -/
def toText : Reason → String
  | .text message => message
  | .event true => "[object CloseEvent]"
  | .event false => "[object Event]"

/-- The text that `start` shows. -/
def connectText : Reason → String
  | .event true => "Reset by the peer"
  | e => e.toText

end Reason

/-- What a socket rejects with in place of a message. -/
def WsStatus.reason : WsStatus → Reason
  | .empty => .text ""
  | .isOpen => .text "open"
  | .event isClose => .event isClose

/-- What the message loop tells apart in a message of the host. -/
inductive RdMessageKind
  | hash
  | loginResponse (error : String) (displays : Option ℕ)
  | closeReason (reason : String)
  /-- A clipboard or a cursor, which is decompressed first. -/
  | compressed
  | signedId
  /-- Anything else that is shown: a frame, a cursor, a permission. -/
  | shown
  deriving DecidableEq

/-- A message of the host, with what its handling throws. -/
structure RdMessage where
  kind : RdMessageKind
  failure : Option String
  deriving DecidableEq

/-- A message that a socket has received. -/
inductive Incoming
  /-- An answer that names a failure. -/
  | failed (text : String)
  /-- A relay, with whether its key is signed. -/
  | relay (signed : Bool)
  /-- An answer of the rendezvous server that names neither. -/
  | noAnswer
  | host (m : RdMessage)
  deriving DecidableEq

/-- A socket, for the start that opened it. -/
structure RdSocket where
  generation : ℕ
  task : ℕ
  isRendezvous : Bool
  state : SocketState
  status : WsStatus
  buf : List Incoming
  /-- Whether `onmessage` still fills the buffer. -/
  receives : Bool
  deriving DecidableEq

/-- Where a call of `start` waits, and for which socket. -/
inductive Place
  | opening (ws : ℕ)
  | punching (ws : ℕ)
  | openingRelay (ws : ℕ) (signed : Bool)
  | verifyingKey (ws : ℕ)
  | handshaking (ws : ℕ)
  | verifyingId (ws : ℕ)
  /-- The message loop waits for a message. -/
  | waiting (ws : ℕ)
  /-- The message loop decompresses, and what follows may throw. -/
  | handling (ws : ℕ) (failure : Option String)
  | ended
  deriving DecidableEq

/-- What a connection shows: a message box, or an event of the session. -/
inductive ShownItem
  | box (type title text : String)
  | event
  deriving DecidableEq

/-- A message box that reports an error. -/
def ShownItem.IsError : ShownItem → Prop
  | .box type _ _ => type = "error" ∨ type = "re-input-password"
  | .event => False

/-- What was shown, with the start its socket belongs to, how often the connection was closed on
purpose until then, and whether it was restarted the last time. -/
structure Shown where
  item : ShownItem
  origin : ℕ
  generation : ℕ
  restarted : Bool
  deriving DecidableEq

/-- A connection with its sockets and the calls of `start`. -/
structure RdLifecycle where
  sockets : ℕ → RdSocket
  nextSocket : ℕ
  tasks : List Place
  ws : Option ℕ
  plaintextPassword : Bool
  password : Bool
  /-- How often the connection was closed on purpose. -/
  generation : ℕ
  restarted : Bool
  shown : List Shown

namespace RdLifecycle

/-- A page before its first connection. -/
def new (plaintextPassword password : Bool) : RdLifecycle where
  sockets _ := ⟨0, 0, false, .CLOSED, .empty, [], false⟩
  nextSocket := 0
  tasks := []
  ws := none
  plaintextPassword := plaintextPassword
  password := password
  generation := 0
  restarted := false
  shown := []

/-- A task goes on to a place. -/
def setTask (s : RdLifecycle) (i : ℕ) (place : Place) : RdLifecycle :=
  { s with tasks := s.tasks.set i place }

/-- A socket changes. -/
def updateSocket (s : RdLifecycle) (w : ℕ) (f : RdSocket → RdSocket) : RdLifecycle :=
  { s with sockets := fun v => if v = w then f (s.sockets v) else s.sockets v }

/-- What a socket makes the connection show. -/
def present (s : RdLifecycle) (w : ℕ) (item : ShownItem) : RdLifecycle :=
  { s with shown := s.shown ++ [⟨item, (s.sockets w).generation, s.generation, s.restarted⟩] }

/-- `msgbox`: an error without a text is not shown. -/
def msgbox (s : RdLifecycle) (w : ℕ) (type title text : String) : RdLifecycle :=
  if type = "error" ∧ text = "" then s else s.present w (.box type title text)

/-- `new Websock`, for a call of `start`. -/
def newSocket (s : RdLifecycle) (i generation : ℕ) (isRendezvous : Bool) : RdLifecycle :=
  { s with
    sockets := fun v =>
      if v = s.nextSocket then ⟨generation, i, isRendezvous, .CONNECTING, .empty, [], true⟩
      else s.sockets v
    nextSocket := s.nextSocket + 1 }

/-- `Websock.close`. -/
def closeSocket (s : RdLifecycle) (w : ℕ) : RdLifecycle :=
  s.updateSocket w fun socket =>
    { socket with
      status := .empty
      state := if socket.state = .CLOSED then .CLOSED else .CLOSING
      receives := false }

/-- `close` of the connection. -/
def baseClose (s : RdLifecycle) : RdLifecycle :=
  match s.ws with
  | some w => s.closeSocket w
  | none => s

/-- The `catch` of `start`. -/
def failStart (s : RdLifecycle) (i w : ℕ) (e : Reason) : RdLifecycle :=
  (s.msgbox w "error" "Connection Error" e.connectText).setTask i .ended

/-! ## The message loop -/

/-- The `catch` of `msgLoop`. -/
def failLoop (s : RdLifecycle) (i w : ℕ) (e : Reason) : RdLifecycle :=
  (s.msgbox w "error" "Connection Error" e.toText).setTask i .ended

/-- `handleHashMessage`. -/
def handleHash (s : RdLifecycle) (w : ℕ) : RdLifecycle :=
  if s.plaintextPassword then
    { s with password := true }.msgbox w "connecting" "Connecting..." "Logging in..."
  else if s.password then s
  else s.msgbox w "input-password" "Password Required" ""

/-- The `login_response` branch. -/
def handleLoginResponse (s : RdLifecycle) (w : ℕ) (error : String) (displays : Option ℕ) :
    RdLifecycle :=
  if error = "Wrong Password" then
    { s with password := false }.msgbox w "re-input-password" error "Do you want to enter again?"
  else if error ≠ "" then s.msgbox w "error" "Login Error" error
  else
    match displays with
    | none => s
    | some 0 => s.msgbox w "error" "Remote Error" "No Display"
    | some _ =>
      (s.msgbox w "success" "Successful" "Connected, waiting for image...").present w .event

/-- What follows the handling of a message: the next one, or the `catch`. -/
def afterHandling (s : RdLifecycle) (i w : ℕ) : Option String → RdLifecycle × Bool
  | none => (s, true)
  | some text => (s.failLoop i w (.text text), false)

/-- The branches of `msgLoop`, with whether the loop goes on at once. -/
def handle (s : RdLifecycle) (i w : ℕ) : Incoming → RdLifecycle × Bool
  | .host ⟨.hash, failure⟩ => (s.handleHash w).afterHandling i w failure
  | .host ⟨.loginResponse error displays, failure⟩ =>
    (s.handleLoginResponse w error displays).afterHandling i w failure
  | .host ⟨.closeReason reason, failure⟩ =>
    if reason ≠ "" then
      ((s.msgbox w "error" "Connection Error" reason).baseClose.setTask i .ended, false)
    else s.afterHandling i w failure
  | .host ⟨.compressed, failure⟩ => (s.setTask i (.handling w failure), false)
  | .host ⟨.signedId, failure⟩ => s.afterHandling i w failure
  | .host ⟨.shown, failure⟩ => (s.present w .event).afterHandling i w failure
  | .failed _ | .relay _ | .noAnswer => (s, true)

/-- The first message of the buffer is taken. -/
def pop (s : RdLifecycle) (w : ℕ) : RdLifecycle :=
  s.updateSocket w fun socket => { socket with buf := socket.buf.tail }

/-- The turns of the loop for the messages that a socket has. -/
def drain (i w : ℕ) : List Incoming → RdLifecycle → RdLifecycle
  | [], s =>
    if (s.sockets w).status = .isOpen then s.setTask i (.waiting w)
    else s.failLoop i w (s.sockets w).status.reason
  | m :: rest, s =>
    let (t, goesOn) := (s.pop w).handle i w m
    if goesOn then drain i w rest t else t

/-- The next turn of the loop, on the socket that the connection has. -/
def nextTurn (s : RdLifecycle) (i : ℕ) : RdLifecycle :=
  match s.ws with
  | none => s.setTask i .ended
  | some w => drain i w (s.sockets w).buf s

/-- The timer of `next`, for a loop that waits. -/
def pollLoop (s : RdLifecycle) (i w : ℕ) : Option RdLifecycle :=
  match (s.sockets w).buf with
  | [] =>
    if (s.sockets w).status = .isOpen then none
    else some (s.failLoop i w (s.sockets w).status.reason)
  | m :: _ =>
    let (t, goesOn) := (s.pop w).handle i w m
    some (if goesOn then t.nextTurn i else t)

/-! ## Connecting -/

/-- `start`, up to the first await. -/
def start (s : RdLifecycle) (plaintextPassword : Bool) : RdLifecycle :=
  { s with
    plaintextPassword := s.plaintextPassword || plaintextPassword
    tasks := s.tasks ++ [Place.opening s.nextSocket] }.newSocket s.tasks.length s.generation true

/-- The relay is connected: the connection has the socket, and the loop starts. -/
def ready (s : RdLifecycle) (i w : ℕ) : RdLifecycle :=
  ({ s with ws := some w }.present w .event).nextTurn i

/-- `startPunchHole` has its answer. -/
def punched (s : RdLifecycle) (i w : ℕ) : Incoming → RdLifecycle
  | .failed text => ((s.closeSocket w).msgbox w "error" "Error" text).setTask i .ended
  | .relay signed =>
    ((s.closeSocket w).newSocket i (s.sockets w).generation false).setTask i
      (.openingRelay s.nextSocket signed)
  | .noAnswer | .host _ => (s.closeSocket w).setTask i .ended

/-- `secureHandshake` has the first message of the host. -/
def handshaken (s : RdLifecycle) (i w : ℕ) : Incoming → RdLifecycle
  | .host ⟨.signedId, _⟩ => s.setTask i (.verifyingId w)
  | _ => s.ready i w

/-- A socket has opened, and what awaits it goes on. -/
def opened (s : RdLifecycle) (w : ℕ) : RdLifecycle :=
  let i := (s.sockets w).task
  let s := s.updateSocket w fun socket => { socket with state := .OPEN, status := .isOpen }
  if s.tasks[i]? = some (.opening w) then s.setTask i (.punching w)
  else if s.tasks[i]? = some (.openingRelay w true) then s.setTask i (.verifyingKey w)
  else if s.tasks[i]? = some (.openingRelay w false) then s.ready i w
  else s

/-- The promise of `open` is rejected, if it is awaited. -/
def rejectOpen (s : RdLifecycle) (w : ℕ) (e : Reason) : RdLifecycle :=
  let i := (s.sockets w).task
  if s.tasks[i]? = some (.opening w) ∨ s.tasks[i]? = some (.openingRelay w true) ∨
      s.tasks[i]? = some (.openingRelay w false) then s.failStart i w e
  else s

/-- `onclose`. -/
def onclose (s : RdLifecycle) (w : ℕ) : RdLifecycle :=
  (s.updateSocket w fun socket =>
    { socket with state := .CLOSED, status := .event true }).rejectOpen w
      (.text "Reset by the peer")

/-- `onerror`. -/
def onerror (s : RdLifecycle) (w : ℕ) : RdLifecycle :=
  if (s.sockets w).status = .empty then
    s.rejectOpen w (.text ("Failed to connect to " ++
      (if (s.sockets w).isRendezvous then "rendezvous" else "relay") ++ " server"))
  else s.updateSocket w fun socket => { socket with status := .event false }

/-- The timer of `open`. -/
def openTimeout (s : RdLifecycle) (w : ℕ) : RdLifecycle :=
  s.rejectOpen w
    (if (s.sockets w).status = .empty then .text "Timeout" else (s.sockets w).status.reason)

/-- `_recv_message`. -/
def received (s : RdLifecycle) (w : ℕ) (m : Incoming) : RdLifecycle :=
  if (s.sockets w).receives then
    s.updateSocket w fun socket => { socket with buf := socket.buf ++ [m] }
  else s

/-- The timer of `next`, while the connection is established. -/
def pollStart (s : RdLifecycle) (i w : ℕ) (goOn : RdLifecycle → Incoming → RdLifecycle) :
    Option RdLifecycle :=
  match (s.sockets w).buf with
  | [] =>
    if (s.sockets w).status = .isOpen then none
    else some (s.failStart i w (s.sockets w).status.reason)
  | m :: _ => some (goOn (s.pop w) m)

/-- A loop goes on with what it has decompressed, which is shown or not. -/
def decompressed (s : RdLifecycle) (i w : ℕ) (failure : Option String) (isShown : Bool) :
    RdLifecycle :=
  let s := if isShown then s.present w .event else s
  let (t, goesOn) := s.afterHandling i w failure
  if goesOn then t.nextTurn i else t

/-- The connection is closed on purpose. -/
def closeOnPurpose (s : RdLifecycle) (restarted : Bool) : RdLifecycle :=
  { s.baseClose with generation := s.generation + 1, restarted := restarted }

end RdLifecycle

/-- Whether a message is one of the rendezvous server. -/
def Incoming.fromRendezvous : Incoming → Bool
  | .host _ => false
  | _ => true

/-- The user starts, closes, refreshes or restarts the connection; something happens to a socket;
or what a call of `start` awaits is settled. -/
inductive LifecycleEvent
  | start (plaintextPassword : Bool)
  /-- `removeSession` or `close`. -/
  | close
  | refresh
  | restart
  | opened (w : ℕ)
  | closed (w : ℕ)
  | errored (w : ℕ)
  | openTimeout (w : ℕ)
  | received (w : ℕ) (m : Incoming)
  | poll (i : ℕ)
  | timedOut (i : ℕ)
  | keyVerified (i : ℕ) (valid : Bool)
  | idVerified (i : ℕ) (failure : Option String)
  | decompressed (i : ℕ) (isShown : Bool)

namespace RdLifecycle

/-- One event; a refresh only sends a message. -/
def step (s : RdLifecycle) : LifecycleEvent → Option RdLifecycle
  | .start plaintextPassword => some (s.start plaintextPassword)
  | .close => some (s.closeOnPurpose false)
  | .refresh => some s
  | .restart => some ((s.closeOnPurpose true).start false)
  | .opened w => if (s.sockets w).state = .CONNECTING then some (s.opened w) else none
  | .closed w => if (s.sockets w).state ≠ .CLOSED then some (s.onclose w) else none
  | .errored w => if (s.sockets w).state ≠ .CLOSED then some (s.onerror w) else none
  | .openTimeout w => if (s.sockets w).status ≠ .isOpen then some (s.openTimeout w) else none
  | .received w m =>
    if (s.sockets w).state = .OPEN ∧ m.fromRendezvous = (s.sockets w).isRendezvous then
      some (s.received w m)
    else none
  | .poll i =>
    match s.tasks[i]? with
    | some (.punching w) => s.pollStart i w (·.punched i w)
    | some (.handshaking w) => s.pollStart i w (·.handshaken i w)
    | some (.waiting w) => s.pollLoop i w
    | _ => none
  | .timedOut i =>
    match s.tasks[i]? with
    | some (.punching w) | some (.handshaking w) =>
      if (s.sockets w).buf = [] ∧ (s.sockets w).status = .isOpen then
        some (s.failStart i w (.text "Timeout"))
      else none
    | _ => none
  | .keyVerified i valid =>
    match s.tasks[i]? with
    | some (.verifyingKey w) =>
      some (if valid then s.setTask i (.handshaking w) else s.ready i w)
    | _ => none
  | .idVerified i failure =>
    match s.tasks[i]? with
    | some (.verifyingId w) =>
      match failure with
      | none => some (s.ready i w)
      | some text => some (s.failStart i w (.text text))
    | _ => none
  | .decompressed i isShown =>
    match s.tasks[i]? with
    | some (.handling w failure) => some (s.decompressed i w failure isShown)
    | _ => none

/-- The page, with its passwords. -/
def machine (plaintextPassword password : Bool) : Machine RdLifecycle LifecycleEvent :=
  ⟨new plaintextPassword password, step⟩

end RdLifecycle

end RdWeb.Web
