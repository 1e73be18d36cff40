import RdWeb.Host.Login

/-!
# What a peer does with a host

The connection around the login: how it is registered once it is authorised, its
permissions, the messages that control the desktop, the transfers that are audited and
how it ends. This is the connection as it is built for Linux.
-/

namespace RdWeb.Host

/-- The kinds of connection that were authorised. -/
inductive AuthConnType
  | remote
  | fileTransfer
  | portForward
  deriving DecidableEq

/-- A truth value that may be absent. -/
inductive BoolOption
  | notSet
  | no
  | yes
  deriving DecidableEq

/-- The options that decide about input. A value that is not in the enumeration is `none`. -/
structure OptionMessage where
  disableKeyboard : Option BoolOption
  blockInput : Option BoolOption
  deriving DecidableEq

/-- A movement of the mouse. -/
structure MouseEvent where
  mask : ℤ
  x : ℤ
  y : ℤ
  deriving DecidableEq

/-- A touch event: its kind and its place. -/
structure PointerDeviceEvent where
  kind : ℕ
  x : ℤ
  y : ℤ
  deriving DecidableEq

/-- A key event, as far as it decides how the key is sent on. -/
structure KeyEvent where
  code : ℕ
  down : Bool
  press : Bool
  /-- Whether it is a modifier as a control key or as a key code. -/
  isModifier : Bool
  /-- Whether it is a character or a text. -/
  isText : Bool
  deriving DecidableEq

/-- The size of a display. -/
structure Resolution where
  width : ℤ
  height : ℤ
  deriving DecidableEq

/-- A display of the host. -/
structure Display where
  name : String
  width : ℤ
  height : ℤ
  deriving DecidableEq

/-- What the host knows of its desktop while it handles one message. -/
structure Desktop where
  /-- `try_get_displays`, where it succeeds. -/
  displays : Option (List Display)
  /-- Whether the server of the connection is still there. -/
  serverAlive : Bool
  /-- Whether the display server is one that cannot be captured. -/
  unsupportedDisplay : Bool

/-- What a connection does to the host. -/
inductive Effect
  | mouse (me : MouseEvent) (connId : ℤ)
  | pointer (pde : PointerDeviceEvent) (connId : ℤ)
  | key (me : KeyEvent) (press : Bool)
  | blockOn
  | blockOff
  | setLastChangedResolution (name : String) (original : ℤ × ℤ) (changed : Resolution)
  | changeResolution (name : String) (r : Resolution)
  | forceReboot
  | reboot
  deriving DecidableEq

/-- Who a connection acts for. -/
structure Identity where
  myId : String
  myName : String
  sessionId : ℕ
  version : String
  deriving DecidableEq

/-- The identity that a login claims. -/
def LoginRequest.identity (lr : LoginRequest) : Identity :=
  ⟨lr.myId, lr.myName, lr.sessionId, lr.version⟩

/-- What the host keeps a session under. -/
def Identity.key (i : Identity) : SessionKey := ⟨i.myId, i.myName, i.sessionId⟩

/-- What an authorised connection does in the name of its peer. -/
inductive Act
  | connAudit (sessionId : ℕ) (peer : Option (String × String))
  | fileAudit (peerId name path : String)
  | checkRemoveSession (key : SessionKey)
  /-- A write job, with the overwrite detection of the version of the peer. -/
  | newWrite (id : ℤ) (path : String) (overwriteDetection : Bool)
  deriving DecidableEq

/-- The permissions of a connection. -/
inductive Permission
  | keyboard
  | restart
  | blockInput
  deriving DecidableEq

/-- A connection with its permissions and all that was done for it. -/
structure HostConnection (Totp : Type) where
  /-- The connection, as far as the login goes. -/
  login : Connection Totp
  id : ℤ
  keyboard : Bool
  restart : Bool
  blockInput : Bool
  disableKeyboard : Bool
  displayIdx : ℕ
  optionsInLogin : Option OptionMessage
  authedConnId : Option AuthConnType
  /-- `AUTHED_CONNS`. -/
  authedConns : List (ℤ × AuthConnType × SessionKey)
  effects : List Effect
  acts : List Act
  /-- Who the connection was authorised for. -/
  authorizedAs : Option Identity

/-- A message of the peer. A login comes with the options in it. -/
inductive ConnMessage
  | loginRequest (lr : LoginRequest) (options : Option OptionMessage)
  | switchSidesResponse (uuid : List UInt8) (lr : Option (LoginRequest × Option OptionMessage))
  | auth2fa (code : String) (hwid : List UInt8)
  | mouseEvent (me : MouseEvent)
  | pointerDeviceEvent (pde : PointerDeviceEvent)
  | keyEvent (me : KeyEvent)
  | option (o : OptionMessage)
  | switchDisplay (display : ℕ) (r : Resolution)
  | changeResolution (r : Resolution)
  | changeDisplayResolution (display : ℕ) (r : Resolution)
  | restartRemoteDevice
  /-- A file is sent to the peer, with the audited path, where it can be read. -/
  | fileSend (path : String) (readable : Bool)
  | fileReceive (id : ℤ) (path : String)
  | closeReason
  /-- Any other message: it changes nothing that the above read. -/
  | other

/-- What can happen to a connection. -/
inductive ConnEvent
  | message (env : Surroundings) (desktop : Desktop) (m : ConnMessage)
  | authorize (env : Surroundings) (desktop : Desktop)
  | switchPermission (name : Permission) (enabled : Bool)
  /-- Other connections and the user interface write the shared tables. -/
  | world (tables : Tables) (others : List (ℤ × AuthConnType × SessionKey))
  /-- The connection manager closes the connection. -/
  | cmClose
  /-- An authorised connection leaves the loop for its port forward. -/
  | forward
  /-- The connection ends by itself. -/
  | timeout

namespace HostConnection

variable {Totp : Type}

/-- The identity of the connection. -/
def identity (s : HostConnection Totp) : Identity := s.login.lr.identity

/-- An act of the connection. -/
def act (s : HostConnection Totp) (a : Act) : HostConnection Totp :=
  { s with acts := s.acts ++ [a] }

/-- Effects on the desktop. -/
def perform (s : HostConnection Totp) (effects : List Effect) : HostConnection Totp :=
  { s with effects := s.effects ++ effects }

/-- The connection is told to the audit. -/
def postConnAudit (s : HostConnection Totp) (peer : Option (String × String)) :
    HostConnection Totp :=
  s.act (.connAudit s.login.lr.sessionId peer)

/-- A transfer is told to the audit. -/
def postFileAudit (s : HostConnection Totp) (path : String) : HostConnection Totp :=
  s.act (.fileAudit s.login.lr.myId s.login.lr.myName path)

/-- `AuthedConnID::check_remove_session`. -/
def checkRemoveSession (s : HostConnection Totp) (key : SessionKey) : HostConnection Totp :=
  let isRemote := s.authedConns.any fun c => c.1 = s.id ∧ c.2.1 = .remote
  let anotherRemote := s.authedConns.any fun c => c.1 ≠ s.id ∧ c.2.2 = key ∧ c.2.1 = .remote
  let tables := if isRemote || !anotherRemote then
    { s.login.tables with
      sessions := fun k => if k = key then none else s.login.tables.sessions k }
  else s.login.tables
  { s with login := { s.login with tables := tables } }.act (.checkRemoveSession key)

/-- The loop is left. -/
def leave (s : HostConnection Totp) : HostConnection Totp :=
  { s with login := { s.login.close with portForwardSocket := false } }.postConnAudit none

/-- The session is removed and the connection left. -/
def removeAndLeave (s : HostConnection Totp) : HostConnection Totp :=
  (s.checkRemoveSession s.login.sessionKey).leave

/-- The loop is left with the port forward open: `try_port_forward_loop` ends with an error. -/
def leaveForward (s : HostConnection Totp) : HostConnection Totp :=
  if s.login.portForwardSocket then s.removeAndLeave else s.leave

/-- The peer may use the keyboard. -/
def peerKeyboardEnabled (s : HostConnection Totp) : Bool := s.keyboard && !s.disableKeyboard

/-- The option that takes the keyboard away, or gives it back. -/
def setDisableKeyboard (s : HostConnection Totp) : Option BoolOption → HostConnection Totp
  | some .yes => { s with disableKeyboard := true }
  | some .no => { s with disableKeyboard := false }
  | _ => s

/-- Input is blocked with both permissions only. -/
def setBlockInput (s : HostConnection Totp) (q : Option BoolOption) : HostConnection Totp :=
  if s.keyboard && s.blockInput then
    match q with
    | some .yes => s.perform [.blockOn]
    | some .no => s.perform [.blockOff]
    | _ => s
  else s

/-- `update_options`, as far as it is about input. -/
def updateOptions (s : HostConnection Totp) (o : OptionMessage) : HostConnection Totp :=
  (s.setDisableKeyboard o.disableKeyboard).setBlockInput o.blockInput

/-- The kind of connection a login asked for. -/
def authConnType (s : HostConnection Totp) : AuthConnType :=
  if s.login.fileTransfer.isSome then .fileTransfer
  else if s.login.portForwardSocket then .portForward
  else .remote

/-- The entry in `AUTHED_CONNS`. -/
def register (s : HostConnection Totp) : HostConnection Totp :=
  { s with
    authedConnId := some s.authConnType
    authedConns := s.authedConns ++ [(s.id, s.authConnType, s.login.sessionKey)]
    authorizedAs := some s.identity }

/-- The options of the login were used. -/
def takeOptionsInLogin (s : HostConnection Totp) : HostConnection Totp :=
  { s with optionsInLogin := none }

/-- The options of the login. -/
def updateOptionsInLogin (s : HostConnection Totp) : HostConnection Totp :=
  match s.optionsInLogin with
  | some o => s.takeOptionsInLogin.updateOptions o
  | none => s

/-- What `send_logon_response` does once the connection is authorised. -/
def onAuthorized (s : HostConnection Totp) (desktop : Desktop) : HostConnection Totp :=
  let s := s.register.postConnAudit (some (s.login.lr.myId, s.login.lr.myName))
  if s.login.portForwardSocket then s
  else if s.login.fileTransfer.isNone && desktop.unsupportedDisplay then s
  else s.updateOptionsInLogin

/-- A step of the login, and what follows if it authorised the connection. -/
def afterLogin (s : HostConnection Totp) (login : Connection Totp) (desktop : Desktop) :
    HostConnection Totp :=
  let t := { s with login := login }
  let t := if login.authorized && !s.login.authorized then t.onAuthorized desktop else t
  if login.closed then t.leaveForward else t

/-- The options of the login are kept until they are used. -/
def keepOptions (s : HostConnection Totp) (options : Option OptionMessage) :
    HostConnection Totp :=
  { s with optionsInLogin := options.or s.optionsInLogin }

/-- `change_resolution`, of the current display unless another is named. -/
def changeResolution (s : HostConnection Totp) (desktop : Desktop) (d : Option ℕ)
    (r : Resolution) : HostConnection Totp :=
  if s.keyboard then
    match desktop.displays.bind fun displays => displays[d.getD s.displayIdx]? with
    | some display =>
      s.perform [.setLastChangedResolution display.name (display.width, display.height) r,
        .changeResolution display.name r]
    | none => s
  else s

/-- The display is switched, and its size with it. -/
def handleSwitchDisplay (s : HostConnection Totp) (desktop : Desktop) (display : ℕ)
    (r : Resolution) : HostConnection Totp :=
  if s.displayIdx ≠ display ∧ desktop.serverAlive then
    let s := { s with displayIdx := display }
    if r.width ≠ 0 ∧ r.height ≠ 0 then s.changeResolution desktop none r else s
  else s

/-- How a key event is sent on: pressed, unless it is a modifier, a text or a release. -/
def KeyEvent.isPress (me : KeyEvent) : Bool := (me.press || me.down) && !me.isModifier

/-- `on_message` for an authorised connection. -/
def onControl (crates : Crates Totp) (canDetect : ℤ → Bool) (s : HostConnection Totp)
    (desktop : Desktop) : ConnMessage → HostConnection Totp
  | .mouseEvent me => if s.peerKeyboardEnabled then s.perform [.mouse me s.id] else s
  | .pointerDeviceEvent pde => if s.peerKeyboardEnabled then s.perform [.pointer pde s.id] else s
  | .keyEvent me =>
    if s.peerKeyboardEnabled then s.perform [.key me (KeyEvent.isPress me && !me.isText)] else s
  | .option o => s.updateOptions o
  | .switchDisplay display r => s.handleSwitchDisplay desktop display r
  | .changeResolution r => s.changeResolution desktop none r
  | .changeDisplayResolution display r => s.changeResolution desktop (some display) r
  | .restartRemoteDevice => if s.restart then s.perform [.forceReboot, .reboot] else s
  | .fileSend path readable =>
    if s.login.fileTransfer.isSome && readable then s.postFileAudit path else s
  | .fileReceive id path =>
    if s.login.fileTransfer.isSome then
      let od := canDetect (crates.getVersionNumber s.login.lr.version)
      (s.act (.newWrite id path od)).postFileAudit path
    else s
  | .closeReason => s.removeAndLeave
  | _ => s

/-- `on_message`. -/
def onMessage (crates : Crates Totp) (canDetect : ℤ → Bool) (s : HostConnection Totp)
    (env : Surroundings) (desktop : Desktop) (m : ConnMessage) : HostConnection Totp :=
  match m with
  | .loginRequest lr options =>
    (s.keepOptions options).afterLogin (s.login.onMessage crates env (.loginRequest lr)) desktop
  | .switchSidesResponse uuid lr =>
    (s.keepOptions (lr.bind Prod.snd)).afterLogin
      (s.login.onMessage crates env (.switchSidesResponse uuid (lr.map Prod.fst))) desktop
  | .auth2fa code hwid =>
    s.afterLogin (s.login.onMessage crates env (.auth2fa code hwid)) desktop
  | m =>
    if s.login.authorized ∧ ¬ s.login.portForwardSocket then s.onControl crates canDetect desktop m
    else s

/-- A permission is given or taken. -/
def switchPermission (s : HostConnection Totp) (enabled : Bool) : Permission → HostConnection Totp
  | .keyboard => { s with keyboard := enabled }
  | .restart => { s with restart := enabled }
  | .blockInput => { s with blockInput := enabled }

/-- The tables after other connections wrote them. -/
def afterWorld (s : HostConnection Totp) (tables : Tables)
    (others : List (ℤ × AuthConnType × SessionKey)) : HostConnection Totp :=
  { s with
    login := { s.login with tables := tables }
    authedConns := s.authedConns.filter (·.1 = s.id) ++ others.filter (·.1 ≠ s.id) }

/-- One turn of the loop. -/
def turn (crates : Crates Totp) (canDetect : ℤ → Bool) (s : HostConnection Totp) :
    ConnEvent → Option (HostConnection Totp)
  | .message env desktop m => some (s.onMessage crates canDetect env desktop m)
  | .authorize env desktop => some (s.afterLogin (s.login.onAuthorize crates env) desktop)
  | .switchPermission name enabled => some (s.switchPermission enabled name)
  | .world tables others => some (s.afterWorld tables others)
  | .cmClose => some s.removeAndLeave
  | .forward =>
    if s.login.authorized && s.login.portForwardSocket then some s.leaveForward else none
  | .timeout => some s.leave

/-- One turn of a connection that is open. -/
def step (crates : Crates Totp) (canDetect : ℤ → Bool) (s : HostConnection Totp) (e : ConnEvent) :
    Option (HostConnection Totp) :=
  if s.login.closed then none else s.turn crates canDetect e

end HostConnection

/-- A connection from a state in which it is not authorised. -/
def hostMachine {Totp : Type} (crates : Crates Totp) (canDetect : ℤ → Bool)
    (s : HostConnection Totp) : Machine (HostConnection Totp) ConnEvent where
  init := s
  step := HostConnection.step crates canDetect

end RdWeb.Host
