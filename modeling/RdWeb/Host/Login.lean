import Mathlib.Data.Int.Notation
import Mathlib.Data.Nat.Notation
import RdWeb.Lib.Machine

/-!
# Logging in to a host

The part of `server/connection.rs` that decides whether a connection is authorised:
password, recent session, second factor, switching sides and the connection manager.
The configuration, the clock and the desktop are read anew at each message, and the
tables that all connections share can change between messages.
-/

namespace RdWeb.Host

/-- The functions of other crates. -/
structure Crates (Totp : Type) where
  sha256 : List UInt8 → List UInt8
  /-- `TOTP::check_current` at a time in seconds. -/
  checkCurrent : Totp → String → ℕ → Except String Bool
  isIpStr : String → Bool
  isDomainPortStr : String → Bool
  getVersionNumber : String → ℤ

/-- How connections are approved. -/
inductive ApproveMode
  | both
  | password
  | click
  deriving DecidableEq

/-- A device that may skip the second factor, until it is outdated. -/
structure TrustedDevice where
  hwid : List UInt8
  id : String
  name : String
  platform : String
  outdated : Bool
  deriving DecidableEq

/-- What the host reads from its surroundings while it handles one message. -/
structure Surroundings where
  /-- The monotonic clock, in milliseconds. -/
  instant : ℕ
  seconds : ℕ
  minute : ℤ
  fileTransferEnabled : Bool
  tunnelEnabled : Bool
  inPrivacyMode : Bool
  /-- Whether the address of a port forward can be connected to. -/
  connects : Bool
  /-- What starting the desktop reports. -/
  desktopError : String
  id : String
  approveMode : ApproveMode
  isPrelogin : Bool
  allowLogonScreenPassword : Bool
  hasValidPassword : Bool
  /-- The temporary password, where it is enabled. -/
  temporaryPassword : Option (List UInt8)
  /-- The permanent password, where it is enabled. -/
  permanentPassword : Option (List UInt8)
  enableTrustedDevices : Bool
  trustedDevices : List TrustedDevice

/-- The kind of connection a login asks for. -/
inductive LoginUnion
  | fileTransfer (dir : String) (showHidden : Bool)
  | portForward (host : String) (port : ℤ)
  | none
  deriving DecidableEq

/-- A request to log in. -/
structure LoginRequest where
  username : String
  password : List UInt8
  myId : String
  myName : String
  myPlatform : String
  version : String
  hwid : List UInt8
  sessionId : ℕ
  videoAckRequired : Bool
  union : LoginUnion
  deriving DecidableEq

/-- What a session is kept under. -/
structure SessionKey where
  peerId : String
  name : String
  sessionId : ℕ
  deriving DecidableEq

/-- What is kept of a session. -/
structure Session where
  lastRecvTime : ℕ
  randomPassword : List UInt8
  tfa : Bool
  deriving DecidableEq

/-- An entry of a failure table: the minute, the failures in it, and all of them. -/
structure Failure where
  minute : ℤ
  inMinute : ℕ
  total : ℕ
  deriving DecidableEq

/-- The tables all connections share. -/
structure Tables where
  sessions : SessionKey → Option Session
  switchSidesUuid : String → Option (ℕ × List UInt8)
  /-- One table for passwords, one for codes. -/
  loginFailures : Fin 2 → String → Option Failure

/-- Why a connection may be authorised. -/
inductive Approval
  /-- The connection manager sent `Authorize`. -/
  | connectionManager
  /-- The uuid registered for the peer came back. -/
  | switchUuid
  /-- `validate_password` accepted a login. -/
  | password
  /-- `is_recent_session(false)` accepted a login. -/
  | recentSession
  deriving DecidableEq

/-- The replies to a login. -/
inductive LoginReply
  | error (text : String)
  /-- The response to a connection that is now authorised. -/
  | peerInfo
  deriving DecidableEq

/-- `Data::Login` for the connection manager. -/
structure CmLogin where
  isFileTransfer : Bool
  portForward : String
  peerId : String
  name : String
  authorized : Bool
  fromSwitch : Bool
  deriving DecidableEq

/-- The connection, the shared tables, and the history of replies and approvals. -/
structure Connection (Totp : Type) where
  authorized : Bool
  require2fa : Option Totp
  lr : LoginRequest
  fromSwitch : Bool
  fileTransfer : Option (String × Bool)
  portForwardSocket : Bool
  portForwardAddress : String
  videoAckRequired : Bool
  salt : List UInt8
  challenge : List UInt8
  ip : String
  closed : Bool
  tables : Tables
  sent : List LoginReply
  toCm : List CmLogin
  newTrustedDevices : List TrustedDevice
  approvals : List Approval

/-- How long a session counts as recent, in milliseconds. -/
def SESSION_TIMEOUT : ℕ := 30000

/-- The message for a desktop that is not ready. -/
def LOGIN_MSG_DESKTOP_SESSION_NOT_READY : String := "Desktop session not ready"

namespace Connection

variable {Totp : Type}

/-- The key of the session that the request names. -/
def sessionKey (s : Connection Totp) : SessionKey := ⟨s.lr.myId, s.lr.myName, s.lr.sessionId⟩

/-- An error is sent. -/
def sendLoginError (s : Connection Totp) (text : String) : Connection Totp :=
  { s with sent := s.sent ++ [.error text] }

/-- The manager of connections is started or told. -/
def tryStartCm (s : Connection Totp) (peerId name : String) (authorized : Bool) :
    Connection Totp :=
  { s with toCm := s.toCm ++
      [⟨s.fileTransfer.isSome, s.portForwardAddress, peerId, name, authorized, s.fromSwitch⟩] }

/-- The message handler returned `false`. -/
def close (s : Connection Totp) : Connection Totp := { s with closed := true }

/-- Remember why the peer was let through. -/
def approve (s : Connection Totp) (a : Approval) : Connection Totp :=
  { s with approvals := s.approvals ++ [a] }

/-- The session of the request is kept. -/
def setSession (s : Connection Totp) (session : Session) : Connection Totp :=
  { s with tables := { s.tables with
      sessions := fun key => if key = s.sessionKey then some session else s.tables.sessions key } }

/-- `AuthedConnID::update_or_insert_session` for a password. -/
def updateOrInsertSession (s : Connection Totp) (env : Surroundings) (password : List UInt8)
    (tfa : Bool) : Connection Totp :=
  match s.tables.sessions s.sessionKey with
  | some session => s.setSession { session with randomPassword := password, tfa := tfa }
  | none => s.setSession ⟨env.instant, password, tfa⟩

/-- `AuthedConnID::set_session_2fa`. -/
def setSession2fa (s : Connection Totp) (env : Surroundings) : Connection Totp :=
  match s.tables.sessions s.sessionKey with
  | some session => s.setSession { session with tfa := true }
  | none => s.setSession ⟨env.instant, [], true⟩

/-- The password of the request is this one, under the salt and the challenge. -/
def validateOnePassword (crates : Crates Totp) (s : Connection Totp) (password : List UInt8) :
    Bool :=
  if password = [] then false
  else crates.sha256 (crates.sha256 (password ++ s.salt) ++ s.challenge) = s.lr.password

/-- The password of the request is the temporary or the permanent one. -/
def validatePassword (crates : Crates Totp) (env : Surroundings) (s : Connection Totp) :
    Connection Totp × Bool :=
  if env.temporaryPassword.any (s.validateOnePassword crates) then
    (s.updateOrInsertSession env (env.temporaryPassword.getD []) false, true)
  else (s, env.permanentPassword.any (s.validateOnePassword crates))

/-- Sessions that nothing was received on for too long are dropped. -/
def retainSessions (s : Connection Totp) (env : Surroundings) : Connection Totp :=
  { s with tables := { s.tables with
      sessions := fun key => (s.tables.sessions key).filter fun session =>
        env.instant - session.lastRecvTime < SESSION_TIMEOUT } }

/-- The session of the request is kept, and recent, with a password that is still valid. -/
def isRecentSession (crates : Crates Totp) (env : Surroundings) (s : Connection Totp)
    (tfa : Bool) : Connection Totp × Bool :=
  let s := s.retainSessions env
  let recent := (s.tables.sessions s.sessionKey).any fun session =>
    s.lr.password ≠ [] ∧
      (tfa ∧ session.tfa ∨ ¬tfa ∧ s.validateOnePassword crates session.randomPassword)
  (s, recent)

/-- `send_logon_response`: the second factor is asked for here. -/
def sendLogonResponse (crates : Crates Totp) (env : Surroundings) (s : Connection Totp) :
    Connection Totp :=
  if s.authorized then s
  else if s.require2fa.isSome then
    let (s, recent) := s.isRecentSession crates env true
    if !recent && !s.fromSwitch then s.sendLoginError "2FA Required"
    else { s with authorized := true, sent := s.sent ++ [.peerInfo] }
  else { s with authorized := true, sent := s.sent ++ [.peerInfo] }

/-- The request is taken, and the second factor skipped on a trusted device. -/
def handleLoginRequestWithoutValidation (env : Surroundings) (s : Connection Totp)
    (lr : LoginRequest) : Connection Totp :=
  let trusted := (env.trustedDevices.find? fun d => d.hwid = lr.hwid).any fun d =>
    !d.outdated && d.id = lr.myId && d.name = lr.myName && d.platform = lr.myPlatform
  let bypass := s.require2fa.isSome && lr.hwid ≠ [] && env.enableTrustedDevices && trusted
  { s with
    lr := lr
    require2fa := if bypass then none else s.require2fa
    videoAckRequired := lr.videoAckRequired }

/-- `check_failure`: the entry that counts, and whether the attempt is let through. -/
def checkFailure (s : Connection Totp) (env : Surroundings) (i : Fin 2) :
    Connection Totp × Failure × Bool :=
  let failure := (s.tables.loginFailures i s.ip).getD ⟨0, 0, 0⟩
  if 30 < failure.total then (s.sendLoginError "Too many wrong attempts", failure, false)
  else if env.minute = failure.minute ∧ 6 < failure.inMinute then
    (s.sendLoginError "Please try 1 minute later", failure, false)
  else (s, failure, true)

/-- The failures of the address are kept. -/
def setFailure (s : Connection Totp) (i : Fin 2) (failure : Option Failure) : Connection Totp :=
  { s with tables := { s.tables with
      loginFailures := fun j ip =>
        if j = i ∧ ip = s.ip then failure else s.tables.loginFailures j ip } }

/-- A failure is counted, or all are forgotten. -/
def updateFailure (s : Connection Totp) (env : Surroundings) (failure : Failure) (remove : Bool)
    (i : Fin 2) : Connection Totp :=
  if remove then if failure.minute ≠ 0 then s.setFailure i none else s
  else if failure.minute = env.minute then
    s.setFailure i (some ⟨failure.minute, failure.inMinute + 1, failure.total + 1⟩)
  else s.setFailure i (some ⟨env.minute, 1, failure.total + 1⟩)

/-- The kind of a login: a file transfer, a port forward or a desktop. `false` ends the
connection. -/
def acceptUnion (env : Surroundings) (s : Connection Totp) : LoginUnion → Connection Totp × Bool
  | .fileTransfer dir showHidden =>
    if env.fileTransferEnabled then ({ s with fileTransfer := some (dir, showHidden) }, true)
    else (s.sendLoginError "No permission of file transfer", false)
  | .portForward host port =>
    if !env.tunnelEnabled then (s.sendLoginError "No permission of IP tunneling", false)
    else
      let isRdp : Bool := host = "RDP" ∧ port = 0
      let host := if isRdp || host = "" then "localhost" else host
      let port := if isRdp then 3389 else port
      let addr := s!"{host}:{port}"
      let s := { s with portForwardAddress := addr }
      if env.connects then ({ s with portForwardSocket := true }, true)
      else
        let shown := if isRdp then "RDP" else addr
        (s.sendLoginError s!"Failed to access remote {shown}, please make sure if it is open",
          false)
  | .none =>
    if env.inPrivacyMode then (s.sendLoginError "Someone turns on privacy mode, exit", false)
    else (s, true)

/-- A login that passed: the second factor and the logon response, unless the desktop is
not ready. -/
def onApproved (crates : Crates Totp) (env : Surroundings) (s : Connection Totp)
    (lr : LoginRequest) : Connection Totp :=
  if env.desktopError = "" then
    let s := s.sendLogonResponse crates env
    s.tryStartCm lr.myId lr.myName s.authorized
  else s.sendLoginError env.desktopError

/-- The password branch of a login. -/
def onPassword (crates : Crates Totp) (env : Surroundings) (s : Connection Totp)
    (lr : LoginRequest) : Connection Totp :=
  let (s, failure, passed) := s.checkFailure env 0
  if !passed then s
  else
    let (s, valid) := s.validatePassword crates env
    let s := s.updateFailure env failure valid 0
    if valid then (s.approve .password).onApproved crates env lr
    else if env.desktopError = "" then
      (s.sendLoginError "Wrong Password").tryStartCm lr.myId lr.myName false
    else s.sendLoginError "Desktop session not ready, password wrong"

/-- Whether only a click on the host can let anyone in. -/
def clickOnly (env : Surroundings) : Bool :=
  (env.approveMode = .click ∧ ¬ (env.isPrelogin ∧ env.allowLogonScreenPassword)) ∨
    (env.approveMode = .both ∧ ¬ env.hasValidPassword)

/-- The end of a login, once its kind is accepted and the desktop was started. -/
def onCredentials (crates : Crates Totp) (env : Surroundings) (s : Connection Totp)
    (lr : LoginRequest) : Connection Totp :=
  if !crates.isIpStr lr.username && !crates.isDomainPortStr lr.username &&
      lr.username ≠ env.id then
    (s.sendLoginError "Offline").close
  else if clickOnly env then
    let s := s.tryStartCm lr.myId lr.myName false
    if crates.getVersionNumber "1.2.0" ≤ crates.getVersionNumber lr.version then
      s.sendLoginError "No Password Access"
    else s
  else
    let (s, recent) := s.isRecentSession crates env false
    if recent then (s.approve .recentSession).onApproved crates env lr
    else if lr.password = [] then
      if env.desktopError = "" then s.tryStartCm lr.myId lr.myName false
      else s.sendLoginError "Desktop session not ready, password empty"
    else s.onPassword crates env lr

/-- A request to log in. -/
def onLoginRequest (crates : Crates Totp) (env : Surroundings) (s : Connection Totp)
    (lr : LoginRequest) : Connection Totp :=
  let s := s.handleLoginRequestWithoutValidation env lr
  if s.authorized then s
  else
    let (s, accepted) := s.acceptUnion env lr.union
    if !accepted then s.close
    else if env.desktopError ≠ "" ∧
        env.desktopError ≠ LOGIN_MSG_DESKTOP_SESSION_NOT_READY then
      s.sendLoginError env.desktopError
    else s.onCredentials crates env lr

/-- A valid code: the second factor is done, and the logon response is sent. -/
def onCodeAccepted (crates : Crates Totp) (env : Surroundings) (s : Connection Totp)
    (hwid : List UInt8) : Connection Totp :=
  let s := { s with require2fa := none }.setSession2fa env
  let s := s.sendLogonResponse crates env
  let s := s.tryStartCm s.lr.myId s.lr.myName s.authorized
  if hwid ≠ [] ∧ env.enableTrustedDevices then
    { s with newTrustedDevices := s.newTrustedDevices ++
        [⟨hwid, s.lr.myId, s.lr.myName, s.lr.myPlatform, false⟩] }
  else s

/-- A code of the second factor. -/
def onAuth2fa (crates : Crates Totp) (env : Surroundings) (s : Connection Totp) (code : String)
    (hwid : List UInt8) : Connection Totp :=
  let (s, failure, passed) := s.checkFailure env 1
  if !passed then s
  else
    match s.require2fa with
    | none => s
    | some totp =>
      match crates.checkCurrent totp code env.seconds with
      | .error _ => s
      | .ok true => (s.updateFailure env failure true 1).onCodeAccepted crates env hwid
      | .ok false => (s.updateFailure env failure false 1).sendLoginError "Wrong 2FA Code"

/-- Whether a code would be accepted now. -/
def acceptsCode (crates : Crates Totp) (env : Surroundings) (s : Connection Totp)
    (code : String) : Bool :=
  (s.checkFailure env 1).2.2 &&
    s.require2fa.any fun totp =>
      match crates.checkCurrent totp code env.seconds with
      | .ok valid => valid
      | .error _ => false

/-- `SWITCH_SIDES_UUID` without the entry of a peer and the entries over ten seconds old. -/
def takeSwitchUuid (s : Connection Totp) (env : Surroundings) (myId : String) :
    Connection Totp × Option (List UInt8) :=
  let fresh : String → Option (ℕ × List UInt8) := fun id =>
    (s.tables.switchSidesUuid id).filter fun entry => env.instant - entry.1 < 10000
  ({ s with tables := { s.tables with
      switchSidesUuid := fun id => if id = myId then none else fresh id } },
    (fresh myId).map (·.2))

/-- A request of the peer to switch sides. -/
def onSwitchSides (crates : Crates Totp) (env : Surroundings) (s : Connection Totp)
    (uuid : List UInt8) (lr : Option LoginRequest) : Connection Totp :=
  match lr with
  | none => s
  | some lr =>
    let s := s.handleLoginRequestWithoutValidation env lr
    let (s, uuidOld) := s.takeSwitchUuid env lr.myId
    if uuid.length = 16 ∧ uuidOld = some uuid then
      let s := { s.approve .switchUuid with fromSwitch := true }
      let s := s.sendLogonResponse crates env
      s.tryStartCm lr.myId lr.myName s.authorized
    else s

/-- `Data::Authorize` of the connection manager. A port forward leaves the message loop. -/
def onAuthorize (crates : Crates Totp) (env : Surroundings) (s : Connection Totp) :
    Connection Totp :=
  let s := { s.approve .connectionManager with require2fa := none }
  let s := s.sendLogonResponse crates env
  if s.portForwardSocket then s.close else s

end Connection

/-- The messages a peer can send, as far as the login goes. -/
inductive PeerMessage
  | loginRequest (lr : LoginRequest)
  | auth2fa (code : String) (hwid : List UInt8)
  | switchSidesResponse (uuid : List UInt8) (lr : Option LoginRequest)
  /-- Any other message: it changes nothing that a login reads. -/
  | other
  deriving DecidableEq

/-- What can happen to a connection. -/
inductive LoginEvent
  | message (env : Surroundings) (m : PeerMessage)
  | authorize (env : Surroundings)
  /-- Other connections and the user interface write the shared tables. -/
  | world (tables : Tables)
  | close

namespace Connection

variable {Totp : Type}

/-- `on_message`. -/
def onMessage (crates : Crates Totp) (env : Surroundings) (s : Connection Totp) :
    PeerMessage → Connection Totp
  | .loginRequest lr => s.onLoginRequest crates env lr
  | .auth2fa code hwid => s.onAuth2fa crates env code hwid
  | .switchSidesResponse uuid lr => s.onSwitchSides crates env uuid lr
  | .other => s

/-- One step of a connection that is open. -/
def step (crates : Crates Totp) (s : Connection Totp) (e : LoginEvent) :
    Option (Connection Totp) :=
  if s.closed then none
  else
    match e with
    | .message env m => some (s.onMessage crates env m)
    | .authorize env => some (s.onAuthorize crates env)
    | .world tables => some { s with tables := tables }
    | .close => some s.close

end Connection

/-- A connection from a state in which nothing was approved. -/
def loginMachine {Totp : Type} (crates : Crates Totp) (s : Connection Totp) :
    Machine (Connection Totp) LoginEvent where
  init := s
  step := Connection.step crates

end RdWeb.Host
