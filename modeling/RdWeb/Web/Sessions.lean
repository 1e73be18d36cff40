import RdWeb.Lib.Machine
import RdWeb.Lib.OrderedMap

/-!
# The session registry of the web client

`connections/sessions.ts` keeps a map from session ids to connection objects and
one mutable global, `window.curConn`. The bridge adds, starts and closes
sessions; dying connections and fatal errors call back into the same functions.
Connection objects are shared by reference, so they live in a store and the map
holds references.
-/

namespace RdWeb.Web

/-- The capability tag of a connection, `SessionKind`. -/
inductive SessionKind
  | remoteDesktop
  | fileTransfer
  deriving DecidableEq, Repr

/-- A reference to a connection object. -/
abbrev ConnRef := ℕ

/-- What the registry reads and writes of a connection object. -/
structure SessionConn where
  /-- `kind`. -/
  kind : SessionKind
  /-- `_sessionId`, set by `addSession`. -/
  sessionId : Option String := none
  /-- Whether the socket's status is `"open"`. -/
  wsOpen : Bool := false
  /-- Whether `close` was called. -/
  closed : Bool := false
  /-- `_ftSessionEnded`. -/
  ftSessionEnded : Bool := false
  deriving DecidableEq, Repr

/-- The connection objects, the `sessions` map and `window.curConn`. -/
structure Registry where
  /-- Every connection object created so far. -/
  conns : List SessionConn
  /-- `sessions`. -/
  sessions : OrderedMap String ConnRef
  /-- `window.curConn`. -/
  curConn : Option ConnRef

namespace Registry

/-- `main.ts` starts with no session and an undefined `window.curConn`. -/
def initial : Registry := ⟨[], .empty, none⟩

/-- The object behind a possibly undefined reference. -/
def conn (r : Registry) (c : Option ConnRef) : Option SessionConn := c.bind fun c => r.conns[c]?

/-- Update one connection object in place. -/
def updateConn (r : Registry) (c : ConnRef) (f : SessionConn → SessionConn) : Registry :=
  { r with conns := r.conns.modify c f }

/-- Call `close` on a connection object. -/
def closeConn (r : Registry) (c : ConnRef) : Registry :=
  r.updateConn c fun conn => { conn with closed := true }

/-- The first session becomes the current one where the closed one was. -/
def advanceCurConn (r : Registry) (closedConn : Option ConnRef) : Registry :=
  if r.curConn ≠ closedConn then r else { r with curConn := r.sessions.values.head? }

/-- The connection is that of a remote desktop. -/
def isRemoteDesktop (r : Registry) (c : Option ConnRef) : Bool :=
  (r.conn c).any fun conn => conn.kind = .remoteDesktop

/-- The connection is that of a file transfer. -/
def isFileTransfer (r : Registry) (c : Option ConnRef) : Bool :=
  (r.conn c).any fun conn => conn.kind = .fileTransfer

/-- An id that is missing, empty or not registered falls through to `curConn`. -/
def getSession (r : Registry) (sessionId : Option String) : Option ConnRef :=
  match sessionId with
  | none => r.curConn
  | some id => if id ≠ "" ∧ r.sessions.has id then r.sessions.get? id else r.curConn

/-- The connection of a session, if it is a remote desktop. -/
def requireRemoteDesktop (r : Registry) (sessionId : Option String) : Option ConnRef :=
  if r.isRemoteDesktop (r.getSession sessionId) then r.getSession sessionId else none

/-- The connection of a session, if it is a file transfer. -/
def requireFileTransfer (r : Registry) (sessionId : Option String) : Option ConnRef :=
  if r.isFileTransfer (r.getSession sessionId) then r.getSession sessionId else none

/-- `connFor` of `conn_registry.js`. -/
def connFor (r : Registry) (sessionId : Option String) : Option ConnRef :=
  (r.getSession sessionId).or r.curConn

/-- A session is added, and becomes the current one. -/
def addSession (r : Registry) (sessionId : String) (c : ConnRef) : Registry :=
  { r.updateConn c (fun conn => { conn with sessionId := some sessionId }) with
    sessions := r.sessions.set sessionId c
    curConn := some c }

/-- A session is removed, and its connection closed. -/
def removeSession (r : Registry) (sessionId : String) : Registry :=
  match r.sessions.get? sessionId with
  | none => r.advanceCurConn none
  | some c =>
    { r.closeConn c with sessions := r.sessions.delete sessionId }.advanceCurConn (some c)

/-- Some remote desktop has an open socket. -/
def hasOpenRemoteDesktopSession (r : Registry) : Bool :=
  r.sessions.values.any fun c => r.isRemoteDesktop (some c) && (r.conn (some c)).any (·.wsOpen)

/-- The session of a file transfer ends. -/
def endFileTransferSession (r : Registry) (sessionId : Option String) : Registry :=
  match sessionId with
  | none => r
  | some id =>
    if id = "" then r
    else match r.sessions.get? id with
      | none => r
      | some c =>
        if !r.isFileTransfer (some c) || (r.conn (some c)).any (·.ftSessionEnded) then r
        else
          { (r.updateConn c fun conn => { conn with ftSessionEnded := true }).closeConn c with
            sessions := r.sessions.delete id }.advanceCurConn (some c)

/-- `close` of `conn_registry.js`: the session of `curConn`, or `curConn` itself
when it has no session id. -/
def close (r : Registry) : Registry :=
  match (r.conn r.curConn).bind (·.sessionId) with
  | some id =>
    if id ≠ "" then r.removeSession id
    else { r.curConn.elim r r.closeConn with curConn := none }
  | none => { r.curConn.elim r r.closeConn with curConn := none }

/-- `showFatalError` of `errors.js`, as far as it touches the registry. -/
def showFatalError (r : Registry) : Registry :=
  if r.isFileTransfer r.curConn && r.hasOpenRemoteDesktopSession then
    r.endFileTransferSession ((r.conn r.curConn).bind (·.sessionId))
  else r.close

/-- The parsed argument of `session_add_sync`. -/
structure SessionAddData where
  sessionId : Option String
  isFileTransfer : Bool
  deriving DecidableEq, Repr

/-- `sessionAdd` of `session_handlers.js`; `none` is an argument that does not parse. -/
def sessionAdd (r : Registry) (data : Option SessionAddData) : Registry :=
  match data with
  | none => r
  | some data =>
    match data.sessionId with
    | none => r
    | some id =>
      if id = "" then r
      else
        let conn : SessionConn :=
          { kind := if data.isFileTransfer then .fileTransfer else .remoteDesktop }
        { r with conns := r.conns ++ [conn] }.addSession id r.conns.length

/-- The parsed argument of `session_start`. -/
structure SessionStartData where
  sessionId : Option String
  id : Option String
  deriving DecidableEq, Repr

/-- `sessionStart` of `session_handlers.js`. `conn.start` is asynchronous: what it
does to the registry are later events. -/
def sessionStart (r : Registry) (data : Option SessionStartData) : Registry :=
  match data with
  | none => r.showFatalError
  | some data =>
    match r.getSession data.sessionId with
    | none => r
    | some c =>
      if data.id.any (· ≠ "") then { r with curConn := some c }
      else { r with curConn := some c }.showFatalError

/-- `sessionClose` of `session_handlers.js`. -/
def sessionClose (r : Registry) (value : Option String) : Registry :=
  match value with
  | none => r.close
  | some id => if id ≠ "" then r.removeSession id else r.close

end Registry

/-- The calls and callbacks that reach the registry, in any order. -/
inductive SessionEvent
  /-- `session_add_sync`. -/
  | sessionAddSync (data : Option Registry.SessionAddData)
  /-- `session_start`. -/
  | sessionStart (data : Option Registry.SessionStartData)
  /-- `session_close`. -/
  | sessionClose (value : Option String)
  /-- `endFileTransferSession`, from the message loop of any connection. -/
  | endFileTransferSession (sessionId : Option String)
  /-- `close`. -/
  | close
  /-- A message box that `errors.js` treats as fatal. -/
  | fatalError
  /-- The socket of a connection opens or goes away. -/
  | wsStatus (c : ConnRef) (isOpen : Bool)
  deriving DecidableEq, Repr

/-- One call or callback. All of them run to completion without yielding. -/
def Registry.step (r : Registry) : SessionEvent → Registry
  | .sessionAddSync data => r.sessionAdd data
  | .sessionStart data => r.sessionStart data
  | .sessionClose value => r.sessionClose value
  | .endFileTransferSession id => r.endFileTransferSession id
  | .close => r.close
  | .fatalError => r.showFatalError
  | .wsStatus c isOpen => r.updateConn c fun conn => { conn with wsOpen := isOpen }

/-- The registry over a whole history of calls. -/
def registryMachine : Machine Registry SessionEvent where
  init := .initial
  step r e := some (r.step e)

end RdWeb.Web
