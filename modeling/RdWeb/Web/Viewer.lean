import RdWeb.Web.Sessions
import RdWeb.Web.ViewerToken

/-!
# A viewer is handed a session

`web/index.html` makes a key pair and tells the window that opened the viewer the public key.
`bridge/init.js` then takes one session from that window, decrypts its token, waits until the user
interface has set `window.connect`, calls it and answers. Any window can send the viewer anything,
and everything that has to be awaited can take as long as it likes.

A fatal error is told to the user interface too, by a function that the user interface sets together
with `window.connect`. Before that the call throws, and what would follow it does not happen.
-/

namespace RdWeb.Web

/-- A window of the browser. -/
abbrev WindowId := ℕ

/-- `e.data`. A field it does not have is empty, and data that is no object has none. -/
structure MessageData where
  type : String := ""
  remoteSessionId : String := ""
  clientId : String := ""
  encryptedToken : String := ""
  server : String := ""
  key : String := ""
  deriving DecidableEq, Repr

/-- A message of another window. -/
structure MessageEvent where
  data : MessageData
  origin : String
  source : WindowId
  deriving DecidableEq, Repr

/-- What a viewer says. -/
inductive ViewerMessage
  | viewerReady (version : ℕ) (publicKey : String)
  | ack (result : Bool) (error : Option String)
  | viewerError (title message msgboxType : String)
  deriving DecidableEq, Repr

/-- A call of `postMessage`. -/
structure Posted where
  target : WindowId
  targetOrigin : String
  message : ViewerMessage
  deriving DecidableEq, Repr

/-- A call of `window.connect`. -/
structure ConnectCall where
  clientId : String
  token : String
  remoteSessionId : String
  deriving DecidableEq, Repr

/-- How far the script of `index.html` has got. -/
inductive Bootstrap (PublicKey : Type)
  /-- `generateKey`. -/
  | generating
  /-- `exportKey`. -/
  | exporting (publicKey : PublicKey)
  | finished

/-- What the handler of `REMOTE_SESSION_READY` awaits. -/
inductive HandOver (PrivateKey : Type)
  | idle
  /-- `decryptToken`. -/
  | decrypting (e : MessageEvent) (privateKey : PrivateKey)
  /-- `_connectReadyPromise`. -/
  | waiting (e : MessageEvent) (token : String)
  /-- `_connectImpl`. -/
  | connecting (e : MessageEvent)
  /-- The handler has returned or thrown. -/
  | ended

/-- What a fatal error says. -/
structure FatalBox where
  title : String
  text : String
  msgboxType : String
  deriving DecidableEq, Repr

/-- What a viewer uses of the browser. -/
structure ViewerPage (PrivateKey PublicKey AesKey : Type) extends
    ViewerCrypto PrivateKey PublicKey AesKey where
  /-- `exportKey` of a public key, as an SPKI document. -/
  exportSpki : PublicKey → Except Thrown (List UInt8)

/-- The window of a viewer, what it has posted and called, the messages it did not ignore, and those
of them whose handler threw before its answer. -/
structure Viewer (PrivateKey PublicKey : Type) where
  /-- `window.opener`. -/
  opener : Option WindowId
  /-- `window.parent`, where it is another window. -/
  parent : Option WindowId
  /-- `__parentOrigin`. -/
  parentOrigin : Option String
  bootstrap : Bootstrap PublicKey
  keyPair : Option (PrivateKey × PublicKey)
  /-- `__sessionStarted`. -/
  sessionStarted : Bool
  /-- Whether the user interface has set `onGlobalEvent` and `window.connect`. -/
  connectReady : Bool
  handOver : HandOver PrivateKey
  registry : Registry
  posted : List Posted
  connects : List ConnectCall
  heeded : List MessageEvent
  abandoned : List MessageEvent

/-- What happens to a viewer. -/
inductive ViewerEvent (PrivateKey PublicKey : Type)
  | keyGenerated (keyPair : PrivateKey × PublicKey)
  | keyFailed
  | keyExported
  | message (e : MessageEvent)
  | tokenDecrypted
  /-- `PlatformFFI.init` of the user interface sets `onGlobalEvent`, and then `window.connect`. -/
  | connectSet
  | connectCalled
  /-- What `_connectImpl` returns or throws. -/
  | connectReturned (result : Except Thrown Bool)
  /-- A call or callback of the session registry. Sessions are the user interface's. -/
  | session (e : SessionEvent) (box : FatalBox)
  /-- `notifyParentViewerError` of the user interface. -/
  | notified (box : FatalBox)

variable {PrivateKey PublicKey AesKey : Type}

/-- The text of an error, or another one for an empty text. -/
def formatErrorMessage (value fallback : String) : String := if value = "" then fallback else value

/-- A fatal error of a file transfer ends that session alone. -/
def Registry.endsFileTransferOnly (r : Registry) : Bool :=
  r.isFileTransfer r.curConn && r.hasOpenRemoteDesktopSession

/-- The registry in which a call shows a fatal error, if it does. -/
def Registry.fatalIn (r : Registry) : SessionEvent → Option Registry
  | .fatalError => some r
  | .sessionStart none => some r
  | .sessionStart (some data) =>
    match r.getSession data.sessionId with
    | none => none
    | some c => if data.id.any (· ≠ "") then none else some { r with curConn := some c }
  | _ => none

/-- The handler reads all of these. -/
def MessageData.isComplete (data : MessageData) : Bool :=
  data.remoteSessionId ≠ "" && data.clientId ≠ "" && data.encryptedToken ≠ "" &&
    data.server ≠ "" && data.key ≠ ""

namespace Viewer

variable (v : Viewer PrivateKey PublicKey)

/-- A window that was opened from a page of some origin. -/
def opened (opener parent : Option WindowId) (parentOrigin : Option String) :
    Viewer PrivateKey PublicKey where
  opener := opener
  parent := parent
  parentOrigin := parentOrigin
  bootstrap := .generating
  keyPair := none
  sessionStarted := false
  connectReady := false
  handOver := .idle
  registry := .initial
  posted := []
  connects := []
  heeded := []
  abandoned := []

/-- A message is posted to a window. -/
def post (target : WindowId) (targetOrigin : String) (message : ViewerMessage) :
    Viewer PrivateKey PublicKey :=
  { v with posted := v.posted ++ [⟨target, targetOrigin, message⟩] }

/-- The window that opened this one, or the one around it. -/
def getParentTarget : Option WindowId := v.opener.or v.parent

/-- The window that opened the viewer is told of the error. -/
def notifyParentError (box : FatalBox) : Viewer PrivateKey PublicKey :=
  match v.getParentTarget, v.parentOrigin with
  | some target, some origin =>
    let cleanTitle := formatErrorMessage box.title "Error"
    let cleanMessage := formatErrorMessage box.text cleanTitle
    v.post target origin (.viewerError cleanTitle cleanMessage box.msgboxType)
  | _, _ => v

/-- `showFatalError`, the registry apart. -/
def reportFatal (r : Registry) (box : FatalBox) : Viewer PrivateKey PublicKey :=
  if r.endsFileTransferOnly then v
  else v.notifyParentError { box with text := if box.text = "" then box.title else box.text }

/-- `showFatalError` up to `notifyFlutterFatalCleanup`. -/
def showFatalError (box : FatalBox) : Viewer PrivateKey PublicKey :=
  { v.reportFatal v.registry box with registry := v.registry.showFatalError }

/-- The answer that follows `showFatalError`, which `notifyFlutterFatalCleanup` has thrown out of
where there is no user interface. -/
def ackFailed (e : MessageEvent) (error : String) : Viewer PrivateKey PublicKey :=
  if v.connectReady then v.post e.source e.origin (.ack false (some error))
  else { v with abandoned := v.abandoned ++ [e] }

/-- A call of the registry, which may show a fatal error. -/
def sessionCall (e : SessionEvent) (box : FatalBox) : Viewer PrivateKey PublicKey :=
  let reported := match v.registry.fatalIn e with
    | some r => v.reportFatal r box
    | none => v
  { reported with registry := v.registry.step e }

/-- A message that the handler does not return from at once. -/
def heeds (e : MessageEvent) : Bool :=
  e.data.type = "REMOTE_SESSION_READY" && e.data.isComplete && !v.sessionStarted &&
    some e.origin = v.parentOrigin && some e.source = v.opener

/-- A message is heeded if it comes from the opener while the viewer waits for it. -/
def onMessage (e : MessageEvent) : Viewer PrivateKey PublicKey :=
  if v.heeds e then
    let heeding := { v with heeded := v.heeded ++ [e] }
    match v.keyPair with
    | none =>
      (heeding.showFatalError ⟨"Error", "viewer not initialized", "error"⟩).ackFailed e
        "viewer not initialized"
    | some (privateKey, _) =>
      { heeding with sessionStarted := true, handOver := .decrypting e privateKey }
  else v

/-- The message the handler takes a session from. It writes to `localStorage` then. -/
def accepts : ViewerEvent PrivateKey PublicKey → Option MessageEvent
  | .message e => if v.heeds e && v.keyPair.isSome then some e else none
  | _ => none

/-- The `catch` of the handler. -/
def handOverFailed (e : MessageEvent) (err : Thrown) : Viewer PrivateKey PublicKey :=
  let text := if err.message = "" then err.toString else err.message
  { (v.showFatalError ⟨"Error", text, "error"⟩).ackFailed e err.message with handOver := .ended }

variable (page : ViewerPage PrivateKey PublicKey AesKey)

/-- One event; `none` where it cannot happen. -/
def step : ViewerEvent PrivateKey PublicKey → Option (Viewer PrivateKey PublicKey)
  | .keyGenerated keyPair =>
    match v.bootstrap with
    | .generating =>
      some { v with keyPair := some keyPair, bootstrap := .exporting keyPair.2 }
    | _ => none
  | .keyFailed =>
    match v.bootstrap with
    | .generating =>
      some { v.notifyParentError ⟨"Error", "Failed to initialize viewer", "error"⟩ with
        bootstrap := .finished }
    | _ => none
  | .keyExported =>
    match v.bootstrap with
    | .exporting publicKey =>
      match page.exportSpki publicKey with
      | .ok spki =>
        let finished := { v with bootstrap := .finished }
        match v.opener, v.parentOrigin with
        | some opener, some origin =>
          some (finished.post opener origin (.viewerReady 1 (.ofList (Base64.encode spki))))
        | _, _ => some finished
      | .error _ =>
        some { v.notifyParentError ⟨"Error", "Failed to initialize viewer", "error"⟩ with
          bootstrap := .finished }
    | _ => none
  | .message e => some (v.onMessage e)
  | .tokenDecrypted =>
    match v.handOver with
    | .decrypting e privateKey =>
      match page.decryptToken privateKey e.data.encryptedToken with
      | .ok token => some { v with handOver := .waiting e token }
      | .error err => some (v.handOverFailed e err)
    | _ => none
  | .connectSet => some { v with connectReady := true }
  | .connectCalled =>
    match v.handOver with
    | .waiting e token =>
      if v.connectReady then
        some { v with
          handOver := .connecting e
          connects := v.connects ++ [⟨e.data.clientId, token, e.data.remoteSessionId⟩] }
      else none
    | _ => none
  | .connectReturned result =>
    match v.handOver with
    | .connecting e =>
      match result with
      | .ok value =>
        some { v.post e.source e.origin (.ack value none) with handOver := .ended }
      | .error err => some (v.handOverFailed e err)
    | _ => none
  | .session e box => if v.connectReady then some (v.sessionCall e box) else none
  | .notified box => some (v.notifyParentError box)

end Viewer

end RdWeb.Web
