import RdWeb.Host.CaptureDisplays
import RdWeb.Lib.Machine

/-!
# The windows of one peer and the displays they show

Module `sessions` of `flutter.rs` for one peer and one kind of connection, with the renderers
of its windows, and what `ui_session_interface.rs` sends for it. The other end is the host of
`RdWeb.Host.CaptureDisplays`, which processes the messages in the order they are sent. Event
streams and the requests for a new key frame are left out.
-/

namespace RdWeb.Client

open RdWeb.Host

variable {SessionId : Type*} [DecidableEq SessionId]

/-- `x as i32` of a `usize`. -/
def asI32 (n : ℕ) : BitVec 32 := BitVec.ofNat 32 n

/-- What a window keeps for one display. -/
structure DisplaySessionInfo where
  textureRgbaPtr : ℕ
  size : ℕ × ℕ
  gpuOutputPtr : ℕ
  deriving DecidableEq

/-- The displays a window renders. -/
structure VideoRenderer where
  mapDisplaySessions : OrderedMap ℕ DisplaySessionInfo

namespace VideoRenderer

/-- The size of a display is set, and its entry made if there is none. -/
def setSize (r : VideoRenderer) (display width height : ℕ) : VideoRenderer :=
  let info := (r.mapDisplaySessions.get? display).getD ⟨0, (0, 0), 0⟩
  ⟨r.mapDisplaySessions.set display { info with size := (width, height) }⟩

/-- Both kinds of output: a null pointer takes the display out, unless the other kind of output
has one. -/
def register (r : VideoRenderer) (display ptr : ℕ) (other : DisplaySessionInfo → ℕ)
    (withPtr : DisplaySessionInfo → DisplaySessionInfo) : VideoRenderer :=
  match r.mapDisplaySessions.get? display with
  | some info =>
    if ptr = 0 ∧ other info = 0 then ⟨r.mapDisplaySessions.delete display⟩
    else ⟨r.mapDisplaySessions.set display (withPtr info)⟩
  | none =>
    if ptr = 0 then r else ⟨r.mapDisplaySessions.set display (withPtr ⟨0, (0, 0), 0⟩)⟩

/-- A pixel buffer is registered or, with a null pointer, removed. -/
def registerPixelbufferTexture (r : VideoRenderer) (display ptr : ℕ) : VideoRenderer :=
  r.register display ptr DisplaySessionInfo.gpuOutputPtr
    fun info => { info with textureRgbaPtr := ptr }

/-- A texture of the GPU is registered or, with a null pointer, removed. -/
def registerGpuOutput (r : VideoRenderer) (display ptr : ℕ) : VideoRenderer :=
  r.register display ptr DisplaySessionInfo.textureRgbaPtr
    fun info => { info with gpuOutputPtr := ptr }

end VideoRenderer

/-- A window of a session. -/
structure SessionHandler where
  displays : List ℕ
  renderer : VideoRenderer
  /-- whether the session issued a switch; the code does not keep it -/
  switched : Bool

/-- `SessionHandler::default`. -/
def SessionHandler.new : SessionHandler := ⟨[], ⟨OrderedMap.empty⟩, false⟩

/-- An entry of `SESSIONS`, and the connection of the host it talks to. -/
structure PeerSession (SessionId : Type*) where
  handlers : OrderedMap SessionId SessionHandler
  host : DisplayConn

namespace PeerSession

/-- `Session::capture_displays`. -/
def captureDisplays (s : PeerSession SessionId) (add sub set : List (BitVec 32)) :
    PeerSession SessionId :=
  { s with host := s.host.onMessage (.captureDisplays ⟨add, sub, set⟩) }

/-- `Session::switch_display`. -/
def switchDisplay (s : PeerSession SessionId) (useTextureRender : Bool) (display : BitVec 32) :
    PeerSession SessionId :=
  let s := { s with host := s.host.onMessage (.switchDisplay display) }
  if !useTextureRender then s.captureDisplays [] [] [display] else s

/-- `remains_displays`: the displays that the renderers of the other windows know. -/
def remainsDisplays (s : PeerSession SessionId) (current : Option ℕ) (sessionId : SessionId) :
    List ℕ :=
  (current.toList ++ (s.handlers.entries.filter fun kh => kh.1 ≠ sessionId).flatMap
    fun kh => kh.2.renderer.mapDisplaySessions.keys).dedup

/-- The host is asked for the displays that are left when one window gives up a display. -/
def checkRemoveUnusedDisplays (s : PeerSession SessionId) (current : Option ℕ)
    (sessionId : SessionId) : PeerSession SessionId :=
  let remainsDisplays := s.remainsDisplays current sessionId
  if remainsDisplays ≠ [] then s.captureDisplays [] [] (remainsDisplays.map asI32) else s

/-- `session_switch_display`, for the peer that has the session. -/
def sessionSwitchDisplay (s : PeerSession SessionId) (useTextureRender isDesktop : Bool)
    (sessionId : SessionId) (value : List (BitVec 32)) : PeerSession SessionId :=
  match s.handlers.get? sessionId with
  | none => s
  | some h =>
    let h := { h with displays := value.map asUsize, switched := true }
    let s := { s with handlers := s.handlers.set sessionId h }
    match value with
    | [display] =>
      let s := s.switchDisplay useTextureRender display
      if !isDesktop then s.captureDisplays [] [] value
      else s.checkRemoveUnusedDisplays (some (asUsize display)) sessionId
    | _ => s.captureDisplays [] [] value

/-- `remove_session_by_session_id`: the entry goes away with its last window. -/
def removeSessionBySessionId (s : PeerSession SessionId) (sessionId : SessionId) :
    Option (PeerSession SessionId) :=
  match s.handlers.get? sessionId with
  | none => some s
  | some _ =>
    let s := { s with handlers := s.handlers.delete sessionId }
    if s.handlers.entries = [] then none
    else some (s.checkRemoveUnusedDisplays none sessionId)

/-- `insert_peer_session_id`. -/
def insertPeerSessionId (s : PeerSession SessionId) (sessionId : SessionId)
    (displays : List (BitVec 32)) : PeerSession SessionId :=
  let h := { SessionHandler.new with displays := displays.map asUsize }
  { s with handlers := s.handlers.set sessionId h }

/-- `get_mut` of a handler. -/
def modify (s : PeerSession SessionId) (sessionId : SessionId)
    (f : SessionHandler → SessionHandler) : PeerSession SessionId :=
  match s.handlers.get? sessionId with
  | some h => { s with handlers := s.handlers.set sessionId (f h) }
  | none => s

/-- `session_set_size`. -/
def sessionSetSize (s : PeerSession SessionId) (sessionId : SessionId)
    (display width height : ℕ) : PeerSession SessionId :=
  s.modify sessionId fun h =>
    { h with
      displays := if display ∈ h.displays then h.displays else h.displays ++ [display]
      renderer := h.renderer.setSize display width height }

end PeerSession

/-- What happens to a session and its windows. -/
inductive UiEvent (SessionId : Type*)
  /-- `insert_session`, with the host's connection in case the entry is new -/
  | insertSession (sessionId : SessionId) (login : DisplayConn)
  | insertPeerSessionId (sessionId : SessionId) (displays : List (BitVec 32))
  | sessionSwitchDisplay (useTextureRender isDesktop : Bool) (sessionId : SessionId)
    (value : List (BitVec 32))
  | removeSession (sessionId : SessionId)
  | sessionSetSize (sessionId : SessionId) (display width height : ℕ)
  | registerPixelbufferTexture (sessionId : SessionId) (display ptr : ℕ)
  | registerGpuTexture (sessionId : SessionId) (display ptr : ℕ)

namespace UiEvent

/-- What a call does to the entry of the peer. -/
def step (s : Option (PeerSession SessionId)) :
    UiEvent SessionId → Option (PeerSession SessionId)
  | .insertSession id login =>
    let session := s.getD ⟨OrderedMap.empty, login⟩
    some { session with handlers := session.handlers.set id .new }
  | .insertPeerSessionId id displays => s.map fun s => s.insertPeerSessionId id displays
  | .sessionSwitchDisplay useTextureRender isDesktop id value =>
    s.map fun s => s.sessionSwitchDisplay useTextureRender isDesktop id value
  | .removeSession id => s.bind fun s => s.removeSessionBySessionId id
  | .sessionSetSize id display width height =>
    s.map fun s => s.sessionSetSize id display width height
  | .registerPixelbufferTexture id display ptr =>
    s.map fun s => s.modify id fun h =>
      { h with renderer := h.renderer.registerPixelbufferTexture display ptr }
  | .registerGpuTexture id display ptr =>
    s.map fun s => s.modify id fun h =>
      { h with renderer := h.renderer.registerGpuOutput display ptr }

/-- The calls in any order, before the peer has an entry. -/
def machine : Machine (Option (PeerSession SessionId)) (UiEvent SessionId) :=
  ⟨none, fun s e => some (step s e)⟩

end UiEvent

end RdWeb.Client
