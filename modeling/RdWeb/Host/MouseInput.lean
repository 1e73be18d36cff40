import RdWeb.Host.LegacyKeys

/-!
# Playing the peer's mouse

`handle_mouse_` of `server/input_service.rs`: the modifiers of a press are pressed around it, as
for a key, apart from the lock keys.
-/

namespace RdWeb.Host.InputService

/-- A mouse event as the host receives it. -/
structure MouseEvent where
  mask : ℤ
  x : ℤ
  y : ℤ
  modifiers : List ℤ := []

/-- The pointer moves. -/
def MOUSE_TYPE_MOVE : ℤ := 0

/-- A button goes down. -/
def MOUSE_TYPE_DOWN : ℤ := 1

/-- A button goes up. -/
def MOUSE_TYPE_UP : ℤ := 2

/-- The wheel turns. -/
def MOUSE_TYPE_WHEEL : ℤ := 3

/-- The fingers on a track pad move. -/
def MOUSE_TYPE_TRACKPAD : ℤ := 4

/-- The buttons of a mouse. -/
inductive MouseButton where
  | left
  | right
  | middle
  | back
  | forward
deriving DecidableEq

/-- What enigo is given for the mouse. -/
inductive MouseAction where
  | moveTo (x y : ℤ)
  | down (button : MouseButton)
  | up (button : MouseButton)
  | scrollX (length : ℤ) (isTrackPad : Bool)
  | scrollY (length : ℤ) (isTrackPad : Bool)
deriving DecidableEq

/-- `Input` of the peer's cursor. -/
structure PeerCursor where
  conn : ℤ
  time : ℕ
  x : ℤ
  y : ℤ

/-- The keyboard of the service, the mouse actions, newest first, and
`LATEST_PEER_INPUT_CURSOR`. -/
structure Mouse where
  keyboard : Keyboard := {}
  actions : List MouseAction := []
  latestPeerInputCursor : Option PeerCursor := none

namespace MouseEvent

/-- `mask >> 3`. -/
def buttons (e : MouseEvent) : ℤ := e.mask / 8

/-- `mask & 0x7`. -/
def evtType (e : MouseEvent) : ℤ := e.mask % 8

/-- The button that goes down or up. -/
def button (e : MouseEvent) : Option MouseButton :=
  if e.buttons = 0x01 then some .left
  else if e.buttons = 0x02 then some .right
  else if e.buttons = 0x04 then some .middle
  else if e.buttons = 0x08 then some .back
  else if e.buttons = 0x10 then some .forward
  else none

end MouseEvent

/-- The `i32` of a number. -/
def i32 (n : ℤ) : ℤ := n.bmod (2 ^ 32)

namespace Mouse

section

variable (host : Outside) (answers : Answers)

/-- The modifiers of a press that are up go down, but no lock key. -/
def pressModifiers (modifiers : List ℤ) (s : Keyboard) : Keyboard × List Key :=
  Keyboard.pressUnless answers (fun _ => isLockKey) modifiers (s, [])

/-- What is done before a press; on macOS only the flags of enigo are set besides. -/
def syncModifiers (e : MouseEvent) (s : Keyboard) : Keyboard × List Key :=
  if e.evtType = MOUSE_TYPE_DOWN then
    let s := s.fixModifiers host answers e.modifiers 0
    if host.platform = .macos then (s, []) else pressModifiers answers e.modifiers s
  else (s, [])

/-- An action of the mouse is noted. -/
def act (action : MouseAction) (m : Mouse) : Mouse := { m with actions := action :: m.actions }

/-- The wheel turns sideways, if at all. -/
def scrollX (x : ℤ) (isTrackPad : Bool) (m : Mouse) : Mouse :=
  if x ≠ 0 then m.act (.scrollX x isTrackPad) else m

/-- The wheel turns up or down, if at all. -/
def scrollY (y : ℤ) (isTrackPad : Bool) (m : Mouse) : Mouse :=
  if y ≠ 0 then m.act (.scrollY y isTrackPad) else m

/-- The wheel or the track pad, which only macOS is told of. -/
def scroll (e : MouseEvent) (m : Mouse) : Mouse :=
  let isTrackPad := decide (e.evtType = MOUSE_TYPE_TRACKPAD)
  let x := i32 (-e.x)
  match host.platform with
  | .macos =>
    let y := i32 (-e.y)
    if !isTrackPad && e.modifiers.contains ControlKey.shift.value then
      (m.scrollX y isTrackPad).scrollY 0 isTrackPad
    else (m.scrollX x isTrackPad).scrollY y isTrackPad
  | .windows =>
    -- `WHEEL_DELTA` of Windows.
    if isTrackPad then (m.scrollY e.y false).scrollX x false
    else (m.scrollY (i32 (e.y * 120)) false).scrollX (i32 (x * 120)) false
  | .linux => (m.scrollY (i32 (-e.y)) false).scrollX x false

/-- The part of `handle_mouse_` that depends on the type of the event. -/
def play (conn : ℤ) (e : MouseEvent) (m : Mouse) : Mouse :=
  if e.evtType = MOUSE_TYPE_MOVE then
    { m.act (.moveTo e.x e.y) with
      latestPeerInputCursor := some ⟨conn, answers.now, e.x, e.y⟩ }
  else if e.evtType = MOUSE_TYPE_DOWN then
    match e.button with
    | some button => m.act (.down button)
    | none => m
  else if e.evtType = MOUSE_TYPE_UP then
    match e.button with
    | some button => m.act (.up button)
    | none => m
  else if e.evtType = MOUSE_TYPE_WHEEL ∨ e.evtType = MOUSE_TYPE_TRACKPAD then m.scroll host e
  else m

/-- `handle_mouse_`. -/
def handleMouse (conn : ℤ) (e : MouseEvent) (m : Mouse) : Mouse :=
  if m.keyboard.exiting then m
  else
    let synced := syncModifiers host answers e m.keyboard
    let played := { m with keyboard := synced.1 }.play host answers conn e
    { played with keyboard := played.keyboard.releaseKeys synced.2 }

end

/-! ### The keys under a mouse event -/

variable {host : Outside} {p : KeyStates HostKey} {n : ℕ}

/-- The mouse leaves the keyboard alone. -/
theorem keyboard_play (answers : Answers) (conn : ℤ) (e : MouseEvent) (m : Mouse) :
    (m.play host answers conn e).keyboard = m.keyboard := by
  have hx (x : ℤ) (isTrackPad : Bool) (m : Mouse) :
      (m.scrollX x isTrackPad).keyboard = m.keyboard := by
    rw [scrollX]
    split <;> rfl
  have hy (y : ℤ) (isTrackPad : Bool) (m : Mouse) :
      (m.scrollY y isTrackPad).keyboard = m.keyboard := by
    rw [scrollY]
    split <;> rfl
  have hscroll : (m.scroll host e).keyboard = m.keyboard := by
    rw [scroll]
    dsimp only
    split
    · split <;> rw [hy, hx]
    · split <;> rw [hx, hy]
    · rw [hx, hy]
  rw [play]
  split_ifs
  · rfl
  · split <;> rfl
  · split <;> rfl
  · exact hscroll
  · rfl

/-- The keys when the modifiers of a press are to be pressed. -/
def matched (host : Outside) (p : KeyStates HostKey) (e : MouseEvent) : KeyStates HostKey :=
  fixed host.platform p e.modifiers 0

/-- The modifiers that are pressed for the event. -/
def injectedFor (host : Outside) (p : KeyStates HostKey) (e : MouseEvent) : List HostKey :=
  (injected host.platform isLockKey (matched host p e)
    (Keyboard.modifierKeys e.modifiers)).map .enigo

/-- **The press of a button.** -/
theorem keys_handleMouse (hplatform : host.platform ≠ .macos) {e : MouseEvent}
    (hdown : e.evtType = MOUSE_TYPE_DOWN) {m : Mouse} (hrunning : m.keyboard.exiting = false)
    (conn : ℤ) :
    let p₀ := m.keyboard.keys p
    (m.handleMouse host (honest host.platform p n) conn e).keyboard.keys p =
      ((matched host p₀ e).pressAll (injectedFor host p₀ e)).releaseAll
        (injectedFor host p₀ e) := by
  intro p₀
  have hfixed : (m.keyboard.fixModifiers host (honest host.platform p n) e.modifiers 0).keys p =
      matched host p₀ e :=
    Keyboard.keys_fixModifiers hplatform e.modifiers 0 m.keyboard
  have hsynced := Keyboard.keys_pressUnless (p := p) (n := n) hplatform
    (fun _ => isLockKey) (fun _ _ => rfl) e.modifiers
    (m.keyboard.fixModifiers host (honest host.platform p n) e.modifiers 0) []
  rw [hfixed] at hsynced
  have hkeyboard : (m.handleMouse host (honest host.platform p n) conn e).keyboard =
      (syncModifiers host (honest host.platform p n) e m.keyboard).1.releaseKeys
        (syncModifiers host (honest host.platform p n) e m.keyboard).2 := by
    rw [handleMouse, if_neg (by simp [hrunning])]
    dsimp only
    rw [keyboard_play]
  rw [hkeyboard, syncModifiers, if_pos hdown, if_neg hplatform, Keyboard.keys_releaseKeys,
    pressModifiers, hsynced.1, hsynced.2]
  rfl

end Mouse

end RdWeb.Host.InputService
