import RdWeb.Host.KeyEvents
import RdWeb.Lib.Machine
import RdWeb.Lib.OrderedMap

/-!
# Playing the peer's keys

The keyboard part of `server/input_service.rs`: what `handle_key_` gives to enigo and rdev for a
`KeyEvent`, what it records in `KEYS_DOWN`, and how `fix_key_down_timeout` releases the recorded
keys. Enigo and rdev press and release the key they are given; what they report about the real
keyboard is arbitrary.
-/

namespace RdWeb.Host.InputService

/-- What the service takes from the system it runs on: the cast to rdev's `KeyCode`, the key rdev
has for a code, and the upper case of a character. -/
structure Outside where
  platform : Platform
  keyCode : UInt32 → ℕ
  keycodeToRdevKey : UInt32 → RdevKey
  toUppercase : Char → List Char

/-- What enigo answers while an event is played: the state of a key, and whether it can press it. -/
structure Answers where
  keyState : List (Stroke HostKey) → Key → Bool
  takesDown : List (Stroke HostKey) → Key → Bool
  now : ℕ

/-- An event of the peer and the answers it meets. -/
structure Received where
  event : KeyEvent
  answers : Answers

/-- `KEYS_DOWN` with the times in milliseconds, the strokes given to enigo and rdev, newest first,
the text typed, the flag of the virtual input on macOS, and `EXITING`. -/
structure Keyboard where
  keysDown : OrderedMap KeysDown ℕ := .empty
  strokes : List (Stroke HostKey) := []
  typed : List ℕ := []
  capslockDown : Bool := false
  exiting : Bool := false

/-- The iteration order of a hash map. -/
structure MapOrder where
  order : List (KeysDown × ℕ) → List (KeysDown × ℕ)
  perm : ∀ entries, (order entries).Perm entries

/-- The raw key that Caps Lock is pressed as on macOS. -/
def capsLockRaw : RawKey := .macVirtualKeycode 0x39

namespace Keyboard

/-- A stroke given to enigo or rdev. -/
def play (stroke : Stroke HostKey) (s : Keyboard) : Keyboard :=
  { s with strokes := stroke :: s.strokes }

/-- `simulate_` with a press or a release. -/
def simulate (key : RdevKey) (keydown : Bool) (s : Keyboard) : Keyboard :=
  s.play (if keydown then .down (.rdev key) else .up (.rdev key))

/-- A key of the layout goes up. -/
def keyUp (key : Key) (s : Keyboard) : Keyboard := s.play (.up (.enigo key))

/-- A key of the layout goes down and up. -/
def keyClick (key : Key) (s : Keyboard) : Keyboard :=
  (s.play (.down (.enigo key))).play (.up (.enigo key))

/-- Typed text holds no key. -/
def typeText (codes : List ℕ) (s : Keyboard) : Keyboard := { s with typed := s.typed ++ codes }

/-- A text is typed. -/
def keySequence (sequence : List Char) (s : Keyboard) : Keyboard :=
  s.typeText (sequence.map Char.toNat)

/-- A key that goes down is noted with the time, and one that goes up is forgotten. -/
def recordPressedKey (now : ℕ) (recordKey : KeysDown) (down : Bool) (s : Keyboard) : Keyboard :=
  if down then { s with keysDown := s.keysDown.set recordKey now }
  else { s with keysDown := s.keysDown.delete recordKey }

section

variable (answers : Answers)

/-- Enigo may refuse to press a key. -/
def keyDown (key : Key) (s : Keyboard) : Keyboard :=
  if answers.takesDown s.strokes key then s.play (.down (.enigo key)) else s

/-- What the system says of a key. -/
def keyState (s : Keyboard) (key : Key) : Bool := answers.keyState s.strokes key

/-- The modifier of the other side counts too. -/
def getModifierState (s : Keyboard) (key : Key) : Bool :=
  let x := keyState answers s key
  match key with
  | .shift => x || keyState answers s .rightShift
  | .control => x || keyState answers s .rightControl
  | .alt => x || keyState answers s .rightAlt
  | .meta_ => x || keyState answers s .rWin
  | .rightShift => x || keyState answers s .shift
  | .rightControl => x || keyState answers s .control
  | .rightAlt => x || keyState answers s .alt
  | .rWin => x || keyState answers s .meta_
  | _ => x

end

/-! ### Lock modes -/

/-- The event comes with this modifier. -/
def isModifierEnabled (e : KeyEvent) (modifier : ControlKey) : Bool :=
  e.modifiers.contains modifier.value

/-- The event is in the mode of the older clients. -/
def isLegacyMode (e : KeyEvent) : Bool := decide (e.mode = .legacy)

/-- A key of the keypad in that mode means the other of its two keys. -/
def shouldDisableNumlock (e : KeyEvent) : Bool :=
  match e.union, e.mode with
  | some (.controlKey ck), .legacy => NUMPAD_KEY_MAP.any fun k => k.value = ck
  | _, _ => false

/-- Which locks were changed for the event. -/
structure LockModesHandler where
  capsLockChanged : Bool
  numLockChanged : Bool

/-- `press_capslock` and `release_capslock` of macOS. -/
def setCapslock (down : Bool) (s : Keyboard) : Keyboard :=
  { s.simulate (.rawKey capsLockRaw) down with capslockDown := down }

section

variable (host : Outside) (answers : Answers)

/-- `LockModesHandler::new` on Windows and Linux. -/
def newLockModes (e : KeyEvent) (isNumpadKey : Bool) (s : Keyboard) :
    Keyboard × LockModesHandler :=
  let capsLockChanged := isModifierEnabled e .capsLock != keyState answers s .capsLock
  let s := if capsLockChanged then s.keyClick .capsLock else s
  let numLockChanged :=
    if isNumpadKey then isModifierEnabled e .numLock != keyState answers s .numLock
    else if isLegacyMode e && decide (host.platform = .windows) then
      shouldDisableNumlock e && keyState answers s .numLock
    else false
  let s := if numLockChanged then s.keyClick .numLock else s
  (s, ⟨capsLockChanged, numLockChanged⟩)

/-- `LockModesHandler::new` on macOS, where Caps Lock is on while its key is down. -/
def newLockModesMacos (e : KeyEvent) (s : Keyboard) : Keyboard :=
  let eventCapsEnabled := isModifierEnabled e .capsLock
  if eventCapsEnabled && !s.capslockDown then s.setCapslock true
  else if !eventCapsEnabled && s.capslockDown then s.setCapslock false
  else s

/-- The handler of macOS changes nothing when it is dropped. -/
def newHandler (e : KeyEvent) (isNumpadKey : Bool) (s : Keyboard) :
    Keyboard × LockModesHandler :=
  if host.platform = .macos then (newLockModesMacos e s, ⟨false, false⟩)
  else newLockModes host answers e isNumpadKey s

/-- `Drop` of the handler. -/
def dropHandler (handler : LockModesHandler) (s : Keyboard) : Keyboard :=
  let s := if handler.capsLockChanged then s.keyClick .capsLock else s
  if handler.numLockChanged then s.keyClick .numLock else s

/-- Keys for which the locks are not changed. -/
def skipLedSyncControlKey (ck : ℤ) : Bool :=
  decide (host.platform ≠ .macos) &&
    [ControlKey.control, .rControl, .meta_, .shift, .rShift, .alt, .rAlt, .tab, .return_].any
      fun k => k.value = ck

/-- Keys of the keypad, by their control keys. -/
def isNumpadControlKey (ck : ℤ) : Bool :=
  [ControlKey.numpad0, .numpad1, .numpad2, .numpad3, .numpad4, .numpad5, .numpad6, .numpad7,
    .numpad8, .numpad9, .numpadEnter].any fun k => k.value = ck

/-- Raw keys for which the locks are not changed. -/
def skipLedSyncRdevKey (key : RdevKey) : Bool :=
  decide (host.platform ≠ .macos) &&
    decide (key ∈ [.controlLeft, .controlRight, .metaLeft, .metaRight, .shiftLeft, .shiftRight,
      .alt, .altGr, .tab, .return_])

/-- Raw keys of the keypad. -/
def isNumpadRdevKey (key : RdevKey) : Bool :=
  decide (key ∈ [.kp0, .kp1, .kp2, .kp3, .kp4, .kp5, .kp6, .kp7, .kp8, .kp9, .kpMinus,
    .kpMultiply, .kpDivide, .kpPlus, .kpDecimal])

/-- The handler that `handle_key_` keeps until the event is played, where it makes one. -/
def lockModeHandler (e : KeyEvent) (s : Keyboard) : Keyboard × Option LockModesHandler :=
  let handler (isNumpadKey : Bool) :=
    (newHandler host answers e isNumpadKey s).map id some
  match e.union with
  | some (.unicode _) => handler false
  | some (.seq _) => handler false
  | some (.controlKey ck) =>
    if skipLedSyncControlKey host ck then (s, none) else handler (isNumpadControlKey ck)
  | some (.chr code) =>
    if isLegacyMode e then handler false
    else
      let key := host.keycodeToRdevKey code
      if skipLedSyncRdevKey host key then (s, none) else handler (isNumpadRdevKey key)
  | none => (s, none)

/-! ### Map mode -/

/-- The raw key of a position code. -/
def rawkeyPosition (code : ℕ) : RawKey :=
  match host.platform with
  | .windows => .scanCode code
  | .linux => .linuxXorgKeycode code
  | .macos => .macVirtualKeycode code

/-- What `sim_rdev_rawkey_position` and `sim_rdev_rawkey_virtual` do with their raw key. -/
def simRdevRawkey (rawkey : RawKey) (keydown : Bool) (s : Keyboard) : Keyboard :=
  (s.recordPressedKey answers.now (.rdevKey rawkey) keydown).simulate (.rawKey rawkey) keydown

/-- A raw key is simulated by its position. -/
def simRdevRawkeyPosition (code : ℕ) (keydown : Bool) (s : Keyboard) : Keyboard :=
  s.simRdevRawkey answers (rawkeyPosition host code) keydown

/-- A raw key is simulated by its code. -/
def simRdevRawkeyVirtual (code : ℕ) (keydown : Bool) (s : Keyboard) : Keyboard :=
  s.simRdevRawkey answers (.winVirtualKeycode code) keydown

/-- A key event in the mode of positions. -/
def mapKeyboardMode (e : KeyEvent) (s : Keyboard) : Keyboard :=
  s.simRdevRawkeyPosition host answers (host.keyCode e.chr) e.down

/-! ### Legacy mode -/

/-- The control key of an event, or minus one. -/
def getControlKeyValue (e : KeyEvent) : ℤ :=
  match e.union with
  | some (.controlKey ck) => ck
  | _ => -1

/-- A modifier that is down but not in the event goes up, except in AltGr on Windows. -/
def fixModifier (modifiers : List ℤ) (key0 : ControlKey) (key1 : Key) (s : Keyboard) :
    Keyboard :=
  if getModifierState answers s key1 && !modifiers.contains key0.value then
    if host.platform = .windows ∧ key0 = .control ∧ getModifierState answers s .alt then s
    else s.keyUp key1
  else s

/-- The lines of `fix_modifiers`: the control key that a line is not for, then what it fixes. -/
def fixedModifiers : List (ControlKey × ControlKey × Key) :=
  [(.shift, .shift, .shift), (.rShift, .shift, .rightShift), (.alt, .alt, .alt),
   (.rAlt, .alt, .rightAlt), (.control, .control, .control),
   (.rControl, .control, .rightControl), (.meta_, .meta_, .meta_), (.rWin, .meta_, .rWin)]

/-- The modifiers are fixed one after the other, except the one that is played. -/
def fixModifiers (modifiers : List ℤ) (ck : ℤ) (s : Keyboard) : Keyboard :=
  fixedModifiers.foldl (fun s line =>
    if ck ≠ line.1.value then s.fixModifier host answers modifiers line.2.1 line.2.2 else s) s

/-- The modifiers that the event lacks are released. -/
def releaseUnpressedModifiers (e : KeyEvent) (s : Keyboard) : Keyboard :=
  s.fixModifiers host answers e.modifiers (getControlKeyValue e)

/-- The code that is looked up is the number of a control key. -/
def isAltgrPressed (s : Keyboard) : Bool :=
  s.keysDown.has
    (.rdevKey (.linuxXorgKeycode (host.keyCode (UInt32.ofNat ControlKey.rAlt.value.toNat))))

/-- The modifiers of an event that are up go down; they are collected for `release_keys`. -/
def pressModifiers : List ℤ → Keyboard × List Key → Keyboard × List Key
  | [], st => st
  | ck :: modifiers, (s, toRelease) =>
    match controlKeyValueToKey ck with
    | none => pressModifiers modifiers (s, toRelease)
    | some key =>
      if getModifierState answers s key
          || decide (host.platform = .linux ∧ key = .alt ∧ isAltgrPressed host s) then
        pressModifiers modifiers (s, toRelease)
      else pressModifiers modifiers (s.keyDown answers key, toRelease ++ [key])

/-- On macOS only the flags of enigo are set besides. -/
def syncModifiers (e : KeyEvent) (s : Keyboard) : Keyboard × List Key :=
  if e.down then
    let s := s.releaseUnpressedModifiers host answers e
    if host.platform = .macos then (s, []) else pressModifiers host answers e.modifiers (s, [])
  else (s, [])

/-- Keys that were pressed for the event go up. -/
def releaseKeys (toRelease : List Key) (s : Keyboard) : Keyboard :=
  toRelease.foldl (fun s key => s.keyUp key) s

/-- A control key is played. -/
def processControlKey (ck : ℤ) (down : Bool) (s : Keyboard) : Keyboard :=
  match controlKeyValueToKey ck with
  | some key => if down then s.keyDown answers key else s.keyUp key
  | none => s

/-- A letter is typed in upper case. -/
def needToUppercase (s : Keyboard) : Bool :=
  getModifierState answers s .shift || getModifierState answers s .capsLock

/-- A character that no key is pressed for is typed. -/
def processChr (code : UInt32) (down : Bool) (s : Keyboard) : Keyboard :=
  let key := charValueToKey code.toNat
  if down then
    if answers.takesDown s.strokes key then s.keyDown answers key
    else if code.toNat.isValidChar then
      let c := Char.ofNat code.toNat
      s.keySequence (if needToUppercase answers s then host.toUppercase c else [c])
    else s
  else s.keyUp key

/-- A character is typed, if it is one. -/
def processUnicode (code : UInt32) (s : Keyboard) : Keyboard :=
  if code.toNat.isValidChar then s.keySequence [Char.ofNat code.toNat] else s

/-- Ctrl+Alt+Del and the lock screen are left to other processes. -/
def isFunctionKey (ck : ℤ) : Bool :=
  decide (ck = ControlKey.ctrlAltDel.value) || decide (ck = ControlKey.lockScreen.value)

/-- The part of `legacy_keyboard_mode` between `sync_modifiers` and `release_keys`; the source
returns at a function key. -/
def processLegacy (e : KeyEvent) (s : Keyboard) : Keyboard :=
  match e.union with
  | some (.controlKey ck) =>
    (s.recordPressedKey answers.now (.enigoKey (controlRecord ck)) e.down).processControlKey
      answers ck e.down
  | some (.chr code) =>
    (s.recordPressedKey answers.now (.enigoKey (chrRecord code)) e.down).processChr
      host answers code e.down
  | some (.unicode code) => s.processUnicode code
  | some (.seq sequence) => s.keySequence sequence
  | none => s

/-- A key event in the mode of the older clients, with its modifiers around it. -/
def legacyKeyboardMode (e : KeyEvent) (s : Keyboard) : Keyboard :=
  let synced := s.syncModifiers host answers e
  if isFunctionKey (getControlKeyValue e) then synced.1
  else
    (processLegacy host answers e synced.1).releaseKeys synced.2

/-! ### Translate mode -/

/-- A code with a high half is a virtual key. -/
def translateProcessCode (code : UInt32) (down : Bool) (s : Keyboard) : Keyboard :=
  if code >>> 16 = 0 then s.simRdevRawkeyPosition host answers (host.keyCode code) down
  else s.simRdevRawkeyVirtual answers (code >>> 16).toNat down

/-- Some modifier of a shortcut is down. -/
def isHotKeyModifiersDown (s : Keyboard) : Bool :=
  [Key.control, .rightControl, .alt, .rightAlt, .meta_, .rWin].any (keyState answers s)

/-- Shift is released before the text of a sequence. -/
def releaseShift (s : Keyboard) : Keyboard :=
  let s := if getModifierState answers s .shift then s.simulate .shiftLeft false else s
  if getModifierState answers s .rightShift then s.simulate .shiftRight false else s

/-- A text is typed in the way of the platform. -/
def translateSeq (sequence : List Char) (s : Keyboard) : Keyboard :=
  match host.platform with
  | .macos => s.keySequence sequence
  | .linux => sequence.foldl (fun s c => s.keyClick (.layout c)) (s.releaseShift answers)
  | .windows =>
    if isHotKeyModifiersDown answers s then s.keySequence sequence
    -- A unicode unit has two bytes.
    else (s.releaseShift answers).typeText (sequence.map fun c => c.toNat % 2 ^ 16)

/-- A key event in the mode that translates. -/
def translateKeyboardMode (e : KeyEvent) (s : Keyboard) : Keyboard :=
  match e.union with
  | some (.seq sequence) => s.translateSeq host answers sequence
  | some (.chr _) =>
    if host.platform = .windows then s.translateProcessCode host answers e.chr e.down
    else s.simRdevRawkeyPosition host answers (host.keyCode e.chr) e.down
  | _ => s

/-! ### Events and the release of what they recorded -/

/-- The part of `handle_key_` that depends on the mode of the event. -/
def playMode (e : KeyEvent) (s : Keyboard) : Keyboard :=
  match e.mode with
  | .map => s.mapKeyboardMode host answers e
  | .translate => s.translateKeyboardMode host answers e
  | _ => s.legacyKeyboardMode host answers e

/-- A key event, with its locks before and after it. -/
def handleKey (e : KeyEvent) (s : Keyboard) : Keyboard :=
  if s.exiting then s
  else
    let made := s.lockModeHandler host answers e
    let played := made.1.playMode host answers e
    match made.2 with
    | some handler => played.dropHandler handler
    | none => played

end

/-- A noted key goes up. -/
def releaseRecordKey (recordKey : KeysDown) (s : Keyboard) : Keyboard :=
  match recordKey with
  | .rdevKey raw => s.simulate (.rawKey raw) false
  | .enigoKey record =>
    match recordKeyToKey record with
    | some key => s.keyUp key
    | none => s

/-- Keys that are down for too long go up, or all of them. -/
def fixKeyDownTimeout (force : Bool) (now : ℕ) (cloned : MapOrder) (s : Keyboard) : Keyboard :=
  (cloned.order s.keysDown.entries).foldl (fun s entry =>
    if force || decide (360000 ≤ now - entry.2) then
      (s.recordPressedKey now entry.1 false).releaseRecordKey entry.1
    else s) s

/-- At the exit all of them go up, once. -/
def fixKeyDownTimeoutAtExit (now : ℕ) (cloned : MapOrder) (s : Keyboard) : Keyboard :=
  if s.exiting then s else { s with exiting := true }.fixKeyDownTimeout true now cloned

end Keyboard

/-- The input service of a host and the events it receives; their control keys are in `KEY_MAP`. -/
def machine (host : Outside) : Machine Keyboard Received where
  init := {}
  step s r :=
    if r.event.mapped then some (s.handleKey host r.answers r.event) else none

end RdWeb.Host.InputService
