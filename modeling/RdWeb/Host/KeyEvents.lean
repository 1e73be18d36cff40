import RdWeb.Lib.Strokes
import Mathlib.Algebra.Order.Ring.Int
import Mathlib.Data.Int.Basic

/-!
# Key events of the peer

The messages `KeyEvent` of a peer, the keys of enigo and rdev that the host presses for them, and
the numbers under which `server/input_service.rs` records a pressed key.
-/

namespace RdWeb.Host.InputService

/-- The host's system; on Linux the session runs X11. -/
inductive Platform where
  | linux
  | windows
  | macos
deriving DecidableEq

/-- `ControlKey` of the messages, in the order of its numbers. -/
inductive ControlKey where
  | unknown | alt | backspace | capsLock | control | delete | downArrow | end_ | escape
  | f1 | f10 | f11 | f12 | f2 | f3 | f4 | f5 | f6 | f7 | f8 | f9
  | home | leftArrow | meta_ | option | pageDown | pageUp | return_ | rightArrow | shift
  | space | tab | upArrow
  | numpad0 | numpad1 | numpad2 | numpad3 | numpad4
  | numpad5 | numpad6 | numpad7 | numpad8 | numpad9
  | cancel | clear | menu | pause | kana | hangul | junja | final | hanja | kanji
  | convert | select | print | execute | snapshot | insert | help | sleep | separator
  | scroll | numLock | rWin | apps | multiply | add | subtract | decimal | divide | equals
  | numpadEnter | rShift | rControl | rAlt | volumeMute | volumeUp | volumeDown | power
  | ctrlAltDel | lockScreen
deriving DecidableEq

/-- The number of a control key on the wire; the last two are set apart from the others. -/
def ControlKey.value : ControlKey → ℤ
  | ctrlAltDel => 100
  | lockScreen => 101
  | ck => ck.ctorIdx

/-- `enigo::Key` as far as `KEY_MAP` and the characters name it. -/
inductive Key where
  | alt | backspace | capsLock | control | delete | downArrow | end_ | escape
  | f1 | f10 | f11 | f12 | f2 | f3 | f4 | f5 | f6 | f7 | f8 | f9
  | home | leftArrow | meta_ | option | pageDown | pageUp | return_ | rightArrow | shift
  | space | tab | upArrow
  | numpad0 | numpad1 | numpad2 | numpad3 | numpad4
  | numpad5 | numpad6 | numpad7 | numpad8 | numpad9
  | cancel | clear | pause | kana | hangul | junja | final | hanja | kanji
  | convert | select | print | execute | snapshot | insert | help | sleep | separator
  | scroll | numLock | rWin | apps | multiply | add | subtract | decimal | divide | equals
  | numpadEnter | rightShift | rightControl | rightAlt
  | layout (c : Char)
deriving DecidableEq

/-- `rdev::RawKey`. -/
inductive RawKey where
  | scanCode (code : ℕ)
  | winVirtualKeycode (code : ℕ)
  | linuxXorgKeycode (code : ℕ)
  | macVirtualKeycode (code : ℕ)
deriving DecidableEq

/-- `rdev::Key` as far as the service tells its keys apart. -/
inductive RdevKey where
  | controlLeft | controlRight | metaLeft | metaRight | shiftLeft | shiftRight
  | alt | altGr | tab | return_
  | kp0 | kp1 | kp2 | kp3 | kp4 | kp5 | kp6 | kp7 | kp8 | kp9
  | kpMinus | kpMultiply | kpDivide | kpPlus | kpDecimal
  | rawKey (raw : RawKey)
  | other (n : ℕ)
deriving DecidableEq

/-- A key as it is given to enigo or to rdev. -/
inductive HostKey where
  | enigo (key : Key)
  | rdev (key : RdevKey)
deriving DecidableEq

/-- The keys of the control keys. -/
def KEY_MAP : List (ControlKey × Key) :=
  [(.alt, .alt), (.backspace, .backspace), (.capsLock, .capsLock), (.control, .control),
   (.delete, .delete), (.downArrow, .downArrow), (.end_, .end_), (.escape, .escape),
   (.f1, .f1), (.f10, .f10), (.f11, .f11), (.f12, .f12), (.f2, .f2), (.f3, .f3), (.f4, .f4),
   (.f5, .f5), (.f6, .f6), (.f7, .f7), (.f8, .f8), (.f9, .f9), (.home, .home),
   (.leftArrow, .leftArrow), (.meta_, .meta_), (.option, .option), (.pageDown, .pageDown),
   (.pageUp, .pageUp), (.return_, .return_), (.rightArrow, .rightArrow), (.shift, .shift),
   (.space, .space), (.tab, .tab), (.upArrow, .upArrow), (.numpad0, .numpad0),
   (.numpad1, .numpad1), (.numpad2, .numpad2), (.numpad3, .numpad3), (.numpad4, .numpad4),
   (.numpad5, .numpad5), (.numpad6, .numpad6), (.numpad7, .numpad7), (.numpad8, .numpad8),
   (.numpad9, .numpad9), (.cancel, .cancel), (.clear, .clear), (.menu, .alt), (.pause, .pause),
   (.kana, .kana), (.hangul, .hangul), (.junja, .junja), (.final, .final), (.hanja, .hanja),
   (.kanji, .kanji), (.convert, .convert), (.select, .select), (.print, .print),
   (.execute, .execute), (.snapshot, .snapshot), (.insert, .insert), (.help, .help),
   (.sleep, .sleep), (.separator, .separator), (.scroll, .scroll), (.numLock, .numLock),
   (.rWin, .rWin), (.apps, .apps), (.multiply, .multiply), (.add, .add),
   (.subtract, .subtract), (.decimal, .decimal), (.divide, .divide), (.equals, .equals),
   (.numpadEnter, .numpadEnter), (.rAlt, .rightAlt), (.rControl, .rightControl),
   (.rShift, .rightShift)]

/-- The control keys that the keypad shares. -/
def NUMPAD_KEY_MAP : List ControlKey :=
  [.home, .upArrow, .pageUp, .leftArrow, .rightArrow, .end_, .downArrow, .pageDown, .insert,
   .delete]

/-- The key of a control key, which a message names by an `i32`. -/
def controlKeyValueToKey (value : ℤ) : Option Key :=
  (KEY_MAP.find? fun entry => entry.1.value = value).map Prod.snd

/-- A number that is no character stands for `'\0'`. -/
def charValueToKey (value : ℕ) : Key := .layout (Char.ofNat value)

/-- The modes in which keys are sent. -/
inductive KeyboardMode where
  | legacy
  | map
  | translate
  | auto
deriving DecidableEq

/-- What a `KeyEvent` is about; a control key may be a number the host does not know. -/
inductive KeyUnion where
  | controlKey (ck : ℤ)
  | chr (code : UInt32)
  | unicode (code : UInt32)
  | seq (sequence : List Char)
deriving DecidableEq

/-- A key event as the host receives it. -/
structure KeyEvent where
  down : Bool
  union : Option KeyUnion
  modifiers : List ℤ := []
  mode : KeyboardMode

namespace KeyEvent

/-- The protobuf accessor: zero unless the event is about a code. -/
def chr (e : KeyEvent) : UInt32 :=
  match e.union with
  | some (.chr code) => code
  | _ => 0

/-- The control key of an event is in `KEY_MAP`. -/
def mapped (e : KeyEvent) : Bool :=
  match e.union with
  | some (.controlKey ck) => (controlKeyValueToKey ck).isSome
  | _ => true

end KeyEvent

/-- The keys of `KEYS_DOWN`. -/
inductive KeysDown where
  | rdevKey (raw : RawKey)
  | enigoKey (record : ℕ)
deriving DecidableEq

/-- Where the numbers of characters start among those of the noted keys. -/
def KEY_CHAR_START : ℕ := 9999

/-- `ck.value() as u64`. -/
def controlRecord (ck : ℤ) : ℕ := (ck % 2 ^ 64).toNat

/-- `chr as u64 + KEY_CHAR_START`. -/
def chrRecord (code : UInt32) : ℕ := code.toNat + KEY_CHAR_START

/-- The noted key is a control key. -/
def recordKeyIsControlKey (recordKey : ℕ) : Bool := decide (recordKey < KEY_CHAR_START)

/-- The comparison is the one of the control keys in the source too. -/
def recordKeyIsChr (recordKey : ℕ) : Bool := decide (recordKey < KEY_CHAR_START)

/-- The key that was noted under a number. -/
def recordKeyToKey (recordKey : ℕ) : Option Key :=
  if recordKeyIsControlKey recordKey then controlKeyValueToKey ((recordKey : ℤ).bmod (2 ^ 32))
  else if recordKeyIsChr recordKey then
    some (charValueToKey ((recordKey - KEY_CHAR_START) % 2 ^ 32))
  else none

/-- The key that a recorded key is released as. -/
def releasedKey : KeysDown → Option HostKey
  | .rdevKey raw => some (.rdev (.rawKey raw))
  | .enigoKey record => (recordKeyToKey record).map .enigo

/-- The numbers of `KEY_MAP` are small and not negative. -/
theorem value_bounds : ∀ entry ∈ KEY_MAP, 0 ≤ entry.1.value ∧ entry.1.value < 100 := by
  decide

/-- A control key with a key is below one hundred. -/
theorem value_of_mapped {ck : ℤ} {key : Key} (h : controlKeyValueToKey ck = some key) :
    0 ≤ ck ∧ ck < 100 := by
  obtain ⟨entry, hfind, -⟩ := Option.map_eq_some_iff.mp h
  have hvalue : entry.1.value = ck := by simpa using List.find?_some hfind
  have hbounds := value_bounds entry (List.mem_of_find?_eq_some hfind)
  omega

/-- The number a control key is recorded under. -/
theorem controlRecord_of_mapped {ck : ℤ} {key : Key} (h : controlKeyValueToKey ck = some key) :
    controlRecord ck = ck.toNat := by
  obtain ⟨hle, hlt⟩ := value_of_mapped h
  rw [controlRecord, Int.emod_eq_of_lt hle (by omega)]

/-- So its number is below those of the characters. -/
theorem controlRecord_lt {ck : ℤ} {key : Key} (h : controlKeyValueToKey ck = some key) :
    controlRecord ck < KEY_CHAR_START := by
  obtain ⟨hle, hlt⟩ := value_of_mapped h
  rw [controlRecord_of_mapped h, KEY_CHAR_START]
  omega

/-- The record of a control key decodes to the key it was made for. -/
theorem recordKeyToKey_control {ck : ℤ} {key : Key} (h : controlKeyValueToKey ck = some key) :
    recordKeyToKey (controlRecord ck) = some key := by
  obtain ⟨hle, hlt⟩ := value_of_mapped h
  have hcast : ((controlRecord ck : ℕ) : ℤ) = ck := by
    rw [controlRecord_of_mapped h]
    omega
  have hcontrol : recordKeyIsControlKey (controlRecord ck) = true :=
    decide_eq_true (controlRecord_lt h)
  rw [recordKeyToKey, if_pos hcontrol, hcast, Int.bmod_eq_of_le (by omega) (by omega), h]

/-- The records of characters decode to nothing. -/
theorem recordKeyToKey_of_le {recordKey : ℕ} (hle : KEY_CHAR_START ≤ recordKey) :
    recordKeyToKey recordKey = none := by
  have hnot : ¬ recordKey < KEY_CHAR_START := Nat.not_lt.mpr hle
  simp [recordKeyToKey, recordKeyIsControlKey, recordKeyIsChr, hnot]

end RdWeb.Host.InputService
