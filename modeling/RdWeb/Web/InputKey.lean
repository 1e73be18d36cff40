import RdWeb.Host.KeyEvents
import RdWeb.Lib.Machine
import Mathlib.Algebra.Order.Ring.Int

/-!
# Key events of the web client

`mapKey` gives the key event of a name one field of the `oneof`, and `inputKey` lends a key that
goes up the character code of the last key that went down. The encoder writes every field that is
set, and of several the host keeps the last.
-/

namespace RdWeb.Web

/-- `ControlKey`, and `ControlKey.UNRECOGNIZED`. -/
inductive WebControlKey
  | named (key : Host.InputService.ControlKey)
  | UNRECOGNIZED
  deriving DecidableEq

/-- The key a `KeyEvent` is about, the `oneof union` of the message. -/
inductive KeyField
  | controlKey (key : WebControlKey)
  | chr (code : ℕ)
  | unicode (code : ℕ)
  | seq (text : String)
  | win2winHotkey (code : ℕ)
  deriving DecidableEq

/-- A key event as the page sends it. -/
structure KeyEvent where
  down : Bool := false
  press : Bool := false
  controlKey : Option WebControlKey := none
  chr : Option ℕ := none
  unicode : Option ℕ := none
  seq : Option String := none
  win2winHotkey : Option ℕ := none
  modifiers : List Host.InputService.ControlKey := []
  deriving DecidableEq

namespace KeyEvent

/-- The fields that `encode` writes, in its order. -/
def fields (e : KeyEvent) : List KeyField :=
  (e.controlKey.map .controlKey).toList ++ (e.chr.map .chr).toList ++
    (e.unicode.map .unicode).toList ++ (e.seq.map .seq).toList ++
    (e.win2winHotkey.map .win2winHotkey).toList

/-- The key that the host decodes. -/
def union (e : KeyEvent) : Option KeyField := e.fields.getLast?

end KeyEvent

/-- The names of the keys, and what the page sends for each. -/
def KEY_MAP : List (String × String) :=
  [("VK_A", "a"), ("VK_B", "b"), ("VK_C", "c"), ("VK_D", "d"), ("VK_E", "e"), ("VK_F", "f"),
   ("VK_G", "g"), ("VK_H", "h"), ("VK_I", "i"), ("VK_J", "j"), ("VK_K", "k"), ("VK_L", "l"),
   ("VK_M", "m"), ("VK_N", "n"), ("VK_O", "o"), ("VK_P", "p"), ("VK_Q", "q"), ("VK_R", "r"),
   ("VK_S", "s"), ("VK_T", "t"), ("VK_U", "u"), ("VK_V", "v"), ("VK_W", "w"), ("VK_X", "x"),
   ("VK_Y", "y"), ("VK_Z", "z"), ("VK_0", "0"), ("VK_1", "1"), ("VK_2", "2"), ("VK_3", "3"),
   ("VK_4", "4"), ("VK_5", "5"), ("VK_6", "6"), ("VK_7", "7"), ("VK_8", "8"), ("VK_9", "9"),
   ("VK_COMMA", ","), ("VK_SLASH", "/"), ("VK_SEMICOLON", ";"), ("VK_QUOTE", "'"),
   ("VK_LBRACKET", "["), ("VK_RBRACKET", "]"), ("VK_BACKSLASH", "\\"), ("VK_MINUS", "-"),
   ("VK_PLUS", "="), ("VK_DIVIDE", "Divide"), ("VK_MULTIPLY", "Multiply"),
   ("VK_SUBTRACT", "Subtract"), ("VK_ADD", "Add"), ("VK_DECIMAL", "Decimal"), ("VK_F1", "F1"),
   ("VK_F2", "F2"), ("VK_F3", "F3"), ("VK_F4", "F4"), ("VK_F5", "F5"), ("VK_F6", "F6"),
   ("VK_F7", "F7"), ("VK_F8", "F8"), ("VK_F9", "F9"), ("VK_F10", "F10"), ("VK_F11", "F11"),
   ("VK_F12", "F12"), ("VK_ENTER", "Return"), ("VK_CANCEL", "Cancel"), ("VK_BACK", "Backspace"),
   ("VK_TAB", "Tab"), ("VK_CLEAR", "Clear"), ("VK_RETURN", "Return"), ("VK_SHIFT", "Shift"),
   ("VK_CONTROL", "Control"), ("VK_MENU", "Alt"), ("VK_PAUSE", "Pause"),
   ("VK_CAPITAL", "CapsLock"), ("VK_KANA", "Kana"), ("VK_HANGUL", "Hangul"),
   ("VK_JUNJA", "Junja"), ("VK_FINAL", "Final"), ("VK_HANJA", "Hanja"), ("VK_KANJI", "Kanji"),
   ("VK_ESCAPE", "Escape"), ("VK_CONVERT", "Convert"), ("VK_SPACE", "Space"),
   ("VK_PRIOR", "PageUp"), ("VK_NEXT", "PageDown"), ("VK_END", "End"), ("VK_HOME", "Home"),
   ("VK_LEFT", "LeftArrow"), ("VK_UP", "UpArrow"), ("VK_RIGHT", "RightArrow"),
   ("VK_DOWN", "DownArrow"), ("VK_SELECT", "Select"), ("VK_PRINT", "Print"),
   ("VK_EXECUTE", "Execute"), ("VK_SNAPSHOT", "Snapshot"), ("VK_SCROLL", "Scroll"),
   ("VK_INSERT", "Insert"), ("VK_DELETE", "Delete"), ("VK_HELP", "Help"), ("VK_SLEEP", "Sleep"),
   ("VK_SEPARATOR", "Separator"), ("VK_NUMPAD0", "Numpad0"), ("VK_NUMPAD1", "Numpad1"),
   ("VK_NUMPAD2", "Numpad2"), ("VK_NUMPAD3", "Numpad3"), ("VK_NUMPAD4", "Numpad4"),
   ("VK_NUMPAD5", "Numpad5"), ("VK_NUMPAD6", "Numpad6"), ("VK_NUMPAD7", "Numpad7"),
   ("VK_NUMPAD8", "Numpad8"), ("VK_NUMPAD9", "Numpad9"), ("Apps", "Apps"), ("Meta", "Meta"),
   ("RAlt", "RAlt"), ("RWin", "RWin"), ("RControl", "RControl"), ("RShift", "RShift"),
   ("CTRL_ALT_DEL", "CtrlAltDel"), ("LOCK_SCREEN", "LockScreen")]

/-- What every object has, with the `length` of what is a function. -/
def objectPrototype : List (String × Option ℕ) :=
  [("constructor", some 1), ("toString", some 0), ("toLocaleString", some 0),
   ("valueOf", some 0), ("hasOwnProperty", some 1), ("isPrototypeOf", some 1),
   ("propertyIsEnumerable", some 1), ("__proto__", none), ("__defineGetter__", some 2),
   ("__defineSetter__", some 2), ("__lookupGetter__", some 1), ("__lookupSetter__", some 1)]

/-- The names of the control keys. -/
def controlKeyNames : List (String × Host.InputService.ControlKey) :=
  [("Unknown", .unknown), ("Alt", .alt), ("Backspace", .backspace), ("CapsLock", .capsLock),
   ("Control", .control), ("Delete", .delete), ("DownArrow", .downArrow), ("End", .end_),
   ("Escape", .escape), ("F1", .f1), ("F10", .f10), ("F11", .f11), ("F12", .f12), ("F2", .f2),
   ("F3", .f3), ("F4", .f4), ("F5", .f5), ("F6", .f6), ("F7", .f7), ("F8", .f8), ("F9", .f9),
   ("Home", .home), ("LeftArrow", .leftArrow), ("Meta", .meta_), ("Option", .option),
   ("PageDown", .pageDown), ("PageUp", .pageUp), ("Return", .return_),
   ("RightArrow", .rightArrow), ("Shift", .shift), ("Space", .space), ("Tab", .tab),
   ("UpArrow", .upArrow), ("Numpad0", .numpad0), ("Numpad1", .numpad1), ("Numpad2", .numpad2),
   ("Numpad3", .numpad3), ("Numpad4", .numpad4), ("Numpad5", .numpad5), ("Numpad6", .numpad6),
   ("Numpad7", .numpad7), ("Numpad8", .numpad8), ("Numpad9", .numpad9), ("Cancel", .cancel),
   ("Clear", .clear), ("Menu", .menu), ("Pause", .pause), ("Kana", .kana), ("Hangul", .hangul),
   ("Junja", .junja), ("Final", .final), ("Hanja", .hanja), ("Kanji", .kanji),
   ("Convert", .convert), ("Select", .select), ("Print", .print), ("Execute", .execute),
   ("Snapshot", .snapshot), ("Insert", .insert), ("Help", .help), ("Sleep", .sleep),
   ("Separator", .separator), ("Scroll", .scroll), ("NumLock", .numLock), ("RWin", .rWin),
   ("Apps", .apps), ("Multiply", .multiply), ("Add", .add), ("Subtract", .subtract),
   ("Decimal", .decimal), ("Divide", .divide), ("Equals", .equals),
   ("NumpadEnter", .numpadEnter), ("RShift", .rShift), ("RControl", .rControl), ("RAlt", .rAlt),
   ("VolumeMute", .volumeMute), ("VolumeUp", .volumeUp), ("VolumeDown", .volumeDown),
   ("Power", .power), ("CtrlAltDel", .ctrlAltDel), ("LockScreen", .lockScreen)]

/-- The control key of a name, or the value for an unknown one. -/
def controlKeyFromJSON (object : String) : WebControlKey :=
  match controlKeyNames.lookup object with
  | some key => .named key
  | none => .UNRECOGNIZED

/-- The UTF-16 code unit of a text that has one alone. -/
def charCode? (text : String) : Option ℕ :=
  match text.toList with
  | [c] => if c.toNat < 0x10000 then some c.toNat else none
  | _ => none

/-- The key event of a text: a character code, or a control key. -/
def keyEventOf (tmp : String) (isDesktop : Bool) : KeyEvent :=
  match charCode? tmp with
  | some chr =>
    if !isDesktop ∧ ('z'.toNat < chr ∨ chr < 'a'.toNat) then { unicode := some chr }
    else { chr := some chr }
  | none => { controlKey := some (controlKeyFromJSON tmp) }

/-- `mapKey`; `none` where it throws, since a function with one parameter passes for a text of
one character. -/
def mapKey (name : String) (isDesktop : Bool) : Option KeyEvent :=
  match KEY_MAP.lookup name, objectPrototype.lookup name with
  | some tmp, _ => some (keyEventOf tmp isDesktop)
  | none, some (some 1) => none
  | none, some _ => some { controlKey := some .UNRECOGNIZED }
  | none, none => some (keyEventOf name isDesktop)

/-! ## Calls -/

/-- The arguments of `inputKey`. -/
structure KeyCall where
  name : String
  down : Bool
  press : Bool
  alt : Bool
  ctrl : Bool
  shift : Bool
  command : Bool
  deriving DecidableEq

/-- The object that the bridge is given. -/
structure KeyValue where
  name : String
  usbHid : Option ℕ
  down : String
  press : String
  alt : String
  ctrl : String
  shift : String
  command : String

/-- The name of a button without a character. -/
def physicalButtonsMap (hid : ℕ) : String :=
  match hid with
  | 102 => "Power"
  | 128 => "VolumeUp"
  | 129 => "VolumeDown"
  | _ => "unknown"

/-- The call that `dispatchRdInputKey` makes. -/
def dispatchRdInputKey (v : KeyValue) (mapFlutterKey : Bool) : KeyCall where
  name := if mapFlutterKey ∧ v.name = "flutter_key" then physicalButtonsMap (v.usbHid.getD 0)
    else v.name
  down := v.down = "true"
  press := v.press = "true"
  alt := v.alt = "true"
  ctrl := v.ctrl = "true"
  shift := v.shift = "true"
  command := v.command = "true"

/-- The modifiers that are held, in the order in which they are sent. -/
def getMod (alt ctrl shift command : Bool) : List Host.InputService.ControlKey :=
  (if alt then [.alt] else []) ++ (if ctrl then [.control] else []) ++
    (if shift then [.shift] else []) ++ (if command then [.meta_] else [])

/-- What `inputKey` uses of a connection; the events sent are kept with their calls. -/
structure KeyConnection where
  isDesktop : Bool
  hasSocket : Bool
  lastKeyDownEvent : Option ℕ
  sent : List (KeyCall × KeyEvent)

namespace KeyConnection

/-- Whether a character code is neither `undefined` nor zero. -/
def truthy (chr : Option ℕ) : Bool := chr.any (· ≠ 0)

/-- A key that goes down leaves its character code. -/
def keepDown (s : KeyConnection) (call : KeyCall) (keyEvent : KeyEvent) : KeyConnection :=
  if call.down then { s with lastKeyDownEvent := keyEvent.chr } else s

/-- A key without a character code that goes up takes the one that was left. -/
def takeDown (s : KeyConnection) (call : KeyCall) (keyEvent : KeyEvent) :
    KeyEvent × KeyConnection :=
  if !call.down ∧ !truthy keyEvent.chr then
    ({ keyEvent with chr := s.lastKeyDownEvent }, { s with lastKeyDownEvent := none })
  else (keyEvent, s)

/-- An event is sent if there is a socket. -/
def sendKeyEvent (s : KeyConnection) (call : KeyCall) (keyEvent : KeyEvent) : KeyConnection :=
  if s.hasSocket then { s with sent := s.sent ++ [(call, keyEvent)] } else s

/-- A call of the interface: the event of its key, with what was kept of the last press. -/
def inputKey (s : KeyConnection) (call : KeyCall) : KeyConnection :=
  match mapKey call.name s.isDesktop with
  | none => s
  | some keyEvent =>
    let (keyEvent, s) := (s.keepDown call keyEvent).takeDown call keyEvent
    s.sendKeyEvent call { keyEvent with
      down := call.down
      press := call.press
      modifiers := getMod call.alt call.ctrl call.shift call.command }

/-- What happens to the connection of the keys. -/
inductive Event
  | connectRelay
  | inputKey (call : KeyCall)
  | dispatch (v : KeyValue) (mapFlutterKey : Bool)

/-- The call of `inputKey` that an event makes. -/
def Event.call? : Event → Option KeyCall
  | connectRelay => none
  | inputKey call => some call
  | dispatch v mapFlutterKey => some (dispatchRdInputKey v mapFlutterKey)

/-- One step of that connection. -/
def step (s : KeyConnection) (e : Event) : Option KeyConnection :=
  match e.call? with
  | none => some { s with hasSocket := true }
  | some call => some (s.inputKey call)

/-- The connection of the keys. -/
def machine (isDesktop : Bool) : Machine KeyConnection Event where
  init := ⟨isDesktop, false, none, []⟩
  step := step

/-- The field that a name maps to. -/
def keyField (name : String) (isDesktop : Bool) : Option KeyField :=
  (mapKey name isDesktop).bind (·.fields.head?)

/-- Each event sent has the field that the name of its call maps to and no other, and what goes
up is what went down. -/
structure CarriesOwnKeys (s : KeyConnection) : Prop where
  own : ∀ p ∈ s.sent, ∃ f, keyField p.1.name s.isDesktop = some f ∧ p.2.fields = [f]
  matching : ∀ p ∈ s.sent, ∀ q ∈ s.sent, p.1.down = true → q.1.down = false →
    p.1.name = q.1.name → p.2.union = q.2.union

/-- A key whose name maps to no character code goes up only when none is pending. -/
def NonePending (s : KeyConnection) (e : Event) : Prop :=
  ∀ call ∈ e.call?, s.hasSocket = true → call.down = false →
    ∀ keyEvent ∈ mapKey call.name s.isDesktop,
      truthy keyEvent.chr = true ∨ s.lastKeyDownEvent = keyEvent.chr

/-- Whether no key is pending is decided by the calls so far. -/
instance (s : KeyConnection) (e : Event) : Decidable (s.NonePending e) :=
  inferInstanceAs (Decidable (∀ call ∈ e.call?, s.hasSocket = true → call.down = false →
    ∀ keyEvent ∈ mapKey call.name s.isDesktop,
      truthy keyEvent.chr = true ∨ s.lastKeyDownEvent = keyEvent.chr))

/-! ## One call -/

/-- An event with one field of the `oneof` and nothing else. -/
inductive Single : KeyEvent → Prop
  | unicode (n : ℕ) : Single { unicode := some n }
  | chr (n : ℕ) : Single { chr := some n }
  | controlKey (key : WebControlKey) : Single { controlKey := some key }

/-- The event of a name carries one key. -/
theorem single_keyEventOf (tmp : String) (isDesktop : Bool) :
    Single (keyEventOf tmp isDesktop) := by
  unfold keyEventOf
  split
  · split_ifs
    · exact .unicode _
    · exact .chr _
  · exact .controlKey _

/-- A name maps to one field. -/
theorem single_mapKey {name : String} {isDesktop : Bool} {e : KeyEvent}
    (h : mapKey name isDesktop = some e) : Single e := by
  unfold mapKey at h
  split at h
  · exact Option.some.inj h ▸ single_keyEventOf _ _
  · cases h
  · exact Option.some.inj h ▸ .controlKey _
  · exact Option.some.inj h ▸ single_keyEventOf _ _

/-- The field is the only one, unless a character code is lent. -/
theorem Single.lent_iff {e : KeyEvent} (h : Single e) (chr : Option ℕ) :
    (∃ f, e.fields.head? = some f ∧ ({ e with chr := chr } : KeyEvent).fields = [f]) ↔
      chr = e.chr := by
  cases h with
  | unicode n => cases chr <;> simp [KeyEvent.fields]
  | chr n => cases chr <;> simp [KeyEvent.fields, eq_comm]
  | controlKey key => cases chr <;> simp [KeyEvent.fields]

variable {s t : KeyConnection}

/-- What stays the same in a call, up to what is sent. -/
structure Beside (s t : KeyConnection) : Prop where
  isDesktop : t.isDesktop = s.isDesktop
  hasSocket : t.hasSocket = s.hasSocket
  sent : t.sent = s.sent

/-- Keeping a press touches nothing else. -/
theorem keepDown_beside (s : KeyConnection) (call : KeyCall) (e : KeyEvent) :
    s.Beside (s.keepDown call e) := by
  unfold keepDown
  split_ifs <;> exact ⟨rfl, rfl, rfl⟩

/-- The event that is sent differs by the character code at most. -/
theorem takeDown_keepDown (s : KeyConnection) (call : KeyCall) (e : KeyEvent) :
    ∃ chr t, (s.keepDown call e).takeDown call e = ({ e with chr := chr }, t) ∧ s.Beside t ∧
      (chr = e.chr ↔
        (call.down = false → truthy e.chr = true ∨ s.lastKeyDownEvent = e.chr)) := by
  have hkept := keepDown_beside s call e
  unfold takeDown
  by_cases hlend : !call.down ∧ !truthy e.chr
  · have hup : call.down = false := by simpa using hlend.1
    have hfalsy : truthy e.chr = false := by simpa using hlend.2
    have hlast : (s.keepDown call e).lastKeyDownEvent = s.lastKeyDownEvent := by
      simp [keepDown, hup]
    rw [if_pos hlend, hlast]
    refine ⟨_, _, rfl, ⟨hkept.isDesktop, hkept.hasSocket, hkept.sent⟩, ?_⟩
    simp [hup, hfalsy]
  · rw [if_neg hlend]
    refine ⟨e.chr, _, rfl, hkept, iff_of_true rfl fun hup => .inl ?_⟩
    by_contra hfalsy
    exact hlend ⟨by simp [hup], by simpa using hfalsy⟩

/-- What a call sends: nothing, or the event of its name with some character code. -/
theorem inputKey_cases (s : KeyConnection) (call : KeyCall) :
    (s.inputKey call).isDesktop = s.isDesktop ∧
      ((mapKey call.name s.isDesktop = none ∨ s.hasSocket = false) ∧
          (s.inputKey call).sent = s.sent ∨
        ∃ e chr keyEvent, mapKey call.name s.isDesktop = some e ∧ s.hasSocket = true ∧
          (s.inputKey call).sent = s.sent ++ [(call, keyEvent)] ∧
          keyEvent.fields = ({ e with chr := chr } : KeyEvent).fields ∧
          (chr = e.chr ↔ (call.down = false →
            truthy e.chr = true ∨ s.lastKeyDownEvent = e.chr))) := by
  unfold inputKey
  cases hmap : mapKey call.name s.isDesktop with
  | none => exact ⟨rfl, .inl ⟨.inl rfl, rfl⟩⟩
  | some e =>
    obtain ⟨chr, t, htake, hbeside, hchr⟩ := takeDown_keepDown s call e
    dsimp only
    rw [htake]
    dsimp only [sendKeyEvent]
    rw [hbeside.hasSocket]
    by_cases hsocket : s.hasSocket = true
    · rw [if_pos hsocket]
      refine ⟨hbeside.isDesktop, .inr ⟨e, chr, { e with
        chr := chr
        down := call.down
        press := call.press
        modifiers := getMod call.alt call.ctrl call.shift call.command },
        rfl, hsocket, ?_, rfl, hchr⟩⟩
      rw [hbeside.sent]
    · rw [if_neg hsocket]
      exact ⟨hbeside.isDesktop, .inl ⟨.inr (by simpa using hsocket), hbeside.sent⟩⟩

/-- One more event keeps the property if and only if it has the field of its name alone. -/
theorem CarriesOwnKeys.append_iff (h : s.CarriesOwnKeys) (hdesktop : t.isDesktop = s.isDesktop)
    {p : KeyCall × KeyEvent} (hsent : t.sent = s.sent ++ [p]) :
    t.CarriesOwnKeys ↔ ∃ f, keyField p.1.name s.isDesktop = some f ∧ p.2.fields = [f] := by
  constructor
  · intro ht
    rw [← hdesktop]
    exact ht.own p (by rw [hsent]; exact List.mem_append_right _ List.mem_cons_self)
  · intro hp
    have hown : ∀ q ∈ t.sent, ∃ f, keyField q.1.name s.isDesktop = some f ∧ q.2.fields = [f] := by
      intro q hq
      rw [hsent] at hq
      rcases List.mem_append.mp hq with hq | hq
      · exact h.own q hq
      · obtain rfl := List.mem_singleton.mp hq
        exact hp
    refine ⟨by rwa [hdesktop], fun q hq q' hq' _ _ hname => ?_⟩
    obtain ⟨f, hfield, hfields⟩ := hown q hq
    obtain ⟨f', hfield', hfields'⟩ := hown q' hq'
    obtain rfl : f = f' := by
      rw [← hname, hfield] at hfield'
      exact Option.some.inj hfield'
    rw [KeyEvent.union, KeyEvent.union, hfields, hfields']

/-- The events carry their own keys before a call, and after it if and only if no code is lent. -/
theorem carriesOwnKeys_inputKey_iff (h : s.CarriesOwnKeys) (call : KeyCall) :
    (s.inputKey call).CarriesOwnKeys ↔
      (s.hasSocket = true → call.down = false → ∀ e ∈ mapKey call.name s.isDesktop,
        truthy e.chr = true ∨ s.lastKeyDownEvent = e.chr) := by
  obtain ⟨hdesktop, ⟨hnothing, hsent⟩ | ⟨e, chr, keyEvent, hmap, hsocket, hsent, hfields, hchr⟩⟩ :=
    inputKey_cases s call
  · refine iff_of_true ⟨?_, ?_⟩ fun hsocket _ e he => ?_
    · rw [hsent, hdesktop]
      exact h.own
    · rw [hsent]
      exact h.matching
    · rcases hnothing with hmap | hnone
      · rw [hmap] at he
        cases he
      · rw [hnone] at hsocket
        cases hsocket
  · have hkey : keyField call.name s.isDesktop = e.fields.head? := by
      rw [keyField, hmap, Option.bind_some]
    rw [h.append_iff hdesktop hsent, hkey, hfields, (single_mapKey hmap).lent_iff, hchr, hmap]
    simp [hsocket]

/-- A step carries the own key of its call if and only if no other key is pending. -/
theorem carriesOwnKeys_step_iff {e : Event} (hstep : s.step e = some t) (h : s.CarriesOwnKeys) :
    t.CarriesOwnKeys ↔ s.NonePending e := by
  unfold KeyConnection.step at hstep
  cases hcall : e.call? with
  | none =>
    rw [hcall] at hstep
    obtain rfl := Option.some.inj hstep
    refine iff_of_true ⟨h.own, h.matching⟩ fun call hmem => ?_
    rw [hcall] at hmem
    cases hmem
  | some call =>
    rw [hcall] at hstep
    obtain rfl := Option.some.inj hstep
    rw [carriesOwnKeys_inputKey_iff h call, NonePending, hcall]
    constructor
    · rintro hnone _ ⟨⟩
      exact hnone
    · exact fun hnone => hnone call rfl

/-- At first nothing was sent. -/
theorem carriesOwnKeys_init (isDesktop : Bool) : (machine isDesktop).init.CarriesOwnKeys :=
  ⟨fun _ hmem => absurd hmem List.not_mem_nil, fun _ hmem => absurd hmem List.not_mem_nil⟩

/-- **Key events carry the key pressed** in every state of a run if and only if a key without a
character code never goes up while one is pending. -/
theorem carriesOwnKeys_iff_nonePending {isDesktop : Bool} {events : List Event}
    (hrun : (machine isDesktop).Run (machine isDesktop).init events t) :
    (∀ first u, first <+: events → (machine isDesktop).Run (machine isDesktop).init first u →
      u.CarriesOwnKeys) ↔
      (machine isDesktop).RunWhere NonePending (machine isDesktop).init events t :=
  Machine.runWhere_iff_invariant (fun _ _ _ hstep h => carriesOwnKeys_step_iff hstep h)
    (carriesOwnKeys_init isDesktop) hrun

/-- A key that goes down or up alone. -/
def plainCall (name : String) (down : Bool) : KeyCall :=
  ⟨name, down, false, false, false, false, false⟩

/-- The state after some events on a desktop. -/
def after (events : List Event) : KeyConnection :=
  events.foldl (fun s e => (s.step e).getD s) (machine true).init

/-- `a` goes down and up, then `Shift` does. -/
def oneAfterTheOther : List Event :=
  [.connectRelay, .inputKey (plainCall "a" true), .inputKey (plainCall "a" false),
    .inputKey (plainCall "Shift" true), .inputKey (plainCall "Shift" false)]

/-- Keys that are pressed and released one after the other carry their own keys. -/
theorem carriesOwnKeys_oneAfterTheOther : (after oneAfterTheOther).CarriesOwnKeys := by
  have hwhere : (machine true).RunWhere NonePending (machine true).init oneAfterTheOther
      (after oneAfterTheOther) :=
    Machine.runWhere_of_replayWhere rfl
  exact (carriesOwnKeys_iff_nonePending hwhere.run).mpr hwhere oneAfterTheOther _
    (List.prefix_refl _) hwhere.run

/-- `Shift` goes down, then `a`, and `Shift` goes up first: the host is told that `a` goes up. -/
def shiftedLetter : List Event :=
  [.connectRelay, .inputKey (plainCall "Shift" true), .inputKey (plainCall "a" true),
    .inputKey (plainCall "Shift" false)]

/-- A letter pressed with shift is released under the key of another. -/
theorem not_carriesOwnKeys_shiftedLetter :
    (machine true).Run (machine true).init shiftedLetter (after shiftedLetter) ∧
      ((after shiftedLetter).sent.map fun p => (p.1.name, p.2.down, p.2.fields)) =
        [("Shift", true, [.controlKey (.named .shift)]), ("a", true, [.chr 97]),
          ("Shift", false, [.controlKey (.named .shift), .chr 97])] ∧
      ¬ (after shiftedLetter).CarriesOwnKeys := by
  have hsent : ((after shiftedLetter).sent.map fun p => (p.1.name, p.2.down, p.2.fields)) =
      [("Shift", true, [.controlKey (.named .shift)]), ("a", true, [.chr 97]),
        ("Shift", false, [.controlKey (.named .shift), .chr 97])] := rfl
  refine ⟨Machine.run_of_replay rfl, hsent, fun h => ?_⟩
  have hmem : ("Shift", false, [.controlKey (.named .shift), .chr 97]) ∈
      ((after shiftedLetter).sent.map fun p => (p.1.name, p.2.down, p.2.fields)) := by
    rw [hsent]
    simp
  obtain ⟨p, hp, heq⟩ := List.mem_map.mp hmem
  obtain ⟨f, -, hfields⟩ := h.own p hp
  have hboth : p.2.fields = [.controlKey (.named .shift), .chr 97] :=
    congrArg (fun x => x.2.2) heq
  rw [hboth] at hfields
  cases hfields

end KeyConnection

end RdWeb.Web
