import RdWeb.Host.PressedModifiers
import RdWeb.Host.PlayedKeys

/-!
# The keys under a legacy event

What the steps of `handle_key_` do to the keys for a legacy event on Windows and X11: the clicks of
the lock keys, `fix_modifiers`, `press_modifiers` and the releases at the end.
-/

namespace RdWeb.Host.InputService

/-! ### Modifiers that go up -/

/-- `fix_modifiers` has a line for the key that the event does not turn off. -/
def unmatched (modifiers : List ℤ) (ck : ℤ) (k : Key) : Bool :=
  Keyboard.fixedModifiers.any fun line =>
    decide (line.2.2 = k) && decide (ck ≠ line.1.value) && !modifiers.contains line.2.1.value

/-- An Alt key is down and stays down. -/
def altStays (p : KeyStates HostKey) (modifiers : List ℤ) (ck : ℤ) : Bool :=
  [Key.alt, .rightAlt].any fun k => p.pressed (.enigo k) && !unmatched modifiers ck k

/-- On Windows the Control keys stay with the Alt keys, as AltGr is both. -/
def goesUp (platform : Platform) (p : KeyStates HostKey) (modifiers : List ℤ) (ck : ℤ) (k : Key) :
    Bool :=
  unmatched modifiers ck k &&
    !(decide (platform = .windows) && decide (k ∈ [.control, .rightControl]) &&
      altStays p modifiers ck)

/-- The keys as `fix_modifiers` leaves them. -/
def fixed (platform : Platform) (p : KeyStates HostKey) (modifiers : List ℤ) (ck : ℤ) :
    KeyStates HostKey where
  pressed
    | .enigo k => p.pressed (.enigo k) && !goesUp platform p modifiers ck k
    | .rdev k => p.pressed (.rdev k)
  toggled := p.toggled

/-- One line of `fix_modifiers`. -/
def fixLine (platform : Platform) (modifiers : List ℤ) (ck : ℤ) (p : KeyStates HostKey)
    (line : ControlKey × ControlKey × Key) : KeyStates HostKey :=
  if ck ≠ line.1.value ∧ (modifierDown platform p line.2.2 && !modifiers.contains line.2.1.value) ∧
      ¬ (platform = .windows ∧ line.2.1 = .control ∧ modifierDown platform p .alt) then
    p.release (.enigo line.2.2)
  else p

namespace Keyboard

variable {host : Outside} {p : KeyStates HostKey} {n : ℕ}

/-- The keys after one went up. -/
@[simp] theorem keys_keyUp (k : Key) (s : Keyboard) :
    (s.keyUp k).keys p = (s.keys p).release (.enigo k) := rfl

/-- The keys after one went down and up. -/
@[simp] theorem keys_keyClick (k : Key) (s : Keyboard) :
    (s.keyClick k).keys p = (s.keys p).click (.enigo k) := rfl

/-- The keys after one went down. -/
@[simp] theorem keys_keyDown (platform : Platform) (k : Key) (s : Keyboard) :
    (s.keyDown (honest platform p n) k).keys p = (s.keys p).press (.enigo k) := rfl

/-- The keys after one line of the modifiers was fixed. -/
theorem keys_fixLine (hplatform : host.platform ≠ .macos) (modifiers : List ℤ) (ck : ℤ)
    (line : ControlKey × ControlKey × Key) (s : Keyboard) :
    (if ck ≠ line.1.value then
      s.fixModifier host (honest host.platform p n) modifiers line.2.1 line.2.2 else s).keys p =
      fixLine host.platform modifiers ck (s.keys p) line := by
  rw [fixLine]
  by_cases hck : ck ≠ line.1.value
  · rw [if_pos hck, fixModifier, getModifierState_honest hplatform,
      getModifierState_honest hplatform]
    by_cases hup : (modifierDown host.platform (s.keys p) line.2.2 &&
        !modifiers.contains line.2.1.value) = true
    · rw [if_pos hup]
      by_cases hstays : host.platform = .windows ∧ line.2.1 = .control ∧
          modifierDown host.platform (s.keys p) .alt
      · rw [if_pos hstays, if_neg fun h => h.2.2 hstays]
      · rw [if_neg hstays, if_pos ⟨hck, hup, hstays⟩]
        rfl
    · rw [if_neg hup, if_neg fun h => hup h.2.1]
  · rw [if_neg hck, if_neg fun h => hck h.1]

end Keyboard

/-- Fixing a line toggles no lock. -/
theorem toggled_fixLine (platform : Platform) (modifiers : List ℤ) (ck : ℤ)
    (p : KeyStates HostKey) (line : ControlKey × ControlKey × Key) :
    (fixLine platform modifiers ck p line).toggled = p.toggled := by
  rw [fixLine]
  split_ifs <;> rfl

/-- The release of a key that is up changes nothing. -/
theorem pressed_fixLine (platform : Platform) (modifiers : List ℤ) (ck : ℤ)
    (p : KeyStates HostKey) {line : ControlKey × ControlKey × Key}
    (hsibling : (sibling line.2.2).isSome) (k : HostKey) :
    (fixLine platform modifiers ck p line).pressed k =
      (p.pressed k && !(decide (.enigo line.2.2 = k) && decide (ck ≠ line.1.value) &&
        !modifiers.contains line.2.1.value &&
        !(decide (platform = .windows) && decide (line.2.1 = .control) &&
          modifierDown platform p .alt))) := by
  obtain ⟨other, hother⟩ := Option.isSome_iff_exists.mp hsibling
  rw [fixLine]
  by_cases hpressed : p.pressed (.enigo line.2.2) = true
  · have hdown : modifierDown platform p line.2.2 = true :=
      modifierDown_of_pressed hother hpressed
    by_cases heq : .enigo line.2.2 = k
    · subst heq
      split_ifs with h
      · simp_all [KeyStates.release]
      · rw [hdown, Bool.true_and] at h
        grind
    · split_ifs <;> simp [KeyStates.release, heq, Ne.symm heq]
  · by_cases heq : .enigo line.2.2 = k
    · subst heq
      split_ifs <;> simp [KeyStates.release, hpressed]
    · split_ifs <;> simp [KeyStates.release, heq, Ne.symm heq]

/-- **What `fix_modifiers` releases**: by the first four lines it is settled whether an Alt key
stays down. -/
theorem foldl_fixLine (platform : Platform) (modifiers : List ℤ) (ck : ℤ)
    (p : KeyStates HostKey) :
    Keyboard.fixedModifiers.foldl (fixLine platform modifiers ck) p =
      fixed platform p modifiers ck := by
  refine KeyStates.ext (funext fun k => ?_) ?_
  · simp only [Keyboard.fixedModifiers, List.foldl_cons, List.foldl_nil]
    simp (disch := decide) only [pressed_fixLine, modifierDown, sibling]
    cases k with
    | rdev k => simp [fixed]
    | enigo k =>
      simp only [fixed, goesUp, unmatched, altStays, Keyboard.fixedModifiers, List.any_cons,
        List.any_nil]
      by_cases hkey : k ∈ Keyboard.fixedModifiers.map fun line => line.2.2
      · simp only [Keyboard.fixedModifiers, List.map_cons, List.map_nil, List.mem_cons,
          List.not_mem_nil, or_false] at hkey
        rcases hkey with rfl | rfl | rfl | rfl | rfl | rfl | rfl | rfl <;> simp
      · simp only [Keyboard.fixedModifiers, List.map_cons, List.map_nil, List.mem_cons,
          List.not_mem_nil, or_false, not_or] at hkey
        simp [hkey, eq_comm]
  · simp only [Keyboard.fixedModifiers, List.foldl_cons, List.foldl_nil, toggled_fixLine, fixed]

namespace Keyboard

variable {host : Outside} {p : KeyStates HostKey} {n : ℕ}

/-- The keys after all lines were fixed. -/
theorem keys_fixModifiers (hplatform : host.platform ≠ .macos) (modifiers : List ℤ) (ck : ℤ)
    (s : Keyboard) :
    (s.fixModifiers host (honest host.platform p n) modifiers ck).keys p =
      fixed host.platform (s.keys p) modifiers ck := by
  have hfold (lines : List (ControlKey × ControlKey × Key)) (s : Keyboard) :
      (lines.foldl (fun s line => if ck ≠ line.1.value then
        s.fixModifier host (honest host.platform p n) modifiers line.2.1 line.2.2
        else s) s).keys p =
      lines.foldl (fixLine host.platform modifiers ck) (s.keys p) := by
    induction lines generalizing s with
    | nil => rfl
    | cons line lines ih =>
      rw [List.foldl_cons, ih, keys_fixLine hplatform, List.foldl_cons]
  rw [fixModifiers, hfold, foldl_fixLine]

/-- `fix_modifiers` only releases keys, those of its lines. -/
theorem strokes_fixModifiers (host : Outside) (answers : Answers) (modifiers : List ℤ) (ck : ℤ)
    (s : Keyboard) :
    ∃ released : List HostKey,
      (s.fixModifiers host answers modifiers ck).strokes = released.map .up ++ s.strokes ∧
        ∀ k ∈ released, k ∈ fixedModifiers.map fun line => HostKey.enigo line.2.2 := by
  rw [fixModifiers]
  induction fixedModifiers generalizing s with
  | nil => exact ⟨[], rfl, by simp⟩
  | cons line lines ih =>
    have hline : ∃ released : List HostKey,
        (if ck ≠ line.1.value then s.fixModifier host answers modifiers line.2.1 line.2.2
          else s).strokes = released.map .up ++ s.strokes ∧
          ∀ k ∈ released, k = .enigo line.2.2 := by
      rw [fixModifier]
      split_ifs
      · exact ⟨[], rfl, by simp⟩
      · exact ⟨[.enigo line.2.2], rfl, by simp⟩
      · exact ⟨[], rfl, by simp⟩
      · exact ⟨[], rfl, by simp⟩
    obtain ⟨first, hfirst, hmemFirst⟩ := hline
    obtain ⟨rest, hrest, hmemRest⟩ := ih (if ck ≠ line.1.value then
      s.fixModifier host answers modifiers line.2.1 line.2.2 else s)
    refine ⟨rest ++ first, by rw [List.foldl_cons, hrest, hfirst]; simp, fun k hk => ?_⟩
    rw [List.map_cons, List.mem_cons]
    rcases List.mem_append.mp hk with hk | hk
    · exact Or.inr (hmemRest k hk)
    · exact Or.inl (hmemFirst k hk)

/-! ### Modifiers that go down -/

/-- The loop that presses modifiers and collects them, for a key and for the mouse: those that are
down are passed over, and those to skip. -/
def pressUnless (answers : Answers) (skip : Keyboard → Key → Bool) :
    List ℤ → Keyboard × List Key → Keyboard × List Key
  | [], st => st
  | ck :: modifiers, (s, toRelease) =>
    match controlKeyValueToKey ck with
    | none => pressUnless answers skip modifiers (s, toRelease)
    | some key =>
      if getModifierState answers s key || skip s key then
        pressUnless answers skip modifiers (s, toRelease)
      else pressUnless answers skip modifiers (s.keyDown answers key, toRelease ++ [key])

/-- The keys of a list of modifiers. -/
def modifierKeys (modifiers : List ℤ) : List Key := modifiers.filterMap controlKeyValueToKey

/-- The keys after the modifiers were pressed, except the skipped ones. -/
theorem keys_pressUnless (hplatform : host.platform ≠ .macos) (skip : Keyboard → Key → Bool)
    (hskip : ∀ s key, skip (s.keyDown (honest host.platform p n) key) = skip s)
    (modifiers : List ℤ) (s : Keyboard) (toRelease : List Key) :
    let made := pressUnless (honest host.platform p n) skip modifiers (s, toRelease)
    let keys := injected host.platform (skip s) (s.keys p) (modifierKeys modifiers)
    made.1.keys p = (s.keys p).pressAll (keys.map .enigo) ∧ made.2 = toRelease ++ keys := by
  induction modifiers generalizing s toRelease with
  | nil => simp [pressUnless, modifierKeys, injected, KeyStates.pressAll]
  | cons ck modifiers ih =>
    rw [pressUnless]
    cases hkey : controlKeyValueToKey ck with
    | none =>
      rw [show modifierKeys (ck :: modifiers) = modifierKeys modifiers from
        List.filterMap_cons_none hkey]
      exact ih s toRelease
    | some key =>
      rw [show modifierKeys (ck :: modifiers) = key :: modifierKeys modifiers from
        List.filterMap_cons_some hkey]
      dsimp only
      rw [getModifierState_honest hplatform, injected]
      by_cases hnot : (modifierDown host.platform (s.keys p) key || skip s key) = true
      · rw [if_pos hnot, if_pos hnot]
        exact ih s toRelease
      · rw [if_neg hnot, if_neg hnot]
        obtain ⟨hkeys, hrelease⟩ := ih (s.keyDown (honest host.platform p n) key)
          (toRelease ++ [key])
        rw [hkeys, hrelease, hskip, List.append_assoc]
        exact ⟨rfl, rfl⟩

/-- The Alt key that stands for AltGr on X11 is not pressed. -/
def skipsAlt (host : Outside) (s : Keyboard) (k : Key) : Bool :=
  decide (host.platform = .linux ∧ k = .alt ∧ isAltgrPressed host s)

/-- Which modifiers are skipped depends on the noted keys only. -/
theorem skipsAlt_congr {s s' : Keyboard} (h : s'.keysDown = s.keysDown) :
    skipsAlt host s' = skipsAlt host s := by
  funext k
  rw [skipsAlt, skipsAlt, isAltgrPressed, isAltgrPressed, h]

/-- Pressing the modifiers is pressing them with that exception. -/
theorem pressModifiers_eq (host : Outside) (answers : Answers) (modifiers : List ℤ)
    (st : Keyboard × List Key) :
    pressModifiers host answers modifiers st =
      pressUnless answers (skipsAlt host) modifiers st := by
  induction modifiers generalizing st with
  | nil => rfl
  | cons ck modifiers ih =>
    obtain ⟨s, toRelease⟩ := st
    rw [pressModifiers, pressUnless]
    cases controlKeyValueToKey ck with
    | none => exact ih (s, toRelease)
    | some key => exact if_congr Iff.rfl (ih _) (ih _)

/-- The keys after the modifiers were pressed. -/
theorem keys_pressModifiers (hplatform : host.platform ≠ .macos) (modifiers : List ℤ)
    (s : Keyboard) :
    let made := pressModifiers host (honest host.platform p n) modifiers (s, [])
    let keys := injected host.platform (skipsAlt host s) (s.keys p) (modifierKeys modifiers)
    made.1.keys p = (s.keys p).pressAll (keys.map .enigo) ∧ made.2 = keys := by
  rw [pressModifiers_eq]
  exact keys_pressUnless hplatform (skipsAlt host) (fun s key => skipsAlt_congr rfl) modifiers
    s []

/-- The keys after some were released. -/
theorem keys_releaseKeys (toRelease : List Key) (s : Keyboard) :
    (s.releaseKeys toRelease).keys p = (s.keys p).releaseAll (toRelease.map .enigo) := by
  induction toRelease generalizing s with
  | nil => rfl
  | cons key toRelease ih => exact ih (s.keyUp key)

/-! ### The lock keys -/

/-- `handle_key_` makes a handler for the legacy event. -/
def hasHandler (host : Outside) (e : KeyEvent) : Bool :=
  match e.union with
  | some (.controlKey ck) => !skipLedSyncControlKey host ck
  | some _ => true
  | none => false

/-- The key of the event is one of the keypad. -/
def isNumpad (e : KeyEvent) : Bool :=
  match e.union with
  | some (.controlKey ck) => isNumpadControlKey ck
  | _ => false

/-- Caps Lock is clicked where the event wants it otherwise. -/
def clicksCapsLock (host : Outside) (p : KeyStates HostKey) (e : KeyEvent) : Bool :=
  hasHandler host e && (isModifierEnabled e .capsLock != p.toggled (.enigo .capsLock))

/-- Num Lock is clicked for a key of the number pad, or turned off on Windows. -/
def clicksNumLock (host : Outside) (p : KeyStates HostKey) (e : KeyEvent) : Bool :=
  hasHandler host e &&
    if isNumpad e then isModifierEnabled e .numLock != p.toggled (.enigo .numLock)
    else decide (host.platform = .windows) && (shouldDisableNumlock e &&
      p.toggled (.enigo .numLock))

/-- The clicks that a handler makes. -/
def lockClicks (capsLock numLock : Bool) (p : KeyStates HostKey) : KeyStates HostKey :=
  (p.clickIf capsLock (.enigo .capsLock)).clickIf numLock (.enigo .numLock)

/-- The handler of an event, where there is one, is dropped. -/
def dropMade (handler : Option LockModesHandler) (s : Keyboard) : Keyboard :=
  match handler with
  | some handler => s.dropHandler handler
  | none => s

/-- A key event: the locks, the event and the locks again. -/
theorem handleKey_eq {host : Outside} {answers : Answers} {e : KeyEvent} {s : Keyboard}
    (hrunning : s.exiting = false) :
    s.handleKey host answers e = ((s.lockModeHandler host answers e).1.playMode host answers
      e).dropMade (s.lockModeHandler host answers e).2 := by
  rw [handleKey, hrunning, if_neg Bool.false_ne_true]
  rfl

/-- The keys after the locks were set back. -/
theorem keys_dropHandler (handler : LockModesHandler) (s : Keyboard) :
    (s.dropHandler handler).keys p =
      lockClicks handler.capsLockChanged handler.numLockChanged (s.keys p) := by
  rw [dropHandler, lockClicks]
  cases handler.capsLockChanged <;> cases handler.numLockChanged <;> rfl

/-- The keys after a click that depends. -/
theorem keys_clickIf (c : Bool) (k : Key) (s : Keyboard) :
    (if c then s.keyClick k else s).keys p = (s.keys p).clickIf c (.enigo k) := by
  cases c <;> rfl

/-- The click of Caps Lock does not change what Num Lock is read as. -/
theorem keys_newLockModes (hplatform : host.platform ≠ .macos) {e : KeyEvent}
    (hmode : e.mode = .legacy) (isNumpadKey : Bool) (s : Keyboard) :
    let made := s.newLockModes host (honest host.platform p n) e isNumpadKey
    made.2.capsLockChanged =
        (isModifierEnabled e .capsLock != (s.keys p).toggled (.enigo .capsLock)) ∧
      made.2.numLockChanged = (if isNumpadKey then
        isModifierEnabled e .numLock != (s.keys p).toggled (.enigo .numLock)
        else decide (host.platform = .windows) && (shouldDisableNumlock e &&
          (s.keys p).toggled (.enigo .numLock))) ∧
      made.1.keys p = lockClicks made.2.capsLockChanged made.2.numLockChanged (s.keys p) := by
  intro made
  have hnum (c : Bool) : ((s.keys p).clickIf c (.enigo .capsLock)).toggled (.enigo .numLock) =
      (s.keys p).toggled (.enigo .numLock) := by
    simp [KeyStates.toggled_clickIf]
  have hmade : made = s.newLockModes host (honest host.platform p n) e isNumpadKey := rfl
  rw [newLockModes] at hmade
  simp only [keyState_of_isLockKey hplatform (k := .capsLock) rfl,
    keyState_of_isLockKey hplatform (k := .numLock) rfl, keys_clickIf] at hmade
  rw [hmade]
  refine ⟨rfl, ?_, ?_⟩
  · rw [hnum]
    simp [isLegacyMode, hmode]
  · rw [keys_clickIf, keys_clickIf]
    rfl

/-- No change, no click. -/
@[simp] theorem lockClicks_false (p : KeyStates HostKey) : lockClicks false false p = p := rfl

/-- What is made for an event clicks the lock keys, and again when it is dropped. -/
def SyncsLocks (host : Outside) (p : KeyStates HostKey) (e : KeyEvent) (s : Keyboard)
    (made : Keyboard × Option LockModesHandler) : Prop :=
  let clicks := lockClicks (clicksCapsLock host (s.keys p) e) (clicksNumLock host (s.keys p) e)
  made.1.keys p = clicks (s.keys p) ∧
    ∀ t : Keyboard, (t.dropMade made.2).keys p = clicks (t.keys p)

/-- A handler sets the locks as the event has them. -/
theorem syncsLocks_newHandler (hplatform : host.platform ≠ .macos) {e : KeyEvent}
    (hmode : e.mode = .legacy) (hhas : hasHandler host e = true) (s : Keyboard) :
    SyncsLocks host p e s
      ((s.newHandler host (honest host.platform p n) e (isNumpad e)).map id some) := by
  rw [newHandler, if_neg hplatform]
  obtain ⟨hcaps, hnum, hkeys⟩ :=
    keys_newLockModes (p := p) (n := n) hplatform hmode (isNumpad e) s
  rw [SyncsLocks, clicksCapsLock, clicksNumLock, hhas, Bool.true_and, Bool.true_and, ← hcaps,
    ← hnum]
  exact ⟨hkeys, fun t => keys_dropHandler _ t⟩

/-- Without one the locks are left alone. -/
theorem syncsLocks_none {e : KeyEvent} (hhas : hasHandler host e = false) (s : Keyboard) :
    SyncsLocks host p e s (s, none) := by
  rw [SyncsLocks, clicksCapsLock, clicksNumLock, hhas, Bool.false_and, Bool.false_and]
  exact ⟨rfl, fun t => rfl⟩

/-- **The handler of a legacy event**. -/
theorem syncsLocks_lockModeHandler (hplatform : host.platform ≠ .macos) {e : KeyEvent}
    (hmode : e.mode = .legacy) (s : Keyboard) :
    SyncsLocks host p e s (s.lockModeHandler host (honest host.platform p n) e) := by
  have hhandler (hhas : hasHandler host e = true) :=
    syncsLocks_newHandler (p := p) (n := n) hplatform hmode hhas s
  have hnone (hhas : hasHandler host e = false) := syncsLocks_none (p := p) hhas s
  rw [lockModeHandler]
  cases hunion : e.union with
  | none => exact hnone (by rw [hasHandler, hunion])
  | some union =>
    cases union with
    | controlKey ck =>
      have hhas : hasHandler host e = !skipLedSyncControlKey host ck := by rw [hasHandler, hunion]
      have hnumpad : isNumpad e = isNumpadControlKey ck := by rw [isNumpad, hunion]
      dsimp only
      cases hskip : skipLedSyncControlKey host ck with
      | true => exact hnone (by rw [hhas, hskip]; rfl)
      | false =>
        rw [← hnumpad]
        exact hhandler (by rw [hhas, hskip]; rfl)
    | chr code =>
      have hnumpad : isNumpad e = false := by rw [isNumpad, hunion]
      have hlegacy : isLegacyMode e = true := by simp [isLegacyMode, hmode]
      dsimp only
      rw [if_pos hlegacy, ← hnumpad]
      exact hhandler (by rw [hasHandler, hunion])
    | unicode code =>
      have hnumpad : isNumpad e = false := by rw [isNumpad, hunion]
      dsimp only
      rw [← hnumpad]
      exact hhandler (by rw [hasHandler, hunion])
    | seq sequence =>
      have hnumpad : isNumpad e = false := by rw [isNumpad, hunion]
      dsimp only
      rw [← hnumpad]
      exact hhandler (by rw [hasHandler, hunion])

/-! ### The event's own key -/

end Keyboard

/-- The key that a legacy event presses or releases. -/
def KeyEvent.ownKey (e : KeyEvent) : Option Key :=
  match e.union with
  | some (.controlKey ck) => controlKeyValueToKey ck
  | some (.chr code) => some (charValueToKey code.toNat)
  | _ => none

/-- The keys after the event's own key, where it has one. -/
def playOwn (own : Option Key) (down : Bool) (p : KeyStates HostKey) : KeyStates HostKey :=
  match own with
  | some k => if down then p.press (.enigo k) else p.release (.enigo k)
  | none => p

namespace Keyboard

/-- Noting a key touches no key. -/
theorem keys_recordPressedKey (now : ℕ) (recordKey : KeysDown) (down : Bool) (s : Keyboard) :
    (s.recordPressedKey now recordKey down).keys p = s.keys p := by
  cases down <;> rfl

/-- The keys after the own key of an event was played. -/
theorem keys_processLegacy (e : KeyEvent) (s : Keyboard) :
    (s.processLegacy host (honest host.platform p n) e).keys p =
      playOwn e.ownKey e.down (s.keys p) := by
  rw [processLegacy, KeyEvent.ownKey]
  unfold playOwn
  cases e.union with
  | none => rfl
  | some union =>
    cases union with
    | controlKey ck =>
      dsimp only
      rw [processControlKey]
      cases controlKeyValueToKey ck with
      | none => exact keys_recordPressedKey _ _ _ s
      | some key =>
        dsimp only
        split
        · rw [keys_keyDown, keys_recordPressedKey]
        · rw [keys_keyUp, keys_recordPressedKey]
    | chr code =>
      dsimp only
      rw [processChr]
      split
      · rw [if_pos (show (honest host.platform p n).takesDown _ _ = true from rfl),
          keys_keyDown, keys_recordPressedKey]
      · rw [keys_keyUp, keys_recordPressedKey]
    | unicode code =>
      dsimp only
      rw [processUnicode]
      split <;> rfl
    | seq sequence => rfl

/-- Ctrl+Alt+Del and the lock screen press no key of their own. -/
theorem ownKey_of_isFunctionKey {e : KeyEvent}
    (hfunction : isFunctionKey (getControlKeyValue e) = true) : e.ownKey = none := by
  cases hmapped : e.mapped with
  | true => simp [not_isFunctionKey hmapped] at hfunction
  | false =>
    rw [KeyEvent.mapped] at hmapped
    rw [KeyEvent.ownKey]
    cases hunion : e.union with
    | none => rfl
    | some union =>
      cases union with
      | controlKey ck => simpa [hunion] using hmapped
      | chr code => simp [hunion] at hmapped
      | unicode code => rfl
      | seq sequence => rfl

/-! ### A legacy event -/

/-- The keys when the handler is made. -/
def locked (host : Outside) (p : KeyStates HostKey) (e : KeyEvent) : KeyStates HostKey :=
  lockClicks (clicksCapsLock host p e) (clicksNumLock host p e) p

/-- The keys when the modifiers of a press are to be pressed. -/
def matched (host : Outside) (p : KeyStates HostKey) (e : KeyEvent) : KeyStates HostKey :=
  fixed host.platform (locked host p e) e.modifiers (getControlKeyValue e)

/-- The modifiers that are pressed for the event. -/
def injectedFor (host : Outside) (p : KeyStates HostKey) (s : Keyboard) (e : KeyEvent) :
    List HostKey :=
  (injected host.platform (skipsAlt host s) (matched host p e) (modifierKeys e.modifiers)).map
    .enigo

/-- The keys when the handler is dropped. -/
def played (host : Outside) (p : KeyStates HostKey) (s : Keyboard) (e : KeyEvent) :
    KeyStates HostKey :=
  if e.down then
    let pressed := (matched host p e).pressAll (injectedFor host p s e)
    if isFunctionKey (getControlKeyValue e) then pressed
    else (playOwn e.ownKey true pressed).releaseAll (injectedFor host p s e)
  else playOwn e.ownKey false (locked host p e)

/-- **A legacy event**, up to the drop of the handler. -/
theorem keys_legacyKeyboardMode (hplatform : host.platform ≠ .macos) {e : KeyEvent}
    {s s' : Keyboard} (hkeysDown : s'.keysDown = s.keysDown)
    (hkeys : s'.keys p = locked host (s.keys p) e) :
    (s'.legacyKeyboardMode host (honest host.platform p n) e).keys p =
      played host (s.keys p) s e := by
  rw [legacyKeyboardMode, syncModifiers, played]
  cases hdown : e.down with
  | false =>
    dsimp only
    simp only [Bool.false_eq_true, if_false]
    split
    · next hfunction =>
      rw [hkeys, ownKey_of_isFunctionKey hfunction]
      rfl
    · rw [keys_releaseKeys, keys_processLegacy, hkeys, hdown]
      rfl
  | true =>
    have hfixed : (s'.releaseUnpressedModifiers host (honest host.platform p n) e).keys p =
        matched host (s.keys p) e := by
      rw [releaseUnpressedModifiers, keys_fixModifiers hplatform, hkeys, matched]
    have hskips : skipsAlt host
        (s'.releaseUnpressedModifiers host (honest host.platform p n) e) = skipsAlt host s :=
      have hplays : Plays ∅ s' (s'.releaseUnpressedModifiers host (honest host.platform p n) e) :=
        plays_releaseUnpressedModifiers host (honest host.platform p n) e s'
      skipsAlt_congr (hplays.keysDown.trans hkeysDown)
    obtain ⟨hpressed, hrelease⟩ := keys_pressModifiers (p := p) (n := n) hplatform e.modifiers
      (s'.releaseUnpressedModifiers host (honest host.platform p n) e)
    rw [hfixed, hskips] at hpressed hrelease
    simp only [if_true, if_neg hplatform]
    split
    · exact hpressed
    · rw [keys_releaseKeys, keys_processLegacy, hpressed, hrelease, hdown]
      rfl

/-- The keys after a legacy event. -/
theorem keys_handleKey (hplatform : host.platform ≠ .macos) {e : KeyEvent}
    (hmode : e.mode = .legacy) {s : Keyboard} (hrunning : s.exiting = false) :
    (s.handleKey host (honest host.platform p n) e).keys p =
      lockClicks (clicksCapsLock host (s.keys p) e) (clicksNumLock host (s.keys p) e)
        (played host (s.keys p) s e) := by
  obtain ⟨hmade, hdrop⟩ :=
    syncsLocks_lockModeHandler (p := p) (n := n) hplatform hmode s
  have hkeysDown := (plays_lockModeHandler host (honest host.platform p n) e s).keysDown
  rw [handleKey_eq hrunning, hdrop, playMode, hmode]
  dsimp only
  rw [keys_legacyKeyboardMode hplatform hkeysDown hmade]

end Keyboard

end RdWeb.Host.InputService
