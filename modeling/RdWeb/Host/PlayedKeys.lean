import RdWeb.Host.InputService

/-!
# What playing an event does to the keyboard

Most of what the service does around an event only releases keys, clicks them or types text. The
event itself makes one record and presses one key, or takes the record away and releases the key.
-/

namespace RdWeb.Host.InputService

/-- Caps Lock as the lock handler presses it on macOS. -/
def capsLockKey : HostKey := .rdev (.rawKey capsLockRaw)

/-- The keys the lock handler presses for good. -/
def lockKeys (host : Outside) : Set HostKey := {k | host.platform = .macos ∧ k = capsLockKey}

/-- What a pressed raw key is recorded under, and the key that is pressed. -/
def rawRecord (raw : RawKey) : KeysDown × HostKey := (.rdevKey raw, .rdev (.rawKey raw))

/-- What a press of the event is recorded under, and the key that is pressed. -/
def KeyEvent.recorded (host : Outside) (e : KeyEvent) : Option (KeysDown × HostKey) :=
  match e.mode with
  | .map => some (rawRecord (Keyboard.rawkeyPosition host (host.keyCode e.chr)))
  | .translate =>
    match e.union with
    | some (.chr code) =>
      if host.platform = .windows ∧ code >>> 16 ≠ 0 then
        some (rawRecord (.winVirtualKeycode (code >>> 16).toNat))
      else some (rawRecord (Keyboard.rawkeyPosition host (host.keyCode code)))
    | _ => none
  | _ =>
    match e.union with
    | some (.controlKey ck) =>
      (controlKeyValueToKey ck).map fun key => (.enigoKey (controlRecord ck), .enigo key)
    | some (.chr code) => some (.enigoKey (chrRecord code), .enigo (charValueToKey code.toNat))
    | _ => none

/-- Besides releases, clicks and text only these keys are pressed; `KEYS_DOWN` stays as it is. -/
structure Plays (keys : Set HostKey) (s s' : Keyboard) : Prop where
  keysDown : s'.keysDown = s.keysDown
  exiting : s'.exiting = s.exiting
  adds : Stroke.Adds keys s.strokes s'.strokes

namespace Plays

variable {keys : Set HostKey} {s s' s'' : Keyboard}

/-- Doing nothing plays nothing. -/
theorem refl (keys : Set HostKey) (s : Keyboard) : Plays keys s s := ⟨rfl, rfl, .refl _ _⟩

/-- Two steps play what each of them does. -/
theorem trans (h : Plays keys s s') (h' : Plays keys s' s'') : Plays keys s s'' :=
  ⟨h'.keysDown.trans h.keysDown, h'.exiting.trans h.exiting, h.adds.trans h'.adds⟩

/-- A conditional plays what its branches do. -/
theorem ite {c : Prop} [Decidable c] (h : Plays keys s s') (h' : Plays keys s s'') :
    Plays keys s (if c then s' else s'') := by
  split
  · exact h
  · exact h'

/-- A loop plays what its rounds do. -/
theorem foldl {α : Type} {f : Keyboard → α → Keyboard} (h : ∀ s a, Plays keys s (f s a))
    (l : List α) (s : Keyboard) : Plays keys s (l.foldl f s) := by
  induction l generalizing s with
  | nil => exact refl keys s
  | cons a l ih => exact (h s a).trans (ih (f s a))

/-- A release plays no key. -/
theorem keyUp (key : Key) (s : Keyboard) : Plays keys s (s.keyUp key) := ⟨rfl, rfl, .up _ _ _⟩

/-- A click plays no key for good. -/
theorem keyClick (key : Key) (s : Keyboard) : Plays keys s (s.keyClick key) :=
  ⟨rfl, rfl, .click _ _ _⟩

/-- Releasing a raw key plays no key. -/
theorem simulateUp (key : RdevKey) (s : Keyboard) : Plays keys s (s.simulate key false) :=
  ⟨rfl, rfl, .up _ _ _⟩

/-- Typing a text plays no key for good. -/
theorem keySequence (sequence : List Char) (s : Keyboard) : Plays keys s (s.keySequence sequence) :=
  ⟨rfl, rfl, .refl _ _⟩

/-- Typing characters plays no key for good. -/
theorem typeText (codes : List ℕ) (s : Keyboard) : Plays keys s (s.typeText codes) :=
  ⟨rfl, rfl, .refl _ _⟩

/-- A press plays its key. -/
theorem keyDown {key : Key} (hkey : .enigo key ∈ keys) (answers : Answers) (s : Keyboard) :
    Plays keys s (s.keyDown answers key) := by
  rw [Keyboard.keyDown]
  exact .ite ⟨rfl, rfl, .down hkey _⟩ (.refl _ _)

/-- Setting the caps lock plays its key. -/
theorem setCapslock (hkey : capsLockKey ∈ keys) (down : Bool) (s : Keyboard) :
    Plays keys s (s.setCapslock down) := by
  cases down with
  | true => exact ⟨rfl, rfl, .down hkey _⟩
  | false => exact ⟨rfl, rfl, .up _ _ _⟩

end Plays

variable {keys : Set HostKey} (host : Outside) (answers : Answers) (e : KeyEvent)

/-- Setting the locks plays no key for good. -/
theorem plays_newLockModes (isNumpadKey : Bool) (s : Keyboard) :
    Plays keys s (s.newLockModes host answers e isNumpadKey).1 := by
  unfold Keyboard.newLockModes
  exact (Plays.ite (.keyClick _ _) (.refl _ _)).trans (.ite (.keyClick _ _) (.refl _ _))

/-- On a Mac setting the locks plays the caps lock. -/
theorem plays_newLockModesMacos (hcaps : capsLockKey ∈ keys) (s : Keyboard) :
    Plays keys s (s.newLockModesMacos e) := by
  have hset (down : Bool) := Plays.setCapslock hcaps down s
  unfold Keyboard.newLockModesMacos
  exact .ite (hset true) (.ite (hset false) (.refl _ _))

/-- A handler of the locks plays their keys. -/
theorem plays_newHandler (isNumpadKey : Bool) (s : Keyboard) :
    Plays (lockKeys host) s (s.newHandler host answers e isNumpadKey).1 := by
  unfold Keyboard.newHandler
  split
  · next hmacos =>
    have hcaps : capsLockKey ∈ lockKeys host := ⟨hmacos, rfl⟩
    exact plays_newLockModesMacos e hcaps s
  · exact plays_newLockModes host answers e isNumpadKey s

/-- So does the choice whether there is one. -/
theorem plays_lockModeHandler (s : Keyboard) :
    Plays (lockKeys host) s (s.lockModeHandler host answers e).1 := by
  unfold Keyboard.lockModeHandler
  have hmade (isNumpadKey : Bool) := plays_newHandler host answers e isNumpadKey s
  have hnone := Plays.refl (lockKeys host) s
  split
  · exact hmade _
  · exact hmade _
  · split
    · exact hnone
    · exact hmade _
  · split
    · exact hmade _
    · dsimp only
      split
      · exact hnone
      · exact hmade _
  · exact hnone

/-- Setting the locks back plays no key for good. -/
theorem plays_dropHandler (handler : Keyboard.LockModesHandler) (s : Keyboard) :
    Plays keys s (s.dropHandler handler) := by
  unfold Keyboard.dropHandler
  exact (Plays.ite (.keyClick _ _) (.refl _ _)).trans (.ite (.keyClick _ _) (.refl _ _))

/-- Releasing modifiers plays no key. -/
theorem plays_releaseUnpressedModifiers (s : Keyboard) :
    Plays keys s (s.releaseUnpressedModifiers host answers e) := by
  unfold Keyboard.releaseUnpressedModifiers Keyboard.fixModifiers
  refine Plays.foldl (fun s line => .ite ?_ (.refl _ _)) _ s
  unfold Keyboard.fixModifier
  exact .ite (.ite (.refl _ _) (.keyUp _ _)) (.refl _ _)

/-- The keys of a list, as enigo is given them. -/
def enigoKeys (toRelease : List Key) : Set HostKey := {k | ∃ key ∈ toRelease, .enigo key = k}

/-- The modifiers that are pressed are collected. -/
theorem plays_pressModifiers (modifiers : List ℤ) (st : Keyboard × List Key) :
    Plays (enigoKeys (Keyboard.pressModifiers host answers modifiers st).2) st.1
        (Keyboard.pressModifiers host answers modifiers st).1 ∧
      st.2 ⊆ (Keyboard.pressModifiers host answers modifiers st).2 := by
  induction modifiers generalizing st with
  | nil => exact ⟨.refl _ _, List.Subset.refl _⟩
  | cons ck modifiers ih =>
    obtain ⟨s, toRelease⟩ := st
    unfold Keyboard.pressModifiers
    cases controlKeyValueToKey ck with
    | none => exact ih (s, toRelease)
    | some key =>
      dsimp only
      split
      · exact ih (s, toRelease)
      · obtain ⟨hplays, hsub⟩ := ih (s.keyDown answers key, toRelease ++ [key])
        have hkey : .enigo key ∈
            enigoKeys (Keyboard.pressModifiers host answers modifiers
              (s.keyDown answers key, toRelease ++ [key])).2 :=
          ⟨key, hsub (by simp), rfl⟩
        exact ⟨(Plays.keyDown hkey answers s).trans hplays,
          List.Subset.trans (List.subset_append_left _ _) hsub⟩

/-- The modifiers that are pressed are those to be released again. -/
theorem plays_syncModifiers (s : Keyboard) :
    Plays (enigoKeys (s.syncModifiers host answers e).2) s
      (s.syncModifiers host answers e).1 := by
  unfold Keyboard.syncModifiers
  split
  · have hfixed (keys : Set HostKey) : Plays keys s (s.releaseUnpressedModifiers host answers e) :=
      plays_releaseUnpressedModifiers host answers e s
    dsimp only
    split
    · exact hfixed _
    · exact (hfixed _).trans (plays_pressModifiers host answers e.modifiers _).1
  · exact .refl _ _

/-- Releasing keys adds their releases to the strokes. -/
theorem strokes_releaseKeys (toRelease : List Key) (s : Keyboard) :
    (s.releaseKeys toRelease).strokes =
      (toRelease.reverse.map HostKey.enigo).map .up ++ s.strokes := by
  unfold Keyboard.releaseKeys
  induction toRelease generalizing s with
  | nil => rfl
  | cons key toRelease ih =>
    rw [List.foldl_cons, ih]
    simp [Keyboard.keyUp, Keyboard.play]

/-- Releasing keys plays no key. -/
theorem plays_releaseKeys (toRelease : List Key) (s : Keyboard) :
    Plays keys s (s.releaseKeys toRelease) :=
  .foldl (fun s key => .keyUp key s) toRelease s

/-- Playing an event presses these keys for good, or the key of the event, and records that one. -/
structure Handles (host : Outside) (e : KeyEvent) (now : ℕ) (keys : Set HostKey)
    (s s' : Keyboard) : Prop where
  exiting : s'.exiting = s.exiting
  unrecorded : e.recorded host = none → s'.keysDown = s.keysDown
  record : ∀ r k, e.recorded host = some (r, k) →
    s'.keysDown = if e.down then s.keysDown.set r now else s.keysDown.delete r
  adds : Stroke.Adds (keys ∪ {k | e.down ∧ ∃ r, e.recorded host = some (r, k)})
    s.strokes s'.strokes
  lifts : ∀ r k, e.recorded host = some (r, k) → e.down = false → ¬ Stroke.Held s'.strokes k

namespace Handles

variable {host : Outside} {e : KeyEvent} {now : ℕ} {keys : Set HostKey} {s s' s'' : Keyboard}

/-- An event that records nothing. -/
theorem of_none (hnone : e.recorded host = none) (h : Plays keys s s') :
    Handles host e now keys s s' where
  exiting := h.exiting
  unrecorded := fun _ => h.keysDown
  record := by simp [hnone]
  adds := h.adds.mono Set.subset_union_left
  lifts := by simp [hnone]

/-- An event that makes or takes away a record, and presses or releases the key of it. -/
theorem of_some {r : KeysDown} {k : HostKey} (hsome : e.recorded host = some (r, k))
    (hdown : e.down = true → Plays {k} (s.recordPressedKey now r true) s')
    (hup : e.down = false → s' = (s.recordPressedKey now r false).play (.up k)) :
    Handles host e now keys s s' := by
  cases hcase : e.down with
  | true =>
    have hplays := hdown hcase
    refine ⟨hplays.exiting, by simp [hsome], ?_, ?_, by simp [hcase]⟩
    · rintro r' k' heq
      obtain ⟨rfl, rfl⟩ : r = r' ∧ k = k' := by simpa [hsome] using heq
      rw [hplays.keysDown, Keyboard.recordPressedKey, if_pos rfl, hcase, if_pos rfl]
    · refine Stroke.Adds.mono ?_ hplays.adds
      rintro _ rfl
      exact Or.inr ⟨hcase, r, hsome⟩
  | false =>
    obtain rfl := hup hcase
    refine ⟨rfl, by simp [hsome], ?_, .up _ _ _, ?_⟩
    · rintro r' k' heq
      obtain ⟨rfl, rfl⟩ : r = r' ∧ k = k' := by simpa [hsome] using heq
      rw [hcase]
      rfl
    · rintro r' k' heq -
      obtain ⟨rfl, rfl⟩ : r = r' ∧ k = k' := by simpa [hsome] using heq
      exact fun hheld => hheld.1 rfl

/-- What is played before an event may press keys of its own. -/
theorem of_plays (hplays : Plays keys s s') (h : Handles host e now keys s' s'') :
    Handles host e now keys s s'' where
  exiting := h.exiting.trans hplays.exiting
  unrecorded := fun hnone => (h.unrecorded hnone).trans hplays.keysDown
  record := fun r k hsome => by rw [h.record r k hsome, hplays.keysDown]
  adds := (hplays.adds.mono Set.subset_union_left).trans h.adds
  lifts := h.lifts

/-- What is played after an event presses nothing for good. -/
theorem plays (h : Handles host e now keys s s') (hplays : Plays ∅ s' s'') :
    Handles host e now keys s s'' where
  exiting := hplays.exiting.trans h.exiting
  unrecorded := fun hnone => hplays.keysDown.trans (h.unrecorded hnone)
  record := fun r k hsome => hplays.keysDown.trans (h.record r k hsome)
  adds := h.adds.trans (hplays.adds.mono (Set.empty_subset _))
  lifts := by
    intro r k hsome hup hheld
    rcases hplays.adds k hheld with hheld | hmem
    · exact h.lifts r k hsome hup hheld
    · exact hmem

/-- The modifiers pressed for an event are released after it. -/
theorem releaseKeys {toRelease : List Key}
    (h : Handles host e now (enigoKeys toRelease) s s') :
    Handles host e now keys s (s'.releaseKeys toRelease) := by
  have hlater := h.plays (plays_releaseKeys toRelease s')
  refine ⟨hlater.exiting, hlater.unrecorded, hlater.record, ?_, hlater.lifts⟩
  intro k hheld
  rw [strokes_releaseKeys, Stroke.held_ups] at hheld
  obtain ⟨hnot, hheld⟩ := hheld
  rcases h.adds k hheld with hheld | hmem | hmem
  · exact Or.inl hheld
  · obtain ⟨key, hkey, rfl⟩ := hmem
    exact absurd (List.mem_map_of_mem (List.mem_reverse.mpr hkey)) hnot
  · exact Or.inr (Or.inr hmem)

end Handles

/-- A raw key is played and noted under its own record. -/
theorem handles_simRdevRawkey {host : Outside} {e : KeyEvent} {raw : RawKey}
    (hsome : e.recorded host = some (rawRecord raw)) (answers : Answers) (s : Keyboard) :
    Handles host e answers.now keys s (s.simRdevRawkey answers raw e.down) := by
  refine .of_some hsome (fun hdown => ?_) (fun hup => ?_)
  · rw [hdown]
    exact ⟨rfl, rfl, .down (Set.mem_singleton _) _⟩
  · rw [hup]
    rfl

variable {host : Outside} {e : KeyEvent}

/-- The mode of positions handles its key. -/
theorem handles_mapKeyboardMode (answers : Answers) (hmode : e.mode = .map) (s : Keyboard) :
    Handles host e answers.now keys s (s.mapKeyboardMode host answers e) :=
  handles_simRdevRawkey (by rw [KeyEvent.recorded, hmode]) answers s

/-- Typing a text in the way of the platform plays no key for good. -/
theorem plays_translateSeq (host : Outside) (answers : Answers) (sequence : List Char)
    (s : Keyboard) : Plays keys s (s.translateSeq host answers sequence) := by
  have hshift : Plays keys s (s.releaseShift answers) := by
    unfold Keyboard.releaseShift
    exact (Plays.ite (.simulateUp _ _) (.refl _ _)).trans (.ite (.simulateUp _ _) (.refl _ _))
  unfold Keyboard.translateSeq
  split
  · exact .keySequence sequence s
  · exact hshift.trans (.foldl (fun s c => .keyClick (.layout c) s) sequence _)
  · exact .ite (.keySequence sequence s) (hshift.trans (.typeText _ _))

/-- The mode that translates handles its key. -/
theorem handles_translateKeyboardMode (answers : Answers) (hmode : e.mode = .translate)
    (s : Keyboard) :
    Handles host e answers.now keys s (s.translateKeyboardMode host answers e) := by
  obtain ⟨down, union, modifiers, mode⟩ := e
  obtain rfl : mode = .translate := hmode
  cases union with
  | none => exact .of_none rfl (.refl _ _)
  | some union =>
    cases union with
    | controlKey ck => exact .of_none rfl (.refl _ _)
    | unicode code => exact .of_none rfl (.refl _ _)
    | seq sequence => exact .of_none rfl (plays_translateSeq host answers sequence s)
    | chr code =>
      unfold Keyboard.translateKeyboardMode Keyboard.translateProcessCode KeyEvent.chr
      dsimp only
      by_cases hwindows : host.platform = .windows
      · rw [if_pos hwindows]
        by_cases hhigh : code >>> 16 = 0
        · rw [if_pos hhigh]
          exact handles_simRdevRawkey (by simp [KeyEvent.recorded, hhigh]) answers s
        · rw [if_neg hhigh]
          exact handles_simRdevRawkey (by simp [KeyEvent.recorded, hwindows, hhigh]) answers s
      · rw [if_neg hwindows]
        exact handles_simRdevRawkey (by simp [KeyEvent.recorded, hwindows]) answers s

/-- The mode of the older clients handles its key, without the modifiers. -/
theorem handles_processLegacy (answers : Answers) (hmode : e.mode ≠ .map ∧ e.mode ≠ .translate)
    (hmapped : e.mapped = true) (s : Keyboard) :
    Handles host e answers.now keys s (s.processLegacy host answers e) := by
  obtain ⟨down, union, modifiers, mode⟩ := e
  have hrecorded : (KeyEvent.mk down union modifiers mode).recorded host =
      (KeyEvent.mk down union modifiers .legacy).recorded host := by
    cases mode with
    | legacy => rfl
    | auto => rfl
    | map => exact absurd rfl hmode.1
    | translate => exact absurd rfl hmode.2
  unfold Keyboard.processLegacy
  cases union with
  | none => exact .of_none hrecorded (.refl _ _)
  | some union =>
    cases union with
    | unicode code => exact .of_none hrecorded (.ite (.keySequence _ _) (.refl _ _))
    | seq sequence => exact .of_none hrecorded (.keySequence sequence s)
    | controlKey ck =>
      obtain ⟨key, hkey⟩ := Option.isSome_iff_exists.mp hmapped
      have hsome : (KeyEvent.mk down (some (.controlKey ck)) modifiers mode).recorded host =
          some (.enigoKey (controlRecord ck), .enigo key) := by
        rw [hrecorded]
        simp [KeyEvent.recorded, hkey]
      dsimp only
      unfold Keyboard.processControlKey
      rw [hkey]
      refine .of_some hsome (fun hdown => ?_) (fun hup => ?_)
      · obtain rfl : down = true := hdown
        exact .keyDown (Set.mem_singleton _) answers _
      · obtain rfl : down = false := hup
        rfl
    | chr code =>
      refine .of_some hrecorded (fun hdown => ?_) (fun hup => ?_)
      · obtain rfl : down = true := hdown
        unfold Keyboard.processChr
        dsimp only
        rw [if_pos rfl]
        exact .ite (.keyDown (Set.mem_singleton _) answers _)
          (.ite (.keySequence _ _) (.refl _ _))
      · obtain rfl : down = false := hup
        rfl

/-- A key that is mapped is no function of the host. -/
theorem not_isFunctionKey (hmapped : e.mapped = true) :
    Keyboard.isFunctionKey (Keyboard.getControlKeyValue e) = false := by
  have hkey : ∀ ck : ℤ, ck < 100 → Keyboard.isFunctionKey ck = false := by
    intro ck hlt
    have hdel : ck ≠ ControlKey.ctrlAltDel.value := by
      rw [ControlKey.value]
      omega
    have hlock : ck ≠ ControlKey.lockScreen.value := by
      rw [ControlKey.value]
      omega
    simp [Keyboard.isFunctionKey, hdel, hlock]
  obtain ⟨down, union, modifiers, mode⟩ := e
  cases union with
  | none => rfl
  | some union =>
    cases union with
    | chr code => rfl
    | unicode code => rfl
    | seq sequence => rfl
    | controlKey ck =>
      obtain ⟨key, hmap⟩ := Option.isSome_iff_exists.mp hmapped
      exact hkey ck (value_of_mapped hmap).2

/-- The mode of the older clients handles its key. -/
theorem handles_legacyKeyboardMode (answers : Answers)
    (hmode : e.mode ≠ .map ∧ e.mode ≠ .translate) (hmapped : e.mapped = true) (s : Keyboard) :
    Handles host e answers.now keys s (s.legacyKeyboardMode host answers e) := by
  unfold Keyboard.legacyKeyboardMode
  rw [not_isFunctionKey hmapped]
  have hprocessed : Handles host e answers.now (enigoKeys (s.syncModifiers host answers e).2)
      (s.syncModifiers host answers e).1
      ((s.syncModifiers host answers e).1.processLegacy host answers e) :=
    handles_processLegacy answers hmode hmapped _
  exact (hprocessed.of_plays (plays_syncModifiers host answers e s)).releaseKeys

/-- **One event.** Besides the key of the event only a lock key can be pressed for good. -/
theorem handles_handleKey (answers : Answers) (hmapped : e.mapped = true) {s : Keyboard}
    (hrunning : s.exiting = false) :
    Handles host e answers.now (lockKeys host) s (s.handleKey host answers e) := by
  have hmode (s' : Keyboard) :
      Handles host e answers.now (lockKeys host) s' (s'.playMode host answers e) := by
    unfold Keyboard.playMode
    split
    · next hmode => exact handles_mapKeyboardMode answers hmode s'
    · next hmode => exact handles_translateKeyboardMode answers hmode s'
    · next hmap htranslate =>
      exact handles_legacyKeyboardMode answers ⟨hmap, htranslate⟩ hmapped s'
  have hplayed := (hmode (s.lockModeHandler host answers e).1).of_plays
    (plays_lockModeHandler host answers e s)
  unfold Keyboard.handleKey
  rw [if_neg (by simp [hrunning])]
  dsimp only
  split
  · exact hplayed.plays (plays_dropHandler _ _)
  · exact hplayed

end RdWeb.Host.InputService
