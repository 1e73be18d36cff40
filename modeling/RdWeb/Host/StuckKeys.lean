import RdWeb.Host.PlayedKeys

/-!
# Keys left down

When the last viewer leaves, and at exit, every key of `KEYS_DOWN` is released. A record of a
control key or a raw key says which key that is. One of a character does not: the test for
characters is a copy of the test for control keys. And on macOS the lock handler presses Caps Lock
without a record.
-/

namespace RdWeb.Host.InputService

/-- What `fix_key_down_timeout(true)` is run for. -/
inductive ReleaseCause where
  | lastViewerLeft
  | exit
deriving DecidableEq

/-- The keys that are released when the last viewer leaves, or at the exit. -/
def Keyboard.releaseAll (cause : ReleaseCause) (now : ℕ) (cloned : MapOrder) (s : Keyboard) :
    Keyboard :=
  match cause with
  | .lastViewerLeft => s.fixKeyDownTimeout true now cloned
  | .exit => s.fixKeyDownTimeoutAtExit now cloned

/-- The peer pressed the key, and the press was recorded so. -/
def PressedAs (host : Outside) (events : List Received) (r : KeysDown) (k : HostKey) : Prop :=
  ∃ x ∈ events, x.event.down = true ∧ x.event.recorded host = some (r, k)

/-- The strokes played between two states. -/
def playedBetween (s s' : Keyboard) : List (Stroke HostKey) :=
  s'.strokes.take (s'.strokes.length - s.strokes.length)

/-- No key is stuck after the final release. -/
structure NothingStuck (host : Outside) (events : List Received) (s s' : Keyboard) : Prop where
  released : ∀ k, ¬ Stroke.Held s'.strokes k
  empty : s'.keysDown.entries = []
  pressedByPeer : ∀ k, .up k ∈ playedBetween s s' → ∃ r, PressedAs host events r k
  decoded : ∀ r k, PressedAs host events r k → r ∈ s.keysDown.keys → releasedKey r = some k

/-- No character is recorded, and on macOS Caps Lock is recorded if it is down. -/
structure Releasable (host : Outside) (s : Keyboard) : Prop where
  noCharacter : ∀ record, .enigoKey record ∈ s.keysDown.keys → record < KEY_CHAR_START
  capsLock : host.platform = .macos → Stroke.Held s.strokes capsLockKey →
    .rdevKey capsLockRaw ∈ s.keysDown.keys

/-! ### What a record stands for -/

/-- The key a record was made for. -/
def recordedKey : KeysDown → Option HostKey
  | .rdevKey raw => some (.rdev (.rawKey raw))
  | .enigoKey record =>
    if record < KEY_CHAR_START then (recordKeyToKey record).map .enigo
    else some (.enigo (charValueToKey (record - KEY_CHAR_START)))

/-- The record of a control key gives the key. -/
theorem recordedKey_control {ck : ℤ} {key : Key} (h : controlKeyValueToKey ck = some key) :
    recordedKey (.enigoKey (controlRecord ck)) = some (.enigo key) := by
  rw [recordedKey, if_pos (controlRecord_lt h), recordKeyToKey_control h]
  rfl

/-- The record of a character gives its key. -/
theorem recordedKey_chr (code : UInt32) :
    recordedKey (.enigoKey (chrRecord code)) = some (.enigo (charValueToKey code.toNat)) := by
  have hle : ¬ chrRecord code < KEY_CHAR_START := by
    rw [chrRecord]
    omega
  rw [recordedKey, if_neg hle, chrRecord, Nat.add_sub_cancel]

/-- The record of an event gives its key. -/
theorem recordedKey_of_recorded {host : Outside} {e : KeyEvent} {r : KeysDown} {k : HostKey}
    (h : e.recorded host = some (r, k)) : recordedKey r = some k := by
  have hraw (raw : RawKey) (heq : rawRecord raw = (r, k)) : recordedKey r = some k := by
    obtain ⟨rfl, rfl⟩ := Prod.mk.inj heq
    rfl
  have hlegacy (h : (KeyEvent.mk e.down e.union e.modifiers .legacy).recorded host = some (r, k)) :
      recordedKey r = some k := by
    unfold KeyEvent.recorded at h
    dsimp only at h
    split at h
    · obtain ⟨key, hkey, heq⟩ := Option.map_eq_some_iff.mp h
      obtain ⟨rfl, rfl⟩ := Prod.mk.inj heq
      exact recordedKey_control hkey
    · obtain ⟨rfl, rfl⟩ := Prod.mk.inj (Option.some.inj h)
      exact recordedKey_chr _
    · exact absurd h (by simp)
  obtain ⟨down, union, modifiers, mode⟩ := e
  cases mode with
  | legacy => exact hlegacy h
  | auto => exact hlegacy h
  | map => exact hraw _ (Option.some.inj h)
  | translate =>
    unfold KeyEvent.recorded at h
    dsimp only at h
    split at h
    · split at h
      · exact hraw _ (Option.some.inj h)
      · exact hraw _ (Option.some.inj h)
    · exact absurd h (by simp)

/-- The record of a pressed key gives the key. -/
theorem PressedAs.recordedKey {host : Outside} {events : List Received} {r : KeysDown}
    {k : HostKey} (h : PressedAs host events r k) : recordedKey r = some k := by
  obtain ⟨x, -, -, hrecorded⟩ := h
  exact recordedKey_of_recorded hrecorded

/-- A key stays pressed as it was after more events. -/
theorem PressedAs.append {host : Outside} {events more : List Received} {r : KeysDown}
    {k : HostKey} (h : PressedAs host events r k) : PressedAs host (events ++ more) r k := by
  obtain ⟨x, hmem, hdown⟩ := h
  exact ⟨x, List.mem_append_left _ hmem, hdown⟩

/-- Whatever is released for a record is the key it was made for. -/
theorem recordedKey_of_releasedKey {r : KeysDown} {k : HostKey} (h : releasedKey r = some k) :
    recordedKey r = some k := by
  cases r with
  | rdevKey raw => exact h
  | enigoKey record =>
    by_cases hlt : record < KEY_CHAR_START
    · rw [recordedKey, if_pos hlt]
      exact h
    · simp [releasedKey, recordKeyToKey_of_le (Nat.le_of_not_lt hlt)] at h

/-- Only the record of its raw key releases Caps Lock of macOS. -/
theorem recorded_capsLock {r : KeysDown} (h : releasedKey r = some capsLockKey) :
    r = .rdevKey capsLockRaw := by
  cases r with
  | rdevKey raw => simpa [releasedKey, capsLockKey] using h
  | enigoKey record => simp [releasedKey, capsLockKey] at h

/-- **Decoding.** A record is released as its key exactly if it is no character's. -/
theorem releasedKey_eq_iff {r : KeysDown} {k : HostKey} (h : recordedKey r = some k) :
    releasedKey r = some k ↔ ∀ record, r = .enigoKey record → record < KEY_CHAR_START := by
  constructor
  · rintro hreleased record rfl
    by_contra hlt
    simp [releasedKey, recordKeyToKey_of_le (Nat.le_of_not_lt hlt)] at hreleased
  · intro hall
    cases r with
    | rdevKey raw => exact h
    | enigoKey record => rwa [recordedKey, if_pos (hall record rfl)] at h

/-! ### Runs -/

/-- A held key is recorded, the lock keys apart, and a record is the one of a press. -/
structure Kept (host : Outside) (events : List Received) (s : Keyboard) : Prop where
  running : s.exiting = false
  made : ∀ r ∈ s.keysDown.keys, ∃ k, PressedAs host events r k
  held : ∀ k, Stroke.Held s.strokes k →
    k ∈ lockKeys host ∨ ∃ r ∈ s.keysDown.keys, recordedKey r = some k

/-- At first no key is down. -/
theorem kept_nil (host : Outside) : Kept host [] (machine host).init where
  running := rfl
  made := by simp [machine, OrderedMap.keys, OrderedMap.empty]
  held := fun _ hheld => hheld.elim

section

variable {host : Outside} {e : KeyEvent} {now : ℕ} {keys : Set HostKey} {s s' : Keyboard}

/-- A record is an old one or the one of the press. -/
theorem Handles.made (h : Handles host e now keys s s') {r : KeysDown}
    (hr : r ∈ s'.keysDown.keys) :
    r ∈ s.keysDown.keys ∨ e.down = true ∧ ∃ k, e.recorded host = some (r, k) := by
  cases hrecorded : e.recorded host with
  | none => exact Or.inl (h.unrecorded hrecorded ▸ hr)
  | some entry =>
    obtain ⟨r', k⟩ := entry
    rw [h.record r' k hrecorded] at hr
    split at hr
    · next hdown =>
      rcases OrderedMap.mem_keys_set.mp hr with rfl | hr
      · exact Or.inr ⟨hdown, k, rfl⟩
      · exact Or.inl hr
    · exact Or.inl (OrderedMap.mem_keys_delete.mp hr).2

/-- A press is recorded. -/
theorem Handles.recorded (h : Handles host e now keys s s') (hdown : e.down = true)
    {r : KeysDown} {k : HostKey} (hrecorded : e.recorded host = some (r, k)) :
    r ∈ s'.keysDown.keys := by
  rw [h.record r k hrecorded, if_pos hdown]
  exact OrderedMap.mem_keys_set.mpr (Or.inl rfl)

/-- The record of a key that is still held stays. -/
theorem Handles.stays (h : Handles host e now keys s s') {k : HostKey}
    (hheld : Stroke.Held s'.strokes k) {r : KeysDown} (hr : r ∈ s.keysDown.keys)
    (hkey : recordedKey r = some k) : r ∈ s'.keysDown.keys := by
  cases hrecorded : e.recorded host with
  | none => rwa [h.unrecorded hrecorded]
  | some entry =>
    obtain ⟨r', k'⟩ := entry
    rw [h.record r' k' hrecorded]
    split
    · exact OrderedMap.mem_keys_set.mpr (Or.inr hr)
    · next hup =>
      -- The record taken away is the one of the key released.
      have hne : r ≠ r' := by
        rintro rfl
        have heq : k' = k :=
          Option.some.inj ((recordedKey_of_recorded hrecorded).symm.trans hkey)
        exact h.lifts r k' hrecorded (by simpa using hup) (heq ▸ hheld)
      exact OrderedMap.mem_keys_delete.mpr ⟨hne, hr⟩

end

/-- Playing an event keeps every held key recorded. -/
theorem Kept.handles {host : Outside} {events : List Received} {x : Received} {s s' : Keyboard}
    (hs : Kept host events s)
    (h : Handles host x.event x.answers.now (lockKeys host) s s') :
    Kept host (events ++ [x]) s' where
  running := h.exiting.trans hs.running
  made := by
    intro r hr
    rcases h.made hr with hr | ⟨hdown, k, hrecorded⟩
    · exact (hs.made r hr).imp fun k hk => hk.append
    · exact ⟨k, x, by simp, hdown, hrecorded⟩
  held := by
    intro k hheld
    rcases h.adds k hheld with hbefore | hlock | ⟨hdown, r, hrecorded⟩
    · refine (hs.held k hbefore).imp_right ?_
      rintro ⟨r, hr, hkey⟩
      exact ⟨r, h.stays hheld hr hkey, hkey⟩
    · exact Or.inl hlock
    · exact Or.inr ⟨r, h.recorded hdown hrecorded, recordedKey_of_recorded hrecorded⟩

/-- Along a run the keys that are down are noted. -/
theorem kept_of_run {host : Outside} {events : List Received} {s : Keyboard}
    (hrun : (machine host).Run (machine host).init events s) : Kept host events s := by
  generalize hinit : (machine host).init = start at hrun
  induction hrun with
  | nil =>
    subst hinit
    exact kept_nil host
  | snoc hrun _ hstep ih =>
    obtain ⟨hmapped, rfl⟩ := Option.ite_some_none_eq_some.mp hstep
    exact ih.handles (handles_handleKey _ hmapped ih.running)

/-! ### The final release -/

/-- Releasing a record releases its key, if it has one. -/
theorem releaseRecordKey_eq (r : KeysDown) (s : Keyboard) :
    s.releaseRecordKey r = (releasedKey r).elim s fun k => s.play (.up k) := by
  cases r with
  | rdevKey raw => rfl
  | enigoKey record =>
    unfold Keyboard.releaseRecordKey releasedKey
    dsimp only
    cases recordKeyToKey record with
    | none => rfl
    | some key => rfl

/-- The keys that are released for a list of records, the last one first. -/
def releasedKeys (entries : List (KeysDown × ℕ)) : List HostKey :=
  (entries.filterMap fun entry => releasedKey entry.1).reverse

/-- One round of `fix_key_down_timeout(true)` over the records. -/
def forceRelease (now : ℕ) (entries : List (KeysDown × ℕ)) (s : Keyboard) : Keyboard :=
  entries.foldl (fun s entry =>
    (s.recordPressedKey now entry.1 false).releaseRecordKey entry.1) s

/-- The strokes after the release of some records. -/
theorem strokes_forceRelease (now : ℕ) (entries : List (KeysDown × ℕ)) (s : Keyboard) :
    (forceRelease now entries s).strokes = (releasedKeys entries).map .up ++ s.strokes := by
  induction entries generalizing s with
  | nil => rfl
  | cons entry entries ih =>
    rw [forceRelease, List.foldl_cons, ← forceRelease, ih, releaseRecordKey_eq, releasedKeys,
      releasedKeys]
    cases hreleased : releasedKey entry.1 with
    | none => simp [hreleased, Keyboard.recordPressedKey]
    | some k => simp [hreleased, Keyboard.recordPressedKey, Keyboard.play]

/-- The records after the release of some. -/
theorem mem_keysDown_forceRelease {now : ℕ} {entries : List (KeysDown × ℕ)} {s : Keyboard}
    {r : KeysDown} :
    r ∈ (forceRelease now entries s).keysDown.keys ↔
      r ∈ s.keysDown.keys ∧ r ∉ entries.map Prod.fst := by
  induction entries generalizing s with
  | nil => simp [forceRelease]
  | cons entry entries ih =>
    have hkeys : ((s.recordPressedKey now entry.1 false).releaseRecordKey entry.1).keysDown =
        s.keysDown.delete entry.1 := by
      rw [releaseRecordKey_eq]
      cases releasedKey entry.1 with
      | none => rfl
      | some k => rfl
    rw [forceRelease, List.foldl_cons, ← forceRelease, ih, hkeys, OrderedMap.mem_keys_delete,
      List.map_cons, List.mem_cons, not_or]
    tauto

/-- The forced release is the release of all. -/
theorem fixKeyDownTimeout_force (now : ℕ) (cloned : MapOrder) (s : Keyboard) :
    s.fixKeyDownTimeout true now cloned = forceRelease now (cloned.order s.keysDown.entries) s := by
  simp [Keyboard.fixKeyDownTimeout, forceRelease]

/-- Both causes release the records of `KEYS_DOWN` in the order of the map. -/
theorem releaseAll_eq (cause : ReleaseCause) (now : ℕ) (cloned : MapOrder) {s : Keyboard}
    (hrunning : s.exiting = false) :
    ∃ s₀ : Keyboard, s₀.strokes = s.strokes ∧ s₀.keysDown = s.keysDown ∧
      s.releaseAll cause now cloned =
        forceRelease now (cloned.order s.keysDown.entries) s₀ := by
  cases cause with
  | lastViewerLeft => exact ⟨s, rfl, rfl, fixKeyDownTimeout_force now cloned s⟩
  | exit =>
    refine ⟨{ s with exiting := true }, rfl, rfl, ?_⟩
    unfold Keyboard.releaseAll Keyboard.fixKeyDownTimeoutAtExit
    dsimp only
    rw [if_neg (by simp [hrunning]), fixKeyDownTimeout_force]

section

variable (cause : ReleaseCause) (now : ℕ) (cloned : MapOrder) {s : Keyboard}

/-- The strokes after the release of all keys. -/
theorem strokes_releaseAll (hrunning : s.exiting = false) :
    (s.releaseAll cause now cloned).strokes =
      (releasedKeys (cloned.order s.keysDown.entries)).map .up ++ s.strokes := by
  obtain ⟨s₀, hstrokes, -, heq⟩ := releaseAll_eq cause now cloned hrunning
  rw [heq, strokes_forceRelease, hstrokes]

/-- After it no key is noted. -/
theorem keysDown_releaseAll (hrunning : s.exiting = false) :
    (s.releaseAll cause now cloned).keysDown.entries = [] := by
  obtain ⟨s₀, -, hkeys, heq⟩ := releaseAll_eq cause now cloned hrunning
  have hnone (r : KeysDown) : r ∉ (s.releaseAll cause now cloned).keysDown.keys := by
    rw [heq, mem_keysDown_forceRelease, hkeys,
      ((cloned.perm s.keysDown.entries).map Prod.fst).mem_iff]
    exact fun h => h.2 h.1
  exact List.map_eq_nil_iff.mp (List.eq_nil_iff_forall_not_mem.mpr hnone)

/-- A key is released if one of the records releases it. -/
theorem mem_releasedKeys {k : HostKey} :
    k ∈ releasedKeys (cloned.order s.keysDown.entries) ↔
      ∃ r ∈ s.keysDown.keys, releasedKey r = some k := by
  rw [releasedKeys, List.mem_reverse, ((cloned.perm s.keysDown.entries).filterMap _).mem_iff,
    List.mem_filterMap, OrderedMap.keys]
  constructor
  · rintro ⟨entry, hmem, hreleased⟩
    exact ⟨entry.1, List.mem_map_of_mem hmem, hreleased⟩
  · rintro ⟨r, hr, hreleased⟩
    obtain ⟨entry, hmem, rfl⟩ := List.mem_map.mp hr
    exact ⟨entry, hmem, hreleased⟩

/-- The keys still held after the release are those of no record. -/
theorem held_releaseAll (hrunning : s.exiting = false) {k : HostKey} :
    Stroke.Held (s.releaseAll cause now cloned).strokes k ↔
      Stroke.Held s.strokes k ∧ ∀ r ∈ s.keysDown.keys, releasedKey r ≠ some k := by
  rw [strokes_releaseAll cause now cloned hrunning, Stroke.held_ups, mem_releasedKeys, and_comm]
  simp

/-- So it is among the keys played meanwhile. -/
theorem mem_playedBetween (hrunning : s.exiting = false) {k : HostKey} :
    .up k ∈ playedBetween s (s.releaseAll cause now cloned) ↔
      ∃ r ∈ s.keysDown.keys, releasedKey r = some k := by
  have hplayed : playedBetween s (s.releaseAll cause now cloned) =
      (releasedKeys (cloned.order s.keysDown.entries)).map .up := by
    rw [playedBetween, strokes_releaseAll cause now cloned hrunning, List.length_append,
      Nat.add_sub_cancel]
    exact List.take_left
  rw [hplayed, ← mem_releasedKeys cloned]
  simp

end

/-- **No key is stuck**, after any run, exactly if no character is recorded when the keys are
released and Caps Lock of macOS is not down without a record. -/
theorem nothingStuck_iff_releasable {host : Outside} {events : List Received} {s : Keyboard}
    (hrun : (machine host).Run (machine host).init events s) (cause : ReleaseCause) (now : ℕ)
    (cloned : MapOrder) :
    NothingStuck host events s (s.releaseAll cause now cloned) ↔
      Releasable host s := by
  have hs := kept_of_run hrun
  constructor
  · intro hnothing
    refine ⟨fun record hmem => ?_, fun _ hheld => ?_⟩
    · obtain ⟨k, hpressed⟩ := hs.made _ hmem
      have hdecoded := hnothing.decoded _ k hpressed hmem
      exact (releasedKey_eq_iff hpressed.recordedKey).mp hdecoded record rfl
    · have hreleased := hnothing.released capsLockKey
      rw [held_releaseAll cause now cloned hs.running, not_and] at hreleased
      obtain ⟨r, hr, hcaps⟩ : ∃ r ∈ s.keysDown.keys, releasedKey r = some capsLockKey := by
        by_contra hno
        exact hreleased hheld fun r hr heq => hno ⟨r, hr, heq⟩
      rwa [← recorded_capsLock hcaps]
  · intro hreleasable
    have hdecodes (r : KeysDown) (hr : r ∈ s.keysDown.keys) (k : HostKey)
        (hkey : recordedKey r = some k) : releasedKey r = some k :=
      (releasedKey_eq_iff hkey).mpr fun record heq =>
        hreleasable.noCharacter record (heq ▸ hr)
    refine ⟨fun k hheld => ?_, keysDown_releaseAll cause now cloned hs.running, fun k hup => ?_,
      fun r k hpressed hr => hdecodes r hr k hpressed.recordedKey⟩
    · obtain ⟨hheld, hnot⟩ := (held_releaseAll cause now cloned hs.running).mp hheld
      rcases hs.held k hheld with ⟨hmacos, rfl⟩ | ⟨r, hr, hkey⟩
      · exact hnot _ (hreleasable.capsLock hmacos hheld) rfl
      · exact hnot r hr (hdecodes r hr k hkey)
    · obtain ⟨r, hr, hreleased⟩ := (mem_playedBetween cause now cloned hs.running).mp hup
      obtain ⟨k', hpressed⟩ := hs.made r hr
      have hkey := recordedKey_of_releasedKey hreleased
      obtain rfl : k' = k := Option.some.inj (hpressed.recordedKey.symm.trans hkey)
      exact ⟨r, hpressed⟩

/-! ### A character of legacy mode and a position of map mode -/

/-- A host with its own raw keys. -/
def x11Host : Outside where
  platform := .linux
  keyCode := UInt32.toNat
  keycodeToRdevKey := fun code => .other code.toNat
  toUppercase := fun c => [c.toUpper]

/-- A press while no modifier is down. -/
def pressed (mode : KeyboardMode) (code : UInt32) : Received where
  event := { down := true, union := some (.chr code), mode := mode }
  answers := { keyState := fun _ _ => false, takesDown := fun _ _ => true, now := 0 }

/-- The keyboard after the press. -/
def afterPress (mode : KeyboardMode) (code : UInt32) : Keyboard :=
  (machine x11Host).init.handleKey x11Host (pressed mode code).answers (pressed mode code).event

/-- A single press is a run. -/
theorem run_pressed (mode : KeyboardMode) (code : UInt32) :
    (machine x11Host).Run (machine x11Host).init [pressed mode code] (afterPress mode code) :=
  .single trivial rfl

/-- The records in the order in which they came. -/
def oldestFirst : MapOrder := ⟨id, fun _ => .refl _⟩

/-- The letter `a` stays down. -/
theorem not_nothingStuck_character :
    (machine x11Host).Run (machine x11Host).init [pressed .legacy 97] (afterPress .legacy 97) ∧
      ¬ NothingStuck x11Host [pressed .legacy 97] (afterPress .legacy 97)
        ((afterPress .legacy 97).releaseAll .lastViewerLeft 0 oldestFirst) := by
  refine ⟨run_pressed .legacy 97, fun h => ?_⟩
  exact h.released (.enigo (.layout 'a')) (by decide)

/-- The release of a letter. -/
def letterReleased (code : UInt32) : Received where
  event := { down := false, union := some (.chr code), mode := .legacy }
  answers := { keyState := fun _ _ => false, takesDown := fun _ _ => true, now := 0 }

/-- A control key that is pressed. -/
def controlPressed (ck : ControlKey) : Received where
  event := { down := true, union := some (.controlKey ck.value), mode := .legacy }
  answers := { keyState := fun _ _ => false, takesDown := fun _ _ => true, now := 0 }

/-- A position goes down, a letter goes down and up, and Escape goes down. -/
def mixedKeys : List Received :=
  [pressed .map 38, pressed .legacy 97, letterReleased 97, controlPressed .escape]

/-- The keyboard after these. -/
def afterMixedKeys : Keyboard :=
  ((machine x11Host).replay (machine x11Host).init mixedKeys).getD (machine x11Host).init

/-- The position and Escape are down, and both are released. -/
theorem nothingStuck_iff_releasable_mixedKeys :
    afterMixedKeys.keysDown.keys =
        [.rdevKey (.linuxXorgKeycode 38), .enigoKey (controlRecord ControlKey.escape.value)] ∧
      NothingStuck x11Host mixedKeys afterMixedKeys
        (afterMixedKeys.releaseAll .lastViewerLeft 0 oldestFirst) := by
  have hkeys : afterMixedKeys.keysDown.keys =
      [.rdevKey (.linuxXorgKeycode 38), .enigoKey (controlRecord ControlKey.escape.value)] := by
    decide
  have hrun : (machine x11Host).Run (machine x11Host).init mixedKeys afterMixedKeys :=
    Machine.run_of_replay rfl
  refine ⟨hkeys, (nothingStuck_iff_releasable hrun .lastViewerLeft 0 oldestFirst).mpr ?_⟩
  refine ⟨fun record hmem => ?_, fun hmacos => ?_⟩
  · obtain rfl : record = controlRecord ControlKey.escape.value := by simpa [hkeys] using hmem
    decide
  · exact absurd hmacos (by decide)

end RdWeb.Host.InputService
