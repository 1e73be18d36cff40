import RdWeb.Host.MouseInput
import RdWeb.Host.StuckKeys

/-!
# Modifiers pressed for an event only

When an event that presses modifiers leaves the keys as they were, apart from what `fix_modifiers`
released and from its own key.
-/

namespace RdWeb.Host.InputService

/-- Afterwards the keys are those down before, without the released ones and with or without the
event's own key; Caps Lock and Num Lock are as before unless the own key is one of them. -/
structure Temporary (p p' : KeyStates HostKey) (released : Set HostKey) (own : Option Key)
    (down : Bool) : Prop where
  pressed : ∀ k, p'.pressed k = true ↔
    own.map .enigo = some k ∧ down = true ∨
      own.map .enigo ≠ some k ∧ p.pressed k = true ∧ k ∉ released
  locks : own ≠ some .capsLock → own ≠ some .numLock → ∀ k, isLockKey k = true →
    p'.toggled (.enigo k) = p.toggled (.enigo k)

/-- The keys are the same without the released ones, which are no lock keys. -/
structure Released (q f : KeyStates HostKey) (released : Set HostKey) : Prop where
  pressed : ∀ k, f.pressed k = true ↔ q.pressed k = true ∧ k ∉ released
  toggled : f.toggled = q.toggled
  locks : ∀ k, isLockKey k = true → .enigo k ∉ released

/-- The lock keys that a handler clicks. -/
def clicked (c n : Bool) (k : HostKey) : Bool :=
  (c && decide (k = .enigo .capsLock)) || (n && decide (k = .enigo .numLock))

section

variable {p q f : KeyStates HostKey} {released : Set HostKey} {c n : Bool} {own : Option Key}
  {keys : List HostKey}

/-- What is down after the locks were set back. -/
theorem pressed_lockClicks (c n : Bool) (p : KeyStates HostKey) (k : HostKey) :
    (Keyboard.lockClicks c n p).pressed k = (p.pressed k && !clicked c n k) := by
  rw [Keyboard.lockClicks, KeyStates.pressed_clickIf, KeyStates.pressed_clickIf, clicked,
    Bool.not_or, Bool.and_assoc]

/-- Which locks are on after they were set back. -/
theorem toggled_lockClicks (c n : Bool) (p : KeyStates HostKey) (k : HostKey) :
    (Keyboard.lockClicks c n p).toggled k =
      (p.toggled k ^^ (clicked c n k && !p.pressed k)) := by
  rw [Keyboard.lockClicks, KeyStates.toggled_clickIf, KeyStates.toggled_clickIf,
    KeyStates.pressed_clickIf, clicked]
  by_cases hcaps : k = .enigo .capsLock
  · subst hcaps
    simp
  · simp [hcaps]

/-- What is clicked is a lock. -/
theorem isLockKey_of_clicked {k : HostKey} (h : clicked c n k = true) :
    ∃ key, isLockKey key = true ∧ k = .enigo key := by
  simp only [clicked, Bool.or_eq_true, Bool.and_eq_true, decide_eq_true_eq] at h
  rcases h with ⟨-, rfl⟩ | ⟨-, rfl⟩
  · exact ⟨.capsLock, rfl, rfl⟩
  · exact ⟨.numLock, rfl, rfl⟩

/-- A clicked lock is not released. -/
theorem not_released_of_clicked (h : Released q f released) {k : HostKey}
    (hclicked : clicked c n k = true) : k ∉ released := by
  obtain ⟨key, hlock, rfl⟩ := isLockKey_of_clicked hclicked
  exact h.locks key hlock

/-- The own key is down or up as the event says. -/
theorem pressed_playOwn_of_own {down : Bool} {k : HostKey} (hown : own.map .enigo = some k) :
    (playOwn own down p).pressed k = down := by
  obtain ⟨key, rfl, rfl⟩ := Option.map_eq_some_iff.mp hown
  cases down <;> simp [playOwn, KeyStates.press, KeyStates.release]

/-- Every other key stays as it was. -/
theorem pressed_playOwn_of_ne {down : Bool} {k : HostKey} (hown : own.map .enigo ≠ some k) :
    (playOwn own down p).pressed k = p.pressed k := by
  cases own with
  | none => rfl
  | some key =>
    have hne : k ≠ .enigo key := fun heq => hown (congrArg some heq.symm)
    cases down <;> simp [playOwn, KeyStates.press, KeyStates.release, hne]

/-- Every other lock stays as it was. -/
theorem toggled_playOwn_of_ne {down : Bool} {k : HostKey} (hown : own.map .enigo ≠ some k) :
    (playOwn own down p).toggled k = p.toggled k := by
  cases own with
  | none => rfl
  | some key =>
    have hne : k ≠ .enigo key := fun heq => hown (congrArg some heq.symm)
    cases down <;> simp [playOwn, KeyStates.press, KeyStates.release, hne]

/-- A lock is not the own key, if that is another key. -/
theorem map_ne_of_lock (hcaps : own ≠ some .capsLock) (hnum : own ≠ some .numLock) {k : Key}
    (hlock : isLockKey k = true) : own.map HostKey.enigo ≠ some (.enigo k) := by
  intro hown
  obtain ⟨key, rfl, heq⟩ := Option.map_eq_some_iff.mp hown
  obtain rfl : key = k := by simpa using heq
  rcases isLockKey_iff.mp hlock with rfl | rfl
  · exact hcaps rfl
  · exact hnum rfl

/-- **A release** of the own key, between the clicks of a handler. -/
theorem temporary_release_iff :
    Temporary p (Keyboard.lockClicks c n (playOwn own false (Keyboard.lockClicks c n p))) ∅ own
        false ↔
      ∀ k, clicked c n k = true → own.map .enigo ≠ some k → p.pressed k = false := by
  constructor
  · intro h k hclicked hown
    have hpressed := h.pressed k
    simpa [pressed_lockClicks, hclicked, hown] using hpressed
  · intro h
    refine ⟨fun k => ?_, fun hcaps hnum k hlock => ?_⟩
    · by_cases hown : own.map .enigo = some k
      · simp [pressed_lockClicks, pressed_playOwn_of_own hown, hown]
      · rw [pressed_lockClicks, pressed_playOwn_of_ne hown, pressed_lockClicks]
        have hk := h k
        cases hclicked : clicked c n k with
        | true => simp [hown, hk hclicked hown]
        | false => simp [hown]
    · have hown := map_ne_of_lock hcaps hnum hlock
      rw [toggled_lockClicks, toggled_playOwn_of_ne hown, pressed_playOwn_of_ne hown,
        toggled_lockClicks, pressed_lockClicks]
      have hk := h (.enigo k)
      cases hclicked : clicked c n (.enigo k) with
      | true => simp [hk hclicked hown]
      | false => simp

/-- What is down in the end was down before, and neither clicked nor released. -/
theorem pressed_of_released (hreleased : Released (Keyboard.lockClicks c n p) f released)
    (k : HostKey) :
    f.pressed k = true ↔ p.pressed k = true ∧ clicked c n k = false ∧ k ∉ released := by
  rw [hreleased.pressed, pressed_lockClicks, Bool.and_eq_true, Bool.not_eq_true', and_assoc]

/-- The pressed keys after a press with modifiers around it. -/
theorem pressed_around (k : HostKey) :
    (Keyboard.lockClicks c n ((playOwn own true (f.pressAll keys)).releaseAll keys)).pressed k =
      true ↔ (own.map .enigo = some k ∨ f.pressed k = true) ∧ k ∉ keys ∧
        clicked c n k = false := by
  rw [pressed_lockClicks, KeyStates.pressed_releaseAll]
  by_cases hown : own.map .enigo = some k
  · simp [pressed_playOwn_of_own hown, hown]
  · rw [pressed_playOwn_of_ne hown, KeyStates.pressed_pressAll]
    by_cases hmem : k ∈ keys <;> simp [hmem, hown]

/-- A lock key that no handler finds down is toggled if it is pressed as a modifier. -/
theorem toggled_around (hreleased : Released (Keyboard.lockClicks c n p) f released)
    {k : HostKey} (hown : own.map .enigo ≠ some k)
    (hclicked : clicked c n k = true → p.pressed k = false)
    (hup : k ∈ keys → f.pressed k = false) :
    (Keyboard.lockClicks c n ((playOwn own true (f.pressAll keys)).releaseAll keys)).toggled k =
      (p.toggled k ^^ decide (k ∈ keys)) := by
  have hf := pressed_of_released hreleased k
  rw [toggled_lockClicks, KeyStates.toggled_releaseAll, toggled_playOwn_of_ne hown,
    KeyStates.toggled_pressAll, KeyStates.pressed_releaseAll, pressed_playOwn_of_ne hown,
    KeyStates.pressed_pressAll, hreleased.toggled, toggled_lockClicks]
  by_cases hmem : k ∈ keys
  · have hdown := hup hmem
    cases hc : clicked c n k with
    | true => simp [hmem, hdown, hclicked hc]
    | false => simp [hmem, hdown]
  · cases hc : clicked c n k with
    | true =>
      have hdown : f.pressed k = false := by
        rw [← Bool.not_eq_true, hf, hclicked hc]
        simp
      simp [hmem, hdown, hclicked hc]
    | false => simp [hmem]

/-- The keys that are down after a press are the right ones if no key that is clicked, and none that
is pressed as a modifier, was down or is the event's own. -/
theorem pressed_around_iff (hreleased : Released (Keyboard.lockClicks c n p) f released) :
    (∀ k, (Keyboard.lockClicks c n ((playOwn own true (f.pressAll keys)).releaseAll keys)).pressed k
        = true ↔ own.map .enigo = some k ∧ true = true ∨
          own.map .enigo ≠ some k ∧ p.pressed k = true ∧ k ∉ released) ↔
      (∀ k, clicked c n k = true → own.map .enigo ≠ some k ∧ p.pressed k = false) ∧
        ∀ k ∈ keys, own.map .enigo ≠ some k ∧ f.pressed k = false := by
  have hf := pressed_of_released hreleased
  constructor
  · intro h
    have hown (k : HostKey) (hk : own.map .enigo = some k) :
        k ∉ keys ∧ clicked c n k = false :=
      ((pressed_around k).mp ((h k).mpr (Or.inl ⟨hk, rfl⟩))).2
    have hother (k : HostKey) (hk : own.map .enigo ≠ some k) (hdown : p.pressed k = true)
        (hnot : k ∉ released) : k ∉ keys ∧ clicked c n k = false :=
      ((pressed_around k).mp ((h k).mpr (Or.inr ⟨hk, hdown, hnot⟩))).2
    constructor
    · intro k hk
      have hne : own.map .enigo ≠ some k := by
        intro heq
        simp [(hown k heq).2] at hk
      refine ⟨hne, ?_⟩
      rw [← Bool.not_eq_true]
      intro hdown
      simp [(hother k hne hdown (not_released_of_clicked hreleased hk)).2] at hk
    · intro k hk
      have hne : own.map .enigo ≠ some k := fun heq => (hown k heq).1 hk
      refine ⟨hne, ?_⟩
      rw [← Bool.not_eq_true, hf]
      rintro ⟨hdown, -, hnot⟩
      exact (hother k hne hdown hnot).1 hk
  · rintro ⟨hclicked, hmem⟩ k
    have hfree (h : own.map .enigo = some k ∨ p.pressed k = true) : clicked c n k = false := by
      rw [← Bool.not_eq_true]
      intro hc
      rcases h with hown | hdown
      · exact (hclicked k hc).1 hown
      · simp [(hclicked k hc).2] at hdown
    rw [pressed_around]
    by_cases hown : own.map .enigo = some k
    · have hnot : k ∉ keys := fun hk => (hmem k hk).1 hown
      simp [hown, hnot, hfree (Or.inl hown)]
    · simp only [hown, false_or, false_and, hf, ne_eq, not_false_eq_true, true_and]
      constructor
      · rintro ⟨⟨hdown, -, hnot⟩, -, -⟩
        exact ⟨hdown, hnot⟩
      · rintro ⟨hdown, hnot⟩
        have hc := hfree (Or.inr hdown)
        refine ⟨⟨hdown, hc, hnot⟩, fun hk => ?_, hc⟩
        have hup := (hmem k hk).2
        rw [← Bool.not_eq_true, hf] at hup
        exact hup ⟨hdown, hc, hnot⟩

/-- **A press** of the own key with modifiers pressed around it. -/
theorem temporary_press_iff (hreleased : Released (Keyboard.lockClicks c n p) f released) :
    Temporary p (Keyboard.lockClicks c n ((playOwn own true (f.pressAll keys)).releaseAll keys))
        released own true ↔
      (∀ k, clicked c n k = true → own.map .enigo ≠ some k ∧ p.pressed k = false) ∧
        (∀ k ∈ keys, own.map .enigo ≠ some k ∧ f.pressed k = false) ∧
        (own ≠ some .capsLock → own ≠ some .numLock →
          ∀ k, isLockKey k = true → .enigo k ∉ keys) := by
  constructor
  · intro h
    obtain ⟨hclicked, hmem⟩ := (pressed_around_iff hreleased).mp h.pressed
    refine ⟨hclicked, hmem, fun hcaps hnum k hlock hk => ?_⟩
    have hown := map_ne_of_lock hcaps hnum hlock
    have htoggled := h.locks hcaps hnum k hlock
    rw [toggled_around hreleased hown (fun hc => (hclicked _ hc).2) fun _ => (hmem _ hk).2]
      at htoggled
    simp [hk] at htoggled
  · rintro ⟨hclicked, hmem, hlocks⟩
    refine ⟨(pressed_around_iff hreleased).mpr ⟨hclicked, hmem⟩, fun hcaps hnum k hlock => ?_⟩
    rw [toggled_around hreleased (map_ne_of_lock hcaps hnum hlock)
      (fun hc => (hclicked _ hc).2) fun hk => (hmem _ hk).2]
    simp [hlocks hcaps hnum k hlock]

/-- **A press** whose modifiers are not released. -/
theorem temporary_function_iff (hreleased : Released (Keyboard.lockClicks c n p) f released)
    (hkeys : ∀ k ∈ keys, clicked c n k = true → p.pressed k = true) :
    Temporary p (Keyboard.lockClicks c n (f.pressAll keys)) released none true ↔
      (∀ k, clicked c n k = true → p.pressed k = false) ∧
        ∀ k ∈ keys, f.pressed k = true := by
  have hf := pressed_of_released hreleased
  have hpressed (k : HostKey) :
      (Keyboard.lockClicks c n (f.pressAll keys)).pressed k = true ↔
        (f.pressed k = true ∨ k ∈ keys) ∧ clicked c n k = false := by
    rw [pressed_lockClicks, KeyStates.pressed_pressAll]
    simp
  constructor
  · intro h
    have hlaw (k : HostKey) : (f.pressed k = true ∨ k ∈ keys) ∧ clicked c n k = false ↔
        p.pressed k = true ∧ k ∉ released := by
      rw [← hpressed, h.pressed]
      simp
    have hclicked (k : HostKey) (hk : clicked c n k = true) : p.pressed k = false := by
      rw [← Bool.not_eq_true]
      intro hdown
      have hback := (hlaw k).mpr ⟨hdown, not_released_of_clicked hreleased hk⟩
      simp [hk] at hback
    refine ⟨hclicked, fun k hk => ?_⟩
    have hfree : clicked c n k = false := by
      rw [← Bool.not_eq_true]
      intro hc
      simpa [hclicked k hc] using hkeys k hk hc
    obtain ⟨hdown, hnot⟩ := (hlaw k).mp ⟨Or.inr hk, hfree⟩
    exact (hf k).mpr ⟨hdown, hfree, hnot⟩
  · rintro ⟨hclicked, hmem⟩
    refine ⟨fun k => ?_, fun _ _ k hlock => ?_⟩
    · have hdown : f.pressed k = true ∨ k ∈ keys ↔ f.pressed k = true :=
        ⟨fun h => h.elim id (hmem k), Or.inl⟩
      rw [hpressed, hdown, hf]
      cases hc : clicked c n k with
      | true => simp [hclicked k hc]
      | false => simp
    · have hdown := hmem (.enigo k)
      have hfk := hf (.enigo k)
      rw [toggled_lockClicks, KeyStates.toggled_pressAll, KeyStates.pressed_pressAll,
        hreleased.toggled, toggled_lockClicks]
      by_cases hk : .enigo k ∈ keys
      · have hc : clicked c n (.enigo k) = false := (hfk.mp (hdown hk)).2.1
        simp [hk, hdown hk, hc]
      · cases hc : clicked c n (.enigo k) with
        | true =>
          have hup : f.pressed (.enigo k) = false := by
            rw [← Bool.not_eq_true, hfk, hclicked _ hc]
            simp
          simp [hk, hup, hclicked _ hc]
        | false => simp [hk]

end

/-! ### Events that press modifiers -/

/-- What a peer sends. -/
inductive PeerInput where
  | key (e : KeyEvent)
  | mouse (e : MouseEvent)

namespace PeerInput

/-- A key event of the legacy mode, or the press of a mouse button. -/
def PressesModifiers : PeerInput → Prop
  | key e => e.mode = .legacy
  | mouse e => e.evtType = MOUSE_TYPE_DOWN

/-- What the host does with it. -/
def handle (host : Outside) (answers : Answers) (conn : ℤ) : PeerInput → Mouse → Mouse
  | key e, m => { m with keyboard := m.keyboard.handleKey host answers e }
  | mouse e, m => m.handleMouse host answers conn e

/-- The key that the peer means. -/
def own : PeerInput → Option Key
  | key e => e.ownKey
  | mouse _ => none

/-- Whether it goes down. -/
def down : PeerInput → Bool
  | key e => e.down
  | mouse _ => true

/-- The keys that `fix_modifiers` releases for the event. -/
def released (host : Outside) (answers : Answers) : PeerInput → Keyboard → Set HostKey
  | key e, s =>
    let made := (s.lockModeHandler host answers e).1
    if e.down then
      {k | .up k ∈ playedBetween made (made.releaseUnpressedModifiers host answers e)}
    else ∅
  | mouse e, s => {k | .up k ∈ playedBetween s (s.fixModifiers host answers e.modifiers 0)}

end PeerInput

/-- The modifiers that are to be pressed for a key event. -/
def Wants (host : Outside) (p : KeyStates HostKey) (s : Keyboard) (e : KeyEvent) : Key → Prop :=
  Wanted host.platform (Keyboard.skipsAlt host s) (Keyboard.matched host p e)
    (Keyboard.modifierKeys e.modifiers)

/-- The modifiers that are to be pressed for the press of a mouse button. -/
def Mouse.Wants (host : Outside) (p : KeyStates HostKey) (e : MouseEvent) : Key → Prop :=
  Wanted host.platform isLockKey (Mouse.matched host p e) (Keyboard.modifierKeys e.modifiers)

/-- The modifiers of a key event can be pressed for it only. -/
structure CarefulKey (host : Outside) (p : KeyStates HostKey) (s : Keyboard) (e : KeyEvent) :
    Prop where
  /-- A lock key that is clicked is not down, and not the key that the event presses. -/
  clicks : ∀ k, clicked (Keyboard.clicksCapsLock host p e) (Keyboard.clicksNumLock host p e) k →
    if e.ownKey.map .enigo = some k then e.down = false else p.pressed k = false
  /-- For Ctrl+Alt+Del and the lock screen there is nothing to press. -/
  function : e.down = true → Keyboard.isFunctionKey (Keyboard.getControlKeyValue e) = true →
    ∀ k, Wants host p s e k →
      (Keyboard.matched host p e).pressed (.enigo k) = true
  /-- What is to be pressed is up, -/
  up : e.down = true → Keyboard.isFunctionKey (Keyboard.getControlKeyValue e) = false →
    ∀ k, Wants host p s e k →
      (Keyboard.matched host p e).pressed (.enigo k) = false
  /-- no lock key, unless the event is about one, -/
  lock : e.down = true → Keyboard.isFunctionKey (Keyboard.getControlKeyValue e) = false →
    e.ownKey ≠ some .capsLock → e.ownKey ≠ some .numLock → ∀ k, isLockKey k = true →
      ¬ Wants host p s e k
  /-- and not the event's own key, unless the key of the other side is pressed for it. -/
  own : e.down = true → Keyboard.isFunctionKey (Keyboard.getControlKeyValue e) = false →
    ∀ k, e.ownKey = some k →
      Wants host p s e k →
      ∃ other, sibling k = some other ∧
        other ∈ (Keyboard.modifierKeys e.modifiers).takeWhile (· ≠ k) ∧
        Keyboard.skipsAlt host s other = false

/-- The modifiers of an event can be pressed for it only. -/
def PeerInput.Careful (host : Outside) (p : KeyStates HostKey) (s : Keyboard) : PeerInput → Prop
  | key e => CarefulKey host p s e
  | mouse e => ∀ k, Mouse.Wants host p e k →
      (Mouse.matched host p e).pressed (.enigo k) = false

section

variable {host : Outside} {p : KeyStates HostKey} {n : ℕ}

/-- `fix_modifiers` releases what it plays, and no lock key. -/
theorem released_fixModifiers (host : Outside) (answers : Answers) (modifiers : List ℤ) (ck : ℤ)
    (s : Keyboard) :
    Released (s.keys p) ((s.fixModifiers host answers modifiers ck).keys p)
      {k | .up k ∈ playedBetween s (s.fixModifiers host answers modifiers ck)} := by
  obtain ⟨released, hstrokes, hmem⟩ := Keyboard.strokes_fixModifiers host answers modifiers ck s
  have hplayed : playedBetween s (s.fixModifiers host answers modifiers ck) = released.map .up := by
    rw [playedBetween, hstrokes, List.length_append, Nat.add_sub_cancel]
    exact List.take_left
  have hset : {k | Stroke.up k ∈ playedBetween s (s.fixModifiers host answers modifiers ck)} =
      {k | k ∈ released} := by
    rw [hplayed]
    simp
  rw [hset, Keyboard.keys, Keyboard.keys, hstrokes]
  refine ⟨fun k => ?_, KeyStates.toggled_after_ups p released s.strokes, fun k hlock hk => ?_⟩
  · rw [KeyStates.pressed_after_ups]
    simp
  · have hline := hmem _ hk
    rcases isLockKey_iff.mp hlock with rfl | rfl <;> simp [Keyboard.fixedModifiers] at hline

/-- **The press of a mouse button**. -/
theorem Mouse.temporary_iff (hplatform : host.platform ≠ .macos) {e : MouseEvent}
    (hdown : e.evtType = MOUSE_TYPE_DOWN) {m : Mouse} (hrunning : m.keyboard.exiting = false)
    (conn : ℤ) :
    let answers := honest host.platform p n
    Temporary (m.keyboard.keys p) ((m.handleMouse host answers conn e).keyboard.keys p)
        ((PeerInput.mouse e).released host answers m.keyboard) none true ↔
      (PeerInput.mouse e).Careful host (m.keyboard.keys p) m.keyboard := by
  intro answers
  have hkeys : (m.handleMouse host answers conn e).keyboard.keys p = _ :=
    keys_handleMouse hplatform hdown hrunning conn
  have hreleased := released_fixModifiers (p := p) host answers e.modifiers 0 m.keyboard
  rw [Keyboard.keys_fixModifiers hplatform] at hreleased
  have hpress : Temporary (m.keyboard.keys p) (Keyboard.lockClicks false false
      ((playOwn none true ((matched host (m.keyboard.keys p) e).pressAll
        (injectedFor host (m.keyboard.keys p) e))).releaseAll
          (injectedFor host (m.keyboard.keys p) e))) _ none true ↔ _ :=
    temporary_press_iff hreleased
  rw [hkeys]
  refine hpress.trans (Iff.trans ?_ (injected_up_iff hplatform))
  constructor
  · rintro ⟨-, hup, -⟩ k hmem
    exact (hup _ (List.mem_map_of_mem hmem)).2
  · intro hup
    refine ⟨fun k hk => by simp [clicked] at hk, fun k hk => ?_, fun _ _ k hlock hk => ?_⟩
    · obtain ⟨key, hmem, rfl⟩ := List.mem_map.mp hk
      exact ⟨by simp, hup key hmem⟩
    · obtain ⟨key, hmem, heq⟩ := List.mem_map.mp hk
      obtain rfl : key = k := by simpa using heq
      have hskip := ((mem_injected hplatform).mp hmem).wanted.unskipped
      simp [hlock] at hskip

/-- A lock key is pressed whenever it is wanted. -/
theorem lock_mem_injectedFor (hplatform : host.platform ≠ .macos) {s : Keyboard} {e : KeyEvent}
    {k : Key} (hlock : isLockKey k = true) :
    .enigo k ∈ Keyboard.injectedFor host p s e ↔ Wants host p s e k := by
  rw [Keyboard.injectedFor, List.mem_map_of_injective (fun _ _ h => by simpa using h),
    mem_injected hplatform, Wants]
  refine ⟨fun h => h.wanted, fun h => ⟨h, fun other hother => ?_⟩⟩
  simp [sibling_of_isLockKey hlock] at hother

/-- The own key of an event is pressed for it when it is wanted first. -/
theorem own_not_mem_injectedFor (hplatform : host.platform ≠ .macos) {s : Keyboard} {e : KeyEvent}
    {k : Key} :
    .enigo k ∉ Keyboard.injectedFor host p s e ↔
      (Wants host p s e k → ∃ other, sibling k = some other ∧
        other ∈ (Keyboard.modifierKeys e.modifiers).takeWhile (· ≠ k) ∧
        Keyboard.skipsAlt host s other = false) := by
  rw [Keyboard.injectedFor, List.mem_map_of_injective (fun _ _ h => by simpa using h),
    mem_injected hplatform, Wants]
  constructor
  · intro hnot hwants
    by_contra! hnone
    refine hnot ⟨hwants, fun other hother hbefore => ?_⟩
    rw [← Bool.not_eq_false]
    exact hnone other hother hbefore
  · intro h hfirst
    obtain ⟨other, hother, hbefore, hno⟩ := h hfirst.wanted
    simp [hfirst.first other hother hbefore] at hno

/-- **The release of a key**. -/
theorem temporary_up_iff (hplatform : host.platform ≠ .macos) {e : KeyEvent}
    (hmode : e.mode = .legacy) (hdown : e.down = false) {s : Keyboard}
    (hrunning : s.exiting = false) :
    let answers := honest host.platform p n
    Temporary (s.keys p) ((s.handleKey host answers e).keys p)
        ((PeerInput.key e).released host answers s) e.ownKey e.down ↔
      CarefulKey host (s.keys p) s e := by
  intro answers
  have hreleased : (PeerInput.key e).released host answers s = ∅ := by
    rw [PeerInput.released, hdown]
    rfl
  rw [Keyboard.keys_handleKey hplatform hmode hrunning, hreleased, Keyboard.played, hdown,
    if_neg Bool.false_ne_true]
  refine temporary_release_iff.trans ?_
  constructor
  · intro h
    refine ⟨fun k hk => ?_, ?_, ?_, ?_, ?_⟩
    · split
      · exact hdown
      · next hown => exact h k hk hown
    all_goals
      intro hpress
      simp [hdown] at hpress
  · intro h k hk hown
    have hclick := h.clicks k hk
    rwa [if_neg hown] at hclick

/-- `fix_modifiers` leaves the keys for which the modifiers are pressed. -/
theorem released_key (hplatform : host.platform ≠ .macos) {e : KeyEvent} (hmode : e.mode = .legacy)
    (hdown : e.down = true) (s : Keyboard) :
    Released (Keyboard.lockClicks (Keyboard.clicksCapsLock host (s.keys p) e)
        (Keyboard.clicksNumLock host (s.keys p) e) (s.keys p))
      (Keyboard.matched host (s.keys p) e)
      ((PeerInput.key e).released host (honest host.platform p n) s) := by
  have hmade := (Keyboard.syncsLocks_lockModeHandler (p := p) (n := n) hplatform hmode s).1
  have hreleased := released_fixModifiers (p := p) host (honest host.platform p n)
    e.modifiers (Keyboard.getControlKeyValue e)
    (s.lockModeHandler host (honest host.platform p n) e).1
  rw [Keyboard.keys_fixModifiers hplatform, hmade] at hreleased
  rw [PeerInput.released, if_pos hdown]
  exact hreleased

/-- **The press of a key**. -/
theorem temporary_down_iff (hplatform : host.platform ≠ .macos) {e : KeyEvent}
    (hmode : e.mode = .legacy) (hdown : e.down = true)
    (hkey : Keyboard.isFunctionKey (Keyboard.getControlKeyValue e) = false) {s : Keyboard}
    (hrunning : s.exiting = false) :
    let answers := honest host.platform p n
    Temporary (s.keys p) ((s.handleKey host answers e).keys p)
        ((PeerInput.key e).released host answers s) e.ownKey e.down ↔
      CarefulKey host (s.keys p) s e := by
  intro answers
  rw [Keyboard.keys_handleKey hplatform hmode hrunning, Keyboard.played, hdown, if_pos rfl, hkey,
    if_neg Bool.false_ne_true]
  refine (temporary_press_iff (released_key hplatform hmode hdown s)).trans ?_
  constructor
  · rintro ⟨hclicks, hmem, hlock⟩
    refine ⟨fun k hk => ?_, fun _ hfunction => ?_, fun _ _ => ?_, fun _ _ hcaps hnum k hk => ?_,
      fun _ _ k hown => ?_⟩
    · rw [if_neg (hclicks k hk).1]
      exact (hclicks k hk).2
    · simp [hkey] at hfunction
    · exact (injected_up_iff hplatform).mp fun k hk => (hmem _ (List.mem_map_of_mem hk)).2
    · rw [← lock_mem_injectedFor hplatform hk]
      exact hlock hcaps hnum k hk
    · exact (own_not_mem_injectedFor hplatform).mp fun hk =>
        (hmem _ hk).1 (congrArg (Option.map HostKey.enigo) hown)
  · intro h
    refine ⟨fun k hk => ?_, fun k hk => ?_, fun hcaps hnum k hk => ?_⟩
    · have hclick := h.clicks k hk
      split at hclick
      · simp [hdown] at hclick
      · next hown => exact ⟨hown, hclick⟩
    · obtain ⟨key, hkeyMem, rfl⟩ := List.mem_map.mp hk
      refine ⟨fun hown => ?_, (injected_up_iff hplatform).mpr (h.up hdown hkey) key hkeyMem⟩
      obtain ⟨own, hself, heq⟩ := Option.map_eq_some_iff.mp hown
      obtain rfl : own = key := by simpa using heq
      exact (own_not_mem_injectedFor hplatform).mpr (h.own hdown hkey own hself) hk
    · rw [lock_mem_injectedFor hplatform hk]
      exact h.lock hdown hkey hcaps hnum k hk

/-- The modifier Caps Lock is in the event. -/
theorem isModifierEnabled_of_mem {e : KeyEvent}
    (hmem : Key.capsLock ∈ Keyboard.modifierKeys e.modifiers) :
    Keyboard.isModifierEnabled e .capsLock = true := by
  obtain ⟨ck, hck, hkey⟩ := List.mem_filterMap.mp hmem
  obtain ⟨entry, hfind, hentry⟩ := Option.map_eq_some_iff.mp hkey
  have hname : ∀ entry ∈ KEY_MAP, entry.2 = .capsLock → entry.1 = .capsLock := by decide
  have hcaps := hname entry (List.mem_of_find?_eq_some hfind) hentry
  have hvalue : entry.1.value = ck := by simpa using List.find?_some hfind
  rw [hcaps] at hvalue
  subst hvalue
  simpa [Keyboard.isModifierEnabled] using hck

/-- A function of the host is one of the two special control keys. -/
theorem union_of_isFunctionKey {e : KeyEvent}
    (hfunction : Keyboard.isFunctionKey (Keyboard.getControlKeyValue e) = true) :
    ∃ ck : ℤ, e.union = some (.controlKey ck) ∧ (ck = 100 ∨ ck = 101) := by
  rw [Keyboard.getControlKeyValue] at hfunction
  cases hunion : e.union with
  | none => simp [hunion, Keyboard.isFunctionKey, ControlKey.value] at hfunction
  | some union =>
    cases union with
    | controlKey ck =>
      refine ⟨ck, rfl, ?_⟩
      simpa [hunion, Keyboard.isFunctionKey, ControlKey.value] using hfunction
    | chr code => simp [hunion, Keyboard.isFunctionKey, ControlKey.value] at hfunction
    | unicode code => simp [hunion, Keyboard.isFunctionKey, ControlKey.value] at hfunction
    | seq sequence => simp [hunion, Keyboard.isFunctionKey, ControlKey.value] at hfunction

/-- For Ctrl+Alt+Del and the lock screen Num Lock is not clicked. -/
theorem clicksNumLock_of_isFunctionKey {e : KeyEvent} (hmode : e.mode = .legacy)
    (hfunction : Keyboard.isFunctionKey (Keyboard.getControlKeyValue e) = true) :
    Keyboard.clicksNumLock host p e = false := by
  obtain ⟨ck, hunion, hck⟩ := union_of_isFunctionKey hfunction
  have hnumpad : Keyboard.isNumpad e = false := by
    rw [Keyboard.isNumpad, hunion]
    rcases hck with rfl | rfl <;> decide
  have hdisable : Keyboard.shouldDisableNumlock e = false := by
    rw [Keyboard.shouldDisableNumlock, hunion, hmode]
    rcases hck with rfl | rfl <;> decide
  simp [Keyboard.clicksNumLock, hnumpad, hdisable]

/-- Caps Lock that a click turns on is not pressed as a modifier. -/
theorem pressed_of_clicked_injected (hplatform : host.platform ≠ .macos) {e : KeyEvent}
    (hmode : e.mode = .legacy) {s : Keyboard}
    (hfunction : Keyboard.isFunctionKey (Keyboard.getControlKeyValue e) = true)
    {k : HostKey} (hmem : k ∈ Keyboard.injectedFor host p s e)
    (hclicked : clicked (Keyboard.clicksCapsLock host p e) (Keyboard.clicksNumLock host p e) k) :
    p.pressed k = true := by
  have hself := hclicked
  rw [clicksNumLock_of_isFunctionKey hmode hfunction, clicked, Bool.false_and, Bool.or_false,
    Bool.and_eq_true, decide_eq_true_eq] at hclicked
  obtain ⟨hcaps, rfl⟩ := hclicked
  have hwants := (lock_mem_injectedFor hplatform rfl).mp hmem
  have hup := hwants.up
  rw [modifierDown_of_isLockKey hplatform rfl, Keyboard.matched, fixed, Keyboard.locked,
    toggled_lockClicks, hself] at hup
  rw [Keyboard.clicksCapsLock, isModifierEnabled_of_mem hwants.listed, Bool.and_eq_true] at hcaps
  by_contra hpressed
  rw [Bool.not_eq_true] at hpressed
  rw [hpressed] at hup
  have htoggled : p.toggled (.enigo .capsLock) = true := by simpa using hup
  simp [htoggled] at hcaps

/-- **Ctrl+Alt+Del and the lock screen**. -/
theorem temporary_function_key_iff (hplatform : host.platform ≠ .macos) {e : KeyEvent}
    (hmode : e.mode = .legacy) (hdown : e.down = true)
    (hfunction : Keyboard.isFunctionKey (Keyboard.getControlKeyValue e) = true) {s : Keyboard}
    (hrunning : s.exiting = false) :
    let answers := honest host.platform p n
    Temporary (s.keys p) ((s.handleKey host answers e).keys p)
        ((PeerInput.key e).released host answers s) e.ownKey e.down ↔
      CarefulKey host (s.keys p) s e := by
  intro answers
  have hnone := Keyboard.ownKey_of_isFunctionKey hfunction
  rw [Keyboard.keys_handleKey hplatform hmode hrunning, Keyboard.played, hdown, if_pos rfl,
    hfunction, if_pos rfl, hnone]
  refine (temporary_function_iff (released_key hplatform hmode hdown s) fun k hk hc =>
    pressed_of_clicked_injected hplatform hmode hfunction hk hc).trans ?_
  constructor
  · rintro ⟨hclicks, hmem⟩
    refine ⟨fun k hk => ?_, fun _ _ => ?_, ?_, ?_, ?_⟩
    · rw [if_neg (by simp [hnone])]
      exact hclicks k hk
    · exact (injected_down_iff hplatform).mp fun k hk => hmem _ (List.mem_map_of_mem hk)
    all_goals
      intro _ hkey
      simp [hfunction] at hkey
  · intro h
    refine ⟨fun k hk => ?_, fun k hk => ?_⟩
    · have hclick := h.clicks k hk
      rwa [if_neg (by simp [hnone])] at hclick
    · obtain ⟨key, hkeyMem, rfl⟩ := List.mem_map.mp hk
      exact (injected_down_iff hplatform).mpr (h.function hdown hfunction) key hkeyMem

end

/-- **Injected modifiers are temporary** exactly for careful events. -/
theorem temporary_iff_careful (host : Outside) (hplatform : host.platform ≠ .macos)
    (p : KeyStates HostKey) (now : ℕ) (conn : ℤ) {i : PeerInput} (hpresses : i.PressesModifiers)
    {m : Mouse} (hrunning : m.keyboard.exiting = false) :
    let answers := honest host.platform p now
    Temporary (m.keyboard.keys p) ((i.handle host answers conn m).keyboard.keys p)
        (i.released host answers m.keyboard) i.own i.down ↔
      i.Careful host (m.keyboard.keys p) m.keyboard := by
  cases i with
  | mouse e => exact Mouse.temporary_iff hplatform hpresses hrunning conn
  | key e =>
    cases hdown : e.down with
    | false => exact temporary_up_iff hplatform hpresses hdown hrunning
    | true =>
      cases hfunction : Keyboard.isFunctionKey (Keyboard.getControlKeyValue e) with
      | false => exact temporary_down_iff hplatform hpresses hdown hfunction hrunning
      | true => exact temporary_function_key_iff hplatform hpresses hdown hfunction hrunning

/-! ### Ctrl+Alt+Del and Ctrl+C on X11 -/

/-- No key is down and no lock key is on. -/
def allUp : KeyStates HostKey := ⟨fun _ => false, fun _ => false⟩

/-- Ctrl+Alt+Del with its modifiers. -/
def ctrlAltDelEvent : KeyEvent where
  down := true
  union := some (.controlKey ControlKey.ctrlAltDel.value)
  modifiers := [ControlKey.control.value, ControlKey.alt.value]
  mode := .legacy

/-- Control stays pressed. -/
theorem not_temporary_ctrlAltDel :
    let answers := honest .linux allUp 0
    ¬ Temporary (({} : Mouse).keyboard.keys allUp)
        (((PeerInput.key ctrlAltDelEvent).handle x11Host answers 0 {}).keyboard.keys allUp)
        ((PeerInput.key ctrlAltDelEvent).released x11Host answers {})
        (PeerInput.key ctrlAltDelEvent).own (PeerInput.key ctrlAltDelEvent).down := by
  intro answers h
  rcases (h.pressed (.enigo .control)).mp (by decide) with ⟨hown, -⟩ | ⟨-, hpressed, -⟩
  · exact absurd hown (by decide)
  · exact absurd hpressed (by decide)

/-- The letter `c` with Control. -/
def ctrlCEvent : KeyEvent where
  down := true
  union := some (.chr 99)
  modifiers := [ControlKey.control.value]
  mode := .legacy

/-- The modifiers of a shortcut are down only while its key is played. -/
theorem temporary_iff_careful_ctrlC :
    let answers := honest .linux allUp 0
    Temporary (({} : Mouse).keyboard.keys allUp)
      (((PeerInput.key ctrlCEvent).handle x11Host answers 0 {}).keyboard.keys allUp)
      ((PeerInput.key ctrlCEvent).released x11Host answers {})
      (PeerInput.key ctrlCEvent).own (PeerInput.key ctrlCEvent).down := by
  refine (temporary_iff_careful x11Host (by decide) allUp 0 0
    (show (PeerInput.key ctrlCEvent).PressesModifiers from rfl) rfl).mpr ?_
  change CarefulKey x11Host allUp {} ctrlCEvent
  have hcaps : Keyboard.clicksCapsLock x11Host allUp ctrlCEvent = false := by decide
  have hnum : Keyboard.clicksNumLock x11Host allUp ctrlCEvent = false := by decide
  have hkeys : Keyboard.modifierKeys ctrlCEvent.modifiers = [.control] := by decide
  have hwants (k : Key) (h : Wants x11Host allUp {} ctrlCEvent k) : k = .control := by
    simpa [hkeys] using h.listed
  refine ⟨fun k hk => ?_, fun _ hfunction => ?_, fun _ _ k hk => ?_, fun _ _ _ _ k hlock hk => ?_,
    fun _ _ k hown hk => ?_⟩
  · simp [hcaps, hnum, clicked] at hk
  · exact absurd hfunction (by decide)
  · rw [hwants k hk]
    decide
  · rw [hwants k hk] at hlock
    exact absurd hlock (by decide)
  · rw [hwants k hk] at hown
    exact absurd hown (by decide)

end RdWeb.Host.InputService
