import RdWeb.Host.InputService
import RdWeb.Lib.KeyStates

/-!
# Modifiers pressed for an event

What enigo reports about the keys on Windows and X11, and which modifiers of an event are pressed
then: those that are not reported to be down, where the key of one side stands for both.
-/

namespace RdWeb.Host.InputService

/-- `get_key_state`: Windows reports every key, and of a lock key whether it is on; X11 reports the
mask of the modifiers, where both sides count. -/
def reported (platform : Platform) (p : KeyStates HostKey) (key : Key) : Bool :=
  match platform with
  | .windows =>
    if key ∈ [.capsLock, .numLock, .scroll] then p.toggled (.enigo key)
    else p.pressed (.enigo key)
  | .linux =>
    match key with
    | .shift => p.pressed (.enigo .shift) || p.pressed (.enigo .rightShift)
    | .control => p.pressed (.enigo .control) || p.pressed (.enigo .rightControl)
    | .alt => p.pressed (.enigo .alt) || p.pressed (.enigo .rightAlt)
    | .meta_ => p.pressed (.enigo .meta_) || p.pressed (.enigo .rWin)
    | .capsLock => p.toggled (.enigo .capsLock)
    | .numLock => p.toggled (.enigo .numLock)
    | _ => false
  | .macos => p.pressed (.enigo key)

/-- Enigo presses what it is given and reports the keys as they are then. -/
def honest (platform : Platform) (p : KeyStates HostKey) (now : ℕ) : Answers where
  keyState strokes key := reported platform (p.after strokes) key
  takesDown _ _ := true
  now := now

/-- The key of the other side. -/
def sibling : Key → Option Key
  | .shift => some .rightShift
  | .rightShift => some .shift
  | .control => some .rightControl
  | .rightControl => some .control
  | .alt => some .rightAlt
  | .rightAlt => some .alt
  | .meta_ => some .rWin
  | .rWin => some .meta_
  | _ => none

/-- `get_modifier_state`. -/
def modifierDown (platform : Platform) (p : KeyStates HostKey) (key : Key) : Bool :=
  match sibling key with
  | some other => p.pressed (.enigo key) || p.pressed (.enigo other)
  | none => reported platform p key

/-- The keys that are pressed of a list of modifiers; those to skip are not. -/
def injected (platform : Platform) (skip : Key → Bool) : KeyStates HostKey → List Key → List Key
  | _, [] => []
  | p, k :: keys =>
    if modifierDown platform p k || skip k then injected platform skip p keys
    else k :: injected platform skip (p.press (.enigo k)) keys

variable {platform : Platform}

/-- A key is the sibling of its sibling. -/
theorem sibling_symm {k other : Key} (h : sibling k = some other) : sibling other = some k := by
  cases k <;> simp only [sibling, Option.some.injEq, reduceCtorEq] at h <;> subst h <;> rfl

/-- Both sides are reported together. -/
theorem modifierDown_sibling {k other : Key} (h : sibling k = some other)
    (p : KeyStates HostKey) : modifierDown platform p other = modifierDown platform p k := by
  simp only [modifierDown, h, sibling_symm h, Bool.or_comm]

/-- A modifier that is down is reported. -/
theorem modifierDown_of_pressed {k other : Key} (h : sibling k = some other)
    {p : KeyStates HostKey} (hpressed : p.pressed (.enigo k) = true) :
    modifierDown platform p k = true := by
  simp [modifierDown, h, hpressed]

/-- The keys after what was played from `p`. -/
def Keyboard.keys (p : KeyStates HostKey) (s : Keyboard) : KeyStates HostKey := p.after s.strokes

/-- An honest system says whether a modifier is down, or its sibling. -/
theorem getModifierState_honest (hplatform : platform ≠ .macos) (p : KeyStates HostKey) (now : ℕ)
    (s : Keyboard) (key : Key) :
    Keyboard.getModifierState (honest platform p now) s key =
      modifierDown platform (s.keys p) key := by
  cases platform with
  | windows =>
    cases key <;> simp [Keyboard.getModifierState, Keyboard.keyState, honest, modifierDown,
      sibling, reported, Keyboard.keys]
  | linux =>
    cases key <;> simp [Keyboard.getModifierState, Keyboard.keyState, honest, modifierDown,
      sibling, reported, Bool.or_comm, Keyboard.keys]
  | macos => exact absurd rfl hplatform

/-! ### Lock keys -/

/-- A key that toggles a lock. -/
def isLockKey (k : Key) : Bool := decide (k = .capsLock) || decide (k = .numLock)

/-- Such a key is the caps lock or the num lock. -/
theorem isLockKey_iff {k : Key} : isLockKey k = true ↔ k = .capsLock ∨ k = .numLock := by
  simp [isLockKey]

/-- It has no sibling. -/
theorem sibling_of_isLockKey {k : Key} (h : isLockKey k = true) : sibling k = none := by
  rcases isLockKey_iff.mp h with rfl | rfl <;> rfl

/-- A lock key is reported by whether it is on. -/
theorem reported_of_isLockKey (hplatform : platform ≠ .macos) {k : Key} (h : isLockKey k = true)
    (p : KeyStates HostKey) : reported platform p k = p.toggled (.enigo k) := by
  cases platform with
  | macos => exact absurd rfl hplatform
  | windows => rcases isLockKey_iff.mp h with rfl | rfl <;> rfl
  | linux => rcases isLockKey_iff.mp h with rfl | rfl <;> rfl

/-- It counts as down while its lock is on. -/
theorem modifierDown_of_isLockKey (hplatform : platform ≠ .macos) {k : Key}
    (h : isLockKey k = true) (p : KeyStates HostKey) :
    modifierDown platform p k = p.toggled (.enigo k) := by
  simp only [modifierDown, sibling_of_isLockKey h, reported_of_isLockKey hplatform h]

/-- The system says whether its lock is on. -/
theorem keyState_of_isLockKey (hplatform : platform ≠ .macos) {k : Key} (h : isLockKey k = true)
    (p : KeyStates HostKey) (now : ℕ) (s : Keyboard) :
    Keyboard.keyState (honest platform p now) s k = (s.keys p).toggled (.enigo k) :=
  reported_of_isLockKey hplatform h (s.keys p)

/-! ### The keys that are pressed -/

/-- A key of no pair is reported by whether it is on, by whether it is down, or never. -/
theorem modifierDown_single {k : Key} (h : sibling k = none) (hplatform : platform ≠ .macos) :
    (∀ p, modifierDown platform p k = p.toggled (.enigo k)) ∨
      (∀ p, modifierDown platform p k = p.pressed (.enigo k)) ∨
      (∀ p, modifierDown platform p k = false) := by
  cases platform with
  | windows =>
    by_cases hlock : k ∈ [Key.capsLock, .numLock, .scroll]
    · exact Or.inl fun p => by simp only [modifierDown, h, reported, if_pos hlock]
    · exact Or.inr (Or.inl fun p => by simp only [modifierDown, h, reported, if_neg hlock])
  | linux =>
    cases k <;> simp [modifierDown, reported, sibling] at h ⊢
  | macos => exact absurd rfl hplatform

/-- A modifier of a list that is not reported to be down, and that is not skipped. -/
structure Wanted (platform : Platform) (skip : Key → Bool) (p : KeyStates HostKey)
    (keys : List Key) (k : Key) : Prop where
  listed : k ∈ keys
  up : modifierDown platform p k = false
  unskipped : skip k = false

/-- A modifier wanted, and no key of the other side stands before it that is pressed for it. -/
structure WantedFirst (platform : Platform) (skip : Key → Bool) (p : KeyStates HostKey)
    (keys : List Key) (k : Key) : Prop where
  wanted : Wanted platform skip p keys k
  first : ∀ other, sibling k = some other → other ∈ keys.takeWhile (· ≠ k) → skip other = true

section Injected

variable {skip : Key → Bool} {p : KeyStates HostKey} {keys : List Key} {k a : Key}

/-- No modifier is reported up because another one went down. -/
theorem modifierDown_press (hplatform : platform ≠ .macos)
    (ha : modifierDown platform p a = false) (hk : modifierDown platform p k = true) :
    modifierDown platform (p.press (.enigo a)) k = true := by
  have hpressed (x : Key) (hx : p.pressed (.enigo x) = true) :
      (p.press (.enigo a)).pressed (.enigo x) = true := by
    simp [KeyStates.press, hx]
  have hne : k ≠ a := by
    rintro rfl
    simp [hk] at ha
  cases hsibling : sibling k with
  | some other =>
    simp only [modifierDown, hsibling, Bool.or_eq_true] at hk ⊢
    exact hk.imp (hpressed k) (hpressed other)
  | none =>
    rcases modifierDown_single hsibling hplatform with h | h | h <;> rw [h] at hk ⊢
    · simp [KeyStates.press, hne, hk]
    · exact hpressed k hk
    · exact hk

/-- A press makes its own key and the key of the other side reported. -/
theorem modifierDown_press_new (hplatform : platform ≠ .macos)
    (hk : modifierDown platform p k = false)
    (hpress : modifierDown platform (p.press (.enigo a)) k = true) :
    a = k ∨ sibling k = some a := by
  by_contra! hnot
  have hpressed (x : Key) (hx : x ≠ a) :
      (p.press (.enigo a)).pressed (.enigo x) = p.pressed (.enigo x) := by
    simp [KeyStates.press, hx]
  have htoggled : (p.press (.enigo a)).toggled (.enigo k) = p.toggled (.enigo k) := by
    simp [KeyStates.press, hnot.1.symm]
  cases hsibling : sibling k with
  | some other =>
    have hother : other ≠ a := by
      rintro rfl
      exact hnot.2 hsibling
    simp only [modifierDown, hsibling, hpressed k hnot.1.symm, hpressed other hother] at hk hpress
    simp [hk] at hpress
  | none =>
    rcases modifierDown_single hsibling hplatform with h | h | h <;> rw [h] at hk hpress
    · simp [htoggled, hk] at hpress
    · simp [hpressed k hnot.1.symm, hk] at hpress
    · simp at hpress

/-- The sibling of a pressed key is reported with it. -/
theorem modifierDown_press_sibling (h : sibling k = some a) :
    modifierDown platform (p.press (.enigo a)) k = true := by
  simp [modifierDown, h, KeyStates.press]

/-- A modifier that is passed over does not count for the ones behind it. -/
theorem wantedFirst_cons_of_skip (hnot : (modifierDown platform p a || skip a) = true) :
    WantedFirst platform skip p (a :: keys) k ↔ WantedFirst platform skip p keys k := by
  by_cases heq : k = a
  · subst heq
    rw [Bool.or_eq_true] at hnot
    constructor
    · rintro ⟨⟨-, hup, hno⟩, -⟩
      simp [hup, hno] at hnot
    · rintro ⟨⟨-, hup, hno⟩, -⟩
      simp [hup, hno] at hnot
  · have htake := List.takeWhile_cons_of_pos (l := keys) (p := fun x => decide (x ≠ k))
      (by simpa using Ne.symm heq : decide (a ≠ k) = true)
    constructor
    · rintro ⟨⟨hmem, hup, hno⟩, hfirst⟩
      rw [htake] at hfirst
      exact ⟨⟨(List.mem_cons.mp hmem).resolve_left heq, hup, hno⟩, fun other hother hbefore =>
        hfirst other hother (List.mem_cons_of_mem _ hbefore)⟩
    · rintro ⟨⟨hmem, hup, hno⟩, hfirst⟩
      refine ⟨⟨List.mem_cons_of_mem _ hmem, hup, hno⟩, fun other hother hbefore => ?_⟩
      rw [htake] at hbefore
      rcases List.mem_cons.mp hbefore with rfl | hbefore
      · rw [← modifierDown_sibling hother] at hup
        simpa [hup] using hnot
      · exact hfirst other hother hbefore

/-- One that is pressed is wanted no more, nor is the key of its other side. -/
theorem wantedFirst_cons_of_press (hplatform : platform ≠ .macos)
    (hup : modifierDown platform p a = false) (hno : skip a = false) :
    WantedFirst platform skip p (a :: keys) k ↔
      k = a ∨ WantedFirst platform skip (p.press (.enigo a)) keys k := by
  by_cases heq : k = a
  · subst heq
    refine iff_of_true ⟨⟨List.mem_cons_self, hup, hno⟩, fun other _ hbefore => ?_⟩ (Or.inl rfl)
    simp at hbefore
  · have htake := List.takeWhile_cons_of_pos (l := keys) (p := fun x => decide (x ≠ k))
      (by simpa using Ne.symm heq : decide (a ≠ k) = true)
    constructor
    · rintro ⟨⟨hmem, hkup, hkno⟩, hfirst⟩
      rw [htake] at hfirst
      refine Or.inr ⟨⟨(List.mem_cons.mp hmem).resolve_left heq, ?_, hkno⟩,
        fun other hother hbefore => hfirst other hother (List.mem_cons_of_mem _ hbefore)⟩
      by_contra hdown
      rw [Bool.not_eq_false] at hdown
      rcases modifierDown_press_new hplatform hkup hdown with rfl | hother
      · exact heq rfl
      · simpa [hno] using hfirst a hother List.mem_cons_self
    · rintro (rfl | ⟨⟨hmem, hkup, hkno⟩, hfirst⟩)
      · exact absurd rfl heq
      have hbefore : modifierDown platform p k = false := by
        by_contra hdown
        rw [Bool.not_eq_false] at hdown
        simp [modifierDown_press hplatform hup hdown] at hkup
      refine ⟨⟨List.mem_cons_of_mem _ hmem, hbefore, hkno⟩, fun other hother hfound => ?_⟩
      rw [htake] at hfound
      rcases List.mem_cons.mp hfound with rfl | hfound
      · simp [modifierDown_press_sibling hother] at hkup
      · exact hfirst other hother hfound

/-- **What is pressed**: the modifiers wanted, except where the key of the other side is first. -/
theorem mem_injected (hplatform : platform ≠ .macos) :
    k ∈ injected platform skip p keys ↔ WantedFirst platform skip p keys k := by
  induction keys generalizing p with
  | nil =>
    refine iff_of_false (by simp [injected]) fun h => ?_
    have hlisted := h.wanted.listed
    simp at hlisted
  | cons a keys ih =>
    by_cases hnot : (modifierDown platform p a || skip a) = true
    · rw [injected, if_pos hnot, ih, wantedFirst_cons_of_skip hnot]
    · rw [injected, if_neg hnot, List.mem_cons, ih]
      rw [Bool.not_eq_true, Bool.or_eq_false_iff] at hnot
      exact (wantedFirst_cons_of_press hplatform hnot.1 hnot.2).symm

/-- Of a modifier wanted, its own key is pressed or the one of the other side. -/
theorem Wanted.exists_mem_injected (hplatform : platform ≠ .macos)
    (h : Wanted platform skip p keys k) :
    ∃ x ∈ injected platform skip p keys, x = k ∨ sibling k = some x := by
  obtain ⟨hmem, hup, hno⟩ := h
  induction keys generalizing p with
  | nil => simp at hmem
  | cons a keys ih =>
    by_cases hskip : (modifierDown platform p a || skip a) = true
    · rw [injected, if_pos hskip]
      refine ih ?_ hup
      rcases List.mem_cons.mp hmem with rfl | hmem
      · simp [hup, hno] at hskip
      · exact hmem
    · rw [injected, if_neg hskip]
      cases hafter : modifierDown platform (p.press (.enigo a)) k with
      | true =>
        exact ⟨a, List.mem_cons_self, modifierDown_press_new hplatform hup hafter⟩
      | false =>
        rcases List.mem_cons.mp hmem with rfl | hmem
        · exact ⟨k, List.mem_cons_self, Or.inl rfl⟩
        · obtain ⟨x, hx, hor⟩ := ih hmem hafter
          exact ⟨x, List.mem_cons_of_mem _ hx, hor⟩

/-- A key that is pressed is of no pair if it was down. -/
theorem sibling_none_of_injected (hplatform : platform ≠ .macos)
    (hmem : k ∈ injected platform skip p keys) (hpressed : p.pressed (.enigo k) = true) :
    sibling k = none := by
  cases hsibling : sibling k with
  | none => rfl
  | some other =>
    have hup := ((mem_injected hplatform).mp hmem).wanted.up
    simp [modifierDown_of_pressed hsibling hpressed] at hup

/-- No key that is pressed was down before, exactly if none wanted was. -/
theorem injected_up_iff (hplatform : platform ≠ .macos) :
    (∀ k ∈ injected platform skip p keys, p.pressed (.enigo k) = false) ↔
      ∀ k, Wanted platform skip p keys k → p.pressed (.enigo k) = false := by
  constructor
  · intro hall k hwanted
    rw [← Bool.not_eq_true]
    intro hpressed
    obtain ⟨x, hx, rfl | hsibling⟩ := hwanted.exists_mem_injected hplatform
    · simp [hall x hx] at hpressed
    · have hup := hwanted.up
      simp [modifierDown_of_pressed hsibling hpressed] at hup
  · intro hall k hmem
    exact hall k ((mem_injected hplatform).mp hmem).wanted

/-- Every key that is pressed was down before, exactly if every one wanted was. -/
theorem injected_down_iff (hplatform : platform ≠ .macos) :
    (∀ k ∈ injected platform skip p keys, p.pressed (.enigo k) = true) ↔
      ∀ k, Wanted platform skip p keys k → p.pressed (.enigo k) = true := by
  constructor
  · intro hall k hwanted
    obtain ⟨x, hx, rfl | hsibling⟩ := hwanted.exists_mem_injected hplatform
    · exact hall x hx
    · have hnone := sibling_none_of_injected hplatform hx (hall x hx)
      simp [sibling_symm hsibling] at hnone
  · intro hall k hmem
    exact hall k ((mem_injected hplatform).mp hmem).wanted

end Injected

end RdWeb.Host.InputService
