import RdWeb.Lib.Strokes
import Mathlib.Data.Bool.Basic

/-!
# The keys of a keyboard

Which keys of a keyboard are down and which are toggled, as lock keys are. A key that goes down
toggles; pressing a key that is down changes nothing.
-/

/-- Which keys are down, and which locks are on. -/
@[ext]
structure KeyStates (Key : Type*) where
  pressed : Key → Bool
  toggled : Key → Bool

namespace KeyStates

variable {Key : Type*} [DecidableEq Key]

/-- A key goes down, and its lock toggles if the key was up. -/
def press (p : KeyStates Key) (k : Key) : KeyStates Key where
  pressed k' := p.pressed k' || decide (k' = k)
  toggled k' := p.toggled k' ^^ (decide (k' = k) && !p.pressed k')

/-- A key goes up, and its lock stays. -/
def release (p : KeyStates Key) (k : Key) : KeyStates Key where
  pressed k' := p.pressed k' && decide (k' ≠ k)
  toggled := p.toggled

/-- A press and the release after it. -/
def click (p : KeyStates Key) (k : Key) : KeyStates Key := (p.press k).release k

/-- A click that is made under a condition. -/
def clickIf (p : KeyStates Key) (c : Bool) (k : Key) : KeyStates Key :=
  if c then p.click k else p

/-- The keys go down, from the first to the last. -/
def pressAll (p : KeyStates Key) (keys : List Key) : KeyStates Key := keys.foldl press p

/-- The keys go up, from the first to the last. -/
def releaseAll (p : KeyStates Key) (keys : List Key) : KeyStates Key := keys.foldl release p

/-- The keys after a log of strokes, newest first. -/
def after (p : KeyStates Key) : List (Stroke Key) → KeyStates Key
  | [] => p
  | .down k :: log => (after p log).press k
  | .up k :: log => (after p log).release k

section

variable (p : KeyStates Key) (keys : List Key) (c : Bool) (k k' : Key)

/-- The latest stroke of the log acts last, here a press. -/
@[simp] theorem after_down (log : List (Stroke Key)) :
    p.after (.down k :: log) = (p.after log).press k := rfl

/-- The latest stroke of the log acts last, here a release. -/
@[simp] theorem after_up (log : List (Stroke Key)) :
    p.after (.up k :: log) = (p.after log).release k := rfl

/-- Releases at the end of a log. -/
theorem pressed_after_ups (log : List (Stroke Key)) :
    (p.after (keys.map .up ++ log)).pressed k = ((p.after log).pressed k && decide (k ∉ keys)) := by
  induction keys with
  | nil => simp
  | cons k' keys ih =>
    simp only [List.map_cons, List.cons_append, after_up, release, ih, List.mem_cons, not_or]
    cases (p.after log).pressed k <;> simp [Bool.and_comm]

/-- Releases leave every lock as it was. -/
theorem toggled_after_ups (log : List (Stroke Key)) :
    (p.after (keys.map .up ++ log)).toggled = (p.after log).toggled := by
  induction keys with
  | nil => rfl
  | cons k' keys ih => exact ih

/-- Keys pressed one after the other. -/
theorem pressed_pressAll :
    (p.pressAll keys).pressed k = (p.pressed k || decide (k ∈ keys)) := by
  induction keys generalizing p with
  | nil => simp [pressAll]
  | cons k' keys ih =>
    have hcons : p.pressAll (k' :: keys) = (p.press k').pressAll keys := rfl
    rw [hcons, ih]
    simp [press, Bool.or_assoc]

/-- A key toggles when it is pressed first. -/
theorem toggled_pressAll :
    (p.pressAll keys).toggled k = (p.toggled k ^^ (decide (k ∈ keys) && !p.pressed k)) := by
  induction keys generalizing p with
  | nil => simp [pressAll]
  | cons k' keys ih =>
    have hcons : p.pressAll (k' :: keys) = (p.press k').pressAll keys := rfl
    rw [hcons, ih]
    by_cases heq : k = k'
    · subst heq
      cases hpressed : p.pressed k <;> simp [press, hpressed]
    · cases hpressed : p.pressed k <;> simp [press, hpressed, heq]

/-- After the releases a key is down if it was down and is not among them. -/
theorem pressed_releaseAll :
    (p.releaseAll keys).pressed k = (p.pressed k && decide (k ∉ keys)) := by
  induction keys generalizing p with
  | nil => simp [releaseAll]
  | cons k' keys ih =>
    have hcons : p.releaseAll (k' :: keys) = (p.release k').releaseAll keys := rfl
    rw [hcons, ih]
    simp [release, Bool.and_assoc]

/-- Releases leave every lock as it was, in one step after another. -/
@[simp] theorem toggled_releaseAll : (p.releaseAll keys).toggled = p.toggled := by
  induction keys generalizing p with
  | nil => rfl
  | cons k' keys ih =>
    have hcons : p.releaseAll (k' :: keys) = (p.release k').releaseAll keys := rfl
    rw [hcons, ih]
    rfl

/-- A click leaves its own key up and every other key as it was. -/
theorem pressed_clickIf :
    (p.clickIf c k).pressed k' = (p.pressed k' && !(c && decide (k' = k))) := by
  cases c with
  | false => simp [clickIf]
  | true =>
    by_cases heq : k' = k
    · simp [clickIf, click, release, heq]
    · simp [clickIf, click, release, press, heq]

/-- A click toggles the lock of its own key, if that key was up. -/
theorem toggled_clickIf :
    (p.clickIf c k).toggled k' = (p.toggled k' ^^ (c && decide (k' = k) && !p.pressed k')) := by
  cases c with
  | false => simp [clickIf]
  | true => simp [clickIf, click, release, press]

end

end KeyStates
