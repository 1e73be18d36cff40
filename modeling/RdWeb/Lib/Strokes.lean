import Mathlib.Data.List.Basic
import Mathlib.Data.Set.Basic

/-!
# Strokes of keys

A log of key presses and key releases, newest first. A key is held while its last stroke is a
press. The rules below say which keys a stretch of a log can add to those held before it.
-/

/-- A key goes down or up. -/
inductive Stroke (Key : Type*) where
  | down (k : Key)
  | up (k : Key)
deriving DecidableEq

namespace Stroke

variable {Key : Type*}

/-- The last stroke of the key in the log is a press. -/
def Held : List (Stroke Key) → Key → Prop
  | [], _ => False
  | down k' :: log, k => k' = k ∨ Held log k
  | up k' :: log, k => k' ≠ k ∧ Held log k

/-- Nothing is held before the first stroke. -/
@[simp] theorem not_held_nil (k : Key) : ¬ Held [] k := id

/-- After a press its key is held, and what was held before. -/
@[simp] theorem held_down {log : List (Stroke Key)} {k k' : Key} :
    Held (down k' :: log) k ↔ k' = k ∨ Held log k := Iff.rfl

/-- After a release its key is no longer held. -/
@[simp] theorem held_up {log : List (Stroke Key)} {k k' : Key} :
    Held (up k' :: log) k ↔ k' ≠ k ∧ Held log k := Iff.rfl

/-- Whether a key is held is decided by the log. -/
instance decidableHeld [DecidableEq Key] :
    (log : List (Stroke Key)) → (k : Key) → Decidable (Held log k)
  | [], _ => .isFalse id
  | down k' :: log, k =>
    have := decidableHeld log k
    inferInstanceAs (Decidable (k' = k ∨ Held log k))
  | up k' :: log, k =>
    have := decidableHeld log k
    inferInstanceAs (Decidable (k' ≠ k ∧ Held log k))

/-- Releases end the hold of the keys released, and of no other key. -/
theorem held_ups {keys : List Key} {log : List (Stroke Key)} {k : Key} :
    Held (keys.map up ++ log) k ↔ k ∉ keys ∧ Held log k := by
  induction keys with
  | nil => simp
  | cons k' keys ih =>
    simp only [List.map_cons, List.cons_append, held_up, ih, List.mem_cons, not_or]
    rw [and_assoc, ne_comm]

/-- Between the two logs no key was pressed for good but these. -/
def Adds (keys : Set Key) (before after : List (Stroke Key)) : Prop :=
  ∀ k, Held after k → Held before k ∨ k ∈ keys

namespace Adds

variable {keys : Set Key} {log log' log'' : List (Stroke Key)}

/-- Adding nothing. -/
theorem refl (keys : Set Key) (log : List (Stroke Key)) : Adds keys log log :=
  fun _ => Or.inl

/-- Additions compose. -/
theorem trans (h : Adds keys log log') (h' : Adds keys log' log'') : Adds keys log log'' := by
  intro k hk
  rcases h' k hk with hk | hk
  · exact h k hk
  · exact Or.inr hk

/-- Fewer keys may be allowed. -/
theorem mono {keys' : Set Key} (hsub : keys ⊆ keys') (h : Adds keys log log') :
    Adds keys' log log' :=
  fun k hk => (h k hk).imp_right fun hmem => hsub hmem

/-- A release adds no held key. -/
theorem up (keys : Set Key) (k : Key) (log : List (Stroke Key)) :
    Adds keys log (Stroke.up k :: log) :=
  fun _ hk => Or.inl hk.2

/-- A press of an allowed key is allowed. -/
theorem down {k : Key} (hk : k ∈ keys) (log : List (Stroke Key)) :
    Adds keys log (Stroke.down k :: log) := by
  rintro k' (rfl | hheld)
  · exact Or.inr hk
  · exact Or.inl hheld

/-- A click leaves nothing held that was not. -/
theorem click (keys : Set Key) (k : Key) (log : List (Stroke Key)) :
    Adds keys log (Stroke.up k :: Stroke.down k :: log) := by
  rintro k' ⟨hne, heq | hheld⟩
  · exact absurd heq hne
  · exact Or.inl hheld

end Adds

end Stroke
