import Mathlib.Algebra.Order.Ring.Nat
import Mathlib.Data.Nat.Basic

/-!
# Ring buffers of interleaved samples

A ring buffer is a queue that never holds more than its capacity: what is pushed into a full one
overwrites the oldest items. Its content is framed when it consists of whole frames and every
item stands at its own place in its frame; dropping and adding whole frames keeps that.
-/

/-- A queue of at most `capacity` items. -/
@[ext] structure RingBuffer (α : Type*) where
  capacity : ℕ
  items : List α
  length_le : items.length ≤ capacity

namespace RingBuffer

variable {α : Type*}

/-- An empty buffer. -/
def new (capacity : ℕ) : RingBuffer α := ⟨capacity, [], Nat.zero_le capacity⟩

/-- Drop the `n` oldest items, or all of fewer. -/
def skip (b : RingBuffer α) (n : ℕ) : RingBuffer α where
  capacity := b.capacity
  items := b.items.drop n
  length_le := by
    have h := b.length_le
    rw [List.length_drop]
    omega

/-- Take the `n` oldest items, or all of fewer. -/
def popSlice (b : RingBuffer α) (n : ℕ) : List α × RingBuffer α := (b.items.take n, b.skip n)

/-- Add items and keep as many of the newest as the capacity allows. -/
def pushSliceOverwrite (b : RingBuffer α) (elems : List α) : RingBuffer α where
  capacity := b.capacity
  items := (b.items ++ elems).drop (b.items.length + elems.length - b.capacity)
  length_le := by
    rw [List.length_drop, List.length_append]
    omega

/-- Skipping keeps the capacity. -/
@[simp] theorem capacity_skip (b : RingBuffer α) (n : ℕ) : (b.skip n).capacity = b.capacity := rfl

/-- Skipping drops the oldest items. -/
@[simp] theorem items_skip (b : RingBuffer α) (n : ℕ) : (b.skip n).items = b.items.drop n := rfl

/-- Skipping nothing changes nothing. -/
theorem skip_zero (b : RingBuffer α) : b.skip 0 = b := rfl

/-- An overwriting push keeps the capacity. -/
@[simp] theorem capacity_pushSliceOverwrite (b : RingBuffer α) (elems : List α) :
    (b.pushSliceOverwrite elems).capacity = b.capacity := rfl

/-- An overwriting push keeps the newest items that fit. -/
theorem items_pushSliceOverwrite (b : RingBuffer α) (elems : List α) :
    (b.pushSliceOverwrite elems).items =
      (b.items ++ elems).drop (b.items.length + elems.length - b.capacity) := rfl

/-- An overwriting push fills the buffer up to its capacity. -/
theorem length_pushSliceOverwrite (b : RingBuffer α) (elems : List α) :
    (b.pushSliceOverwrite elems).items.length =
      min (b.items.length + elems.length) b.capacity := by
  rw [items_pushSliceOverwrite, List.length_drop, List.length_append]
  omega

/-- Dropping first what would be overwritten changes nothing. -/
theorem pushSliceOverwrite_skip {b : RingBuffer α} {elems : List α}
    (h : elems.length ≤ b.capacity) :
    (b.skip (b.items.length + elems.length - b.capacity)).pushSliceOverwrite elems =
      b.pushSliceOverwrite elems := by
  have hle := b.length_le
  refine RingBuffer.ext rfl ?_
  rw [items_pushSliceOverwrite, items_pushSliceOverwrite, items_skip, capacity_skip,
    ← List.drop_append_of_le_length (by omega), List.drop_drop, List.length_drop]
  congr 1
  omega

end RingBuffer

/-- Whole frames of `c` items, every item at its own place of its frame. -/
structure Framed {α : Type*} (place : α → ℕ) (c : ℕ) (l : List α) : Prop where
  dvd_length : c ∣ l.length
  place_eq : ∀ i x, l[i]? = some x → place x = i % c

namespace Framed

variable {α : Type*} {place : α → ℕ} {c c' : ℕ} {l l' : List α}

/-- The empty list is framed everywhere. -/
theorem nil : Framed place c [] := ⟨Nat.dvd_zero c, by simp⟩

/-- Dropping whole frames. -/
theorem drop (h : Framed place c l) {n : ℕ} (hn : c ∣ n) : Framed place c (l.drop n) := by
  constructor
  · rw [List.length_drop]
    exact Nat.dvd_sub h.dvd_length hn
  · intro i x hget
    rw [List.getElem?_drop] at hget
    obtain ⟨k, rfl⟩ := hn
    rw [h.place_eq _ x hget, Nat.mul_add_mod]

/-- Adding whole frames. -/
theorem append (h : Framed place c l) (h' : Framed place c l') : Framed place c (l ++ l') := by
  constructor
  · rw [List.length_append]
    exact Nat.dvd_add h.dvd_length h'.dvd_length
  · intro i x hget
    rcases Nat.lt_or_ge i l.length with hi | hi
    · rw [List.getElem?_append_left hi] at hget
      exact h.place_eq i x hget
    · rw [List.getElem?_append_right hi] at hget
      obtain ⟨k, hk⟩ := h.dvd_length
      rw [h'.place_eq _ x hget, hk, Nat.sub_mul_mod]
      omega

/-- What is left by a drop of other than whole frames is not framed. -/
theorem dvd_of_drop (h : Framed place c l) {n : ℕ} (hn : n ≤ l.length)
    (hdrop : Framed place c (l.drop n)) : c ∣ n := by
  have hrest := hdrop.dvd_length
  rw [List.length_drop] at hrest
  have hsub := Nat.dvd_sub h.dvd_length hrest
  rwa [Nat.sub_sub_self hn] at hsub

/-- The place after the frames of the smaller size is 0, and not that of the larger size. -/
theorem not_lt (h : Framed place c l) (h' : Framed place c' l) (hc : 0 < c) (hne : l ≠ []) :
    ¬ c < c' := by
  intro hlt
  have hlength : c' ≤ l.length := Nat.le_of_dvd (List.length_pos_iff.mpr hne) h'.dvd_length
  have hget : l[c]? = some l[c] := List.getElem?_eq_getElem (by omega)
  have hplace := (h.place_eq c _ hget).symm.trans (h'.place_eq c _ hget)
  rw [Nat.mod_self, Nat.mod_eq_of_lt hlt] at hplace
  omega

/-- Frames of two sizes are frames of one size. -/
theorem eq_of_ne_nil (h : Framed place c l) (h' : Framed place c' l) (hc : 0 < c) (hc' : 0 < c')
    (hne : l ≠ []) : c = c' :=
  Nat.le_antisymm (Nat.not_lt.mp (h'.not_lt h hc' hne)) (Nat.not_lt.mp (h.not_lt h' hc hne))

/-- A full ring buffer overwrites whole frames. -/
theorem pushSliceOverwrite {b : RingBuffer α} (hb : Framed place c b.items)
    (hl : Framed place c l) (hcapacity : c ∣ b.capacity) :
    Framed place c (b.pushSliceOverwrite l).items := by
  rw [RingBuffer.items_pushSliceOverwrite]
  exact (hb.append hl).drop
    (Nat.dvd_sub (Nat.dvd_add hb.dvd_length hl.dvd_length) hcapacity)

end Framed
