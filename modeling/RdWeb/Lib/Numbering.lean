import Mathlib.Data.List.Nodup
import Mathlib.Data.List.Range

/-!
# Numbered lists

A list whose entries are made from their positions, counted from one: the log of a
counter that is increased before each use. Two logs of one counter agree on what they
share, and an entry occurs in both exactly at the same position.
-/

/-- Entry number `n` of the list, counted from one, is `f n`. -/
def Numbered {Entry : Type*} (f : ℕ → Entry) (log : List Entry) : Prop :=
  log = (List.range' 1 log.length).map f

namespace Numbered

variable {Entry : Type*} {f : ℕ → Entry} {log other : List Entry}

/-- The empty log is numbered. -/
theorem nil : Numbered f [] := rfl

/-- A numbered list grows by the entry of the next number. -/
theorem concat (h : Numbered f log) : Numbered f (log ++ [f (log.length + 1)]) := by
  rw [Numbered, List.length_append, List.length_singleton, List.range'_concat, List.map_append,
    ← h]
  simp [Nat.add_comm]

/-- The entry of a numbered log at a place is that of its number. -/
theorem getElem? (h : Numbered f log) {i : ℕ} (hi : i < log.length) :
    log[i]? = some (f (i + 1)) := by
  rw [h, List.getElem?_map, List.getElem?_range' (by simpa using hi)]
  simp [Nat.add_comm]

/-- The first entries of a numbered list are numbered. -/
theorem initial (h : Numbered f log) (hinitial : other <+: log) : Numbered f other := by
  obtain ⟨rest, rfl⟩ := hinitial
  have hsplit := h
  rw [Numbered, List.length_append, ← List.range'_append_1, List.map_append] at hsplit
  exact (List.append_inj hsplit (by simp)).1

/-- Only the entries of the numbers that occur matter. -/
theorem congr {g : ℕ → Entry} (h : Numbered f log) (heq : ∀ n ≤ log.length, f n = g n) :
    Numbered g log := by
  rw [Numbered] at h ⊢
  refine h.trans (List.map_congr_left fun n hn => heq n ?_)
  rw [List.mem_range'_1] at hn
  omega

/-- The entries are determined by how many there are. -/
theorem eq_of_length (h : Numbered f log) (hother : Numbered f other)
    (hlength : log.length = other.length) : log = other := by
  rw [h, hother, hlength]

/-- Where different numbers make different entries, no entry occurs twice. -/
theorem nodup {bound : ℕ} (h : Numbered f log) (hle : log.length ≤ bound)
    (hinj : ∀ m ≤ bound, ∀ n ≤ bound, f m = f n → m = n) : log.Nodup := by
  rw [h]
  have hnumbers : (List.range' 1 log.length).Nodup := List.nodup_range'
  refine hnumbers.map_on ?_
  intro m hm n hn heq
  rw [List.mem_range'_1] at hm hn
  exact hinj m (by omega) n (by omega) heq

/-- Where different numbers make different entries, an entry of both logs has one position. -/
theorem position_eq {bound : ℕ} (h : Numbered f log) (hother : Numbered f other)
    (hle : log.length ≤ bound) (hle' : other.length ≤ bound)
    (hinj : ∀ m ≤ bound, ∀ n ≤ bound, f m = f n → m = n) {i j : ℕ} (hi : i < log.length)
    (hj : j < other.length) : log[i]? = other[j]? ↔ i = j := by
  rw [h.getElem? hi, hother.getElem? hj, Option.some.injEq]
  constructor
  · intro heq
    have hnumber := hinj (i + 1) (by omega) (j + 1) (by omega) heq
    omega
  · rintro rfl
    rfl

end Numbered
