import Mathlib.Data.List.Basic
import Mathlib.Tactic.SplitIfs

/-!
# Pieces of a list

A list cut into pieces of a fixed size, of which only the last may be shorter.
-/

/-- The pieces of the list, none of them empty. -/
def pieces {Item : Type*} (size : ℕ) (l : List Item) : List (List Item) :=
  if l = [] ∨ size = 0 then [] else l.take size :: pieces size (l.drop size)
termination_by l.length
decreasing_by
  rename_i h
  have hpos : 0 < l.length := List.length_pos_iff.mpr fun hnil => h (.inl hnil)
  rw [List.length_drop]
  omega

variable {Item : Type*} {size : ℕ}

/-- Nothing is cut into no pieces. -/
@[simp] theorem pieces_nil : pieces size ([] : List Item) = [] := by
  unfold pieces
  simp

/-- The first piece and the others. -/
theorem pieces_of_ne_nil (hsize : 0 < size) {l : List Item} (hl : l ≠ []) :
    pieces size l = l.take size :: pieces size (l.drop size) := by
  have hcut : ¬ (l = [] ∨ size = 0) := by
    rintro (hnil | hzero)
    · exact hl hnil
    · omega
  rw [pieces, if_neg hcut]

/-- The pieces make up the list. -/
theorem flatten_pieces (hsize : 0 < size) (l : List Item) : (pieces size l).flatten = l := by
  induction l using pieces.induct size with
  | case1 l hnil =>
    obtain rfl : l = [] := hnil.resolve_right (by omega)
    simp
  | case2 l hcut ih =>
    have hl : l ≠ [] := fun hnil => hcut (.inl hnil)
    rw [pieces_of_ne_nil hsize hl, List.flatten_cons, ih, List.take_append_drop]

/-- No piece is longer than the size. -/
theorem length_le_of_mem_pieces (hsize : 0 < size) {l piece : List Item}
    (hmem : piece ∈ pieces size l) : piece.length ≤ size := by
  induction l using pieces.induct size with
  | case1 l hnil =>
    obtain rfl : l = [] := hnil.resolve_right (by omega)
    simp at hmem
  | case2 l hcut ih =>
    have hl : l ≠ [] := fun hnil => hcut (.inl hnil)
    rw [pieces_of_ne_nil hsize hl] at hmem
    rcases List.mem_cons.mp hmem with rfl | hmem
    · exact List.length_take_le size l
    · exact ih hmem
