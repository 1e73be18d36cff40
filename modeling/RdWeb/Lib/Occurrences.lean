import Mathlib.Data.List.Basic
import Mathlib.Data.List.Nodup
import Mathlib.Data.List.Perm.Subperm

/-!
# Occurrences in a list

Each occurrence of an element in a list, with the elements after it. No two occurrences are the
same, so they tell equal elements at different places apart.
-/

namespace List

variable {α : Type*}

/-- The elements of a list, each with those after it. -/
def occurrences : List α → List (α × List α)
  | [] => []
  | a :: l => (a, l) :: occurrences l

/-- The empty list has no occurrence. -/
@[simp] theorem occurrences_nil : occurrences ([] : List α) = [] := rfl

/-- The first occurrence is the head, with the tail after it. -/
@[simp] theorem occurrences_cons (a : α) (l : List α) :
    occurrences (a :: l) = (a, l) :: occurrences l := rfl

/-- The occurrences spell the list. -/
@[simp] theorem map_fst_occurrences (l : List α) : (occurrences l).map Prod.fst = l := by
  induction l with
  | nil => rfl
  | cons a l ih => rw [occurrences_cons, map_cons, ih]

/-- An occurrence is a value with what follows it to the end. -/
theorem mem_occurrences_iff {l : List α} {x : α × List α} :
    x ∈ occurrences l ↔ x.1 :: x.2 <:+ l := by
  induction l with
  | nil => simp
  | cons a l ih =>
    rw [occurrences_cons, mem_cons, ih, suffix_cons_iff]
    exact or_congr_left ⟨fun h => by rw [h], fun h => by
      obtain ⟨hfst, hsnd⟩ := cons_eq_cons.mp h
      exact Prod.ext hfst hsnd⟩

/-- An occurrence is a place that cuts the list in two. -/
theorem mem_occurrences_iff_append {l : List α} {a : α} {after : List α} :
    (a, after) ∈ occurrences l ↔ ∃ before, l = before ++ a :: after := by
  rw [mem_occurrences_iff]
  exact exists_congr fun _ => eq_comm

/-- An element put behind a list comes after every occurrence in it. -/
theorem occurrences_concat (l : List α) (b : α) :
    occurrences (l ++ [b]) =
      (occurrences l).map (fun x => (x.1, x.2 ++ [b])) ++ [(b, [])] := by
  induction l with
  | nil => rfl
  | cons a l ih => rw [cons_append, occurrences_cons, ih, occurrences_cons, map_cons, cons_append]

/-- What follows an occurrence is shorter than the list. -/
theorem length_lt_of_mem_occurrences {l : List α} {x : α × List α} (hx : x ∈ occurrences l) :
    x.2.length < l.length := by
  have hlength := (mem_occurrences_iff.mp hx).length_le
  rw [length_cons] at hlength
  omega

/-- No occurrence is listed twice. -/
theorem nodup_occurrences (l : List α) : (occurrences l).Nodup := by
  induction l with
  | nil => exact nodup_nil
  | cons a l ih =>
    rw [occurrences_cons, nodup_cons]
    exact ⟨fun hmem => absurd (length_lt_of_mem_occurrences hmem) (Nat.lt_irrefl _), ih⟩

/-- An occurrence is at or before another one, or among the elements after it. -/
theorem mem_occurrences_append {before l : List α} {a : α} {x : α × List α}
    (hx : x ∈ occurrences (before ++ a :: l)) : l <:+ x.2 ∨ x ∈ occurrences l := by
  rw [mem_occurrences_iff] at hx ⊢
  rcases suffix_or_suffix_of_suffix hx (suffix_append before (a :: l)) with hshort | hlong
  · rcases suffix_cons_iff.mp hshort with heq | hshort
    · rw [(cons_eq_cons.mp heq).2]
      exact .inl (suffix_refl _)
    · exact .inr hshort
  · rcases suffix_cons_iff.mp hlong with heq | hlong
    · rw [(cons_eq_cons.mp heq).2]
      exact .inl (suffix_refl _)
    · exact .inl ((suffix_cons a l).trans hlong)

/-- Different occurrences of elements of a kind are no more than the elements of that kind. -/
theorem length_le_countP {l : List α} {p : α → Bool} {kept : List (α × List α)}
    (hnodup : kept.Nodup) (hmem : ∀ x ∈ kept, x ∈ occurrences l ∧ p x.1) :
    kept.length ≤ l.countP p := by
  have hsub : kept.Subperm ((occurrences l).filter (p ∘ Prod.fst)) :=
    hnodup.subperm fun x hx => by simpa using hmem x hx
  calc kept.length ≤ ((occurrences l).filter (p ∘ Prod.fst)).length := hsub.length_le
    _ = (occurrences l).countP (p ∘ Prod.fst) := countP_eq_length_filter.symm
    _ = ((occurrences l).map Prod.fst).countP p := countP_map.symm
    _ = l.countP p := by rw [map_fst_occurrences]

end List
