import Mathlib.Data.List.Basic
import Mathlib.Data.List.DropRight
import Mathlib.Data.List.TakeWhile

/-!
# Trimming and splitting

What is left of a text when its white space has gone, whatever counts as that, and the parts it has
between separators.
-/

/-- No part has a separator. -/
theorem forall_mem_splitOnP {α : Type*} (p : α → Bool) (l : List α) :
    ∀ piece ∈ l.splitOnP p, ∀ x ∈ piece, p x = false := by
  induction l with
  | nil => simp
  | cons a l ih =>
    rw [List.splitOnP_cons_eq_if_modifyHead]
    obtain ⟨piece, rest, hsplit⟩ := List.exists_cons_of_ne_nil (List.splitOnP_ne_nil p l)
    rw [hsplit] at ih ⊢
    by_cases ha : p a = true
    · rw [if_pos ha]
      exact List.forall_mem_cons.mpr ⟨by simp, ih⟩
    · rw [if_neg ha, List.modifyHead_cons]
      obtain ⟨hpiece, hrest⟩ := List.forall_mem_cons.mp ih
      refine List.forall_mem_cons.mpr ⟨fun x hx => ?_, hrest⟩
      rcases List.mem_cons.mp hx with rfl | hx
      · simpa using ha
      · exact hpiece x hx

namespace Trim

variable {α : Type*} {p : α → Bool}

/-- Elements that meet the predicate go from both ends. -/
def trim (p : α → Bool) (s : List α) : List α := (s.dropWhile p).rdropWhile p

/-- A text whose two ends stay is trimmed to itself. -/
theorem trim_eq_self {s : List α} (hfirst : ∀ c, s.head? = some c → p c = false)
    (hlast : ∀ c, s.getLast? = some c → p c = false) : trim p s = s := by
  have hdrop : s.dropWhile p = s := by
    cases s with
    | nil => rfl
    | cons c rest => exact List.dropWhile_cons_of_neg (by simp [hfirst c rfl])
  rw [trim, hdrop, List.rdropWhile_eq_self_iff]
  intro hne
  rw [hlast _ (List.getLast?_eq_some_getLast hne)]
  exact Bool.false_ne_true

/-- The first element stays, if it does not meet the predicate. -/
theorem head?_trim {s : List α} (hfirst : ∀ c, s.head? = some c → p c = false) :
    (trim p s).head? = s.head? := by
  cases s with
  | nil => rfl
  | cons c rest =>
    have hmeets := hfirst c rfl
    have hdrop : (c :: rest).dropWhile p = c :: rest :=
      List.dropWhile_cons_of_neg (by simp [hmeets])
    obtain ⟨tail, htail⟩ := List.rdropWhile_prefix p (l := c :: rest)
    rw [trim, hdrop]
    cases hkept : (c :: rest).rdropWhile p with
    | nil =>
      have hall := List.rdropWhile_eq_nil_iff.mp hkept c List.mem_cons_self
      exact absurd (hmeets.symm.trans hall) Bool.false_ne_true
    | cons c' rest' =>
      rw [hkept] at htail
      injection htail with hhead
      rw [hhead]
      rfl

/-- A trimmed text does not start with what is trimmed. -/
theorem not_of_head?_trim {s : List α} {c : α} (h : (trim p s).head? = some c) : p c = false := by
  obtain ⟨tail, htail⟩ := List.rdropWhile_prefix p (l := s.dropWhile p)
  have hhead : (s.dropWhile p).head? = some c := by
    rw [← htail, List.head?_append_of_ne_nil]
    · exact h
    · rintro hnil
      rw [trim, hnil] at h
      cases h
  have hnot := List.head?_dropWhile_not p s
  rw [hhead] at hnot
  simpa using hnot

/-- A trimmed text does not end with what is trimmed. -/
theorem not_of_getLast?_trim {s : List α} {c : α} (h : (trim p s).getLast? = some c) :
    p c = false := by
  have hne : (s.dropWhile p).rdropWhile p ≠ [] := by
    intro hnil
    rw [trim, hnil] at h
    cases h
  have hnot := List.rdropWhile_last_not p _ hne
  rw [trim, List.getLast?_eq_some_getLast hne] at h
  rw [Option.some.inj h] at hnot
  simpa using hnot

/-- Trimming twice is trimming once. -/
theorem trim_trim (p : α → Bool) (s : List α) : trim p (trim p s) = trim p s :=
  trim_eq_self (fun _ h => not_of_head?_trim h) fun _ h => not_of_getLast?_trim h

/-- The last element stays, if it does not meet the predicate. -/
theorem getLast?_trim {s : List α} (hlast : ∀ c, s.getLast? = some c → p c = false) :
    (trim p s).getLast? = s.getLast? := by
  obtain ⟨front, hfront⟩ := List.dropWhile_suffix p (l := s)
  cases hdrop : s.dropWhile p with
  | nil =>
    cases hs : s.getLast? with
    | none => simp [trim, hdrop]
    | some c =>
      have hmeets := List.dropWhile_eq_nil_iff.mp hdrop c (List.mem_of_getLast? hs)
      exact absurd ((hlast c hs).symm.trans hmeets) Bool.false_ne_true
  | cons c rest =>
    have hsame : s.getLast? = (c :: rest).getLast? := by
      rw [← hfront, hdrop, List.getLast?_append_of_ne_nil _ (List.cons_ne_nil c rest)]
    have hkept : (c :: rest).rdropWhile p = c :: rest := by
      rw [List.rdropWhile_eq_self_iff]
      intro hne
      rw [hlast _ (hsame.trans (List.getLast?_eq_some_getLast hne))]
      exact Bool.false_ne_true
    rw [trim, hdrop, hkept, hsame]

/-- Trimming adds nothing. -/
theorem mem_of_mem_trim {s : List α} {c : α} (h : c ∈ trim p s) : c ∈ s :=
  (List.dropWhile_subset p) ((List.rdropWhile_prefix p _).subset h)

end Trim
