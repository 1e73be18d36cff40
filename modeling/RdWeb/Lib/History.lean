import Mathlib.Data.List.Basic

/-!
# Histories

A history is the list of what was observed, oldest first. A question is open while
nothing after it answers it; an entry is grounded in the entries before it.
-/

namespace History

variable {Entry : Type*} {asks answers : Entry → Prop} {history later : List Entry}

/-- Some question in the history has no answer after it. -/
def Open (asks answers : Entry → Prop) (history : List Entry) : Prop :=
  ∃ before question after, history = before ++ question :: after ∧ asks question ∧
    ∀ entry ∈ after, ¬ answers entry

/-- A question stays open while what follows does not answer it. -/
theorem Open.append (h : Open asks answers history) (hlater : ∀ entry ∈ later, ¬ answers entry) :
    Open asks answers (history ++ later) := by
  obtain ⟨before, question, after, rfl, hasks, hafter⟩ := h
  refine ⟨before, question, after ++ later, by simp, hasks, ?_⟩
  intro entry hmem
  rcases List.mem_append.mp hmem with hmem | hmem
  · exact hafter entry hmem
  · exact hlater entry hmem

/-- The last entry of a history is open if it asks. -/
theorem open_concat {question : Entry} (hasks : asks question) :
    Open asks answers (history ++ [question]) :=
  ⟨history, question, [], rfl, hasks, by simp⟩

/-- Every entry is grounded in what came before it. -/
def Grounded (ground : List Entry → Entry → Prop) (history : List Entry) : Prop :=
  ∀ before entry after, history = before ++ entry :: after → ground before entry

variable {ground : List Entry → Entry → Prop} {entry : Entry}

/-- Entries that need no ground. -/
theorem grounded_of_forall (h : ∀ entry ∈ history, ∀ before, ground before entry) :
    Grounded ground history := by
  intro before entry after heq
  have hmem : entry ∈ history := by simp [heq]
  exact h entry hmem before

/-- A history grows by grounded entries. -/
theorem Grounded.concat (h : Grounded ground history) (hentry : ground history entry) :
    Grounded ground (history ++ [entry]) := by
  intro before last after heq
  rcases List.eq_nil_or_concat after with rfl | ⟨after, last', rfl⟩
  · obtain ⟨rfl, hlast⟩ := List.append_inj' heq rfl
    obtain rfl : entry = last := by simpa using hlast
    exact hentry
  · have hsplit : history ++ [entry] = (before ++ last :: after) ++ [last'] := by
      simpa using heq
    obtain ⟨hhistory, -⟩ := List.append_inj' hsplit rfl
    exact h before last after hhistory

end History
