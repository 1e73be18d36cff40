import Mathlib.Algebra.BigOperators.Group.List.Basic
import Mathlib.Algebra.Order.Ring.Int
import Mathlib.Data.List.Induction
import Mathlib.Tactic.SplitIfs

/-!
# Lexical resolution of relative paths

A relative path is a list of components. Resolving it drops `.` and empty components and
lets `..` cancel the component before it, except where there is none left to cancel. Whether
a path stays below a root is decided by how deep it is after each component.
-/

namespace LexicalPath

/-- A component that leaves the path where it is. -/
def IsSkip (c : String) : Prop := c = "" ∨ c = "."

/-- Whether a component is skipped is decided by comparing it. -/
instance : DecidablePred IsSkip := fun _ => inferInstanceAs (Decidable (_ ∨ _))

/-- Add a component to a resolved path. -/
def push (resolved : List String) (c : String) : List String :=
  if IsSkip c then resolved
  else if c = ".." then
    if resolved = [] ∨ resolved.getLast? = some ".." then resolved ++ [".."]
    else resolved.dropLast
  else resolved ++ [c]

/-- The components left of a path once every `..` has taken one away. -/
def resolve (components : List String) : List String := components.foldl push []

/-- A resolved path that goes down from a resolved root, by one component at least. -/
def StrictlyBelow (root path : List String) : Prop :=
  ∃ rest, rest ≠ [] ∧ ".." ∉ rest ∧ path = root ++ rest

/-- How much deeper a component leads. -/
def weight (c : String) : ℤ := if IsSkip c then 0 else if c = ".." then -1 else 1

/-- How much deeper a walk leads. -/
def level (walk : List String) : ℤ := (walk.map weight).sum

/-- The empty walk stays where it is. -/
@[simp] theorem level_nil : level [] = 0 := rfl

/-- The level of a walk, one component at a time. -/
@[simp] theorem level_cons (c : String) (walk : List String) :
    level (c :: walk) = weight c + level walk := by
  simp [level]

/-- The level of a walk is the sum over its two parts. -/
@[simp] theorem level_append (walk walk' : List String) :
    level (walk ++ walk') = level walk + level walk' := by
  simp [level]

/-- A walk that never leads above its start. -/
def Inside (walk : List String) : Prop := ∀ first, first <+: walk → 0 ≤ level first

/-- The empty walk stays inside. -/
theorem inside_nil : Inside [] := by
  intro first h
  rw [List.prefix_nil.mp h, level_nil]

/-- A walk with one more component stays inside if and only if it did and the last step does not
leave. -/
theorem inside_append_singleton {walk : List String} {c : String} :
    Inside (walk ++ [c]) ↔ Inside walk ∧ 0 ≤ level walk + weight c := by
  constructor
  · intro h
    refine ⟨fun first hfirst => h first (hfirst.trans (List.prefix_append _ _)), ?_⟩
    simpa using h _ (List.prefix_refl _)
  · rintro ⟨hwalk, hlevel⟩ first hfirst
    rcases List.prefix_concat_iff.mp hfirst with rfl | hfirst
    · simpa using hlevel
    · exact hwalk first hfirst

/-- The path from the root enters the folder of that name for good: what comes before leads
back to the start without going above it, and what comes after goes down. -/
def Descends (root : String) (walk : List String) : Prop :=
  ∃ before after, root :: walk = before ++ root :: after ∧ Inside before ∧ level before = 0 ∧
    Inside after ∧ 1 ≤ level after

/-! ## Walks that stay inside -/

/-- A walk that stays inside adds as many components as its level. -/
theorem foldl_push_of_inside {walk : List String} (h : Inside walk) (start : List String) :
    ∃ rest, walk.foldl push start = start ++ rest ∧ ".." ∉ rest ∧
      (rest.length : ℤ) = level walk := by
  induction walk using List.reverseRecOn with
  | nil => exact ⟨[], by simp⟩
  | append_singleton walk c ih =>
    obtain ⟨hwalk, hlevel⟩ := inside_append_singleton.mp h
    obtain ⟨rest, hfold, hclean, hlength⟩ := ih hwalk
    rw [List.foldl_append, hfold, List.foldl_cons, List.foldl_nil, push]
    unfold weight at hlevel
    split_ifs at hlevel ⊢ with hskip hup hnone
    · exact ⟨rest, rfl, hclean, by simp [weight, hskip, hlength]⟩
    · -- there is a component to cancel, and it is not `..`
      exfalso
      have hne : rest ≠ [] := fun hnil => by simp [hnil] at hlength; omega
      rcases hnone with hnone | hnone
      · exact hne (List.append_eq_nil_iff.mp hnone).2
      · rw [List.getLast?_append_of_ne_nil _ hne] at hnone
        exact hclean (List.mem_of_getLast? hnone)
    · have hne : rest ≠ [] := fun hnil => by simp [hnil] at hlength; omega
      have hpos : 0 < rest.length := List.length_pos_of_ne_nil hne
      refine ⟨rest.dropLast, List.dropLast_append_of_ne_nil hne,
        fun hmem => hclean (List.dropLast_subset _ hmem), ?_⟩
      simp only [List.length_dropLast, level_append, level_cons, level_nil, weight, if_neg hskip,
        if_pos hup]
      omega
    · refine ⟨rest ++ [c], List.append_assoc _ _ _, ?_, ?_⟩
      · rw [List.mem_append, List.mem_singleton]
        exact fun hmem => hmem.elim hclean fun h => hup h.symm
      · simp [weight, hskip, hup, hlength]

/-! ## Walks that do not -/

/-- A step never takes a `..` away. -/
theorem count_push (resolved : List String) (c : String) :
    resolved.count ".." ≤ (push resolved c).count ".." := by
  unfold push
  split_ifs with hskip hup hnone
  · exact le_rfl
  · simp
  · obtain ⟨hne, hlast⟩ := not_or.mp hnone
    have hsplit := List.dropLast_append_getLast hne
    rw [List.getLast?_eq_some_getLast hne] at hlast
    have hother : resolved.getLast hne ≠ ".." := fun h => hlast (congrArg some h)
    rw [← hsplit]
    simp [List.count_append, hother]
  · simp

/-- A whole walk never takes a `..` away. -/
theorem count_foldl_push (walk : List String) (start : List String) :
    start.count ".." ≤ (walk.foldl push start).count ".." := by
  induction walk generalizing start with
  | nil => exact le_rfl
  | cons c walk ih => exact (count_push start c).trans (ih _)

/-- From a start that nothing can be cancelled of, a walk that leads above it leaves a `..`. -/
theorem inside_of_count {walk start : List String}
    (hstart : start = [] ∨ start.getLast? = some "..")
    (hcount : (walk.foldl push start).count ".." = start.count "..") : Inside walk := by
  induction walk using List.reverseRecOn with
  | nil => exact inside_nil
  | append_singleton walk c ih =>
    rw [List.foldl_append, List.foldl_cons, List.foldl_nil] at hcount
    have hsame : (walk.foldl push start).count ".." = start.count ".." :=
      Nat.le_antisymm ((count_push _ c).trans hcount.le) (count_foldl_push walk start)
    have hwalk := ih hsame
    obtain ⟨rest, hfold, hclean, hlength⟩ := foldl_push_of_inside hwalk start
    refine inside_append_singleton.mpr ⟨hwalk, ?_⟩
    unfold weight
    split_ifs with hskip hup
    · omega
    · -- with nothing left to cancel, another `..` would be added
      by_contra hneg
      have hnil : rest = [] := List.length_eq_zero_iff.mp (by omega)
      rw [hfold, hnil, List.append_nil, push, if_neg hskip, if_pos hup, if_pos hstart] at hcount
      simp at hcount
    · omega

/-- The last time a walk that ends below its start is at the start. -/
theorem exists_last_start {walk : List String} (h : Inside walk) (hlevel : 1 ≤ level walk) :
    ∃ before c after, walk = before ++ c :: after ∧ level before = 0 ∧
      ∀ first, first <+: after → 1 ≤ level (before ++ c :: first) := by
  induction walk using List.reverseRecOn with
  | nil => simp at hlevel
  | append_singleton walk c ih =>
    have hwalk := (inside_append_singleton.mp h).1
    by_cases hzero : level walk = 0
    · refine ⟨walk, c, [], rfl, hzero, fun first hfirst => ?_⟩
      rw [List.prefix_nil.mp hfirst]
      exact hlevel
    · have hpos := hwalk walk (List.prefix_refl _)
      obtain ⟨before, c', after, rfl, hbefore, hafter⟩ := ih hwalk (by omega)
      refine ⟨before, c', after ++ [c], by simp, hbefore, fun first hfirst => ?_⟩
      rcases List.prefix_concat_iff.mp hfirst with rfl | hfirst
      · simpa using hlevel
      · exact hafter first hfirst

/-! ## Staying strictly below a root -/

/-- The first part of a walk that stays inside stays inside. -/
theorem Inside.of_append {walk walk' : List String} (h : Inside (walk ++ walk')) : Inside walk :=
  fun first hfirst => h first (hfirst.trans (List.prefix_append _ _))

/-- A walk that descends ends strictly below the root. -/
theorem Descends.strictlyBelow {root : String} {walk : List String} (h : Descends root walk) :
    StrictlyBelow (resolve [root]) (resolve (root :: walk)) := by
  obtain ⟨before, after, hwalk, hbefore, hzero, hafter, hlevel⟩ := h
  obtain ⟨rest, hfold, -, hlength⟩ := foldl_push_of_inside hbefore []
  have hnil : rest = [] := List.length_eq_zero_iff.mp (by omega)
  rw [hnil] at hfold
  obtain ⟨rest', hfold', hclean, hlength'⟩ := foldl_push_of_inside hafter (resolve [root])
  refine ⟨rest', fun hnil => by simp [hnil] at hlength'; omega, hclean, ?_⟩
  rw [hwalk, resolve, List.foldl_append, hfold, ← hfold']
  rfl

/-- A root that nothing can be cancelled of is not left and entered again. -/
theorem descends_of_start {root : String} {walk : List String}
    (hstart : resolve [root] = [] ∨ (resolve [root]).getLast? = some "..")
    (h : StrictlyBelow (resolve [root]) (resolve (root :: walk))) : Descends root walk := by
  obtain ⟨rest, hne, hclean, hresolve⟩ := h
  have hfold : walk.foldl push (resolve [root]) = resolve [root] ++ rest := hresolve
  have hinside : Inside walk := by
    refine inside_of_count hstart ?_
    rw [hfold, List.count_append, List.count_eq_zero_of_not_mem hclean, Nat.add_zero]
  obtain ⟨rest', hfold', -, hlength⟩ := foldl_push_of_inside hinside (resolve [root])
  obtain rfl := List.append_cancel_left (hfold.symm.trans hfold')
  have hpos : 0 < rest.length := List.length_pos_of_ne_nil hne
  exact ⟨[], walk, rfl, inside_nil, rfl, hinside, by omega⟩

/-- A root that is a name can be left and entered again. -/
theorem descends_of_name {root : String} {walk : List String} (hskip : ¬ IsSkip root)
    (hup : root ≠ "..") (h : StrictlyBelow (resolve [root]) (resolve (root :: walk))) :
    Descends root walk := by
  have hroot : resolve [root] = [root] := by simp [resolve, push, hskip, hup]
  obtain ⟨rest, hne, hclean, hresolve⟩ := h
  rw [hroot] at hresolve
  have hinside : Inside (root :: walk) := by
    refine inside_of_count (.inl rfl) ?_
    change (resolve (root :: walk)).count ".." = _
    rw [hresolve, List.count_append, List.count_eq_zero_of_not_mem hclean,
      List.count_singleton, if_neg (by simpa using hup)]
    rfl
  obtain ⟨all, hall, -, hlength⟩ := foldl_push_of_inside hinside []
  have hlength' : all.length = rest.length + 1 := by
    rw [← List.nil_append all, ← hall]
    change (resolve (root :: walk)).length = _
    rw [hresolve, List.length_append, List.length_singleton, Nat.add_comm]
  obtain ⟨before, c, after, hwalk, hzero, hafter⟩ := exists_last_start hinside (by omega)
  have hbefore : Inside before := Inside.of_append (hwalk ▸ hinside)
  obtain ⟨none, hnone, -, hlengthNone⟩ := foldl_push_of_inside hbefore []
  have hnil : none = [] := List.length_eq_zero_iff.mp (by omega)
  have hname : weight c = 1 := by
    have hpos := hafter [] (List.nil_prefix)
    rw [level_append, hzero, level_cons, level_nil] at hpos
    unfold weight at hpos ⊢
    split_ifs at hpos ⊢ <;> omega
  have hdown : Inside after := fun first hfirst => by
    have hpos := hafter first hfirst
    rw [level_append, hzero, level_cons, hname] at hpos
    omega
  obtain ⟨rest', hfold, -, hlengthAfter⟩ := foldl_push_of_inside hdown (push [] c)
  have hpush : push [] c = [c] := by
    have hskip' : ¬ IsSkip c := fun h => by simp [weight, h] at hname
    have hup' : c ≠ ".." := fun h => by simp [weight, h, IsSkip] at hname
    rw [push, if_neg hskip', if_neg hup', List.nil_append]
  have hend : resolve (root :: walk) = c :: rest' := by
    rw [hwalk, resolve, List.foldl_append, hnone, hnil, List.append_nil, List.foldl_cons, hfold,
      hpush]
    rfl
  rw [hend, List.singleton_append] at hresolve
  injection hresolve with hc hrest
  rw [hc] at hwalk
  have hpos : 0 < rest.length := List.length_pos_of_ne_nil hne
  exact ⟨before, after, hwalk, hbefore, hzero, hdown, by rw [← hlengthAfter, hrest]; omega⟩

/-- **Confinement.** A path of a root and a walk resolves to a path strictly below the root if
and only if it enters the folder of the root for good. -/
theorem strictlyBelow_iff (root : String) (walk : List String) :
    StrictlyBelow (resolve [root]) (resolve (root :: walk)) ↔ Descends root walk := by
  refine ⟨fun h => ?_, Descends.strictlyBelow⟩
  by_cases hskip : IsSkip root
  · exact descends_of_start (.inl (by simp [resolve, push, hskip])) h
  · by_cases hup : root = ".."
    · exact descends_of_start (.inr (by rw [hup]; rfl)) h
    · exact descends_of_name hskip hup h

end LexicalPath
