import Mathlib.Data.List.Induction
import Mathlib.Data.List.Nodup

/-!
# The most frequent element of a list

Elements are counted in the order in which they first appear, and the first one with the
highest count wins. So the winner is one of the most frequent elements, and any of these wins
a list that begins with it.
-/

namespace MostFrequent

variable {α : Type*} [DecidableEq α]

/-- Count one more element. -/
def addCount : List (α × ℕ) → α → List (α × ℕ)
  | [], a => [(a, 1)]
  | (b, n) :: counts, a => if b = a then (b, n + 1) :: counts else (b, n) :: addCount counts a

/-- How often each value occurs, in the order of first occurrence. -/
def counts (l : List α) : List (α × ℕ) := l.foldl addCount []

/-- The first element with the highest count, of an empty list the default. -/
def mostFrequent (default : α) (l : List α) : α :=
  let maxCount := ((counts l).map Prod.snd).max?.getD 0
  (((counts l).find? (·.2 = maxCount)).map Prod.fst).getD default

/-- An empty list gives the default. -/
@[simp] theorem mostFrequent_nil (default : α) : mostFrequent default [] = default := rfl

/-- Keep the first appearance of every element. -/
def addFirst (keys : List α) (a : α) : List α := if a ∈ keys then keys else keys ++ [a]

/-- The elements in the order in which they first appear. -/
def firsts (l : List α) : List α := l.foldl addFirst []

/-- The values in order of first occurrence, with one more at the end. -/
theorem firsts_concat (l : List α) (a : α) : firsts (l ++ [a]) = addFirst (firsts l) a := by
  simp [firsts]

/-- The counts, with one more value at the end. -/
theorem counts_concat (l : List α) (a : α) : counts (l ++ [a]) = addCount (counts l) a := by
  simp [counts]

/-- The first occurrences are the values of the list. -/
theorem mem_firsts {l : List α} {a : α} : a ∈ firsts l ↔ a ∈ l := by
  induction l using List.reverseRecOn generalizing a with
  | nil => rfl
  | append_singleton l b ih =>
    rw [firsts_concat, addFirst]
    split_ifs with hb
    · rw [ih] at hb ⊢
      simp only [List.mem_append, List.mem_singleton]
      exact ⟨Or.inl, fun h => h.elim id fun heq => heq ▸ hb⟩
    · simp [ih]

/-- Every value has one first occurrence. -/
theorem nodup_firsts (l : List α) : (firsts l).Nodup := by
  induction l using List.reverseRecOn with
  | nil => exact List.nodup_nil
  | append_singleton l b ih =>
    rw [firsts_concat, addFirst]
    split_ifs with hb
    · exact ih
    · exact List.nodup_append.mpr ⟨ih, List.nodup_singleton b, fun x hx y hy => by
        rw [List.mem_singleton.mp hy]
        exact fun heq => hb (heq ▸ hx)⟩

/-- The first appearance of the first element comes first. -/
theorem head?_firsts (a : α) (l : List α) : (firsts (a :: l)).head? = some a := by
  induction l using List.reverseRecOn with
  | nil => rfl
  | append_singleton l b ih =>
    rw [← List.cons_append, firsts_concat, addFirst]
    split_ifs
    · exact ih
    · rw [List.head?_append, ih]
      rfl

/-- Counting one more element, where an element that is not there has count zero. -/
theorem addCount_map {keys : List α} (hnodup : keys.Nodup) {count : α → ℕ} {a : α}
    (hzero : a ∉ keys → count a = 0) :
    addCount (keys.map fun b => (b, count b)) a =
      (addFirst keys a).map fun b => (b, if b = a then count b + 1 else count b) := by
  induction keys with
  | nil => simp [addCount, addFirst, hzero]
  | cons b keys ih =>
    obtain ⟨hb, hkeys⟩ := List.nodup_cons.mp hnodup
    simp only [List.map_cons, addCount]
    by_cases hba : b = a
    · subst hba
      have hrest : ∀ c ∈ keys, (c, count c) = (c, if c = b then count c + 1 else count c) := by
        intro c hc
        have hne : c ≠ b := fun heq => hb (heq ▸ hc)
        rw [if_neg hne]
      rw [if_pos rfl, addFirst, if_pos List.mem_cons_self, List.map_cons, if_pos rfl,
        List.map_congr_left hrest]
    · have hfirst : addFirst (b :: keys) a = b :: addFirst keys a := by
        simp only [addFirst, List.mem_cons, Ne.symm hba, false_or]
        split_ifs
        · rfl
        · rfl
      rw [if_neg hba, hfirst, List.map_cons, if_neg hba]
      rw [ih hkeys fun hnot => hzero (by simp [Ne.symm hba, hnot])]

/-- The table has every element once, with how often it occurs. -/
theorem counts_eq (l : List α) : counts l = (firsts l).map fun a => (a, l.count a) := by
  induction l using List.reverseRecOn with
  | nil => rfl
  | append_singleton l b ih =>
    have hzero : b ∉ firsts l → l.count b = 0 := fun hb =>
      List.count_eq_zero_of_not_mem fun hmem => hb (mem_firsts.mpr hmem)
    rw [counts_concat, firsts_concat, ih, addCount_map (nodup_firsts l) hzero]
    refine List.map_congr_left fun a _ => ?_
    by_cases hab : a = b
    · simp [hab]
    · simp [hab, Ne.symm hab]

/-- No element is more frequent. -/
def Leads (l : List α) (a : α) : Prop := ∀ b ∈ l, l.count b ≤ l.count a

/-- The winner is found by its count. -/
theorem mostFrequent_eq {l : List α} {lead : α} (hmem : lead ∈ l) (hlead : Leads l lead)
    (default : α) :
    mostFrequent default l =
      ((firsts l).find? fun a => l.count a = l.count lead).getD default := by
  have hmax : ((counts l).map Prod.snd).max? = some (l.count lead) := by
    rw [List.max?_eq_some_iff, counts_eq, List.map_map]
    refine ⟨List.mem_map.mpr ⟨lead, mem_firsts.mpr hmem, rfl⟩, fun n hn => ?_⟩
    obtain ⟨a, ha, rfl⟩ := List.mem_map.mp hn
    exact hlead a (mem_firsts.mp ha)
  rw [mostFrequent, hmax, Option.getD_some, counts_eq, List.find?_map, Option.map_map]
  simp [Function.comp_def]

/-- Some value of a nonempty list leads. -/
theorem exists_leads {l : List α} (h : l ≠ []) : ∃ a ∈ l, Leads l a := by
  obtain ⟨n, hn⟩ : ∃ n, (l.map l.count).max? = some n := by
    cases hmax : (l.map l.count).max? with
    | none => simp [List.max?_eq_none_iff, h] at hmax
    | some n => exact ⟨n, rfl⟩
  obtain ⟨hmem, hle⟩ := List.max?_eq_some_iff.mp hn
  obtain ⟨a, ha, rfl⟩ := List.mem_map.mp hmem
  exact ⟨a, ha, fun b hb => hle _ (List.mem_map_of_mem hb)⟩

/-- The winner of a nonempty list is one of its most frequent elements. -/
theorem mostFrequent_leads (default : α) {l : List α} (h : l ≠ []) :
    mostFrequent default l ∈ l ∧ Leads l (mostFrequent default l) := by
  obtain ⟨lead, hmem, hlead⟩ := exists_leads h
  rw [mostFrequent_eq hmem hlead]
  cases hfind : (firsts l).find? fun a => l.count a = l.count lead with
  | none =>
    have hnone := List.find?_eq_none.mp hfind lead (mem_firsts.mpr hmem)
    simp at hnone
  | some winner =>
    have hcount : l.count winner = l.count lead := by simpa using List.find?_some hfind
    refine ⟨mem_firsts.mp (List.mem_of_find?_eq_some hfind), fun b hb => ?_⟩
    rw [Option.getD_some, hcount]
    exact hlead b hb

/-- The most frequent value of a nonempty list is one of its values. -/
theorem mostFrequent_mem (default : α) {l : List α} (h : l ≠ []) : mostFrequent default l ∈ l :=
  (mostFrequent_leads default h).1

/-- A most frequent element wins where it comes first. -/
theorem mostFrequent_cons {a : α} {l : List α} (hlead : Leads (a :: l) a) (default : α) :
    mostFrequent default (a :: l) = a := by
  obtain ⟨rest, hrest⟩ : ∃ rest, firsts (a :: l) = a :: rest := by
    cases hfirsts : firsts (a :: l) with
    | nil => simpa [hfirsts] using head?_firsts a l
    | cons b rest =>
      have hhead := head?_firsts a l
      rw [hfirsts] at hhead
      exact ⟨rest, by rw [← Option.some.inj hhead]⟩
  rw [mostFrequent_eq List.mem_cons_self hlead, hrest, List.find?_cons_of_pos (by simp)]
  rfl

/-- The most frequent elements are the same in any order. -/
theorem leads_perm {l l' : List α} (h : l.Perm l') {a : α} : Leads l a ↔ Leads l' a := by
  simp only [Leads, h.mem_iff, h.count_eq]

end MostFrequent
