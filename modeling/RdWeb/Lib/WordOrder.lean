import Mathlib.Data.List.Lex
import Mathlib.Data.List.Pairwise
import Mathlib.Data.List.Sort

/-!
# Sorting by words

Words over an ordered alphabet are compared letter by letter. Closed by a separator below every
letter, they keep that order whatever follows them. A list sorted by one key is sorted by a
second one exactly if the keys never order two of its elements differently.
-/

namespace WordOrder

/-- A separator below every letter leaves the order of the words that it closes. -/
theorem append_separator_lt {Letter : Type*} [LinearOrder Letter] {sep : Letter}
    {u v rest rest' : List Letter} (hu : ∀ a ∈ u, sep < a) (hv : ∀ a ∈ v, sep < a) :
    u ++ sep :: rest < v ++ sep :: rest' ↔ u < v ∨ u = v ∧ rest < rest' := by
  induction u generalizing v with
  | nil =>
    cases v with
    | nil => simp
    | cons b v =>
      have hb := hv b List.mem_cons_self
      simp [List.cons_lt_cons_iff, hb]
  | cons a u ih =>
    have ha := hu a List.mem_cons_self
    cases v with
    | nil => simp [List.cons_lt_cons_iff, ha.not_gt, ha.ne']
    | cons b v =>
      have hrest := ih (v := v) (fun c hc => hu c (List.mem_cons_of_mem _ hc))
        fun c hc => hv c (List.mem_cons_of_mem _ hc)
      simp only [List.cons_append, List.cons_lt_cons_iff, hrest, List.cons.injEq]
      tauto

/-- Words closed by a separator below every letter are told apart from what follows. -/
theorem eq_of_append_separator_eq {Letter : Type*} [LinearOrder Letter] {sep : Letter}
    {u v rest rest' : List Letter} (hu : ∀ a ∈ u, sep < a) (hv : ∀ a ∈ v, sep < a)
    (h : u ++ sep :: rest = v ++ sep :: rest') : u = v ∧ rest = rest' := by
  have hlt := mt (append_separator_lt hu hv).mpr h.not_lt
  have hgt := mt (append_separator_lt hv hu).mpr h.not_gt
  push Not at hlt hgt
  have huv : u = v := le_antisymm hgt.1 hlt.1
  exact ⟨huv, le_antisymm (hgt.2 huv.symm) (hlt.2 huv)⟩

variable {Item Key Rank : Type*} [LinearOrder Key] [LinearOrder Rank]

/-- The items from the greatest key to the least. -/
def sortDown (key : Item → Key) (items : List Item) : List Item :=
  (items.insertionSort fun a b => key a ≤ key b).reverse

variable {key : Item → Key} {items : List Item}

/-- Sorting down keeps the items. -/
theorem sortDown_perm (key : Item → Key) (items : List Item) :
    (sortDown key items).Perm items :=
  (List.reverse_perm _).trans (List.perm_insertionSort _ _)

/-- A list sorted down descends by its key. -/
theorem pairwise_sortDown (key : Item → Key) (items : List Item) :
    (sortDown key items).Pairwise fun a b => key b ≤ key a := by
  have : Std.Total fun a b : Item => key a ≤ key b := ⟨fun a b => le_total _ _⟩
  have : IsTrans Item fun a b => key a ≤ key b := ⟨fun a b c => le_trans⟩
  exact List.pairwise_reverse.mpr (List.pairwise_insertionSort _ items)

/-- **Sorting by another key.** Where no two items share a key, the items come from the greatest
rank to the least if and only if every item of a lower rank has a lower key. -/
theorem pairwise_sortDown_iff (rank : Item → Rank)
    (hkey : ∀ a ∈ items, ∀ b ∈ items, key a = key b → a = b) :
    (sortDown key items).Pairwise (fun a b => rank b ≤ rank a) ↔
      ∀ a ∈ items, ∀ b ∈ items, rank a < rank b → key a < key b := by
  have hmem {a : Item} : a ∈ sortDown key items ↔ a ∈ items := (sortDown_perm key items).mem_iff
  constructor
  · intro hrank a ha b hb hab
    have hboth : (sortDown key items).Pairwise fun a b =>
        (key b ≤ key a ∧ rank b ≤ rank a) ∨ (key a ≤ key b ∧ rank a ≤ rank b) :=
      ((pairwise_sortDown key items).and hrank).imp Or.inl
    have hne : a ≠ b := fun heq => absurd hab (heq ▸ lt_irrefl _)
    have hsymm : Std.Symm fun a b =>
        (key b ≤ key a ∧ rank b ≤ rank a) ∨ (key a ≤ key b ∧ rank a ≤ rank b) :=
      ⟨fun a b => Or.symm⟩
    rcases hboth.forall (hmem.mpr ha) (hmem.mpr hb) hne with h | h
    · exact absurd h.2 (not_le.mpr hab)
    · exact lt_of_le_of_ne h.1 fun heq => hne (hkey a ha b hb heq)
  · intro hagree
    refine (pairwise_sortDown key items).imp_of_mem fun {a b} ha hb hle => ?_
    by_contra hrank
    exact absurd (hagree a (hmem.mp ha) b (hmem.mp hb) (not_le.mp hrank)) (not_lt.mpr hle)

end WordOrder
