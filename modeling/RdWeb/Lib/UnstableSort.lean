import Mathlib.Algebra.Order.Ring.Int
import Mathlib.Data.List.Nodup
import Mathlib.Data.List.Pairwise
import Mathlib.Order.Compare

/-!
# Sorts that need not be stable

A sort gives back its items in an order that the comparison allows; items that compare equal may
come in any order. A list may be sorted by the places that its items have in a reference list, and
then it has whatever order the reference list has.
-/

/-- A sort by a comparison. -/
structure UnstableSort where
  sort {Item : Type} : (Item → Item → Ordering) → List Item → List Item
  perm {Item : Type} (cmp : Item → Item → Ordering) (items : List Item) :
    (sort cmp items).Perm items
  sorted {Item : Type} (cmp : Item → Item → Ordering) (items : List Item)
    (total : ∀ a b, cmp a b ≠ .gt ∨ cmp b a ≠ .gt)
    (trans : ∀ a b c, cmp a b ≠ .gt → cmp b c ≠ .gt → cmp a c ≠ .gt) :
    (sort cmp items).Pairwise fun a b => cmp a b ≠ .gt

namespace UnstableSort

variable {Item Other : Type} {Key : Type*} [LinearOrder Key]

/-- The comparison by a key. -/
def byKey (key : Item → Key) (a b : Item) : Ordering := compare (key a) (key b)

/-- Comparing by a key is comparing the keys. -/
theorem byKey_ne_gt {key : Item → Key} {a b : Item} : byKey key a b ≠ .gt ↔ key a ≤ key b :=
  compare_le_iff_le

/-- Sorting keeps the items. -/
theorem mem_sort (S : UnstableSort) {cmp : Item → Item → Ordering} {items : List Item}
    {a : Item} : a ∈ S.sort cmp items ↔ a ∈ items :=
  (S.perm cmp items).mem_iff

/-- Sorting by a key. -/
theorem pairwise_key (S : UnstableSort) (key : Item → Key) (items : List Item) :
    (S.sort (byKey key) items).Pairwise fun a b => key a ≤ key b := by
  refine (S.sorted _ items (fun a b => ?_) fun a b c => ?_).imp fun {a b} => byKey_ne_gt.mp
  · rw [byKey_ne_gt, byKey_ne_gt]
    exact le_total _ _
  · rw [byKey_ne_gt, byKey_ne_gt, byKey_ne_gt]
    exact le_trans

/-- Sorting by a key, from the greatest one. -/
theorem pairwise_key_down (S : UnstableSort) (key : Item → Key) (items : List Item) :
    (S.sort (fun b a => byKey key a b) items).Pairwise fun a b => key b ≤ key a := by
  refine (S.sorted _ items (fun a b => ?_) fun a b c => ?_).imp fun {a b} => byKey_ne_gt.mp
  · rw [byKey_ne_gt, byKey_ne_gt]
    exact le_total _ _
  · rw [byKey_ne_gt, byKey_ne_gt, byKey_ne_gt]
    exact fun hba hcb => hcb.trans hba

/-- **Reference lists.** Sorting by the place that something of the same name has in a reference
list takes over the order of that list, where the names there are different. -/
theorem pairwise_index {Name : Type*} [DecidableEq Name] (S : UnstableSort) {reference : List Other}
    {nameOf : Other → Name} {R : Other → Other → Prop} (hrefl : ∀ x, R x x)
    (hreference : reference.Pairwise R) (hnodup : (reference.map nameOf).Nodup)
    (name : Item → Name) (items : List Item) {index : Item → ℤ}
    (hindex : ∀ a ∈ items, ∃ (i : ℕ) (x : Other), index a = i ∧ reference[i]? = some x ∧
      nameOf x = name a) :
    (S.sort (byKey index) items).Pairwise fun a b =>
      ∀ x ∈ reference, ∀ y ∈ reference, nameOf x = name a → nameOf y = name b → R x y := by
  have hinj {x y : Other} (hx : x ∈ reference) (hy : y ∈ reference) (h : nameOf x = nameOf y) :
      x = y := List.inj_on_of_nodup_map hnodup hx hy h
  refine (S.pairwise_key index items).imp_of_mem fun {a b} ha hb hle x hx y hy hxa hyb => ?_
  obtain ⟨i, x', hi, hx', hname⟩ := hindex a (S.mem_sort.mp ha)
  obtain ⟨j, y', hj, hy', hname'⟩ := hindex b (S.mem_sort.mp hb)
  obtain rfl := hinj (List.mem_of_getElem? hx') hx (hname.trans hxa.symm)
  obtain rfl := hinj (List.mem_of_getElem? hy') hy (hname'.trans hyb.symm)
  have hij : i ≤ j := by omega
  obtain ⟨hilt, hix⟩ := List.getElem?_eq_some_iff.mp hx'
  obtain ⟨hjlt, hjy⟩ := List.getElem?_eq_some_iff.mp hy'
  rcases hij.lt_or_eq with hlt | rfl
  · rw [← hix, ← hjy]
    exact List.pairwise_iff_getElem.mp hreference i j hilt hjlt hlt
  · rw [← hix, ← hjy]
    exact hrefl _

/-- The merge sort is one of them. -/
def merge : UnstableSort where
  sort cmp items := items.mergeSort fun a b => decide (cmp a b ≠ .gt)
  perm cmp items := List.mergeSort_perm items _
  sorted cmp items total trans := by
    have hsorted : (items.mergeSort fun a b => decide (cmp a b ≠ .gt)).Pairwise fun a b =>
        decide (cmp a b ≠ .gt) = true := List.pairwise_mergeSort
      (fun a b c hab hbc => by
        simp only [decide_eq_true_eq] at *
        exact trans a b c hab hbc)
      (fun a b => by
        simp only [Bool.or_eq_true, decide_eq_true_eq]
        exact total a b) items
    exact hsorted.imp fun {a b} h => of_decide_eq_true h

end UnstableSort
