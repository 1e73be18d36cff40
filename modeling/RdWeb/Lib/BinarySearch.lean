import Mathlib.Data.List.Pairwise
import Mathlib.Order.Lattice

/-!
# Binary search in a sorted list

The halving search of a standard library's sorted-slice lookup: the window
`[base, base + size)` shrinks to one position, and only there is the key compared
for equality. On a strictly increasing list it finds exactly the members.
-/

namespace BinarySearch

variable {α : Type*} [LinearOrder α]

/-- The position the halving loop ends in. Each round halves `size`, so the list's
length is enough fuel. -/
def locate (l : List α) (k : α) : ℕ → ℕ → ℕ → ℕ
  | 0, base, _ => base
  | fuel + 1, base, size =>
    if size ≤ 1 then base
    else
      let half := size / 2
      let mid := base + half
      locate l k fuel (if l[mid]?.any (k < ·) then base else mid) (size - half)

/-- The index of `k`, or `none` when the search does not meet it. -/
def binarySearch (l : List α) (k : α) : Option ℕ :=
  let i := locate l k l.length 0 l.length
  if l[i]? = some k then some i else none

/-- Whatever the search returns is an index of the key, sorted or not. -/
theorem getElem?_of_binarySearch {l : List α} {k : α} {i : ℕ}
    (h : binarySearch l k = some i) : l[i]? = some k := by
  unfold binarySearch at h
  dsimp only at h
  split_ifs at h with hi
  rwa [← Option.some.inj h]

/-- In a strictly increasing list the window keeps the key's position, and shrinks
to it. -/
theorem locate_eq {l : List α} (hsorted : l.Pairwise (· < ·)) {k : α} {i : ℕ}
    (hi : l[i]? = some k) {fuel base size : ℕ} (hfuel : size ≤ fuel + 1) (hlow : base ≤ i)
    (hhigh : i < base + size) (hwindow : base + size ≤ l.length) :
    locate l k fuel base size = i := by
  induction fuel generalizing base size with
  | zero =>
    simp only [locate]
    omega
  | succ fuel ih =>
    unfold locate
    split_ifs with hsize
    · omega
    · dsimp only
      have hmid : base + size / 2 < l.length := by omega
      obtain ⟨hil, hik⟩ := List.getElem?_eq_some_iff.mp hi
      have horder := List.pairwise_iff_getElem.mp hsorted
      by_cases hgt : k < l[base + size / 2]
      · have hbefore : i < base + size / 2 := by
          by_contra hnot
          rcases Nat.lt_or_ge (base + size / 2) i with hlt | hge
          · have hless := horder _ _ hmid hil hlt
            rw [hik] at hless
            exact lt_asymm hgt hless
          · obtain rfl : base + size / 2 = i := by omega
            rw [hik] at hgt
            exact lt_irrefl k hgt
        rw [if_pos (by simpa [List.getElem?_eq_getElem hmid] using hgt)]
        exact ih (by omega) hlow (by omega) (by omega)
      · have hfrom : base + size / 2 ≤ i := by
          by_contra hnot
          have hless := horder _ _ hil hmid (by omega)
          rw [hik] at hless
          exact hgt hless
        rw [if_neg (by simpa [List.getElem?_eq_getElem hmid] using hgt)]
        exact ih (by omega) hfrom (by omega) (by omega)

/-- On a strictly increasing list the search returns the index of every member. -/
theorem binarySearch_of_getElem? {l : List α} (hsorted : l.Pairwise (· < ·)) {k : α} {i : ℕ}
    (hi : l[i]? = some k) : binarySearch l k = some i := by
  have hlt : i < l.length := (List.getElem?_eq_some_iff.mp hi).1
  have hlocate : locate l k l.length 0 l.length = i :=
    locate_eq hsorted hi (by omega) (Nat.zero_le i) (by omega) (by omega)
  simp [binarySearch, hlocate, hi]

/-- **Correctness.** On a strictly increasing list the search succeeds exactly on
the members. -/
theorem isSome_binarySearch_iff {l : List α} (hsorted : l.Pairwise (· < ·)) {k : α} :
    (binarySearch l k).isSome = true ↔ k ∈ l := by
  rw [Option.isSome_iff_exists, List.mem_iff_getElem?]
  exact ⟨fun ⟨i, h⟩ => ⟨i, getElem?_of_binarySearch h⟩,
    fun ⟨i, h⟩ => ⟨i, binarySearch_of_getElem? hsorted h⟩⟩

/-- Removing the entry at the index the search returned removes the key and
nothing else. -/
theorem mem_eraseIdx_iff {l : List α} (hsorted : l.Pairwise (· < ·)) {k k' : α} {i : ℕ}
    (h : binarySearch l k = some i) : k' ∈ l.eraseIdx i ↔ k' ∈ l ∧ k' ≠ k := by
  have hi := getElem?_of_binarySearch h
  rw [List.mem_eraseIdx_iff_getElem?]
  constructor
  · rintro ⟨j, hji, hj⟩
    refine ⟨List.mem_of_getElem? hj, ?_⟩
    rintro rfl
    have hsame := binarySearch_of_getElem? hsorted hj
    exact hji (Option.some.inj (hsame.symm.trans h))
  · rintro ⟨hmem, hne⟩
    obtain ⟨j, hj⟩ := List.mem_iff_getElem?.mp hmem
    refine ⟨j, ?_, hj⟩
    rintro rfl
    exact hne (Option.some.inj (hj.symm.trans hi))

end BinarySearch
