import Mathlib.Data.List.Basic
import Mathlib.Tactic.SplitIfs

/-!
# Reading a list page by page

A page is what fits of the list from an offset on, every item with the offset after it. A reader
goes on from the offset of the last item it got, until a page is empty.
-/

namespace Paging

variable {Item : Type*}

/-- The items with the offsets after them. -/
def numbered (l : List Item) : List (ℕ × Item) := l.zipIdx.map fun x => (x.2 + 1, x.1)

/-- As many items as fit in a room. -/
def fill (cost : Item → ℕ) : ℕ → List (ℕ × Item) → List (ℕ × Item)
  | _, [] => []
  | room, x :: rest => if cost x.2 ≤ room then x :: fill cost (room - cost x.2) rest else []

/-- The page from an offset on. -/
def page (cost : Item → ℕ) (l : List Item) (room offset : ℕ) : List (ℕ × Item) :=
  fill cost room ((numbered l).drop offset)

/-- What a reader gets that asks for one page after the other, each time with a room that is big
enough. -/
inductive Reads (next : ℕ → ℕ → Option (List (ℕ × Item))) (big : ℕ → Prop) :
    ℕ → List Item → Prop
  | stop {offset room : ℕ} : big room → next room offset = some [] → Reads next big offset []
  | more {offset room : ℕ} {items : List (ℕ × Item)} {last : ℕ × Item} {rest : List Item} :
      big room → next room offset = some items → items.getLast? = some last →
      Reads next big last.1 rest → Reads next big offset (items.map Prod.snd ++ rest)

variable {cost : Item → ℕ} {l : List Item}

/-- What fits is the first part of the items. -/
theorem fill_isPrefix (room : ℕ) (xs : List (ℕ × Item)) : fill cost room xs <+: xs := by
  induction xs generalizing room with
  | nil => exact List.prefix_refl _
  | cons x xs ih =>
    rw [fill]
    split_ifs
    · exact List.cons_prefix_cons.mpr ⟨rfl, ih _⟩
    · exact List.nil_prefix

/-- The number of an item is its place plus one. -/
theorem getElem?_numbered (n : ℕ) : (numbered l)[n]? = l[n]?.map fun x => (n + 1, x) := by
  rw [numbered, List.getElem?_map, List.getElem?_zipIdx]
  cases l[n]? <;> simp

/-- Numbering keeps the items. -/
theorem map_snd_numbered (l : List Item) : (numbered l).map Prod.snd = l := by
  apply List.ext_getElem?
  intro n
  rw [List.getElem?_map, getElem?_numbered]
  cases l[n]? <;> rfl

/-- A page is a stretch of the list, and its last item has the offset after the page. -/
theorem page_spec (cost : Item → ℕ) (l : List Item) (room offset : ℕ) :
    (page cost l room offset).map Prod.snd =
      (l.drop offset).take (page cost l room offset).length ∧
    ∀ last ∈ (page cost l room offset).getLast?,
      last.1 = offset + (page cost l room offset).length := by
  have hpage : page cost l room offset =
      ((numbered l).drop offset).take (page cost l room offset).length :=
    List.prefix_iff_eq_take.mp (fill_isPrefix room _)
  constructor
  · conv_lhs => rw [hpage]
    rw [List.map_take, List.map_drop, map_snd_numbered]
  · intro last hlast
    have hne : page cost l room offset ≠ [] := by
      rintro hnil
      simp [hnil] at hlast
    have hpos := List.length_pos_iff.mpr hne
    have hget : (page cost l room offset)[(page cost l room offset).length - 1]? = some last := by
      rw [← List.getLast?_eq_getElem?]
      exact hlast
    rw [hpage, List.getElem?_take, if_pos (by
      rw [← hpage]
      omega), List.getElem?_drop, getElem?_numbered, ← hpage] at hget
    obtain ⟨x, -, hx⟩ := Option.map_eq_some_iff.mp hget
    rw [← hx]
    show offset + _ + 1 = _
    omega

/-- An empty page means that the list is over. -/
theorem drop_eq_nil_of_page {room offset : ℕ} (hroom : ∀ x ∈ l, cost x ≤ room)
    (h : page cost l room offset = []) : l.drop offset = [] := by
  rw [← map_snd_numbered l, ← List.map_drop, List.map_eq_nil_iff]
  unfold page at h
  cases hrest : (numbered l).drop offset with
  | nil => rfl
  | cons x rest =>
    have hmem : x.2 ∈ l := by
      rw [← map_snd_numbered l]
      exact List.mem_map_of_mem (List.mem_of_mem_drop (hrest ▸ List.mem_cons_self))
    rw [hrest, fill, if_pos (hroom _ hmem)] at h
    cases h

/-- **Page by page** a reader gets the list from its offset on, whatever the rooms are. -/
theorem Reads.eq_drop (cost : Item → ℕ) (l : List Item)
    {next : ℕ → ℕ → Option (List (ℕ × Item))} {big : ℕ → Prop}
    (hnext : ∀ room offset items, next room offset = some items →
      items = page cost l room offset)
    (hbig : ∀ room, big room → ∀ x ∈ l, cost x ≤ room) {offset : ℕ} {out : List Item}
    (h : Reads next big offset out) : out = l.drop offset := by
  induction h with
  | stop hroom hempty =>
    exact (drop_eq_nil_of_page (hbig _ hroom) (hnext _ _ _ hempty).symm).symm
  | more _ hitems hlast _ ih =>
    obtain rfl := hnext _ _ _ hitems
    obtain ⟨hstretch, hoffset⟩ := page_spec cost l _ _
    rw [ih, hstretch, hoffset _ hlast, ← List.drop_drop, List.take_append_drop]

end Paging
