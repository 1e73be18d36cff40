import Mathlib.Order.Basic
import Mathlib.Data.List.Basic
import Mathlib.Tactic.SplitIfs

/-!
# A channel with a queue beside it

A channel carries some items itself. The others wait in a queue beside it, and the channel
carries a token for each of them.
-/

namespace SideQueue

variable {Item Rank : Type*}

/-- How many tokens a channel carries; a token is `none`. -/
def tokens (channel : List (Option Item)) : ℕ := channel.countP Option.isNone

/-- The empty channel holds no token. -/
@[simp] theorem tokens_nil : tokens ([] : List (Option Item)) = 0 := rfl

/-- An item is no token. -/
@[simp] theorem tokens_item (item : Item) (channel : List (Option Item)) :
    tokens (some item :: channel) = tokens channel := by
  simp [tokens]

/-- A token counts once. -/
@[simp] theorem tokens_token (channel : List (Option Item)) :
    tokens (none :: channel) = tokens channel + 1 := by
  simp [tokens]

/-- Tokens are counted part by part. -/
@[simp] theorem tokens_append (first second : List (Option Item)) :
    tokens (first ++ second) = tokens first + tokens second := by
  simp [tokens]

/-- The items in the order a reader of the channel gets them. -/
def lineUp : List (Option Item) → List Item → List Item
  | [], _ => []
  | some item :: channel, side => item :: lineUp channel side
  | none :: channel, [] => lineUp channel []
  | none :: channel, item :: side => item :: lineUp channel side

/-- An item that goes through the channel is the last. -/
theorem lineUp_concat_item (channel : List (Option Item)) (side : List Item) (item : Item) :
    lineUp (channel ++ [some item]) side = lineUp channel side ++ [item] := by
  induction channel generalizing side with
  | nil => rfl
  | cons entry channel ih =>
    cases entry with
    | some other => simp [lineUp, ih]
    | none => cases side <;> simp [lineUp, ih]

/-- An item that goes through the queue is the last once its token is sent. -/
theorem lineUp_concat_token {channel : List (Option Item)} {side : List Item} (item : Item)
    (h : tokens channel = side.length) :
    lineUp (channel ++ [none]) (side ++ [item]) = lineUp channel side ++ [item] := by
  induction channel generalizing side with
  | nil =>
    obtain rfl : side = [] := List.length_eq_zero_iff.mp (by simpa using h.symm)
    rfl
  | cons entry channel ih =>
    cases entry with
    | some other =>
      have hcount : tokens channel = side.length := by simpa using h
      simp [lineUp, ih hcount]
    | none =>
      cases side with
      | nil => simp at h
      | cons first side =>
        have hcount : tokens channel = side.length := by simpa using h
        simp [lineUp, ih hcount]

/-- A channel of tokens only reads the queue. -/
theorem lineUp_of_tokens {channel : List (Option Item)} {side : List Item}
    (htokens : ∀ entry ∈ channel, entry = none) (h : tokens channel = side.length) :
    lineUp channel side = side := by
  induction channel generalizing side with
  | nil =>
    obtain rfl : side = [] := List.length_eq_zero_iff.mp (by simpa using h.symm)
    rfl
  | cons entry channel ih =>
    obtain ⟨rfl, hothers⟩ := List.forall_mem_cons.mp htokens
    cases side with
    | nil => simp at h
    | cons first side =>
      have hcount : tokens channel = side.length := by simpa using h
      simp [lineUp, ih hothers hcount]

/-- Everything in the line is in the channel or in the queue. -/
theorem mem_of_mem_lineUp {channel : List (Option Item)} {side : List Item} {item : Item}
    (h : item ∈ lineUp channel side) : some item ∈ channel ∨ item ∈ side := by
  induction channel generalizing side with
  | nil => simp [lineUp] at h
  | cons entry channel ih =>
    cases entry with
    | some other =>
      rcases List.mem_cons.mp h with rfl | h
      · exact .inl (List.mem_cons_self ..)
      · rcases ih h with hmem | hmem
        · exact .inl (List.mem_cons_of_mem _ hmem)
        · exact .inr hmem
    | none =>
      cases side with
      | nil =>
        rcases ih h with hmem | hmem
        · exact .inl (List.mem_cons_of_mem _ hmem)
        · exact .inr hmem
      | cons first side =>
        rcases List.mem_cons.mp h with rfl | h
        · exact .inr (List.mem_cons_self ..)
        · rcases ih h with hmem | hmem
          · exact .inl (List.mem_cons_of_mem _ hmem)
          · exact .inr (List.mem_cons_of_mem _ hmem)

/-- Every item of the channel is in the line. -/
theorem mem_lineUp_of_mem {channel : List (Option Item)} {side : List Item} {item : Item}
    (h : some item ∈ channel) : item ∈ lineUp channel side := by
  induction channel generalizing side with
  | nil => simp at h
  | cons entry channel ih =>
    cases entry with
    | some other =>
      rcases List.mem_cons.mp h with heq | h
      · rw [lineUp, Option.some.inj heq]
        exact List.mem_cons_self ..
      · exact List.mem_cons_of_mem _ (ih h)
    | none =>
      have hmem : some item ∈ channel := by simpa using h
      cases side with
      | nil => exact ih hmem
      | cons first side => exact List.mem_cons_of_mem _ (ih hmem)

/-- So is every item of the queue that has a token. -/
theorem mem_lineUp_of_mem_side {channel : List (Option Item)} {side : List Item} {item : Item}
    (hlength : side.length ≤ tokens channel) (h : item ∈ side) : item ∈ lineUp channel side := by
  induction channel generalizing side with
  | nil =>
    obtain rfl : side = [] := List.length_eq_zero_iff.mp (by simpa using hlength)
    simp at h
  | cons entry channel ih =>
    cases entry with
    | some other => exact List.mem_cons_of_mem _ (ih (by simpa using hlength) h)
    | none =>
      cases side with
      | nil => simp at h
      | cons first side =>
        rcases List.mem_cons.mp h with rfl | h
        · exact List.mem_cons_self ..
        · exact List.mem_cons_of_mem _ (ih (by simpa using hlength) h)

/-- No item of the channel is behind a token. -/
def ItemsFirst : List (Option Item) → Prop
  | [] => True
  | some _ :: channel => ItemsFirst channel
  | none :: channel => ∀ entry ∈ channel, entry = none

/-- A channel that still has an item starts with one. -/
theorem ItemsFirst.exists_cons {channel : List (Option Item)} {item : Item}
    (h : ItemsFirst channel) (hmem : some item ∈ channel) :
    ∃ first rest, channel = some first :: rest := by
  cases channel with
  | nil => simp at hmem
  | cons entry channel =>
    cases entry with
    | some first => exact ⟨first, channel, rfl⟩
    | none =>
      have hnone := h (some item) (by simpa using hmem)
      simp at hnone

/-- When the queue drops its first item for another and its tokens stay where they are, nothing
but that other item is new in the line. -/
theorem mem_of_mem_drop {channel : List (Option Item)} (oldest : Item) {last item : Item}
    {side : List Item} (hcount : tokens channel = side.length + 1)
    (h : item ∈ lineUp channel (side ++ [last])) :
    item ∈ lineUp channel (oldest :: side) ∨ item = last := by
  rcases mem_of_mem_lineUp h with hmem | hmem
  · exact .inl (mem_lineUp_of_mem hmem)
  · rcases List.mem_append.mp hmem with hmem | hmem
    · apply Or.inl
      apply mem_lineUp_of_mem_side _ (List.mem_cons_of_mem _ hmem)
      exact Nat.le_of_eq (by simp [hcount])
    · exact .inr (List.mem_singleton.mp hmem)

variable [Preorder Rank] {rank : Item → Rank}

/-- The items are in the order of their ranks. -/
def InOrder (rank : Item → Rank) (items : List Item) : Prop :=
  items.Pairwise fun first second => rank first < rank second

/-- **Losing the oldest.** When the queue drops its first item for one that comes last of all,
and its tokens stay where they are, the line stays in order if and only if no item of the channel
is behind a token. -/
theorem inOrder_drop_iff {channel : List (Option Item)} {oldest last : Item} {side : List Item}
    (h : tokens channel = side.length + 1)
    (horder : InOrder rank (lineUp channel (oldest :: side) ++ [last])) :
    InOrder rank (lineUp channel (side ++ [last])) ↔ ItemsFirst channel := by
  induction channel generalizing oldest side with
  | nil => simp at h
  | cons entry channel ih =>
    cases entry with
    | some item =>
      have hcount : tokens channel = side.length + 1 := by simpa using h
      obtain ⟨hfirst, hrest⟩ := List.pairwise_cons.mp horder
      -- what is behind the item was behind it before
      have hbehind : ∀ other ∈ lineUp channel (side ++ [last]), rank item < rank other := by
        intro other hother
        apply hfirst
        rcases mem_of_mem_drop oldest hcount hother with hmem | rfl
        · exact List.mem_append_left _ hmem
        · exact List.mem_append_right _ (List.mem_singleton_self _)
      rw [ItemsFirst, ← ih hcount hrest]
      exact ⟨fun h => (List.pairwise_cons.mp h).2, fun h => List.pairwise_cons.mpr ⟨hbehind, h⟩⟩
    | none =>
      have hcount : tokens channel = side.length := by simpa using h
      obtain ⟨-, hrest⟩ := List.pairwise_cons.mp horder
      cases side with
      | nil =>
        constructor
        · intro hnew entry hentry
          cases entry with
          | none => rfl
          | some item =>
            have hbefore := (List.pairwise_append.mp hrest).2.2 item (mem_lineUp_of_mem hentry)
              last (List.mem_singleton_self _)
            have hafter := (List.pairwise_cons.mp hnew).1 item (mem_lineUp_of_mem hentry)
            exact absurd hbefore (lt_asymm hafter)
        · intro htokens
          have hempty : lineUp channel [] = ([] : List Item) := lineUp_of_tokens htokens hcount
          rw [List.nil_append, lineUp, hempty]
          exact List.pairwise_singleton _ _
      | cons second side =>
        have hcount' : tokens channel = side.length + 1 := by simpa using hcount
        constructor
        · intro hnew entry hentry
          have hitems := (ih hcount' hrest).mp (List.pairwise_cons.mp hnew).2
          cases entry with
          | none => rfl
          | some item =>
            -- the item in front of the channel came before the second of the queue, and is
            -- now behind it
            obtain ⟨first, others, rfl⟩ := hitems.exists_cons hentry
            have hsecond : second ∈ lineUp others (second :: side) := by
              apply mem_lineUp_of_mem_side _ (List.mem_cons_self ..)
              exact Nat.le_of_eq (by simpa using hcount'.symm)
            have hbefore := (List.pairwise_cons.mp (List.pairwise_append.mp hrest).1).1
              second hsecond
            have hafter := (List.pairwise_cons.mp hnew).1 first (List.mem_cons_self ..)
            exact absurd hbefore (lt_asymm hafter)
        · intro htokens
          have hold : lineUp channel (second :: side) = second :: side :=
            lineUp_of_tokens htokens hcount
          have hnew : lineUp channel (side ++ [last]) = side ++ [last] :=
            lineUp_of_tokens htokens (by simpa using hcount')
          rw [hold] at hrest
          rw [List.cons_append, lineUp, hnew]
          exact hrest

end SideQueue
