import Mathlib.Data.Finset.Card
import Mathlib.Data.Finset.Filter
import Mathlib.Data.List.Nodup
import Mathlib.Logic.Relation
import Mathlib.Tactic.SplitIfs

/-!
# Walks that go on at what they find

A walk lists the items it visits, each before those found in it, and skips an item whose key was
visited before. Visiting an item or finding the next one in it may fail, which ends the walk. Where
the keys of what is reached are finitely many every walk ends; a walk that ends well has
listed every key that is reached, once, and each start only after all that is reached from the
starts before it.
-/

namespace PreorderWalk

variable {Item Key Error : Type*}

/-- The walk over the items still to visit, with the keys visited and the items listed so far. It is
`none` where the number of steps it may take does not suffice. -/
def preorder [DecidableEq Key] (key : Item → Key)
    (visit : Item → Except Error (List (Except Error Item))) :
    ℕ → List (Except Error Item) → List Key → List Item → Option (Except Error (List Item))
  | 0, _, _, _ => none
  | _ + 1, [], _, items => some (.ok items)
  | _ + 1, .error e :: _, _, _ => some (.error e)
  | fuel + 1, .ok item :: rest, visited, items =>
    if key item ∈ visited then preorder key visit fuel rest visited items
    else
      match visit item with
      | .error e => some (.error e)
      | .ok found => preorder key visit fuel (found ++ rest) (key item :: visited) (items ++ [item])

/-- One item is found in the other. -/
def Child (visit : Item → Except Error (List (Except Error Item))) (a b : Item) : Prop :=
  ∃ found, visit a = .ok found ∧ .ok b ∈ found

/-- An item is reached from another one. -/
abbrev Reached (visit : Item → Except Error (List (Except Error Item))) : Item → Item → Prop :=
  Relation.ReflTransGen (Child visit)

/-- Items with the same key have the same keys in them. -/
def KeyedChildren (key : Item → Key) (visit : Item → Except Error (List (Except Error Item))) :
    Prop :=
  ∀ a b c found, key a = key b → visit a = .ok found → Child visit b c →
    ∃ d, .ok d ∈ found ∧ key d = key c

variable {key : Item → Key} {visit : Item → Except Error (List (Except Error Item))}

/-- A walk ends where only finitely many keys are reached. -/
theorem exists_preorder [DecidableEq Key] (keys : Finset Key)
    {work : List (Except Error Item)} {visited : List Key} {items : List Item}
    (hkeys : ∀ a, .ok a ∈ work → ∀ b, Reached visit a b → key b ∈ keys) :
    ∃ fuel result, preorder key visit fuel work visited items = some result := by
  generalize hn : (keys.filter (· ∉ visited)).card = n
  induction n using Nat.strong_induction_on generalizing work visited items with
  | _ n ih =>
    induction work with
    | nil => exact ⟨1, _, rfl⟩
    | cons head rest ihwork =>
      cases head with
      | error e => exact ⟨1, _, rfl⟩
      | ok item =>
        have hrest : ∀ a, .ok a ∈ rest → ∀ b, Reached visit a b → key b ∈ keys :=
          fun a ha => hkeys a (List.mem_cons_of_mem _ ha)
        by_cases hvisited : key item ∈ visited
        · obtain ⟨fuel, result, h⟩ := ihwork hrest
          exact ⟨fuel + 1, result, by rw [preorder, if_pos hvisited, h]⟩
        · cases hvisit : visit item with
          | error e => exact ⟨1, .error e, by rw [preorder, if_neg hvisited, hvisit]⟩
          | ok found =>
            have hitem := hkeys item List.mem_cons_self
            have hfewer : (keys.filter (· ∉ key item :: visited)).card < n := by
              rw [← hn]
              refine Finset.card_lt_card ⟨fun k hk => ?_, fun hsub => ?_⟩
              · simp only [Finset.mem_filter, List.mem_cons, not_or] at hk ⊢
                exact ⟨hk.1, hk.2.2⟩
              · have hmem := hsub (Finset.mem_filter.mpr ⟨hitem item .refl, hvisited⟩)
                simp at hmem
            have hwork : ∀ a, .ok a ∈ found ++ rest → ∀ b, Reached visit a b → key b ∈ keys := by
              intro a ha b hb
              rcases List.mem_append.mp ha with ha | ha
              · exact hitem b (.head ⟨found, hvisit, ha⟩ hb)
              · exact hrest a ha b hb
            obtain ⟨fuel, result, h⟩ := ih _ hfewer hwork rfl
            exact ⟨fuel + 1, result, by rw [preorder, if_neg hvisited, hvisit]; exact h⟩

/-- A walk over which nothing fails ends well. -/
theorem preorder_ok [DecidableEq Key] {fuel : ℕ} {work : List (Except Error Item)}
    {visited : List Key} {items : List Item} {result : Except Error (List Item)}
    (hwork : ∀ c ∈ work, ∃ a, c = .ok a ∧ ∀ b, Reached visit a b →
      ∃ found, visit b = .ok found ∧ ∀ c ∈ found, ∃ d, c = .ok d)
    (h : preorder key visit fuel work visited items = some result) :
    ∃ all, result = .ok all := by
  induction fuel generalizing work visited items with
  | zero => simp [preorder] at h
  | succ fuel ih =>
    cases work with
    | nil => exact ⟨items, (Option.some.inj h).symm⟩
    | cons head rest =>
      obtain ⟨item, rfl, hitem⟩ := hwork head List.mem_cons_self
      have hrest := fun c hc => hwork c (List.mem_cons_of_mem _ hc)
      rw [preorder] at h
      by_cases hvisited : key item ∈ visited
      · rw [if_pos hvisited] at h
        exact ih hrest h
      · obtain ⟨found, hvisit, hfound⟩ := hitem item .refl
        rw [if_neg hvisited, hvisit] at h
        refine ih (fun c hc => ?_) h
        rcases List.mem_append.mp hc with hc | hc
        · obtain ⟨d, rfl⟩ := hfound c hc
          exact ⟨d, rfl, fun b hb => hitem b (.head ⟨found, hvisit, hc⟩ hb)⟩
        · exact hrest c hc

/-- Where the item at a position of the list comes from: it is reached from a start, all that is
reached from the starts before has been listed, and it is that start or found in an item
listed before. -/
def Origin (key : Item → Key) (visit : Item → Except Error (List (Except Error Item)))
    (starts items : List Item) (n : ℕ) (a : Item) : Prop :=
  ∃ i s, starts[i]? = some s ∧ Reached visit s a ∧
    (∀ (k : ℕ) (s' b : Item), k < i → starts[k]? = some s' → Reached visit s' b →
      key b ∈ (items.take n).map key) ∧
    (a = s ∨ ∃ (m : ℕ) (b : Item), m < n ∧ items[m]? = some b ∧ Child visit b a)

/-- What a walk that ended well has listed. -/
structure Walked (key : Item → Key) (visit : Item → Except Error (List (Except Error Item)))
    (starts items : List Item) : Prop where
  nodup : (items.map key).Nodup
  visits : ∀ a ∈ items, ∃ found, visit a = .ok found
  origin : ∀ (n : ℕ) (a : Item), items[n]? = some a → Origin key visit starts items n a
  complete : ∀ s ∈ starts, ∀ b, Reached visit s b → key b ∈ items.map key

/-- Items listed at two places have different keys. -/
theorem Walked.index_eq {starts items : List Item} (h : Walked key visit starts items) {i j : ℕ}
    {a b : Item} (ha : items[i]? = some a) (hb : items[j]? = some b) (hkeys : key a = key b) :
    i = j := by
  have hi : i < (items.map key).length := by
    simpa using (List.getElem?_eq_some_iff.mp ha).1
  refine (List.getElem?_inj hi h.nodup).mp ?_
  rw [List.getElem?_map, List.getElem?_map, ha, hb, Option.map_some, Option.map_some, hkeys]

/-- An item whose key is listed before a place is listed before it. -/
theorem Walked.lt_of_mem_take {starts items : List Item} (h : Walked key visit starts items)
    {i n : ℕ} {a b : Item} (ha : items[i]? = some a) (hmem : key b ∈ (items.take n).map key)
    (hkeys : key a = key b) : i < n := by
  obtain ⟨c, hc, hkey⟩ := List.mem_map.mp hmem
  obtain ⟨j, hj, rfl⟩ := List.mem_iff_getElem.mp hc
  rw [List.length_take] at hj
  have hget : items[j]? = some (items.take n)[j] := by
    rw [List.getElem_take, List.getElem?_eq_getElem]
  have hij := h.index_eq ha hget (hkeys.trans hkey.symm)
  omega

/-- The walk on its way: the first starts are begun, and the items found but not visited are
reached from the last of them. -/
structure Walking (key : Item → Key) (visit : Item → Except Error (List (Except Error Item)))
    (starts : List Item) (i : ℕ) (found : List (Except Error Item)) (visited : List Key)
    (items : List Item) : Prop where
  visited_iff : ∀ k, k ∈ visited ↔ k ∈ items.map key
  nodup : (items.map key).Nodup
  visits : ∀ a ∈ items, ∃ cs, visit a = .ok cs ∧ ∀ c, .ok c ∈ cs → key c ∈ visited ∨ .ok c ∈ found
  begun : ∀ (k : ℕ) (s : Item), k < i → starts[k]? = some s → key s ∈ visited ∨ .ok s ∈ found
  found_reached : ∀ c, .ok c ∈ found → ∃ (k : ℕ) (s : Item), k + 1 = i ∧ starts[k]? = some s ∧
    Reached visit s c ∧ (c = s ∨ ∃ a ∈ items, Child visit a c)
  done : ∀ (k : ℕ) (s b : Item), k + 1 < i → starts[k]? = some s → Reached visit s b →
    key b ∈ visited
  origin : ∀ (n : ℕ) (a : Item), items[n]? = some a → Origin key visit starts items n a

/-- An item keeps its origin when more items are appended. -/
theorem Origin.append {starts items : List Item} {n : ℕ} {a b : Item} (hn : n < items.length)
    (h : Origin key visit starts items n a) : Origin key visit starts (items ++ [b]) n a := by
  obtain ⟨i, s, hs, hreached, hbefore, hfrom⟩ := h
  refine ⟨i, s, hs, hreached, ?_, ?_⟩
  · rwa [List.take_append_of_le_length hn.le]
  · refine hfrom.imp_right ?_
    rintro ⟨m, c, hm, hc, hchild⟩
    exact ⟨m, c, hm, by rwa [List.getElem?_append_left (hm.trans hn)], hchild⟩

namespace Walking

variable {starts items : List Item} {i : ℕ} {found rest : List (Except Error Item)}
  {visited : List Key} {item : Item}

/-- The walk starts with no item done. -/
theorem start : Walking key visit starts 0 [] [] [] where
  visited_iff k := by simp
  nodup := List.nodup_nil
  visits a ha := by cases ha
  begun k s hk := absurd hk (Nat.not_lt_zero k)
  found_reached c hc := by cases hc
  done k s b hk := absurd hk (Nat.not_lt_zero _)
  origin n a ha := by simp at ha

/-- Once nothing found is left, all that is reached from the starts so far has been visited. -/
theorem reached (h : Walking key visit starts i [] visited items) (hkey : KeyedChildren key visit)
    {k : ℕ} {s b : Item} (hk : k < i) (hs : starts[k]? = some s) (hb : Reached visit s b) :
    key b ∈ visited := by
  induction hb with
  | refl =>
    rcases h.begun k s hk hs with hvisited | hfound
    · exact hvisited
    · cases hfound
  | tail _ hchild ih =>
    obtain ⟨a, ha, hkeys⟩ := List.mem_map.mp ((h.visited_iff _).mp ih)
    obtain ⟨cs, hvisit, hcs⟩ := h.visits a ha
    obtain ⟨d, hd, hdkey⟩ := hkey a _ _ cs hkeys hvisit hchild
    rcases hcs d hd with hvisited | hfound
    · exact hdkey ▸ hvisited
    · cases hfound

/-- The next start is begun. -/
theorem next (h : Walking key visit starts i [] visited items) (hkey : KeyedChildren key visit)
    {s : Item} (hs : starts[i]? = some s) :
    Walking key visit starts (i + 1) [.ok s] visited items where
  visited_iff := h.visited_iff
  nodup := h.nodup
  visits a ha := by
    obtain ⟨cs, hvisit, hcs⟩ := h.visits a ha
    refine ⟨cs, hvisit, fun c hc => Or.inl ?_⟩
    rcases hcs c hc with hvisited | hfound
    · exact hvisited
    · cases hfound
  begun k s' hk hs' := by
    rcases Nat.lt_succ_iff_lt_or_eq.mp hk with hk | rfl
    · rcases h.begun k s' hk hs' with hvisited | hfound
      · exact Or.inl hvisited
      · cases hfound
    · obtain rfl : s = s' := Option.some.inj (hs.symm.trans hs')
      exact Or.inr List.mem_cons_self
  found_reached c hc := by
    obtain rfl : c = s := by simpa using hc
    exact ⟨i, c, rfl, hs, .refl, Or.inl rfl⟩
  done k s' b hk hs' hb := h.reached hkey (Nat.succ_lt_succ_iff.mp hk) hs' hb
  origin := h.origin

/-- An item that was visited before is skipped. -/
theorem skip (h : Walking key visit starts i (.ok item :: rest) visited items)
    (hvisited : key item ∈ visited) : Walking key visit starts i rest visited items := by
  have hleft {c : Item} (hc : key c ∈ visited ∨ .ok c ∈ (.ok item :: rest : List _)) :
      key c ∈ visited ∨ .ok c ∈ rest := by
    rcases hc with hc | hc
    · exact Or.inl hc
    · rcases List.mem_cons.mp hc with heq | hc
      · obtain rfl : c = item := Except.ok.inj heq
        exact Or.inl hvisited
      · exact Or.inr hc
  exact {
    visited_iff := h.visited_iff
    nodup := h.nodup
    visits := fun a ha => (h.visits a ha).imp fun cs hcs =>
      ⟨hcs.1, fun c hc => hleft (hcs.2 c hc)⟩
    begun := fun k s hk hs => hleft (h.begun k s hk hs)
    found_reached := fun c hc => h.found_reached c (List.mem_cons_of_mem _ hc)
    done := h.done
    origin := h.origin }

/-- An item is visited, and what is in it is found. -/
theorem expand (h : Walking key visit starts i (.ok item :: rest) visited items)
    (hvisited : key item ∉ visited) {cs : List (Except Error Item)} (hvisit : visit item = .ok cs) :
    Walking key visit starts i (cs ++ rest) (key item :: visited) (items ++ [item]) := by
  have hleft {c : Item} (hc : key c ∈ visited ∨ .ok c ∈ (.ok item :: rest : List _)) :
      key c ∈ key item :: visited ∨ .ok c ∈ cs ++ rest := by
    rcases hc with hc | hc
    · exact Or.inl (List.mem_cons_of_mem _ hc)
    · rcases List.mem_cons.mp hc with heq | hc
      · obtain rfl : c = item := Except.ok.inj heq
        exact Or.inl List.mem_cons_self
      · exact Or.inr (List.mem_append_right _ hc)
  have hnew : key item ∉ items.map key := fun hmem => hvisited ((h.visited_iff _).mpr hmem)
  obtain ⟨k, s, hk, hs, hreached, hfrom⟩ := h.found_reached item List.mem_cons_self
  exact {
    visited_iff := fun k => by
      rw [List.mem_cons, h.visited_iff, List.map_append, List.mem_append, List.map_singleton,
        List.mem_singleton, or_comm]
    nodup := by
      rw [List.map_append, List.map_singleton]
      exact h.nodup.append (List.nodup_singleton _) (by simpa using hnew)
    visits := fun a ha => by
      rcases List.mem_append.mp ha with ha | ha
      · obtain ⟨cs', hvisit', hcs'⟩ := h.visits a ha
        exact ⟨cs', hvisit', fun c hc => hleft (hcs' c hc)⟩
      · obtain rfl := List.mem_singleton.mp ha
        exact ⟨cs, hvisit, fun c hc => Or.inr (List.mem_append_left _ hc)⟩
    begun := fun k s hk hs => hleft (h.begun k s hk hs)
    found_reached := fun c hc => by
      rcases List.mem_append.mp hc with hc | hc
      · have hchild : Child visit item c := ⟨cs, hvisit, hc⟩
        exact ⟨k, s, hk, hs, hreached.tail hchild, Or.inr ⟨item, by simp, hchild⟩⟩
      · obtain ⟨k', s', hk', hs', hreached', hfrom'⟩ :=
          h.found_reached c (List.mem_cons_of_mem _ hc)
        refine ⟨k', s', hk', hs', hreached', hfrom'.imp_right ?_⟩
        rintro ⟨a, ha, hchild⟩
        exact ⟨a, List.mem_append_left _ ha, hchild⟩
    done := fun k s b hk hs hb => List.mem_cons_of_mem _ (h.done k s b hk hs hb)
    origin := fun n a ha => by
      rcases Nat.lt_or_ge n items.length with hn | hn
      · rw [List.getElem?_append_left hn] at ha
        exact Origin.append hn (h.origin n a ha)
      · obtain ⟨rfl, rfl⟩ : n = items.length ∧ a = item := by
          have hlt := (List.getElem?_eq_some_iff.mp ha).1
          rw [List.length_append, List.length_singleton] at hlt
          obtain rfl : n = items.length := by omega
          exact ⟨rfl, by simpa using ha.symm⟩
        refine ⟨k, s, hs, hreached, fun k' s' b hk' hs' hb => ?_, hfrom.imp_right ?_⟩
        · rw [List.take_left]
          exact (h.visited_iff _).mp (h.done k' s' b (by omega) hs' hb)
        · rintro ⟨b, hb, hchild⟩
          obtain ⟨m, hm, rfl⟩ := List.mem_iff_getElem.mp hb
          refine ⟨m, _, hm, ?_, hchild⟩
          rw [List.getElem?_append_left hm, List.getElem?_eq_getElem hm] }

end Walking

/-- **Walks that end well.** A walk that returns a list has listed every key that is reached from
its starts, once, in the order of the starts and each item after the one it was found in. -/
theorem walked_of_preorder [DecidableEq Key] (hkey : KeyedChildren key visit)
    {starts all : List Item} {fuel : ℕ}
    (h : preorder key visit fuel (starts.map .ok) [] [] = some (.ok all)) :
    Walked key visit starts all := by
  have hloop (i : ℕ) (found : List (Except Error Item)) (visited : List Key) (items : List Item)
      (hwalk : Walking key visit starts i found visited items)
      (hrun : preorder key visit fuel (found ++ (starts.drop i).map .ok) visited items =
        some (.ok all)) : Walked key visit starts all := by
    clear h
    induction fuel generalizing i found visited items with
    | zero => simp [preorder] at hrun
    | succ fuel ih =>
      have hstep (i : ℕ) (head : Except Error Item) (rest : List (Except Error Item))
          (hwalk : Walking key visit starts i (head :: rest) visited items)
          (hrun : preorder key visit (fuel + 1) (head :: (rest ++ (starts.drop i).map .ok)) visited
            items = some (.ok all)) : Walked key visit starts all := by
        cases head with
        | error e => simp [preorder] at hrun
        | ok item =>
          rw [preorder] at hrun
          by_cases hvisited : key item ∈ visited
          · rw [if_pos hvisited] at hrun
            exact ih i rest visited items (hwalk.skip hvisited) hrun
          · rw [if_neg hvisited] at hrun
            cases hvisit : visit item with
            | error e => simp [hvisit] at hrun
            | ok cs =>
              simp only [hvisit, ← List.append_assoc] at hrun
              exact ih i _ _ _ (hwalk.expand hvisited hvisit) hrun
      cases found with
      | cons head rest => exact hstep i head rest hwalk hrun
      | nil =>
        cases hs : starts[i]? with
        | some s =>
          refine hstep (i + 1) (.ok s) [] (hwalk.next hkey hs) ?_
          rwa [List.drop_eq_getElem_cons (List.getElem?_eq_some_iff.mp hs).1,
            (List.getElem?_eq_some_iff.mp hs).2] at hrun
        | none =>
          have hlength : starts.length ≤ i := List.getElem?_eq_none_iff.mp hs
          rw [List.drop_eq_nil_of_le hlength] at hrun
          obtain rfl : items = all := by simpa [preorder] using hrun
          refine ⟨hwalk.nodup, fun a ha => (hwalk.visits a ha).imp fun _ h => h.1, hwalk.origin,
            fun s hs b hb => ?_⟩
          obtain ⟨k, hk, rfl⟩ := List.mem_iff_getElem.mp hs
          exact (hwalk.visited_iff _).mp
            (hwalk.reached hkey (by omega) (List.getElem?_eq_getElem hk) hb)
  exact hloop 0 [] [] [] .start h

end PreorderWalk
