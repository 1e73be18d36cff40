import Mathlib.Data.List.Induction
import Mathlib.Data.List.Nodup
import Mathlib.Data.List.Basic

/-!
# Maps that remember insertion order

The map type of a scripting language: a key is stored once, setting a present
key keeps its position, and a new key goes to the end. Iteration follows that
order. The entries carry the proof that no key occurs twice.
-/

/-- A finite map whose entries are kept in insertion order. -/
structure OrderedMap (Key Value : Type*) where
  /-- The entries, oldest first. -/
  entries : List (Key × Value)
  /-- No key is stored twice. -/
  nodup_keys : (entries.map Prod.fst).Nodup

namespace OrderedMap

variable {Key Value : Type*}

/-- The map without entries. -/
def empty : OrderedMap Key Value := ⟨[], List.nodup_nil⟩

/-- The keys in insertion order. -/
def keys (m : OrderedMap Key Value) : List Key := m.entries.map Prod.fst

/-- The values in insertion order. -/
def values (m : OrderedMap Key Value) : List Value := m.entries.map Prod.snd

/-- The empty map has no values. -/
@[simp] theorem values_empty : (empty : OrderedMap Key Value).values = [] := rfl

/-- Change every value, under the same keys. -/
def mapValues {Value' : Type*} (f : Value → Value') (m : OrderedMap Key Value) :
    OrderedMap Key Value' where
  entries := m.entries.map fun e => (e.1, f e.2)
  nodup_keys := by simpa [Function.comp_def] using m.nodup_keys

/-- The values of a mapped map are the mapped values. -/
@[simp] theorem values_mapValues {Value' : Type*} (f : Value → Value')
    (m : OrderedMap Key Value) : (m.mapValues f).values = m.values.map f := by
  simp [values, mapValues]

/-- Mapping the values keeps the keys. -/
@[simp] theorem keys_mapValues {Value' : Type*} (f : Value → Value') (m : OrderedMap Key Value) :
    (m.mapValues f).keys = m.keys := by
  simp [keys, mapValues]

/-- Equal entries make equal maps. -/
theorem ext_entries {m m' : OrderedMap Key Value} (h : m.entries = m'.entries) : m = m' := by
  cases m
  cases m'
  congr

variable [DecidableEq Key]

/-- The value of the first entry with the key. -/
def lookupIn (k : Key) : List (Key × Value) → Option Value
  | [] => none
  | (k', v) :: rest => if k' = k then some v else lookupIn k rest

/-- Replace the value stored under `k`, or append a new entry. -/
def setIn (k : Key) (v : Value) : List (Key × Value) → List (Key × Value)
  | [] => [(k, v)]
  | (k', v') :: rest => if k' = k then (k, v) :: rest else (k', v') :: setIn k v rest

/-- The value stored under `k`. -/
def get? (m : OrderedMap Key Value) (k : Key) : Option Value := lookupIn k m.entries

/-- Whether something is stored under `k`. -/
def has (m : OrderedMap Key Value) (k : Key) : Bool := (m.get? k).isSome

/-- Setting a key adds it and no other. -/
theorem mem_keys_setIn {k k' : Key} {v : Value} {l : List (Key × Value)} :
    k' ∈ (setIn k v l).map Prod.fst ↔ k' = k ∨ k' ∈ l.map Prod.fst := by
  induction l with
  | nil => simp [setIn]
  | cons entry rest ih =>
    obtain ⟨k'', v''⟩ := entry
    by_cases h : k'' = k
    · simp [setIn, h]
    · simp only [setIn, if_neg h, List.map_cons, List.mem_cons, ih]
      tauto

/-- Setting a key names no key twice. -/
theorem nodup_setIn {k : Key} {v : Value} {l : List (Key × Value)}
    (h : (l.map Prod.fst).Nodup) : ((setIn k v l).map Prod.fst).Nodup := by
  induction l with
  | nil => simp [setIn]
  | cons entry rest ih =>
    obtain ⟨k', v'⟩ := entry
    simp only [List.map_cons, List.nodup_cons] at h
    by_cases hk : k' = k
    · subst hk
      simp only [setIn, if_pos, List.map_cons, List.nodup_cons]
      exact h
    · simp only [setIn, if_neg hk, List.map_cons, List.nodup_cons, mem_keys_setIn]
      exact ⟨by simpa [hk] using h.1, ih h.2⟩

/-- Store `v` under `k`, in the place of the old entry if there is one. -/
def set (m : OrderedMap Key Value) (k : Key) (v : Value) : OrderedMap Key Value :=
  ⟨setIn k v m.entries, nodup_setIn m.nodup_keys⟩

/-- Remove the entry stored under `k`. -/
def delete (m : OrderedMap Key Value) (k : Key) : OrderedMap Key Value :=
  ⟨m.entries.filter fun entry => entry.1 ≠ k,
    m.nodup_keys.sublist (List.filter_sublist.map Prod.fst)⟩

/-- The empty map has nothing under any key. -/
@[simp] theorem get?_empty (k : Key) : (empty : OrderedMap Key Value).get? k = none := rfl

/-- Looking up after a set gives the new value under its key, else what was there. -/
theorem lookupIn_setIn (k k' : Key) (v : Value) (l : List (Key × Value)) :
    lookupIn k' (setIn k v l) = if k' = k then some v else lookupIn k' l := by
  induction l with
  | nil => simp [setIn, lookupIn, eq_comm]
  | cons entry rest ih =>
    obtain ⟨k'', v''⟩ := entry
    by_cases hk : k'' = k
    · subst hk
      by_cases h : k' = k'' <;> simp [setIn, lookupIn, h, eq_comm]
    · by_cases h : k'' = k'
      · subst h
        simp [setIn, lookupIn, hk]
      · simp only [setIn, if_neg hk, lookupIn, if_neg h, ih]

/-- Looking up in mapped entries gives the mapped value. -/
theorem lookupIn_map {Value' : Type*} (f : Value → Value') (k : Key) (l : List (Key × Value)) :
    lookupIn k (l.map fun e => (e.1, f e.2)) = (lookupIn k l).map f := by
  induction l with
  | nil => rfl
  | cons entry rest ih =>
    obtain ⟨k', v⟩ := entry
    by_cases h : k' = k <;> simp [lookupIn, h, ih]

/-- Reading back after every value was changed. -/
@[simp] theorem get?_mapValues {Value' : Type*} (f : Value → Value') (m : OrderedMap Key Value)
    (k : Key) : (m.mapValues f).get? k = (m.get? k).map f :=
  lookupIn_map f k m.entries

/-- Reading back after a `set`. -/
@[simp] theorem get?_set (m : OrderedMap Key Value) (k k' : Key) (v : Value) :
    (m.set k v).get? k' = if k' = k then some v else m.get? k' :=
  lookupIn_setIn k k' v m.entries

/-- A new key is set at the end. -/
theorem setIn_of_not_mem {k : Key} {l : List (Key × Value)} (h : k ∉ l.map Prod.fst) (v : Value) :
    setIn k v l = l ++ [(k, v)] := by
  induction l with
  | nil => rfl
  | cons entry rest ih =>
    simp only [List.map_cons, List.mem_cons, not_or] at h
    simp only [setIn, if_neg (Ne.symm h.1), ih h.2, List.cons_append]

/-- A new key goes to the end. -/
theorem entries_set_of_not_mem {m : OrderedMap Key Value} {k : Key} (h : k ∉ m.keys) (v : Value) :
    (m.set k v).entries = m.entries ++ [(k, v)] :=
  setIn_of_not_mem h v

/-- A key that stands last is set in place. -/
theorem setIn_append_of_not_mem {k : Key} {base : List (Key × Value)}
    (h : k ∉ base.map Prod.fst) (v v' : Value) :
    setIn k v (base ++ [(k, v')]) = base ++ [(k, v)] := by
  induction base with
  | nil => simp [setIn]
  | cons entry rest ih =>
    simp only [List.map_cons, List.mem_cons, not_or] at h
    simp only [List.cons_append, setIn, if_neg (Ne.symm h.1), ih h.2]

/-- The last entry stays the last. -/
theorem entries_set_of_last {m : OrderedMap Key Value} {base : List (Key × Value)} {k : Key}
    {v' : Value} (h : m.entries = base ++ [(k, v')]) (v : Value) :
    (m.set k v).entries = base ++ [(k, v)] := by
  have hfresh : k ∉ base.map Prod.fst := by
    have hnodup := m.nodup_keys
    rw [h, List.map_append, List.map_singleton] at hnodup
    exact (List.nodup_middle.mp hnodup).notMem ∘ List.mem_append_left _
  have hset : setIn k v m.entries = base ++ [(k, v)] := by
    rw [h]
    exact setIn_append_of_not_mem hfresh v v'
  exact hset

/-- A set lengthens the entries by one at most. -/
theorem length_setIn_le (k : Key) (v : Value) (l : List (Key × Value)) :
    (setIn k v l).length ≤ l.length + 1 := by
  induction l with
  | nil => simp [setIn]
  | cons entry rest ih =>
    simp only [setIn]
    split_ifs
    · simp
    · simpa using ih

/-- A set adds one entry at most. -/
theorem length_entries_set_le (m : OrderedMap Key Value) (k : Key) (v : Value) :
    (m.set k v).entries.length ≤ m.entries.length + 1 :=
  length_setIn_le k v m.entries

/-- A map in which a key was set is not empty. -/
theorem entries_set_ne_nil (m : OrderedMap Key Value) (k : Key) (v : Value) :
    (m.set k v).entries ≠ [] := by
  intro hnil
  have hget : (m.set k v).get? k = some v := by simp
  simp [get?, hnil, lookupIn] at hget

/-- Looking up after a removal gives nothing under its key, else what was there. -/
theorem lookupIn_filter (k k' : Key) (l : List (Key × Value)) :
    lookupIn k' (l.filter fun entry => entry.1 ≠ k) = if k' = k then none else lookupIn k' l := by
  induction l with
  | nil => simp [lookupIn]
  | cons entry rest ih =>
    obtain ⟨k'', v''⟩ := entry
    by_cases hk : k'' = k
    · subst hk
      rw [List.filter_cons_of_neg (by simp), ih]
      by_cases h : k' = k''
      · simp [h]
      · simp [lookupIn, h, Ne.symm h]
    · rw [List.filter_cons_of_pos (by simpa using hk)]
      by_cases h : k'' = k'
      · subst h
        simp [lookupIn, hk]
      · simp only [lookupIn, if_neg h, ih]

/-- Reading back after a `delete`. -/
@[simp] theorem get?_delete (m : OrderedMap Key Value) (k k' : Key) :
    (m.delete k).get? k' = if k' = k then none else m.get? k' :=
  lookupIn_filter k k' m.entries

/-- A value that is found is an entry. -/
theorem mem_entries_of_get? {m : OrderedMap Key Value} {k : Key} {v : Value}
    (h : m.get? k = some v) : (k, v) ∈ m.entries := by
  obtain ⟨l, hl⟩ := m
  simp only [get?] at h ⊢
  clear hl
  induction l with
  | nil => simp [lookupIn] at h
  | cons entry rest ih =>
    obtain ⟨k', v'⟩ := entry
    by_cases hk : k' = k
    · simp only [lookupIn, if_pos hk, Option.some.injEq] at h
      simp [hk, h]
    · simp only [lookupIn, if_neg hk] at h
      exact List.mem_cons_of_mem _ (ih h)

/-- An entry is found under its key. -/
theorem get?_of_mem_entries {m : OrderedMap Key Value} {k : Key} {v : Value}
    (h : (k, v) ∈ m.entries) : m.get? k = some v := by
  obtain ⟨l, hl⟩ := m
  simp only [get?] at h ⊢
  induction l with
  | nil => simp at h
  | cons entry rest ih =>
    obtain ⟨k', v'⟩ := entry
    simp only [List.map_cons, List.nodup_cons] at hl
    rcases List.mem_cons.mp h with heq | hmem
    · cases heq
      simp [lookupIn]
    · have hne : k' ≠ k := by
        rintro rfl
        exact hl.1 (List.mem_map.mpr ⟨_, hmem, rfl⟩)
      simpa [lookupIn, hne] using ih hl.2 hmem

/-- An entry is found exactly under its key. -/
theorem mem_entries_iff {m : OrderedMap Key Value} {k : Key} {v : Value} :
    (k, v) ∈ m.entries ↔ m.get? k = some v :=
  ⟨get?_of_mem_entries, mem_entries_of_get?⟩

/-- A value is iterated exactly when some key holds it. -/
theorem mem_values_iff {m : OrderedMap Key Value} {v : Value} :
    v ∈ m.values ↔ ∃ k, m.get? k = some v := by
  simp only [values, List.mem_map, Prod.exists, mem_entries_iff, exists_eq_right]

/-- A key is iterated exactly when it holds a value. -/
theorem mem_keys_iff {m : OrderedMap Key Value} {k : Key} :
    k ∈ m.keys ↔ ∃ v, m.get? k = some v := by
  simp only [keys, List.mem_map, Prod.exists, mem_entries_iff, exists_and_right, exists_eq_right]

/-- A set adds its key to the keys. -/
@[simp] theorem mem_keys_set {m : OrderedMap Key Value} {k k' : Key} {v : Value} :
    k' ∈ (m.set k v).keys ↔ k' = k ∨ k' ∈ m.keys :=
  mem_keys_setIn

/-- A removal takes its key from the keys. -/
@[simp] theorem mem_keys_delete {m : OrderedMap Key Value} {k k' : Key} :
    k' ∈ (m.delete k).keys ↔ k' ≠ k ∧ k' ∈ m.keys := by
  simp only [mem_keys_iff, get?_delete]
  by_cases h : k' = k <;> simp [h]

/-- Store every value under its own name. -/
def setAll (name : Value → Key) (m : OrderedMap Key Value) (vs : List Value) :
    OrderedMap Key Value :=
  vs.foldl (fun m v => m.set (name v) v) m

/-- Setting values under other names leaves a key as it was. -/
theorem get?_setAll_of_not_mem {name : Value → Key} {m : OrderedMap Key Value} {vs : List Value}
    {k : Key} (h : ∀ v ∈ vs, name v ≠ k) : (m.setAll name vs).get? k = m.get? k := by
  induction vs generalizing m with
  | nil => rfl
  | cons v rest ih =>
    have hv : k ≠ name v := fun heq => h v List.mem_cons_self heq.symm
    rw [setAll, List.foldl_cons, ← setAll, ih fun v' hv' => h v' (List.mem_cons_of_mem _ hv'),
      get?_set, if_neg hv]

/-- A value is found under its name if every value stored with it has the same name only
when it is the same. -/
theorem get?_setAll_of_mem {name : Value → Key} {m : OrderedMap Key Value} {vs : List Value}
    {v : Value} (hmem : v ∈ vs) (hname : ∀ v' ∈ vs, name v' = name v → v' = v) :
    (m.setAll name vs).get? (name v) = some v := by
  induction vs using List.reverseRecOn with
  | nil => simp at hmem
  | append_singleton rest last ih =>
    have hset : m.setAll name (rest ++ [last]) = (m.setAll name rest).set (name last) last := by
      simp [setAll]
    rw [hset, get?_set]
    by_cases hlast : name v = name last
    · rw [if_pos hlast, hname last (by simp) hlast.symm]
    · rw [if_neg hlast]
      refine ih ?_ fun v' hv' => hname v' (List.mem_append_left _ hv')
      rcases List.mem_append.mp hmem with h | h
      · exact h
      · exact absurd (by rw [List.mem_singleton.mp h]) hlast

/-- Moving all values of a map whose values know their key into another map. -/
theorem get?_setAll_values {name : Value → Key} {m m' : OrderedMap Key Value}
    (hname : ∀ k v, m'.get? k = some v → name v = k) (k : Key) :
    (m.setAll name m'.values).get? k = (m'.get? k).or (m.get? k) := by
  cases hget : m'.get? k with
  | none =>
    refine get?_setAll_of_not_mem fun v hv heq => ?_
    obtain ⟨k', hv⟩ := mem_values_iff.mp hv
    have hk : k' = k := (hname k' v hv).symm.trans heq
    rw [hk, hget] at hv
    cases hv
  | some v =>
    obtain rfl := hname k v hget
    refine get?_setAll_of_mem (mem_values_iff.mpr ⟨_, hget⟩) fun v' hv' heq => ?_
    obtain ⟨k', hv'⟩ := mem_values_iff.mp hv'
    rw [← hname k' v' hv', heq, hget] at hv'
    exact (Option.some.inj hv').symm

/-- Values that know their key: exactly one has the key if the key is there. -/
theorem countP_values {m : OrderedMap Key Value} {name : Value → Key}
    (hname : ∀ k v, m.get? k = some v → name v = k) (k : Key) :
    m.values.countP (fun v => name v = k) = if (m.get? k).isSome then 1 else 0 := by
  have hkeys : m.values.countP (fun v => name v = k) = m.keys.count k := by
    rw [values, keys, List.countP_map, List.count, List.countP_map]
    apply List.countP_congr
    rintro ⟨k', v⟩ hmem
    have hv := hname k' v (get?_of_mem_entries hmem)
    simp [hv]
  rw [hkeys]
  cases hget : m.get? k with
  | none =>
    have hnot : k ∉ m.keys := by
      rw [mem_keys_iff]
      simp [hget]
    simpa using List.count_eq_zero_of_not_mem hnot
  | some v =>
    have hmem : k ∈ m.keys := mem_keys_iff.mpr ⟨v, hget⟩
    rw [Option.isSome_some, if_pos rfl]
    exact List.count_eq_one_of_mem m.nodup_keys hmem

/-- A map has a key if a value is found under it. -/
theorem has_iff {m : OrderedMap Key Value} {k : Key} : m.has k = true ↔ ∃ v, m.get? k = some v := by
  rw [has, Option.isSome_iff_exists]

/-- A map has no such key if nothing is found under it. -/
theorem has_eq_false_iff {m : OrderedMap Key Value} {k : Key} :
    m.has k = false ↔ m.get? k = none := by
  simp [has]

end OrderedMap
