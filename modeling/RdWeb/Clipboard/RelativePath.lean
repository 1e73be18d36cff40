import RdWeb.Clipboard.Path

/-!
# The components of a relative path

Stripping a prefix drops its components, however the separators of either path are written.
-/

namespace RdWeb.Clipboard.PathBuf

/-- Dropping components of the path drops components of the body. -/
theorem bodyComponents_dropComponents (k : ℕ) (body : List (List UInt8)) :
    bodyComponents (dropComponents k body) = (bodyComponents body).drop k := by
  induction body generalizing k with
  | nil => cases k <;> rfl
  | cons part body ih =>
    cases k with
    | zero => rfl
    | succ k =>
      rw [dropComponents]
      split_ifs with hskipped
      · rw [ih, bodyComponents_cons_of_skipped hskipped]
      · rw [ih, ← List.singleton_append, bodyComponents_append, bodyComponents_singleton hskipped,
          List.singleton_append, List.drop_succ_cons]

/-- Skipped parts at the start do not matter. -/
theorem bodyComponents_dropWhile (body : List (List UInt8)) :
    bodyComponents (body.dropWhile fun part => decide (IsSkipped part)) = bodyComponents body := by
  induction body with
  | nil => rfl
  | cons part body ih =>
    by_cases hskipped : IsSkipped part
    · rw [List.dropWhile_cons_of_pos (by simpa using hskipped), ih,
        bodyComponents_cons_of_skipped hskipped]
    · rw [List.dropWhile_cons_of_neg (by simpa using hskipped)]

/-- A path put together from parts, the first of which is a component. -/
theorem components_intercalate {body : List (List UInt8)} (hsep : ∀ part ∈ body, 47 ∉ part)
    (hfirst : ∀ part ∈ body.head?, ¬ IsSkipped part) :
    components ([47].intercalate body) = bodyComponents body := by
  cases body with
  | nil => rfl
  | cons first rest =>
    have hskipped := hfirst first rfl
    have hparts := parts_intercalate (List.cons_ne_nil first rest) hsep
    have hroot : ([47].intercalate (first :: rest)).head? ≠ some 47 := by
      cases first with
      | nil => exact absurd (.inl rfl) hskipped
      | cons c chars =>
        rw [head?_intercalate_cons]
        have hc : 47 ∉ c :: chars := hsep _ List.mem_cons_self
        simp only [List.mem_cons, not_or] at hc
        simpa using fun hc' => hc.1 hc'.symm
    have hlead : lead ([47].intercalate (first :: rest)) = [] := by
      rw [lead, if_neg hroot, hparts, List.head?_cons, if_neg]
      exact fun hdot => hskipped (.inr (Option.some.inj hdot))
    rw [components, hlead, hparts]
    rfl

/-- A path and a prefix of it lead in the same way. -/
theorem lead_of_prefix {p base : PathBuf} (h : base.components <+: p.components)
    (hne : base.components ≠ []) : base.lead = p.lead := by
  have hhead : p.components.head? = base.components.head? := by
    obtain ⟨rest, hrest⟩ := h
    rw [← hrest, List.head?_append_of_ne_nil _ hne]
  have hnormal (q : PathBuf) (hlead : q.lead = []) :
      q.components.head? ≠ some .rootDir ∧ q.components.head? ≠ some .curDir := by
    rw [components_eq, hlead, List.nil_append]
    constructor <;> intro hq
    · exact (ne_lead_of_mem_bodyComponents (List.mem_of_head? hq)).1 rfl
    · exact (ne_lead_of_mem_bodyComponents (List.mem_of_head? hq)).2 rfl
  have hfirst (q : PathBuf) (c : Component) (hlead : q.lead = [c]) :
      q.components.head? = some c := by
    rw [components_eq, hlead]
    rfl
  rcases lead_cases base with hb | hb | ⟨hb, -, -⟩ <;>
    rcases lead_cases p with hp | hp | ⟨hp, -, -⟩ <;>
    rw [hb, hp]
  · rw [hfirst base _ hb, hfirst p _ hp] at hhead
    cases hhead
  · exact absurd (hhead.trans (hfirst base _ hb)) (hnormal p hp).1
  · rw [hfirst base _ hb, hfirst p _ hp] at hhead
    cases hhead
  · exact absurd (hhead.trans (hfirst base _ hb)) (hnormal p hp).2
  · exact absurd (hhead.symm.trans (hfirst p _ hp)) (hnormal base hb).1
  · exact absurd (hhead.symm.trans (hfirst p _ hp)) (hnormal base hb).2

/-- The head of a first part is the head. -/
theorem head?_of_prefix {α : Type*} {front all : List α} (h : front <+: all) {a : α}
    (ha : a ∈ front.head?) : all.head? = some a := by
  obtain ⟨rest, rfl⟩ := h
  cases front with
  | nil => cases ha
  | cons b front => exact ha

/-- **Stripping a prefix** drops its components. -/
theorem components_stripPrefix {p base q : PathBuf} (h : p.stripPrefix base = some q) :
    q.components = p.components.drop base.components.length := by
  unfold stripPrefix at h
  split_ifs at h with hprefix hbase
  · obtain rfl := Option.some.inj h
    rw [hbase, components_withBody (List.rdropWhile_prefix _ _), bodyComponents_rdropWhile,
      components_eq]
    rfl
  · obtain rfl := Option.some.inj h
    set k := base.components.length - base.lead.length with hk
    have hlead := lead_of_prefix hprefix hbase
    have hlength : base.components.length = p.lead.length + k := by
      rw [hk, ← hlead, components_eq base, List.length_append]
      omega
    have hdrop : (p.lead ++ bodyComponents p.parts).drop (p.lead.length + k) =
        (bodyComponents p.parts).drop k := by
      rw [List.drop_append, List.drop_eq_nil_of_le (Nat.le_add_right _ _), List.nil_append,
        Nat.add_sub_cancel_left]
    have hfront := List.rdropWhile_prefix (fun part => decide (IsSkipped part))
      ((dropComponents k p.parts).dropWhile fun part => decide (IsSkipped part))
    rw [components_intercalate, bodyComponents_rdropWhile, bodyComponents_dropWhile,
      bodyComponents_dropComponents, hlength]
    · exact hdrop.symm
    · intro part hpart
      exact not_mem_of_mem_parts (mem_of_mem_dropComponents
        ((List.dropWhile_sublist _).subset (hfront.subset hpart)))
    · intro part hpart
      have hhead := head?_of_prefix hfront hpart
      have hnot := List.head?_dropWhile_not (fun part => decide (IsSkipped part))
        (dropComponents k p.parts)
      rw [hhead] at hnot
      simpa using hnot

end RdWeb.Clipboard.PathBuf
