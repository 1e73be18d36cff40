import Mathlib.Data.List.Basic
import Mathlib.Logic.Relation
import Mathlib.Tactic.SplitIfs

/-!
# Guarded machines and their runs

A machine is an executable step function whose events are guarded: `step s e`
is `none` when the event `e` cannot happen in the state `s`. The runs below carry
a condition on every step taken, so that one induction serves the results about
all runs and the results about the runs whose steps meet a condition.
-/

/-- An initial state and a step function whose events are guarded. -/
structure Machine (State Event : Type*) where
  /-- The state before any event. -/
  init : State
  /-- The effect of an event, or `none` where the event is not enabled. -/
  step : State → Event → Option State

namespace Machine

variable {State Event : Type*}

/-- A finite run in which every step taken from `s` by `e` meets `ok s e`. -/
inductive RunWhere (M : Machine State Event) (ok : State → Event → Prop) :
    State → List Event → State → Prop
  | nil (s : State) : RunWhere M ok s [] s
  | snoc {s t u : State} {events : List Event} {e : Event} :
      RunWhere M ok s events t → ok t e → M.step t e = some u →
      RunWhere M ok s (events ++ [e]) u

/-- A finite run, with no condition on its steps. -/
abbrev Run (M : Machine State Event) : State → List Event → State → Prop :=
  M.RunWhere fun _ _ => True

/-- The states some run from the initial state ends in. -/
def Reachable (M : Machine State Event) (s : State) : Prop :=
  ∃ events, M.Run M.init events s

/-- Execute a list of events; `none` as soon as one of them is not enabled. -/
def replay (M : Machine State Event) : State → List Event → Option State
  | s, [] => some s
  | s, e :: events => (M.step s e).bind fun t => M.replay t events

/-- Execute a list of events while every step meets the condition. -/
def replayWhere (M : Machine State Event) (ok : State → Event → Prop)
    [∀ s e, Decidable (ok s e)] : State → List Event → Option State
  | s, [] => some s
  | s, e :: events =>
    if ok s e then (M.step s e).bind fun t => M.replayWhere ok t events else none

variable {M : Machine State Event} {ok : State → Event → Prop}

/-- **Invariant rule.** What every conditioned step preserves, every conditioned
run preserves. -/
theorem RunWhere.invariant {P : State → Prop}
    (hstep : ∀ s e t, ok s e → M.step s e = some t → P s → P t)
    {s t : State} {events : List Event} (hrun : M.RunWhere ok s events t) (hs : P s) : P t := by
  induction hrun with
  | nil => exact hs
  | snoc _ hok hse ih => exact hstep _ _ _ hok hse ih

/-- The invariant rule for reachable states. -/
theorem Reachable.invariant {P : State → Prop} (hinit : P M.init)
    (hstep : ∀ s e t, M.step s e = some t → P s → P t)
    {s : State} (h : M.Reachable s) : P s := by
  obtain ⟨events, hrun⟩ := h
  exact hrun.invariant (fun s e t _ hse => hstep s e t hse) hinit

/-- Steps related by a preorder give runs related by it. -/
theorem RunWhere.relates {R : State → State → Prop} (hrefl : ∀ s, R s s)
    (htrans : ∀ s t u, R s t → R t u → R s u)
    (hstep : ∀ s e t, ok s e → M.step s e = some t → R s t)
    {s t : State} {events : List Event} (hrun : M.RunWhere ok s events t) : R s t := by
  induction hrun with
  | nil => exact hrefl _
  | snoc _ hok hse ih => exact htrans _ _ _ ih (hstep _ _ _ hok hse)

/-- Weakening the condition on the steps keeps the run. -/
theorem RunWhere.mono {ok' : State → Event → Prop} (himp : ∀ s e, ok s e → ok' s e)
    {s t : State} {events : List Event} (hrun : M.RunWhere ok s events t) :
    M.RunWhere ok' s events t := by
  induction hrun with
  | nil => exact .nil _
  | snoc _ hok hse ih => exact ih.snoc (himp _ _ hok) hse

/-- A conditioned run is in particular a run. -/
theorem RunWhere.run {s t : State} {events : List Event} (hrun : M.RunWhere ok s events t) :
    M.Run s events t :=
  hrun.mono fun _ _ _ => trivial

/-- A single step is a run of length one. -/
theorem RunWhere.single {s t : State} {e : Event} (hok : ok s e) (hse : M.step s e = some t) :
    M.RunWhere ok s [e] t := by
  simpa using (RunWhere.nil s : M.RunWhere ok s [] s).snoc hok hse

/-- Runs compose. -/
theorem RunWhere.append {s t u : State} {first second : List Event}
    (hfirst : M.RunWhere ok s first t) (hsecond : M.RunWhere ok t second u) :
    M.RunWhere ok s (first ++ second) u := by
  induction hsecond with
  | nil => simpa using hfirst
  | snoc _ hok hse ih =>
    rw [← List.append_assoc]
    exact ih.snoc hok hse

/-- Put a step in front of a run. -/
theorem RunWhere.cons {s t u : State} {e : Event} {events : List Event} (hok : ok s e)
    (hse : M.step s e = some t) (hrun : M.RunWhere ok t events u) :
    M.RunWhere ok s (e :: events) u :=
  (RunWhere.single hok hse).append hrun

/-- A successful replay is a run, so concrete runs are found by evaluation. -/
theorem run_of_replay {s t : State} {events : List Event} (h : M.replay s events = some t) :
    M.Run s events t := by
  induction events generalizing s with
  | nil =>
    obtain rfl : s = t := by simpa [replay] using h
    exact .nil s
  | cons e events ih =>
    obtain ⟨u, hse, hrest⟩ := Option.bind_eq_some_iff.mp h
    exact RunWhere.cons trivial hse (ih hrest)

/-- A successful conditioned replay is a conditioned run. -/
theorem runWhere_of_replayWhere [∀ s e, Decidable (ok s e)] {s t : State} {events : List Event}
    (h : M.replayWhere ok s events = some t) : M.RunWhere ok s events t := by
  induction events generalizing s with
  | nil =>
    obtain rfl : s = t := by simpa [replayWhere] using h
    exact .nil s
  | cons e events ih =>
    rw [replayWhere] at h
    split_ifs at h with hok
    obtain ⟨u, hse, hrest⟩ := Option.bind_eq_some_iff.mp h
    exact RunWhere.cons hok hse (ih hrest)

/-- The initial state is reachable. -/
theorem reachable_init : M.Reachable M.init := ⟨[], .nil _⟩

/-- Taking a conditioned run apart at its last step. -/
theorem runWhere_snoc_iff {s u : State} {events : List Event} {e : Event} :
    M.RunWhere ok s (events ++ [e]) u ↔
      ∃ t, M.RunWhere ok s events t ∧ ok t e ∧ M.step t e = some u := by
  constructor
  · intro hrun
    generalize hall : events ++ [e] = all at hrun
    cases hrun with
    | nil => simp at hall
    | snoc hrun hok hse =>
      obtain ⟨rfl, rfl⟩ : events = _ ∧ e = _ := by simpa using hall
      exact ⟨_, hrun, hok, hse⟩
  · rintro ⟨t, hrun, hok, hse⟩
    exact hrun.snoc hok hse

/-- The events of a run determine where it ends. -/
theorem RunWhere.end_eq {s t u : State} {events : List Event} (hrun : M.RunWhere ok s events t)
    (hother : M.Run s events u) : t = u := by
  induction hrun generalizing u with
  | nil =>
    generalize hall : ([] : List Event) = all at hother
    cases hother with
    | nil => rfl
    | snoc => simp at hall
  | snoc _ _ hse ih =>
    obtain ⟨v, hrun, -, hse'⟩ := runWhere_snoc_iff.mp hother
    obtain rfl := ih hrun
    exact Option.some.inj (hse.symm.trans hse')

/-- The part of a conditioned run that a prefix of its events makes. -/
theorem RunWhere.initial {s t : State} {events first : List Event}
    (hrun : M.RunWhere ok s events t) (hinitial : first <+: events) :
    ∃ u, M.RunWhere ok s first u := by
  induction hrun with
  | nil => exact ⟨s, by simpa [List.prefix_nil.mp hinitial] using RunWhere.nil s⟩
  | snoc hrun hok hse ih =>
    rcases List.prefix_concat_iff.mp hinitial with rfl | hinitial
    · exact ⟨_, hrun.snoc hok hse⟩
    · exact ih hinitial

/-- **Exact conditions.** Where the condition says exactly which steps keep a property, the
property holds all along a run if and only if the run meets the condition. -/
theorem runWhere_iff_invariant {P : State → Prop}
    (hstep : ∀ s e t, M.step s e = some t → P s → (P t ↔ ok s e))
    {s t : State} {events : List Event} (hs : P s) (hrun : M.Run s events t) :
    (∀ first u, first <+: events → M.Run s first u → P u) ↔ M.RunWhere ok s events t := by
  constructor
  · intro hall
    induction hrun with
    | nil => exact .nil _
    | snoc hrun _ hse ih =>
      have hwhere := ih fun first u hinitial =>
        hall first u (hinitial.trans (List.prefix_append _ _))
      have hP := hall _ _ (List.prefix_append _ _) hrun
      have hP' := hall _ _ (List.prefix_refl _) (hrun.snoc trivial hse)
      exact hwhere.snoc ((hstep _ _ _ hse hP).mp hP') hse
  · intro hwhere first u hinitial hfirst
    obtain ⟨v, hv⟩ := hwhere.initial hinitial
    obtain rfl := hv.end_eq hfirst
    exact hv.invariant (fun s e t hok hse hP => (hstep s e t hse hP).mpr hok) hs

/-- The rule of exact conditions beside an invariant that every step keeps. -/
theorem runWhere_iff_beside {I P : State → Prop}
    (hinv : ∀ s e t, M.step s e = some t → I s → I t)
    (hstep : ∀ s e t, M.step s e = some t → I s → P s → (P t ↔ ok s e))
    {s t : State} {events : List Event} (hI : I s) (hP : P s) (hrun : M.Run s events t) :
    (∀ first u, first <+: events → M.Run s first u → P u) ↔ M.RunWhere ok s events t := by
  have hkeeps (s : State) (e : Event) (t : State) (hse : M.step s e = some t)
      (hs : I s ∧ P s) : (I t ∧ P t) ↔ ok s e := by
    rw [← hstep s e t hse hs.1 hs.2]
    exact and_iff_right (hinv s e t hse hs.1)
  rw [← runWhere_iff_invariant hkeeps ⟨hI, hP⟩ hrun]
  constructor
  · intro hall first u hinitial hfirst
    exact ⟨hfirst.invariant (fun s e t _ => hinv s e t) hI, hall first u hinitial hfirst⟩
  · exact fun hall first u hinitial hfirst => (hall first u hinitial hfirst).2

/-- **Step rule.** What follows of a step that meets the condition, beside an invariant that such
steps keep, holds of every step of a conditioned run. -/
theorem RunWhere.forall_steps {I : State → Prop} {R : State → Event → State → Prop}
    (hinv : ∀ s e t, ok s e → M.step s e = some t → I s → I t)
    (hstep : ∀ s e t, ok s e → M.step s e = some t → I s → R s e t)
    {s t : State} {events : List Event} (hI : I s) (hrun : M.RunWhere ok s events t) :
    ∀ first e u v, first ++ [e] <+: events → M.Run s first u → M.step u e = some v → R u e v := by
  intro first e u v hinitial hfirst hse
  obtain ⟨w, hw⟩ := hrun.initial hinitial
  obtain ⟨u', hu', hok, -⟩ := runWhere_snoc_iff.mp hw
  obtain rfl := hu'.end_eq hfirst
  exact hstep _ _ _ hok hse (hu'.invariant hinv hI)

/-- The rule of exact conditions for a law of steps, beside an invariant that the steps which meet
the condition keep. -/
theorem runWhere_iff_steps_where {I : State → Prop} {R : State → Event → State → Prop}
    (hinv : ∀ s e t, ok s e → M.step s e = some t → I s → I t)
    (hstep : ∀ s e t, M.step s e = some t → I s → (R s e t ↔ ok s e))
    {s t : State} {events : List Event} (hI : I s) (hrun : M.Run s events t) :
    (∀ first e u v, first ++ [e] <+: events → M.Run s first u → M.step u e = some v → R u e v) ↔
      M.RunWhere ok s events t := by
  constructor
  · intro hall
    induction hrun with
    | nil => exact .nil _
    | snoc hrun _ hse ih =>
      have hwhere := ih fun first e u v hinitial =>
        hall first e u v (hinitial.trans (List.prefix_append _ _))
      have hlaw := hall _ _ _ _ (List.prefix_refl _) hrun hse
      exact hwhere.snoc ((hstep _ _ _ hse (hwhere.invariant hinv hI)).mp hlaw) hse
  · intro hwhere
    exact hwhere.forall_steps hinv (fun s e t hok hse hs => (hstep s e t hse hs).mpr hok) hI

/-- The rule of exact conditions for a law of steps, beside an invariant that every step keeps. -/
theorem runWhere_iff_steps_beside {I : State → Prop} {R : State → Event → State → Prop}
    (hinv : ∀ s e t, M.step s e = some t → I s → I t)
    (hstep : ∀ s e t, M.step s e = some t → I s → (R s e t ↔ ok s e))
    {s t : State} {events : List Event} (hI : I s) (hrun : M.Run s events t) :
    (∀ first e u v, first ++ [e] <+: events → M.Run s first u → M.step u e = some v → R u e v) ↔
      M.RunWhere ok s events t :=
  runWhere_iff_steps_where (fun s e t _ => hinv s e t) hstep hI hrun

/-- **Exact conditions for a law of steps.** Where the condition says exactly which steps obey a
law, every step of a run obeys it if and only if the run meets the condition. -/
theorem runWhere_iff_steps {R : State → Event → State → Prop}
    (hstep : ∀ s e t, M.step s e = some t → (R s e t ↔ ok s e))
    {s t : State} {events : List Event} (hrun : M.Run s events t) :
    (∀ first e u v, first ++ [e] <+: events → M.Run s first u → M.step u e = some v → R u e v) ↔
      M.RunWhere ok s events t :=
  runWhere_iff_steps_beside (I := fun _ => True) (fun _ _ _ _ _ => trivial)
    (fun s e t hse _ => hstep s e t hse) trivial hrun

/-- **Variant rule.** Where every step that meets the condition makes a weight smaller, beside an
invariant that such steps keep, the weight bounds the length of the runs. -/
theorem RunWhere.length_add_le {I : State → Prop} {weight : State → ℕ}
    (hinv : ∀ s e t, ok s e → M.step s e = some t → I s → I t)
    (hdown : ∀ s e t, ok s e → M.step s e = some t → I s → weight t < weight s)
    {s t : State} {events : List Event} (hI : I s) (hrun : M.RunWhere ok s events t) :
    events.length + weight t ≤ weight s := by
  induction hrun with
  | nil => simp
  | snoc hrun hok hse ih =>
    have hless := hdown _ _ _ hok hse (hrun.invariant hinv hI)
    rw [List.length_append, List.length_singleton]
    omega

/-- The variant rule for an end: where every state that is not done has a step that meets the
condition, some run of such steps is done. -/
theorem exists_run_done {I Done : State → Prop} {weight : State → ℕ}
    (hinv : ∀ s e t, ok s e → M.step s e = some t → I s → I t)
    (hdown : ∀ s e t, ok s e → M.step s e = some t → I s → weight t < weight s)
    (hmoves : ∀ s, I s → ¬ Done s → ∃ e t, ok s e ∧ M.step s e = some t) {s : State} (hI : I s) :
    ∃ events t, M.RunWhere ok s events t ∧ Done t := by
  induction hn : weight s using Nat.strongRecOn generalizing s with
  | ind n ih =>
    subst hn
    by_cases hdone : Done s
    · exact ⟨[], s, .nil s, hdone⟩
    · obtain ⟨e, t, hok, hse⟩ := hmoves s hI hdone
      obtain ⟨events, u, hrun, hu⟩ := ih _ (hdown s e t hok hse hI) (hinv s e t hok hse hI) rfl
      exact ⟨e :: events, u, .cons hok hse hrun, hu⟩

end Machine
