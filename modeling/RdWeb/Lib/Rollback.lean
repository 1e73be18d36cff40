import Mathlib.Tactic.SplitIfs

/-!
# Programs that fail half-way and are rolled back

A program on a state may fail; what it did to the state before it failed stays done. So it has
one postcondition for each of its two ends. A guard undoes a program that fails: what the program
keeps at every point where it can fail is what the undoing starts from.
-/

namespace Rollback

variable {ε σ α β : Type}

/-- From a state with `P` the program ends well with `Q`, or fails in a state with `E`. -/
def Ensures (P : σ → Prop) (x : EStateM ε σ α) (Q : α → σ → Prop) (E : σ → Prop) : Prop :=
  (∀ s a t, P s → x s = .ok a t → Q a t) ∧ ∀ s e t, P s → x s = .error e t → E t

variable {P P' E E' : σ → Prop} {Q Q' : α → σ → Prop} {R : β → σ → Prop}
  {x : EStateM ε σ α} {f : α → EStateM ε σ β}

/-- The rule of consequence, for both ways to end. -/
theorem Ensures.mono (h : Ensures P x Q E) (hpre : ∀ s, P' s → P s)
    (hpost : ∀ a s, Q a s → Q' a s) (hfail : ∀ s, E s → E' s) : Ensures P' x Q' E' :=
  ⟨fun s a t hs hx => hpost a t (h.1 s a t (hpre s hs) hx),
    fun s e t hs hx => hfail t (h.2 s e t (hpre s hs) hx)⟩

/-- One state at a time. -/
theorem ensures_of_forall (h : ∀ s, P s → Ensures (fun t => t = s) x Q E) : Ensures P x Q E :=
  ⟨fun s a t hs => (h s hs).1 s a t rfl, fun s e t hs => (h s hs).2 s e t rfl⟩

/-- A known success is a triple from its start. -/
theorem ensures_of_ok {s t : σ} {a : α} (hx : x s = .ok a t) (h : Q a t) :
    Ensures (fun u => u = s) x Q E := by
  constructor
  · rintro _ b u rfl hrun
    cases hx.symm.trans hrun
    exact h
  · rintro _ e u rfl hrun
    cases hx.symm.trans hrun

/-- A known failure is a triple from its start. -/
theorem ensures_of_error {s t : σ} {e : ε} (hx : x s = .error e t) (h : E t) :
    Ensures (fun u => u = s) x Q E := by
  constructor
  · rintro _ b u rfl hrun
    cases hx.symm.trans hrun
  · rintro _ e' u rfl hrun
    cases hx.symm.trans hrun
    exact h

/-- `pure` keeps the state. -/
theorem ensures_pure {a : α} (h : ∀ s, P s → Q a s) :
    Ensures P (pure a : EStateM ε σ α) Q E := by
  constructor
  · intro s b t hs hx
    cases hx
    exact h s hs
  · intro s e t _ hx
    cases hx

/-- `throw` keeps the state. -/
theorem ensures_throw {e : ε} (h : ∀ s, P s → E s) :
    Ensures P (throw e : EStateM ε σ α) Q E := by
  constructor
  · intro s a t _ hx
    cases hx
  · intro s e t hs hx
    cases hx
    exact h s hs

/-- `modify` changes the state by its function. -/
theorem ensures_modify {g : σ → σ} {Q : PUnit → σ → Prop} (h : ∀ s, P s → Q ⟨⟩ (g s)) :
    Ensures P (modify g : EStateM ε σ PUnit) Q E := by
  constructor
  · intro s a t hs hx
    cases hx
    exact h s hs
  · intro s e t _ hx
    cases hx

/-- A bind after a success is its continuation. -/
theorem bind_of_ok {s t : σ} {a : α} (h : x s = .ok a t) : (x >>= f) s = f a t := by
  have hbind : (x >>= f) s = match x s with
      | .ok a t => f a t
      | .error e t => .error e t := rfl
  rw [hbind, h]

/-- A bind after a failure is that failure. -/
theorem bind_of_error {s t : σ} {e : ε} (h : x s = .error e t) : (x >>= f) s = .error e t := by
  have hbind : (x >>= f) s = match x s with
      | .ok a t => f a t
      | .error e t => .error e t := rfl
  rw [hbind, h]

/-- Where the first program fails the second one is not run. -/
theorem Ensures.bind (hx : Ensures P x Q E) (hf : ∀ a, Ensures (Q a) (f a) R E) :
    Ensures P (x >>= f) R E := by
  constructor
  · intro s b u hs hrun
    cases hfirst : x s with
    | ok a t =>
      rw [bind_of_ok hfirst] at hrun
      exact (hf a).1 t b u (hx.1 s a t hs hfirst) hrun
    | error e t =>
      rw [bind_of_error hfirst] at hrun
      cases hrun
  · intro s e u hs hrun
    cases hfirst : x s with
    | ok a t =>
      rw [bind_of_ok hfirst] at hrun
      exact (hf a).2 t e u (hx.1 s a t hs hfirst) hrun
    | error e' t =>
      rw [bind_of_error hfirst] at hrun
      cases hrun
      exact hx.2 s _ _ hs hfirst

/-- A program may go on by the state that it finds. -/
theorem ensures_get_bind {g : σ → EStateM ε σ α}
    (h : ∀ s, P s → Ensures (fun t => t = s) (g s) Q E) : Ensures P (get >>= g) Q E := by
  have hget (s : σ) : (get >>= g) s = g s s := rfl
  constructor
  · intro s a t hs hrun
    exact (h s hs).1 s a t rfl (hget s ▸ hrun)
  · intro s e t hs hrun
    exact (h s hs).2 s e t rfl (hget s ▸ hrun)

/-- A conditional is proved branch by branch. -/
theorem ensures_ite {c : Prop} [Decidable c] {y : EStateM ε σ α} (hx : c → Ensures P x Q E)
    (hy : ¬ c → Ensures P y Q E) : Ensures P (if c then x else y) Q E := by
  split_ifs with hc
  · exact hx hc
  · exact hy hc

/-- The program keeps a property of the state, however it ends. -/
def Keeps (P : σ → Prop) (x : EStateM ε σ α) : Prop := Ensures P x (fun _ => P) P

/-- The program keeps a property of the state, and ends well exactly if a condition is met. -/
def EndsWellIff (P : σ → Prop) (x : EStateM ε σ α) (F : Prop) : Prop :=
  Ensures P x (fun _ s => P s ∧ F) fun s => P s ∧ ¬ F

variable {F G : Prop}

/-- What ends well in every success keeps the property. -/
theorem EndsWellIff.keeps (h : EndsWellIff P x F) : Keeps P x :=
  Ensures.mono h (fun _ hs => hs) (fun _ _ hs => hs.1) fun _ hs => hs.1

/-- `pure` ends well where the condition holds. -/
theorem endsWellIff_pure {a : α} (h : F) : EndsWellIff P (pure a : EStateM ε σ α) F :=
  ensures_pure fun _ hs => ⟨hs, h⟩

/-- `throw` ends well where the condition fails. -/
theorem endsWellIff_throw {e : ε} (h : ¬ F) : EndsWellIff P (throw e : EStateM ε σ α) F :=
  ensures_throw fun _ hs => ⟨hs, h⟩

/-- The rest of a program may use what the first part says of its result. -/
theorem Ensures.bind_endsWellIff {N : α → Prop}
    (hx : Ensures P x (fun a s => (P s ∧ F) ∧ N a) fun s => P s ∧ ¬ F)
    (hf : F → ∀ a, N a → EndsWellIff P (f a) G) : EndsWellIff P (x >>= f) (F ∧ G) := by
  have hfail : Ensures P x (fun a s => (P s ∧ F) ∧ N a) fun s => P s ∧ ¬ (F ∧ G) :=
    hx.mono (fun _ hs => hs) (fun _ _ hs => hs) fun _ hs => ⟨hs.1, fun h => hs.2 h.1⟩
  refine hfail.bind fun a => ensures_of_forall fun s hs => ?_
  exact Ensures.mono (hf hs.1.2 a hs.2) (fun t ht => ht ▸ hs.1.1)
    (fun _ t ht => ⟨ht.1, hs.1.2, ht.2⟩) fun t ht => ⟨ht.1, fun h => ht.2 h.2⟩

/-- Both programs have to end well. -/
theorem EndsWellIff.bind (hx : EndsWellIff P x F) (hf : F → ∀ a, EndsWellIff P (f a) G) :
    EndsWellIff P (x >>= f) (F ∧ G) :=
  Ensures.bind_endsWellIff (N := fun _ => True)
    (Ensures.mono hx (fun _ hs => hs) (fun _ _ hs => ⟨hs, trivial⟩) fun _ hs => hs)
    fun h a _ => hf h a

/-- A change that keeps the property may come first. -/
theorem EndsWellIff.modify_bind {g : σ → σ} {f : PUnit → EStateM ε σ α} (hg : ∀ s, P s → P (g s))
    (hf : EndsWellIff P (f ⟨⟩) F) : EndsWellIff P (modify g >>= f) F :=
  (ensures_modify (Q := fun _ => P) hg).bind fun _ => hf

/-- All rounds of a loop have to end well. -/
theorem endsWellIff_forM {γ : Type} {body : γ → EStateM ε σ PUnit} {ok : γ → Prop} :
    ∀ {items : List γ}, (∀ item ∈ items, EndsWellIff P (body item) (ok item)) →
      EndsWellIff P (forM items body) (∀ item ∈ items, ok item)
  | [], _ => endsWellIff_pure fun _ hitem => nomatch hitem
  | item :: items, h => by
    rw [List.forM_cons, List.forall_mem_cons]
    exact (h item (.head items)).bind fun _ _ =>
      endsWellIff_forM fun other hother => h other (.tail item hother)

/-- A program whose failure is undone. -/
def guarded (x : EStateM ε σ α) (undo : σ → σ) : EStateM ε σ α := fun s =>
  match x s with
  | .ok a t => .ok a t
  | .error e t => .error e (undo t)

/-- A guarded success undoes nothing. -/
theorem guarded_of_ok {undo : σ → σ} {s t : σ} {a : α} (h : x s = .ok a t) :
    guarded x undo s = .ok a t := by
  rw [guarded, h]

/-- A guarded failure undoes the changes. -/
theorem guarded_of_error {undo : σ → σ} {s t : σ} {e : ε} (h : x s = .error e t) :
    guarded x undo s = .error e (undo t) := by
  rw [guarded, h]

/-- **Guard rule.** What holds wherever the program can fail is what is undone. -/
theorem Ensures.guarded (hx : Ensures P x Q E) {undo : σ → σ} (hundo : ∀ s, E s → E' (undo s)) :
    Ensures P (guarded x undo) Q E' := by
  refine ensures_of_forall fun s hs => ?_
  cases hrun : x s with
  | ok a t => exact ensures_of_ok (guarded_of_ok hrun) (hx.1 s a t hs hrun)
  | error e t => exact ensures_of_error (guarded_of_error hrun) (hundo t (hx.2 s e t hs hrun))

/-- The state in which a program ends, where nobody looks how it ends. -/
def ended (x : EStateM ε σ α) (s : σ) : σ :=
  match x s with
  | .ok _ t => t
  | .error _ t => t

/-- A property of both ends holds of the state in which the action ends. -/
theorem Ensures.ended (hx : Ensures P x (fun _ => E) E) {s : σ} (hs : P s) : E (ended x s) := by
  rw [Rollback.ended]
  split
  · rename_i hok
    exact hx.1 s _ _ hs hok
  · rename_i hfailed
    exact hx.2 s _ _ hs hfailed

end Rollback
