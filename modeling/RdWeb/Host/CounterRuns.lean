import RdWeb.Host.PortableService

/-!
# What the counters count

The counters of `portable_service.rs` over any run of `increase_counter`, `counter_ready` and
`counter_equal`. The writer's number goes around after `2 ^ 31` increases, and the writer, which
never sees the reader's number, does not keep the two apart when they meet.
-/

namespace RdWeb.PortableService

/-- The calls on a counter. -/
inductive CounterCall
  | increase
  | ready
  | equal
  deriving DecidableEq

/-- A counter between two calls. `increases` is not in the memory: it tells how often
`increase_counter` was called since the last `counter_ready`. -/
structure CountedCounter where
  counter : Counter
  increases : ℕ

/-- The number after the largest one is zero. -/
theorem Counter.toNat_next {iw : BitVec 32} (hiw : iw.toNat < 2 ^ 31) :
    (next iw).toNat = (iw.toNat + 1) % 2 ^ 31 := by
  rw [next, I32_MAX]
  split_ifs with hmax
  · simp [hmax]
  · have hne : iw.toNat ≠ 2 ^ 31 - 1 := by
      intro h
      exact hmax (BitVec.eq_of_toNat_eq (by simpa using h))
    rw [BitVec.toNat_add]
    have hone : (1 : BitVec 32).toNat = 1 := rfl
    omega

/-- `counter_ready` answers the opposite of `counter_equal`. -/
theorem Counter.ready_iff (c : Counter) : c.ready.1 = true ↔ c.equal = false := by
  rw [← Bool.not_eq_true, equal_iff, ready]
  split_ifs with hne
  · exact iff_of_true rfl (Ne.symm hne)
  · have hsame : c.read = c.write := not_ne_iff.mp hne
    simp [hsame]

/-- After `counter_ready` both numbers are the writer's. -/
theorem Counter.ready_snd (c : Counter) : c.ready.2 = ⟨c.write, c.write⟩ := by
  obtain ⟨write, read⟩ := c
  rw [ready]
  split_ifs with hne
  · rfl
  · obtain rfl : read = write := not_ne_iff.mp hne
    rfl

namespace CountedCounter

/-- Both numbers are zero. -/
def init : CountedCounter := ⟨⟨0, 0⟩, 0⟩

/-- One call of the counter. -/
def step (s : CountedCounter) : CounterCall → Option CountedCounter
  | .increase => some ⟨s.counter.increase, s.increases + 1⟩
  | .ready => some ⟨s.counter.ready.2, 0⟩
  | .equal => some s

/-- A counter from zero, with its calls in any order. -/
def machine : Machine CountedCounter CounterCall := ⟨init, step⟩

/-- `counter_ready` tells whether there was an increase since the last time. -/
def TellsIncreases (s : CountedCounter) (call : CounterCall) : Prop :=
  call = .ready → (s.counter.ready.1 = true ↔ 0 < s.increases)

/-- The increases before a `counter_ready` have not taken the writer's number around. -/
def NotAround (s : CountedCounter) (call : CounterCall) : Prop :=
  call = .ready → 0 < s.increases → ¬ 2 ^ 31 ∣ s.increases

/-- Whether a call is not one time around is decided by the counter. -/
instance (s : CountedCounter) (call : CounterCall) : Decidable (NotAround s call) :=
  inferInstanceAs (Decidable (_ → _ → ¬ _))

/-- The writer's number is ahead of the reader's by the increases, up to going around. -/
structure Ahead (s : CountedCounter) : Prop where
  read_lt : s.counter.read.toNat < 2 ^ 31
  write_eq : s.counter.write.toNat = (s.counter.read.toNat + s.increases) % 2 ^ 31

variable {s t : CountedCounter}

/-- The writer is below half of its range. -/
theorem Ahead.write_lt (h : s.Ahead) : s.counter.write.toNat < 2 ^ 31 := by
  rw [h.write_eq]
  exact Nat.mod_lt _ (by decide)

/-- At first the writer is not ahead. -/
theorem Ahead.init : CountedCounter.init.Ahead := ⟨by decide, by decide⟩

/-- **Every call** keeps the writer's number ahead by the increases. -/
theorem Ahead.step {call : CounterCall} (h : s.Ahead) (hstep : s.step call = some t) :
    t.Ahead := by
  cases call with
  | increase =>
    obtain rfl := Option.some.inj hstep
    rw [Counter.increase_eq]
    refine ⟨h.read_lt, ?_⟩
    have hnext := Counter.toNat_next h.write_lt
    have hwrite := h.write_eq
    simp only
    omega
  | ready =>
    obtain rfl := Option.some.inj hstep
    rw [Counter.ready_snd]
    exact ⟨h.write_lt, by simpa using (Nat.mod_eq_of_lt h.write_lt).symm⟩
  | equal =>
    obtain rfl := Option.some.inj hstep
    exact h

/-- The numbers are equal exactly where the writer's has gone around a whole number of times. -/
theorem Ahead.equal_iff (h : s.Ahead) : s.counter.equal = true ↔ 2 ^ 31 ∣ s.increases := by
  have hread := h.read_lt
  have hwrite := h.write_eq
  rw [Counter.equal_iff, ← BitVec.toNat_inj]
  omega

/-- **One call** tells the increases if and only if they have not gone around. -/
theorem tellsIncreases_iff (h : s.Ahead) (call : CounterCall) :
    s.TellsIncreases call ↔ s.NotAround call := by
  refine imp_congr_right fun _ => ?_
  rw [Counter.ready_iff, ← Bool.not_eq_true, h.equal_iff]
  constructor
  · exact fun htells => htells.mpr
  · intro hnot
    refine ⟨fun haround => ?_, hnot⟩
    rw [Nat.pos_iff_ne_zero]
    intro hzero
    exact haround (hzero ▸ dvd_zero _)

/-- **The counters count**: every `counter_ready` of a run tells whether there was an increase
since the last one if and only if the increases before it never go around exactly. -/
theorem counter_ready_tells_iff {calls : List CounterCall}
    (hrun : machine.Run machine.init calls s) :
    (∀ first call u v, first ++ [call] <+: calls → machine.Run machine.init first u →
      machine.step u call = some v → u.TellsIncreases call) ↔
      machine.RunWhere NotAround machine.init calls s :=
  Machine.runWhere_iff_steps_beside (M := machine) (R := fun u call _ => u.TellsIncreases call)
    (fun _ _ _ hstep h => h.step hstep) (fun _ call _ _ h => tellsIncreases_iff h call)
    Ahead.init hrun

/-- The capturer has taken a frame, and then two come before it looks again. -/
def twoFrames : List CounterCall := [.increase, .ready, .equal, .increase, .increase, .ready]

/-- A run with two frames, each of which is told. -/
theorem counter_ready_tells_iff_twoFrames : ∃ s, machine.Run machine.init twoFrames s ∧
    ∀ first call u v, first ++ [call] <+: twoFrames → machine.Run machine.init first u →
      machine.step u call = some v → u.TellsIncreases call := by
  have hwhere : machine.RunWhere NotAround machine.init twoFrames ⟨⟨3, 3⟩, 0⟩ :=
    Machine.runWhere_of_replayWhere rfl
  exact ⟨_, hwhere.run, (counter_ready_tells_iff hwhere.run).mpr hwhere⟩

/-- A number of increases from zero, and nothing else. -/
theorem exists_run_increases (n : ℕ) :
    ∃ s, machine.Run machine.init (List.replicate n .increase) s ∧ s.increases = n := by
  induction n with
  | zero => exact ⟨machine.init, .nil _, rfl⟩
  | succ n ih =>
    obtain ⟨s, hrun, hincreases⟩ := ih
    refine ⟨⟨s.counter.increase, s.increases + 1⟩, ?_, by rw [hincreases]⟩
    rw [List.replicate_succ']
    exact hrun.snoc trivial rfl

/-- After `2 ^ 31` increases the numbers are equal again, and `counter_ready` sees nothing. -/
theorem not_counter_ready_tells :
    ¬ ∀ calls s, machine.Run machine.init calls s →
      ∀ first call u v, first ++ [call] <+: calls → machine.Run machine.init first u →
        machine.step u call = some v → u.TellsIncreases call := by
  intro hall
  obtain ⟨s, hrun, hincreases⟩ := exists_run_increases (2 ^ 31)
  have hahead : s.Ahead := hrun.invariant (fun _ _ _ _ hstep h => h.step hstep) Ahead.init
  have hready : machine.step s .ready = some ⟨s.counter.ready.2, 0⟩ := rfl
  have htells := hall _ _ (hrun.snoc trivial hready) _ .ready s _ List.prefix_rfl hrun hready
  have hnot := (tellsIncreases_iff hahead .ready).mp htells rfl
  rw [hincreases] at hnot
  exact hnot (by decide) (dvd_refl _)

end CountedCounter

end RdWeb.PortableService
