import RdWeb.Lib.Machine
import Mathlib.Algebra.Order.Ring.Int

/-!
# Virtual displays

`amyuni_idd` of `virtual_display_manager.rs` counts the monitors that it has plugged in. Other
processes use the same driver, and displays come and go, between any two steps of a call.
-/

namespace RdWeb.Host

/-- How many virtual displays there can be. -/
def VIRTUAL_DISPLAY_MAX_COUNT : ℕ := 4

/-- The index that stands for all of them. -/
def IDD_PLUG_OUT_ALL_INDEX : ℤ := -1

/-- The monitors that `plug_out_monitor` counts as its own. -/
def plugInCountOf (count amyuniCount : ℕ) (plugOutAll forceOne : Bool) : Except String ℕ :=
  if !plugOutAll ∧ count = 0 ∧ 0 < amyuniCount then
    if forceOne then .ok 1
    else .error "The virtual display is managed by other processes."
  else .ok count

/-- How many monitors `plug_out_monitor` would plug out, were it to plug out all. -/
def ownCount (allCount plugInCount : ℕ) (forceAll : Bool) : Except String ℕ :=
  if allCount = 0 then .ok 0
  else if allCount = 1 then
    if plugInCount = 0 then .error "No virtual displays to plug out."
    else if forceAll then .ok 1
    else .error "This only virtual display cannot be plugged out."
  else if allCount = plugInCount then .ok (if forceAll then allCount else allCount - 1)
  else .ok plugInCount

/-- How many monitors `plug_out_monitor` plugs out. -/
def toPlugOutCount (allCount plugInCount : ℕ) (plugOutAll forceAll : Bool) : Except String ℕ :=
  (ownCount allCount plugInCount forceAll).map fun n => if n ≠ 0 ∧ !plugOutAll then 1 else n

/-- Where a call is. -/
inductive PlugPhase
  | idle
  /-- the driver is there; it may have been installed just now -/
  | pluggingIn (isAsync : Bool)
  /-- `plug_out_monitor` has counted its own monitors -/
  | counting (plugInCount : ℕ) (plugOutAll forceAll forceOne : Bool)
  /-- `plug_out_monitor` has commands left; those issued, and the monitors outstanding when it
  began, are kept beside -/
  | pluggingOut (left issued before : ℕ) (forceAll forceOne : Bool)
  deriving DecidableEq

/-- What the process and the driver count. -/
structure VirtualDisplays where
  /-- `VIRTUAL_DISPLAY_COUNT` -/
  count : ℕ
  /-- the monitors that this process has plugged in and not yet plugged out -/
  outstanding : ℕ
  /-- the monitors of the driver, `get_monitor_count` -/
  monitors : ℕ
  /-- the other displays of the machine -/
  others : ℕ
  phase : PlugPhase
  deriving DecidableEq

/-- The calls that plug displays in and out. -/
inductive DisplayEvent
  /-- `plug_in_monitor`, with whether `check_install_driver` succeeds and installs -/
  | plugInMonitor (driver : Option Bool)
  | plugInHeadless (tooFrequent : Bool) (driver : Option Bool)
  /-- `device_io_control` of a plug-in; a failure may be for want of the device, in time -/
  | plugInCommand (ok noMoreItems : Bool)
  | plugOutMonitor (index : ℤ) (forceAll forceOne : Bool)
  /-- `plug_out_monitor` counts all displays -/
  | countAll
  | plugOutCommand (ok : Bool)
  | returned
  /-- another process plugs in a monitor -/
  | monitorAdded
  | monitorRemoved
  | displayAdded
  | displayRemoved

namespace VirtualDisplays

/-- `get_device_names(None).len()`. -/
def allCount (s : VirtualDisplays) : ℕ := s.monitors + s.others

/-- `plug_monitor_` after the driver has plugged in a monitor. -/
def plugIn (s : VirtualDisplays) : VirtualDisplays :=
  { s with
    count := if s.count < VIRTUAL_DISPLAY_MAX_COUNT then s.count + 1 else s.count
    outstanding := s.outstanding + 1
    monitors := s.monitors + 1 }

/-- `plug_monitor_` after the driver has plugged out a monitor. -/
def plugOut (s : VirtualDisplays) : VirtualDisplays :=
  { s with
    count := if 0 < s.count then s.count - 1 else s.count
    outstanding := s.outstanding - 1
    monitors := s.monitors - 1 }

/-- One step of such a call. -/
def step (s : VirtualDisplays) (e : DisplayEvent) : Option VirtualDisplays :=
  match e, s.phase with
  | .plugInMonitor driver, .idle =>
    match driver with
    | none => some s
    | some isAsync =>
      if s.monitors = VIRTUAL_DISPLAY_MAX_COUNT then some s
      else some { s with phase := .pluggingIn isAsync }
  | .plugInHeadless tooFrequent driver, .idle =>
    if tooFrequent then some s
    else
      match driver with
      | none => some s
      | some isAsync => some { s with phase := .pluggingIn isAsync }
  | .plugInCommand ok noMoreItems, .pluggingIn isAsync =>
    if ok then some { s.plugIn with phase := .idle }
    else if isAsync ∧ noMoreItems then some s
    else some { s with phase := .idle }
  | .plugOutMonitor index forceAll forceOne, .idle =>
    let plugOutAll := decide (index = IDD_PLUG_OUT_ALL_INDEX)
    match plugInCountOf s.count s.monitors plugOutAll forceOne with
    | .error _ => some s
    | .ok plugInCount => some { s with phase := .counting plugInCount plugOutAll forceAll forceOne }
  | .countAll, .counting plugInCount plugOutAll forceAll forceOne =>
    match toPlugOutCount s.allCount plugInCount plugOutAll forceAll with
    | .error _ => some { s with phase := .idle }
    | .ok left => some { s with phase := .pluggingOut left 0 s.outstanding forceAll forceOne }
  | .plugOutCommand ok, .pluggingOut (left + 1) issued before forceAll forceOne =>
    some { (if ok then s.plugOut else s) with
      phase := .pluggingOut left (issued + 1) before forceAll forceOne }
  | .returned, .pluggingOut 0 _ _ _ _ => some { s with phase := .idle }
  | .monitorAdded, _ => some { s with monitors := s.monitors + 1 }
  | .monitorRemoved, _ =>
    if 0 < s.monitors then some { s with monitors := s.monitors - 1 } else none
  | .displayAdded, _ => some { s with others := s.others + 1 }
  | .displayRemoved, _ => if 0 < s.others then some { s with others := s.others - 1 } else none
  | _, _ => none

/-- The process starts beside what was plugged in before. -/
def machine (monitors others : ℕ) : Machine VirtualDisplays DisplayEvent where
  init := ⟨0, 0, monitors, others, .idle⟩
  step := step

/-- The counter is in its bounds, and a call without `force_one` has issued no more commands than
monitors were outstanding. -/
structure Accounted (s : VirtualDisplays) : Prop where
  count_le : s.count ≤ 4
  issued_le : ∀ left issued before forceAll,
    s.phase = .pluggingOut left issued before forceAll false → issued ≤ before

/-- A plug-out command of a call without `force_all` does not take the last display. -/
def KeepsDisplay (s : VirtualDisplays) (e : DisplayEvent) (t : VirtualDisplays) : Prop :=
  ∀ ok left issued before forceOne, e = .plugOutCommand ok →
    s.phase = .pluggingOut left issued before false forceOne → 0 < s.allCount → 0 < t.allCount

/-- All along a run the monitors are accounted for and a display is left. -/
def Sound (monitors others : ℕ) (events : List DisplayEvent) : Prop :=
  (∀ first u, first <+: events →
    (machine monitors others).Run (machine monitors others).init first u → u.Accounted) ∧
  ∀ first e u v, first ++ [e] <+: events →
    (machine monitors others).Run (machine monitors others).init first u → u.step e = some v →
    u.KeepsDisplay e v

/-- A display that is not the driver's, or one more monitor than commands. -/
def Spared (left monitors others : ℕ) : Prop := left = 0 ∨ 0 < others ∨ left < monitors

/-- Plugging out all without `force_all`, the counter is not above the displays, unless one of
them is not the driver's; and while such a call has commands left, other processes spare a
display. -/
def Careful (s : VirtualDisplays) : DisplayEvent → Prop
  | .countAll => ∀ plugInCount forceOne, s.phase = .counting plugInCount true false forceOne →
      s.allCount < 2 ∨ plugInCount ≤ s.allCount ∨ 0 < s.others
  | .monitorRemoved => ∀ left issued before forceOne,
      s.phase = .pluggingOut left issued before false forceOne →
        Spared left (s.monitors - 1) s.others
  | .displayRemoved => ∀ left issued before forceOne,
      s.phase = .pluggingOut left issued before false forceOne →
        Spared left s.monitors (s.others - 1)
  | _ => True

/-! ## How many monitors are plugged out -/

/-- Without force no more is plugged out than was plugged in. -/
theorem plugInCountOf_le {count amyuniCount plugInCount : ℕ} {plugOutAll : Bool}
    (h : plugInCountOf count amyuniCount plugOutAll false = .ok plugInCount) :
    plugInCount = count := by
  unfold plugInCountOf at h
  split_ifs at h with hothers hforce
  · exact absurd hforce (by decide)
  · exact (Except.ok.inj h).symm

/-- The own displays are those that were plugged in, at most. -/
theorem ownCount_le {allCount plugInCount own : ℕ} {forceAll : Bool}
    (h : ownCount allCount plugInCount forceAll = .ok own) : own ≤ plugInCount := by
  unfold ownCount at h
  split_ifs at h with hzero hone hnone hforce hequal hforce
  · obtain rfl := Except.ok.inj h
    omega
  · obtain rfl := Except.ok.inj h
    omega
  · obtain rfl := Except.ok.inj h
    omega
  · obtain rfl := Except.ok.inj h
    omega
  · obtain rfl := Except.ok.inj h
    omega

/-- What is left to plug out is counted from the own displays. -/
theorem toPlugOutCount_eq {allCount plugInCount left : ℕ} {plugOutAll forceAll : Bool}
    (h : toPlugOutCount allCount plugInCount plugOutAll forceAll = .ok left) :
    ∃ own, ownCount allCount plugInCount forceAll = .ok own ∧
      left = if own ≠ 0 ∧ !plugOutAll then 1 else own := by
  unfold toPlugOutCount at h
  cases hown : ownCount allCount plugInCount forceAll with
  | error message =>
    rw [hown] at h
    cases h
  | ok own =>
    rw [hown] at h
    exact ⟨own, rfl, (Except.ok.inj h).symm⟩

/-- No more than are counted. -/
theorem toPlugOutCount_le {allCount plugInCount left : ℕ} {plugOutAll forceAll : Bool}
    (h : toPlugOutCount allCount plugInCount plugOutAll forceAll = .ok left) :
    left ≤ plugInCount := by
  obtain ⟨own, hown, rfl⟩ := toPlugOutCount_eq h
  have hle := ownCount_le hown
  split_ifs with hone
  · omega
  · exact hle

/-- Without `force_all` nothing is plugged out of a single display, and all but one of several
that are all counted. -/
theorem ownCount_cases {allCount plugInCount own : ℕ}
    (h : ownCount allCount plugInCount false = .ok own) :
    own = 0 ∧ allCount = 0 ∨ 2 ≤ allCount ∧ allCount = plugInCount ∧ own = allCount - 1 ∨
      2 ≤ allCount ∧ allCount ≠ plugInCount ∧ own = plugInCount := by
  unfold ownCount at h
  split_ifs at h with hzero hone hnone hforce hequal hforce
  · exact .inl ⟨(Except.ok.inj h).symm, hzero⟩
  · exact absurd hforce (by decide)
  · exact absurd hforce (by decide)
  · exact .inr (.inl ⟨by omega, hequal, (Except.ok.inj h).symm⟩)
  · exact .inr (.inr ⟨by omega, hequal, (Except.ok.inj h).symm⟩)

/-- A call without `force_all` spares a display, if and only if the counter of a call that plugs
out all is not above the displays, or one of them is not the driver's. -/
theorem spared_toPlugOutCount_iff {monitors others plugInCount left : ℕ} {plugOutAll : Bool}
    (h : toPlugOutCount (monitors + others) plugInCount plugOutAll false = .ok left) :
    Spared left monitors others ↔
      (plugOutAll = true →
        monitors + others < 2 ∨ plugInCount ≤ monitors + others ∨ 0 < others) := by
  obtain ⟨own, hown, rfl⟩ := toPlugOutCount_eq h
  have hcases := ownCount_cases hown
  unfold Spared
  cases plugOutAll with
  | false =>
    refine iff_of_true ?_ fun h => by cases h
    split_ifs with hone
    · have hne := hone.1
      omega
    · have hzero : own = 0 := by simpa using hone
      omega
  | true =>
    rw [Bool.not_true, if_neg (by simp)]
    simp only [forall_const]
    omega

/-! ## What a step does -/

/-- The steps of a call, and what happens beside it. -/
inductive Moves (s : VirtualDisplays) : DisplayEvent → VirtualDisplays → Prop
  | stay {e : DisplayEvent} (he : ∀ ok, e ≠ .plugOutCommand ok) : Moves s e s
  | giveUp {e : DisplayEvent} (he : ∀ ok, e ≠ .plugOutCommand ok) :
      Moves s e { s with phase := .idle }
  | begin {e : DisplayEvent} (he : ∀ ok, e ≠ .plugOutCommand ok) (isAsync : Bool) :
      Moves s e { s with phase := .pluggingIn isAsync }
  | pluggedIn (noMoreItems : Bool) :
      Moves s (.plugInCommand true noMoreItems) { s.plugIn with phase := .idle }
  | counted {plugInCount : ℕ} {index : ℤ} {plugOutAll forceAll forceOne : Bool}
      (hcount : plugInCountOf s.count s.monitors plugOutAll forceOne = .ok plugInCount) :
      Moves s (.plugOutMonitor index forceAll forceOne)
        { s with phase := .counting plugInCount plugOutAll forceAll forceOne }
  | countedAll {plugInCount left : ℕ} {plugOutAll forceAll forceOne : Bool}
      (hphase : s.phase = .counting plugInCount plugOutAll forceAll forceOne)
      (hleft : toPlugOutCount s.allCount plugInCount plugOutAll forceAll = .ok left) :
      Moves s .countAll
        { s with phase := .pluggingOut left 0 s.outstanding forceAll forceOne }
  | command (ok : Bool) {left issued before : ℕ} {forceAll forceOne : Bool}
      (hphase : s.phase = .pluggingOut (left + 1) issued before forceAll forceOne) :
      Moves s (.plugOutCommand ok) { (if ok then s.plugOut else s) with
        phase := .pluggingOut left (issued + 1) before forceAll forceOne }
  | monitorAdded : Moves s .monitorAdded { s with monitors := s.monitors + 1 }
  | monitorRemoved : Moves s .monitorRemoved { s with monitors := s.monitors - 1 }
  | displayAdded : Moves s .displayAdded { s with others := s.others + 1 }
  | displayRemoved : Moves s .displayRemoved { s with others := s.others - 1 }

variable {s t : VirtualDisplays}

/-- A step is one of the moves. -/
theorem moves_of_step {e : DisplayEvent} (hstep : s.step e = some t) : s.Moves e t := by
  unfold step at hstep
  split at hstep
  · rename_i driver _
    split at hstep
    · exact Option.some.inj hstep ▸ .stay (by simp)
    · split_ifs at hstep
      · exact Option.some.inj hstep ▸ .stay (by simp)
      · exact Option.some.inj hstep ▸ .begin (by simp) _
  · split_ifs at hstep
    · exact Option.some.inj hstep ▸ .stay (by simp)
    · split at hstep
      · exact Option.some.inj hstep ▸ .stay (by simp)
      · exact Option.some.inj hstep ▸ .begin (by simp) _
  · rename_i ok noMoreItems isAsync _
    split_ifs at hstep with hok hretry
    · subst hok
      exact Option.some.inj hstep ▸ .pluggedIn _
    · exact Option.some.inj hstep ▸ .stay (by simp)
    · exact Option.some.inj hstep ▸ .giveUp (by simp)
  · dsimp only at hstep
    split at hstep
    · exact Option.some.inj hstep ▸ .stay (by simp)
    · rename_i hcount
      exact Option.some.inj hstep ▸ .counted hcount
  · rename_i hphase
    split at hstep
    · exact Option.some.inj hstep ▸ .giveUp (by simp)
    · rename_i hleft
      exact Option.some.inj hstep ▸ .countedAll hphase hleft
  · rename_i hphase
    exact Option.some.inj hstep ▸ .command _ hphase
  · exact Option.some.inj hstep ▸ .giveUp (by simp)
  · exact Option.some.inj hstep ▸ .monitorAdded
  · split_ifs at hstep
    exact Option.some.inj hstep ▸ .monitorRemoved
  · exact Option.some.inj hstep ▸ .displayAdded
  · split_ifs at hstep
    exact Option.some.inj hstep ▸ .displayRemoved
  · cases hstep

/-! ## Invariants -/

/-- The counter is bounded and below the monitors outstanding, and so are the commands of a call
without `force_one`. -/
structure Kept (s : VirtualDisplays) : Prop where
  count_le : s.count ≤ 4
  count_le_outstanding : s.count ≤ s.outstanding
  counting : ∀ plugInCount plugOutAll forceAll,
    s.phase = .counting plugInCount plugOutAll forceAll false → plugInCount ≤ s.outstanding
  pluggingOut : ∀ left issued before forceAll,
    s.phase = .pluggingOut left issued before forceAll false → issued + left ≤ before

/-- Other processes do not change the counter and the call. -/
theorem Kept.beside (h : s.Kept) (hcount : t.count = s.count)
    (houtstanding : t.outstanding = s.outstanding) (hphase : t.phase = s.phase) : t.Kept where
  count_le := hcount ▸ h.count_le
  count_le_outstanding := by rw [hcount, houtstanding]; exact h.count_le_outstanding
  counting := by rw [hphase, houtstanding]; exact h.counting
  pluggingOut := by rw [hphase]; exact h.pluggingOut

/-- Plugging in stays within the count. -/
theorem Kept.plugIn (h : s.Kept) : s.plugIn.count ≤ 4 ∧ s.plugIn.count ≤ s.plugIn.outstanding := by
  have hle := h.count_le
  have hout := h.count_le_outstanding
  unfold VirtualDisplays.plugIn VIRTUAL_DISPLAY_MAX_COUNT
  dsimp only
  split_ifs with hlt
  · omega
  · omega

/-- Plugging out stays within the count. -/
theorem Kept.plugOut (h : s.Kept) :
    s.plugOut.count ≤ 4 ∧ s.plugOut.count ≤ s.plugOut.outstanding := by
  have hle := h.count_le
  have hout := h.count_le_outstanding
  unfold VirtualDisplays.plugOut
  dsimp only
  split_ifs with hpos
  · omega
  · omega

/-- A move keeps the counts. -/
theorem Kept.moves {e : DisplayEvent} (h : s.Kept) (hmoves : s.Moves e t) : t.Kept := by
  have hle := h.count_le
  have hout := h.count_le_outstanding
  cases hmoves with
  | stay => exact h
  | giveUp => exact ⟨hle, hout, by simp, by simp⟩
  | begin => exact ⟨hle, hout, by simp, by simp⟩
  | pluggedIn => exact ⟨h.plugIn.1, h.plugIn.2, by simp, by simp⟩
  | counted hcount =>
    refine ⟨hle, hout, ?_, by simp⟩
    rintro plugInCount plugOutAll forceAll ⟨⟩
    exact (plugInCountOf_le hcount).trans_le hout
  | countedAll hphase hleft =>
    refine ⟨hle, hout, by simp, ?_⟩
    rintro left issued before forceAll ⟨⟩
    have hcounting := h.counting _ _ _ hphase
    have := toPlugOutCount_le hleft
    omega
  | @command ok left issued before forceAll forceOne hphase =>
    refine ⟨?_, ?_, by simp, ?_⟩
    · cases ok
      · exact hle
      · exact h.plugOut.1
    · cases ok
      · exact hout
      · exact h.plugOut.2
    · rintro _ _ _ _ ⟨⟩
      have := h.pluggingOut _ _ _ _ hphase
      omega
  | monitorAdded => exact h.beside rfl rfl rfl
  | monitorRemoved => exact h.beside rfl rfl rfl
  | displayAdded => exact h.beside rfl rfl rfl
  | displayRemoved => exact h.beside rfl rfl rfl

/-- What is kept is accounted for. -/
theorem Kept.accounted (h : s.Kept) : s.Accounted where
  count_le := h.count_le
  issued_le left issued before forceAll hphase := by
    have := h.pluggingOut left issued before forceAll hphase
    omega

/-- The commands that a call without `force_all` has left spare a display. -/
def Spares (s : VirtualDisplays) : Prop :=
  ∀ left issued before forceOne, s.phase = .pluggingOut left issued before false forceOne →
    Spared left s.monitors s.others

/-- A careful move spares the displays of others. -/
theorem Spares.moves {e : DisplayEvent} (h : s.Spares) (hcareful : s.Careful e)
    (hmoves : s.Moves e t) : t.Spares := by
  intro left issued before forceOne hphase'
  cases hmoves with
  | stay => exact h _ _ _ _ hphase'
  | giveUp => cases hphase'
  | begin => cases hphase'
  | pluggedIn => cases hphase'
  | counted => cases hphase'
  | @countedAll plugInCount left' plugOutAll forceAll forceOne' hphase hleft =>
    cases hphase'
    refine (spared_toPlugOutCount_iff hleft).mpr ?_
    rintro rfl
    exact hcareful _ _ hphase
  | @command ok left' issued' before' forceAll forceOne' hphase =>
    cases hphase'
    have hspared := h _ _ _ _ hphase
    unfold Spared at hspared
    cases ok
    · change left = 0 ∨ 0 < s.others ∨ left < s.monitors
      omega
    · change left = 0 ∨ 0 < s.others ∨ left < s.monitors - 1
      omega
  | monitorAdded =>
    have hspared := h _ _ _ _ hphase'
    unfold Spared at hspared ⊢
    dsimp only
    omega
  | monitorRemoved => exact hcareful _ _ _ _ hphase'
  | displayAdded =>
    have hspared := h _ _ _ _ hphase'
    unfold Spared at hspared ⊢
    dsimp only
    omega
  | displayRemoved => exact hcareful _ _ _ _ hphase'

/-- A command that spares a display leaves it. -/
theorem Spares.keepsDisplay {e : DisplayEvent} (h : s.Spares) (hmoves : s.Moves e t) :
    s.KeepsDisplay e t := by
  rintro ok left issued before forceOne rfl hphase hpos
  cases hmoves with
  | stay he => exact absurd rfl (he ok)
  | giveUp he => exact absurd rfl (he ok)
  | begin he => exact absurd rfl (he ok)
  | @command ok left' issued' before' forceAll forceOne' hphase' =>
    have heq := hphase.symm.trans hphase'
    cases heq
    have hspared := h _ _ _ _ hphase
    unfold Spared at hspared
    unfold allCount at hpos
    cases ok
    · exact hpos
    · change 0 < s.monitors - 1 + s.others
      omega

/-- **The virtual displays are accounted for**, and a call without `force_all` leaves a display, in
every run whose steps are careful. -/
theorem sound_of_careful {monitors others : ℕ} {events : List DisplayEvent}
    (hrun : (machine monitors others).RunWhere Careful (machine monitors others).init events t) :
    Sound monitors others events := by
  have hinit : (machine monitors others).init.Kept ∧ (machine monitors others).init.Spares :=
    ⟨⟨Nat.zero_le _, Nat.zero_le _, by simp [machine], by simp [machine]⟩,
      by simp [Spares, machine]⟩
  have hkept {first : List DisplayEvent} {u : VirtualDisplays} (hinitial : first <+: events)
      (hfirst : (machine monitors others).Run (machine monitors others).init first u) :
      u.Kept ∧ u.Spares := by
    obtain ⟨v, hv⟩ := hrun.initial hinitial
    obtain rfl := hv.end_eq hfirst
    exact hv.invariant (P := fun s => s.Kept ∧ s.Spares) (fun s e t hok hse hs =>
      ⟨hs.1.moves (moves_of_step hse), hs.2.moves hok (moves_of_step hse)⟩) hinit
  refine ⟨fun first u hinitial hfirst => (hkept hinitial hfirst).1.accounted, ?_⟩
  intro first e u v hinitial hfirst hse
  exact (hkept ((List.prefix_append _ _).trans hinitial) hfirst).2.keepsDisplay (moves_of_step hse)

/-- The state of a machine without another display after some events. -/
def after (events : List DisplayEvent) : VirtualDisplays :=
  events.foldl (fun s e => (s.step e).getD s) (machine 0 0).init

/-- A monitor is plugged in. -/
def plugInOnce : List DisplayEvent := [.plugInMonitor (some false), .plugInCommand true false]

/-- Two monitors are plugged in, and plugging out all leaves one. -/
def plugOutAllOfTwo : List DisplayEvent :=
  plugInOnce ++ plugInOnce ++
    [.plugOutMonitor (-1) false false, .countAll, .plugOutCommand true, .returned]

/-- Plugging out all of two is sound. -/
theorem sound_plugOutAllOfTwo : Sound 0 0 plugOutAllOfTwo := by
  have hcareful (s : VirtualDisplays)
      (h : s.allCount = 2 ∧ s.phase = .counting 2 true false false) : s.Careful .countAll := by
    rintro plugInCount forceOne hphase
    cases h.2.symm.trans hphase
    exact .inr (.inl h.1.ge)
  have hwhere : (machine 0 0).RunWhere Careful (machine 0 0).init plugOutAllOfTwo
      (after plugOutAllOfTwo) :=
    .cons trivial rfl <| .cons trivial rfl <| .cons trivial rfl <| .cons trivial rfl <|
      .cons trivial rfl <| .cons (hcareful _ ⟨rfl, rfl⟩) rfl <| .cons trivial rfl <|
        .single trivial rfl
  exact sound_of_careful hwhere

/-- Three monitors are plugged in, another process plugs out one of them, and plugging out all
sends three commands to the two that are left. -/
def plugOutAllOfThree : List DisplayEvent :=
  plugInOnce ++ plugInOnce ++ plugInOnce ++
    [.monitorRemoved, .plugOutMonitor (-1) false false, .countAll, .plugOutCommand true]

/-- With three plugged in and one of them removed, the commands take a display too many. -/
theorem not_sound_plugOutAllOfThree :
    (machine 0 0).Run (machine 0 0).init (plugOutAllOfThree ++ [.plugOutCommand true])
        (after (plugOutAllOfThree ++ [.plugOutCommand true])) ∧
      (after plugOutAllOfThree).allCount = 1 ∧
      (after (plugOutAllOfThree ++ [.plugOutCommand true])).allCount = 0 ∧
      ¬ Sound 0 0 (plugOutAllOfThree ++ [.plugOutCommand true]) := by
  refine ⟨Machine.run_of_replay rfl, rfl, rfl, fun h => ?_⟩
  have hkeeps := h.2 plugOutAllOfThree (.plugOutCommand true) (after plugOutAllOfThree)
    (after (plugOutAllOfThree ++ [.plugOutCommand true])) (List.prefix_refl _)
    (Machine.run_of_replay rfl) rfl
  exact absurd (hkeeps true 2 1 3 false rfl rfl (by decide)) (by decide)

end VirtualDisplays

end RdWeb.Host
