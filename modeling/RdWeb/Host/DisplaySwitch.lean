import RdWeb.Host.WinVirtualDisplay

/-!
# How the displays are switched

What the programs of `win_virtual_display.rs` do, one by one: which displays are recorded, when a
monitor is plugged in or out, when the displays can be switched, and what restoring them changes.
-/

namespace RdWeb.Host.WinVirtualDisplay

open Rollback

/-- A monitor can be plugged in. -/
def TurnOnAnswers.plugsIn (a : TurnOnAnswers) : Bool :=
  a.driver && decide (a.plugIn.monitors ≠ VIRTUAL_DISPLAY_MAX_COUNT) && a.plugIn.ok

/-- The devices as they are listed last. -/
def TurnOnAnswers.lastDevices (names : DeviceNames) (a : TurnOnAnswers) : List DisplayDevice :=
  if (displaysOf names true a.devices).isEmpty && a.plugsIn then a.devicesAfter else a.devices

/-- The physical displays with the modes recorded before they are changed. -/
def TurnOnAnswers.recorded (names : DeviceNames) (a : TurnOnAnswers) : List Display :=
  displaysOf names false (a.lastDevices names)

/-- A virtual display becomes the primary one. -/
def PrimaryAnswers.Moves (a : PrimaryAnswers) : Prop :=
  a.newPrimary.isSome = true ∧ ∀ dev ∈ a.devices, dev.active = true →
    dev.current.isSome = true ∧ a.change dev = DISP_CHANGE_SUCCESSFUL

/-- The displays can be switched, and the registry read. -/
def TurnOnAnswers.Completes (names : DeviceNames) (a : TurnOnAnswers) : Prop :=
  (∃ r, a.readReg = .ok r) ∧ a.primary.Moves ∧
    (∀ d ∈ a.recorded names, a.disable d = DISP_CHANGE_SUCCESSFUL) ∧
    a.commit = DISP_CHANGE_SUCCESSFUL ∧ (∃ r, a.readRegAfter = .ok r) ∧
    ∀ recovery, a.recovery = some recovery → ∃ json, recovery = .ok json

/-! ## Rules for the calls -/

section Rules

variable {α : Type} {P E : Desktop → Prop} {Q : α → Desktop → Prop} {s : Desktop}
  {call : VirtualDisplays → VirtualDisplays × Except String α} {v : VirtualDisplays}

/-- An answer of the system ends well if it is no error. -/
theorem endsWellIff_answered (res : Except String α) :
    EndsWellIff P (answered res) (∃ r, res = .ok r) := by
  cases res with
  | ok r => exact endsWellIff_pure ⟨r, rfl⟩
  | error message => exact endsWellIff_throw (by simp)

/-- A call that succeeds leaves its monitors. -/
theorem onMonitors_of_ok {r : α} (h : call s.monitors = (v, .ok r)) :
    onMonitors call s = .ok r { s with monitors := v } := by
  have hrun : onMonitors call s =
      answered (call s.monitors).2 { s with monitors := (call s.monitors).1 } := rfl
  rw [hrun, h]
  rfl

/-- A call that fails leaves its monitors too. -/
theorem onMonitors_of_error {message : String} (h : call s.monitors = (v, .error message)) :
    onMonitors call s = .error (.system message) { s with monitors := v } := by
  have hrun : onMonitors call s =
      answered (call s.monitors).2 { s with monitors := (call s.monitors).1 } := rfl
  rw [hrun, h]
  rfl

/-- A call keeps what does not depend on the monitors. -/
theorem keeps_onMonitors (h : ∀ s, P s → P { s with monitors := (call s.monitors).1 }) :
    Keeps P (onMonitors call) := by
  refine ensures_of_forall fun s hs => ?_
  rcases hcall : call s.monitors with ⟨v, message | r⟩
  · have hkept := h s hs
    rw [hcall] at hkept
    exact ensures_of_error (onMonitors_of_error hcall) hkept
  · have hkept := h s hs
    rw [hcall] at hkept
    exact ensures_of_ok (onMonitors_of_ok hcall) hkept

/-- What a failing call did is kept, too. -/
theorem endsWellIff_changeOrBail (change : Desktop → Desktop) (h : ∀ s, P s → P (change s))
    (rc : ℤ) : EndsWellIff P (changeOrBail change rc) (rc = DISP_CHANGE_SUCCESSFUL) := by
  have hmodify : Ensures P (modify change : PrivacyM PUnit) (fun _ => P) fun _ => False :=
    ensures_modify h
  refine (hmodify.mono (fun _ hs => hs) (fun _ _ hs => hs) fun _ hs => hs.elim).bind fun _ => ?_
  exact ensures_ite (fun hrc => endsWellIff_pure hrc) fun hrc => endsWellIff_throw hrc

end Rules

/-! ## Recorded displays -/

section Recorded

variable {names : DeviceNames} {virtual : Bool} {devices : List DisplayDevice}

/-- A display bears the name of its device. -/
theorem name_display? {dev : DisplayDevice} {d : Display} (h : dev.display? names = some d) :
    d.name = dev.name := by
  rw [DisplayDevice.display?] at h
  split_ifs at h
  obtain ⟨dm, -, rfl⟩ := Option.map_eq_some_iff.mp h
  rfl

/-- The displays of a listing are virtual or not, as asked for. -/
theorem isVirtual_of_mem {d : Display} (h : d ∈ displaysOf names virtual devices) :
    names.isVirtual d.name = virtual := by
  simpa using (List.mem_filter.mp h).2

/-- A device is recorded once at most, so the names of different records differ. -/
theorem nodup_displaysOf (h : (devices.map DisplayDevice.name).Nodup) :
    ((displaysOf names virtual devices).map Display.name).Nodup := by
  have hlisted : ((devices.filterMap (DisplayDevice.display? names)).map Display.name).Sublist
      (devices.map DisplayDevice.name) := by
    clear h
    induction devices with
    | nil => exact .slnil
    | cons dev devices ih =>
      cases hdev : dev.display? names with
      | none =>
        rw [List.filterMap_cons_none hdev]
        exact ih.cons _
      | some d =>
        rw [List.filterMap_cons_some hdev, List.map_cons, List.map_cons, name_display? hdev]
        exact ih.cons_cons _
  exact ((List.filter_sublist.map _).trans hlisted).nodup h

end Recorded

/-! ## Restoring -/

section Restore

variable {s : Desktop} {rc : Display → ℤ} {displays : List Display}

/-- Restoring changes settings and nothing else. -/
theorem restoreDisplays_eq (s : Desktop) (rc : Display → ℤ) (displays : List Display) :
    ∃ settings, s.restoreDisplays rc displays = { s with settings := settings } := by
  induction displays generalizing s with
  | nil => exact ⟨s.settings, rfl⟩
  | cons d displays ih =>
    have hone : ∃ settings, s.changeDisplaySettingsEx d.name d.dm (rc d) =
        { s with settings := settings } := by
      rw [Desktop.changeDisplaySettingsEx]
      split_ifs
      · exact ⟨_, rfl⟩
      · exact ⟨s.settings, rfl⟩
    obtain ⟨first, hone⟩ := hone
    obtain ⟨settings, hrest⟩ := ih { s with settings := first }
    refine ⟨settings, ?_⟩
    rw [Desktop.restoreDisplays, List.foldl_cons, hone]
    exact hrest

/-- A change of the settings leaves what the privacy mode keeps. -/
theorem changeDisplaySettingsEx_pm (s : Desktop) (name : String) (dm : Devmode) (rc : ℤ) :
    (s.changeDisplaySettingsEx name dm rc).pm = s.pm := by
  rw [Desktop.changeDisplaySettingsEx]
  split_ifs <;> rfl

/-- A change of the settings leaves those of the other devices. -/
theorem changeDisplaySettingsEx_settings_of_ne {name other : String} {dm : Devmode} {rc : ℤ}
    (h : other ≠ name) :
    (s.changeDisplaySettingsEx name dm rc).settings other = s.settings other := by
  rw [Desktop.changeDisplaySettingsEx]
  split_ifs
  · exact Function.update_of_ne h _ _
  · rfl

/-- Displays with other names keep their settings. -/
theorem restoreDisplays_settings_of_notMem {name : String}
    (h : name ∉ displays.map Display.name) :
    (s.restoreDisplays rc displays).settings name = s.settings name := by
  induction displays generalizing s with
  | nil => rfl
  | cons d displays ih =>
    rw [List.map_cons, List.mem_cons, not_or] at h
    exact (ih h.2).trans (changeDisplaySettingsEx_settings_of_ne h.1)

/-- The recorded mode is stored where the call succeeds. -/
theorem restoreDisplays_settings_of_mem {d : Display} (hd : d ∈ displays)
    (hdistinct : (displays.map Display.name).Nodup) (hrc : rc d = DISP_CHANGE_SUCCESSFUL) :
    (s.restoreDisplays rc displays).settings d.name =
      { s.settings d.name with stored := some d.dm } := by
  induction displays generalizing s with
  | nil => cases hd
  | cons first displays ih =>
    rw [List.map_cons, List.nodup_cons] at hdistinct
    have hrest : s.restoreDisplays rc (first :: displays) =
        (s.changeDisplaySettingsEx first.name first.dm (rc first)).restoreDisplays rc
          displays := rfl
    rw [hrest]
    rcases List.mem_cons.mp hd with rfl | hd
    · rw [restoreDisplays_settings_of_notMem hdistinct.1, Desktop.changeDisplaySettingsEx,
        if_pos hrc]
      exact Function.update_self _ _ _
    · have hne : d.name ≠ first.name := by
        intro heq
        exact hdistinct.1 (heq ▸ List.mem_map_of_mem hd)
      rw [ih hd hdistinct.2, changeDisplaySettingsEx_settings_of_ne hne]

end Restore

/-! ## Plugging out -/

/-- A monitor of this process is plugged out where the command is given and succeeds. Without
`force_all` another display has to be left. -/
theorem plugOutMonitor_of_ok {v : VirtualDisplays} {forceAll : Bool} {a : DriverAnswer}
    (hok : a.ok = true) (hcount : 0 < v.count) (hany : 0 < a.monitors + a.others)
    (hleft : forceAll = false → 2 ≤ a.monitors + a.others) :
    plugOutMonitor forceAll false a v = ((a.meet v).plugOut, .ok ()) := by
  have hown : plugInCountOf (a.meet v).count (a.meet v).monitors false false = .ok v.count := by
    rw [plugInCountOf, if_neg]
    · rfl
    · rintro ⟨-, hzero, -⟩
      exact absurd hzero (Nat.pos_iff_ne_zero.mp hcount)
  have hone : ∃ n, toPlugOutCount (a.meet v).allCount v.count false forceAll = .ok (n + 1) := by
    have hall : (a.meet v).allCount = a.monitors + a.others := rfl
    rw [toPlugOutCount, hall, ownCount, if_neg (by omega)]
    split_ifs with hsingle hnone hforce hequal hforce
    · omega
    · exact ⟨0, rfl⟩
    · have htwo := hleft (by simpa using hforce)
      omega
    · exact ⟨0, by rw [Except.map, if_pos ⟨by omega, rfl⟩]⟩
    · exact ⟨0, by rw [Except.map, if_pos ⟨by omega, rfl⟩]⟩
    · exact ⟨0, by rw [Except.map, if_pos ⟨by omega, rfl⟩]⟩
  obtain ⟨n, hone⟩ := hone
  simp only [plugOutMonitor, hown, hone, ne_eq, Nat.add_eq_zero_iff, one_ne_zero, and_false,
    not_false_eq_true, hok, and_self, if_true]

/-- Where the counter covers them and every command succeeds, all are plugged out. -/
theorem plugOutMonitorIndices_of_ok (forceAll : Bool) (answer : ℕ → DriverAnswer)
    {indices : List ℕ} {s : Desktop} (hcount : indices.length ≤ s.monitors.count)
    (hok : ∀ left < indices.length, (answer left).ok = true ∧
      0 < (answer left).monitors + (answer left).others ∧
      (forceAll = false → 2 ≤ (answer left).monitors + (answer left).others)) :
    ∃ v : VirtualDisplays, v.outstanding = s.monitors.outstanding - indices.length ∧
      plugOutMonitorIndices forceAll false answer indices s = .ok ⟨⟩ { s with monitors := v } := by
  induction indices generalizing s with
  | nil => exact ⟨s.monitors, rfl, rfl⟩
  | cons index indices ih =>
    rw [List.length_cons] at hcount hok
    have hpositive : 0 < s.monitors.count := by omega
    obtain ⟨hcommand, hany, hleft⟩ := hok indices.length (Nat.lt_succ_self _)
    have hone := plugOutMonitor_of_ok hcommand hpositive hany hleft
    have hrun : plugOutMonitorIndices forceAll false answer (index :: indices) s =
        (onMonitors (plugOutMonitor forceAll false (answer indices.length)) >>= fun _ =>
          plugOutMonitorIndices forceAll false answer indices) s := rfl
    have hcounter : ((answer indices.length).meet s.monitors).plugOut.count =
        s.monitors.count - 1 := if_pos hpositive
    obtain ⟨v, hv, hrest⟩ := ih
      (s := { s with monitors := ((answer indices.length).meet s.monitors).plugOut })
      (by
        dsimp only
        omega)
      fun left hlt => hok left (Nat.lt_succ_of_lt hlt)
    refine ⟨v, ?_, ?_⟩
    · have hout : ((answer indices.length).meet s.monitors).plugOut.outstanding =
          s.monitors.outstanding - 1 := rfl
      dsimp only at hv
      rw [List.length_cons]
      omega
    · rw [hrun, bind_of_ok (onMonitors_of_ok hone), hrest]

/-- However a plug-out ends, the rest of the desktop stays, and no monitor is added. -/
theorem keeps_plugOutMonitorIndices (forceAll forceOne : Bool) (answer : ℕ → DriverAnswer)
    (s : Desktop) (n : ℕ) : ∀ indices : List ℕ,
    Keeps (fun t : Desktop => t.pm = s.pm ∧ t.settings = s.settings ∧ t.monitors.outstanding ≤ n)
      (plugOutMonitorIndices forceAll forceOne answer indices)
  | [] => ensures_pure fun _ ht => ht
  | _ :: indices => by
    have hle (v : VirtualDisplays) :
        (plugOutMonitor forceAll forceOne (answer indices.length) v).1.outstanding ≤
          v.outstanding := by
      rw [plugOutMonitor]
      split
      · exact le_rfl
      · split
        · exact le_rfl
        · dsimp only
          split_ifs
          · exact Nat.sub_le _ _
          · exact le_rfl
    refine Ensures.bind ?_ fun _ =>
      keeps_plugOutMonitorIndices forceAll forceOne answer s n indices
    exact keeps_onMonitors fun t ht => ⟨ht.1, ht.2.1, (hle t.monitors).trans ht.2.2⟩

/-! ## Switching the displays -/

/-- A property of the desktop that the switching of the displays keeps. -/
structure Steady (names : DeviceNames) (a : TurnOnAnswers) (P : Desktop → Prop) : Prop where
  displays : ∀ t, P t → t.pm.displays = a.recorded names
  virtualDisplays : ∀ t, P t →
    t.pm.virtualDisplays = displaysOf names true (a.lastDevices names)
  move : ∀ t dm, ∀ dev ∈ a.primary.devices, dev.active = true → P t →
    P (t.changeDisplaySettingsEx dev.name dm (a.primary.change dev))
  disable : ∀ t, ∀ d ∈ a.recorded names, P t →
    P (t.changeDisplaySettingsEx d.name disabledMode (a.disable d))
  commit : ∀ t, P t → P t.commit
  resolution : ∀ t name, names.isVirtual name = true → P t →
    P (t.changeResolution name a.resolution)
  recovery : ∀ t json, P t → P { t with regRecovery := json }

section Switch

variable {names : DeviceNames} {a : TurnOnAnswers} {P : Desktop → Prop}

/-- Moving an active device ends well if its change does. -/
theorem endsWellIff_moveDisplay (newPrimary : Devmode) {dev : DisplayDevice} (rc : ℤ)
    (h : ∀ t dm, dev.active = true → P t → P (t.changeDisplaySettingsEx dev.name dm rc)) :
    EndsWellIff P (moveDisplay newPrimary dev rc)
      (dev.active = true → dev.current.isSome = true ∧ rc = DISP_CHANGE_SUCCESSFUL) := by
  rw [moveDisplay]
  refine ensures_ite (fun hactive => ?_) fun hactive => ?_
  · exact endsWellIff_pure fun hdev => by simp [hdev] at hactive
  · have hactive : dev.active = true := by simpa using hactive
    split
    · rename_i hnone
      refine endsWellIff_throw fun hmoved => ?_
      have hsome := (hmoved hactive).1
      rw [hnone] at hsome
      cases hsome
    · rename_i dm hsome
      have hchange := endsWellIff_changeOrBail (P := P)
        (·.changeDisplaySettingsEx dev.name
          { dm with x := dm.x - newPrimary.x, y := dm.y - newPrimary.y } rc)
        (fun t ht => h t _ hactive ht) rc
      refine Ensures.mono hchange (fun _ ht => ht)
        (fun _ _ ht => ⟨ht.1, fun _ => ⟨by rw [hsome]; rfl, ht.2⟩⟩)
        fun _ ht => ⟨ht.1, fun hmoved => ht.2 (hmoved hactive).2⟩

/-- The name that is returned is that of a virtual display. -/
theorem Steady.setPrimaryDisplay (h : Steady names a P)
    (hvirtual : displaysOf names true (a.lastDevices names) ≠ []) :
    Ensures P (setPrimaryDisplay a.primary)
      (fun name t => (P t ∧ a.primary.Moves) ∧ names.isVirtual name = true)
      fun t => P t ∧ ¬ a.primary.Moves := by
  refine ensures_get_bind fun t ht => ?_
  refine Ensures.mono (P := P) ?_ (fun u hu => hu ▸ ht) (fun _ _ h => h) fun _ h => h
  have hhead : t.pm.virtualDisplays.head? = some
      ((displaysOf names true (a.lastDevices names)).head hvirtual) := by
    rw [h.virtualDisplays t ht]
    exact List.head?_eq_some_head hvirtual
  have hname := isVirtual_of_mem (List.head_mem hvirtual)
  rw [hhead]
  split
  · rename_i display newPrimary hdisplay hnew
    obtain rfl := Option.some.inj hdisplay
    have hmoved : EndsWellIff P
        (forM a.primary.devices fun dev => moveDisplay newPrimary dev (a.primary.change dev)) _ :=
      endsWellIff_forM fun dev hdev => endsWellIff_moveDisplay newPrimary (a.primary.change dev)
        fun t dm hactive ht => h.move t dm dev hdev hactive ht
    have hmoves : EndsWellIff P
        (forM a.primary.devices fun dev => moveDisplay newPrimary dev (a.primary.change dev))
        a.primary.Moves := by
      rw [PrimaryAnswers.Moves, hnew]
      simpa using hmoved
    exact Ensures.bind hmoves fun _ => ensures_pure fun u hu => ⟨hu, hname⟩
  · rename_i hnone
    refine ensures_throw fun u hu => ⟨hu, fun hmoves => ?_⟩
    have hsome := hmoves.1
    rw [hnone] at hsome
    cases hsome
  · rename_i hnone
    cases hnone

/-- Disabling the displays ends well if the system disables each of them. -/
theorem Steady.disablePhysicalDisplays (h : Steady names a P) :
    EndsWellIff P (disablePhysicalDisplays a.disable)
      (∀ d ∈ a.recorded names, a.disable d = DISP_CHANGE_SUCCESSFUL) := by
  refine ensures_get_bind fun t ht => ?_
  refine Ensures.mono (P := P) ?_ (fun u hu => hu ▸ ht) (fun _ _ h => h) fun _ h => h
  rw [h.displays t ht]
  exact endsWellIff_forM fun d hd => endsWellIff_changeOrBail _ (h.disable · d hd) _

/-- Committing ends well if the system commits. -/
theorem Steady.commitChangeDisplay (h : Steady names a P) (rc : ℤ) :
    EndsWellIff P (commitChangeDisplay rc) (rc = DISP_CHANGE_SUCCESSFUL) := by
  refine endsWellIff_changeOrBail _ (fun t ht => ?_) rc
  split_ifs
  · exact h.commit t ht
  · exact ht

/-- Writing the registry ends well if the recovery can be written. -/
theorem Steady.setRegRecovery (h : Steady names a P) :
    EndsWellIff P (setRegRecovery a.recovery)
      (∀ recovery, a.recovery = some recovery → ∃ json, recovery = .ok json) := by
  have hset (json : String) : Ensures P
      (modify fun s => { s with regRecovery := json } : PrivacyM PUnit) (fun _ => P)
      fun _ => False :=
    ensures_modify fun t ht => h.recovery t json ht
  cases hrecovery : a.recovery with
  | none =>
    exact (hset "").mono (fun _ ht => ht) (fun _ _ ht => ⟨ht, by simp⟩) fun _ ht => ht.elim
  | some recovery =>
    cases recovery with
    | ok json =>
      exact (hset json).mono (fun _ ht => ht) (fun _ _ ht => ⟨ht, by simp⟩) fun _ ht => ht.elim
    | error message =>
      exact ensures_throw fun t ht => ⟨ht, by simp⟩

/-- Switching the displays ends well, if and only if every call of it succeeds. -/
theorem Steady.switchDisplays (h : Steady names a P)
    (hvirtual : displaysOf names true (a.lastDevices names) ≠ []) :
    EndsWellIff P (switchDisplays a) (a.Completes names) := by
  refine (endsWellIff_answered a.readReg).bind fun _ _ => ?_
  refine (h.setPrimaryDisplay hvirtual).bind_endsWellIff fun _ name hname => ?_
  refine h.disablePhysicalDisplays.bind fun _ _ => ?_
  refine (h.commitChangeDisplay _).bind fun _ _ => ?_
  refine EndsWellIff.modify_bind (h.resolution · name hname) ?_
  exact (endsWellIff_answered a.readRegAfter).bind fun _ _ => h.setRegRecovery

end Switch

/-! ## Before the displays are switched -/

/-- The desktop after its displays were listed. -/
def Desktop.listed (s : Desktop) (names : DeviceNames) (devices : List DisplayDevice) : Desktop :=
  { s with pm := { s.pm with
    displays := displaysOf names false devices
    virtualDisplays := displaysOf names true devices } }

section Ensure

variable {names : DeviceNames} {connId : ℤ} {a : TurnOnAnswers} {r : Desktop}

/-- A monitor is plugged in, or the displays of the driver are as they were found. -/
theorem plugInPeerRequest_cases (a : TurnOnAnswers) (v : VirtualDisplays) :
    a.plugsIn = true ∧
        plugInPeerRequest a.driver a.plugIn v = ((a.plugIn.meet v).plugIn, .ok [0]) ∨
      a.plugsIn = false ∧
        ∃ message, plugInPeerRequest a.driver a.plugIn v = (a.plugIn.meet v, .error message) := by
  have hmonitors : (a.plugIn.meet v).monitors = a.plugIn.monitors := rfl
  rw [plugInPeerRequest, TurnOnAnswers.plugsIn, hmonitors]
  cases hdriver : a.driver with
  | false => exact .inr ⟨rfl, _, rfl⟩
  | true =>
    by_cases hmany : a.plugIn.monitors = VIRTUAL_DISPLAY_MAX_COUNT
    · exact .inr ⟨by simp [hmany], _, by simp [hmany]; rfl⟩
    · cases hok : a.plugIn.ok with
      | false => exact .inr ⟨by simp, _, by simp [hmany]; rfl⟩
      | true => exact .inl ⟨by simp [hmany], by simp [hmany]⟩

/-- What `ensure_virtual_display` does. -/
inductive Ensured (names : DeviceNames) (a : TurnOnAnswers) (r : Desktop) : Prop
  | already (hvirtual : displaysOf names true a.devices ≠ [])
      (hrun : ensureVirtualDisplay names a r = .ok ⟨⟩ r)
  | refused (hvirtual : displaysOf names true a.devices = []) (hplugs : a.plugsIn = false)
      (e : PrivacyError)
      (hrun : ensureVirtualDisplay names a r =
        .error e { r with monitors := a.plugIn.meet r.monitors })
  | pluggedOut (hvirtual : displaysOf names true a.devices = []) (hplugs : a.plugsIn = true)
      (hphysical : displaysOf names false a.devicesAfter = []) (e : PrivacyError)
      (hrun : ensureVirtualDisplay names a r =
        .error e { r.listed names a.devicesAfter with
          monitors := (plugOutMonitor false false a.plugOutAgain
            (a.plugIn.meet r.monitors).plugIn).1 })
  | pluggedIn (hvirtual : displaysOf names true a.devices = []) (hplugs : a.plugsIn = true)
      (hphysical : displaysOf names false a.devicesAfter ≠ [])
      (hrun : ensureVirtualDisplay names a r =
        .ok ⟨⟩ { r.listed names a.devicesAfter with
          pm := { (r.listed names a.devicesAfter).pm with
            virtualDisplaysAdded := r.pm.virtualDisplaysAdded ++ [0] }
          monitors := (a.plugIn.meet r.monitors).plugIn })

/-- A virtual display is ensured if the listing has one. -/
theorem ensured (names : DeviceNames) (a : TurnOnAnswers) (r : Desktop)
    (hr : r.pm.virtualDisplays = displaysOf names true a.devices) :
    Ensured names a r := by
  have hrun : ensureVirtualDisplay names a r = (if r.pm.virtualDisplays.isEmpty then _ else _ :
      PrivacyM PUnit) r := rfl
  rw [hr] at hrun
  by_cases hvirtual : displaysOf names true a.devices = []
  · rw [if_pos (List.isEmpty_iff.mpr hvirtual)] at hrun
    rcases plugInPeerRequest_cases a r.monitors with ⟨hplugs, hres⟩ | ⟨hplugs, message, hres⟩
    · rw [bind_of_ok (onMonitors_of_ok hres)] at hrun
      have hlisted : ensureVirtualDisplay names a r = (if (displaysOf names false
          a.devicesAfter).isEmpty then _ else _ : PrivacyM PUnit) { r.listed names a.devicesAfter
            with monitors := (a.plugIn.meet r.monitors).plugIn } := hrun
      by_cases hphysical : displaysOf names false a.devicesAfter = []
      · rw [if_pos (List.isEmpty_iff.mpr hphysical)] at hlisted
        rcases hout : plugOutMonitor false false a.plugOutAgain
          (a.plugIn.meet r.monitors).plugIn with ⟨v, message | _⟩
        · have hout' : plugOutMonitorIndices false false (fun _ => a.plugOutAgain) [0]
              { r.listed names a.devicesAfter with
                monitors := (a.plugIn.meet r.monitors).plugIn } =
              .error _ { r.listed names a.devicesAfter with monitors := v } :=
            bind_of_error (onMonitors_of_error hout)
          rw [bind_of_error hout'] at hlisted
          exact .pluggedOut hvirtual hplugs hphysical _ (by rw [hout]; exact hlisted)
        · have hout' : plugOutMonitorIndices false false (fun _ => a.plugOutAgain) [0]
              { r.listed names a.devicesAfter with
                monitors := (a.plugIn.meet r.monitors).plugIn } =
              .ok ⟨⟩ { r.listed names a.devicesAfter with monitors := v } :=
            bind_of_ok (onMonitors_of_ok hout)
          rw [bind_of_ok hout'] at hlisted
          exact .pluggedOut hvirtual hplugs hphysical _ (by rw [hout]; exact hlisted)
      · rw [if_neg fun hempty => hphysical (List.isEmpty_iff.mp hempty)] at hlisted
        exact .pluggedIn hvirtual hplugs hphysical hlisted
    · rw [bind_of_error (onMonitors_of_error hres)] at hrun
      exact .refused hvirtual hplugs _ hrun
  · rw [if_neg fun hempty => hvirtual (List.isEmpty_iff.mp hempty)] at hrun
    exact .already hvirtual hrun

end Ensure

end RdWeb.Host.WinVirtualDisplay
