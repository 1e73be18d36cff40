import RdWeb.Host.DisplaySwitch

/-!
# Turning on privacy mode and its guard

A failed `turn_on_privacy` is undone by a guard, through `turn_off_privacy`, which looks at the
result of `unhook` and at no other one. So whatever its calls do, nothing is left behind only where
there is nothing to undo; and everything is undone where they succeed.
-/

namespace RdWeb.Host.WinVirtualDisplay

open Rollback

/-- What a failed call leaves behind. -/
structure Undone (names : DeviceNames) (recorded : List Display) (s t : Desktop) : Prop where
  connId : t.pm.connId = INVALID_PRIVACY_MODE_CONN_ID
  displays : t.pm.displays = []
  added : t.pm.virtualDisplaysAdded = []
  /-- a physical display whose settings were changed has its recorded mode -/
  restored : ∀ name, names.IsPhysical name → t.settings name ≠ s.settings name →
    ∃ d ∈ recorded, d.name = name ∧ t.settings name = ⟨d.dm, none⟩
  /-- there are no more monitors of this process than before -/
  pluggedOut : t.monitors.outstanding ≤ s.monitors.outstanding

/-- A call that fails leaves nothing behind. -/
def AllOrNothing (names : DeviceNames) (s : Desktop) (connId : ℤ) (a : TurnOnAnswers) : Prop :=
  ∀ e t, turnOnPrivacy names connId a s = .error e t → Undone names (a.recorded names) s t

/-- Displays of both kinds are there, and every call of the attempt succeeds. -/
def TurnOnAnswers.Succeeds (names : DeviceNames) (a : TurnOnAnswers) : Prop :=
  a.recorded names ≠ [] ∧ displaysOf names true (a.lastDevices names) ≠ [] ∧ a.Completes names

/-- After a monitor was plugged in there is no physical display any more. -/
def TurnOnAnswers.Withdraws (names : DeviceNames) (a : TurnOnAnswers) : Prop :=
  displaysOf names true a.devices = [] ∧ a.plugsIn = true ∧
    displaysOf names false a.devicesAfter = []

/-- The calls that leave nothing behind, whatever the calls of the guard do. -/
inductive NeedsNoRollback (names : DeviceNames) (s : Desktop) (connId : ℤ) (a : TurnOnAnswers) :
    Prop
  | unsupported (hsupported : a.supported = false)
      (hfree : s.pm.connId = INVALID_PRIVACY_MODE_CONN_ID) (hdisplays : s.pm.displays = [])
      (hadded : s.pm.virtualDisplaysAdded = [])
  | alreadyOn (hsupported : a.supported = true) (hsame : s.pm.connId = connId)
  | noPhysical (hfree : s.pm.connId = INVALID_PRIVACY_MODE_CONN_ID)
      (hsupported : a.supported = true) (hphysical : displaysOf names false a.devices = [])
      (hadded : s.pm.virtualDisplaysAdded = [])
  | succeeds (hfree : s.pm.connId = INVALID_PRIVACY_MODE_CONN_ID)
      (hsupported : a.supported = true) (hphysical : displaysOf names false a.devices ≠ [])
      (hsucceeds : a.Succeeds names)
  /-- the monitor is plugged out again, and nothing is left for the guard -/
  | withdraws (hfree : s.pm.connId = INVALID_PRIVACY_MODE_CONN_ID)
      (hsupported : a.supported = true) (hphysical : displaysOf names false a.devices ≠ [])
      (hwithdraws : a.Withdraws names) (hadded : s.pm.virtualDisplaysAdded = [])
      (hstored : ∀ name, names.IsPhysical name → (s.settings name).stored = none)
      (hout : a.plugOutAgain.ok = true ∧ 2 ≤ a.plugOutAgain.monitors + a.plugOutAgain.others)

/-- Nobody else holds the mode, an attempt that ends before there is a guard finds nothing of an
earlier one, and the calls of the guard succeed. -/
structure CarefulCall (names : DeviceNames) (s : Desktop) (connId : ℤ) (a : TurnOnAnswers) :
    Prop where
  free : s.pm.connId = INVALID_PRIVACY_MODE_CONN_ID ∨ a.supported = true ∧ s.pm.connId = connId
  unsupported : a.supported = false → s.pm.displays = [] ∧ s.pm.virtualDisplaysAdded = []
  unguarded : displaysOf names false a.devices = [] → s.pm.virtualDisplaysAdded = []
  /-- no mode of a physical display waits for a commit -/
  nothingStored : ∀ name, names.IsPhysical name → (s.settings name).stored = none
  distinct : ((a.lastDevices names).map DisplayDevice.name).Nodup
  /-- the physical displays that `set_primary_display` finds were recorded -/
  listed : ∀ dev ∈ a.primary.devices, dev.active = true → names.IsPhysical dev.name →
    ∃ d ∈ a.recorded names, d.name = dev.name
  unhooked : a.rollback.unhook = .ok ()
  restored : ∀ d ∈ a.recorded names, a.rollback.restore d = DISP_CHANGE_SUCCESSFUL
  committed : a.rollback.commit = DISP_CHANGE_SUCCESSFUL
  /-- the counter covers the monitors that an earlier attempt left -/
  counted : s.pm.virtualDisplaysAdded.length ≤ s.monitors.count ∧
    s.pm.virtualDisplaysAdded.length < VIRTUAL_DISPLAY_MAX_COUNT
  pluggedOut : ∀ left ≤ s.pm.virtualDisplaysAdded.length,
    (a.rollback.plugOut left).ok = true ∧
      0 < (a.rollback.plugOut left).monitors + (a.rollback.plugOut left).others
  pluggedOutAgain : a.recorded names = [] →
    a.plugOutAgain.ok = true ∧ 2 ≤ a.plugOutAgain.monitors + a.plugOutAgain.others

/-! ## What an attempt leaves to the guard -/

/-- The monitors of an attempt: none is left, or the one that is left is among those that the
rollback plugs out. -/
def Accounted (s t : Desktop) : Prop :=
  t.monitors.outstanding ≤ s.monitors.outstanding ∨
    t.monitors.outstanding ≤ s.monitors.outstanding + 1 ∧
      t.pm.virtualDisplaysAdded.length = s.pm.virtualDisplaysAdded.length + 1 ∧
      t.pm.virtualDisplaysAdded.length ≤ t.monitors.count

/-- The state of the desktop at every point where an attempt can fail. -/
structure Attempted (names : DeviceNames) (a : TurnOnAnswers) (s t : Desktop) : Prop where
  connId : t.pm.connId = INVALID_PRIVACY_MODE_CONN_ID
  displays : t.pm.displays = a.recorded names
  virtualDisplays : t.pm.virtualDisplays = displaysOf names true (a.lastDevices names)
  changed : ∀ name, names.IsPhysical name → t.settings name ≠ s.settings name →
    ∃ d ∈ a.recorded names, d.name = name
  accounted : Accounted s t

section Attempt

variable {names : DeviceNames} {connId : ℤ} {a : TurnOnAnswers} {s t : Desktop}

/-- Settings of displays that are recorded, or not physical, may be changed. -/
theorem Attempted.withSettings (h : Attempted names a s t) {settings : String → Settings}
    (hchanged : ∀ name, names.IsPhysical name → settings name ≠ t.settings name →
      ∃ d ∈ a.recorded names, d.name = name) :
    Attempted names a s { t with settings := settings } := by
  refine ⟨h.connId, h.displays, h.virtualDisplays, fun name hphysical hne => ?_, h.accounted⟩
  by_cases hsame : settings name = t.settings name
  · exact h.changed name hphysical (hsame ▸ hne)
  · exact hchanged name hphysical hsame

/-- Settings may change for a recorded display. -/
theorem Attempted.update (h : Attempted names a s t) {name : String} {settings : Settings}
    (hname : names.IsPhysical name → ∃ d ∈ a.recorded names, d.name = name) :
    Attempted names a s { t with settings := Function.update t.settings name settings } := by
  refine h.withSettings fun other hphysical hne => ?_
  by_cases heq : other = name
  · exact heq ▸ hname (heq ▸ hphysical)
  · exact absurd (Function.update_of_ne heq _ _) hne

/-- A recorded display may be changed. -/
theorem Attempted.changeDisplaySettingsEx (h : Attempted names a s t) {name : String}
    (hname : names.IsPhysical name → ∃ d ∈ a.recorded names, d.name = name) (dm : Devmode)
    (rc : ℤ) : Attempted names a s (t.changeDisplaySettingsEx name dm rc) := by
  rw [Desktop.changeDisplaySettingsEx]
  split_ifs
  · exact h.update hname
  · exact h

/-- A commit changes no settings of a display for which nothing is stored. -/
theorem commit_settings {name : String} (h : (t.settings name).stored = none) :
    t.commit.settings name = t.settings name := by
  have hcommit : t.commit.settings name =
      ⟨(t.settings name).stored.getD (t.settings name).current, none⟩ := rfl
  rw [hcommit, h]
  exact congrArg (Settings.mk _) h.symm

/-- Nothing was stored before, so a commit changes what the attempt changed. -/
theorem Attempted.commit (h : Attempted names a s t)
    (hstored : ∀ name, names.IsPhysical name → (s.settings name).stored = none) :
    Attempted names a s t.commit := by
  refine h.withSettings fun name hphysical hne => ?_
  by_cases hsame : t.settings name = s.settings name
  · exact absurd (commit_settings (hsame ▸ hstored name hphysical)) hne
  · exact h.changed name hphysical hsame

/-- A virtual display may change its size. -/
theorem Attempted.changeResolution (h : Attempted names a s t) {name : String}
    (hvirtual : names.isVirtual name = true) (ok : Bool) :
    Attempted names a s (t.changeResolution name ok) := by
  rw [Desktop.changeResolution]
  split_ifs
  · refine h.update fun hphysical => ?_
    rw [hphysical.1] at hvirtual
    cases hvirtual
  · exact h

/-- Switching the displays keeps what the guard needs. -/
theorem CarefulCall.steady (hcareful : CarefulCall names s connId a) :
    Steady names a (Attempted names a s) where
  displays _ h := h.displays
  virtualDisplays _ h := h.virtualDisplays
  move _ dm dev hdev hactive h :=
    h.changeDisplaySettingsEx (hcareful.listed dev hdev hactive) dm _
  disable _ d hd h := h.changeDisplaySettingsEx (fun _ => ⟨d, hd, rfl⟩) _ _
  commit _ h := h.commit hcareful.nothingStored
  resolution _ _ hname h := h.changeResolution hname _
  recovery _ _ h := ⟨h.connId, h.displays, h.virtualDisplays, h.changed, h.accounted⟩

/-- The state in which the guard is set. -/
structure Guarded (names : DeviceNames) (a : TurnOnAnswers) (s t : Desktop) : Prop where
  connId : t.pm.connId = INVALID_PRIVACY_MODE_CONN_ID
  displays : t.pm.displays = displaysOf names false a.devices
  virtualDisplays : t.pm.virtualDisplays = displaysOf names true a.devices
  added : t.pm.virtualDisplaysAdded = s.pm.virtualDisplaysAdded
  settings : t.settings = s.settings
  monitors : t.monitors = s.monitors

/-- An attempt that did not plug in a monitor works with the displays of the first list. -/
theorem Guarded.attempted (h : Guarded names a s t)
    (hlast : a.lastDevices names = a.devices) : Attempted names a s t where
  connId := h.connId
  displays := by rw [h.displays, TurnOnAnswers.recorded, hlast]
  virtualDisplays := by rw [h.virtualDisplays, hlast]
  changed name _ hne := absurd (congrFun h.settings name) hne
  accounted := .inl (by rw [h.monitors])

/-- The counter covers the new monitor, too. -/
theorem CarefulCall.covered (hcareful : CarefulCall names s connId a) :
    s.pm.virtualDisplaysAdded.length + 1 ≤ ((a.plugIn.meet s.monitors).plugIn).count := by
  have hcounted := hcareful.counted
  have hcount : ((a.plugIn.meet s.monitors).plugIn).count =
      if s.monitors.count < VIRTUAL_DISPLAY_MAX_COUNT then s.monitors.count + 1
      else s.monitors.count := rfl
  rw [hcount]
  split_ifs <;> omega

/-- With a virtual display nothing is plugged in, so the devices stay. -/
theorem lastDevices_of_virtual (h : displaysOf names true a.devices ≠ []) :
    a.lastDevices names = a.devices := by
  rw [TurnOnAnswers.lastDevices, if_neg]
  intro hboth
  exact h (List.isEmpty_iff.mp (Bool.and_eq_true_iff.mp hboth).1)

/-- A refused plug leaves the devices too. -/
theorem lastDevices_of_refused (names : DeviceNames) (h : a.plugsIn = false) :
    a.lastDevices names = a.devices := by
  rw [TurnOnAnswers.lastDevices, h, Bool.and_false]
  rfl

/-- A plug that succeeds gives the devices after it. -/
theorem lastDevices_of_plugsIn (hvirtual : displaysOf names true a.devices = [])
    (hplugs : a.plugsIn = true) : a.lastDevices names = a.devicesAfter := by
  rw [TurnOnAnswers.lastDevices, hvirtual, hplugs]
  rfl

/-- The monitor that was plugged in is plugged out again, if and only if another display is left
and the command succeeds. -/
theorem outstanding_plugOutMonitor_iff {v : VirtualDisplays} {d : DriverAnswer} {n : ℕ}
    (hcount : 0 < v.count) (hout : v.outstanding = n + 1) :
    (plugOutMonitor false false d v).1.outstanding ≤ n ↔
      d.ok = true ∧ 2 ≤ d.monitors + d.others := by
  constructor
  · intro hle
    rw [plugOutMonitor] at hle
    split at hle
    · exact absurd (hout.symm.trans_le hle) (Nat.not_succ_le_self n)
    · split at hle
      · exact absurd (hout.symm.trans_le hle) (Nat.not_succ_le_self n)
      · rename_i toPlugOut hto
        dsimp only at hle
        split_ifs at hle with hcommand
        · obtain ⟨own, hown, hleft⟩ := VirtualDisplays.toPlugOutCount_eq hto
          have hall : (d.meet v).allCount = d.monitors + d.others := rfl
          rw [hall] at hown
          refine ⟨hcommand.2, ?_⟩
          rcases VirtualDisplays.ownCount_cases hown with ⟨rfl, -⟩ | ⟨hmany, -⟩ | ⟨hmany, -⟩
          · exact absurd hleft hcommand.1
          · exact hmany
          · exact hmany
        · exact absurd (hout.symm.trans_le hle) (Nat.not_succ_le_self n)
  · rintro ⟨hok, hany⟩
    rw [plugOutMonitor_of_ok hok hcount (by omega) fun _ => hany]
    have hone : ((d.meet v).plugOut).outstanding = v.outstanding - 1 := rfl
    dsimp only
    omega

/-- Before the displays are switched the guard finds what it needs. -/
theorem CarefulCall.ensures_ensureVirtualDisplay (hcareful : CarefulCall names s connId a) :
    Ensures (Guarded names a s) (ensureVirtualDisplay names a) (fun _ => Attempted names a s)
      (Attempted names a s) := by
  refine ensures_of_forall fun r hr => ?_
  have hplugged : ((a.plugIn.meet r.monitors).plugIn).outstanding =
      s.monitors.outstanding + 1 := by
    rw [hr.monitors]
    rfl
  have hcovered := hcareful.covered
  rw [← hr.monitors] at hcovered
  cases ensured names a r hr.virtualDisplays with
  | already hvirtual hrun =>
    exact ensures_of_ok hrun (hr.attempted (lastDevices_of_virtual hvirtual))
  | refused hvirtual hplugs e hrun =>
    have h := hr.attempted (lastDevices_of_refused names hplugs)
    exact ensures_of_error hrun ⟨h.connId, h.displays, h.virtualDisplays, h.changed, h.accounted⟩
  | pluggedOut hvirtual hplugs hphysical e hrun =>
    have hlast := lastDevices_of_plugsIn hvirtual hplugs
    have hnone : a.recorded names = [] := by rw [TurnOnAnswers.recorded, hlast, hphysical]
    refine ensures_of_error hrun ⟨hr.connId, ?_, ?_,
      fun name _ hne => absurd (congrFun hr.settings name) hne, .inl ?_⟩
    · rw [TurnOnAnswers.recorded, hlast]
      rfl
    · rw [hlast]
      rfl
    · exact (outstanding_plugOutMonitor_iff (by omega) hplugged).mpr
        (hcareful.pluggedOutAgain hnone)
  | pluggedIn hvirtual hplugs hphysical hrun =>
    have hlast := lastDevices_of_plugsIn hvirtual hplugs
    refine ensures_of_ok hrun ⟨hr.connId, ?_, ?_,
      fun name _ hne => absurd (congrFun hr.settings name) hne, .inr ⟨hplugged.le, ?_, ?_⟩⟩
    · rw [TurnOnAnswers.recorded, hlast]
      rfl
    · rw [hlast]
      rfl
    · dsimp only
      rw [hr.added, List.length_append, List.length_singleton]
    · dsimp only
      rw [hr.added, List.length_append, List.length_singleton]
      exact hcovered

/-- Wherever the attempt fails, the guard finds what it needs. -/
theorem CarefulCall.ensures_turnOnGuarded (hcareful : CarefulCall names s connId a) :
    Ensures (Guarded names a s) (turnOnGuarded names connId a) (fun _ _ => True)
      (Attempted names a s) := by
  refine hcareful.ensures_ensureVirtualDisplay.bind fun _ => ensures_get_bind fun r hr => ?_
  refine Ensures.mono (P := Attempted names a s) ?_ (fun t ht => ht ▸ hr) (fun _ _ h => h)
    fun _ h => h
  refine ensures_ite (fun _ => ensures_throw fun _ ht => ht) fun hempty => ?_
  have hvirtual : displaysOf names true (a.lastDevices names) ≠ [] := by
    rw [← hr.virtualDisplays]
    exact fun hnone => hempty (List.isEmpty_iff.mpr hnone)
  have hlast : Ensures (Attempted names a s)
      (modify fun s => { s with pm := { s.pm with connId := connId } } : PrivacyM PUnit)
      (fun _ _ => True) (Attempted names a s) :=
    ensures_modify fun _ _ => trivial
  refine (hcareful.steady.switchDisplays hvirtual).keeps.bind fun _ => ?_
  exact hlast.bind fun _ => ensures_pure fun _ _ => trivial

end Attempt

/-! ## What the guard does -/

section Guard

variable {names : DeviceNames} {connId : ℤ} {a : TurnOnAnswers} {s t : Desktop}
  {r : TurnOffAnswers}

/-- Turning off, as one sequence of steps. -/
theorem turnOffPrivacy_eq (t : Desktop) :
    turnOffPrivacy INVALID_PRIVACY_MODE_CONN_ID r t = (do
      answered r.unhook
      modify fun s => (s.restore r).restoreRegConnectivity
      modify fun s => { s with pm := { s.pm with connId := INVALID_PRIVACY_MODE_CONN_ID } } :
        PrivacyM PUnit) t := by
  have hcheck : t.pm.checkOffConnId INVALID_PRIVACY_MODE_CONN_ID = .ok () :=
    if_neg fun hother => hother.2.1 rfl
  have hrun : turnOffPrivacy INVALID_PRIVACY_MODE_CONN_ID r t = _ :=
    bind_of_ok (f := fun s : Desktop => _) (rfl : (get : PrivacyM Desktop) t = .ok t t)
  rw [hrun, hcheck]

/-- A failed `unhook` leaves everything as it is. -/
theorem ended_turnOffPrivacy_of_error {message : String} (hunhook : r.unhook = .error message)
    (t : Desktop) : ended (turnOffPrivacy INVALID_PRIVACY_MODE_CONN_ID r) t = t := by
  rw [ended, turnOffPrivacy_eq, hunhook]
  rfl

/-- The desktop after turning off, if the hook can be taken back. -/
theorem ended_turnOffPrivacy_of_ok {u : Unit} (hunhook : r.unhook = .ok u) (t : Desktop) :
    ended (turnOffPrivacy INVALID_PRIVACY_MODE_CONN_ID r) t =
      { (t.restore r).restoreRegConnectivity with pm := { (t.restore r).pm with
        connId := INVALID_PRIVACY_MODE_CONN_ID } } := by
  rw [ended, turnOffPrivacy_eq, hunhook]
  rfl

/-- The settings when the displays are restored, and the commit was tried. -/
def restoredSettings (r : TurnOffAnswers) (t : Desktop) : String → Settings :=
  (ended (commitChangeDisplay r.commit) ((t.restoreDisplays r.restore
    t.pm.displays).restoreDisplays r.restore t.pm.virtualDisplays)).settings

/-- The desktop after committing. -/
theorem ended_commitChangeDisplay (rc : ℤ) (u : Desktop) :
    ended (commitChangeDisplay rc) u = if rc = DISP_CHANGE_SUCCESSFUL then u.commit else u := by
  have hrun : commitChangeDisplay rc u =
      (if rc = DISP_CHANGE_SUCCESSFUL then pure ⟨⟩ else
        throw (.system ("Failed ChangeDisplaySettingsEx, " ++ changeDisplaySettingsExErrMsg rc)) :
        PrivacyM PUnit) (if rc = DISP_CHANGE_SUCCESSFUL then u.commit else u) := rfl
  rw [ended, hrun]
  split_ifs <;> rfl

/-- The desktop when the guard plugs out the monitors that were added. -/
theorem restore_eq (r : TurnOffAnswers) (t : Desktop) :
    t.restore r =
      let u := ({ t with settings := restoredSettings r t }).restorePlugOutMonitor r.plugOut
      { u with pm := { u.pm with displays := [], virtualDisplays := [] } } := by
  obtain ⟨physical, hphysical⟩ := restoreDisplays_eq t r.restore t.pm.displays
  obtain ⟨virtual, hvirtual⟩ := restoreDisplays_eq { t with settings := physical } r.restore
    t.pm.virtualDisplays
  have hu : ended (commitChangeDisplay r.commit) ((t.restoreDisplays r.restore
      t.pm.displays).restoreDisplays r.restore t.pm.virtualDisplays) =
      { t with settings := restoredSettings r t } := by
    rw [restoredSettings, hphysical, hvirtual, ended_commitChangeDisplay]
    split_ifs <;> rfl
  have hpm : (t.restoreDisplays r.restore t.pm.displays).pm = t.pm := by rw [hphysical]
  rw [Desktop.restore]
  dsimp only
  rw [hpm, hu]

/-- A display that is not restored changes only by the commit. -/
theorem restoredSettings_of_notMem {name : String}
    (hphysical : name ∉ t.pm.displays.map Display.name)
    (hvirtual : name ∉ t.pm.virtualDisplays.map Display.name) :
    restoredSettings r t name =
      if r.commit = DISP_CHANGE_SUCCESSFUL then t.commit.settings name else t.settings name := by
  have hsame : ((t.restoreDisplays r.restore t.pm.displays).restoreDisplays r.restore
      t.pm.virtualDisplays).settings name = t.settings name := by
    rw [restoreDisplays_settings_of_notMem hvirtual, restoreDisplays_settings_of_notMem hphysical]
  rw [restoredSettings, ended_commitChangeDisplay]
  split_ifs
  · rw [Desktop.commit, Desktop.commit]
    dsimp only
    rw [hsame]
  · exact hsame

/-- With nothing stored for it, it does not change at all. -/
theorem restoredSettings_of_stored {name : String}
    (hphysical : name ∉ t.pm.displays.map Display.name)
    (hvirtual : name ∉ t.pm.virtualDisplays.map Display.name)
    (hstored : (t.settings name).stored = none) :
    restoredSettings r t name = t.settings name := by
  rw [restoredSettings_of_notMem hphysical hvirtual, commit_settings hstored, ite_self]

/-- A recorded display has its mode again where the calls succeed. -/
theorem restoredSettings_of_mem {d : Display} (hd : d ∈ t.pm.displays)
    (hdistinct : (t.pm.displays.map Display.name).Nodup)
    (hvirtual : d.name ∉ t.pm.virtualDisplays.map Display.name)
    (hrestore : r.restore d = DISP_CHANGE_SUCCESSFUL)
    (hcommit : r.commit = DISP_CHANGE_SUCCESSFUL) :
    restoredSettings r t d.name = ⟨d.dm, none⟩ := by
  have hsettings : restoredSettings r t d.name =
      ⟨(((t.restoreDisplays r.restore t.pm.displays).restoreDisplays r.restore
          t.pm.virtualDisplays).settings d.name).stored.getD
        (((t.restoreDisplays r.restore t.pm.displays).restoreDisplays r.restore
          t.pm.virtualDisplays).settings d.name).current, none⟩ := by
    rw [restoredSettings, ended_commitChangeDisplay, if_pos hcommit]
    rfl
  rw [hsettings, restoreDisplays_settings_of_notMem hvirtual,
    restoreDisplays_settings_of_mem hd hdistinct hrestore]
  rfl

/-- A physical display is no virtual one. -/
theorem notMem_virtualDisplays {name : String} {devices : List DisplayDevice}
    (hphysical : names.IsPhysical name) :
    name ∉ (displaysOf names true devices).map Display.name := by
  intro hmem
  obtain ⟨d, hd, rfl⟩ := List.mem_map.mp hmem
  have hvirtual := isVirtual_of_mem hd
  rw [hphysical.1] at hvirtual
  cases hvirtual

/-- A physical display that was changed has its recorded mode again. -/
theorem Attempted.restoredSettings (h : Attempted names a s t)
    (hcareful : CarefulCall names s connId a) {name : String} (hphysical : names.IsPhysical name)
    (hchanged : restoredSettings a.rollback t name ≠ s.settings name) :
    ∃ d ∈ a.recorded names, d.name = name ∧
      WinVirtualDisplay.restoredSettings a.rollback t name = ⟨d.dm, none⟩ := by
  have hvirtual : name ∉ t.pm.virtualDisplays.map Display.name := by
    rw [h.virtualDisplays]
    exact notMem_virtualDisplays hphysical
  by_cases hmem : name ∈ (a.recorded names).map Display.name
  · obtain ⟨d, hd, rfl⟩ := List.mem_map.mp hmem
    refine ⟨d, hd, rfl, ?_⟩
    refine restoredSettings_of_mem (h.displays ▸ hd) ?_ hvirtual (hcareful.restored d hd)
      hcareful.committed
    rw [h.displays]
    exact nodup_displaysOf hcareful.distinct
  · have hsame : t.settings name = s.settings name := by
      by_contra hne
      obtain ⟨d, hd, rfl⟩ := h.changed name hphysical hne
      exact hmem (List.mem_map_of_mem hd)
    refine absurd ?_ hchanged
    rw [restoredSettings_of_stored (h.displays ▸ hmem) hvirtual
      (by rw [hsame, hcareful.nothingStored name hphysical]), hsame]

/-- Plugging out leaves no more displays outstanding. -/
theorem outstanding_restorePlugOutMonitor_le (answer : ℕ → DriverAnswer) (t : Desktop) :
    (t.restorePlugOutMonitor answer).monitors.outstanding ≤ t.monitors.outstanding := by
  have hkeeps := keeps_plugOutMonitorIndices true false answer t
    t.monitors.outstanding t.pm.virtualDisplaysAdded
  exact (hkeeps.ended (s := t) ⟨rfl, rfl, le_rfl⟩).2.2

/-- Plugging out the monitors that were added leaves no more of them than before. -/
theorem CarefulCall.outstanding_restorePlugOutMonitor (hcareful : CarefulCall names s connId a)
    (h : Accounted s t) :
    (t.restorePlugOutMonitor a.rollback.plugOut).monitors.outstanding ≤
      s.monitors.outstanding := by
  rcases h with hle | ⟨hle, hadded, hcount⟩
  · exact (outstanding_restorePlugOutMonitor_le _ _).trans hle
  · obtain ⟨v, hv, hrun⟩ := plugOutMonitorIndices_of_ok true a.rollback.plugOut hcount
      fun left hleft => by
        obtain ⟨hok, hany⟩ := hcareful.pluggedOut left (by omega)
        exact ⟨hok, hany, by simp⟩
    have hended : ended (plugOutMonitorIndices true false a.rollback.plugOut
        t.pm.virtualDisplaysAdded) t = { t with monitors := v } := by
      rw [ended, hrun]
    rw [Desktop.restorePlugOutMonitor, hended]
    dsimp only
    omega

/-- The plug-outs leave the settings alone. -/
theorem settings_restorePlugOutMonitor (answer : ℕ → DriverAnswer) (t : Desktop) :
    (t.restorePlugOutMonitor answer).settings = t.settings := by
  have hkeeps := keeps_plugOutMonitorIndices true false answer t
    t.monitors.outstanding t.pm.virtualDisplaysAdded
  exact (hkeeps.ended (s := t) ⟨rfl, rfl, le_rfl⟩).2.1

/-- The guard undoes the attempt. -/
theorem Attempted.undone (h : Attempted names a s t) (hcareful : CarefulCall names s connId a) :
    Undone names (a.recorded names) s
      (ended (turnOffPrivacy INVALID_PRIVACY_MODE_CONN_ID a.rollback) t) := by
  rw [ended_turnOffPrivacy_of_ok hcareful.unhooked, restore_eq]
  refine ⟨rfl, rfl, rfl, fun name hphysical hchanged => ?_, ?_⟩
  · dsimp only [Desktop.restoreRegConnectivity] at hchanged ⊢
    rw [settings_restorePlugOutMonitor] at hchanged ⊢
    exact h.restoredSettings hcareful hphysical hchanged
  · exact hcareful.outstanding_restorePlugOutMonitor (t := { t with settings := _ }) h.accounted

end Guard

/-! ## Careful calls -/

section Calls

variable {names : DeviceNames} {connId : ℤ} {a : TurnOnAnswers} {s t : Desktop}

/-- Before the guard is set the displays are listed and nothing else is done. -/
theorem guarded_listed (hfree : s.pm.connId = INVALID_PRIVACY_MODE_CONN_ID) :
    Guarded names a s (s.listed names a.devices) :=
  ⟨hfree, rfl, rfl, rfl, rfl, rfl⟩

/-- Where nothing was done, nothing has to be undone. -/
theorem Guarded.undone (h : Guarded names a s t) (hdisplays : t.pm.displays = [])
    (hadded : s.pm.virtualDisplaysAdded = []) : Undone names (a.recorded names) s t :=
  ⟨h.connId, hdisplays, h.added.trans hadded,
    fun name _ hne => absurd (congrFun h.settings name) hne, by rw [h.monitors]⟩

/-- The ways through `turn_on_privacy` up to the guard. -/
inductive Entered (names : DeviceNames) (connId : ℤ) (a : TurnOnAnswers) (s : Desktop) : Prop
  | unsupported (hsupported : a.supported = false)
      (hrun : turnOnPrivacy names connId a s =
        .error (.system "idd_not_support_under_win10_2004_tip") s)
  | alreadyOn (hsupported : a.supported = true) (hsame : s.pm.connId = connId)
      (hrun : turnOnPrivacy names connId a s = .ok true s)
  | occupied (hsupported : a.supported = true) (hother : s.pm.connId ≠ connId)
      (hheld : s.pm.connId ≠ INVALID_PRIVACY_MODE_CONN_ID)
      (hrun : turnOnPrivacy names connId a s = .error .occupied s)
  | noPhysical (hsupported : a.supported = true) (hother : s.pm.connId ≠ connId)
      (hfree : s.pm.connId = INVALID_PRIVACY_MODE_CONN_ID)
      (hphysical : displaysOf names false a.devices = [])
      (hrun : turnOnPrivacy names connId a s =
        .error (.system NO_PHYSICAL_DISPLAYS) (s.listed names a.devices))
  | attempts (hsupported : a.supported = true) (hother : s.pm.connId ≠ connId)
      (hfree : s.pm.connId = INVALID_PRIVACY_MODE_CONN_ID)
      (hphysical : displaysOf names false a.devices ≠ [])
      (hrun : turnOnPrivacy names connId a s =
        guarded (turnOnGuarded names connId a)
          (ended (turnOffPrivacy INVALID_PRIVACY_MODE_CONN_ID a.rollback))
          (s.listed names a.devices))

/-- Entering the mode records the displays. -/
theorem entered (names : DeviceNames) (connId : ℤ) (a : TurnOnAnswers) (s : Desktop) :
    Entered names connId a s := by
  have hrun : turnOnPrivacy names connId a s = (if !a.supported then _ else _ :
      PrivacyM Bool) s := rfl
  cases hsupported : a.supported with
  | false =>
    rw [hsupported] at hrun
    exact .unsupported hsupported hrun
  | true =>
    rw [hsupported, if_neg (by decide)] at hrun
    have hchecked : turnOnPrivacy names connId a s = _ :=
      hrun.trans (bind_of_ok (f := fun s : Desktop => _)
        (rfl : (get : PrivacyM Desktop) s = .ok s s))
    by_cases hsame : s.pm.connId = connId
    · have hcheck : s.pm.checkOnConnId connId = .ok true := if_pos hsame
      rw [hcheck] at hchecked
      exact .alreadyOn hsupported hsame hchecked
    · by_cases hfree : s.pm.connId = INVALID_PRIVACY_MODE_CONN_ID
      · have hcheck : s.pm.checkOnConnId connId = .ok false := by
          rw [PrivacyModeImpl.checkOnConnId, if_neg hsame, if_neg (not_not.mpr hfree)]
        rw [hcheck] at hchecked
        have hlisted : turnOnPrivacy names connId a s =
            (if (displaysOf names false a.devices).isEmpty then _ else _ : PrivacyM Bool)
              (s.listed names a.devices) := hchecked
        by_cases hphysical : displaysOf names false a.devices = []
        · rw [if_pos (List.isEmpty_iff.mpr hphysical)] at hlisted
          exact .noPhysical hsupported hsame hfree hphysical hlisted
        · rw [if_neg fun hempty => hphysical (List.isEmpty_iff.mp hempty)] at hlisted
          exact .attempts hsupported hsame hfree hphysical hlisted
      · have hcheck : s.pm.checkOnConnId connId = .error .occupied := by
          rw [PrivacyModeImpl.checkOnConnId, if_neg hsame, if_pos hfree]
        rw [hcheck] at hchecked
        exact .occupied hsupported hsame hfree hchecked

/-- A careful call that fails leaves nothing behind. -/
theorem CarefulCall.allOrNothing (hcareful : CarefulCall names s connId a) :
    AllOrNothing names s connId a := by
  intro e t hfailed
  cases entered names connId a s with
  | unsupported hsupported hrun =>
    cases hrun.symm.trans hfailed
    obtain ⟨hdisplays, hadded⟩ := hcareful.unsupported hsupported
    refine ⟨hcareful.free.resolve_right fun h => ?_, hdisplays, hadded,
      fun name _ hne => absurd rfl hne, le_rfl⟩
    rw [hsupported] at h
    cases h.1
  | alreadyOn _ _ hrun => cases hrun.symm.trans hfailed
  | occupied _ hother hheld _ =>
    exact absurd hcareful.free (not_or.mpr ⟨hheld, fun h => hother h.2⟩)
  | noPhysical _ _ hfree hphysical hrun =>
    cases hrun.symm.trans hfailed
    exact (guarded_listed hfree).undone hphysical (hcareful.unguarded hphysical)
  | attempts _ _ hfree _ hrun =>
    have hundone := hcareful.ensures_turnOnGuarded.guarded fun u hu => hu.undone hcareful
    exact hundone.2 _ e t (guarded_listed hfree) (hrun.symm.trans hfailed)

end Calls

/-! ## Calls that need no rollback -/

section Attempts

variable {names : DeviceNames} {connId : ℤ} {a : TurnOnAnswers} {s t : Desktop}

/-- Switching the displays leaves the implementation alone. -/
theorem steady_pm {pm : VirtualPrivacyModeImpl} (hdisplays : pm.displays = a.recorded names)
    (hvirtual : pm.virtualDisplays = displaysOf names true (a.lastDevices names)) :
    Steady names a fun t => t.pm = pm where
  displays _ h := h ▸ hdisplays
  virtualDisplays _ h := h ▸ hvirtual
  move t dm dev _ _ h := (changeDisplaySettingsEx_pm _ _ _ _).trans h
  disable t d _ h := (changeDisplaySettingsEx_pm _ _ _ _).trans h
  commit _ h := h
  resolution t name _ h := by
    rw [Desktop.changeResolution]
    split_ifs <;> exact h
  recovery _ _ h := h

/-- How an attempt ends. -/
inductive AttemptEnds (names : DeviceNames) (connId : ℤ) (a : TurnOnAnswers) (s : Desktop) : Prop
  | succeeds (hsucceeds : a.Succeeds names) (t : Desktop)
      (hpm : t.pm.toPrivacyModeImpl = { s.pm.toPrivacyModeImpl with connId := connId })
      (hrun : turnOnGuarded names connId a s = .ok true t)
  | fails (hfails : ¬ a.Succeeds names) (hnot : ¬ a.Withdraws names) (e : PrivacyError)
      (t : Desktop) (hpm : t.pm.toPrivacyModeImpl = s.pm.toPrivacyModeImpl)
      (hdisplays : t.pm.displays ≠ []) (hrun : turnOnGuarded names connId a s = .error e t)
  | withdraws (hfails : ¬ a.Succeeds names) (hwithdraws : a.Withdraws names) (e : PrivacyError)
      (hrun : turnOnGuarded names connId a s =
        .error e { s.listed names a.devicesAfter with
          monitors := (plugOutMonitor false false a.plugOutAgain
            (a.plugIn.meet s.monitors).plugIn).1 })

/-- An attempt that has its displays. -/
theorem attemptEnds_of_ok (hrun : ensureVirtualDisplay names a s = .ok ⟨⟩ t)
    (hnot : ¬ a.Withdraws names) (hrecorded : a.recorded names ≠ [])
    (hpm : t.pm.toPrivacyModeImpl = s.pm.toPrivacyModeImpl)
    (hdisplays : t.pm.displays = a.recorded names)
    (hvirtual : t.pm.virtualDisplays = displaysOf names true (a.lastDevices names)) :
    AttemptEnds names connId a s := by
  have hguarded : turnOnGuarded names connId a s =
      (if t.pm.virtualDisplays.isEmpty then throw (.system "No virtual displays.")
        else do
          switchDisplays a
          modify fun s => { s with pm := { s.pm with connId := connId } }
          pure true : PrivacyM Bool) t := bind_of_ok hrun
  rw [hvirtual] at hguarded
  by_cases hnone : displaysOf names true (a.lastDevices names) = []
  · rw [if_pos (List.isEmpty_iff.mpr hnone)] at hguarded
    exact .fails (fun h => h.2.1 hnone) hnot _ t hpm (hdisplays ▸ hrecorded) hguarded
  · rw [if_neg fun hempty => hnone (List.isEmpty_iff.mp hempty)] at hguarded
    have hends := (steady_pm hdisplays hvirtual).switchDisplays hnone
    cases hswitch : switchDisplays a t with
    | ok u v =>
      rw [bind_of_ok hswitch] at hguarded
      obtain ⟨hkept, hcompletes⟩ := hends.1 t u v rfl hswitch
      refine .succeeds ⟨hrecorded, hnone, hcompletes⟩ _ ?_ hguarded
      dsimp only
      rw [hkept, hpm]
    | error e v =>
      rw [bind_of_error hswitch] at hguarded
      obtain ⟨hkept, hfails⟩ := hends.2 t e v rfl hswitch
      refine .fails (fun h => hfails h.2.2) hnot e v ?_ ?_ hguarded
      · rw [hkept, hpm]
      · rw [hkept, hdisplays]
        exact hrecorded

/-- An attempt ends in one of its ways. -/
theorem attemptEnds (connId : ℤ) (s : Desktop)
    (hphysical : displaysOf names false a.devices ≠ []) :
    AttemptEnds names connId a (s.listed names a.devices) := by
  cases ensured names a (s.listed names a.devices) rfl with
  | already hvirtual hrun =>
    have hlast := lastDevices_of_virtual hvirtual
    have hrecorded : a.recorded names = displaysOf names false a.devices := by
      rw [TurnOnAnswers.recorded, hlast]
    exact attemptEnds_of_ok hrun (fun h => hvirtual h.1) (hrecorded ▸ hphysical) rfl
      hrecorded.symm (by rw [hlast]; rfl)
  | refused hvirtual hplugs e hrun =>
    have hlast := lastDevices_of_refused names hplugs
    refine .fails (fun h => h.2.1 (by rw [hlast, hvirtual])) (fun h => ?_) e _ ?_ ?_
      (bind_of_error hrun)
    · rw [h.2.1] at hplugs
      cases hplugs
    · rfl
    · exact hphysical
  | pluggedOut hvirtual hplugs hnone e hrun =>
    have hlast := lastDevices_of_plugsIn hvirtual hplugs
    refine .withdraws (fun h => h.1 ?_) ⟨hvirtual, hplugs, hnone⟩ e (bind_of_error hrun)
    rw [TurnOnAnswers.recorded, hlast, hnone]
  | pluggedIn hvirtual hplugs hsome hrun =>
    have hlast := lastDevices_of_plugsIn hvirtual hplugs
    have hrecorded : a.recorded names = displaysOf names false a.devicesAfter := by
      rw [TurnOnAnswers.recorded, hlast]
    exact attemptEnds_of_ok hrun (fun h => hsome h.2.2) (hrecorded ▸ hsome) rfl
      hrecorded.symm (by rw [hlast]; rfl)

/-- The state in which an attempt ends that withdraws its monitor. -/
def Desktop.withdrawn (s : Desktop) (names : DeviceNames) (a : TurnOnAnswers) : Desktop :=
  { s.listed names a.devicesAfter with
    monitors := (plugOutMonitor false false a.plugOutAgain (a.plugIn.meet s.monitors).plugIn).1 }

/-- Withdrawing leaves no more displays outstanding exactly when the second plug out succeeds and
takes two. -/
theorem withdrawn_outstanding_iff :
    (s.withdrawn names a).monitors.outstanding ≤ s.monitors.outstanding ↔
      a.plugOutAgain.ok = true ∧ 2 ≤ a.plugOutAgain.monitors + a.plugOutAgain.others := by
  have hcount : 0 < ((a.plugIn.meet s.monitors).plugIn).count := by
    have hplugged : ((a.plugIn.meet s.monitors).plugIn).count =
        if s.monitors.count < VIRTUAL_DISPLAY_MAX_COUNT then s.monitors.count + 1
        else s.monitors.count := rfl
    rw [hplugged]
    split_ifs with hlt
    · exact Nat.succ_pos _
    · exact Nat.lt_of_lt_of_le (by decide) (not_lt.mp hlt)
  exact outstanding_plugOutMonitor_iff hcount rfl

/-- A guard whose calls succeed, with what `unhook` says. -/
def unhooked (unhook : Except String Unit) (d : DriverAnswer) : TurnOffAnswers :=
  ⟨unhook, fun _ => DISP_CHANGE_SUCCESSFUL, DISP_CHANGE_SUCCESSFUL, fun _ => d⟩

/-- After an attempt that withdraws its monitor nothing is left to undo, whatever the calls of
the guard do, if the monitor is out, and nothing is left of an earlier attempt. -/
theorem undone_withdrawn_iff (hwithdraws : a.Withdraws names)
    (hfree : s.pm.connId = INVALID_PRIVACY_MODE_CONN_ID) :
    (∀ r, Undone names (a.recorded names) s
      (ended (turnOffPrivacy INVALID_PRIVACY_MODE_CONN_ID r) (s.withdrawn names a))) ↔
      s.pm.virtualDisplaysAdded = [] ∧
        (∀ name, names.IsPhysical name → (s.settings name).stored = none) ∧
        a.plugOutAgain.ok = true ∧ 2 ≤ a.plugOutAgain.monitors + a.plugOutAgain.others := by
  obtain ⟨hvirtual, hplugs, hnone⟩ := hwithdraws
  have hrecorded : a.recorded names = [] := by
    rw [TurnOnAnswers.recorded, lastDevices_of_plugsIn hvirtual hplugs, hnone]
  have hphysical (name : String) :
      name ∉ (s.withdrawn names a).pm.displays.map Display.name := by
    have hdisplays : (s.withdrawn names a).pm.displays = [] := hnone
    rw [hdisplays]
    exact List.not_mem_nil
  constructor
  · intro h
    have hunhook := h (unhooked (.error "") a.plugOutAgain)
    rw [ended_turnOffPrivacy_of_error rfl] at hunhook
    refine ⟨hunhook.added, fun name hname => ?_, withdrawn_outstanding_iff.mp hunhook.pluggedOut⟩
    have hcommitted : (unhooked (.ok ()) a.plugOutAgain).commit = DISP_CHANGE_SUCCESSFUL := rfl
    have hcommit := (h (unhooked (.ok ()) a.plugOutAgain)).restored name hname
    rw [ended_turnOffPrivacy_of_ok rfl, restore_eq] at hcommit
    dsimp only [Desktop.restoreRegConnectivity] at hcommit
    rw [settings_restorePlugOutMonitor, hrecorded] at hcommit
    dsimp only at hcommit
    rw [restoredSettings_of_notMem (hphysical name) (notMem_virtualDisplays hname),
      if_pos hcommitted] at hcommit
    by_contra hstored
    obtain ⟨d, hd, -⟩ := hcommit fun hsame => hstored (congrArg Settings.stored hsame).symm
    cases hd
  · rintro ⟨hadded, hstored, hout⟩ r
    have hle : (s.withdrawn names a).monitors.outstanding ≤ s.monitors.outstanding :=
      withdrawn_outstanding_iff.mpr hout
    cases hunhook : r.unhook with
    | error message =>
      rw [ended_turnOffPrivacy_of_error hunhook]
      exact ⟨hfree, hnone, hadded, fun name _ hne => absurd rfl hne, hle⟩
    | ok u =>
      rw [ended_turnOffPrivacy_of_ok hunhook, restore_eq]
      refine ⟨rfl, rfl, rfl, fun name hname hne => ?_, ?_⟩
      · dsimp only [Desktop.restoreRegConnectivity] at hne
        rw [settings_restorePlugOutMonitor] at hne
        refine absurd ?_ hne
        exact restoredSettings_of_stored (hphysical name) (notMem_virtualDisplays hname)
          (hstored name hname)
      · exact (outstanding_restorePlugOutMonitor_le _ _).trans hle

/-- A failed attempt is handed to the guard. -/
theorem turnOnPrivacy_of_error (hsupported : a.supported = true) (hother : s.pm.connId ≠ connId)
    (hfree : s.pm.connId = INVALID_PRIVACY_MODE_CONN_ID)
    (hphysical : displaysOf names false a.devices ≠ []) {e : PrivacyError}
    (hrun : turnOnGuarded names connId a (s.listed names a.devices) = .error e t)
    (r : TurnOffAnswers) :
    turnOnPrivacy names connId { a with rollback := r } s =
      .error e (ended (turnOffPrivacy INVALID_PRIVACY_MODE_CONN_ID r) t) := by
  cases entered names connId { a with rollback := r } s with
  | unsupported hnot _ =>
    rw [hsupported] at hnot
    cases hnot
  | alreadyOn _ hsame _ => exact absurd hsame hother
  | occupied _ _ hheld _ => exact absurd hfree hheld
  | noPhysical _ _ _ hnone _ => exact absurd hnone hphysical
  | attempts _ _ _ _ hattempt => exact hattempt.trans (guarded_of_error hrun)

/-- A call that does not succeed leaves something behind, or leaves nothing to the guard. -/
theorem needsNoRollback_of_any
    (h : ∀ r, AllOrNothing names s connId { a with rollback := r }) :
    NeedsNoRollback names s connId a := by
  have hunhook := h (unhooked (.error "") a.plugOutAgain)
  cases entered names connId { a with rollback := unhooked (.error "") a.plugOutAgain } s with
  | unsupported hsupported hrun =>
    have hundone := hunhook _ _ hrun
    exact .unsupported hsupported hundone.connId hundone.displays hundone.added
  | alreadyOn hsupported hsame _ => exact .alreadyOn hsupported hsame
  | occupied _ _ hheld hrun => exact absurd (hunhook _ _ hrun).connId hheld
  | noPhysical hsupported _ hfree hphysical hrun =>
    exact .noPhysical hfree hsupported hphysical (hunhook _ _ hrun).added
  | attempts hsupported hother hfree hphysical _ =>
    cases attemptEnds connId s hphysical with
    | succeeds hsucceeds _ _ _ => exact .succeeds hfree hsupported hphysical hsucceeds
    | fails _ _ e t _ hdisplays hrun =>
      have hundone := hunhook _ _
        (turnOnPrivacy_of_error hsupported hother hfree hphysical hrun _)
      rw [ended_turnOffPrivacy_of_error rfl] at hundone
      exact absurd hundone.displays hdisplays
    | withdraws _ hwithdraws e hrun =>
      have hundone := (undone_withdrawn_iff hwithdraws hfree).mp fun r =>
        h r _ _ (turnOnPrivacy_of_error hsupported hother hfree hphysical hrun r)
      exact .withdraws hfree hsupported hphysical hwithdraws hundone.1 hundone.2.1 hundone.2.2

/-- What needs no rollback is all or nothing. -/
theorem NeedsNoRollback.allOrNothing (h : NeedsNoRollback names s connId a)
    (r : TurnOffAnswers) : AllOrNothing names s connId { a with rollback := r } := by
  intro e t hfailed
  have hunsupported (hyes : a.supported = true) (hno : a.supported = false) : False := by
    rw [hyes] at hno
    cases hno
  cases entered names connId { a with rollback := r } s with
  | unsupported hsupported hrun =>
    cases hrun.symm.trans hfailed
    cases h with
    | unsupported _ hfree hdisplays hadded =>
      exact ⟨hfree, hdisplays, hadded, fun name _ hne => absurd rfl hne, le_rfl⟩
    | alreadyOn hyes _ | noPhysical _ hyes _ _ | succeeds _ hyes _ _
    | withdraws _ hyes _ _ _ _ _ => exact (hunsupported hyes hsupported).elim
  | alreadyOn _ _ hrun => cases hrun.symm.trans hfailed
  | occupied hsupported hother hheld _ =>
    cases h with
    | unsupported hno _ _ _ => exact (hunsupported hsupported hno).elim
    | alreadyOn _ hsame => exact absurd hsame hother
    | noPhysical hfree _ _ _ | succeeds hfree _ _ _ | withdraws hfree _ _ _ _ _ _ =>
      exact absurd hfree hheld
  | noPhysical hsupported hother hfree hphysical hrun =>
    cases hrun.symm.trans hfailed
    cases h with
    | unsupported hno _ _ _ => exact (hunsupported hsupported hno).elim
    | alreadyOn _ hsame => exact absurd hsame hother
    | noPhysical _ _ _ hadded => exact (guarded_listed hfree).undone hphysical hadded
    | succeeds _ _ hsome _ | withdraws _ _ hsome _ _ _ _ => exact absurd hphysical hsome
  | attempts hsupported hother hfree hphysical hrun =>
    cases h with
    | unsupported hno _ _ _ => exact (hunsupported hsupported hno).elim
    | alreadyOn _ hsame => exact absurd hsame hother
    | noPhysical _ _ hnone _ => exact absurd hnone hphysical
    | succeeds _ _ _ hsucceeds =>
      cases attemptEnds connId s hphysical with
      | succeeds _ u _ hattempt =>
        cases (hrun.trans (guarded_of_ok hattempt)).symm.trans hfailed
      | fails hfails _ _ _ _ _ _ | withdraws hfails _ _ _ => exact absurd hsucceeds hfails
    | withdraws _ _ _ hwithdraws hadded hstored hout =>
      cases attemptEnds connId s hphysical with
      | succeeds _ u _ hattempt =>
        cases (hrun.trans (guarded_of_ok hattempt)).symm.trans hfailed
      | fails _ hnot _ _ _ _ _ => exact absurd hwithdraws hnot
      | withdraws _ _ e' hattempt =>
        cases (hrun.trans (guarded_of_error hattempt)).symm.trans hfailed
        exact (undone_withdrawn_iff hwithdraws hfree).mpr ⟨hadded, hstored, hout⟩ r

/-- Whatever the calls of the guard do, a call that fails leaves nothing behind, if and only if it
needs no rollback. -/
theorem allOrNothing_any_iff :
    (∀ r, AllOrNothing names s connId { a with rollback := r }) ↔
      NeedsNoRollback names s connId a :=
  ⟨needsNoRollback_of_any, fun h => h.allOrNothing⟩

end Attempts

end RdWeb.Host.WinVirtualDisplay
