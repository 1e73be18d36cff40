import RdWeb.Lib.Rollback
import RdWeb.Host.PrivacyMode
import RdWeb.Host.VirtualDisplays

/-!
# Privacy mode with a virtual display

`win_virtual_display.rs`: a monitor is plugged in and made the primary display, and the physical
displays are disabled. What the system answers to a call is given beside, and other processes
use the driver before any call of it. Which display is the primary one follows from the positions,
so the flag for it is left out; so are the hook of the input itself and the logs.
-/

namespace RdWeb.Host.WinVirtualDisplay

open Rollback

/-- The code of a change that succeeded. -/
def DISP_CHANGE_SUCCESSFUL : ℤ := 0

/-- The message where no physical display is left. -/
def NO_PHYSICAL_DISPLAYS : String := "no_need_privacy_mode_no_physical_displays_tip"

/-- The part of a `DEVMODEW` that is changed. -/
structure Devmode where
  x : ℤ
  y : ℤ
  pelsWidth : ℕ
  pelsHeight : ℕ
  deriving DecidableEq, Repr

/-- The mode of a display, and the one stored with `CDS_NORESET` for the next commit. -/
structure Settings where
  current : Devmode
  stored : Option Devmode
  deriving DecidableEq, Repr

/-- A display with its mode. -/
structure Display where
  dm : Devmode
  name : String
  deriving DecidableEq, Repr

/-- `DISPLAY_DEVICEW`, with the settings that are found for it. -/
structure DisplayDevice where
  name : String
  /-- `DISPLAY_DEVICE_ACTIVE`, the same flag as `DISPLAY_DEVICE_ATTACHED_TO_DESKTOP` -/
  active : Bool
  /-- `ENUM_CURRENT_SETTINGS` -/
  current : Option Devmode
  /-- `ENUM_REGISTRY_SETTINGS` -/
  registry : Option Devmode

/-- What the names of the devices stand for. -/
structure DeviceNames where
  /-- the device string begins with `get_cur_device_string` -/
  isVirtual : String → Bool
  /-- `DISPLAY_DEVICE_MIRRORING_DRIVER` -/
  isMirroring : String → Bool

/-- A device that is neither virtual nor a mirror. -/
def DeviceNames.IsPhysical (names : DeviceNames) (name : String) : Prop :=
  names.isVirtual name = false ∧ names.isMirroring name = false

/-- The fields of this `PrivacyModeImpl` beside those that every implementation has. -/
structure VirtualPrivacyModeImpl extends PrivacyModeImpl where
  displays : List Display
  virtualDisplays : List Display
  virtualDisplaysAdded : List ℕ

/-- The implementation and what it works on. -/
structure Desktop where
  pm : VirtualPrivacyModeImpl
  settings : String → Settings
  /-- the monitors of the driver -/
  monitors : VirtualDisplays
  /-- the option `reg_recovery` -/
  regRecovery : String

/-- A call of the driver finds the displays as other processes left them. -/
structure DriverAnswer where
  monitors : ℕ
  others : ℕ
  /-- `device_io_control` -/
  ok : Bool

/-- What the system answers while the mode is turned off. -/
structure TurnOffAnswers where
  /-- `win_input::unhook` -/
  unhook : Except String Unit
  /-- `restore_displays` -/
  restore : Display → ℤ
  /-- `commit_change_display(0)` -/
  commit : ℤ
  /-- `plug_out_monitor_indices`, by how many indices are left -/
  plugOut : ℕ → DriverAnswer

/-- What the system answers to `set_primary_display`. -/
structure PrimaryAnswers where
  newPrimary : Option Devmode
  devices : List DisplayDevice
  change : DisplayDevice → ℤ

/-- What the system answers while the mode is turned on. -/
structure TurnOnAnswers where
  /-- `is_virtual_display_supported` -/
  supported : Bool
  devices : List DisplayDevice
  /-- `check_install_driver` -/
  driver : Bool
  plugIn : DriverAnswer
  /-- the displays after a monitor was plugged in -/
  devicesAfter : List DisplayDevice
  /-- the monitor is plugged out again -/
  plugOutAgain : DriverAnswer
  /-- `read_reg_connectivity` -/
  readReg : Except String Unit
  primary : PrimaryAnswers
  /-- `disable_physical_displays` -/
  disable : Display → ℤ
  /-- `commit_change_display(CDS_RESET)` -/
  commit : ℤ
  /-- `change_resolution` -/
  resolution : Bool
  readRegAfter : Except String Unit
  /-- `diff_recent_connectivity` in JSON -/
  recovery : Option (Except String String)
  /-- the calls of the guard -/
  rollback : TurnOffAnswers

/-! ## The driver -/

/-- The displays when a call of the driver is made. -/
def DriverAnswer.meet (a : DriverAnswer) (v : VirtualDisplays) : VirtualDisplays :=
  { v with monitors := a.monitors, others := a.others }

/-- `plug_in_peer_request` of `amyuni_idd`. -/
def plugInPeerRequest (driver : Bool) (a : DriverAnswer) (v : VirtualDisplays) :
    VirtualDisplays × Except String (List ℕ) :=
  let v := a.meet v
  if !driver then (v, .error "Failed to install driver.")
  else if v.monitors = VIRTUAL_DISPLAY_MAX_COUNT then
    (v, .error "There are already 4 monitors plugged in.")
  else if a.ok then (v.plugIn, .ok [0])
  else (v, .error "device_io_control")

/-- `plug_out_monitor` with the index 0, so with one command at most. -/
def plugOutMonitor (forceAll forceOne : Bool) (a : DriverAnswer) (v : VirtualDisplays) :
    VirtualDisplays × Except String Unit :=
  let v := a.meet v
  match plugInCountOf v.count v.monitors false forceOne with
  | .error message => (v, .error message)
  | .ok plugInCount =>
    match toPlugOutCount v.allCount plugInCount false forceAll with
    | .error message => (v, .error message)
    | .ok toPlugOut => (if toPlugOut ≠ 0 ∧ a.ok then v.plugOut else v, .ok ())

/-! ## The programs -/

/-- A call that may fail, on a desktop. -/
abbrev PrivacyM := EStateM PrivacyError Desktop

/-- What a call says is passed on. -/
def answered {α : Type} : Except String α → PrivacyM α
  | .ok a => pure a
  | .error message => throw (.system message)

/-- A call of the driver. -/
def onMonitors {α : Type} (call : VirtualDisplays → VirtualDisplays × Except String α) :
    PrivacyM α := do
  let s ← get
  modify fun s => { s with monitors := (call s.monitors).1 }
  answered (call s.monitors).2

/-- What is kept of a device when the displays are listed. -/
def DisplayDevice.display? (names : DeviceNames) (dev : DisplayDevice) : Option Display :=
  if !dev.active || names.isMirroring dev.name then none
  else (dev.current <|> dev.registry).map fun dm => ⟨dm, dev.name⟩

/-- The displays that are listed, virtual or not. -/
def displaysOf (names : DeviceNames) (virtual : Bool) (devices : List DisplayDevice) :
    List Display :=
  (devices.filterMap (DisplayDevice.display? names)).filter fun d =>
    names.isVirtual d.name == virtual

/-- The displays of the devices are listed anew. -/
def setDisplays (names : DeviceNames) (devices : List DisplayDevice) : PrivacyM PUnit :=
  modify fun s => { s with pm := { s.pm with
    displays := displaysOf names false devices
    virtualDisplays := displaysOf names true devices } }

/-- `plug_out_monitor_indices` of `amyuni_idd`. -/
def plugOutMonitorIndices (forceAll forceOne : Bool) (answer : ℕ → DriverAnswer) :
    List ℕ → PrivacyM PUnit
  | [] => pure ⟨⟩
  | _ :: indices => do
    onMonitors (plugOutMonitor forceAll forceOne (answer indices.length))
    plugOutMonitorIndices forceAll forceOne answer indices

/-- `ChangeDisplaySettingsExW` with `CDS_UPDATEREGISTRY | CDS_NORESET`. -/
def Desktop.changeDisplaySettingsEx (s : Desktop) (name : String) (dm : Devmode) (rc : ℤ) :
    Desktop :=
  if rc = DISP_CHANGE_SUCCESSFUL then
    { s with settings :=
        Function.update s.settings name { s.settings name with stored := some dm } }
  else s

/-- The stored modes are applied. -/
def Desktop.commit (s : Desktop) : Desktop :=
  { s with settings := fun name => ⟨(s.settings name).stored.getD (s.settings name).current, none⟩ }

/-- The text for a code that is no success. -/
def changeDisplaySettingsExErrMsg (rc : ℤ) : String := "ret: " ++ toString rc

/-- A call of `ChangeDisplaySettingsExW` whose failure ends the program. -/
def changeOrBail (change : Desktop → Desktop) (rc : ℤ) : PrivacyM PUnit := do
  modify change
  if rc = DISP_CHANGE_SUCCESSFUL then pure ⟨⟩
  else throw (.system ("Failed ChangeDisplaySettingsEx, " ++ changeDisplaySettingsExErrMsg rc))

/-- The changes take effect together. -/
def commitChangeDisplay (rc : ℤ) : PrivacyM PUnit :=
  changeOrBail (fun s => if rc = DISP_CHANGE_SUCCESSFUL then s.commit else s) rc

/-- One round of `set_primary_display`. -/
def moveDisplay (newPrimary : Devmode) (dev : DisplayDevice) (rc : ℤ) : PrivacyM PUnit :=
  if !dev.active then pure ⟨⟩
  else
    match dev.current with
    | none => throw (.system ("Failed EnumDisplaySettingsW, device name: " ++ dev.name))
    | some dm =>
      let dm := { dm with x := dm.x - newPrimary.x, y := dm.y - newPrimary.y }
      changeOrBail (·.changeDisplaySettingsEx dev.name dm rc) rc

/-- A virtual display becomes the primary one. -/
def setPrimaryDisplay (a : PrimaryAnswers) : PrivacyM String := do
  let s ← get
  match s.pm.virtualDisplays.head?, a.newPrimary with
  | some display, some newPrimary => do
    forM a.devices fun dev => moveDisplay newPrimary dev (a.change dev)
    pure display.name
  | some display, none =>
    throw (.system ("Failed EnumDisplaySettingsW, device name: " ++ display.name))
  -- the caller has looked that there is one
  | none, _ => throw (.system "index out of bounds")

/-- The mode that takes a display away. -/
def disabledMode : Devmode := ⟨10000, 10000, 0, 0⟩

/-- Every physical display is taken away. -/
def disablePhysicalDisplays (rc : Display → ℤ) : PrivacyM PUnit := do
  let s ← get
  forM s.pm.displays fun display =>
    changeOrBail (·.changeDisplaySettingsEx display.name disabledMode (rc display)) (rc display)

/-- There is a virtual display, plugged in if need be. -/
def ensureVirtualDisplay (names : DeviceNames) (a : TurnOnAnswers) : PrivacyM PUnit := do
  let s ← get
  if s.pm.virtualDisplays.isEmpty then do
    let displays ← onMonitors (plugInPeerRequest a.driver a.plugIn)
    setDisplays names a.devicesAfter
    let s ← get
    if s.pm.displays.isEmpty then do
      plugOutMonitorIndices false false (fun _ => a.plugOutAgain) displays
      throw (.system NO_PHYSICAL_DISPLAYS)
    else
      modify fun s => { s with pm := { s.pm with
        virtualDisplaysAdded := s.pm.virtualDisplaysAdded ++ displays } }
  else pure ⟨⟩

/-! ## Turning off -/

/-- `restore_displays`, which does not look at what the calls return. -/
def Desktop.restoreDisplays (s : Desktop) (rc : Display → ℤ) (displays : List Display) : Desktop :=
  displays.foldl (fun s display => s.changeDisplaySettingsEx display.name display.dm (rc display)) s

/-- The displays that were plugged in are plugged out. -/
def Desktop.restorePlugOutMonitor (s : Desktop) (answer : ℕ → DriverAnswer) : Desktop :=
  let s := ended (plugOutMonitorIndices true false answer s.pm.virtualDisplaysAdded) s
  { s with pm := { s.pm with virtualDisplaysAdded := [] } }

/-- Everything is set back. -/
def Desktop.restore (s : Desktop) (a : TurnOffAnswers) : Desktop :=
  let s := s.restoreDisplays a.restore s.pm.displays
  let s := s.restoreDisplays a.restore s.pm.virtualDisplays
  let s := ended (commitChangeDisplay a.commit) s
  let s := s.restorePlugOutMonitor a.plugOut
  { s with pm := { s.pm with displays := [], virtualDisplays := [] } }

/-- `restore_reg_connectivity(false)`, of which only the option is kept. -/
def Desktop.restoreRegConnectivity (s : Desktop) : Desktop := { s with regRecovery := "" }

/-- Turning off. -/
def turnOffPrivacy (connId : ℤ) (a : TurnOffAnswers) : PrivacyM PUnit := do
  let s ← get
  match s.pm.checkOffConnId connId with
  | .error e => throw e
  | .ok () => do
    answered a.unhook
    modify fun s => (s.restore a).restoreRegConnectivity
    modify fun s => { s with pm := { s.pm with connId := INVALID_PRIVACY_MODE_CONN_ID } }

/-! ## Turning on -/

/-- `change_resolution` of the display that was made the primary one. -/
def Desktop.changeResolution (s : Desktop) (name : String) (ok : Bool) : Desktop :=
  if ok then
    let current := { (s.settings name).current with pelsWidth := 1920, pelsHeight := 1080 }
    { s with settings := Function.update s.settings name ⟨current, none⟩ }
  else s

/-- The recovery is stored, or the option is reset if there is none. -/
def setRegRecovery (recovery : Option (Except String String)) : PrivacyM PUnit :=
  match recovery with
  | none => modify fun s => { s with regRecovery := "" }
  | some recovery => do
    let json ← answered recovery
    modify fun s => { s with regRecovery := json }

/-- The part of `turn_on_privacy` from the first reading of the registry to the last. -/
def switchDisplays (a : TurnOnAnswers) : PrivacyM PUnit := do
  answered a.readReg
  let primaryDisplayName ← setPrimaryDisplay a.primary
  disablePhysicalDisplays a.disable
  commitChangeDisplay a.commit
  modify (·.changeResolution primaryDisplayName a.resolution)
  answered a.readRegAfter
  setRegRecovery a.recovery

/-- What `turn_on_privacy` does under its guard. -/
def turnOnGuarded (names : DeviceNames) (connId : ℤ) (a : TurnOnAnswers) : PrivacyM Bool := do
  ensureVirtualDisplay names a
  let s ← get
  if s.pm.virtualDisplays.isEmpty then throw (.system "No virtual displays.")
  else do
    switchDisplays a
    modify fun s => { s with pm := { s.pm with connId := connId } }
    pure true

/-- Turning on, rolled back where it fails. -/
def turnOnPrivacy (names : DeviceNames) (connId : ℤ) (a : TurnOnAnswers) : PrivacyM Bool := do
  if !a.supported then throw (.system "idd_not_support_under_win10_2004_tip")
  else do
    let s ← get
    match s.pm.checkOnConnId connId with
    | .error e => throw e
    | .ok true => pure true
    | .ok false => do
      setDisplays names a.devices
      let s ← get
      if s.pm.displays.isEmpty then throw (.system NO_PHYSICAL_DISPLAYS)
      else
        -- the guard is dropped
        guarded (turnOnGuarded names connId a)
          (ended (turnOffPrivacy INVALID_PRIVACY_MODE_CONN_ID a.rollback))

end RdWeb.Host.WinVirtualDisplay
