import RdWeb.Host.PrivacyRollback
import RdWeb.Host.LatePrivacy

/-!
# Privacy mode is turned on as a whole or not at all

The programs of `win_virtual_display.rs` do for the record that the host keeps what
`PrivacyModeImpl` says of them, and their calls of the driver are runs of `VirtualDisplays`. So
the two halves of the result are about one host: a call that fails leaves nothing behind, and a
connection that gave up does not get the mode afterwards.
-/

namespace RdWeb.Host.WinVirtualDisplay

open Rollback

/-! ## The record of the host -/

section Record

variable {names : DeviceNames} {connId : ℤ} {a : TurnOnAnswers} {s t : Desktop}
  {r : TurnOffAnswers}

/-- Restoring the displays does not touch the record of the holder. -/
theorem record_restore (r : TurnOffAnswers) (t : Desktop) :
    (t.restore r).pm.toPrivacyModeImpl = t.pm.toPrivacyModeImpl := by
  have hkeeps := keeps_plugOutMonitorIndices true false r.plugOut
    { t with settings := restoredSettings r t } t.monitors.outstanding t.pm.virtualDisplaysAdded
  have hkept := hkeeps.ended (s := { t with settings := restoredSettings r t })
    ⟨rfl, rfl, le_rfl⟩
  rw [restore_eq, Desktop.restorePlugOutMonitor]
  dsimp only
  rw [hkept.1]

/-- Where nobody holds the mode, turning it off changes nothing in the record. -/
theorem record_turnOffPrivacy (hfree : t.pm.connId = INVALID_PRIVACY_MODE_CONN_ID) :
    (ended (turnOffPrivacy INVALID_PRIVACY_MODE_CONN_ID r) t).pm.toPrivacyModeImpl =
      t.pm.toPrivacyModeImpl := by
  cases hunhook : r.unhook with
  | error message => rw [ended_turnOffPrivacy_of_error hunhook]
  | ok u =>
    rw [ended_turnOffPrivacy_of_ok hunhook]
    dsimp only
    rw [record_restore, ← hfree]

/-- Turning off a mode that nobody holds changes nothing. -/
theorem turnOffPrivacy_free {pm : PrivacyModeImpl} (off : Except String Unit)
    (hfree : pm.connId = INVALID_PRIVACY_MODE_CONN_ID) :
    (pm.turnOffPrivacy INVALID_PRIVACY_MODE_CONN_ID off).1 = pm := by
  unfold PrivacyModeImpl.turnOffPrivacy
  split
  · rfl
  · split
    · rfl
    · rw [← hfree]

/-- A call for a record that is free is an attempt of the system. -/
theorem turnOnVirtual_free {pm : PrivacyModeImpl} (os : PrivacyOs)
    (hsupported : os.iddSupported = true) (hother : pm.connId ≠ connId)
    (hfree : pm.connId = INVALID_PRIVACY_MODE_CONN_ID) :
    pm.turnOnVirtual connId { os with on := .ok () } =
        ({ pm with connId := connId }, .ok true) ∧
      ∀ message, pm.turnOnVirtual connId { os with on := .error message } =
        (pm, .error (.system message)) := by
  have hcheck : pm.checkOnConnId connId = .ok false := by
    rw [PrivacyModeImpl.checkOnConnId, if_neg hother, if_neg (not_not.mpr hfree)]
  constructor
  · rw [PrivacyModeImpl.turnOnVirtual, hsupported, hcheck]
    rfl
  · intro message
    rw [PrivacyModeImpl.turnOnVirtual, hsupported, hcheck]
    dsimp only
    rw [turnOffPrivacy_free _ hfree]
    rfl

/-- `turn_on_privacy` and `turnOnVirtual` succeed or fail together, with the same record. -/
theorem turnOnVirtual_refined (names : DeviceNames) (connId : ℤ) (a : TurnOnAnswers)
    (s : Desktop) {os : PrivacyOs} (hsupported : os.iddSupported = a.supported) :
    ∃ on : Except String Unit,
      (∃ t, turnOnPrivacy names connId a s = .ok true t ∧
        s.pm.turnOnVirtual connId { os with on := on } = (t.pm.toPrivacyModeImpl, .ok true)) ∨
      ∃ e e' t, turnOnPrivacy names connId a s = .error e t ∧
        s.pm.turnOnVirtual connId { os with on := on } = (t.pm.toPrivacyModeImpl, .error e') := by
  cases entered names connId a s with
  | unsupported hno hrun =>
    refine ⟨.ok (), .inr ⟨_, .system "idd_not_support_under_win10_2004_tip", s, hrun, ?_⟩⟩
    rw [PrivacyModeImpl.turnOnVirtual, hsupported, hno]
    rfl
  | alreadyOn hyes hsame hrun =>
    refine ⟨.ok (), .inl ⟨s, hrun, ?_⟩⟩
    rw [PrivacyModeImpl.turnOnVirtual, hsupported, hyes, PrivacyModeImpl.checkOnConnId,
      if_pos hsame]
    rfl
  | occupied hyes hother hheld hrun =>
    refine ⟨.ok (), .inr ⟨_, .occupied, s, hrun, ?_⟩⟩
    rw [PrivacyModeImpl.turnOnVirtual, hsupported, hyes, PrivacyModeImpl.checkOnConnId,
      if_neg hother, if_pos hheld]
    rfl
  | noPhysical hyes hother hfree hphysical hrun =>
    refine ⟨.error NO_PHYSICAL_DISPLAYS, .inr ⟨_, .system NO_PHYSICAL_DISPLAYS, _, hrun, ?_⟩⟩
    exact (turnOnVirtual_free os (hsupported.trans hyes) hother hfree).2 _
  | attempts hyes hother hfree hphysical hrun =>
    have hfailed {e : PrivacyError} {t : Desktop}
        (hattempt : turnOnGuarded names connId a (s.listed names a.devices) = .error e t)
        (hpm : t.pm.toPrivacyModeImpl = s.pm.toPrivacyModeImpl) :
        ∃ e e' t, turnOnPrivacy names connId a s = .error e t ∧
          s.pm.turnOnVirtual connId { os with on := .error "" } =
            (t.pm.toPrivacyModeImpl, .error e') := by
      refine ⟨_, .system "", _, hrun.trans (guarded_of_error hattempt), ?_⟩
      rw [record_turnOffPrivacy (by rw [hpm, hfree]), hpm]
      exact (turnOnVirtual_free os (hsupported.trans hyes) hother hfree).2 _
    cases attemptEnds connId s hphysical with
    | succeeds _ t hpm hattempt =>
      refine ⟨.ok (), .inl ⟨t, hrun.trans (guarded_of_ok hattempt), ?_⟩⟩
      rw [hpm]
      exact (turnOnVirtual_free os (hsupported.trans hyes) hother hfree).1
    | fails _ _ e t hpm _ hattempt => exact ⟨.error "", .inr (hfailed hattempt hpm)⟩
    | withdraws _ _ e hattempt => exact ⟨.error "", .inr (hfailed hattempt rfl)⟩

end Record

/-! ## The calls of the driver -/

section Driver

variable {v : VirtualDisplays} {monitors others : ℕ}

/-- Plugging in is a run of the virtual displays. -/
theorem run_plugInPeerRequest (hidle : v.phase = .idle) (driver : Bool) (d : DriverAnswer) :
    ∃ events, (VirtualDisplays.machine monitors others).Run (d.meet v) events
      (plugInPeerRequest driver d v).1 := by
  have hstart : VirtualDisplays.step (d.meet v) (.plugInMonitor (some false)) =
      if d.monitors = VIRTUAL_DISPLAY_MAX_COUNT then some (d.meet v)
      else some { d.meet v with phase := .pluggingIn false } := by
    rw [DriverAnswer.meet, hidle]
    rfl
  have hmeet : d.meet v = { d.meet v with phase := .idle } := by rw [← hidle]; rfl
  have hmonitors : (d.meet v).monitors = d.monitors := rfl
  rw [plugInPeerRequest, hmonitors]
  cases driver with
  | false => exact ⟨[], .nil _⟩
  | true =>
    rw [if_neg (by decide)]
    by_cases hmany : d.monitors = VIRTUAL_DISPLAY_MAX_COUNT
    · rw [if_pos hmany]
      exact ⟨[], .nil _⟩
    · rw [if_neg hmany] at hstart ⊢
      cases hok : d.ok with
      | false =>
        refine ⟨[.plugInMonitor (some false), .plugInCommand false false],
          .cons trivial hstart (.single trivial ?_)⟩
        exact congrArg some hmeet.symm
      | true =>
        refine ⟨[.plugInMonitor (some false), .plugInCommand true false],
          .cons trivial hstart (.single trivial ?_)⟩
        exact congrArg (some ·.plugIn) hmeet.symm

/-- So is plugging out: with an index there is one command at most. -/
theorem run_plugOutMonitor (hidle : v.phase = .idle) (forceAll forceOne : Bool)
    (d : DriverAnswer) :
    ∃ events, (VirtualDisplays.machine monitors others).Run (d.meet v) events
      (plugOutMonitor forceAll forceOne d v).1 := by
  have hmeet : d.meet v = { d.meet v with phase := .idle } := by rw [← hidle]; rfl
  rw [plugOutMonitor]
  split
  · exact ⟨[], .nil _⟩
  · rename_i plugInCount hcount
    have hphase : (d.meet v).phase = .idle := hidle
    have hindex : decide ((0 : ℤ) = IDD_PLUG_OUT_ALL_INDEX) = false := by decide
    have hfirst : VirtualDisplays.step (d.meet v) (.plugOutMonitor 0 forceAll forceOne) =
        some { d.meet v with phase := .counting plugInCount false forceAll forceOne } := by
      simp only [VirtualDisplays.step, hphase, hindex, hcount]
    split
    · exact ⟨[], .nil _⟩
    · rename_i toPlugOut hto
      have hsecond : VirtualDisplays.step
          { d.meet v with phase := .counting plugInCount false forceAll forceOne } .countAll =
          some { d.meet v with
            phase := .pluggingOut toPlugOut 0 (d.meet v).outstanding forceAll forceOne } := by
        have hall (phase : PlugPhase) :
            ({ d.meet v with phase := phase } : VirtualDisplays).allCount =
              (d.meet v).allCount := rfl
        simp only [VirtualDisplays.step, hall, hto]
      by_cases hzero : toPlugOut = 0
      · subst hzero
        refine ⟨[.plugOutMonitor 0 forceAll forceOne, .countAll, .returned],
          .cons trivial hfirst (.cons trivial hsecond (.single trivial ?_))⟩
        exact congrArg some hmeet.symm
      · have hone : toPlugOut = 1 := by
          obtain ⟨own, -, hleft⟩ := VirtualDisplays.toPlugOutCount_eq hto
          split_ifs at hleft with hown
          · exact hleft
          · exact absurd (hleft.trans (by simpa using hown)) hzero
        subst hone
        refine ⟨[.plugOutMonitor 0 forceAll forceOne, .countAll, .plugOutCommand d.ok, .returned],
          .cons trivial hfirst (.cons trivial hsecond (.cons trivial rfl (.single trivial ?_)))⟩
        cases hok : d.ok with
        | false => exact congrArg some hmeet.symm
        | true => exact congrArg (some ·.plugOut) hmeet.symm

end Driver

/-! ## The result -/

/-- **All or nothing.** Whatever the calls of its guard do, a failed call leaves nothing behind, if
and only if it needs no rollback; a careful call leaves nothing behind; and in a run whose steps are
punctual no connection that gave up or closed holds the mode. -/
theorem allOrNothing_of_careful (names : DeviceNames) (s : Desktop) (connId : ℤ)
    (a : TurnOnAnswers) {platform : PrivacyPlatform} {pm : Option PrivacyModeImpl}
    {events : List PrivacyEvent} {host : PrivacyHost}
    (hrun : (PrivacyHost.machine platform pm).RunWhere (PrivacyHost.Punctual platform)
      (PrivacyHost.machine platform pm).init events host) :
    ((∀ r, AllOrNothing names s connId { a with rollback := r }) ↔
        NeedsNoRollback names s connId a) ∧
      (CarefulCall names s connId a → AllOrNothing names s connId a) ∧
      PrivacyHost.NeverLate events host :=
  ⟨allOrNothing_any_iff, CarefulCall.allOrNothing, PrivacyHost.neverLate_of_punctual hrun⟩

/-- The host of the examples has a physical display and plugs in a virtual one. -/
def demoNames : DeviceNames := ⟨fun name => name = "DISPLAY2", fun _ => false⟩

/-- The mode of the demo display. -/
def demoMode : Devmode := ⟨0, 0, 1920, 1080⟩

/-- A device of the demo. -/
def demoDevice (name : String) : DisplayDevice := ⟨name, true, some demoMode, none⟩

/-- A privacy mode that nobody holds. -/
def demoPm : VirtualPrivacyModeImpl :=
  { PrivacyModeImpl.new "virtual_display" .virtualDisplay with
    displays := [], virtualDisplays := [], virtualDisplaysAdded := [] }

/-- The desktop of the demo. -/
def demoDesktop : Desktop := ⟨demoPm, fun _ => ⟨demoMode, none⟩, ⟨0, 0, 0, 1, .idle⟩, ""⟩

/-- The displays cannot be switched: the commit fails. The guard restores them with `restore`. -/
def demoAnswers (restore : ℤ) : TurnOnAnswers where
  supported := true
  devices := [demoDevice "DISPLAY1"]
  driver := true
  plugIn := ⟨0, 1, true⟩
  devicesAfter := [demoDevice "DISPLAY1", demoDevice "DISPLAY2"]
  plugOutAgain := ⟨1, 1, true⟩
  readReg := .ok ()
  primary := ⟨some demoMode, [demoDevice "DISPLAY1", demoDevice "DISPLAY2"], fun _ => 0⟩
  disable := fun _ => 0
  commit := -1
  resolution := true
  readRegAfter := .ok ()
  recovery := none
  rollback := ⟨.ok (), fun _ => restore, 0, fun _ => ⟨1, 1, true⟩⟩

/-- The call of the demo is careful. -/
theorem demoCareful : CarefulCall demoNames demoDesktop 1001 (demoAnswers 0) where
  free := .inl rfl
  unsupported h := nomatch h
  unguarded _ := rfl
  nothingStored _ _ := rfl
  distinct := by decide
  listed dev hdev _ hphysical := by
    have hdev : dev = demoDevice "DISPLAY1" ∨ dev = demoDevice "DISPLAY2" := by
      simpa [demoAnswers] using hdev
    rcases hdev with rfl | rfl
    · exact ⟨⟨demoMode, "DISPLAY1"⟩, by decide, rfl⟩
    · exact absurd hphysical.1 (by decide)
  unhooked := rfl
  restored _ _ := rfl
  committed := rfl
  counted := by decide
  pluggedOut _ _ := ⟨rfl, Nat.zero_lt_two⟩
  pluggedOutAgain _ := ⟨rfl, by decide⟩

/-- The platform of the examples has the one implementation with the virtual display. -/
def demoPlatform : PrivacyPlatform where
  creator implKey := if implKey = "virtual_display" then some .virtualDisplay else none
  defaultImpl := "virtual_display"
  amyuniIdd := true

/-- The host of the demo. -/
def demoMachine : Machine PrivacyHost PrivacyEvent :=
  PrivacyHost.machine demoPlatform (some demoPm.toPrivacyModeImpl)

/-- The system turns privacy mode on, or fails. -/
def demoOs (on : Except String Unit) : PrivacyOs :=
  ⟨["virtual_display"], "", true, true, on, .ok ()⟩

/-- The request of a connection takes too long, and its thread ends after that. -/
def lateRequest (on : Except String Unit) : List PrivacyEvent :=
  [.request 1001 "virtual_display", .timeout 1001, .threadRuns 0 (demoOs on)]

/-- The host after a late request. -/
def afterLateRequest (on : Except String Unit) : PrivacyHost :=
  (demoMachine.replay demoMachine.init (lateRequest on)).getD demoMachine.init

/-- The host while the thread goes on. -/
def whileLate : PrivacyHost :=
  (demoMachine.replay demoMachine.init
    [.request 1001 "virtual_display", .timeout 1001]).getD demoMachine.init

/-- A call whose last step fails, which is rolled back and never late. -/
theorem allOrNothing_of_careful_commitFails :
    AllOrNothing demoNames demoDesktop 1001 (demoAnswers 0) ∧
      PrivacyHost.NeverLate (lateRequest (.error "")) (afterLateRequest (.error "")) := by
  have hnobody {s : PrivacyHost} (hpm : s.pm = some demoPm.toPrivacyModeImpl) :
      ¬ HeldBy s.pm 1001 := by
    rw [hpm, heldBy_some]
    exact fun h => absurd h.1 (by decide)
  have hfails : PrivacyHost.Punctual demoPlatform whileLate
      (.threadRuns 0 (demoOs (.error ""))) := by
    intro c implKey _ _
    refine .inr fun kind _ hgrants => ?_
    cases kind with
    | topmostWindow => cases hgrants.2
    | virtualDisplay => cases hgrants.2
  have hrun : demoMachine.RunWhere (PrivacyHost.Punctual demoPlatform) demoMachine.init
      (lateRequest (.error "")) (afterLateRequest (.error "")) :=
    .cons trivial rfl (.cons (hnobody rfl) rfl (.single hfails rfl))
  have hresult := allOrNothing_of_careful demoNames demoDesktop 1001 (demoAnswers 0) hrun
  exact ⟨hresult.2.1 demoCareful, hresult.2.2⟩

/-- The display is not restored, and stays disabled. -/
theorem not_allOrNothing_restoreFails :
    (¬ ∀ names s connId a, AllOrNothing names s connId a) ∧
      ¬ ∀ events host, demoMachine.Run demoMachine.init events host →
        PrivacyHost.NeverLate events host := by
  constructor
  · intro hall
    have hundone := hall demoNames demoDesktop 1001 (demoAnswers (-1)) _ _ rfl
    obtain ⟨d, hd, -, hsettings⟩ := hundone.restored "DISPLAY1" ⟨by decide, rfl⟩ (by decide)
    obtain rfl : d = ⟨demoMode, "DISPLAY1"⟩ := List.mem_singleton.mp hd
    exact absurd hsettings (by decide)
  · intro hall
    have hlate := hall _ _ (Machine.run_of_replay
      (rfl : demoMachine.replay demoMachine.init (lateRequest (.ok ())) =
        some (afterLateRequest (.ok ()))))
    refine hlate 1001 (.inl ⟨[.request 1001 "virtual_display"], [.threadRuns 0 (demoOs (.ok ()))],
      rfl, by simp⟩) ?_
    exact ⟨_, rfl, rfl, by decide⟩

end RdWeb.Host.WinVirtualDisplay
