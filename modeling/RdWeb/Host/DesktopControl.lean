import RdWeb.Host.Identity

/-!
# What a file transfer can do to the desktop

A connection for a port forward is left out of the message handler, but one for a file
transfer is not: each of its messages that control the desktop is let through by the
permissions alone, as for a remote desktop.
-/

namespace RdWeb.Host

/-- The options ask to block the input of the host, or to allow it again. -/
def OptionMessage.asksToBlock (o : OptionMessage) : Prop :=
  o.blockInput = some .yes ∨ o.blockInput = some .no

/-- Whether an option asks to block the input is decided by its value. -/
instance (o : OptionMessage) : Decidable o.asksToBlock := by
  unfold OptionMessage.asksToBlock
  infer_instance

namespace HostConnection

variable {Totp : Type} {crates : Crates Totp} {canDetect : ℤ → Bool} {s t : HostConnection Totp}

/-- The display whose resolution a message changes. -/
def display (s : HostConnection Totp) (desktop : Desktop) (d : Option ℕ) : Option Display :=
  desktop.displays.bind fun displays => displays[d.getD s.displayIdx]?

/-- The permission that a message needs is missing, or it names nothing on this host. -/
def Refuses (s : HostConnection Totp) (desktop : Desktop) : ConnMessage → Prop
  | .mouseEvent _ => s.peerKeyboardEnabled = false
  | .pointerDeviceEvent _ => s.peerKeyboardEnabled = false
  | .keyEvent _ => s.peerKeyboardEnabled = false
  | .option o => o.asksToBlock → (s.keyboard && s.blockInput) = false
  | .switchDisplay display r =>
    s.displayIdx ≠ display ∧ desktop.serverAlive ∧ r.width ≠ 0 ∧ r.height ≠ 0 →
      s.keyboard = false ∨ s.display desktop (some display) = none
  | .changeResolution _ => s.keyboard = false ∨ s.display desktop none = none
  | .changeDisplayResolution d _ => s.keyboard = false ∨ s.display desktop (some d) = none
  | .restartRemoteDevice => s.restart = false
  | _ => True

/-- Whether a message is refused is decided by its kind and the permissions. -/
instance (desktop : Desktop) (m : ConnMessage) : Decidable (s.Refuses desktop m) := by
  unfold Refuses
  split <;> infer_instance

/-! ## The effects of a message -/

/-- An act of the connection has no effect on the desktop. -/
@[simp] theorem act_effects (a : Act) : (s.act a).effects = s.effects := rfl

/-- Nor has an audit of a transfer. -/
@[simp] theorem postFileAudit_effects (path : String) :
    (s.postFileAudit path).effects = s.effects := rfl

/-- Nor has leaving. -/
@[simp] theorem removeAndLeave_effects : s.removeAndLeave.effects = s.effects := rfl

/-- Nor has the end of a forwarding. -/
@[simp] theorem leaveForward_effects : s.leaveForward.effects = s.effects := by
  unfold leaveForward
  split_ifs <;> rfl

/-- Nor has taking the keyboard away. -/
@[simp] theorem setDisableKeyboard_effects (q : Option BoolOption) :
    (s.setDisableKeyboard q).effects = s.effects := by
  unfold setDisableKeyboard
  split <;> rfl

/-- Taking the keyboard away does not change the two permissions. -/
@[simp] theorem setDisableKeyboard_permissions (q : Option BoolOption) :
    ((s.setDisableKeyboard q).keyboard && (s.setDisableKeyboard q).blockInput) =
      (s.keyboard && s.blockInput) := by
  unfold setDisableKeyboard
  split <;> rfl

/-- Options have no effect if they do not block the input, or may not. -/
theorem updateOptions_effects_iff (o : OptionMessage) :
    (s.updateOptions o).effects = s.effects ↔
      (o.asksToBlock → (s.keyboard && s.blockInput) = false) := by
  unfold updateOptions setBlockInput OptionMessage.asksToBlock
  rw [setDisableKeyboard_permissions]
  cases hpermitted : s.keyboard && s.blockInput with
  | false => simp
  | true =>
    rw [if_pos rfl]
    split <;> simp_all [perform]

/-- A change of the size has no effect without the keyboard or the display. -/
theorem changeResolution_effects_iff (desktop : Desktop) (d : Option ℕ) (r : Resolution) :
    (s.changeResolution desktop d r).effects = s.effects ↔
      s.keyboard = false ∨ s.display desktop d = none := by
  unfold changeResolution display
  split_ifs with hkeyboard
  · split <;> simp_all [perform]
  · simp [hkeyboard]

/-- A switch of the display has no effect if it changes nothing. -/
theorem handleSwitchDisplay_effects_iff (desktop : Desktop) (display : ℕ) (r : Resolution) :
    (s.handleSwitchDisplay desktop display r).effects = s.effects ↔
      (s.displayIdx ≠ display ∧ desktop.serverAlive ∧ r.width ≠ 0 ∧ r.height ≠ 0 →
        s.keyboard = false ∨ s.display desktop (some display) = none) := by
  unfold handleSwitchDisplay
  dsimp only
  split_ifs with hswitch hsize
  · refine (changeResolution_effects_iff desktop none r).trans ?_
    constructor
    · exact fun h _ => h
    · exact fun h => h ⟨hswitch.1, hswitch.2, hsize⟩
  · exact iff_of_true rfl fun h => absurd h.2.2 hsize
  · exact iff_of_true rfl fun h => absurd ⟨h.1, h.2.1⟩ hswitch

/-- A control message has no effect exactly if it is refused. -/
theorem onControl_effects_iff (desktop : Desktop) (m : ConnMessage) :
    (s.onControl crates canDetect desktop m).effects = s.effects ↔ s.Refuses desktop m := by
  have hinput (e : Effect) :
      (if s.peerKeyboardEnabled then s.perform [e] else s).effects = s.effects ↔
        s.peerKeyboardEnabled = false := by
    split_ifs with henabled <;> simp [perform, henabled]
  cases m with
  | mouseEvent me => exact hinput _
  | pointerDeviceEvent pde => exact hinput _
  | keyEvent me => exact hinput _
  | option o => exact updateOptions_effects_iff o
  | switchDisplay display r => exact handleSwitchDisplay_effects_iff desktop display r
  | changeResolution r => exact changeResolution_effects_iff desktop none r
  | changeDisplayResolution d r => exact changeResolution_effects_iff desktop (some d) r
  | restartRemoteDevice =>
    simp only [onControl, Refuses]
    split_ifs with hrestart <;> simp [perform, hrestart]
  | fileSend path readable =>
    simp only [onControl, Refuses]
    split_ifs <;> simp
  | fileReceive id path =>
    simp only [onControl, Refuses]
    split_ifs <;> simp
  | _ => exact iff_of_true rfl trivial

/-! ## The effects of a login -/

/-- The options that came with a login do not ask to block the input, unless this is not
permitted. -/
def QuietOptions (s : HostConnection Totp) : Prop :=
  ∀ o ∈ s.optionsInLogin, o.asksToBlock → (s.keyboard && s.blockInput) = false

/-- If a step of the login authorises a file transfer, the options in it are quiet. -/
def QuietLogin (s : HostConnection Totp) (login : Connection Totp) : Prop :=
  s.login.authorized = false → login.authorized = true → login.fileTransfer.isSome = true →
    login.portForwardSocket = false → s.QuietOptions

/-- The options of the login have no effect if they are quiet. -/
theorem updateOptionsInLogin_effects_iff :
    s.updateOptionsInLogin.effects = s.effects ↔ s.QuietOptions := by
  unfold updateOptionsInLogin QuietOptions
  split
  · next o ho =>
    refine (updateOptions_effects_iff (s := s.takeOptionsInLogin) o).trans ?_
    constructor
    · intro h o' ho'
      obtain rfl := Option.some.inj (ho.symm.trans ho')
      exact h
    · exact fun h => h o ho
  · next ho => simp [ho]

/-- Authorising a file transfer has an effect only through the options in the login. -/
theorem onAuthorized_effects_iff (hfile : s.login.fileTransfer.isSome = true)
    (desktop : Desktop) :
    (s.onAuthorized desktop).effects = s.effects ↔
      (s.login.portForwardSocket = false → s.QuietOptions) := by
  let audited := s.register.postConnAudit (some (s.login.lr.myId, s.login.lr.myName))
  have haudited : s.onAuthorized desktop =
      if s.login.portForwardSocket then audited else audited.updateOptionsInLogin := by
    have hnone : audited.login.fileTransfer.isNone = false := by
      simpa [audited, register, postConnAudit, act] using hfile
    unfold onAuthorized
    simp only [show (s.register.postConnAudit _) = audited from rfl, hnone, Bool.false_and,
      Bool.false_eq_true, if_false]
    rfl
  rw [haudited]
  cases hforward : s.login.portForwardSocket with
  | false =>
    rw [if_neg (by simp)]
    refine (updateOptionsInLogin_effects_iff (s := audited)).trans ?_
    exact ⟨fun h _ => h, fun h => h rfl⟩
  | true => simp [audited, register, postConnAudit, act]

/-- The connection is a file transfer if its login asks for one. -/
theorem authConnType_eq_fileTransfer_iff :
    s.authConnType = .fileTransfer ↔ s.login.fileTransfer.isSome = true := by
  unfold authConnType
  split_ifs <;> simp_all

/-- The connection is authorised for what its login asked for. -/
theorem onAuthorized_spec (desktop : Desktop) :
    (s.onAuthorized desktop).authedConnId = some s.authConnType ∧
      (s.onAuthorized desktop).login.authorized = s.login.authorized := by
  let audited := s.register.postConnAudit (some (s.login.lr.myId, s.login.lr.myName))
  have hoptions : Continues (fun _ => true) audited audited.updateOptionsInLogin :=
    continues_updateOptionsInLogin
  unfold onAuthorized
  dsimp only
  split_ifs
  · exact ⟨rfl, rfl⟩
  · exact ⟨rfl, rfl⟩
  · exact ⟨hoptions.authedConnId, hoptions.authorized⟩

/-! ## Steps and runs -/

/-- A connection for a file transfer had no effect, and neither had one that is not authorised. -/
structure Harmless (s : HostConnection Totp) : Prop where
  unauthorized : s.login.authorized = false → s.authedConnId = none ∧ s.effects = []
  fileTransfer : s.authedConnId = some .fileTransfer → s.effects = []

/-- Where a step keeps the authorisation, what it adds decides. -/
theorem Harmless.continues_iff {gate : String → Bool} (hs : s.Harmless) (hst : Continues gate s t)
    (hunauthorized : s.login.authorized = false → t.effects = s.effects) :
    t.Harmless ↔ (s.authedConnId = some .fileTransfer → t.effects = s.effects) := by
  constructor
  · intro ht htype
    rw [hs.fileTransfer htype]
    exact ht.fileTransfer (hst.authedConnId.trans htype)
  · intro h
    constructor
    · intro hauth
      rw [hst.authorized] at hauth
      rw [hst.authedConnId, hunauthorized hauth]
      exact hs.unauthorized hauth
    · intro htype
      rw [hst.authedConnId] at htype
      rw [h htype]
      exact hs.fileTransfer htype

/-- What goes on without an effect stays harmless. -/
theorem Harmless.continues {gate : String → Bool} (hs : s.Harmless) (hst : Continues gate s t)
    (heffects : t.effects = s.effects) : t.Harmless :=
  (hs.continues_iff hst fun _ => heffects).mpr fun _ => heffects

/-- The end of a forwarding is harmless if the connection was. -/
theorem harmless_leaveForward_iff : s.leaveForward.Harmless ↔ s.Harmless := by
  have hst : Continues (fun _ => true) s s.leaveForward := continues_leaveForward
  constructor
  · intro h
    constructor
    · have hunauthorized := h.unauthorized
      rwa [hst.authorized, hst.authedConnId, leaveForward_effects] at hunauthorized
    · have hfile := h.fileTransfer
      rwa [hst.authedConnId, leaveForward_effects] at hfile
  · exact fun h => h.continues hst leaveForward_effects

/-- The step that authorises a connection is harmless exactly if its login is quiet. -/
theorem harmless_onAuthorized_iff (hauth : s.login.authorized = true) (heffects : s.effects = [])
    (desktop : Desktop) :
    (s.onAuthorized desktop).Harmless ↔
      (s.login.fileTransfer.isSome = true → s.login.portForwardSocket = false →
        s.QuietOptions) := by
  obtain ⟨htype, hauth'⟩ := onAuthorized_spec (s := s) desktop
  constructor
  · intro h hfile
    rw [← onAuthorized_effects_iff hfile desktop, heffects]
    apply h.fileTransfer
    rw [htype, authConnType_eq_fileTransfer_iff.mpr hfile]
  · intro h
    constructor
    · intro hnot
      rw [hauth', hauth] at hnot
      cases hnot
    · intro hfile
      rw [htype, Option.some_inj, authConnType_eq_fileTransfer_iff] at hfile
      rw [(onAuthorized_effects_iff hfile desktop).mpr (h hfile), heffects]

/-- A step of the login is harmless exactly if it is quiet. -/
theorem Harmless.login_iff (hs : s.Harmless) {login : Connection Totp}
    (hstays : s.login.authorized = true → login.authorized = true) (desktop : Desktop) :
    (s.afterLogin login desktop).Harmless ↔ s.QuietLogin login := by
  let t : HostConnection Totp := { s with login := login }
  let u := if login.authorized && !s.login.authorized then t.onAuthorized desktop else t
  have hafter : (s.afterLogin login desktop).Harmless ↔ u.Harmless := by
    rw [show s.afterLogin login desktop = if login.closed then u.leaveForward else u from rfl]
    split_ifs
    · exact harmless_leaveForward_iff
    · exact Iff.rfl
  rw [hafter]
  cases hauth : s.login.authorized with
  | true =>
    have hu : u = t := by simp [u, hauth]
    rw [hu]
    refine iff_of_true ⟨fun hnot => ?_, hs.fileTransfer⟩ fun hnot => ?_
    · exact absurd (hnot.symm.trans (hstays hauth)) (by simp)
    · exact absurd (hnot.symm.trans hauth) (by simp)
  | false =>
    obtain ⟨hnone, heffects⟩ := hs.unauthorized hauth
    cases hlogin : login.authorized with
    | true =>
      have hu : u = t.onAuthorized desktop := by simp [u, hauth, hlogin]
      rw [hu, harmless_onAuthorized_iff (s := t) hlogin heffects]
      exact ⟨fun h _ _ => h, fun h => h hauth hlogin⟩
    | false =>
      have hu : u = t := by simp [u, hauth, hlogin]
      rw [hu]
      refine iff_of_true ⟨fun _ => ⟨hnone, heffects⟩, hs.fileTransfer⟩ fun _ hyes => ?_
      exact absurd (hlogin.symm.trans hyes) (by simp)

/-- Nothing that controls the desktop is let through on a file transfer. -/
def NoControl (crates : Crates Totp) (s : HostConnection Totp) : ConnEvent → Prop
  | .message env _ (.loginRequest lr options) =>
    (s.keepOptions options).QuietLogin (s.login.onLoginRequest crates env lr)
  | .message env _ (.switchSidesResponse uuid lr) =>
    (s.keepOptions (lr.bind Prod.snd)).QuietLogin
      (s.login.onSwitchSides crates env uuid (lr.map Prod.fst))
  | .message env _ (.auth2fa code hwid) =>
    s.QuietLogin (s.login.onAuth2fa crates env code hwid)
  | .authorize env _ => s.QuietLogin (s.login.onAuthorize crates env)
  | .message _ desktop m =>
    s.authedConnId = some .fileTransfer → s.login.portForwardSocket = false → s.Refuses desktop m
  | _ => True

/-- A message is harmless exactly if it controls nothing on a file transfer. -/
theorem Harmless.onMessage_iff (hs : s.Harmless) (env : Surroundings) (desktop : Desktop)
    (m : ConnMessage) :
    (s.onMessage crates canDetect env desktop m).Harmless ↔
      s.NoControl crates (.message env desktop m) := by
  have hkept (options : Option OptionMessage) : (s.keepOptions options).Harmless :=
    ⟨hs.unauthorized, hs.fileTransfer⟩
  have hcontrol (m : ConnMessage) :
      (if s.login.authorized ∧ ¬ s.login.portForwardSocket then
        s.onControl crates canDetect desktop m else s).Harmless ↔
      (s.authedConnId = some .fileTransfer → s.login.portForwardSocket = false →
        s.Refuses desktop m) := by
    split_ifs with hthrough
    · obtain ⟨hauth, hforward⟩ := hthrough
      rw [Bool.not_eq_true] at hforward
      have hst : Continues (gateOf crates canDetect) s (s.onControl crates canDetect desktop m) :=
        continues_onControl hauth desktop m
      rw [hs.continues_iff hst (fun hnot => by simp [hauth] at hnot), onControl_effects_iff]
      exact ⟨fun h htype _ => h htype, fun h htype => h htype hforward⟩
    · refine iff_of_true hs fun htype hforward => ?_
      have hauth : s.login.authorized = false := by
        simpa [hforward] using hthrough
      rw [(hs.unauthorized hauth).1] at htype
      cases htype
  cases m with
  | loginRequest lr options =>
    exact (hkept options).login_iff
      (fun hauth => Connection.authorized_onLoginRequest crates env hauth lr) desktop
  | switchSidesResponse uuid lr =>
    exact (hkept (lr.bind Prod.snd)).login_iff
      (fun hauth => Connection.authorized_onSwitchSides crates env hauth uuid (lr.map Prod.fst))
      desktop
  | auth2fa code hwid =>
    exact hs.login_iff
      (fun hauth => Connection.authorized_onAuth2fa crates env hauth code hwid) desktop
  | _ => exact hcontrol _

/-- **One step.** The condition says exactly which steps keep a connection harmless. -/
theorem step_harmless_iff {e : ConnEvent} (hstep : s.step crates canDetect e = some t)
    (hs : s.Harmless) : t.Harmless ↔ s.NoControl crates e := by
  unfold step at hstep
  split_ifs at hstep with hclosed
  cases e with
  | message env desktop m =>
    obtain rfl := Option.some.inj hstep
    exact hs.onMessage_iff env desktop m
  | authorize env desktop =>
    obtain rfl := Option.some.inj hstep
    exact hs.login_iff (fun hauth => Connection.authorized_onAuthorize crates env hauth) desktop
  | switchPermission name enabled =>
    obtain rfl := Option.some.inj hstep
    refine iff_of_true ?_ trivial
    cases name <;> exact ⟨hs.unauthorized, hs.fileTransfer⟩
  | world tables others =>
    obtain rfl := Option.some.inj hstep
    exact iff_of_true ⟨hs.unauthorized, hs.fileTransfer⟩ trivial
  | cmClose =>
    obtain rfl := Option.some.inj hstep
    exact iff_of_true ⟨hs.unauthorized, hs.fileTransfer⟩ trivial
  | forward =>
    simp only [turn] at hstep
    split_ifs at hstep
    obtain rfl := Option.some.inj hstep
    exact iff_of_true (harmless_leaveForward_iff.mpr hs) trivial
  | timeout =>
    obtain rfl := Option.some.inj hstep
    exact iff_of_true ⟨hs.unauthorized, hs.fileTransfer⟩ trivial

/-- A new connection is harmless. -/
theorem New.harmless (h : s.New) : s.Harmless where
  unauthorized _ := ⟨h.authedConnId, h.effects⟩
  fileTransfer _ := h.effects

/-- A connection that is not authorised is registered for nothing and had no effect. -/
def Settled (s : HostConnection Totp) : Prop :=
  s.login.authorized = false → s.authedConnId = none ∧ s.effects = []

/-- What follows a login does not authorise. -/
theorem afterLogin_authorized (login : Connection Totp) (desktop : Desktop) :
    (s.afterLogin login desktop).login.authorized = login.authorized := by
  let t : HostConnection Totp := { s with login := login }
  let u := if login.authorized && !s.login.authorized then t.onAuthorized desktop else t
  have hu : u.login.authorized = login.authorized := by
    simp only [u]
    split_ifs
    · exact (onAuthorized_spec desktop).2
    · rfl
  have hleft : Continues (fun _ => true) u u.leaveForward := continues_leaveForward
  rw [show s.afterLogin login desktop = if login.closed then u.leaveForward else u from rfl]
  split_ifs
  · exact hleft.authorized.trans hu
  · exact hu

/-- A step that does not authorise the connection controls nothing. -/
theorem noControl_of_unauthorized {e : ConnEvent} (hstep : s.step crates canDetect e = some t)
    (hs : s.authedConnId = none) (ht : t.login.authorized = false) : s.NoControl crates e := by
  have hquiet {u : HostConnection Totp} {login : Connection Totp} {desktop : Desktop}
      (hlogin : (u.afterLogin login desktop).login.authorized = false) : u.QuietLogin login := by
    intro _ hyes
    rw [afterLogin_authorized, hyes] at hlogin
    cases hlogin
  unfold step at hstep
  split_ifs at hstep with hclosed
  cases e with
  | message env desktop m =>
    obtain rfl := Option.some.inj hstep
    cases m with
    | loginRequest lr options => exact hquiet ht
    | switchSidesResponse uuid lr => exact hquiet ht
    | auth2fa code hwid => exact hquiet ht
    | _ => exact fun htype => by simp [hs] at htype
  | authorize env desktop =>
    obtain rfl := Option.some.inj hstep
    exact hquiet ht
  | _ => trivial

/-- **One step** keeps the connection settled. -/
theorem settled_step {e : ConnEvent} (hstep : s.step crates canDetect e = some t)
    (hs : s.Settled) : t.Settled := by
  intro ht
  have hauth : s.login.authorized = false := by
    by_contra hyes
    rw [Bool.not_eq_false] at hyes
    rw [(fixed_step hstep).authorized hyes] at ht
    cases ht
  obtain ⟨hnone, heffects⟩ := hs hauth
  have hharmless : s.Harmless := ⟨fun _ => ⟨hnone, heffects⟩, fun _ => heffects⟩
  exact ((step_harmless_iff hstep hharmless).mpr
    (noControl_of_unauthorized hstep hnone ht)).unauthorized ht

/-- No message of a file transfer had an effect on the desktop, in any state of the run. -/
def TransferOnly (crates : Crates Totp) (canDetect : ℤ → Bool) (s : HostConnection Totp)
    (events : List ConnEvent) : Prop :=
  ∀ first u, first <+: events → (hostMachine crates canDetect s).Run s first u →
    u.authedConnId = some .fileTransfer → u.effects = []

/-- **File transfers and the desktop.** From a new connection, a connection authorised for a file
transfer has no effect on the desktop if and only if every control message on it is refused
and its login is quiet. -/
theorem transferOnly_iff_noControl {Totp : Type} (crates : Crates Totp) (canDetect : ℤ → Bool)
    (s t : HostConnection Totp) (events : List ConnEvent) (hnew : s.New)
    (hrun : (hostMachine crates canDetect s).Run s events t) :
    s.TransferOnly crates canDetect events ↔
      (hostMachine crates canDetect s).RunWhere (NoControl crates) s events t :=
  Machine.runWhere_iff_beside (I := Settled)
    (P := fun u => u.authedConnId = some .fileTransfer → u.effects = [])
    (fun _ _ _ hstep hs => settled_step hstep hs)
    (fun _ _ _ hstep hs hfile => by
      rw [← step_harmless_iff hstep ⟨hs, hfile⟩]
      exact ⟨fun h => ⟨settled_step hstep hs, h⟩, fun h => h.fileTransfer⟩)
    hnew.harmless.unauthorized hnew.harmless.fileTransfer hrun

/-! ## A mouse event on a file transfer -/

/-- A login for a file transfer. -/
def loginForFiles : ConnEvent :=
  .message Connection.demoSurroundings demoDesktop
    (.loginRequest ⟨"host", [], "alice", "alice", "", "1.3.0", [], 1, false,
      .fileTransfer "/" true⟩ none)

/-- A message of the mouse. -/
def mouseMessage : ConnEvent :=
  .message Connection.demoSurroundings demoDesktop (.mouseEvent ⟨1, 10, 20⟩)

/-- Without the keyboard permission a mouse event does nothing. -/
theorem transferOnly_without_keyboard :
    ∃ t, demoHost.Run demoConnection
        [loginForFiles, authorizeEvent, .switchPermission .keyboard false, mouseMessage] t ∧
      demoConnection.TransferOnly Connection.demoCrates (fun _ => true)
        [loginForFiles, authorizeEvent, .switchPermission .keyboard false, mouseMessage] := by
  have hwhere : ∃ t, demoHost.RunWhere (NoControl Connection.demoCrates) demoConnection
      [loginForFiles, authorizeEvent, .switchPermission .keyboard false, mouseMessage] t := by
    have hlogin {u : HostConnection (ℕ → String)} {login : Connection (ℕ → String)}
        (h : u.optionsInLogin = none) : u.QuietLogin login := by
      intro _ _ _ _ o ho
      simp [h] at ho
    refine ⟨_, .cons (hlogin rfl) rfl (.cons (hlogin rfl) rfl (.cons trivial rfl
      (.single (fun _ _ => rfl) rfl)))⟩
  obtain ⟨t, hwhere⟩ := hwhere
  exact ⟨t, hwhere.run, (transferOnly_iff_noControl Connection.demoCrates _
    demoConnection t _ demoConnection_new hwhere.run).mpr hwhere⟩

/-- A mouse event on a connection authorised for a file transfer is sent on. -/
theorem not_transferOnly_mouseEvent :
    ∃ t, demoHost.Run demoConnection [loginForFiles, authorizeEvent, mouseMessage] t ∧
      t.authedConnId = some .fileTransfer ∧ t.effects = [.mouse ⟨1, 10, 20⟩ 7] ∧
      ¬ demoConnection.TransferOnly Connection.demoCrates (fun _ => true)
        [loginForFiles, authorizeEvent, mouseMessage] := by
  have hrun : ∃ t, demoHost.Run demoConnection [loginForFiles, authorizeEvent, mouseMessage] t ∧
      t.authedConnId = some .fileTransfer ∧ t.effects = [.mouse ⟨1, 10, 20⟩ 7] :=
    ⟨_, Machine.run_of_replay rfl, rfl, rfl⟩
  obtain ⟨t, hrun, htype, heffects⟩ := hrun
  refine ⟨t, hrun, htype, heffects, fun h => ?_⟩
  have hnone := h _ t (List.prefix_refl _) hrun htype
  rw [heffects] at hnone
  cases hnone

end HostConnection

end RdWeb.Host
