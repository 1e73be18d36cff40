import RdWeb.Host.Control
import RdWeb.Host.LoginSafety

/-!
# Who an authorised connection acts for

A connection is registered under the identity it was authorised with. What it does later
is done under the identity of the last login request, which every later login request and
every answer to a switch of sides replaces before it is looked at.
-/

namespace RdWeb.Host

/-! ## The login request of a connection -/

namespace Connection

variable {Totp : Type} {crates : Crates Totp} {env : Surroundings} {s : Connection Totp}

/-- An error of a login keeps its request. -/
@[simp] theorem sendLoginError_lr (text : String) : (s.sendLoginError text).lr = s.lr := rfl

/-- Starting the manager keeps the request. -/
@[simp] theorem tryStartCm_lr (peerId name : String) (authorized : Bool) :
    (s.tryStartCm peerId name authorized).lr = s.lr := rfl

/-- Closing keeps the request. -/
@[simp] theorem close_lr : s.close.lr = s.lr := rfl

/-- An approval keeps the request. -/
@[simp] theorem approve_lr (a : Approval) : (s.approve a).lr = s.lr := rfl

/-- Storing the session keeps the request. -/
@[simp] theorem updateOrInsertSession_lr (password : List UInt8) (tfa : Bool) :
    (s.updateOrInsertSession env password tfa).lr = s.lr := by
  unfold updateOrInsertSession
  split <;> rfl

/-- Storing the second factor keeps the request. -/
@[simp] theorem setSession2fa_lr : (s.setSession2fa env).lr = s.lr := by
  unfold setSession2fa
  split <;> rfl

/-- Checking the password keeps the request. -/
@[simp] theorem validatePassword_lr : (s.validatePassword crates env).1.lr = s.lr := by
  unfold validatePassword
  split_ifs
  · apply updateOrInsertSession_lr
  · rfl

/-- Looking for a recent session keeps the request. -/
@[simp] theorem isRecentSession_lr (tfa : Bool) : (s.isRecentSession crates env tfa).1.lr = s.lr :=
  rfl

/-- Answering the login keeps the request. -/
@[simp] theorem sendLogonResponse_lr : (s.sendLogonResponse crates env).lr = s.lr := by
  unfold sendLogonResponse
  dsimp only
  split_ifs <;> rfl

/-- Checking the failures keeps the request. -/
@[simp] theorem checkFailure_lr (i : Fin 2) : (s.checkFailure env i).1.lr = s.lr := by
  unfold checkFailure
  dsimp only
  split_ifs <;> rfl

/-- Counting a failure keeps the request. -/
@[simp] theorem updateFailure_lr (failure : Failure) (remove : Bool) (i : Fin 2) :
    (s.updateFailure env failure remove i).lr = s.lr := by
  unfold updateFailure
  split_ifs <;> rfl

/-- Accepting the kind of a connection keeps the request. -/
@[simp] theorem acceptUnion_lr (union : LoginUnion) : (s.acceptUnion env union).1.lr = s.lr := by
  cases union with
  | portForward => unfold acceptUnion; dsimp only; split_ifs <;> rfl
  | _ => unfold acceptUnion; split_ifs <;> rfl

/-- An approved login keeps the request. -/
@[simp] theorem onApproved_lr (lr : LoginRequest) : (s.onApproved crates env lr).lr = s.lr := by
  unfold onApproved
  split_ifs
  · apply sendLogonResponse_lr
  · rfl

/-- A login with a password keeps the request. -/
@[simp] theorem onPassword_lr (lr : LoginRequest) : (s.onPassword crates env lr).lr = s.lr := by
  unfold onPassword
  dsimp only
  split_ifs <;> simp

/-- Checking the credentials keeps the request. -/
@[simp] theorem onCredentials_lr (lr : LoginRequest) :
    (s.onCredentials crates env lr).lr = s.lr := by
  unfold onCredentials
  dsimp only
  split_ifs <;> simp

/-- A login request is kept before it is looked at. -/
theorem onLoginRequest_lr (lr : LoginRequest) : (s.onLoginRequest crates env lr).lr = lr := by
  unfold onLoginRequest
  dsimp only
  split_ifs <;> simp [handleLoginRequestWithoutValidation]

/-- Switching sides sets the request to the new one. -/
theorem onSwitchSides_lr (uuid : List UInt8) (lr : LoginRequest) :
    (s.onSwitchSides crates env uuid (some lr)).lr = lr := by
  unfold onSwitchSides
  dsimp only
  split_ifs
  · simp [takeSwitchUuid, handleLoginRequestWithoutValidation]
  · rfl

/-- An accepted code keeps the request. -/
@[simp] theorem onCodeAccepted_lr (hwid : List UInt8) :
    (s.onCodeAccepted crates env hwid).lr = s.lr := by
  unfold onCodeAccepted
  dsimp only
  split_ifs <;> simp

/-- A code of the second factor keeps the request. -/
theorem onAuth2fa_lr (code : String) (hwid : List UInt8) :
    (s.onAuth2fa crates env code hwid).lr = s.lr := by
  unfold onAuth2fa
  dsimp only
  split_ifs
  · simp
  · split
    · simp
    · split <;> simp

/-- The approval of the manager keeps the request. -/
theorem onAuthorize_lr : (s.onAuthorize crates env).lr = s.lr := by
  unfold onAuthorize
  dsimp only
  split_ifs <;> simp

/-! ## An authorised connection stays authorised -/

/-- A connection that is authorised is not answered again. -/
theorem sendLogonResponse_of_authorized (h : s.authorized = true) :
    s.sendLogonResponse crates env = s := if_pos h

variable (crates env) in
/-- A login request leaves it authorised. -/
theorem authorized_onLoginRequest (h : s.authorized = true) (lr : LoginRequest) :
    (s.onLoginRequest crates env lr).authorized = true := by
  unfold onLoginRequest
  rw [if_pos (show (s.handleLoginRequestWithoutValidation env lr).authorized = true from h)]
  exact h

variable (crates env) in
/-- Switching sides leaves it authorised. -/
theorem authorized_onSwitchSides (h : s.authorized = true) (uuid : List UInt8)
    (lr : Option LoginRequest) : (s.onSwitchSides crates env uuid lr).authorized = true := by
  cases lr with
  | none => exact h
  | some lr =>
    unfold onSwitchSides
    dsimp only
    split_ifs
    · rw [sendLogonResponse_of_authorized]
      · exact h
      · exact h
    · exact h

variable (crates env) in
/-- A code leaves it authorised. -/
theorem authorized_onAuth2fa (h : s.authorized = true) (code : String) (hwid : List UInt8) :
    (s.onAuth2fa crates env code hwid).authorized = true := by
  rw [(onAuth2fa_spec crates env s code hwid).2, h, Bool.or_true]

variable (crates env) in
/-- The approval of the manager leaves it authorised. -/
theorem authorized_onAuthorize (h : s.authorized = true) :
    (s.onAuthorize crates env).authorized = true := by
  unfold onAuthorize
  dsimp only
  rw [sendLogonResponse_of_authorized]
  · split_ifs <;> exact h
  · exact h

end Connection

/-- An act in the name of an identity. -/
def Act.Under (gate : String → Bool) (i : Identity) : Act → Prop
  | .connAudit sessionId peer => sessionId = i.sessionId ∧ ∀ p ∈ peer, p = (i.myId, i.myName)
  | .fileAudit peerId name _ => peerId = i.myId ∧ name = i.myName
  | .checkRemoveSession key => key = i.key
  | .newWrite _ _ overwriteDetection => overwriteDetection = gate i.version

namespace HostConnection

variable {Totp : Type} {crates : Crates Totp} {canDetect : ℤ → Bool} {s t : HostConnection Totp}

/-- The entries of this connection in `AUTHED_CONNS`. -/
def own (s : HostConnection Totp) : List (ℤ × AuthConnType × SessionKey) :=
  s.authedConns.filter (·.1 = s.id)

/-- An authorised connection has the identity it was authorised with, it is registered under the
key of this identity, and it acted in its name only. -/
structure Faithful (gate : String → Bool) (s : HostConnection Totp) : Prop where
  unauthorized : s.login.authorized = false →
    s.authorizedAs = none ∧ s.own = [] ∧ (s.login.closed = false → s.acts = [])
  authorized : s.login.authorized = true →
    s.authorizedAs = some s.identity ∧ (∃ type, s.own = [(s.id, type, s.login.sessionKey)]) ∧
      ∀ a ∈ s.acts, a.Under gate s.identity

/-- After the authorisation, every login request that is taken over has the same identity. -/
def SameIdentity (s : HostConnection Totp) : ConnEvent → Prop
  | .message _ _ (.loginRequest lr _) => s.login.authorized = true → lr.identity = s.identity
  | .message _ _ (.switchSidesResponse _ (some (lr, _))) =>
    s.login.authorized = true → lr.identity = s.identity
  | _ => True

/-! ## Steps that leave the login alone -/

/-- The same login and registration, and acts in the name of the identity. A connection that
acts before it is authorised is left. -/
structure Continues (gate : String → Bool) (s t : HostConnection Totp) : Prop where
  lr : t.login.lr = s.login.lr
  authorized : t.login.authorized = s.login.authorized
  id : t.id = s.id
  own : t.own = s.own
  authorizedAs : t.authorizedAs = s.authorizedAs
  authedConnId : t.authedConnId = s.authedConnId
  acts : ∃ more, t.acts = s.acts ++ more ∧ (∀ a ∈ more, a.Under gate s.identity) ∧
    (t.login.closed = false → s.login.authorized = false → more = [])
  closed : t.login.closed = false → s.login.closed = false

variable {gate : String → Bool}

/-- Doing nothing goes on. -/
theorem Continues.refl : Continues gate s s where
  lr := rfl
  authorized := rfl
  id := rfl
  own := rfl
  authorizedAs := rfl
  authedConnId := rfl
  acts := ⟨[], by simp, by simp, fun _ _ => rfl⟩
  closed h := h

/-- What goes on keeps its identity. -/
theorem Continues.identity (h : Continues gate s t) : t.identity = s.identity :=
  congrArg LoginRequest.identity h.lr

/-- Two steps that go on are one. -/
theorem Continues.trans {u : HostConnection Totp} (hst : Continues gate s t)
    (htu : Continues gate t u) : Continues gate s u := by
  obtain ⟨more, hmore, hunder, hquiet⟩ := hst.acts
  obtain ⟨later, hlater, hunder', hquiet'⟩ := htu.acts
  refine ⟨htu.lr.trans hst.lr, htu.authorized.trans hst.authorized, htu.id.trans hst.id,
    htu.own.trans hst.own, htu.authorizedAs.trans hst.authorizedAs,
    htu.authedConnId.trans hst.authedConnId, ⟨more ++ later, ?_, ?_, ?_⟩,
    fun h => hst.closed (htu.closed h)⟩
  · rw [hlater, hmore, List.append_assoc]
  · intro a ha
    rcases List.mem_append.mp ha with ha | ha
    · exact hunder a ha
    · exact hst.identity ▸ hunder' a ha
  · intro hclosed hauth
    rw [hquiet (htu.closed hclosed) hauth, hquiet' hclosed (hst.authorized.trans hauth)]
    rfl

/-- What such a step leaves faithful. -/
theorem Continues.faithful (h : Continues gate s t) (hs : s.Faithful gate) : t.Faithful gate := by
  obtain ⟨more, hmore, hunder, hquiet⟩ := h.acts
  constructor
  · intro hauth
    rw [h.authorized] at hauth
    obtain ⟨hnone, hown, hacts⟩ := hs.unauthorized hauth
    refine ⟨h.authorizedAs.trans hnone, h.own.trans hown, fun hclosed => ?_⟩
    rw [hmore, hacts (h.closed hclosed), hquiet hclosed hauth]
    rfl
  · intro hauth
    rw [h.authorized] at hauth
    obtain ⟨hsome, ⟨type, hown⟩, hacts⟩ := hs.authorized hauth
    refine ⟨?_, ⟨type, ?_⟩, ?_⟩
    · rw [h.authorizedAs, h.identity, hsome]
    · rw [h.own, h.id, Connection.sessionKey, h.lr, hown]
      rfl
    · rw [hmore, h.identity]
      intro a ha
      exact (List.mem_append.mp ha).elim (hacts a) (hunder a)

/-- An update of fields that are not about the registration. -/
theorem Continues.of_eq (hlogin : t.login = s.login) (hid : t.id = s.id)
    (hconns : t.authedConns = s.authedConns) (has : t.authorizedAs = s.authorizedAs)
    (htype : t.authedConnId = s.authedConnId) (hacts : t.acts = s.acts) : Continues gate s t where
  lr := by rw [hlogin]
  authorized := by rw [hlogin]
  id := hid
  own := by rw [HostConnection.own, HostConnection.own, hconns, hid]
  authorizedAs := has
  authedConnId := htype
  acts := ⟨[], by rw [hacts, List.append_nil], by simp, fun _ _ => rfl⟩
  closed h := hlogin ▸ h

/-- Effects go on. -/
theorem continues_perform (effects : List Effect) : Continues gate s (s.perform effects) :=
  .of_eq rfl rfl rfl rfl rfl rfl

/-- An act of an authorised connection goes on if it is under its identity. -/
theorem continues_act {a : Act} (ha : a.Under gate s.identity)
    (hauth : s.login.authorized = true) : Continues gate s (s.act a) where
  lr := rfl
  authorized := rfl
  id := rfl
  own := rfl
  authorizedAs := rfl
  authedConnId := rfl
  acts := ⟨[a], rfl, by simpa using ha, fun _ h => by simp [hauth] at h⟩
  closed h := h

/-- Taking the keyboard away goes on. -/
theorem continues_setDisableKeyboard (q : Option BoolOption) :
    Continues gate s (s.setDisableKeyboard q) := by
  unfold setDisableKeyboard
  split <;> exact .of_eq rfl rfl rfl rfl rfl rfl

/-- Blocking the input goes on. -/
theorem continues_setBlockInput (q : Option BoolOption) :
    Continues gate s (s.setBlockInput q) := by
  unfold setBlockInput
  split_ifs
  · split
    · apply continues_perform
    · apply continues_perform
    · exact .refl
  · exact .refl

/-- Options go on. -/
theorem continues_updateOptions (o : OptionMessage) : Continues gate s (s.updateOptions o) :=
  (continues_setDisableKeyboard _).trans (continues_setBlockInput _)

/-- A change of the size goes on. -/
theorem continues_changeResolution (desktop : Desktop) (d : Option ℕ) (r : Resolution) :
    Continues gate s (s.changeResolution desktop d r) := by
  unfold changeResolution
  split_ifs
  · split
    · apply continues_perform
    · exact .refl
  · exact .refl

/-- A switch of the display goes on. -/
theorem continues_handleSwitchDisplay (desktop : Desktop) (display : ℕ) (r : Resolution) :
    Continues gate s (s.handleSwitchDisplay desktop display r) := by
  have hswitched : Continues gate s { s with displayIdx := display } :=
    .of_eq rfl rfl rfl rfl rfl rfl
  unfold handleSwitchDisplay
  dsimp only
  split_ifs
  · exact hswitched.trans (continues_changeResolution desktop none r)
  · exact hswitched
  · exact .refl

/-- Leaving is audited, and it is the last act. -/
theorem continues_leave : Continues gate s s.leave where
  lr := rfl
  authorized := rfl
  id := rfl
  own := rfl
  authorizedAs := rfl
  authedConnId := rfl
  acts := ⟨[.connAudit s.login.lr.sessionId none], rfl, by simp [Act.Under, identity,
    LoginRequest.identity], nofun⟩
  closed := nofun

/-- Removing the session goes on. -/
theorem continues_removeAndLeave :
    Continues gate s s.removeAndLeave where
  lr := rfl
  authorized := rfl
  id := rfl
  own := rfl
  authorizedAs := rfl
  authedConnId := rfl
  acts := ⟨[.checkRemoveSession s.login.sessionKey, .connAudit s.login.lr.sessionId none],
    by simp [removeAndLeave, leave, postConnAudit, act, checkRemoveSession],
    by simp [Act.Under, identity, LoginRequest.identity, Identity.key, Connection.sessionKey],
    nofun⟩
  closed := nofun

/-- The end of a forwarding goes on. -/
theorem continues_leaveForward : Continues gate s s.leaveForward := by
  unfold leaveForward
  split_ifs
  · exact continues_removeAndLeave
  · exact continues_leave

/-- The version of a peer decides whether overwriting is detected. -/
def gateOf (crates : Crates Totp) (canDetect : ℤ → Bool) (version : String) : Bool :=
  canDetect (crates.getVersionNumber version)

/-- A message of the control goes on. -/
theorem continues_onControl (hauth : s.login.authorized = true) (desktop : Desktop)
    (m : ConnMessage) :
    Continues (gateOf crates canDetect) s (s.onControl crates canDetect desktop m) := by
  have haudit (path : String) : Continues (gateOf crates canDetect) s (s.postFileAudit path) :=
    continues_act ⟨rfl, rfl⟩ hauth
  cases m with
  | mouseEvent me =>
    simp only [onControl]
    split_ifs
    · apply continues_perform
    · exact .refl
  | pointerDeviceEvent pde =>
    simp only [onControl]
    split_ifs
    · apply continues_perform
    · exact .refl
  | keyEvent me =>
    simp only [onControl]
    split_ifs
    · apply continues_perform
    · exact .refl
  | option o => exact continues_updateOptions o
  | switchDisplay display r => exact continues_handleSwitchDisplay desktop display r
  | changeResolution r => exact continues_changeResolution desktop none r
  | changeDisplayResolution display r => exact continues_changeResolution desktop (some display) r
  | restartRemoteDevice =>
    simp only [onControl]
    split_ifs
    · apply continues_perform
    · exact .refl
  | fileSend path readable =>
    simp only [onControl]
    split_ifs
    · exact haudit path
    · exact .refl
  | fileReceive id path =>
    simp only [onControl]
    split_ifs
    · refine Continues.trans (continues_act (a := .newWrite id path _) rfl hauth) ?_
      exact continues_act ⟨rfl, rfl⟩ hauth
    · exact .refl
  | closeReason => exact continues_removeAndLeave
  | _ => exact .refl

/-! ## Steps of the login -/

/-- A login that changes no authorisation registers nothing. -/
theorem afterLogin_of_authorized (hauth : s.login.authorized = true) (login : Connection Totp)
    (desktop : Desktop) :
    s.afterLogin login desktop =
      if login.closed then { s with login := login }.leaveForward else { s with login := login } := by
  simp [afterLogin, hauth]

/-- A step of the login of an authorised connection is faithful exactly if the identity stays. -/
theorem Faithful.afterLogin_iff (hs : s.Faithful gate) (hauth : s.login.authorized = true)
    {login : Connection Totp} (hlogin : login.authorized = true) (desktop : Desktop) :
    (s.afterLogin login desktop).Faithful gate ↔ login.lr.identity = s.identity := by
  obtain ⟨hsome, ⟨type, hown⟩, hacts⟩ := hs.authorized hauth
  let t : HostConnection Totp := { s with login := login }
  have hafter : s.afterLogin login desktop = if login.closed then t.leaveForward else t :=
    afterLogin_of_authorized hauth login desktop
  -- Whether or not it is left, what it is registered as is what it was authorised for.
  have hkept : (s.afterLogin login desktop).authorizedAs = some s.identity ∧
      (s.afterLogin login desktop).identity = login.lr.identity ∧
      (s.afterLogin login desktop).login.authorized = true := by
    rw [hafter]
    split_ifs
    · have hleft : Continues gate t t.leaveForward := continues_leaveForward
      exact ⟨hleft.authorizedAs.trans hsome, hleft.identity, hleft.authorized.trans hlogin⟩
    · exact ⟨hsome, rfl, hlogin⟩
  obtain ⟨has, hidentity, hauth'⟩ := hkept
  constructor
  · intro ht
    have hsame := (ht.authorized hauth').1
    rw [has, hidentity] at hsame
    exact (Option.some.inj hsame).symm
  · intro hsame
    have hkey : t.login.sessionKey = s.login.sessionKey := congrArg Identity.key hsame
    have ht : t.Faithful gate := by
      refine ⟨fun hnot => by simp [t, hlogin] at hnot, fun _ => ⟨?_, ⟨type, ?_⟩, ?_⟩⟩
      · exact hsome.trans (congrArg some hsame.symm)
      · rw [hkey]
        exact hown
      · intro a ha
        have hunder := hacts a ha
        rwa [← show t.identity = s.identity from hsame] at hunder
    rw [hafter]
    split_ifs
    · exact continues_leaveForward.faithful ht
    · exact ht

/-- The options of the login go on. -/
theorem continues_updateOptionsInLogin : Continues gate s s.updateOptionsInLogin := by
  unfold updateOptionsInLogin
  split
  · exact Continues.trans (t := s.takeOptionsInLogin) (.of_eq rfl rfl rfl rfl rfl rfl)
      (continues_updateOptions _)
  · exact .refl

/-- The entry a connection gets when it is authorised is its only one. -/
theorem own_register (hown : s.own = []) :
    s.register.own = [(s.id, s.authConnType, s.login.sessionKey)] := by
  unfold own register
  rw [List.filter_append, show s.authedConns.filter (·.1 = s.id) = [] from hown]
  simp

/-- The step that authorises a connection registers it under its identity. -/
theorem faithful_onAuthorized (hown : s.own = []) (hacts : s.acts = [])
    (hauth : s.login.authorized = true) (desktop : Desktop) :
    (s.onAuthorized desktop).Faithful gate := by
  let audited := s.register.postConnAudit (some (s.login.lr.myId, s.login.lr.myName))
  have haudited : audited.Faithful gate := by
    refine ⟨fun hnot => ?_, fun _ => ⟨rfl, ⟨s.authConnType, own_register hown⟩, ?_⟩⟩
    · exact absurd (hnot.symm.trans hauth) (by simp)
    · intro a ha
      have ha : a =
          .connAudit s.login.lr.sessionId (some (s.login.lr.myId, s.login.lr.myName)) := by
        simpa [audited, register, postConnAudit, act, hacts] using ha
      subst ha
      exact ⟨rfl, fun p hp => (Option.mem_some.mp hp).symm⟩
  unfold onAuthorized
  dsimp only
  split_ifs
  · exact haudited
  · exact haudited
  · exact continues_updateOptionsInLogin.faithful haudited

/-- A step of the login of a connection that is not authorised keeps it faithful. -/
theorem Faithful.afterLogin (hs : s.Faithful gate) (hauth : s.login.authorized = false)
    (hopen : s.login.closed = false) (login : Connection Totp) (desktop : Desktop) :
    (s.afterLogin login desktop).Faithful gate := by
  obtain ⟨hnone, hown, hacts⟩ := hs.unauthorized hauth
  let t : HostConnection Totp := { s with login := login }
  let u := if login.authorized && !s.login.authorized then t.onAuthorized desktop else t
  have hu : u.Faithful gate := by
    simp only [u, hauth, Bool.not_false, Bool.and_true]
    split_ifs with hlogin
    · exact faithful_onAuthorized (s := t) hown (hacts hopen) hlogin desktop
    · refine ⟨fun _ => ⟨hnone, hown, fun _ => hacts hopen⟩, fun hyes => ?_⟩
      exact absurd hyes hlogin
  rw [show s.afterLogin login desktop = if login.closed then u.leaveForward else u from rfl]
  split_ifs
  · exact continues_leaveForward.faithful hu
  · exact hu

/-- Which steps of the login are faithful. -/
theorem Faithful.login_iff (hs : s.Faithful gate) (hopen : s.login.closed = false)
    {login : Connection Totp} (hstays : s.login.authorized = true → login.authorized = true)
    (desktop : Desktop) :
    (s.afterLogin login desktop).Faithful gate ↔
      (s.login.authorized = true → login.lr.identity = s.identity) := by
  cases hauth : s.login.authorized with
  | false => simp [hs.afterLogin hauth hopen]
  | true => simp [hs.afterLogin_iff hauth (hstays hauth)]

/-! ## Steps and runs -/

/-- Keeping the options goes on. -/
theorem continues_keepOptions (options : Option OptionMessage) :
    Continues gate s (s.keepOptions options) :=
  .of_eq rfl rfl rfl rfl rfl rfl

/-- A permission that changes goes on. -/
theorem continues_switchPermission (enabled : Bool) (name : Permission) :
    Continues gate s (s.switchPermission enabled name) := by
  cases name <;> exact .of_eq rfl rfl rfl rfl rfl rfl

/-- Others write entries of their own. -/
theorem continues_afterWorld (tables : Tables) (others : List (ℤ × AuthConnType × SessionKey)) :
    Continues gate s (s.afterWorld tables others) where
  lr := rfl
  authorized := rfl
  id := rfl
  own := by
    unfold own afterWorld
    rw [List.filter_append, List.filter_filter, List.filter_filter]
    simp
  authorizedAs := rfl
  authedConnId := rfl
  acts := ⟨[], by simp [afterWorld], by simp, fun _ _ => rfl⟩
  closed h := h

/-- A message is faithful exactly if it does not bring another identity. -/
theorem Faithful.onMessage_iff (hs : s.Faithful (gateOf crates canDetect))
    (hopen : s.login.closed = false) (env : Surroundings) (desktop : Desktop) (m : ConnMessage) :
    (s.onMessage crates canDetect env desktop m).Faithful (gateOf crates canDetect) ↔
      s.SameIdentity (.message env desktop m) := by
  have hcontrol (m : ConnMessage) :
      (if s.login.authorized ∧ ¬ s.login.portForwardSocket then
        s.onControl crates canDetect desktop m else s).Faithful (gateOf crates canDetect) := by
    split_ifs with hauth
    · exact (continues_onControl hauth.1 desktop m).faithful hs
    · exact hs
  cases m with
  | loginRequest lr options =>
    have hkept := (continues_keepOptions options).faithful hs
    have hiff := hkept.login_iff hopen
      (fun hauth => Connection.authorized_onLoginRequest crates env hauth lr) desktop
    rw [Connection.onLoginRequest_lr] at hiff
    exact hiff
  | switchSidesResponse uuid lr =>
    have hkept := (continues_keepOptions (lr.bind Prod.snd)).faithful hs
    have hiff := hkept.login_iff hopen
      (fun hauth => Connection.authorized_onSwitchSides crates env hauth uuid (lr.map Prod.fst))
      desktop
    cases lr with
    | none => exact hiff.trans (iff_of_true (fun _ => rfl) trivial)
    | some lr =>
      rw [Option.map_some, Connection.onSwitchSides_lr] at hiff
      exact hiff
  | auth2fa code hwid =>
    have hiff := hs.login_iff hopen
      (fun hauth => Connection.authorized_onAuth2fa crates env hauth code hwid) desktop
    rw [Connection.onAuth2fa_lr] at hiff
    exact hiff.trans (iff_of_true (fun _ => rfl) trivial)
  | _ => exact iff_of_true (hcontrol _) trivial

/-- **One step.** The condition says exactly which steps keep a connection faithful. -/
theorem step_faithful_iff {e : ConnEvent} (hstep : s.step crates canDetect e = some t)
    (hs : s.Faithful (gateOf crates canDetect)) :
    t.Faithful (gateOf crates canDetect) ↔ s.SameIdentity e := by
  unfold step at hstep
  split_ifs at hstep with hclosed
  rw [Bool.not_eq_true] at hclosed
  cases e with
  | message env desktop m =>
    obtain rfl := Option.some.inj hstep
    exact hs.onMessage_iff hclosed env desktop m
  | authorize env desktop =>
    obtain rfl := Option.some.inj hstep
    have hiff := hs.login_iff hclosed
      (fun hauth => Connection.authorized_onAuthorize crates env hauth) desktop
    rw [Connection.onAuthorize_lr] at hiff
    exact hiff.trans (iff_of_true (fun _ => rfl) trivial)
  | switchPermission name enabled =>
    obtain rfl := Option.some.inj hstep
    exact iff_of_true ((continues_switchPermission enabled name).faithful hs) trivial
  | world tables others =>
    obtain rfl := Option.some.inj hstep
    exact iff_of_true ((continues_afterWorld tables others).faithful hs) trivial
  | cmClose =>
    obtain rfl := Option.some.inj hstep
    exact iff_of_true (continues_removeAndLeave.faithful hs) trivial
  | forward =>
    simp only [turn] at hstep
    split_ifs at hstep
    obtain rfl := Option.some.inj hstep
    exact iff_of_true (continues_leaveForward.faithful hs) trivial
  | timeout =>
    obtain rfl := Option.some.inj hstep
    exact iff_of_true (continues_leave.faithful hs) trivial

/-- What an authorised connection was authorised for is fixed. -/
structure Fixed (s t : HostConnection Totp) : Prop where
  authorized : s.login.authorized = true → t.login.authorized = true
  authorizedAs : s.login.authorized = true → t.authorizedAs = s.authorizedAs
  authedConnId : s.login.authorized = true → t.authedConnId = s.authedConnId

/-- Doing nothing keeps what is fixed. -/
theorem Fixed.refl : s.Fixed s := ⟨fun h => h, fun _ => rfl, fun _ => rfl⟩

variable (gate) in
/-- What goes on keeps what is fixed. -/
theorem Continues.fixed (h : Continues gate s t) : s.Fixed t where
  authorized hauth := h.authorized.trans hauth
  authorizedAs _ := h.authorizedAs
  authedConnId _ := h.authedConnId

/-- Two steps that keep it are one. -/
theorem Fixed.trans {u : HostConnection Totp} (hst : s.Fixed t) (htu : t.Fixed u) : s.Fixed u where
  authorized hauth := htu.authorized (hst.authorized hauth)
  authorizedAs hauth := (htu.authorizedAs (hst.authorized hauth)).trans (hst.authorizedAs hauth)
  authedConnId hauth := (htu.authedConnId (hst.authorized hauth)).trans (hst.authedConnId hauth)

/-- Only of an authorised connection something is asked. -/
theorem Fixed.of_authorized (h : s.login.authorized = true → s.Fixed t) : s.Fixed t where
  authorized hauth := (h hauth).authorized hauth
  authorizedAs hauth := (h hauth).authorizedAs hauth
  authedConnId hauth := (h hauth).authedConnId hauth

/-- What follows a login keeps what is fixed, if it does not take the authorisation away. -/
theorem fixed_afterLogin {login : Connection Totp}
    (hstays : s.login.authorized = true → login.authorized = true) (desktop : Desktop) :
    s.Fixed (s.afterLogin login desktop) := by
  apply Fixed.of_authorized
  intro hauth
  have hlogin : s.Fixed { s with login := login } := ⟨hstays, fun _ => rfl, fun _ => rfl⟩
  rw [afterLogin_of_authorized hauth]
  split_ifs
  · exact hlogin.trans (Continues.fixed (fun _ => true) continues_leaveForward)
  · exact hlogin

/-- A message keeps what is fixed. -/
theorem fixed_onMessage (env : Surroundings) (desktop : Desktop) (m : ConnMessage) :
    s.Fixed (s.onMessage crates canDetect env desktop m) := by
  have hkeep (options : Option OptionMessage) : s.Fixed (s.keepOptions options) :=
    Continues.fixed (fun _ => true) (continues_keepOptions options)
  have hcontrol (m : ConnMessage) :
      s.Fixed (if s.login.authorized ∧ ¬ s.login.portForwardSocket then
        s.onControl crates canDetect desktop m else s) := by
    split_ifs with hauth
    · exact Continues.fixed _ (continues_onControl hauth.1 desktop m)
    · exact .refl
  cases m with
  | loginRequest lr options =>
    refine (hkeep options).trans (fixed_afterLogin (fun hauth => ?_) desktop)
    exact Connection.authorized_onLoginRequest crates env hauth lr
  | switchSidesResponse uuid lr =>
    refine (hkeep (lr.bind Prod.snd)).trans (fixed_afterLogin (fun hauth => ?_) desktop)
    exact Connection.authorized_onSwitchSides crates env hauth uuid (lr.map Prod.fst)
  | auth2fa code hwid =>
    refine fixed_afterLogin (fun hauth => ?_) desktop
    exact Connection.authorized_onAuth2fa crates env hauth code hwid
  | _ => exact hcontrol _

/-- **One step** keeps what is fixed. -/
theorem fixed_step {e : ConnEvent} (hstep : s.step crates canDetect e = some t) : s.Fixed t := by
  unfold step at hstep
  split_ifs at hstep with hclosed
  cases e with
  | message env desktop m =>
    obtain rfl := Option.some.inj hstep
    exact fixed_onMessage env desktop m
  | authorize env desktop =>
    obtain rfl := Option.some.inj hstep
    exact fixed_afterLogin (fun hauth => Connection.authorized_onAuthorize crates env hauth) desktop
  | switchPermission name enabled =>
    obtain rfl := Option.some.inj hstep
    exact Continues.fixed (fun _ => true) (continues_switchPermission enabled name)
  | world tables others =>
    obtain rfl := Option.some.inj hstep
    exact Continues.fixed (fun _ => true) (continues_afterWorld tables others)
  | cmClose =>
    obtain rfl := Option.some.inj hstep
    exact Continues.fixed (fun _ => true) continues_removeAndLeave
  | forward =>
    simp only [turn] at hstep
    split_ifs at hstep
    obtain rfl := Option.some.inj hstep
    exact Continues.fixed (fun _ => true) continues_leaveForward
  | timeout =>
    obtain rfl := Option.some.inj hstep
    exact Continues.fixed (fun _ => true) continues_leave

/-- A connection as it is opened: neither authorised nor registered. -/
structure New (s : HostConnection Totp) : Prop where
  authorized : s.login.authorized = false
  authorizedAs : s.authorizedAs = none
  authedConnId : s.authedConnId = none
  own : s.own = []
  acts : s.acts = []
  effects : s.effects = []

/-- A new connection has done nothing. -/
theorem New.faithful (h : s.New) : s.Faithful gate where
  unauthorized _ := ⟨h.authorizedAs, h.own, fun _ => h.acts⟩
  authorized hauth := by simp [h.authorized] at hauth

/-- In every state of the run the connection is faithful, and from any state in which it is
authorised it keeps its identity and its key until the end of the run. -/
def ImmutableIdentity (crates : Crates Totp) (canDetect : ℤ → Bool) (s : HostConnection Totp)
    (events : List ConnEvent) : Prop :=
  ∀ first u, first <+: events → (hostMachine crates canDetect s).Run s first u →
    u.Faithful (gateOf crates canDetect) ∧
    ∀ later v, first ++ later <+: events → (hostMachine crates canDetect s).Run u later v →
      u.login.authorized = true → v.identity = u.identity

/-- **Authorised identity.** From a new connection, the identity of an authorised connection is
the one it is registered and acts under, and does not change, if and only if no login request
or answer to a switch of sides brings another one after the authorisation. -/
theorem immutableIdentity_iff_sameIdentity {Totp : Type} (crates : Crates Totp)
    (canDetect : ℤ → Bool) (s t : HostConnection Totp) (events : List ConnEvent) (hnew : s.New)
    (hrun : (hostMachine crates canDetect s).Run s events t) :
    s.ImmutableIdentity crates canDetect events ↔
      (hostMachine crates canDetect s).RunWhere SameIdentity s events t := by
  have hfaithful := Machine.runWhere_iff_invariant (M := hostMachine crates canDetect s)
    (fun _ _ _ hstep hs => step_faithful_iff hstep hs) hnew.faithful hrun
  constructor
  · intro h
    exact hfaithful.mp fun first u hfirst hu => (h first u hfirst hu).1
  · intro hwhere first u hfirst hu
    have hu' := hfaithful.mpr hwhere first u hfirst hu
    refine ⟨hu', fun later v hlater hv hauth => ?_⟩
    have hv' := hfaithful.mpr hwhere (first ++ later) v hlater (hu.append hv)
    have hfixed : u.Fixed v := hv.relates (R := Fixed) (fun _ => .refl)
      (fun _ _ _ => Fixed.trans) (fun _ _ _ _ hstep => fixed_step hstep)
    have huas := (hu'.authorized hauth).1
    have hvas := (hv'.authorized (hfixed.authorized hauth)).1
    rw [hfixed.authorizedAs hauth, huas] at hvas
    exact (Option.some.inj hvas).symm

/-! ## A second login request -/

/-- A desktop without displays. -/
def demoDesktop : Desktop where
  displays := none
  serverAlive := true
  unsupportedDisplay := false

/-- A connection that may do everything. -/
def demoConnection : HostConnection (ℕ → String) where
  login := Connection.newConnection
  id := 7
  keyboard := true
  restart := true
  blockInput := true
  disableKeyboard := false
  displayIdx := 0
  optionsInLogin := none
  authedConnId := none
  authedConns := []
  effects := []
  acts := []
  authorizedAs := none

/-- It is new. -/
theorem demoConnection_new : demoConnection.New := ⟨rfl, rfl, rfl, rfl, rfl, rfl⟩

/-- A login without a password. -/
def loginAs (myId : String) : ConnEvent :=
  .message Connection.demoSurroundings demoDesktop
    (.loginRequest ⟨"host", [], myId, myId, "", "1.3.0", [], 1, false, .none⟩ none)

/-- The manager approves. -/
def authorizeEvent : ConnEvent := .authorize Connection.demoSurroundings demoDesktop

/-- The peer closes. -/
def closeReasonEvent : ConnEvent :=
  .message Connection.demoSurroundings demoDesktop .closeReason

/-- Whether a step keeps the identity is decided by its message. -/
instance (s : HostConnection Totp) (e : ConnEvent) : Decidable (s.SameIdentity e) := by
  unfold SameIdentity
  split <;> infer_instance

/-- The demo connection on the demo host. -/
abbrev demoHost : Machine (HostConnection (ℕ → String)) ConnEvent :=
  hostMachine Connection.demoCrates (fun _ => true) demoConnection

/-- A peer that logs in again under its own name stays who it is. -/
theorem immutableIdentity_login_again :
    ∃ t, demoHost.Run demoConnection
        [loginAs "alice", authorizeEvent, loginAs "alice", closeReasonEvent] t ∧
      demoConnection.ImmutableIdentity Connection.demoCrates (fun _ => true)
        [loginAs "alice", authorizeEvent, loginAs "alice", closeReasonEvent] := by
  have hwhere : ∃ t, demoHost.RunWhere SameIdentity demoConnection
      [loginAs "alice", authorizeEvent, loginAs "alice", closeReasonEvent] t :=
    ⟨_, Machine.runWhere_of_replayWhere rfl⟩
  obtain ⟨t, hwhere⟩ := hwhere
  exact ⟨t, hwhere.run, (immutableIdentity_iff_sameIdentity Connection.demoCrates _
    demoConnection t _ demoConnection_new hwhere.run).mpr hwhere⟩

/-- A peer authorised as one removes the session of another after it logs in again. -/
theorem not_immutableIdentity_second_login :
    ∃ t, demoHost.Run demoConnection
        [loginAs "alice", authorizeEvent, loginAs "bob", closeReasonEvent] t ∧
      t.authorizedAs = some ⟨"alice", "alice", 1, "1.3.0"⟩ ∧
      t.own = [(7, .remote, ⟨"alice", "alice", 1⟩)] ∧
      Act.checkRemoveSession ⟨"bob", "bob", 1⟩ ∈ t.acts ∧
      ¬ demoConnection.ImmutableIdentity Connection.demoCrates (fun _ => true)
        [loginAs "alice", authorizeEvent, loginAs "bob", closeReasonEvent] := by
  have hrun : ∃ t, demoHost.Run demoConnection
      [loginAs "alice", authorizeEvent, loginAs "bob", closeReasonEvent] t ∧
      t.authorizedAs = some ⟨"alice", "alice", 1, "1.3.0"⟩ ∧ t.identity.myId = "bob" ∧
      t.login.authorized = true ∧ t.own = [(7, .remote, ⟨"alice", "alice", 1⟩)] ∧
      Act.checkRemoveSession ⟨"bob", "bob", 1⟩ ∈ t.acts :=
    ⟨_, Machine.run_of_replay rfl, rfl, rfl, rfl, rfl, by decide⟩
  obtain ⟨t, hrun, has, hid, hauth, hown, hacts⟩ := hrun
  refine ⟨t, hrun, has, hown, hacts, fun h => ?_⟩
  have hsame := ((h _ t (List.prefix_refl _) hrun).1.authorized hauth).1
  rw [has] at hsame
  have hmyId := congrArg Identity.myId (Option.some.inj hsame)
  rw [hid] at hmyId
  exact absurd hmyId (by decide)

end HostConnection

end RdWeb.Host
