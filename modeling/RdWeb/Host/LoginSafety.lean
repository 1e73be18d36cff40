import RdWeb.Host.Login

/-!
# When a connection is authorised without an approval

Every handler but one leaves an unauthorised connection so unless it recorded why.
The exception is the second factor: a valid code is answered like a finished login,
whether or not a password was validated before.
-/

namespace RdWeb.Host

namespace Connection

variable {Totp : Type} {crates : Crates Totp} {env : Surroundings} {s t u : Connection Totp}

/-- An authorised connection was approved. -/
def Safe (s : Connection Totp) : Prop := s.authorized = true → s.approvals ≠ []

/-- Neither authorised nor approved by what happened in between. -/
structure Quiet (s t : Connection Totp) : Prop where
  authorized : t.authorized = s.authorized
  approvals : t.approvals = s.approvals

/-- Authorised only with an approval. -/
structure Justified (s t : Connection Totp) : Prop where
  authorized : t.authorized = true → s.authorized = true ∨ t.approvals ≠ []
  approvals : s.approvals ≠ [] → t.approvals ≠ []

/-- A quiet step is justified. -/
theorem Quiet.justified (h : s.Quiet t) : s.Justified t where
  authorized ht := .inl (h.authorized ▸ ht)
  approvals hs := h.approvals ▸ hs

/-- Two quiet steps are quiet. -/
theorem Quiet.trans (hst : s.Quiet t) (htu : t.Quiet u) : s.Quiet u :=
  ⟨htu.authorized.trans hst.authorized, htu.approvals.trans hst.approvals⟩

/-- A quiet step may come before a justified one. -/
theorem Quiet.before (hst : s.Quiet t) (htu : t.Justified u) : s.Justified u where
  authorized hu := hst.authorized ▸ htu.authorized hu
  approvals hs := htu.approvals (hst.approvals.symm ▸ hs)

/-- A connection with an approval may be authorised. -/
theorem Justified.of_approved (h : t.approvals ≠ []) : s.Justified t :=
  ⟨fun _ => .inr h, fun _ => h⟩

/-- A justified step keeps the connection safe. -/
theorem Justified.safe (h : s.Justified t) (hs : s.Safe) : t.Safe := by
  intro ht
  rcases h.authorized ht with hauth | happr
  · exact h.approvals (hs hauth)
  · exact happr

/-! ## The helpers -/

/-- An error is quiet. -/
theorem quiet_sendLoginError (text : String) : s.Quiet (s.sendLoginError text) := ⟨rfl, rfl⟩

/-- Starting the manager is quiet. -/
theorem quiet_tryStartCm (peerId name : String) (authorized : Bool) :
    s.Quiet (s.tryStartCm peerId name authorized) := ⟨rfl, rfl⟩

/-- Closing is quiet. -/
theorem quiet_close : s.Quiet s.close := ⟨rfl, rfl⟩

/-- Doing nothing is quiet. -/
theorem quiet_refl : s.Quiet s := ⟨rfl, rfl⟩

/-- Keeping the session is quiet. -/
theorem quiet_updateOrInsertSession (password : List UInt8) (tfa : Bool) :
    s.Quiet (s.updateOrInsertSession env password tfa) := by
  unfold updateOrInsertSession
  split <;> exact ⟨rfl, rfl⟩

variable (env s) in
/-- Keeping the second factor is quiet. -/
theorem quiet_setSession2fa : s.Quiet (s.setSession2fa env) := by
  unfold setSession2fa
  split <;> exact ⟨rfl, rfl⟩

variable (crates env s) in
/-- Checking the password is quiet. -/
theorem quiet_validatePassword : s.Quiet (s.validatePassword crates env).1 := by
  unfold validatePassword
  split_ifs
  · exact quiet_updateOrInsertSession _ _
  · exact quiet_refl

variable (crates env s) in
/-- Looking for a recent session is quiet. -/
theorem quiet_isRecentSession (tfa : Bool) : s.Quiet (s.isRecentSession crates env tfa).1 :=
  ⟨rfl, rfl⟩

variable (env s) in
/-- Taking the request is quiet. -/
theorem quiet_handleLoginRequestWithoutValidation (lr : LoginRequest) :
    s.Quiet (s.handleLoginRequestWithoutValidation env lr) := ⟨rfl, rfl⟩

variable (env s) in
/-- Checking the failures is quiet. -/
theorem quiet_checkFailure (i : Fin 2) : s.Quiet (s.checkFailure env i).1 := by
  unfold checkFailure
  dsimp only
  split_ifs <;> exact ⟨rfl, rfl⟩

variable (env s) in
/-- Counting a failure is quiet. -/
theorem quiet_updateFailure (failure : Failure) (remove : Bool) (i : Fin 2) :
    s.Quiet (s.updateFailure env failure remove i) := by
  unfold updateFailure
  split_ifs <;> exact ⟨rfl, rfl⟩

/-- Accepting the kind of a connection is quiet. -/
theorem quiet_acceptUnion (union : LoginUnion) : s.Quiet (s.acceptUnion env union).1 := by
  cases union with
  | fileTransfer => unfold acceptUnion; split_ifs <;> exact ⟨rfl, rfl⟩
  | portForward => unfold acceptUnion; dsimp only; split_ifs <;> exact ⟨rfl, rfl⟩
  | none => unfold acceptUnion; split_ifs <;> exact ⟨rfl, rfl⟩

/-- `send_logon_response` may authorise, but approves nothing. -/
@[simp] theorem sendLogonResponse_approvals :
    (s.sendLogonResponse crates env).approvals = s.approvals := by
  unfold sendLogonResponse
  dsimp only
  split_ifs <;> rfl

variable (crates env) in
/-- Without a second factor the logon response authorises. -/
theorem sendLogonResponse_authorized (h : s.require2fa = none) :
    (s.sendLogonResponse crates env).authorized = true := by
  unfold sendLogonResponse
  split_ifs with hauth htfa
  · exact hauth
  · simp [h] at htfa
  · rfl

/-! ## The handlers -/

/-- What follows an approval approves nothing more. -/
theorem onApproved_approvals (lr : LoginRequest) :
    (s.onApproved crates env lr).approvals = s.approvals := by
  unfold onApproved
  split_ifs
  · exact sendLogonResponse_approvals
  · rfl

/-- After an approval there is one. -/
theorem approve_ne_nil (a : Approval) : (s.approve a).approvals ≠ [] := by simp [approve]

/-- A login is justified by the approval before it. -/
theorem justified_onApproved (a : Approval) (lr : LoginRequest) :
    s.Justified ((s.approve a).onApproved crates env lr) :=
  .of_approved (by rw [onApproved_approvals]; exact approve_ne_nil a)

/-- A login with a password is justified. -/
theorem justified_onPassword (lr : LoginRequest) :
    s.Justified (s.onPassword crates env lr) := by
  have hcheck := quiet_checkFailure env s 0
  unfold onPassword
  rcases hchecked : s.checkFailure env 0 with ⟨checked, failure, passed⟩
  rw [hchecked] at hcheck
  refine hcheck.before ?_
  have hupdate := (quiet_validatePassword crates env checked).trans
    (quiet_updateFailure env _ failure (checked.validatePassword crates env).2 0)
  dsimp only
  split_ifs
  · exact quiet_refl.justified
  · exact hupdate.before (justified_onApproved _ lr)
  · exact (hupdate.trans ((quiet_sendLoginError _).trans (quiet_tryStartCm _ _ _))).justified
  · exact (hupdate.trans (quiet_sendLoginError _)).justified

/-- A login by its credentials is justified. -/
theorem justified_onCredentials (lr : LoginRequest) :
    s.Justified (s.onCredentials crates env lr) := by
  have hrecent := quiet_isRecentSession crates env s false
  unfold onCredentials
  rcases hretained : s.isRecentSession crates env false with ⟨retained, recent⟩
  rw [hretained] at hrecent
  dsimp only
  split_ifs
  · exact ((quiet_sendLoginError _).trans quiet_close).justified
  · exact ((quiet_tryStartCm _ _ _).trans (quiet_sendLoginError _)).justified
  · exact (quiet_tryStartCm _ _ _).justified
  · exact hrecent.before (justified_onApproved _ lr)
  · exact (hrecent.trans (quiet_tryStartCm _ _ _)).justified
  · exact (hrecent.trans (quiet_sendLoginError _)).justified
  · exact hrecent.before (justified_onPassword lr)

/-- A request to log in is justified. -/
theorem justified_onLoginRequest (lr : LoginRequest) :
    s.Justified (s.onLoginRequest crates env lr) := by
  unfold onLoginRequest
  refine (quiet_handleLoginRequestWithoutValidation env s lr).before ?_
  generalize s.handleLoginRequestWithoutValidation env lr = s
  dsimp only
  split_ifs with hauth haccepted hdesktop
  · exact quiet_refl.justified
  · exact ((quiet_acceptUnion lr.union).trans quiet_close).justified
  · exact ((quiet_acceptUnion lr.union).trans (quiet_sendLoginError _)).justified
  · exact (quiet_acceptUnion lr.union).before (justified_onCredentials lr)

/-- Switching sides is justified. -/
theorem justified_onSwitchSides (uuid : List UInt8) (lr : Option LoginRequest) :
    s.Justified (s.onSwitchSides crates env uuid lr) := by
  unfold onSwitchSides
  cases lr with
  | none => exact quiet_refl.justified
  | some lr =>
    refine (quiet_handleLoginRequestWithoutValidation env s lr).before ?_
    dsimp only
    split_ifs
    · exact .of_approved (by
        rw [(quiet_tryStartCm _ _ _).approvals, sendLogonResponse_approvals]
        exact approve_ne_nil _)
    · exact Quiet.justified ⟨rfl, rfl⟩

/-- The approval of the manager is justified. -/
theorem justified_onAuthorize : s.Justified (s.onAuthorize crates env) := by
  refine .of_approved ?_
  unfold onAuthorize
  dsimp only
  split_ifs
  · rw [quiet_close.approvals, sendLogonResponse_approvals]
    exact approve_ne_nil _
  · rw [sendLogonResponse_approvals]
    exact approve_ne_nil _

/-! ## The second factor -/

/-- No valid code is accepted before the connection was approved. -/
def CodeAfterApproval (crates : Crates Totp) (s : Connection Totp) : LoginEvent → Prop
  | .message env (.auth2fa code _) =>
    s.acceptsCode crates env code = true → s.approvals ≠ []
  | _ => True

/-- Whether a code comes after an approval is decided by the connection. -/
instance (e : LoginEvent) : Decidable (s.CodeAfterApproval crates e) := by
  unfold CodeAfterApproval
  split <;> infer_instance

variable (env s) in
/-- Checking the failures keeps the demand for a second factor. -/
theorem checkFailure_require2fa (i : Fin 2) :
    (s.checkFailure env i).1.require2fa = s.require2fa := by
  unfold checkFailure
  dsimp only
  split_ifs <;> rfl

/-- Keeping the session keeps the demand for a second factor. -/
theorem setSession2fa_require2fa : (s.setSession2fa env).require2fa = s.require2fa := by
  unfold setSession2fa
  split <;> rfl

variable (crates env s) in
/-- A valid code authorises whatever went before. -/
theorem onCodeAccepted_spec (hwid : List UInt8) :
    (s.onCodeAccepted crates env hwid).authorized = true ∧
      (s.onCodeAccepted crates env hwid).approvals = s.approvals := by
  let done : Connection Totp := { s with require2fa := none }
  have hnone : (done.setSession2fa env).require2fa = none := setSession2fa_require2fa
  have hauth := sendLogonResponse_authorized crates env hnone
  have hquiet := quiet_setSession2fa env done
  unfold onCodeAccepted
  dsimp only
  split_ifs
  · exact ⟨hauth, sendLogonResponse_approvals.trans hquiet.approvals⟩
  · exact ⟨hauth, sendLogonResponse_approvals.trans hquiet.approvals⟩

variable (crates env s) in
/-- What a code does: nothing to the authorisation where it is not accepted. -/
theorem onAuth2fa_spec (code : String) (hwid : List UInt8) :
    (s.onAuth2fa crates env code hwid).approvals = s.approvals ∧
      (s.onAuth2fa crates env code hwid).authorized =
        (s.acceptsCode crates env code || s.authorized) := by
  have hcheck := quiet_checkFailure env s 1
  have htfa := checkFailure_require2fa env s 1
  unfold onAuth2fa acceptsCode
  rcases hchecked : s.checkFailure env 1 with ⟨checked, failure, passed⟩
  rw [hchecked] at hcheck htfa
  dsimp only at hcheck htfa ⊢
  cases passed with
  | false => exact ⟨hcheck.approvals, by simpa using hcheck.authorized⟩
  | true =>
    rw [htfa]
    cases s.require2fa with
    | none => exact ⟨hcheck.approvals, by simpa using hcheck.authorized⟩
    | some totp =>
      have hupdate (remove : Bool) :=
        hcheck.trans (quiet_updateFailure env _ failure remove 1)
      rcases hcurrent : crates.checkCurrent totp code env.seconds with e | valid
      · simp [hcurrent, hcheck.approvals, hcheck.authorized]
      · cases valid with
        | true =>
          obtain ⟨hauth, happr⟩ := onCodeAccepted_spec crates env
            (checked.updateFailure env failure true 1) hwid
          simp [hcurrent, hauth, happr, (hupdate true).approvals]
        | false =>
          have hwrong := (hupdate false).trans (quiet_sendLoginError "Wrong 2FA Code")
          simp [hcurrent, hwrong.approvals, hwrong.authorized]

/-- **One step.** The condition says exactly which steps keep a connection safe. -/
theorem step_safe_iff {e : LoginEvent} (hstep : s.step crates e = some t) (hs : s.Safe) :
    t.Safe ↔ s.CodeAfterApproval crates e := by
  unfold step at hstep
  split_ifs at hstep with hclosed
  cases e with
  | message env m =>
    obtain rfl := Option.some.inj hstep
    cases m with
    | loginRequest lr => exact iff_of_true ((justified_onLoginRequest lr).safe hs) trivial
    | auth2fa code hwid =>
      obtain ⟨happr, hauth⟩ := onAuth2fa_spec crates env s code hwid
      simp only [Safe, CodeAfterApproval, onMessage, hauth, happr, Bool.or_eq_true]
      exact ⟨fun h hcode => h (.inl hcode), fun h => Or.rec h hs⟩
    | switchSidesResponse uuid lr =>
      exact iff_of_true ((justified_onSwitchSides uuid lr).safe hs) trivial
    | other => exact iff_of_true hs trivial
  | authorize env =>
    obtain rfl := Option.some.inj hstep
    exact iff_of_true (justified_onAuthorize.safe hs) trivial
  | world tables =>
    obtain rfl := Option.some.inj hstep
    exact iff_of_true hs trivial
  | close =>
    obtain rfl := Option.some.inj hstep
    exact iff_of_true hs trivial

/-- **Host login safety.** From a connection that is not authorised, all states of a run are
safe if and only if no valid code is accepted before an approval. -/
theorem safe_iff_codeAfterApproval {Totp : Type} (crates : Crates Totp) (s t : Connection Totp)
    (events : List LoginEvent) (hnew : s.authorized = false)
    (hrun : (loginMachine crates s).Run s events t) :
    (∀ first u, first <+: events → (loginMachine crates s).Run s first u → u.Safe) ↔
      (loginMachine crates s).RunWhere (CodeAfterApproval crates) s events t :=
  Machine.runWhere_iff_invariant (fun _ _ _ hstep hs => step_safe_iff hstep hs)
    (fun hauth => by simp [hnew] at hauth) hrun

/-! ## A code on a new connection -/

/-- A second factor given by the code of each second. -/
def demoCrates : Crates (ℕ → String) where
  sha256 bytes := bytes
  checkCurrent totp code seconds := .ok (totp seconds = code)
  isIpStr _ := false
  isDomainPortStr _ := false
  getVersionNumber _ := 0

/-- The surroundings of the demo. -/
def demoSurroundings : Surroundings where
  instant := 0
  seconds := 0
  minute := 0
  fileTransferEnabled := true
  tunnelEnabled := true
  inPrivacyMode := false
  connects := false
  desktopError := ""
  id := "host"
  approveMode := .both
  isPrelogin := false
  allowLogonScreenPassword := false
  hasValidPassword := true
  temporaryPassword := none
  permanentPassword := none
  enableTrustedDevices := false
  trustedDevices := []

/-- A connection as it is opened, on a host with a second factor. -/
def newConnection : Connection (ℕ → String) where
  authorized := false
  require2fa := some fun _ => "123456"
  lr := ⟨"", [], "", "", "", "", [], 0, false, .none⟩
  fromSwitch := false
  fileTransfer := none
  portForwardSocket := false
  portForwardAddress := ""
  videoAckRequired := false
  salt := []
  challenge := []
  ip := "10.0.0.1"
  closed := false
  tables := ⟨fun _ => none, fun _ => none, fun _ _ => none⟩
  sent := []
  toCm := []
  newTrustedDevices := []
  approvals := []

/-- A message with a code. -/
def codeMessage : LoginEvent := .message demoSurroundings (.auth2fa "123456" [])

/-- A connection the manager authorised first stays safe when the code comes. -/
theorem safe_iff_authorized_first :
    ∃ t, (loginMachine demoCrates newConnection).Run newConnection
        [.authorize demoSurroundings, codeMessage] t ∧
      ∀ first u, first <+: [.authorize demoSurroundings, codeMessage] →
        (loginMachine demoCrates newConnection).Run newConnection first u → u.Safe := by
  have hwhere : ∃ t, (loginMachine demoCrates newConnection).RunWhere
      (CodeAfterApproval demoCrates) newConnection
      [.authorize demoSurroundings, codeMessage] t :=
    ⟨_, Machine.runWhere_of_replayWhere rfl⟩
  obtain ⟨t, hwhere⟩ := hwhere
  exact ⟨t, hwhere.run, (safe_iff_codeAfterApproval demoCrates newConnection t _ rfl
    hwhere.run).mpr hwhere⟩

/-- One message with a valid code authorises a new connection: no password was asked for. -/
theorem not_safe_code_alone :
    ∃ t, (loginMachine demoCrates newConnection).Run newConnection [codeMessage] t ∧
      t.authorized = true ∧ t.approvals = [] ∧ ¬ t.Safe :=
  ⟨_, Machine.run_of_replay rfl, rfl, rfl, fun hsafe => hsafe rfl rfl⟩

end Connection

end RdWeb.Host
