import RdWeb.Client.Password

/-!
# Shared passwords are not remembered

A password that came from a shared one is stored for the peer only when a login succeeds while
passwords are remembered and its source is not recognised any more: the source was reset, or
the salt is not the one it was derived with.
-/

namespace RdWeb.SharedPassword

/-- A shared password is not recorded as one of the personal address book. -/
def Traced (password : Password) (source : PasswordSource) : Prop :=
  password.origin = .shared → password.bytes ≠ [] → ∀ p, source ≠ .personalAb p

/-- A password without a source is traced. -/
theorem traced_undefined (password : Password) : Traced password .undefined := by
  intro _ _ p h
  cases h

/-- A password with a shared source is traced. -/
theorem traced_sharedAb (password : Password) (p : String) : Traced password (.sharedAb p) := by
  intro _ _ p h
  cases h

/-- A password that is not shared is traced under any source. -/
theorem traced_of_origin_ne {password : Password} (h : password.origin ≠ .shared)
    (source : PasswordSource) : Traced password source :=
  fun horigin => absurd horigin h

/-- A password counts as personal if its source holds the same bytes. -/
theorem PasswordSource.isPersonalAb_iff {source : PasswordSource} {password : List UInt8} :
    source.isPersonalAb password = true ↔ password ≠ [] ∧ source = .personalAb password := by
  cases source with
  | personalAb p => by_cases hbytes : password = [] <;> simp [isPersonalAb, hbytes, eq_comm]
  | sharedAb p => simp [isPersonalAb]
  | undefined => simp [isPersonalAb]

namespace Candidate

variable {env : LoginEnv} {c : Candidate}

/-- The preset password is traced. -/
theorem traced_orPreset (h : Traced c.1 c.2) (passwordPreset salt : String) :
    Traced (c.orPreset env passwordPreset salt).1 (c.orPreset env passwordPreset salt).2 := by
  rw [orPreset]
  split_ifs
  · exact traced_undefined _
  · exact h

/-- A shared password is traced. -/
theorem traced_useShared (h : Traced c.1 c.2) (sharedPassword : Option String) (salt : String) :
    Traced (c.useShared env sharedPassword salt).1 (c.useShared env sharedPassword salt).2 := by
  cases sharedPassword with
  | none => exact h
  | some p =>
    rw [useShared]
    split_ifs
    · exact traced_sharedAb _ _
    · exact h

/-- The remembered password is traced. -/
theorem traced_orConfig (h : Traced c.1 c.2) (config : PeerConfig) :
    Traced (c.orConfig config).1 (c.orConfig config).2 := by
  rw [orConfig]
  split_ifs with hempty hconfig
  · exact traced_undefined _
  · exact fun _ hbytes => absurd hbytes hconfig
  · exact h

/-- The password of the personal address book is traced. -/
theorem traced_orPersonalAb (h : Traced c.1 c.2) (id : String) (ab : Ab) :
    Traced (c.orPersonalAb env id ab).1 (c.orPersonalAb env id ab).2 := by
  rw [orPersonalAb]
  split_ifs
  · split
    · split
      · split_ifs
        · exact traced_of_origin_ne (by simp) _
        · exact h
      · exact h
    · exact h
  · exact h
  · exact h

/-- The default password is traced. -/
theorem traced_orDefault (h : Traced c.1 c.2) (salt : String) :
    Traced (c.orDefault env salt).1 (c.orDefault env salt).2 := by
  rw [orDefault]
  split_ifs
  · exact traced_sharedAb _ _
  · exact h
  · exact h

end Candidate

namespace LoginConfigHandler

variable {env : LoginEnv} {lc : LoginConfigHandler}

/-- Starting a handler keeps its password traced. -/
theorem traced_initializeHandler (h : Traced lc.password lc.passwordSource) (id : String)
    (config : PeerConfig) (switchUuid sharedPassword : Option String)
    {connToken : Option ConnToken}
    (htoken : ∀ token ∈ connToken, Traced token.password token.passwordSource) :
    Traced (lc.initializeHandler id config switchUuid sharedPassword connToken).password
      (lc.initializeHandler id config switchUuid sharedPassword connToken).passwordSource := by
  cases connToken with
  | none => exact h
  | some token => exact htoken token rfl

/-- Answering a hash keeps the password traced. -/
theorem traced_handleHash (h : Traced lc.password lc.passwordSource) (passwordPreset : String)
    (hash : Hash) (ab : Ab) :
    Traced (lc.handleHash env passwordPreset hash ab).1.password
      (lc.handleHash env passwordPreset hash ab).1.passwordSource := by
  rw [handleHash]
  dsimp only
  by_cases huuid : (lc.switchUuid.map env.parsesUuid).getD false = true
  · rw [if_pos huuid]
    exact traced_undefined _
  · rw [if_neg huuid]
    have hstart : Traced (lc.password, lc.passwordSource).1 (lc.password, lc.passwordSource).2 := h
    exact Candidate.traced_orDefault (Candidate.traced_orPersonalAb (Candidate.traced_orConfig
      (Candidate.traced_useShared (Candidate.traced_orPreset hstart _ _) _ _) _) _ _) _

/-- A login error keeps the password traced. -/
theorem traced_handleLoginError (h : Traced lc.password lc.passwordSource) (config : PeerConfig)
    (err : String) :
    Traced (lc.handleLoginError config err).1.password
      (lc.handleLoginError config err).1.passwordSource := by
  rw [handleLoginError]
  split_ifs
  · exact traced_of_origin_ne (by simp [Password.empty]) _
  · exact h
  · exact h
  · exact h

/-- A typed password is traced. -/
theorem traced_handleLoginFromUi (h : Traced lc.password lc.passwordSource) (password : String)
    (remember : Bool) :
    Traced (lc.handleLoginFromUi env password remember).1.password
      (lc.handleLoginFromUi env password remember).1.passwordSource := by
  rw [handleLoginFromUi]
  dsimp only
  split_ifs with hpassword hempty hconfig
  · exact traced_undefined _
  · exact fun _ hbytes => absurd hbytes hconfig
  · exact h
  · exact traced_undefined _

/-- A login that succeeds finds no shared password to remember: passwords are not remembered,
this one is not shared, or empty, or stored already, or it is recognised. -/
def Recognised (env : LoginEnv) (lc : LoginConfigHandler) (password0 : Password) : Prop :=
  lc.remember = true → lc.password.origin = .shared → lc.password.bytes ≠ [] →
    lc.password.bytes ≠ password0.bytes →
      lc.passwordSource.isSharedAb env lc.password.bytes lc.hash = true

/-- What is stored after a login is shared only if a shared password is not recognised. -/
theorem rememberedPassword_origin_iff (h : Traced lc.password lc.passwordSource)
    {password0 : Password} (hold : password0.origin ≠ .shared) :
    (lc.rememberedPassword env password0).origin ≠ .shared ↔
      lc.Recognised env password0 := by
  rw [rememberedPassword, Recognised]
  cases hremember : lc.remember with
  | true =>
    rw [if_pos rfl]
    split_ifs with hstores
    · simp only [Bool.not_eq_true', ne_eq] at hstores
      simp [hstores]
    · refine iff_of_true hold fun _ _ hbytes hne => ?_
      simp only [ne_eq, Bool.not_eq_true', not_and, Bool.not_eq_false] at hstores
      exact hstores hbytes hne
  | false =>
    rw [if_neg Bool.false_ne_true]
    refine iff_of_true ?_ fun hr => by cases hr
    split_ifs with hpersonal
    · intro horigin
      obtain ⟨hbytes, hsource⟩ := PasswordSource.isPersonalAb_iff.mp hpersonal
      exact h horigin hbytes _ hsource
    · simp [Password.empty]
    · exact hold

/-- The event after a login carries what is stored. -/
theorem hash_of_handlePeerInfo {stored : PeerConfig} {event : SyncEvent}
    (hevent : (lc.handlePeerInfo env stored).2 = some event) :
    event.hash = lc.rememberedPassword env stored.password := by
  rw [handlePeerInfo] at hevent
  split_ifs at hevent
  obtain rfl := Option.some.inj hevent
  rfl

end LoginConfigHandler

namespace LoginClient

open LoginConfigHandler

variable {env : LoginEnv} {s t : LoginClient}

/-- No shared password is in a config, in memory or stored, or was sent to the address book. -/
structure NotRemembered (s : LoginClient) : Prop where
  stored : ∀ id, (s.stored id).password.origin ≠ .shared
  loaded : ∀ n, (s.handlers n).config.password.origin ≠ .shared
  synced : ∀ event ∈ s.synced, event.hash.origin ≠ .shared

/-- Sources are right about shared passwords, also in the tokens. -/
structure AllTraced (s : LoginClient) : Prop where
  handlers : ∀ n, Traced (s.handlers n).password (s.handlers n).passwordSource
  tokens : ∀ token ∈ s.tokens, Traced token.password token.passwordSource

/-- A handler whose password is traced may take the place of another. -/
theorem AllTraced.setHandler (h : AllTraced s) (n : ℕ) {lc : LoginConfigHandler}
    (hlc : Traced lc.password lc.passwordSource) : AllTraced (s.setHandler n lc) := by
  refine ⟨fun k => ?_, h.tokens⟩
  by_cases hk : k = n
  · subst hk
    simpa [LoginClient.setHandler] using hlc
  · simpa [LoginClient.setHandler, hk] using h.handlers k

/-- **One step** keeps all passwords traced. -/
theorem allTraced_step (h : AllTraced s) {e : LoginEvent} (hstep : step env s e = some t) :
    AllTraced t := by
  cases e with
  | initializeHandler n id switchUuid sharedPassword connToken =>
    rw [step] at hstep
    split_ifs at hstep with htoken
    obtain rfl := Option.some.inj hstep
    exact h.setHandler n (traced_initializeHandler (h.handlers n) _ _ _ _
      fun token hmem => h.tokens token (htoken token hmem))
  | getConnToken n =>
    obtain rfl := Option.some.inj hstep
    refine ⟨h.handlers, fun token hmem => ?_⟩
    rcases List.mem_append.mp hmem with hmem | hmem
    · exact h.tokens token hmem
    · rw [Option.mem_toList, getConnToken] at hmem
      split_ifs at hmem
      obtain rfl := Option.some.inj hmem
      exact h.handlers n
  | handleHash n passwordPreset hash ab =>
    obtain rfl := Option.some.inj hstep
    exact h.setHandler n (traced_handleHash (h.handlers n) _ _ _)
  | handleLoginError n err =>
    obtain rfl := Option.some.inj hstep
    have hset := h.setHandler n (traced_handleLoginError (h.handlers n)
      (s.stored (s.handlers n).id) err)
    exact ⟨hset.handlers, hset.tokens⟩
  | handleLoginFromUi n password remember =>
    obtain rfl := Option.some.inj hstep
    exact h.setHandler n (traced_handleLoginFromUi (h.handlers n) _ _)
  | handlePeerInfo n =>
    obtain rfl := Option.some.inj hstep
    have hset : AllTraced (s.setHandler n ((s.handlers n).handlePeerInfo env
      (s.stored (s.handlers n).id)).1) := h.setHandler n (h.handlers n)
    exact ⟨hset.handlers, hset.tokens⟩

/-- A handler may change if it does not keep a shared password. -/
theorem NotRemembered.setHandler (h : NotRemembered s) (n : ℕ) {lc : LoginConfigHandler}
    (hlc : lc.config.password.origin ≠ .shared) : NotRemembered (s.setHandler n lc) := by
  refine ⟨h.stored, fun k => ?_, h.synced⟩
  by_cases hk : k = n
  · subst hk
    simpa [LoginClient.setHandler] using hlc
  · simpa [LoginClient.setHandler, hk] using h.loaded k

/-- A configuration may be stored if it does not keep a shared password. -/
theorem NotRemembered.store (h : NotRemembered s) (id : String) {config : PeerConfig}
    (hconfig : config.password.origin ≠ .shared) : NotRemembered (s.store id config) := by
  refine ⟨fun id' => ?_, h.loaded, h.synced⟩
  by_cases hid : id' = id
  · subst hid
    simpa [LoginClient.store] using hconfig
  · simpa [LoginClient.store, hid] using h.stored id'

/-- When a login succeeds, a shared password that would be remembered is recognised. -/
def LoginRecognised (env : LoginEnv) (s : LoginClient) : LoginEvent → Prop
  | .handlePeerInfo n => (s.handlers n).Recognised env (s.stored (s.handlers n).id).password
  | _ => True

/-- A successful login. -/
theorem notRemembered_handlePeerInfo_iff (htraced : AllTraced s) (hs : NotRemembered s) {n : ℕ}
    (hstep : step env s (.handlePeerInfo n) = some t) :
    NotRemembered t ↔ (s.handlers n).Recognised env (s.stored (s.handlers n).id).password := by
  rw [← rememberedPassword_origin_iff (htraced.handlers n) (hs.stored (s.handlers n).id)]
  obtain rfl := Option.some.inj hstep
  constructor
  · intro ht
    have hstored := ht.stored (s.handlers n).id
    simpa [LoginClient.store, LoginClient.setHandler, handlePeerInfo] using hstored
  · intro horigin
    have hset : NotRemembered (s.setHandler n ((s.handlers n).handlePeerInfo env
      (s.stored (s.handlers n).id)).1) := hs.setHandler n horigin
    have hstore : NotRemembered ((s.setHandler n ((s.handlers n).handlePeerInfo env
      (s.stored (s.handlers n).id)).1).store (s.handlers n).id ((s.handlers n).handlePeerInfo env
        (s.stored (s.handlers n).id)).1.config) := hset.store _ horigin
    refine ⟨hstore.stored, hstore.loaded, fun event hevent => ?_⟩
    rcases List.mem_append.mp hevent with hevent | hevent
    · exact hs.synced event hevent
    · rw [hash_of_handlePeerInfo (Option.mem_toList.mp hevent)]
      exact horigin

/-- **One step** remembers no shared password if and only if it recognises the password. -/
theorem notRemembered_step_iff (htraced : AllTraced s) (hs : NotRemembered s) {e : LoginEvent}
    (hstep : step env s e = some t) : NotRemembered t ↔ LoginRecognised env s e := by
  cases e with
  | handlePeerInfo n => exact notRemembered_handlePeerInfo_iff htraced hs hstep
  | initializeHandler n id switchUuid sharedPassword connToken =>
    rw [step] at hstep
    split_ifs at hstep
    obtain rfl := Option.some.inj hstep
    exact iff_of_true (hs.setHandler n (hs.stored id)) trivial
  | getConnToken n =>
    obtain rfl := Option.some.inj hstep
    exact iff_of_true ⟨hs.stored, hs.loaded, hs.synced⟩ trivial
  | handleHash n passwordPreset hash ab =>
    obtain rfl := Option.some.inj hstep
    refine iff_of_true (hs.setHandler n ?_) trivial
    have hconfig : ((s.handlers n).handleHash env passwordPreset hash ab).1.config =
        (s.handlers n).config := by
      rw [handleHash]
      dsimp only
      split_ifs <;> rfl
    rw [hconfig]
    exact hs.loaded n
  | handleLoginError n err =>
    obtain rfl := Option.some.inj hstep
    have hconfigs : ((s.handlers n).handleLoginError (s.stored (s.handlers n).id)
          err).1.config.password.origin ≠ .shared ∧
        ((s.handlers n).handleLoginError (s.stored (s.handlers n).id)
          err).2.password.origin ≠ .shared := by
      rw [handleLoginError]
      split_ifs
      · exact ⟨hs.loaded n, hs.stored _⟩
      · exact ⟨hs.stored _, hs.stored _⟩
      · exact ⟨hs.loaded n, hs.stored _⟩
      · exact ⟨hs.loaded n, hs.stored _⟩
    exact iff_of_true ((hs.setHandler n hconfigs.1).store _ hconfigs.2) trivial
  | handleLoginFromUi n password remember =>
    obtain rfl := Option.some.inj hstep
    refine iff_of_true (hs.setHandler n ?_) trivial
    have hconfig : ((s.handlers n).handleLoginFromUi env password remember).1.config =
        (s.handlers n).config := by
      rw [handleLoginFromUi]
      dsimp only
      split_ifs <;> rfl
    rw [hconfig]
    exact hs.loaded n

/-- **Shared passwords.** In any history of any handlers, no password that came from a shared
one is ever stored or sent to the address book, if and only if every shared password that would
be remembered after a login is recognised. -/
theorem notRemembered_iff_recognised (env : LoginEnv) (saved : String → List UInt8)
    (trusted : String → Bool) {events : List LoginEvent}
    (hrun : (machine env saved trusted).Run (machine env saved trusted).init events s) :
    (∀ first u, first <+: events →
      (machine env saved trusted).Run (machine env saved trusted).init first u →
        NotRemembered u) ↔
      (machine env saved trusted).RunWhere (LoginRecognised env) (machine env saved trusted).init
        events s := by
  have htraced : AllTraced (machine env saved trusted).init := by
    refine ⟨fun n => traced_undefined _, fun token hmem => ?_⟩
    cases hmem
  have hinit : NotRemembered (machine env saved trusted).init := by
    refine ⟨fun id => ?_, fun n => ?_, fun event hmem => ?_⟩
    · simp [machine]
    · simp [machine, LoginConfigHandler.new, Password.empty]
    · cases hmem
  exact Machine.runWhere_iff_beside (fun _ _ _ hstep h => allTraced_step h hstep)
    (fun _ _ _ hstep h hs => notRemembered_step_iff h hs hstep) htraced hinit hrun

/-- The environment of the example, whose hasher returns what it is given. -/
def demoEnv : LoginEnv := ⟨id, fun _ => false, fun _ => none, true, ""⟩

/-- A client that has a password stored for every peer. -/
def savedEverywhere (env : LoginEnv) : Machine LoginClient LoginEvent :=
  machine env (fun _ => [1]) fun _ => false

/-- A session with a shared password gets one salt for each connection; then it logs in. -/
def sharedSession (salts : List String) : List LoginEvent :=
  .initializeHandler 0 "a" none (some "secret") none ::
    salts.map (fun salt => .handleHash 0 "" ⟨salt, ""⟩ ⟨"", [], ""⟩) ++ [.handlePeerInfo 0]

/-- The client after that. -/
def afterSharedSession (env : LoginEnv) (salts : List String) : LoginClient :=
  ((savedEverywhere env).replay (savedEverywhere env).init (sharedSession salts)).getD
    (savedEverywhere env).init

/-- The equivalence on two logins under one salt. -/
theorem notRemembered_iff_recognised_sameSalt :
    (∀ first u, first <+: sharedSession ["x", "x"] →
      (savedEverywhere demoEnv).Run (savedEverywhere demoEnv).init first u → NotRemembered u) ↔
      (savedEverywhere demoEnv).RunWhere (LoginRecognised demoEnv) (savedEverywhere demoEnv).init
        (sharedSession ["x", "x"]) (afterSharedSession demoEnv ["x", "x"]) :=
  notRemembered_iff_recognised demoEnv (fun _ => [1]) (fun _ => false) (Machine.run_of_replay rfl)

/-- Whatever the hasher, if it does not return the same for both salts, the shared password is
stored after the salt has changed. -/
theorem not_notRemembered_changedSalt :
    ¬ ∃ env : LoginEnv, (∀ input, (env.sha256 input).length = 32) ∧
      env.salted "secret" "x" ≠ env.salted "secret" "y" ∧
        ∀ (saved : String → List UInt8) (trusted : String → Bool) (events : List LoginEvent)
          (s : LoginClient), (machine env saved trusted).Run (machine env saved trusted).init
            events s → NotRemembered s := by
  rintro ⟨env, hlength, hne, hall⟩
  have hs := hall (fun _ => [1]) (fun _ => false) (sharedSession ["x", "y"])
    (afterSharedSession env ["x", "y"]) (Machine.run_of_replay rfl)
  have hnil (text salt : String) : env.salted text salt ≠ [] := by
    intro h
    have hzero := congrArg List.length h
    rw [LoginEnv.salted, hlength] at hzero
    cases hzero
  have hone : env.salted "secret" "x" ≠ [1] := by
    intro h
    have hone := congrArg List.length h
    rw [LoginEnv.salted, hlength] at hone
    cases hone
  refine hs.stored "a" ?_
  simp [afterSharedSession, savedEverywhere, sharedSession, Machine.replay, machine, step,
    LoginClient.setHandler, LoginClient.store, LoginConfigHandler.initializeHandler, handleHash,
    handlePeerInfo, rememberedPassword, Candidate.orPreset, Candidate.useShared,
    Candidate.orConfig, Candidate.orPersonalAb, Candidate.orDefault, PasswordSource.isSharedAb,
    LoginConfigHandler.new, Password.empty, hnil, hone, hne]

end LoginClient

end RdWeb.SharedPassword
