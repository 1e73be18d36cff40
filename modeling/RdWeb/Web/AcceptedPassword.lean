import RdWeb.Client.Password

/-!
# The password of a web connection

`handleHashMessage`, `login` and `persistPasswordIfRemembered` of `session_base.ts` with the
parts of `rd_connection.ts` that start a connection and read the answers of the host. Four
places hold a password: the plain text given at the start, the hashed one of the connection,
the stored option and the argument of a login by the user.
-/

namespace RdWeb.Web

open SharedPassword (Hash textBytes)

/-- What a login is made of: a text with the salt of the hash message it was hashed for, or bytes
that were stored or handed over. -/
inductive LoginSecret
  | text (plain salt : String)
  | kept (bytes : List UInt8)
  deriving DecidableEq

namespace LoginSecret

/-- The text of a password that was not handed over in its hashed form. -/
def plain? : LoginSecret → Option String
  | text plain _ => some plain
  | kept _ => none

/-- The same password for a hash message with another salt. -/
def resalted (salt : String) : LoginSecret → LoginSecret
  | text plain _ => text plain salt
  | kept bytes => kept bytes

variable (sha256 : List UInt8 → List UInt8)

/-- `hashPassword([password, salt])`, or the bytes as they are. -/
def bytes : LoginSecret → List UInt8
  | text plain salt => sha256 (textBytes plain ++ textBytes salt)
  | kept bytes => bytes

/-- `hashPassword([p, challenge])`. -/
def answer (p : LoginSecret) (challenge : String) : List UInt8 :=
  sha256 (p.bytes sha256 ++ textBytes challenge)

end LoginSecret

/-- A login that answers a hash message without the user: the password that was accepted last,
the hash message, and what is sent. -/
structure AutomaticLogin where
  accepted : Option LoginSecret
  hash : Hash
  password : Option (List UInt8)

/-- A connection; an empty text is one that is not set. Of the logins that the host has not
answered it is recorded what they were made of, and so it is of the last one it accepted, until
the user tries another one. -/
structure PasswordConnection where
  plaintextPassword : String
  hash : Option Hash
  password : Option LoginSecret
  remember : Bool
  stored : Option (List UInt8)
  connected : Bool
  unanswered : List (Option LoginSecret)
  accepted : Option LoginSecret
  automatic : List AutomaticLogin

namespace PasswordConnection

/-- A connection that was added with a plain password, or with the hashed one of a token, to a
peer with these stored options. -/
def new (plaintextPassword : String) (token : Option (List UInt8)) (remember : Bool)
    (stored : Option (List UInt8)) : PasswordConnection where
  plaintextPassword := plaintextPassword
  hash := none
  password := token.map .kept
  remember := remember
  stored := stored
  connected := false
  unanswered := []
  accepted := none
  automatic := []

/-- `prepareConnect`. -/
def prepareConnect (s : PasswordConnection) : PasswordConnection :=
  match s.password, s.stored with
  | none, some bytes => if bytes ≠ [] then { s with password := some (.kept bytes) } else s
  | _, _ => s

/-- A password that is given with `start` is a new one to try. -/
def start (s : PasswordConnection) (password : String) : PasswordConnection :=
  if password ≠ "" then
    { s with plaintextPassword := password, accepted := none }.prepareConnect
  else s.prepareConnect

/-- `_sendLoginMessage`; the host only reads it while the socket is open. -/
def sendLoginMessage (s : PasswordConnection) (p : Option LoginSecret) : PasswordConnection :=
  if s.connected then { s with unanswered := s.unanswered ++ [p] } else s

variable (sha256 : List UInt8 → List UInt8)

/-- `login`, with the password of the login request if one is sent. Without a hash message it
throws where it would hash. -/
def login (s : PasswordConnection) (password : String) :
    PasswordConnection × Option (Option (List UInt8)) :=
  if password ≠ "" then
    match s.hash with
    | none => (s, none)
    | some hash =>
      let p := LoginSecret.text password hash.salt
      ({ s with password := some p }.sendLoginMessage (some p),
        some (p.answer sha256 hash.challenge))
  else
    match s.password with
    | none => (s.sendLoginMessage none, some none)
    | some p =>
      match s.hash with
      | none => (s, none)
      | some hash => (s.sendLoginMessage (some p), some (p.answer sha256 hash.challenge))

/-- `handleHashMessage`, and what is sent if the user is not asked. -/
def handleHashMessage (s : PasswordConnection) (hash : Hash) :
    PasswordConnection × Option (Option (List UInt8)) :=
  let s := { s with hash := some hash }
  if s.plaintextPassword ≠ "" then s.login sha256 s.plaintextPassword
  else if s.password.isSome then s.login sha256 ""
  else (s, none)

/-- The login that was sent is recorded. -/
def onHash (s : PasswordConnection) (hash : Hash) : PasswordConnection :=
  let (t, sent) := s.handleHashMessage sha256 hash
  { t with
    automatic := s.automatic ++ (sent.map fun password =>
      (⟨s.accepted, hash, password⟩ : AutomaticLogin)).toList }

/-- `persistPasswordIfRemembered`. -/
def persistPasswordIfRemembered (s : PasswordConnection) : PasswordConnection :=
  match s.password with
  | none => s
  | some p =>
    if s.remember ∧ p.bytes sha256 ≠ [] then
      if s.stored ≠ some (p.bytes sha256) then { s with stored := some (p.bytes sha256) } else s
    else s

/-- `handlePeerInfo`: the answer to a login made of `secret`. Without a display the login counts
as failed. -/
def handlePeerInfo (s : PasswordConnection) (secret : Option LoginSecret) (displays : ℕ) :
    PasswordConnection :=
  if displays = 0 then { s with accepted := none }
  else
    let s := { s with accepted := secret }
    if s.remember then s.persistPasswordIfRemembered sha256 else { s with stored := none }

/-- The error branch of the login response. -/
def handleLoginError (s : PasswordConnection) (error : String) : PasswordConnection :=
  if error = "Wrong Password" then { s with password := none } else s

/-- The `login` handler of the bridge: to remember the password or not is stored before the
login, and no login follows for a user of the system. -/
def userLogin (s : PasswordConnection) (remember osUsername : Bool) (password : String) :
    PasswordConnection :=
  let s := { s with remember := remember }
  if osUsername then s else ({ s with accepted := none }.login sha256 password).1

end PasswordConnection

/-- The connection starts or is started again, its socket opens or closes, a message of the host
is read, the user logs in or lets the password be forgotten. -/
inductive PasswordEvent
  | start (password : String)
  | connectRelay
  | close
  | hash (hash : Hash)
  | loginError (error : String)
  | peerInfo (displays : ℕ)
  | login (remember osUsername : Bool) (password : String)
  | forget

namespace PasswordConnection

variable (sha256 : List UInt8 → List UInt8)

/-- The host answers the logins in their order. -/
def step (s : PasswordConnection) : PasswordEvent → Option PasswordConnection
  | .start password => if s.connected then none else some (s.start password)
  | .connectRelay => if s.connected then none else some { s with connected := true }
  | .close => some { s with connected := false, unanswered := [] }
  | .hash hash => if s.connected then some (s.onHash sha256 hash) else none
  | .loginError error =>
    match s.unanswered with
    | [] => none
    | _ :: rest => some ({ s with unanswered := rest }.handleLoginError error)
  | .peerInfo displays =>
    match s.unanswered with
    | [] => none
    | secret :: rest =>
      some ({ s with unanswered := rest }.handlePeerInfo sha256 secret displays)
  | .login remember osUsername password => some (s.userLogin sha256 remember osUsername password)
  | .forget => some { s with remember := false }

/-- The connection from its construction. -/
def machine (plaintextPassword : String) (token : Option (List UInt8)) (remember : Bool)
    (stored : Option (List UInt8)) : Machine PasswordConnection PasswordEvent :=
  ⟨new plaintextPassword token remember stored, step sha256⟩

/-- The accepted password is the one that is sent and stored. It is sent as it was accepted, or
hashed with the salt of the hash message that is answered. -/
structure Reuses (s : PasswordConnection) : Prop where
  sent : ∀ login ∈ s.automatic, ∀ secret ∈ login.accepted,
    login.password = some (secret.answer sha256 login.hash.challenge) ∨
      login.password =
        some ((secret.resalted login.hash.salt).answer sha256 login.hash.challenge)
  stored : ∀ secret ∈ s.accepted, s.remember → s.stored = some (secret.bytes sha256)
  notStale : ∀ secret ∈ s.accepted, ∀ bytes ∈ s.stored, bytes = secret.bytes sha256

/-- The password given at the start is the accepted one, or there is none; the connection still
has the password of the login that is accepted; and the password is not to be remembered
afterwards. -/
def Careful (s : PasswordConnection) : PasswordEvent → Prop
  | .hash _ => ∀ secret ∈ s.accepted, s.plaintextPassword = "" ∨
      secret.plain? = some s.plaintextPassword
  | .peerInfo displays => displays ≠ 0 → ∀ secret ∈ s.unanswered.head?.join,
      ∃ p ∈ s.password, p.bytes sha256 = secret.bytes sha256 ∧
        (s.remember → p.bytes sha256 ≠ [])
  | .login remember osUsername _ => remember → osUsername → s.accepted ≠ none →
      s.remember ∨ s.stored.isSome
  | _ => True

/-- Whether an event is careful is decided by the connection before it. -/
instance (s : PasswordConnection) (e : PasswordEvent) : Decidable (s.Careful sha256 e) :=
  match e with
  | .hash _ => inferInstanceAs (Decidable (∀ secret ∈ s.accepted, _))
  | .peerInfo displays => inferInstanceAs (Decidable (displays ≠ 0 →
      ∀ secret ∈ s.unanswered.head?.join, ∃ p ∈ s.password, _))
  | .login remember osUsername _ =>
    inferInstanceAs (Decidable (remember → osUsername → s.accepted ≠ none → _))
  | .start _ | .connectRelay | .close | .loginError _ | .forget => inferInstanceAs (Decidable True)

/-! ### What each step keeps -/

variable {sha256} {s t : PasswordConnection}

/-- The accepted password is reused, and the connection has no other one unless it was given at
the start. -/
structure Kept (sha256 : List UInt8 → List UInt8) (s : PasswordConnection) : Prop where
  reuses : s.Reuses sha256
  held : s.plaintextPassword = "" → ∀ secret ∈ s.accepted, ∀ p ∈ s.password,
    p.bytes sha256 = secret.bytes sha256

/-- Nothing is claimed before the next password is accepted. -/
theorem Kept.tryOther (h : s.Kept sha256) (hautomatic : t.automatic = s.automatic)
    (haccepted : t.accepted = none) : t.Kept sha256 := by
  have hnone (secret : LoginSecret) : secret ∉ t.accepted := by
    rw [haccepted]
    exact Option.not_mem_none secret
  refine ⟨⟨?_, fun secret hmem => absurd hmem (hnone secret),
    fun secret hmem => absurd hmem (hnone secret)⟩,
    fun _ secret hmem => absurd hmem (hnone secret)⟩
  rw [hautomatic]
  exact h.reuses.sent

/-- Only what is held and stored counts for the passwords to come. -/
theorem Kept.congr (h : s.Kept sha256) (haccepted : t.accepted = s.accepted)
    (hautomatic : t.automatic = s.automatic) (hstored : t.stored = s.stored)
    (hplain : t.plaintextPassword = s.plaintextPassword)
    (hremember : t.remember = true → s.remember = true)
    (hheld : ∀ p ∈ t.password, p ∈ s.password ∨ p.bytes sha256 ∈ s.stored) : t.Kept sha256 := by
  refine ⟨⟨?_, ?_, ?_⟩, ?_⟩
  · rw [hautomatic]
    exact h.reuses.sent
  · rw [haccepted, hstored]
    exact fun secret hmem htrue => h.reuses.stored secret hmem (hremember htrue)
  · rw [haccepted, hstored]
    exact h.reuses.notStale
  · rw [haccepted, hplain]
    intro hempty secret hmem p hp
    rcases hheld p hp with hsame | hstored
    · exact h.held hempty secret hmem p hsame
    · exact h.reuses.notStale secret hmem _ hstored

/-- The password that is taken from the options is the accepted one. -/
theorem Kept.prepareConnect (h : s.Kept sha256) : s.prepareConnect.Kept sha256 := by
  unfold PasswordConnection.prepareConnect
  split
  · rename_i bytes hpassword hstored
    split_ifs
    · refine h.congr rfl rfl rfl rfl id fun p hp => ?_
      obtain rfl := Option.some.inj hp
      exact Or.inr hstored
    · exact h
  · exact h

/-- A password that is given with the start is not accepted yet. -/
theorem Kept.start (h : s.Kept sha256) (password : String) : (s.start password).Kept sha256 := by
  rw [PasswordConnection.start]
  split_ifs
  · have hother : ({ s with plaintextPassword := password, accepted := none } :
        PasswordConnection).Kept sha256 := h.tryOther rfl rfl
    exact hother.prepareConnect
  · exact h.prepareConnect

/-- A login that is sent changes nothing but the logins to be answered. -/
theorem sendLoginMessage_frame (s : PasswordConnection) (p : Option LoginSecret) :
    (s.sendLoginMessage p).accepted = s.accepted ∧
      (s.sendLoginMessage p).automatic = s.automatic ∧
      (s.sendLoginMessage p).stored = s.stored ∧ (s.sendLoginMessage p).remember = s.remember ∧
      (s.sendLoginMessage p).plaintextPassword = s.plaintextPassword ∧
      (s.sendLoginMessage p).password = s.password := by
  rw [sendLoginMessage]
  split_ifs <;> exact ⟨rfl, rfl, rfl, rfl, rfl, rfl⟩

/-- A login by itself accepts nothing and is not recorded as automatic. -/
theorem login_frame (s : PasswordConnection) (password : String) :
    (s.login sha256 password).1.accepted = s.accepted ∧
      (s.login sha256 password).1.automatic = s.automatic := by
  unfold login
  split_ifs
  · split
    · exact ⟨rfl, rfl⟩
    · exact ⟨(sendLoginMessage_frame _ _).1, (sendLoginMessage_frame _ _).2.1⟩
  · split
    · exact ⟨(sendLoginMessage_frame _ _).1, (sendLoginMessage_frame _ _).2.1⟩
    · split
      · exact ⟨rfl, rfl⟩
      · exact ⟨(sendLoginMessage_frame _ _).1, (sendLoginMessage_frame _ _).2.1⟩

/-- A login by the user keeps what is kept: a new history starts, or a user of the system only
decides whether to remember. -/
theorem Kept.userLogin (h : s.Kept sha256) {remember osUsername : Bool} {password : String}
    (hcareful : s.Careful sha256 (.login remember osUsername password)) :
    (s.userLogin sha256 remember osUsername password).Kept sha256 := by
  rw [PasswordConnection.userLogin]
  dsimp only
  split_ifs with hos
  · refine ⟨⟨h.reuses.sent, fun secret hmem hremember => ?_, h.reuses.notStale⟩, h.held⟩
    rcases hcareful hremember hos (Option.ne_none_iff_exists'.mpr ⟨secret, hmem⟩) with
      hbefore | hstored
    · exact h.reuses.stored secret hmem hbefore
    · obtain ⟨bytes, hbytes⟩ := Option.isSome_iff_exists.mp hstored
      rw [← h.reuses.notStale secret hmem bytes hbytes]
      exact hbytes
  · exact h.tryOther (login_frame _ _).2 (login_frame _ _).1

/-- A login that is sent with the accepted password. -/
theorem Kept.answers (h : s.Kept sha256) {p : LoginSecret} {hash : Hash}
    (hsent : ∀ secret ∈ s.accepted, p.bytes sha256 = secret.bytes sha256 ∨
      p = secret.resalted hash.salt)
    (hheld : s.plaintextPassword = "" → ∀ secret ∈ s.accepted,
      p.bytes sha256 = secret.bytes sha256)
    (haccepted : t.accepted = s.accepted) (hstored : t.stored = s.stored)
    (hremember : t.remember = s.remember)
    (hplain : t.plaintextPassword = s.plaintextPassword) (hpassword : t.password = some p)
    (hautomatic : t.automatic =
      s.automatic ++ [⟨s.accepted, hash, some (p.answer sha256 hash.challenge)⟩]) :
    t.Kept sha256 := by
  refine ⟨⟨?_, ?_, ?_⟩, ?_⟩
  · rw [hautomatic, List.forall_mem_append, List.forall_mem_singleton]
    refine ⟨h.reuses.sent, fun secret hmem => ?_⟩
    rcases hsent secret hmem with hbytes | hsalted
    · left
      rw [LoginSecret.answer, LoginSecret.answer, hbytes]
    · right
      rw [hsalted]
  · rw [haccepted, hstored, hremember]
    exact h.reuses.stored
  · rw [haccepted, hstored]
    exact h.reuses.notStale
  · rw [haccepted, hpassword, hplain]
    intro hempty secret hmem q hq
    obtain rfl := Option.some.inj hq
    exact hheld hempty secret hmem

/-- The text of a password decides it, but for the salt. -/
theorem text_eq_resalted {secret : LoginSecret} {plain : String}
    (h : secret.plain? = some plain) (salt : String) :
    LoginSecret.text plain salt = secret.resalted salt := by
  cases secret with
  | text plain' salt' =>
    obtain rfl := Option.some.inj h
    rfl
  | kept bytes => cases h

/-- A hash message is answered with the accepted password. -/
theorem Kept.onHash (h : s.Kept sha256) {hash : Hash}
    (hcareful : s.Careful sha256 (.hash hash)) : (s.onHash sha256 hash).Kept sha256 := by
  rw [PasswordConnection.onHash, handleHashMessage]
  dsimp only
  by_cases hplain : s.plaintextPassword ≠ ""
  · rw [if_pos hplain, login, if_pos hplain]
    obtain ⟨haccepted, -, hstored, hremember, hsame, hpassword⟩ := sendLoginMessage_frame
      { s with hash := some hash, password := some (.text s.plaintextPassword hash.salt) }
      (some (.text s.plaintextPassword hash.salt))
    refine h.answers (fun secret hmem => .inr ?_) (fun hempty => absurd hempty hplain)
      haccepted hstored hremember hsame hpassword rfl
    exact text_eq_resalted ((hcareful secret hmem).resolve_left hplain) hash.salt
  · rw [if_neg hplain]
    cases hheld : s.password with
    | none =>
      simp only [Option.isSome_none, Bool.false_eq_true, if_false]
      exact h.congr rfl (List.append_nil _) rfl rfl id fun p hp =>
        absurd hp (Option.not_mem_none p)
    | some p =>
      obtain ⟨haccepted, -, hstored, hremember, hsame, hpassword⟩ := sendLoginMessage_frame
        { s with hash := some hash, password := some p } (some p)
      have hbytes : ∀ secret ∈ s.accepted, p.bytes sha256 = secret.bytes sha256 :=
        fun secret hmem => h.held (not_ne_iff.mp hplain) secret hmem p hheld
      simp only [Option.isSome_some, if_true, login, ne_eq, not_true_eq_false, if_false]
      exact h.answers (fun secret hmem => .inl (hbytes secret hmem)) (fun _ => hbytes)
        haccepted hstored hremember hsame hpassword rfl

/-- What is stored says nothing about the logins. -/
theorem persistPasswordIfRemembered_frame (s : PasswordConnection) :
    (s.persistPasswordIfRemembered sha256).accepted = s.accepted ∧
      (s.persistPasswordIfRemembered sha256).automatic = s.automatic := by
  unfold persistPasswordIfRemembered
  split
  · exact ⟨rfl, rfl⟩
  · split_ifs <;> exact ⟨rfl, rfl⟩

/-- A password that is remembered is stored, if it has bytes. -/
theorem persistPasswordIfRemembered_eq {p : LoginSecret} (hp : s.password = some p)
    (hremember : s.remember = true) (hne : p.bytes sha256 ≠ []) :
    s.persistPasswordIfRemembered sha256 = { s with stored := some (p.bytes sha256) } := by
  unfold persistPasswordIfRemembered
  split
  · rename_i hnone
    cases hp.symm.trans hnone
  · rename_i q hq
    obtain rfl := Option.some.inj (hp.symm.trans hq)
    rw [if_pos ⟨hremember, hne⟩]
    split_ifs with hstored
    · rfl
    · rw [← not_ne_iff.mp hstored]

/-- A password that is remembered, if the host accepted the one that the connection has. -/
theorem Kept.handlePeerInfo_some (h : s.Kept sha256) {p secret : LoginSecret} {displays : ℕ}
    (hdisplays : displays ≠ 0) (hp : s.password = some p)
    (hsecret : p.bytes sha256 = secret.bytes sha256)
    (hne : s.remember = true → p.bytes sha256 ≠ []) :
    (s.handlePeerInfo sha256 (some secret) displays).Kept sha256 := by
  have hbytes : ∀ accepted ∈ some secret, p.bytes sha256 = accepted.bytes sha256 := by
    intro accepted hmem
    obtain rfl := Option.some.inj hmem
    exact hsecret
  have hheld : ∀ accepted ∈ some secret, ∀ q ∈ s.password,
      q.bytes sha256 = accepted.bytes sha256 := by
    intro accepted hmem q hq
    obtain rfl := Option.some.inj (hp.symm.trans hq)
    exact hbytes accepted hmem
  rw [PasswordConnection.handlePeerInfo, if_neg hdisplays]
  dsimp only
  split_ifs with hremember
  · rw [persistPasswordIfRemembered_eq (s := { s with accepted := some secret }) hp hremember
      (hne hremember)]
    refine ⟨⟨h.reuses.sent, fun accepted hmem _ => congrArg some (hbytes accepted hmem), ?_⟩,
      fun _ => hheld⟩
    intro accepted hmem bytes hstored
    obtain rfl := Option.some.inj hstored
    exact hbytes accepted hmem
  · refine ⟨⟨h.reuses.sent, fun accepted hmem htrue => absurd htrue hremember, ?_⟩,
      fun _ => hheld⟩
    exact fun accepted hmem bytes hstored => absurd hstored (Option.not_mem_none bytes)

/-- A login without a password leaves nothing to be reused. -/
theorem Kept.handlePeerInfo_none (h : s.Kept sha256) (displays : ℕ) :
    (s.handlePeerInfo sha256 none displays).Kept sha256 := by
  rw [PasswordConnection.handlePeerInfo]
  dsimp only
  split_ifs
  · exact h.tryOther rfl rfl
  · exact h.tryOther (persistPasswordIfRemembered_frame _).2 (persistPasswordIfRemembered_frame _).1
  · exact h.tryOther rfl rfl

/-- **A step** that is careful keeps what is kept. -/
theorem Kept.step (h : s.Kept sha256) {e : PasswordEvent} (hcareful : s.Careful sha256 e)
    (hstep : s.step sha256 e = some t) : t.Kept sha256 := by
  cases e with
  | start password =>
    rw [PasswordConnection.step] at hstep
    split_ifs at hstep
    obtain rfl := Option.some.inj hstep
    exact h.start password
  | connectRelay =>
    rw [PasswordConnection.step] at hstep
    split_ifs at hstep
    obtain rfl := Option.some.inj hstep
    exact h.congr rfl rfl rfl rfl id fun p hp => Or.inl hp
  | close =>
    obtain rfl := Option.some.inj hstep
    exact h.congr rfl rfl rfl rfl id fun p hp => Or.inl hp
  | hash hash =>
    rw [PasswordConnection.step] at hstep
    split_ifs at hstep
    obtain rfl := Option.some.inj hstep
    exact h.onHash hcareful
  | loginError error =>
    simp only [PasswordConnection.step] at hstep
    split at hstep
    · cases hstep
    · obtain rfl := Option.some.inj hstep
      rw [handleLoginError]
      split_ifs
      · exact h.congr rfl rfl rfl rfl id fun p hp => absurd hp (Option.not_mem_none p)
      · exact h.congr rfl rfl rfl rfl id fun p hp => Or.inl hp
  | peerInfo displays =>
    simp only [PasswordConnection.step] at hstep
    split at hstep
    · cases hstep
    · rename_i secret rest hunanswered
      obtain rfl := Option.some.inj hstep
      have hrest : ({ s with unanswered := rest } : PasswordConnection).Kept sha256 :=
        h.congr rfl rfl rfl rfl id fun p hp => Or.inl hp
      cases secret with
      | none => exact hrest.handlePeerInfo_none displays
      | some secret =>
        by_cases hdisplays : displays = 0
        · rw [PasswordConnection.handlePeerInfo, if_pos hdisplays]
          exact hrest.tryOther rfl rfl
        · obtain ⟨p, hp, hsecret, hne⟩ := hcareful hdisplays secret (by rw [hunanswered]; rfl)
          exact hrest.handlePeerInfo_some hdisplays hp hsecret hne
  | login remember osUsername password =>
    obtain rfl := Option.some.inj hstep
    exact h.userLogin hcareful
  | forget =>
    obtain rfl := Option.some.inj hstep
    exact h.congr rfl rfl rfl rfl (fun hfalse => by cases hfalse) fun p hp => Or.inl hp

/-- A connection to the peer of the examples. -/
def demo (plaintextPassword : String) : PasswordConnection :=
  new plaintextPassword none false none

/-- The connection after some events, with a hash function that keeps its input. -/
def after (plaintextPassword : String) (events : List PasswordEvent) : PasswordConnection :=
  events.foldl (fun s e => (s.step id e).getD s) (demo plaintextPassword)

end PasswordConnection

end RdWeb.Web
