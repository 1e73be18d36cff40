import Mathlib.Data.List.Basic
import Mathlib.Logic.Function.Basic
import RdWeb.Lib.Machine

/-!
# The password of a session

What `LoginConfigHandler` of `client.rs` does with passwords: `initialize`, `handle_hash`,
`handle_login_error`, `handle_login_from_ui` and `handle_peer_info`, for any number of
handlers that share the stored configs. A password carries where it came from; the code
compares and hashes its bytes only. Messages to the peer, other options and dialogs are left
out.
-/

namespace RdWeb.SharedPassword

/-- Where the bytes of a password came from: they are empty, were stored before, were typed,
given when the session was opened, found in the personal address book, or derived from a
shared password or the default connect password. -/
inductive Origin
  | none
  | stored
  | typed
  | preset
  | personalAb
  | shared
  deriving DecidableEq, Repr

/-- A password with the place it comes from, which the code does not keep. -/
structure Password where
  bytes : List UInt8
  origin : Origin
  deriving DecidableEq, Repr

/-- The password before any was given. -/
def Password.empty : Password := ⟨[], .none⟩

/-- The message `Hash` of the peer. -/
structure Hash where
  salt : String
  challenge : String

/-- The bytes a hasher is given for a text. -/
def textBytes (text : String) : List UInt8 := text.toUTF8.data.toList

/-- What is not of this program, and what does not change while it runs: `Sha256`, the two
parsers, the build, and the option `default-connect-password`. -/
structure LoginEnv where
  sha256 : List UInt8 → List UInt8
  parsesUuid : String → Bool
  decodeBase64 : String → Option (List UInt8)
  flutter : Bool
  defaultConnectPassword : String

/-- A text hashed with a salt. -/
def LoginEnv.salted (env : LoginEnv) (text salt : String) : List UInt8 :=
  env.sha256 (textBytes text ++ textBytes salt)

/-- Where the password of a handler was found. -/
inductive PasswordSource
  | personalAb (password : List UInt8)
  | sharedAb (password : String)
  | undefined
  deriving DecidableEq, Repr

namespace PasswordSource

/-- Whether the password is that of the personal address book. -/
def isPersonalAb (source : PasswordSource) (password : List UInt8) : Bool :=
  if password = [] then false
  else
    match source with
    | personalAb p => p = password
    | _ => false

/-- Whether the password is that of a shared address book, under the current salt. -/
def isSharedAb (env : LoginEnv) (source : PasswordSource) (password : List UInt8)
    (hash : Hash) : Bool :=
  if password = [] then false
  else
    match source with
    | sharedAb p => password = env.salted p hash.salt
    | _ => false

end PasswordSource

/-- What one handler leaves to the next. -/
structure ConnToken where
  password : Password
  passwordSource : PasswordSource
  deriving DecidableEq

/-- The fields of `PeerConfig` that are used here. -/
structure PeerConfig where
  password : Password
  trustThisDevice : Bool

/-- A peer of an address book; the hash is encoded. -/
structure AbPeer where
  id : String
  hash : String

/-- An address book with its peers. -/
structure AbEntry where
  personal : Bool
  peers : List AbPeer

/-- `config::Ab`, and the access token of the account. -/
structure Ab where
  accessToken : String
  abEntries : List AbEntry
  localAccessToken : String

/-- The state of a login. -/
structure LoginConfigHandler where
  id : String
  hash : Hash
  password : Password
  remember : Bool
  config : PeerConfig
  switchUuid : Option String
  passwordSource : PasswordSource
  sharedPassword : Option String

namespace LoginConfigHandler

/-- `LoginConfigHandler::default`. -/
def new : LoginConfigHandler :=
  ⟨"", ⟨"", ""⟩, .empty, false, ⟨.empty, false⟩, none, .undefined, none⟩

/-- `initialize`, for the id without its server and relay parts, the config that is stored for
it and a token that was parsed. -/
def initializeHandler (lc : LoginConfigHandler) (id : String) (config : PeerConfig)
    (switchUuid sharedPassword : Option String) (connToken : Option ConnToken) :
    LoginConfigHandler :=
  { lc with
    id := id
    remember := config.password.bytes ≠ []
    config := config
    password := (connToken.map ConnToken.password).getD lc.password
    passwordSource := (connToken.map ConnToken.passwordSource).getD lc.passwordSource
    switchUuid := switchUuid
    sharedPassword := sharedPassword }

/-- `get_conn_token`. -/
def getConnToken (lc : LoginConfigHandler) : Option ConnToken :=
  if lc.password.bytes = [] then none else some ⟨lc.password, lc.passwordSource⟩

end LoginConfigHandler

/-- The password `handle_hash` has so far, and its source. -/
abbrev Candidate := Password × PasswordSource

namespace Candidate

variable (env : LoginEnv)

/-- The preset password. -/
def orPreset (c : Candidate) (passwordPreset salt : String) : Candidate :=
  if c.1.bytes = [] ∧ passwordPreset ≠ "" then
    (⟨env.salted passwordPreset salt, .preset⟩, .undefined)
  else c

/-- The shared password, which goes before the others. -/
def useShared (c : Candidate) (sharedPassword : Option String) (salt : String) : Candidate :=
  match sharedPassword with
  | some p => if p ≠ "" then (⟨env.salted p salt, .shared⟩, .sharedAb p) else c
  | none => c

/-- The password of the peer's config. -/
def orConfig (c : Candidate) (config : PeerConfig) : Candidate :=
  if c.1.bytes = [] then
    if config.password.bytes ≠ [] then (config.password, .undefined) else (config.password, c.2)
  else c

/-- `try_get_password_from_personal_ab`. -/
def orPersonalAb (c : Candidate) (id : String) (ab : Ab) : Candidate :=
  if c.1.bytes = [] then
    if ab.localAccessToken ≠ "" ∧ ab.localAccessToken = ab.accessToken then
      match (ab.abEntries.find? AbEntry.personal).bind fun entry =>
          entry.peers.find? fun p => p.id = id with
      | some p =>
        match env.decodeBase64 p.hash with
        | some hashPassword =>
          if hashPassword ≠ [] then (⟨hashPassword, .personalAb⟩, .personalAb hashPassword) else c
        | none => c
      | none => c
    else c
  else c

/-- The default connect password, which reuses the source of a shared one. -/
def orDefault (c : Candidate) (salt : String) : Candidate :=
  if c.1.bytes = [] then
    if env.defaultConnectPassword ≠ "" then
      (⟨env.salted env.defaultConnectPassword salt, .shared⟩,
        .sharedAb env.defaultConnectPassword)
    else c
  else c

end Candidate

/-- The message for a missing password. -/
def LOGIN_MSG_PASSWORD_EMPTY : String := "Empty Password"

/-- The message for a wrong password. -/
def LOGIN_MSG_PASSWORD_WRONG : String := "Wrong Password"

/-- The message for a wrong code of the second factor. -/
def LOGIN_MSG_2FA_WRONG : String := "Wrong 2FA Code"

/-- The message that asks for the second factor. -/
def REQUIRE_2FA : String := "2FA Required"

/-- The event `sync_peer_hash_password_to_personal_ab`, before its hash is encoded. -/
structure SyncEvent where
  id : String
  hash : Password

namespace LoginConfigHandler

variable (env : LoginEnv)

/-- `handle_hash`, with the password of the login request if one is sent. -/
def handleHash (lc : LoginConfigHandler) (passwordPreset : String) (hash : Hash) (ab : Ab) :
    LoginConfigHandler × Option (List UInt8) :=
  let uuid := lc.switchUuid
  let lc := { lc with hash := hash, switchUuid := none }
  if (uuid.map env.parsesUuid).getD false then
    ({ lc with passwordSource := .undefined }, none)
  else
    let c : Candidate := (lc.password, lc.passwordSource)
    let c := c.orPreset env passwordPreset hash.salt
    let c := c.useShared env lc.sharedPassword hash.salt
    let c := c.orConfig lc.config
    let c := c.orPersonalAb env lc.id ab
    let (password, source) := c.orDefault env hash.salt
    let lc :=
      { lc with sharedPassword := none, password := password, passwordSource := source }
    let loginPassword :=
      if password.bytes = [] then [] else env.sha256 (password.bytes ++ textBytes hash.challenge)
    (lc, some loginPassword)

/-- `handle_login_error`, as far as passwords and configs go; it comes with the stored config
of the peer. -/
def handleLoginError (lc : LoginConfigHandler) (config : PeerConfig) (err : String) :
    LoginConfigHandler × PeerConfig :=
  if err = LOGIN_MSG_PASSWORD_EMPTY ∨ err = LOGIN_MSG_PASSWORD_WRONG then
    ({ lc with password := .empty }, config)
  else if err = LOGIN_MSG_2FA_WRONG ∨ err = REQUIRE_2FA then
    if lc.config.trustThisDevice then
      let config := { config with trustThisDevice := false }
      ({ lc with config := config }, config)
    else (lc, config)
  else (lc, config)

/-- `handle_login_from_ui`, with the password of the login request. -/
def handleLoginFromUi (lc : LoginConfigHandler) (password : String) (remember : Bool) :
    LoginConfigHandler × List UInt8 :=
  let lc : LoginConfigHandler :=
    if password = "" then
      if lc.password.bytes = [] then
        if lc.config.password.bytes ≠ [] then
          { lc with password := lc.config.password, passwordSource := .undefined }
        else { lc with password := lc.config.password }
      else lc
    else
      { lc with
        password := ⟨env.salted password lc.hash.salt, .typed⟩
        passwordSource := .undefined
        remember := remember }
  (lc, env.sha256 (lc.password.bytes ++ textBytes lc.hash.challenge))

/-- What `handle_peer_info` makes of the password that is stored. -/
def rememberedPassword (lc : LoginConfigHandler) (password0 : Password) : Password :=
  if lc.remember then
    if lc.password.bytes ≠ [] ∧ lc.password.bytes ≠ password0.bytes ∧
        !lc.passwordSource.isSharedAb env lc.password.bytes lc.hash then lc.password
    else password0
  else
    if lc.passwordSource.isPersonalAb lc.password.bytes then lc.password
    else if password0.bytes ≠ [] then .empty
    else password0

/-- `handle_peer_info`, for the stored config of the peer. -/
def handlePeerInfo (lc : LoginConfigHandler) (stored : PeerConfig) :
    LoginConfigHandler × Option SyncEvent :=
  let config := { stored with password := lc.rememberedPassword env stored.password }
  let event : Option SyncEvent :=
    if env.flutter ∧ config.password.bytes ≠ [] ∧
        !lc.passwordSource.isSharedAb env lc.password.bytes lc.hash ∧
        !lc.passwordSource.isPersonalAb lc.password.bytes then some ⟨lc.id, config.password⟩
    else none
  ({ lc with config := config }, event)

end LoginConfigHandler

/-- The handlers of a client, the stored configs, the tokens that were handed out and the
events that were sent. -/
structure LoginClient where
  handlers : ℕ → LoginConfigHandler
  stored : String → PeerConfig
  tokens : List ConnToken
  synced : List SyncEvent

/-- What happens to the handlers. -/
inductive LoginEvent
  | initializeHandler (n : ℕ) (id : String) (switchUuid sharedPassword : Option String)
    (connToken : Option ConnToken)
  | getConnToken (n : ℕ)
  | handleHash (n : ℕ) (passwordPreset : String) (hash : Hash) (ab : Ab)
  | handleLoginError (n : ℕ) (err : String)
  | handleLoginFromUi (n : ℕ) (password : String) (remember : Bool)
  | handlePeerInfo (n : ℕ)

namespace LoginClient

variable (env : LoginEnv)

/-- A handler changes. -/
def setHandler (s : LoginClient) (n : ℕ) (lc : LoginConfigHandler) : LoginClient :=
  { s with handlers := Function.update s.handlers n lc }

/-- `PeerConfig::store`. -/
def store (s : LoginClient) (id : String) (config : PeerConfig) : LoginClient :=
  { s with stored := Function.update s.stored id config }

/-- One step of one of the handlers. -/
def step (s : LoginClient) : LoginEvent → Option LoginClient
  | .initializeHandler n id switchUuid sharedPassword connToken =>
    -- a token is one that a handler gave out
    if ∀ token ∈ connToken, token ∈ s.tokens then
      some (s.setHandler n
        ((s.handlers n).initializeHandler id (s.stored id) switchUuid sharedPassword connToken))
    else none
  | .getConnToken n => some { s with tokens := s.tokens ++ (s.handlers n).getConnToken.toList }
  | .handleHash n passwordPreset hash ab =>
    some (s.setHandler n ((s.handlers n).handleHash env passwordPreset hash ab).1)
  | .handleLoginError n err =>
    let (lc, config) := (s.handlers n).handleLoginError (s.stored (s.handlers n).id) err
    some ((s.setHandler n lc).store lc.id config)
  | .handleLoginFromUi n password remember =>
    some (s.setHandler n ((s.handlers n).handleLoginFromUi env password remember).1)
  | .handlePeerInfo n =>
    let (lc, event) := (s.handlers n).handlePeerInfo env (s.stored (s.handlers n).id)
    some { (s.setHandler n lc).store lc.id lc.config with synced := s.synced ++ event.toList }

/-- Before any handler is initialized, with the passwords that are stored. -/
def machine (saved : String → List UInt8) (trusted : String → Bool) :
    Machine LoginClient LoginEvent :=
  ⟨⟨fun _ => .new, fun id => ⟨⟨saved id, .stored⟩, trusted id⟩, [], []⟩, step env⟩

end LoginClient

end RdWeb.SharedPassword
