import RdWeb.Lib.LowerCase
import Mathlib.Data.List.DropRight

/-!
# The server named by the file name

A client renamed to `rustdesk-host=…,key=….exe` takes its server from its own file name. The
start of the settings is searched for in the lower-cased name, and the name itself is cut at the
byte offset found there.
-/

namespace RdWeb.Client

open String (utf8Len)

/-- `CustomServer`. -/
structure CustomServer where
  key : List Char
  host : List Char
  api : List Char
  relay : List Char
deriving DecidableEq

/-- `CustomServer::default`. -/
def CustomServer.default : CustomServer := ⟨[], [], [], []⟩

/-- The decoding of a licence: Base64 for URLs without padding, JSON, and a signature. -/
structure LicenceDecoding where
  decode : List Char → Option (List UInt8)
  fromSlice : List UInt8 → Option CustomServer
  verify : List UInt8 → List UInt8 → Option (List UInt8)

/-- `PK` of `get_custom_server_from_config_string`. -/
def licenceKey : List UInt8 :=
  [88, 168, 68, 104, 60, 5, 163, 198, 165, 38, 12, 85, 114, 203, 96, 163, 70, 48, 0, 131, 57,
    12, 46, 129, 83, 17, 84, 193, 119, 197, 130, 103]

/-- `get_custom_server_from_config_string`, with all its errors as `none`. -/
def getCustomServerFromConfigString (licences : LicenceDecoding) (s : List Char) :
    Option CustomServer := do
  let data ← licences.decode s.reverse
  licences.fromSlice data <|> (licences.verify data licenceKey).bind licences.fromSlice

/-- `str::split` at a pattern; the counter passes over the rest of an occurrence. -/
def splitAtPattern (pat : List Char) : ℕ → List Char → List Char → List (List Char)
  | _, part, [] => [part.reverse]
  | skip + 1, part, _ :: s => splitAtPattern pat skip part s
  | 0, part, c :: s =>
    if pat <+: c :: s then part.reverse :: splitAtPattern pat (pat.length - 1) [] s
    else splitAtPattern pat 0 (c :: part) s

/-- `str::replace`. -/
def replace (pat new s : List Char) : List Char :=
  new.intercalate (splitAtPattern pat 0 [] s)

/-- The characters `str::trim` takes away. -/
def IsWhitespace (c : Char) : Prop :=
  (9 ≤ c.toNat ∧ c.toNat ≤ 13) ∨ c.toNat = 0x20 ∨ c.toNat = 0x85 ∨ c.toNat = 0xA0 ∨
    c.toNat = 0x1680 ∨ (0x2000 ≤ c.toNat ∧ c.toNat ≤ 0x200A) ∨ c.toNat = 0x2028 ∨
    c.toNat = 0x2029 ∨ c.toNat = 0x202F ∨ c.toNat = 0x205F ∨ c.toNat = 0x3000

/-- Whether a character is white space is decided by its code. -/
instance : DecidablePred IsWhitespace := fun _ => inferInstanceAs (Decidable (_ ∨ _))

/-- `str::trim`. -/
def trim (s : List Char) : List Char :=
  (s.dropWhile IsWhitespace).rdropWhile IsWhitespace

/-- The name without its last `k` bytes, `none` where the slice panics. -/
def dropLastBytes (k : ℕ) (s : List Char) : Option (List Char) :=
  if k ≤ utf8Len s then (LowerCase.splitAtByte (utf8Len s - k) s).map Prod.fst else none

/-- The keys of the settings. -/
inductive Setting
  | host
  | key
  | api
  | relay
deriving DecidableEq

/-- What a part that sets it starts with. -/
def Setting.keyword : Setting → List Char
  | .host => "host=".toList
  | .key => "key=".toList
  | .api => "api=".toList
  | .relay => "relay=".toList

/-- The value of a setting. -/
def CustomServer.get (server : CustomServer) : Setting → List Char
  | .host => server.host
  | .key => server.key
  | .api => server.api
  | .relay => server.relay

/-- The server with another value of a setting. -/
def CustomServer.set (server : CustomServer) : Setting → List Char → CustomServer
  | .host, value => { server with host := value }
  | .key, value => { server with key := value }
  | .api, value => { server with api := value }
  | .relay, value => { server with relay := value }

section

variable (L : LowerCase) (licences : LicenceDecoding)

/-- A part sets what it starts with the keyword of, in any letter case. -/
def setFrom (el : List Char) (setting : Setting) (server : CustomServer) : CustomServer :=
  if setting.keyword <+: L.toLowercase el then
    server.set setting (el.drop setting.keyword.length)
  else server

/-- What one part of the settings does. -/
def readPart (server : CustomServer) (el : List Char) : CustomServer :=
  setFrom L el .relay (setFrom L el .api (setFrom L el .key (setFrom L el .host server)))

/-- The server that the settings say. -/
def readSettings (stripped : List Char) : CustomServer :=
  (stripped.splitOn ',').foldl (readPart L) .default

/-- The first licence among the parts of a name without settings. -/
def findLicence (s : List Char) : Option CustomServer :=
  let config (s : List Char) := getCustomServerFromConfigString licences (trim s)
  let s := replace "-licensed-".toList "--".toList
    (replace "-licensed--".toList "--".toList (replace "-licensed---".toList "--".toList s))
  (splitAtPattern "--".toList 0 [] s).findSome? fun s =>
    config s <|> if '(' ∈ s then (s.splitOn '(').findSome? config else none

/-- The name without its extension, `none` where a slice panics. -/
def stripExe (s : List Char) : Option (List Char) :=
  if ".exe.exe".toList <:+ L.toLowercase s then dropLastBytes 8 s
  else if ".exe".toList <:+ L.toLowercase s then dropLastBytes 4 s
  else some s

/-- `get_custom_server_from_string`: `none` where a slice panics, else the server or an error. -/
def getCustomServerFromString (s : List Char) : Option (Except String CustomServer) := do
  let s ← stripExe L s
  match LowerCase.find "host=".toList (L.toLowercase s) with
  | some n =>
    let parts ← LowerCase.splitAtByte n s
    some (.ok (readSettings L parts.2))
  | none =>
    some ((findLicence licences s).elim (.error "Failed to parse") .ok)

end

/-! ### Settings as text -/

/-- The settings in the order they are written in. -/
def settings : List Setting := [.host, .key, .api, .relay]

/-- A setting as a part of the name, with a keyword in some letter case. -/
def part (keyword : Setting → List Char) (server : CustomServer) (setting : Setting) : List Char :=
  keyword setting ++ server.get setting

/-- Settings as text, with a comma behind each. -/
def render (keyword : Setting → List Char) (server : CustomServer) (written : List Setting) :
    List Char :=
  written.flatMap fun setting => part keyword server setting ++ [',']

/-- A prefix, the settings and the extension. -/
def fileName (start : List Char) (keyword : Setting → List Char) (server : CustomServer)
    (exe : List Char) : List Char :=
  start ++ render keyword server settings ++ exe

end RdWeb.Client
