import Mathlib.Algebra.Order.Ring.Int
import RdWeb.Lib.Machine
import RdWeb.Lib.OrderedMap

/-!
# Options of a session and the host that follows them

`toggle_option` and `get_option_message` of `client.rs`, and `update_options` of the host
(`connection.rs`). What `PeerConfig` stores is what it loads. The host's services follow from
its options and are left out, and so are privacy mode and input blocking, which a toggle
requests but does not keep.
-/

namespace RdWeb.Client

/-- A truth value that may be absent. -/
inductive BoolOption
  | notSet
  | no
  | yes
  deriving DecidableEq, Repr

/-- A truth value that is present. -/
def BoolOption.ofBool (b : Bool) : BoolOption := if b then .yes else .no

/-- The choices for the image quality. -/
inductive ImageQuality
  | notSet
  | low
  | balanced
  | best
  deriving DecidableEq, Repr

/-- The numbers of the choices. -/
def ImageQuality.value : ImageQuality → ℤ
  | .notSet => 0
  | .low => 2
  | .balanced => 3
  | .best => 4

/-- The codecs one may prefer. -/
inductive PreferCodec
  | auto
  | vp8
  | vp9
  | av1
  | h264
  | h265
  deriving DecidableEq, Repr

/-- The two samplings of colour. -/
inductive Chroma
  | i420
  | i444
  deriving DecidableEq, Repr

/-- The kinds of connection. -/
inductive ConnType
  | defaultConn
  | fileTransfer
  | portForward
  | rdp
  deriving DecidableEq, Repr

/-- What the decoders can do, without the codecs marked as unsupported. -/
structure DecoderAbilities where
  vp8 : ℕ
  vp9 : ℕ
  av1 : ℕ
  h264 : ℕ
  h265 : ℕ
  deriving DecidableEq, Repr

/-- What the client can decode and would like to get. -/
structure SupportedDecoding where
  abilities : DecoderAbilities
  prefer : PreferCodec
  preferChroma : Chroma
  deriving DecidableEq, Repr

/-- The message that changes options. -/
structure OptionMessage where
  imageQuality : ImageQuality := .notSet
  customImageQuality : BitVec 32 := 0
  customFps : ℤ := 0
  lockAfterSessionEnd : BoolOption := .notSet
  showRemoteCursor : BoolOption := .notSet
  followRemoteCursor : BoolOption := .notSet
  followRemoteWindow : BoolOption := .notSet
  disableAudio : BoolOption := .notSet
  disableClipboard : BoolOption := .notSet
  disableKeyboard : BoolOption := .notSet
  enableFileTransfer : BoolOption := .notSet
  privacyMode : BoolOption := .notSet
  blockInput : BoolOption := .notSet
  supportedDecoding : Option SupportedDecoding := none

/-- The fields of `PeerConfig` that the options use. -/
structure PeerConfig where
  showRemoteCursor : Bool
  followRemoteCursor : Bool
  followRemoteWindow : Bool
  disableAudio : Bool
  disableClipboard : Bool
  lockAfterSessionEnd : Bool
  privacyMode : Bool
  enableFileCopyPaste : Bool
  showQualityMonitor : Bool
  allowSwapKey : Bool
  viewOnly : Bool
  options : OrderedMap String String
  imageQuality : String
  customImageQuality : List (BitVec 32)

/-- `parse` of an `i32`. -/
def parseI32 (text : String) : Option ℤ :=
  let parseDigits (digits : List Char) : Option ℕ :=
    if digits ≠ [] ∧ digits.all Char.isDigit then some (Nat.ofDigitChars 10 digits 0) else none
  let value : Option ℤ :=
    match text.toList with
    | '-' :: digits => (parseDigits digits).map fun n => -(n : ℤ)
    | '+' :: digits => (parseDigits digits).map fun n => (n : ℤ)
    | digits => (parseDigits digits).map fun n => (n : ℤ)
  value.filter fun n => -2 ^ 31 ≤ n ∧ n < 2 ^ 31

/-- What does not change in a session: the kind of connection, the build, whether the public
server is used, whether the connection is direct, and what the decoders can do. -/
structure SessionEnv where
  connType : ConnType
  flutter : Bool
  usingPublicServer : Bool
  direct : Option Bool
  abilities : DecoderAbilities

/-- Custom quality is allowed off the public server or on a direct connection. -/
def SessionEnv.allowMore (env : SessionEnv) : Bool :=
  !env.usingPublicServer || env.direct = some true

/-- The codec that a name stands for. -/
def PreferCodec.ofName (codec : String) : PreferCodec :=
  match codec with
  | "vp8" => .vp8
  | "vp9" => .vp9
  | "av1" => .av1
  | "h264" => .h264
  | "h265" => .h265
  | _ => .auto

/-- `Decoder::preference`, from the stored options. -/
def preference (options : OrderedMap String String) : PreferCodec × Chroma :=
  let codec := .ofName ((options.get? "codec-preference").getD "")
  let chroma := if options.get? "i444" = some "Y" then .i444 else .i420
  (codec, chroma)

/-- The config in memory, and the one on disk. -/
structure LoginConfigHandler where
  config : PeerConfig
  stored : PeerConfig

namespace LoginConfigHandler

/-- A saved configuration is also the current one. -/
def saveConfig (config : PeerConfig) : LoginConfigHandler := ⟨config, config⟩

/-- `get_image_quality_enum`. -/
def getImageQualityEnum (q : String) (ignoreDefault : Bool) : Option ImageQuality :=
  match q with
  | "low" => some .low
  | "best" => some .best
  | "balanced" => if ignoreDefault then none else some .balanced
  | _ => none

/-- `custom_image_quality` of `get_option_message`. -/
def customImageQuality (env : SessionEnv) (saved : List (BitVec 32)) : BitVec 32 :=
  let quality : BitVec 32 :=
    match saved with
    | [] => 50
    | quality :: _ => if !env.allowMore && quality.toInt > 100 then 50 else quality
  quality <<< 8

/-- `custom_fps` of `get_option_message`, for the text of the option. -/
def customFps (env : SessionEnv) (text : String) : ℤ :=
  let fps := (parseI32 text).getD 30
  if !env.allowMore && fps > 30 then 30 else fps

/-- What the client can decode, with the preference of its saved options. -/
def getSupportedDecoding (env : SessionEnv) (h : LoginConfigHandler) : SupportedDecoding :=
  let (prefer, preferChroma) := preference h.stored.options
  ⟨env.abilities, prefer, preferChroma⟩

/-- The part of `get_option_message` about quality and fps. -/
def qualityMessage (env : SessionEnv) (h : LoginConfigHandler) (ignoreDefault : Bool) :
    OptionMessage :=
  match getImageQualityEnum h.config.imageQuality ignoreDefault with
  | some q => { imageQuality := q }
  | none =>
    if h.config.imageQuality = "custom" then
      { customImageQuality := customImageQuality env h.stored.customImageQuality
        customFps :=
          match h.config.options.get? "custom-fps" with
          | some text => if env.flutter then customFps env text else 0
          | none => 0 }
    else {}

/-- An option that is sent only if it is on. -/
def yesIf (b : Bool) : BoolOption := if b then .yes else .notSet

/-- `get_option_message`. -/
def getOptionMessage (env : SessionEnv) (h : LoginConfigHandler) (ignoreDefault : Bool) :
    Option OptionMessage :=
  if env.connType = .portForward ∨ env.connType = .rdp ∨ env.connType = .fileTransfer then none
  else
    let viewOnly := h.config.viewOnly
    some { h.qualityMessage env ignoreDefault with
      disableKeyboard := yesIf viewOnly
      showRemoteCursor := yesIf (viewOnly || h.config.showRemoteCursor)
      followRemoteCursor := yesIf h.config.followRemoteCursor
      followRemoteWindow := yesIf h.config.followRemoteWindow
      lockAfterSessionEnd := yesIf (!viewOnly && h.config.lockAfterSessionEnd)
      disableAudio := yesIf h.config.disableAudio
      enableFileTransfer := yesIf (!viewOnly && h.config.enableFileCopyPaste)
      disableClipboard := yesIf (viewOnly || h.config.disableClipboard)
      supportedDecoding := some (h.getSupportedDecoding env) }

/-- The message of the toggle `view-only`, which was switched to `viewOnly`. -/
def viewOnlyMessage (h : LoginConfigHandler) (viewOnly : Bool) : OptionMessage :=
  if viewOnly then
    { disableKeyboard := .ofBool true
      disableClipboard := .ofBool true
      showRemoteCursor := .ofBool true
      enableFileTransfer := .ofBool false
      lockAfterSessionEnd := .ofBool false }
  else
    { disableKeyboard := .ofBool false
      disableClipboard := .ofBool h.config.disableClipboard
      showRemoteCursor := .ofBool h.config.showRemoteCursor
      enableFileTransfer := .ofBool h.config.enableFileCopyPaste
      lockAfterSessionEnd := .ofBool h.config.lockAfterSessionEnd }

/-- A name without a field is removed if it is set, and else set to `Y`. -/
def toggledOptions (options : OrderedMap String String) (name : String) :
    OrderedMap String String :=
  if (options.get? name).getD "" ≠ "" then options.delete name else options.set name "Y"

/-- `toggle_option`. -/
def toggleOption (h : LoginConfigHandler) (name : String) :
    LoginConfigHandler × Option OptionMessage :=
  let config := h.stored
  match name with
  | "show-remote-cursor" =>
    let on := !config.showRemoteCursor
    (saveConfig { config with showRemoteCursor := on },
      some { showRemoteCursor := .ofBool on })
  | "follow-remote-cursor" =>
    let on := !config.followRemoteCursor
    (saveConfig { config with followRemoteCursor := on },
      some { followRemoteCursor := .ofBool on })
  | "follow-remote-window" =>
    let on := !config.followRemoteWindow
    (saveConfig { config with followRemoteWindow := on },
      some { followRemoteWindow := .ofBool on })
  | "disable-audio" =>
    let on := !config.disableAudio
    (saveConfig { config with disableAudio := on }, some { disableAudio := .ofBool on })
  | "disable-clipboard" =>
    let on := !config.disableClipboard
    (saveConfig { config with disableClipboard := on }, some { disableClipboard := .ofBool on })
  | "lock-after-session-end" =>
    let on := !config.lockAfterSessionEnd
    (saveConfig { config with lockAfterSessionEnd := on },
      some { lockAfterSessionEnd := .ofBool on })
  | "privacy-mode" =>
    (saveConfig config, some { privacyMode := .ofBool (!config.privacyMode) })
  | "enable-file-copy-paste" =>
    let on := !config.enableFileCopyPaste
    (saveConfig { config with enableFileCopyPaste := on },
      some { enableFileTransfer := .ofBool on })
  | "block-input" => (h, some { blockInput := .yes })
  | "unblock-input" => (h, some { blockInput := .no })
  | "show-quality-monitor" =>
    (saveConfig { config with showQualityMonitor := !config.showQualityMonitor }, some {})
  | "allow_swap_key" =>
    (saveConfig { config with allowSwapKey := !config.allowSwapKey }, some {})
  | "view-only" =>
    let viewOnly := !config.viewOnly
    (saveConfig { config with viewOnly := viewOnly }, some (h.viewOnlyMessage viewOnly))
  | name =>
    (saveConfig { h.config with options := toggledOptions h.config.options name }, none)

end LoginConfigHandler

/-- The options of a `Connection` of the host, with the last quality, rate and decoders that
were set for it. -/
structure HostOptions where
  lockAfterSessionEnd : Bool
  showRemoteCursor : Bool
  followRemoteCursor : Bool
  followRemoteWindow : Bool
  disableAudio : Bool
  enableFileTransfer : Bool
  disableClipboard : Bool
  disableKeyboard : Bool
  imageQuality : Option ℤ
  customFps : Option ℕ
  supportedDecoding : Option SupportedDecoding

namespace HostOptions

/-- A new connection. -/
def new : HostOptions :=
  ⟨false, false, false, false, false, false, false, false, none, none, none⟩

/-- An option that is not set keeps its value. -/
def updated (old : Bool) : BoolOption → Bool
  | .notSet => old
  | .no => false
  | .yes => true

/-- `user_image_quality` of the quality service, for a positive value. -/
def updatedQuality (old : Option ℤ) (q : ImageQuality) (customImageQuality : BitVec 32) :
    Option ℤ :=
  let imageQuality :=
    match q with
    | .notSet => if customImageQuality.toInt > 0 then customImageQuality.toInt else -1
    | q => q.value
  if imageQuality > 0 then some imageQuality else old

/-- The least rate a user may set. -/
def MIN_FPS : ℕ := 1

/-- The greatest rate a user may set. -/
def MAX_FPS : ℕ := 120

/-- `user_custom_fps` of the quality service, for a positive value. -/
def updatedFps (old : Option ℕ) (customFps : ℤ) : Option ℕ :=
  if customFps > 0 then
    let fps := customFps.toNat
    if fps < MIN_FPS ∨ fps > MAX_FPS then old else some fps
  else old

/-- `update_options`. -/
def updateOptions (host : HostOptions) (o : OptionMessage) : HostOptions where
  lockAfterSessionEnd := updated host.lockAfterSessionEnd o.lockAfterSessionEnd
  showRemoteCursor := updated host.showRemoteCursor o.showRemoteCursor
  followRemoteCursor := updated host.followRemoteCursor o.followRemoteCursor
  followRemoteWindow := updated host.followRemoteWindow o.followRemoteWindow
  disableAudio := updated host.disableAudio o.disableAudio
  enableFileTransfer := updated host.enableFileTransfer o.enableFileTransfer
  disableClipboard := updated host.disableClipboard o.disableClipboard
  disableKeyboard := updated host.disableKeyboard o.disableKeyboard
  imageQuality := updatedQuality host.imageQuality o.imageQuality o.customImageQuality
  customFps := updatedFps host.customFps o.customFps
  supportedDecoding := o.supportedDecoding <|> host.supportedDecoding

/-- The host applies what it is sent, if anything. -/
def apply (host : HostOptions) (o : Option OptionMessage) : HostOptions :=
  (o.map host.updateOptions).getD host

end HostOptions

/-- A session: the client's handler, and what the host made of its messages. -/
structure OptionSession where
  handler : LoginConfigHandler
  host : HostOptions

namespace OptionSession

variable (env : SessionEnv)

/-- What a new connection of the host makes of the option message of the login. -/
def freshHost (handler : LoginConfigHandler) : HostOptions :=
  HostOptions.new.apply (handler.getOptionMessage env true)

/-- A session with a saved config, after the login. -/
def login (config : PeerConfig) : OptionSession :=
  ⟨⟨config, config⟩, freshHost env ⟨config, config⟩⟩

/-- A toggle of the user. -/
def toggle (s : OptionSession) (name : String) : OptionSession :=
  let (handler, o) := s.handler.toggleOption name
  ⟨handler, s.host.apply o⟩

/-- The toggles of a session, by name. -/
def machine (config : PeerConfig) : Machine OptionSession String :=
  ⟨login env config, fun s name => some (s.toggle name)⟩

end OptionSession

end RdWeb.Client
