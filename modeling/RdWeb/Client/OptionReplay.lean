import RdWeb.Client.ToggleOption

/-!
# Replaying the toggles of a session

A toggle is followed by the host as it would be from the saved config, with two exceptions:
while view-only is on, a toggle sends the value that view-only hides, and a name without a
field sends nothing, also where the login sends what is saved under it.
-/

namespace RdWeb.Client

open LoginConfigHandler HostOptions

namespace OptionSession

variable {env : SessionEnv} {s : OptionSession}

/-- An option that is off follows the option it is sent. -/
@[simp] theorem updated_yesIf (b : Bool) : updated false (yesIf b) = b := by
  cases b <;> rfl

/-- An option follows either truth value. -/
@[simp] theorem updated_ofBool (old b : Bool) : updated old (.ofBool b) = b := by
  cases b <;> rfl

/-- An option that is not sent stays. -/
@[simp] theorem updated_notSet (old : Bool) : updated old .notSet = old := rfl

/-- A quality that is not sent stays. -/
@[simp] theorem updatedQuality_notSet (old : Option ℤ) : updatedQuality old .notSet 0#32 = old :=
  rfl

/-- A rate that is not sent stays. -/
@[simp] theorem updatedFps_zero (old : Option ℕ) : updatedFps old 0 = old := rfl

/-- The quality a new connection is set to. -/
def freshQuality (env : SessionEnv) (q : String) (saved : List (BitVec 32)) : Option ℤ :=
  match getImageQualityEnum q true with
  | some q => updatedQuality none q 0
  | none =>
    if q = "custom" then updatedQuality none .notSet (customImageQuality env saved) else none

/-- The rate a new connection is set to, by what is saved under `custom-fps`. -/
def freshFps (env : SessionEnv) (q : String) (saved : Option String) : Option ℕ :=
  if q = "custom" ∧ env.flutter = true then
    saved.bind fun text => updatedFps none (customFps env text)
  else none

/-- The decoders a new connection is told. -/
def freshDecoding (env : SessionEnv) (options : OrderedMap String String) : SupportedDecoding :=
  ⟨env.abilities, (preference options).1, (preference options).2⟩

/-- A new connection has the saved options, under what view-only forces. -/
theorem freshHost_eq (hdesktop : env.connType = .defaultConn) (config : PeerConfig) :
    freshHost env ⟨config, config⟩ =
      { lockAfterSessionEnd := !config.viewOnly && config.lockAfterSessionEnd
        showRemoteCursor := config.viewOnly || config.showRemoteCursor
        followRemoteCursor := config.followRemoteCursor
        followRemoteWindow := config.followRemoteWindow
        disableAudio := config.disableAudio
        enableFileTransfer := !config.viewOnly && config.enableFileCopyPaste
        disableClipboard := config.viewOnly || config.disableClipboard
        disableKeyboard := config.viewOnly
        imageQuality := freshQuality env config.imageQuality config.customImageQuality
        customFps := freshFps env config.imageQuality (config.options.get? "custom-fps")
        supportedDecoding := some (freshDecoding env config.options) } := by
  have hquality : updatedQuality none (qualityMessage env ⟨config, config⟩ true).imageQuality
      (qualityMessage env ⟨config, config⟩ true).customImageQuality =
        freshQuality env config.imageQuality config.customImageQuality := by
    rw [qualityMessage, freshQuality]
    cases getImageQualityEnum config.imageQuality true with
    | some q => rfl
    | none =>
      dsimp only
      split_ifs <;> rfl
  have hfps : updatedFps none (qualityMessage env ⟨config, config⟩ true).customFps =
      freshFps env config.imageQuality (config.options.get? "custom-fps") := by
    rw [qualityMessage, freshFps]
    dsimp only
    split
    case h_1 q hq =>
      have hcustom : config.imageQuality ≠ "custom" := by
        intro h
        rw [h] at hq
        cases hq
      simp [hcustom]
    case h_2 =>
      by_cases hcustom : config.imageQuality = "custom"
      · cases hflutter : env.flutter <;> cases hget : config.options.get? "custom-fps" <;>
          simp [hcustom]
      · simp [hcustom]
  simp only [freshHost, getOptionMessage, hdesktop, HostOptions.apply, updateOptions,
    HostOptions.new, reduceCtorEq, or_self, if_false, Option.map_some, Option.getD_some,
    updated_yesIf, hquality, hfps]
  rfl

/-- The host is where a new connection with the saved config would be; so with view-only on,
keyboard, clipboard and file copy are disabled. -/
structure Synced (env : SessionEnv) (s : OptionSession) : Prop where
  saved : s.handler.stored = s.handler.config
  host_eq : s.host = freshHost env s.handler
  viewOnly : s.handler.config.viewOnly = true →
    s.host.disableKeyboard = true ∧ s.host.disableClipboard = true ∧
      s.host.enableFileTransfer = false

/-- A desktop session is synced if the host has just the options of the configuration. -/
theorem synced_iff (hdesktop : env.connType = .defaultConn) {config : PeerConfig}
    {host : HostOptions} :
    Synced env ⟨⟨config, config⟩, host⟩ ↔ host = freshHost env ⟨config, config⟩ := by
  refine ⟨Synced.host_eq, fun h => ⟨rfl, h, fun hview => ?_⟩⟩
  dsimp only at hview ⊢
  rw [h, freshHost_eq hdesktop]
  simp [hview]

/-- The next toggle is followed: with view-only on, it brings the option to what view-only
forces; and what the login sends for a name without a field stays the same. -/
def Followed (env : SessionEnv) (config : PeerConfig) (name : String) : Prop :=
  match name with
  | "show-remote-cursor" => config.viewOnly = true → config.showRemoteCursor = false
  | "disable-clipboard" => config.viewOnly = true → config.disableClipboard = false
  | "lock-after-session-end" => config.viewOnly = true → config.lockAfterSessionEnd = true
  | "enable-file-copy-paste" => config.viewOnly = true → config.enableFileCopyPaste = true
  | "custom-fps" => env.flutter = true → config.imageQuality = "custom" →
      ∃ text, config.options.get? "custom-fps" = some text ∧
        (text = "" ∨ customFps env text < MIN_FPS ∨ customFps env text > MAX_FPS)
  | "codec-preference" =>
      (config.options.get? "codec-preference").getD "" ∉ ["vp8", "vp9", "av1", "h264", "h265"]
  | "i444" => ∃ text, config.options.get? "i444" = some text ∧ text ≠ "" ∧ text ≠ "Y"
  | _ => True

/-- The options after one was toggled. -/
theorem get?_toggledOptions (options : OrderedMap String String) (name m : String) :
    (toggledOptions options name).get? m =
      if m = name then if (options.get? name).getD "" ≠ "" then none else some "Y"
      else options.get? m := by
  rw [toggledOptions]
  split_ifs <;> simp_all

/-- A name without a field is followed if the login sends the same with it and without it. -/
theorem synced_toggledOptions_iff (hdesktop : env.connType = .defaultConn) (config : PeerConfig)
    (name : String) :
    Synced env ⟨saveConfig { config with options := toggledOptions config.options name },
        freshHost env ⟨config, config⟩⟩ ↔
      freshFps env config.imageQuality (config.options.get? "custom-fps") =
          freshFps env config.imageQuality
            ((toggledOptions config.options name).get? "custom-fps") ∧
        preference config.options = preference (toggledOptions config.options name) := by
  rw [saveConfig, synced_iff hdesktop, freshHost_eq hdesktop, freshHost_eq hdesktop]
  simp [freshDecoding, Prod.ext_iff]

/-- Turning the custom rate on or off changes what a new connection is told, unless the quality
is not custom or the saved text stands for the same. -/
theorem freshFps_toggled_iff (options : OrderedMap String String) (q : String) :
    freshFps env q (options.get? "custom-fps") =
        freshFps env q ((toggledOptions options "custom-fps").get? "custom-fps") ↔
      (env.flutter = true → q = "custom" → ∃ text, options.get? "custom-fps" = some text ∧
        (text = "" ∨ customFps env text < MIN_FPS ∨ customFps env text > MAX_FPS)) := by
  have hdefault (text : String) (htext : parseI32 text = none) :
      updatedFps none (customFps env text) = some 30 := by
    simp [LoginConfigHandler.customFps, htext, updatedFps, MIN_FPS, MAX_FPS]
  have hempty := hdefault "" (by decide)
  have hY := hdefault "Y" (by decide)
  have hrange (text : String) : updatedFps none (customFps env text) = none ↔
      customFps env text < MIN_FPS ∨ customFps env text > MAX_FPS := by
    rw [updatedFps, MIN_FPS, MAX_FPS]
    split_ifs <;> simp <;> omega
  rw [get?_toggledOptions, if_pos rfl, freshFps, freshFps]
  split_ifs with hcustom hset
  · cases hget : options.get? "custom-fps" with
    | none => simp [hget] at hset
    | some text =>
      have htext : text ≠ "" := by simpa [hget] using hset
      simp [hcustom, htext, hrange]
  · cases hget : options.get? "custom-fps" with
    | none => simp [hcustom, hY]
    | some text =>
      obtain rfl : text = "" := by simpa [hget] using hset
      simp [hcustom, hY, hempty]
  · simp
    tauto

/-- The saved codec is one that stands for no choice. -/
theorem ofName_eq_auto_iff (codec : String) :
    PreferCodec.ofName codec = .auto ↔ codec ∉ ["vp8", "vp9", "av1", "h264", "h265"] := by
  unfold PreferCodec.ofName
  split <;> simp_all

/-- A name without a field keeps what another name decides. -/
theorem preference_toggledOptions {options : OrderedMap String String} {name : String}
    (hcodec : name ≠ "codec-preference") (hi444 : name ≠ "i444") :
    preference (toggledOptions options name) = preference options := by
  simp only [preference, get?_toggledOptions, if_neg hcodec.symm, if_neg hi444.symm]

/-- Toggling the codec option keeps the preference unless it names a codec. -/
theorem preference_codec_iff (options : OrderedMap String String) :
    preference options = preference (toggledOptions options "codec-preference") ↔
      (options.get? "codec-preference").getD "" ∉ ["vp8", "vp9", "av1", "h264", "h265"] := by
  have hauto : PreferCodec.ofName
      (((toggledOptions options "codec-preference").get? "codec-preference").getD "") =
        .auto := by
    rw [get?_toggledOptions, if_pos rfl]
    split_ifs <;> rfl
  have hi444 : (toggledOptions options "codec-preference").get? "i444" = options.get? "i444" := by
    rw [get?_toggledOptions, if_neg (by decide)]
  rw [preference, preference, hauto, hi444, Prod.mk.injEq, ofName_eq_auto_iff]
  exact and_iff_left rfl

/-- Toggling the colour option loses the preference only if it is a text of its own. -/
theorem preference_i444_iff (options : OrderedMap String String) :
    preference options = preference (toggledOptions options "i444") ↔
      ∃ text, options.get? "i444" = some text ∧ text ≠ "" ∧ text ≠ "Y" := by
  simp only [preference, get?_toggledOptions, if_neg (show "codec-preference" ≠ "i444" by decide),
    if_true, Prod.mk.injEq, true_and]
  cases options.get? "i444" with
  | none => simp
  | some text =>
    by_cases hempty : text = "" <;> by_cases hY : text = "Y" <;> simp [hempty, hY]

/-- A toggle of a name without a field sends nothing. -/
theorem toggle_named {config : PeerConfig} {host : HostOptions} {name : String}
    (hnamed : toggleOption ⟨config, config⟩ name =
      (saveConfig { config with options := toggledOptions config.options name }, none)) :
    toggle ⟨⟨config, config⟩, host⟩ name =
      ⟨saveConfig { config with options := toggledOptions config.options name }, host⟩ := by
  simp [toggle, hnamed, HostOptions.apply]

/-- **One toggle.** -/
theorem synced_toggle_iff (hdesktop : env.connType = .defaultConn) (hs : Synced env s)
    (name : String) : Synced env (s.toggle name) ↔ Followed env s.handler.config name := by
  obtain ⟨⟨_, config⟩, host⟩ := s
  obtain ⟨hsaved, hhost, -⟩ := hs
  dsimp only at hsaved hhost ⊢
  subst hsaved hhost
  unfold Followed
  split
  case h_1 | h_2 | h_3 | h_4 =>
    simp only [toggle, toggleOption, saveConfig, synced_iff hdesktop, freshHost_eq hdesktop,
      HostOptions.apply, Option.map_some, Option.getD_some, updateOptions, updated_notSet,
      updated_ofBool]
    cases hview : config.viewOnly <;> simp
  case h_5 =>
    rw [toggle_named rfl, synced_toggledOptions_iff hdesktop, freshFps_toggled_iff,
      preference_toggledOptions (by decide) (by decide)]
    exact and_iff_left rfl
  case h_6 =>
    rw [toggle_named rfl, synced_toggledOptions_iff hdesktop, preference_codec_iff,
      get?_toggledOptions, if_neg (by decide)]
    exact and_iff_right rfl
  case h_7 =>
    rw [toggle_named rfl, synced_toggledOptions_iff hdesktop, preference_i444_iff,
      get?_toggledOptions, if_neg (by decide)]
    exact and_iff_right rfl
  case h_8 hcursor hclipboard hlock hfile hfps hcodec hi444 =>
    refine iff_of_true ?_ trivial
    cases htoggle : toggleOption ⟨config, config⟩ name with
    | mk handler o =>
      simp only [toggle, htoggle]
      unfold toggleOption at htoggle
      split at htoggle <;> obtain ⟨rfl, rfl⟩ := Prod.mk.inj htoggle
      case h_1 => exact absurd rfl hcursor
      case h_5 => exact absurd rfl hclipboard
      case h_6 => exact absurd rfl hlock
      case h_8 => exact absurd rfl hfile
      case h_13 =>
        simp only [saveConfig, synced_iff hdesktop, freshHost_eq hdesktop, HostOptions.apply,
          Option.map_some, Option.getD_some, updateOptions, viewOnlyMessage]
        cases hview : config.viewOnly <;> simp
      case h_14 =>
        have hname : preference (toggledOptions config.options name) = preference config.options :=
          preference_toggledOptions hcodec hi444
        refine (synced_toggledOptions_iff hdesktop config name).mpr ⟨?_, hname.symm⟩
        rw [get?_toggledOptions, if_neg fun h => hfps h.symm]
      all_goals
        simp only [saveConfig, synced_iff hdesktop, freshHost_eq hdesktop, HostOptions.apply,
          Option.map_some, Option.getD_some, updateOptions, updated_notSet, updated_ofBool,
          updatedFps_zero]
        rfl

/-- The login leaves the host in sync. -/
theorem synced_login (hdesktop : env.connType = .defaultConn) (config : PeerConfig) :
    Synced env (login env config) :=
  (synced_iff hdesktop).mpr rfl

/-- **Option replay.** In a desktop session, after any of its toggles the host is where a new
connection with the saved config would be, if and only if every toggle is followed. -/
theorem synced_iff_followed (hdesktop : env.connType = .defaultConn) (config : PeerConfig)
    {names : List String} (hrun : (machine env config).Run (machine env config).init names s) :
    (∀ first u, first <+: names → (machine env config).Run (machine env config).init first u →
      Synced env u) ↔
      (machine env config).RunWhere (fun t name => Followed env t.handler.config name)
        (machine env config).init names s := by
  refine Machine.runWhere_iff_invariant (fun t name u hstep ht => ?_)
    (synced_login hdesktop config) hrun
  obtain rfl := Option.some.inj hstep
  exact synced_toggle_iff hdesktop ht name

/-- The session of the examples. -/
def demoEnv : SessionEnv := ⟨.defaultConn, true, false, none, ⟨1, 1, 1, 0, 0⟩⟩

/-- A config with nothing turned on. -/
def demoConfig : PeerConfig :=
  ⟨false, false, false, false, false, false, false, false, false, false, false,
    OrderedMap.empty, "balanced", []⟩

/-- Audio is disabled, and view-only turned on and off. -/
def audioAndView : List String := ["disable-audio", "view-only", "view-only"]

/-- The session after these toggles. -/
def afterAudioAndView : OptionSession :=
  ((machine demoEnv demoConfig).replay (machine demoEnv demoConfig).init audioAndView).getD
    (login demoEnv demoConfig)

/-- The equivalence on a run that toggles audio and then view only. -/
theorem synced_iff_followed_audioAndView :
    (∀ first u, first <+: audioAndView →
      (machine demoEnv demoConfig).Run (machine demoEnv demoConfig).init first u →
        Synced demoEnv u) ↔
      (machine demoEnv demoConfig).RunWhere
        (fun t name => Followed demoEnv t.handler.config name)
        (machine demoEnv demoConfig).init audioAndView afterAudioAndView :=
  synced_iff_followed rfl demoConfig (Machine.run_of_replay rfl)

/-- File copy is toggled while view-only is on. -/
def fileUnderView : List String := ["view-only", "enable-file-copy-paste"]

/-- The session after these toggles. -/
def afterFileUnderView : OptionSession :=
  ((machine demoEnv demoConfig).replay (machine demoEnv demoConfig).init fileUnderView).getD
    (login demoEnv demoConfig)

/-- View only forbids the clipboard of files, and toggling that option then loses it. -/
theorem not_synced_fileUnderView :
    ¬ ∀ (env : SessionEnv) (config : PeerConfig) (names : List String) (s : OptionSession),
      env.connType = .defaultConn → (machine env config).Run (machine env config).init names s →
        Synced env s := by
  intro hall
  have hsynced := hall demoEnv demoConfig fileUnderView afterFileUnderView rfl
    (Machine.run_of_replay rfl)
  have hfile := (hsynced.viewOnly (by decide)).2.2
  revert hfile
  decide

end OptionSession

end RdWeb.Client
