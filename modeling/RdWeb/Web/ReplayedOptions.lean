import RdWeb.Client.OptionReplay
import RdWeb.Web.RecentPeers

/-!
# Options that are replayed at the next login

`rd_options.ts` sends an option message for every toggle and stores the option, and builds one
message of the stored options for the login; `update_options` of the host (`connection.rs`)
applies both. Blocking the input is a command to the input thread of the host, and not stored.
-/

namespace RdWeb.Web

open Client (BoolOption HostOptions ImageQuality OptionMessage)
open Client.LoginConfigHandler (yesIf)
open Client.OptionSession (updated_yesIf updated_ofBool updated_notSet updatedQuality_notSet
  updatedFps_zero)

/-- The build of the host, whether the login counts as one of an old version, and whether the
host lets the connection use its keyboard. -/
structure HostEnv where
  desktop : Bool
  fileCopy : Bool
  oldVersion : Bool
  keyboard : Bool

/-- The options of a connection of the host, and the privacy mode last asked of it. -/
structure RdHost where
  options : HostOptions
  privacyMode : Bool

namespace RdHost

/-- A new connection. -/
def new : RdHost := ⟨HostOptions.new, false⟩

/-- The fields of the message that the build of the host reads. -/
def readBy (env : HostEnv) (o : OptionMessage) : OptionMessage :=
  { o with
    showRemoteCursor := if env.desktop then o.showRemoteCursor else .notSet
    followRemoteCursor := if env.desktop then o.followRemoteCursor else .notSet
    enableFileTransfer := if env.fileCopy then o.enableFileTransfer else .notSet }

/-- `update_options`. -/
def updateOptions (env : HostEnv) (host : RdHost) (o : OptionMessage) : RdHost where
  options := host.options.updateOptions (readBy env o)
  privacyMode :=
    if env.oldVersion && env.keyboard then HostOptions.updated host.privacyMode o.privacyMode
    else host.privacyMode

/-- The host applies what it is sent, if anything. -/
def apply (env : HostEnv) (host : RdHost) (o : Option OptionMessage) : RdHost :=
  (o.map (host.updateOptions env)).getD host

end RdHost

namespace RdOptions

/-- Whether an option is on. -/
def isOn (options : PeerOptions Json) (name : String) : Bool :=
  ((options.get? name).map Json.truthy).getD false

/-- The quality that a stored text stands for. -/
def getImageQualityEnum (value : Option Json) (ignoreDefault : Bool) : Option ImageQuality :=
  match value with
  | some (.string "low") => some .low
  | some (.string "best") => some .best
  | some (.string "balanced") => if ignoreDefault then none else some .balanced
  | _ => none

/-- `getOptionMessage`; the message is left out if nothing is set in it. -/
def getOptionMessage (options : PeerOptions Json) : Option OptionMessage :=
  let q := getImageQualityEnum (options.get? "image-quality") true
  if q = none ∧ !isOn options "show-remote-cursor" ∧ !isOn options "lock-after-session-end" ∧
      !isOn options "privacy-mode" ∧ !isOn options "disable-audio" ∧
      !isOn options "disable-clipboard" then
    none
  else
    some { imageQuality := q.getD .notSet
           showRemoteCursor := yesIf (isOn options "show-remote-cursor")
           lockAfterSessionEnd := yesIf (isOn options "lock-after-session-end")
           privacyMode := yesIf (isOn options "privacy-mode")
           disableAudio := yesIf (isOn options "disable-audio")
           disableClipboard := yesIf (isOn options "disable-clipboard") }

/-- The message of `toggleOption`, where the option is turned on or off. -/
def toggleMessage (name : String) (v : Bool) : Option OptionMessage :=
  let v2 := BoolOption.ofBool v
  match name with
  | "show-remote-cursor" => some { showRemoteCursor := v2 }
  | "disable-audio" => some { disableAudio := v2 }
  | "disable-clipboard" => some { disableClipboard := v2 }
  | "lock-after-session-end" => some { lockAfterSessionEnd := v2 }
  | "privacy-mode" => some { privacyMode := v2 }
  | "block-input" => some { blockInput := .yes }
  | "unblock-input" => some { blockInput := .no }
  | "view-only" =>
    some { disableKeyboard := if v then v2 else .no
           disableClipboard := if v then v2 else .no
           showRemoteCursor := if v then v2 else .no
           enableFileTransfer := if v then v2 else .yes
           lockAfterSessionEnd := if v then v2 else .yes }
  | _ => none

/-- `togglePrivacyMode`: nothing is stored. -/
def togglePrivacyMode (value : String) : OptionMessage :=
  { privacyMode := if value = "true" then .yes else .no }

end RdOptions

/-- A session that is logged in: the options of its connection, the stored ones, and what the
host made of its messages. -/
structure RdOptionSession where
  conn : OptionsCopy Json
  peers : Peers Json
  host : RdHost

/-- What the user toggles. -/
inductive RdToggle
  | toggleOption (name : String) (now : ℕ)
  | togglePrivacyMode (value : String)

namespace RdOptionSession

open RdOptions

/-- What a new connection of the host makes of the login message for the stored options. -/
def freshHost (env : HostEnv) (peers : Peers Json) (id : String) : RdHost :=
  RdHost.new.apply env (getOptionMessage (OptionsCopy.prepareConnect peers id).options)

/-- `toggleOption`; the names with `block-input` in them are not stored. -/
def toggleOption (env : HostEnv) (s : RdOptionSession) (name : String) (now : ℕ) :
    RdOptionSession :=
  let v := !isOn s.conn.options name
  match toggleMessage name v with
  | none => s
  | some option =>
    let host := s.host.apply env (some option)
    if "block-input".toList <:+: name.toList then { s with host := host }
    else
      let (conn, peers) := s.conn.setOption Json.ofTime s.peers name (some (.bool v)) now
      ⟨conn, peers, host⟩

/-- One step of a session, whose host gets what is sent. -/
def step (env : HostEnv) (s : RdOptionSession) : RdToggle → Option RdOptionSession
  | .toggleOption name now => some (s.toggleOption env name now)
  | .togglePrivacyMode value =>
    some { s with host := s.host.apply env (some (RdOptions.togglePrivacyMode value)) }

/-- The login to a peer, with what is stored for it. -/
def login (env : HostEnv) (peers : Peers Json) (id : String) : RdOptionSession :=
  ⟨OptionsCopy.prepareConnect peers id, peers, freshHost env peers id⟩

/-- A session with its host. -/
def machine (env : HostEnv) (peers : Peers Json) (id : String) :
    Machine RdOptionSession RdToggle :=
  ⟨login env peers id, step env⟩

/-- The host is where a new connection with the stored options would be. -/
def Synced (env : HostEnv) (s : RdOptionSession) : Prop :=
  s.host = freshHost env s.peers s.conn.id

/-- What the toggle finds: view-only is turned off, at a host without file copy, where clipboard
and remote cursor are not turned off and locking is not turned on by that; the privacy mode is
the stored one, if the host follows it at all. -/
def Followed (env : HostEnv) (options : PeerOptions Json) : RdToggle → Prop
  | .toggleOption name _ =>
    name = "view-only" → isOn options "view-only" ∧ !env.fileCopy ∧
      !isOn options "disable-clipboard" ∧ (env.desktop → !isOn options "show-remote-cursor") ∧
      isOn options "lock-after-session-end"
  | .togglePrivacyMode value =>
    env.oldVersion → env.keyboard → (value = "true" ↔ isOn options "privacy-mode")

/-! ### The host of a new connection -/

/-- What a new connection of the host makes of the login message for some options. -/
def freshOf (env : HostEnv) (options : PeerOptions Json) : RdHost :=
  RdHost.new.apply env (getOptionMessage options)

/-- The host takes the quality that is sent. -/
theorem updatedQuality_of_option (q : Option ImageQuality) (hq : q ≠ some .notSet) :
    HostOptions.updatedQuality none (q.getD .notSet) 0 = q.map ImageQuality.value := by
  cases q with
  | none => rfl
  | some q => cases q <;> simp_all [HostOptions.updatedQuality, ImageQuality.value]

/-- The stored text is never that of an unset quality. -/
theorem getImageQualityEnum_ne_notSet (value : Option Json) (ignoreDefault : Bool) :
    getImageQualityEnum value ignoreDefault ≠ some .notSet := by
  unfold getImageQualityEnum
  split <;> first | (split_ifs <;> simp) | simp

/-- A new connection has the stored options. -/
theorem freshOf_eq (env : HostEnv) (options : PeerOptions Json) :
    freshOf env options =
      { options :=
          { HostOptions.new with
            lockAfterSessionEnd := isOn options "lock-after-session-end"
            showRemoteCursor := env.desktop && isOn options "show-remote-cursor"
            disableAudio := isOn options "disable-audio"
            disableClipboard := isOn options "disable-clipboard"
            imageQuality := (getImageQualityEnum (options.get? "image-quality") true).map
              ImageQuality.value }
        privacyMode := env.oldVersion && env.keyboard && isOn options "privacy-mode" } := by
  have hquality := updatedQuality_of_option
    (getImageQualityEnum (options.get? "image-quality") true) (getImageQualityEnum_ne_notSet _ _)
  have hcursor : HostOptions.updated false
      (if env.desktop = true then yesIf (isOn options "show-remote-cursor") else .notSet) =
        (env.desktop && isOn options "show-remote-cursor") := by
    cases env.desktop
    · rfl
    · exact updated_yesIf _
  have hprivacy : (if (env.oldVersion && env.keyboard) = true then isOn options "privacy-mode"
      else false) = (env.oldVersion && env.keyboard && isOn options "privacy-mode") := by
    cases env.oldVersion <;> cases env.keyboard <;> rfl
  rw [freshOf, getOptionMessage]
  dsimp only
  split_ifs with hnothing
  · obtain ⟨hq, hcursorOff, hlock, hprivacyOff, haudio, hclipboard⟩ := hnothing
    simp only [Bool.not_eq_true'] at hcursorOff hlock hprivacyOff haudio hclipboard
    rw [hq, hcursorOff, hlock, hprivacyOff, haudio, hclipboard, Bool.and_false, Bool.and_false]
    rfl
  · simp only [RdHost.apply, Option.map_some, Option.getD_some, RdHost.updateOptions, RdHost.new,
      HostOptions.updateOptions, RdHost.readBy, HostOptions.new, updated_yesIf, hquality, hcursor,
      hprivacy]
    simp [HostOptions.updated, HostOptions.updatedFps]

/-- Only what is read of the options counts. -/
theorem freshOf_congr (env : HostEnv) {options options' : PeerOptions Json}
    (h : ∀ m, options.get? m = options'.get? m) : freshOf env options = freshOf env options' := by
  simp only [freshOf_eq, isOn, h]

/-- The stored options are those of the connection. -/
def Copied (s : RdOptionSession) : Prop :=
  s.conn.id ≠ "" ∧
    ∀ m, (PeerStore.loadPeerOptions s.peers s.conn.id).get? m = s.conn.options.get? m

variable {env : HostEnv} {s t : RdOptionSession}

/-- A session is synced if the host has just what its options say. -/
theorem synced_iff (hcopied : Copied s) : Synced env s ↔ s.host = freshOf env s.conn.options := by
  have hfresh : freshHost env s.peers s.conn.id = freshOf env s.conn.options :=
    freshOf_congr env hcopied.2
  rw [Synced, hfresh]

/-- At login the options are a copy of the stored ones. -/
theorem copied_login (env : HostEnv) (peers : Peers Json) {id : String} (hid : id ≠ "") :
    Copied (login env peers id) :=
  ⟨hid, fun _ => rfl⟩

/-- A stored toggle leaves the copy as it is stored. -/
theorem copied_setOption (hcopied : Copied s) (name : String) (value : Option Json) (now : ℕ)
    (host : RdHost) :
    Copied ⟨(s.conn.setOption Json.ofTime s.peers name value now).1,
      (s.conn.setOption Json.ofTime s.peers name value now).2, host⟩ := by
  refine ⟨hcopied.1, fun m => ?_⟩
  have hid : s.conn.id ≠ "" := hcopied.1
  simp only [OptionsCopy.setOption, OptionsPage.get?_loadPeerOptions_save, OptionsPage.get?_stamp]
  split_ifs <;> simp_all

/-- The options stay a copy of the stored ones. -/
theorem copied_step {e : RdToggle} (hstep : step env s e = some t) (hcopied : Copied s) :
    Copied t := by
  cases e with
  | toggleOption name now =>
    obtain rfl := Option.some.inj hstep
    rw [toggleOption]
    dsimp only
    cases toggleMessage name (!isOn s.conn.options name) with
    | none => exact hcopied
    | some option =>
      dsimp only
      split_ifs
      · exact hcopied
      · exact copied_setOption hcopied _ _ _ _
  | togglePrivacyMode value =>
    obtain rfl := Option.some.inj hstep
    exact hcopied

/-- The options after one of them is turned on or off. -/
def turned (options : PeerOptions Json) (name : String) (v : Bool) (now : ℕ) : PeerOptions Json :=
  PeerStore.stamp Json.ofTime (PeerStore.setField options name (some (.bool v))) now

/-- The fields after one was turned. -/
theorem get?_turned (options : PeerOptions Json) (name m : String) (v : Bool) (now : ℕ) :
    (turned options name v now).get? m =
      if m = "tm" then some (Json.ofTime now)
      else if m = name then some (.bool v) else options.get? m := by
  rw [turned, OptionsPage.get?_stamp, OptionsPage.get?_setField]

/-- What is on after an option is turned on or off. -/
theorem isOn_turned (options : PeerOptions Json) (name m : String) (v : Bool) (now : ℕ)
    (hm : m ≠ "tm") :
    isOn (turned options name v now) m = if m = name then v else isOn options m := by
  rw [isOn, get?_turned, if_neg hm]
  split_ifs <;> rfl

/-- The options that have a field of their own in the login message. -/
def ownOptions : List String :=
  ["show-remote-cursor", "disable-audio", "disable-clipboard", "lock-after-session-end",
    "privacy-mode"]

/-- The kinds of options that a toggle can name. -/
theorem toggleMessage_cases (name : String) (v : Bool) :
    toggleMessage name v = none ∧ name ≠ "view-only" ∨ name ∈ ownOptions ∨
      (name = "block-input" ∨ name = "unblock-input") ∨ name = "view-only" := by
  unfold toggleMessage
  split <;> simp_all [ownOptions]

/-- The toggles of one option bring the host where a new connection would be. -/
theorem apply_toggleMessage_of_mem {name : String} (hname : name ∈ ownOptions)
    (options : PeerOptions Json) (v : Bool) (now : ℕ) :
    (freshOf env options).apply env (toggleMessage name v) =
      freshOf env (turned options name v now) := by
  simp only [ownOptions, List.mem_cons, List.not_mem_nil, or_false] at hname
  have hcursor : HostOptions.updated (env.desktop && isOn options "show-remote-cursor")
      (if env.desktop = true then .ofBool v else .notSet) = (env.desktop && v) := by
    cases env.desktop
    · rfl
    · exact updated_ofBool _ _
  have hprivacy : (if env.oldVersion = true ∧ env.keyboard = true then v
      else env.oldVersion && env.keyboard && isOn options "privacy-mode") =
        (env.oldVersion && env.keyboard && v) := by
    cases env.oldVersion <;> cases env.keyboard <;> rfl
  rcases hname with rfl | rfl | rfl | rfl | rfl <;>
    simp [toggleMessage, freshOf_eq, RdHost.apply, RdHost.updateOptions, RdHost.readBy,
      HostOptions.updateOptions, isOn_turned, get?_turned, HostOptions.new, hcursor, hprivacy]

/-- Blocking the input changes no option. -/
theorem apply_toggleMessage_block {name : String} (hname : name = "block-input" ∨
    name = "unblock-input") (options : PeerOptions Json) (v : Bool) :
    (freshOf env options).apply env (toggleMessage name v) = freshOf env options := by
  rcases hname with rfl | rfl <;>
    simp [toggleMessage, freshOf_eq, RdHost.apply, RdHost.updateOptions, RdHost.readBy,
      HostOptions.updateOptions, HostOptions.new]

/-- View-only brings the host where a new connection would be exactly if it is followed. -/
theorem apply_toggleMessage_view_iff (env : HostEnv) (options : PeerOptions Json) (v : Bool)
    (now : ℕ) :
    (freshOf env options).apply env (toggleMessage "view-only" v) =
        freshOf env (turned options "view-only" v now) ↔
      v = false ∧ env.fileCopy = false ∧ isOn options "disable-clipboard" = false ∧
        (env.desktop = true → isOn options "show-remote-cursor" = false) ∧
        isOn options "lock-after-session-end" = true := by
  have hlock : HostOptions.updated (isOn options "lock-after-session-end") .yes =
      isOn options "lock-after-session-end" ↔ isOn options "lock-after-session-end" = true :=
    eq_comm
  have hclipboard : HostOptions.updated (isOn options "disable-clipboard") .no =
      isOn options "disable-clipboard" ↔ isOn options "disable-clipboard" = false :=
    eq_comm
  have hcursor : HostOptions.updated (env.desktop && isOn options "show-remote-cursor")
      (if env.desktop = true then .no else .notSet) =
        (env.desktop && isOn options "show-remote-cursor") ↔
          (env.desktop = true → isOn options "show-remote-cursor" = false) := by
    cases env.desktop with
    | false => simp
    | true =>
      rw [Bool.true_and, if_pos rfl, forall_prop_of_true rfl]
      exact eq_comm
  have hfile : HostOptions.updated false (if env.fileCopy = true then .yes else .notSet) =
      false ↔ env.fileCopy = false := by
    cases env.fileCopy <;> simp [HostOptions.updated]
  have hkeyboard : HostOptions.updated false .no = false := rfl
  have hview : HostOptions.updated false .yes ≠ false := by decide
  cases v with
  | true =>
    simp [toggleMessage, freshOf_eq, RdHost.apply, RdHost.updateOptions, RdHost.readBy,
      HostOptions.updateOptions, isOn_turned, get?_turned, HostOptions.new, BoolOption.ofBool,
      hview]
  | false =>
    simp [toggleMessage, freshOf_eq, RdHost.apply, RdHost.updateOptions, RdHost.readBy,
      HostOptions.updateOptions, isOn_turned, get?_turned, HostOptions.new, hlock, hclipboard,
      hcursor, hfile, hkeyboard]
    tauto

/-- A toggle of a stored option. -/
theorem toggleOption_of_stored (env : HostEnv) (s : RdOptionSession) {name : String}
    {option : OptionMessage}
    (hoption : toggleMessage name (!isOn s.conn.options name) = some option)
    (hname : ¬ "block-input".toList <:+: name.toList) (now : ℕ) :
    (s.toggleOption env name now).host = s.host.apply env (some option) ∧
      (s.toggleOption env name now).conn.options =
        turned s.conn.options name (!isOn s.conn.options name) now := by
  rw [toggleOption]
  simp only [hoption, if_neg hname]
  exact ⟨trivial, rfl⟩

/-- A toggle of an option that is not stored. -/
theorem toggleOption_of_block (env : HostEnv) (s : RdOptionSession) {name : String}
    {option : OptionMessage}
    (hoption : toggleMessage name (!isOn s.conn.options name) = some option)
    (hname : "block-input".toList <:+: name.toList) (now : ℕ) :
    (s.toggleOption env name now).host = s.host.apply env (some option) ∧
      (s.toggleOption env name now).conn.options = s.conn.options := by
  rw [toggleOption]
  simp only [hoption, if_pos hname]
  exact ⟨trivial, trivial⟩

/-- **One toggle.** -/
theorem synced_toggleOption_iff (hcopied : Copied s) (hs : Synced env s) (name : String)
    (now : ℕ) :
    Synced env (s.toggleOption env name now) ↔
      Followed env s.conn.options (.toggleOption name now) := by
  have hstep : step env s (.toggleOption name now) = some (s.toggleOption env name now) := rfl
  have hcopied' := copied_step hstep hcopied
  rw [synced_iff hcopied']
  rw [synced_iff hcopied] at hs
  rcases toggleMessage_cases name (!isOn s.conn.options name) with
    ⟨hnone, hview⟩ | hown | hblock | rfl
  · have hsame : s.toggleOption env name now = s := by
      rw [toggleOption]
      simp only [hnone]
    rw [hsame]
    exact iff_of_true hs fun h => absurd h hview
  · obtain ⟨option, hoption, hname, hview⟩ : ∃ option,
        toggleMessage name (!isOn s.conn.options name) = some option ∧
          ¬ "block-input".toList <:+: name.toList ∧ name ≠ "view-only" := by
      simp only [ownOptions, List.mem_cons, List.not_mem_nil, or_false] at hown
      rcases hown with rfl | rfl | rfl | rfl | rfl <;> exact ⟨_, rfl, by decide, by decide⟩
    obtain ⟨hhost, hoptions⟩ := toggleOption_of_stored env s hoption hname now
    rw [hhost, hoptions, hs, ← hoption]
    exact iff_of_true (apply_toggleMessage_of_mem hown _ _ now) fun h => absurd h hview
  · obtain ⟨option, hoption, hname, hview⟩ : ∃ option,
        toggleMessage name (!isOn s.conn.options name) = some option ∧
          "block-input".toList <:+: name.toList ∧ name ≠ "view-only" := by
      rcases hblock with rfl | rfl <;> exact ⟨_, rfl, by decide, by decide⟩
    obtain ⟨hhost, hoptions⟩ := toggleOption_of_block env s hoption hname now
    rw [hhost, hoptions, hs, ← hoption]
    exact iff_of_true (apply_toggleMessage_block hblock _ _) fun h => absurd h hview
  · obtain ⟨hhost, hoptions⟩ := toggleOption_of_stored env s
      (rfl : toggleMessage "view-only" _ = some _) (by decide) now
    have happly := apply_toggleMessage_view_iff env s.conn.options
      (!isOn s.conn.options "view-only") now
    rw [hhost, hoptions, hs, Followed]
    refine happly.trans ?_
    simp only [Bool.not_eq_false', Bool.not_eq_true', true_imp_iff]

/-- The privacy mode that is not stored. -/
theorem synced_togglePrivacyMode_iff (hcopied : Copied s) (hs : Synced env s) (value : String) :
    Synced env { s with host := s.host.apply env (some (RdOptions.togglePrivacyMode value)) } ↔
      Followed env s.conn.options (.togglePrivacyMode value) := by
  have hcopied' : Copied
    { s with host := s.host.apply env (some (RdOptions.togglePrivacyMode value)) } := hcopied
  rw [synced_iff hcopied']
  rw [synced_iff hcopied] at hs
  dsimp only
  rw [hs, Followed]
  have hasked : HostOptions.updated
      (env.oldVersion && env.keyboard && isOn s.conn.options "privacy-mode")
      (if value = "true" then .yes else .no) = decide (value = "true") := by
    split_ifs with htrue <;> simp [HostOptions.updated, htrue]
  simp only [RdOptions.togglePrivacyMode, freshOf_eq, RdHost.apply, RdHost.updateOptions,
    RdHost.readBy, HostOptions.updateOptions, HostOptions.new, Option.map_some, Option.getD_some,
    updated_notSet, updatedFps_zero, ite_self, hasked, RdHost.mk.injEq]
  cases hold : env.oldVersion <;> cases hkey : env.keyboard <;> simp
  cases isOn s.conn.options "privacy-mode" <;> simp

/-- **One step** keeps the session synced if and only if the toggle is followed. -/
theorem synced_step_iff {e : RdToggle} (hstep : step env s e = some t) (hcopied : Copied s)
    (hs : Synced env s) : Synced env t ↔ Followed env s.conn.options e := by
  cases e with
  | toggleOption name now =>
    obtain rfl := Option.some.inj hstep
    exact synced_toggleOption_iff hcopied hs name now
  | togglePrivacyMode value =>
    obtain rfl := Option.some.inj hstep
    exact synced_togglePrivacyMode_iff hcopied hs value

/-- **Replayed options.** In a session with a peer, after any of its toggles the host is where a
new connection with the stored options would be, if and only if every toggle is followed. -/
theorem synced_iff_togglesFollowed {peers : Peers Json} {id : String} (hid : id ≠ "")
    {toggles : List RdToggle}
    (hrun : (machine env peers id).Run (machine env peers id).init toggles s) :
    (∀ first u, first <+: toggles →
      (machine env peers id).Run (machine env peers id).init first u → Synced env u) ↔
      (machine env peers id).RunWhere (fun t e => Followed env t.conn.options e)
        (machine env peers id).init toggles s :=
  Machine.runWhere_iff_beside (fun _ _ _ => copied_step) (fun _ _ _ => synced_step_iff)
    (copied_login env peers hid) rfl hrun

/-- A host with file copy, which takes the login for an old one. -/
def demoEnv : HostEnv := ⟨true, true, true, true⟩

/-- Audio is disabled, the clipboard is disabled, and audio is enabled again. -/
def audioAndClipboard : List RdToggle :=
  [.toggleOption "disable-audio" 5, .toggleOption "disable-clipboard" 6,
    .toggleOption "disable-audio" 7]

/-- The machine of the examples: nothing is stored for the peer. -/
def demoMachine : Machine RdOptionSession RdToggle := machine demoEnv OrderedMap.empty "22"

/-- The session after these toggles. -/
def afterAudioAndClipboard : RdOptionSession :=
  (demoMachine.replay demoMachine.init audioAndClipboard).getD demoMachine.init

/-- A run that turns two options on and off, and stays synced. -/
theorem synced_iff_togglesFollowed_audioAndClipboard :
    demoMachine.Run demoMachine.init audioAndClipboard afterAudioAndClipboard ∧
      ∀ first u, first <+: audioAndClipboard → demoMachine.Run demoMachine.init first u →
        Synced demoEnv u := by
  have hfollowed {name : String} {now : ℕ} (hname : name ≠ "view-only") (t : RdOptionSession) :
      Followed demoEnv t.conn.options (.toggleOption name now) := fun h => absurd h hname
  have hwhere : demoMachine.RunWhere (fun t e => Followed demoEnv t.conn.options e) demoMachine.init
      audioAndClipboard afterAudioAndClipboard :=
    .cons (hfollowed (by decide) _) rfl <| .cons (hfollowed (by decide) _) rfl <|
      .single (hfollowed (by decide) _) rfl
  exact ⟨hwhere.run, (synced_iff_togglesFollowed (by decide) hwhere.run).mpr hwhere⟩

/-- View-only is turned on. -/
def viewOnly : List RdToggle := [.toggleOption "view-only" 5]

/-- The session after this toggle. -/
def afterViewOnly : RdOptionSession :=
  (demoMachine.replay demoMachine.init viewOnly).getD demoMachine.init

/-- The host takes no keys, and a new connection would. -/
theorem not_synced_viewOnly :
    ¬ ∀ (env : HostEnv) (peers : Peers Json) (id : String) (toggles : List RdToggle)
      (s : RdOptionSession), id ≠ "" →
        (machine env peers id).Run (machine env peers id).init toggles s → Synced env s := by
  intro hall
  have hsynced := hall demoEnv OrderedMap.empty "22" viewOnly afterViewOnly (by decide)
    (Machine.run_of_replay rfl)
  have hkeyboard := congrArg (fun host => host.options.disableKeyboard) hsynced
  revert hkeyboard
  decide

end RdOptionSession

end RdWeb.Web
