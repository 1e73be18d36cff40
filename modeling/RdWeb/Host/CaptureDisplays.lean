import Mathlib.Data.BitVec
import Mathlib.Data.Finset.Card
import Mathlib.Data.Finset.Image
import RdWeb.Lib.OrderedMap

/-!
# Which displays a connection captures

The services of `server.rs` and their subscribers (`service.rs`), and the two messages by
which a connection chooses displays: `CaptureDisplays` and `SwitchDisplay` of
`connection.rs`. There is one video service for each display, told apart from the other
services by its name.
-/

namespace RdWeb.Host

/-- The subscribers of a service. A new subscriber of a service that needs a snapshot waits
in `newSubscribes`, so no id is in both maps. -/
structure Service where
  subscribes : Finset ℤ
  newSubscribes : Finset ℤ
  needSnapshot : Bool
  disjoint : Disjoint subscribes newSubscribes
  only_snapshot : needSnapshot = false → newSubscribes = ∅

namespace Service

/-- `ServiceTmpl::new`. -/
def new (needSnapshot : Bool) : Service where
  subscribes := ∅
  newSubscribes := ∅
  needSnapshot := needSnapshot
  disjoint := by simp
  only_snapshot _ := rfl

/-- The connection is subscribed, now or with the next snapshot. -/
def isSubed (service : Service) (id : ℤ) : Bool :=
  id ∈ service.subscribes || id ∈ service.newSubscribes

/-- A connection is subscribed, with the next snapshot if there has to be one. -/
def onSubscribe (service : Service) (id : ℤ) : Service :=
  if hold : id ∈ service.subscribes then service
  else if hsnapshot : service.needSnapshot then
    { service with
      newSubscribes := insert id service.newSubscribes
      disjoint := Finset.disjoint_insert_right.mpr ⟨hold, service.disjoint⟩
      only_snapshot := fun h => absurd hsnapshot (by simp [h]) }
  else
    { service with
      subscribes := insert id service.subscribes
      disjoint := by
        rw [service.only_snapshot (by simpa using hsnapshot)]
        exact Finset.disjoint_empty_right _ }

/-- A connection is no longer subscribed. -/
def onUnsubscribe (service : Service) (id : ℤ) : Service :=
  if id ∈ service.subscribes then
    { service with
      subscribes := service.subscribes.erase id
      disjoint := service.disjoint.mono_left (Finset.erase_subset _ _) }
  else
    { service with
      newSubscribes := service.newSubscribes.erase id
      disjoint := service.disjoint.mono_right (Finset.erase_subset _ _)
      only_snapshot := fun h => by simp [service.only_snapshot h] }

/-- Nobody is subscribed to a new service. -/
@[simp] theorem isSubed_new (needSnapshot : Bool) (id : ℤ) :
    (new needSnapshot).isSubed id = false := by
  simp [isSubed, new]

/-- After a subscription its connection is subscribed, and whoever was before. -/
@[simp] theorem isSubed_onSubscribe (service : Service) (id id' : ℤ) :
    (service.onSubscribe id).isSubed id' = (decide (id' = id) || service.isSubed id') := by
  rw [onSubscribe]
  split_ifs with hold hsnapshot
  · by_cases hid : id' = id
    · simp [isSubed, hid, hold]
    · simp [hid]
  · by_cases hid : id' = id <;> simp [isSubed, hid]
  · by_cases hid : id' = id <;> simp [isSubed, hid]

/-- After the end of a subscription its connection is not subscribed. -/
@[simp] theorem isSubed_onUnsubscribe (service : Service) (id id' : ℤ) :
    (service.onUnsubscribe id).isSubed id' = (!decide (id' = id) && service.isSubed id') := by
  rw [onUnsubscribe]
  by_cases hid : id' = id
  · subst hid
    split_ifs with hold
    · have hnew := Finset.disjoint_left.mp service.disjoint hold
      simp [isSubed, hnew]
    · simp [isSubed, hold]
  · split_ifs <;> simp [isSubed, hid]

end Service

/-- `video_service::NAME`. -/
def VIDEO_NAME : String := "video"

/-- The name of the service that tells of the window in focus. -/
def NAME_WINDOW_FOCUS : String := "window_focus"

/-- `video_service::get_service_name`. -/
def getServiceName (idx : ℕ) : String := VIDEO_NAME ++ toString idx

/-- `name.starts_with(video_service::NAME)`. -/
def isVideoServiceName (name : String) : Bool := VIDEO_NAME.toList.isPrefixOf name.toList

/-- `video_service::new`: its subscribers wait for a snapshot. -/
def videoService : Service := .new true

/-- `Server`, as far as subscriptions go. -/
structure Server where
  services : OrderedMap String Service

namespace Server

/-- The server has a service of this name. -/
def contains (server : Server) (name : String) : Bool := server.services.has name

/-- A service is added under its name. -/
def addService (server : Server) (name : String) (service : Service) : Server :=
  ⟨server.services.set name service⟩

/-- A connection is subscribed to a service or no longer so, if that is a change. -/
def subscribe (server : Server) (name : String) (id : ℤ) (sub : Bool) : Server :=
  match server.services.get? name with
  | none => server
  | some service =>
    if service.isSubed id = sub then server
    else if sub then ⟨server.services.set name (service.onSubscribe id)⟩
    else ⟨server.services.set name (service.onUnsubscribe id)⟩

/-- Whether a connection is subscribed to the service of a name. -/
def subed (server : Server) (name : String) (id : ℤ) : Bool :=
  ((server.services.get? name).map fun service => service.isSubed id).getD false

/-- The video services a connection is subscribed to. -/
def videoSubs (server : Server) (id : ℤ) : List String :=
  server.services.keys.filter fun name => isVideoServiceName name && server.subed name id

/-- How many displays a connection has subscribed to. -/
def getSubbedDisplaysCount (server : Server) (id : ℤ) : ℕ := (server.videoSubs id).length

/-- The loop body of `capture_displays` for one name. -/
def captureDisplay (id : ℤ) (displays : List String) (incl excl : Bool) (server : Server)
    (name : String) : Server :=
  if isVideoServiceName name then
    if name ∈ displays then
      if incl then server.subscribe name id true else server
    else
      if excl then server.subscribe name id false else server
  else server

/-- The displays of a connection are captured, service by service. -/
def captureDisplays (server : Server) (id : ℤ) (displays : List ℕ) (incl excl : Bool) :
    Server :=
  server.services.keys.foldl (captureDisplay id (displays.map getServiceName) incl excl) server

/-- Add a video service for a display that has none. -/
def ensureDisplay (server : Server) (display : ℕ) : Server :=
  let name := getServiceName display
  if server.contains name then server else server.addService name videoService

end Server

/-- `x as usize` of an `i32`. -/
def asUsize (n : BitVec 32) : ℕ := (n.signExtend 64).toNat

/-- The message `CaptureDisplays`. -/
structure CaptureDisplaysMsg where
  add : List (BitVec 32)
  sub : List (BitVec 32)
  set : List (BitVec 32)

/-- A message by which a connection chooses displays; of `SwitchDisplay` only the display
matters here. -/
inductive DisplayMessage
  | captureDisplays (m : CaptureDisplaysMsg)
  | switchDisplay (display : BitVec 32)

/-- The server and what the two messages use of the connection: its id, the display it is at,
whether it follows the remote window, and whether its version supports several sessions. -/
structure DisplayConn where
  server : Server
  id : ℤ
  displayIdx : ℕ
  followRemoteWindow : Bool
  supportsMultiUiSession : Bool
  multiUiSession : Bool
  primaryDisplayIdx : ℕ

namespace DisplayConn

/-- The first part of `Connection::capture_displays`: the missing services are added and the
displays are chosen. -/
def chooseDisplays (c : DisplayConn) (add sub set : List ℕ) : Server :=
  let server := (add ++ set).foldl Server.ensureDisplay c.server
  if add ≠ [] then server.captureDisplays c.id add true false
  else if sub ≠ [] then server.captureDisplays c.id sub false true
  else server.captureDisplays c.id set true true

/-- `Connection::capture_displays`. -/
def captureDisplays (c : DisplayConn) (add sub set : List ℕ) : DisplayConn :=
  let server := c.chooseDisplays add sub set
  let multiUiSession : Bool := server.getSubbedDisplaysCount c.id > 1
  { c with
    server :=
      if c.followRemoteWindow then server.subscribe NAME_WINDOW_FOCUS c.id (!multiUiSession)
      else server
    multiUiSession := multiUiSession }

/-- A connection goes on to a display. -/
def switchDisplayTo (c : DisplayConn) (displayIdx : ℕ) : DisplayConn :=
  let server :=
    if displayIdx ≠ c.primaryDisplayIdx then c.server.ensureDisplay displayIdx else c.server
  let server :=
    if !c.supportsMultiUiSession then server.subscribe (getServiceName c.displayIdx) c.id false
    else server
  { c with
    server := server.subscribe (getServiceName displayIdx) c.id true
    displayIdx := displayIdx }

/-- `handle_switch_display`, as far as subscriptions go. -/
def handleSwitchDisplay (c : DisplayConn) (display : BitVec 32) : DisplayConn :=
  if c.displayIdx ≠ asUsize display then c.switchDisplayTo (asUsize display) else c

/-- A message about displays. -/
def onMessage (c : DisplayConn) : DisplayMessage → DisplayConn
  | .captureDisplays m =>
    c.captureDisplays (m.add.map asUsize) (m.sub.map asUsize) (m.set.map asUsize)
  | .switchDisplay display => c.handleSwitchDisplay display

end DisplayConn

/-! ### What each operation does to the subscriptions -/

namespace Server

variable {server : Server}

/-- Nobody is subscribed to a service that is not there. -/
theorem subed_eq_false_of_not_contains {name : String} (h : server.contains name = false)
    (id : ℤ) : server.subed name id = false := by
  rw [subed, OrderedMap.has_eq_false_iff.mp h]
  rfl

/-- A subscription adds no service. -/
@[simp] theorem contains_subscribe (name n : String) (id : ℤ) (sub : Bool) :
    (server.subscribe name id sub).contains n = server.contains n := by
  rw [subscribe]
  split
  · rfl
  · rename_i service hget
    have hset (service' : Service) :
        (server.services.set name service').has n = server.services.has n := by
      rw [OrderedMap.has, OrderedMap.get?_set]
      split_ifs with hn
      · simp [hn, OrderedMap.has, hget]
      · rfl
    split_ifs
    · rfl
    · exact hset _
    · exact hset _

/-- `subscribe` sets one subscription, if the service exists. -/
theorem subed_subscribe (name n : String) (id id' : ℤ) (sub : Bool) :
    (server.subscribe name id sub).subed n id' =
      if n = name ∧ id' = id ∧ server.contains name then sub else server.subed n id' := by
  rw [subscribe]
  split
  · rename_i hnone
    have hnot : server.contains name = false := OrderedMap.has_eq_false_iff.mpr hnone
    simp [hnot]
  · rename_i service hget
    have hcontains : server.contains name = true := OrderedMap.has_iff.mpr ⟨service, hget⟩
    by_cases hn : n = name
    · subst hn
      by_cases hid : id' = id
      · subst hid
        cases sub <;> split_ifs <;> simp_all [subed]
      · split_ifs <;> simp_all [subed]
    · split_ifs <;> simp_all [subed]

/-- A new display changes no subscription. -/
theorem subed_ensureDisplay (display : ℕ) (n : String) (id : ℤ) :
    (server.ensureDisplay display).subed n id = server.subed n id := by
  rw [ensureDisplay]
  split_ifs with hcontains
  · rfl
  · by_cases hn : n = getServiceName display
    · subst hn
      have hnone : server.subed (getServiceName display) id = false :=
        subed_eq_false_of_not_contains (by simpa using hcontains) id
      rw [hnone]
      simp [addService, subed, videoService]
    · simp [addService, subed, hn]

/-- A new display adds its service. -/
theorem contains_ensureDisplay (display : ℕ) (n : String) :
    (server.ensureDisplay display).contains n =
      (decide (n = getServiceName display) || server.contains n) := by
  rw [ensureDisplay]
  split_ifs with hcontains
  · by_cases hn : n = getServiceName display
    · simp [hn, hcontains]
    · simp [hn]
  · by_cases hn : n = getServiceName display <;>
      simp [addService, contains, OrderedMap.has, hn]

/-- New displays change no subscription. -/
theorem subed_ensureDisplays (displays : List ℕ) (n : String) (id : ℤ) :
    (displays.foldl ensureDisplay server).subed n id = server.subed n id := by
  induction displays generalizing server with
  | nil => rfl
  | cons display rest ih => rw [List.foldl_cons, ih, subed_ensureDisplay]

/-- New displays add their services. -/
theorem contains_ensureDisplays (displays : List ℕ) (n : String) :
    (displays.foldl ensureDisplay server).contains n =
      (decide (n ∈ displays.map getServiceName) || server.contains n) := by
  induction displays generalizing server with
  | nil => simp
  | cons display rest ih =>
    rw [List.foldl_cons, ih, contains_ensureDisplay, List.map_cons]
    by_cases hn : n = getServiceName display <;> simp [hn]

/-- What the loop of `capture_displays` sets for a name, if anything. -/
def captures (displays : List String) (incl excl : Bool) (name : String) : Option Bool :=
  if isVideoServiceName name then
    if name ∈ displays then
      if incl then some true else none
    else
      if excl then some false else none
  else none

/-- Capturing a display is a subscription, or the end of one, or nothing. -/
theorem captureDisplay_eq (id : ℤ) (displays : List String) (incl excl : Bool) (name : String) :
    captureDisplay id displays incl excl server name =
      match captures displays incl excl name with
      | some sub => server.subscribe name id sub
      | none => server := by
  rw [captureDisplay, captures]
  split_ifs <;> rfl

/-- Capturing a display adds no service. -/
theorem contains_captureDisplay (id : ℤ) (displays : List String) (incl excl : Bool)
    (name n : String) :
    (captureDisplay id displays incl excl server name).contains n = server.contains n := by
  rw [captureDisplay_eq]
  split
  · exact contains_subscribe _ _ _ _
  · rfl

/-- The loop over any names: it sets what it captures of the names it visits. -/
theorem subed_foldl_captureDisplay (id : ℤ) (displays : List String) (incl excl : Bool)
    (names : List String) (n : String) (id' : ℤ) :
    (names.foldl (captureDisplay id displays incl excl) server).subed n id' =
      if id' = id ∧ n ∈ names ∧ server.contains n then
        (captures displays incl excl n).getD (server.subed n id')
      else server.subed n id' := by
  induction names generalizing server with
  | nil => simp
  | cons name rest ih =>
    rw [List.foldl_cons, ih, contains_captureDisplay, captureDisplay_eq]
    cases hcaptures : captures displays incl excl name with
    | none =>
      by_cases hn : n = name
      · subst hn
        simp [hcaptures]
      · simp [hn]
    | some sub =>
      rw [subed_subscribe]
      by_cases hn : n = name
      · subst hn
        by_cases hid : id' = id <;> by_cases hcontains : server.contains n <;>
          simp [hid, hcontains, hcaptures]
      · simp [hn]

/-- `capture_displays` of the server. -/
theorem subed_captureDisplays (id : ℤ) (displays : List ℕ) (incl excl : Bool) (n : String)
    (id' : ℤ) :
    (server.captureDisplays id displays incl excl).subed n id' =
      if id' = id ∧ server.contains n then
        (captures (displays.map getServiceName) incl excl n).getD (server.subed n id')
      else server.subed n id' := by
  rw [captureDisplays, subed_foldl_captureDisplay]
  have hkeys : n ∈ server.services.keys ↔ server.contains n = true := by
    rw [OrderedMap.mem_keys_iff, contains, OrderedMap.has_iff]
  simp [hkeys]

/-- The video services a connection is subscribed to, as a set. -/
def captured (server : Server) (id : ℤ) : Set String :=
  {n | isVideoServiceName n = true ∧ server.subed n id = true}

/-- The subscriptions to video services are the captured ones. -/
theorem mem_videoSubs {id : ℤ} {n : String} :
    n ∈ server.videoSubs id ↔ n ∈ server.captured id := by
  have hkeys (hsub : server.subed n id = true) : n ∈ server.services.keys := by
    cases hget : server.services.get? n with
    | none => simp [subed, hget] at hsub
    | some service => exact OrderedMap.mem_keys_iff.mpr ⟨service, hget⟩
  simp only [videoSubs, captured, List.mem_filter, Bool.and_eq_true, Set.mem_ofPred_eq]
  exact ⟨And.right, fun h => ⟨hkeys h.2, h⟩⟩

/-- More than one service is counted exactly if two different ones are captured. -/
theorem one_lt_count_iff (id : ℤ) :
    server.getSubbedDisplaysCount id > 1 ↔ (server.captured id).Nontrivial := by
  have hnodup : (server.videoSubs id).Nodup := server.services.nodup_keys.filter _
  have hmem (n : String) : n ∈ server.captured id ↔ n ∈ server.videoSubs id :=
    mem_videoSubs.symm
  rw [getSubbedDisplaysCount, Set.Nontrivial]
  simp only [hmem]
  generalize server.videoSubs id = subs at hnodup ⊢
  match subs with
  | [] => simp
  | [a] => simp
  | a :: b :: rest =>
    simp only [List.nodup_cons, List.mem_cons, not_or] at hnodup
    refine iff_of_true (by simp) ⟨a, by simp, b, by simp, hnodup.1.1⟩

end Server

/-! ### The captured displays follow the messages -/

/-- The services of some displays. -/
def serviceNames (displays : List ℕ) : Set String :=
  Set.image getServiceName {d | d ∈ displays}

/-- The name of a display is that of a video service. -/
theorem isVideoServiceName_getServiceName (display : ℕ) :
    isVideoServiceName (getServiceName display) = true := by
  rw [isVideoServiceName, getServiceName, List.isPrefixOf_iff_prefix, String.toList_append]
  exact List.prefix_append _ _

namespace DisplayConn

variable {c : DisplayConn} {add sub set : List ℕ}

/-- Only the window service changes after the displays were chosen. -/
theorem subed_captureDisplays {n : String} {id : ℤ} (h : n ≠ NAME_WINDOW_FOCUS ∨ id ≠ c.id) :
    (c.captureDisplays add sub set).server.subed n id =
      (c.chooseDisplays add sub set).subed n id := by
  rw [captureDisplays]
  dsimp only
  split_ifs
  · rw [Server.subed_subscribe, if_neg]
    rintro ⟨hn, hid, -⟩
    exact h.elim (fun h => h hn) fun h => h hid
  · rfl

/-- Other connections keep their subscriptions, and all keep those that are not to video. -/
theorem subed_chooseDisplays_of_not {n : String} {id : ℤ}
    (h : isVideoServiceName n = false ∨ id ≠ c.id) :
    (c.chooseDisplays add sub set).subed n id = c.server.subed n id := by
  have hkept (displays : List ℕ) (incl excl : Bool) :
      (((add ++ set).foldl Server.ensureDisplay c.server).captureDisplays c.id displays incl
        excl).subed n id = c.server.subed n id := by
    rw [Server.subed_captureDisplays, Server.subed_ensureDisplays]
    split_ifs with hif
    · have hvideo : isVideoServiceName n = false := h.resolve_right fun hid => hid hif.1
      simp [Server.captures, hvideo]
    · rfl
  rw [chooseDisplays]
  split_ifs <;> exact hkept _ _ _

/-- What a connection captures of one video service after the displays were chosen. -/
theorem subed_chooseDisplays {n : String} (hvideo : isVideoServiceName n = true) :
    (c.chooseDisplays add sub set).subed n c.id = true ↔
      if add ≠ [] then c.server.subed n c.id = true ∨ n ∈ add.map getServiceName
      else if sub ≠ [] then c.server.subed n c.id = true ∧ n ∈ sub.map getServiceName
      else n ∈ set.map getServiceName := by
  -- nobody is subscribed to a service that is not there
  have hthere (hsub : c.server.subed n c.id = true) : c.server.contains n = true := by
    by_contra hnot
    rw [Server.subed_eq_false_of_not_contains (by simpa using hnot)] at hsub
    cases hsub
  rw [chooseDisplays]
  split_ifs with hadd hsub <;>
    rw [Server.subed_captureDisplays, Server.contains_ensureDisplays,
      Server.subed_ensureDisplays]
  · by_cases hmem : n ∈ add.map getServiceName
    · simp [Server.captures, hvideo, hmem]
    · simp [Server.captures, hvideo, hmem]
  · by_cases hmem : n ∈ sub.map getServiceName
    · simp [Server.captures, hvideo, hmem]
    · cases hold : c.server.subed n c.id with
      | false => simp [Server.captures, hvideo, hmem]
      | true => simp [Server.captures, hvideo, hmem, hthere hold]
  · by_cases hmem : n ∈ set.map getServiceName
    · simp [Server.captures, hvideo, hmem]
    · cases hold : c.server.subed n c.id with
      | false => simp [Server.captures, hvideo, hmem]
      | true => simp [Server.captures, hvideo, hmem, hthere hold]

/-- A video service is not that of the window in focus. -/
theorem ne_windowFocus {n : String} (hvideo : isVideoServiceName n = true) :
    n ≠ NAME_WINDOW_FOCUS := by
  rintro rfl
  revert hvideo
  decide

/-- What a connection captures after `CaptureDisplays`. -/
theorem captured_captureDisplays :
    (c.captureDisplays add sub set).server.captured c.id =
      if add ≠ [] then c.server.captured c.id ∪ serviceNames add
      else if sub ≠ [] then c.server.captured c.id ∩ serviceNames sub
      else serviceNames set := by
  ext n
  have hnames (displays : List ℕ) (hvideo : isVideoServiceName n ≠ true) :
      n ∉ serviceNames displays := by
    rintro ⟨display, -, rfl⟩
    exact hvideo (isVideoServiceName_getServiceName display)
  by_cases hvideo : isVideoServiceName n = true
  · have hsubed : (c.chooseDisplays add sub set).subed n c.id = true ↔ _ :=
      subed_chooseDisplays hvideo
    simp only [Server.captured, Set.mem_ofPred_eq, hvideo, true_and,
      subed_captureDisplays (.inl (ne_windowFocus hvideo)), hsubed]
    split_ifs <;> simp [serviceNames, hvideo]
  · have hadd := hnames add hvideo
    have hset := hnames set hvideo
    split_ifs <;> simp [Server.captured, hvideo, hadd, hset]

/-- What `CaptureDisplays` is for: the displays to add, to take away, or to have exactly;
nothing else changes, and the flag says whether several displays are captured. -/
structure Follows (c : DisplayConn) (add sub set : List ℕ) : Prop where
  captured : (c.captureDisplays add sub set).server.captured c.id =
    if add ≠ [] then c.server.captured c.id ∪ serviceNames add
    else if sub ≠ [] then c.server.captured c.id \ serviceNames sub
    else serviceNames set
  otherConnections : ∀ id, id ≠ c.id → ∀ n,
    (c.captureDisplays add sub set).server.subed n id = c.server.subed n id
  otherServices : ∀ n, isVideoServiceName n = false → n ≠ NAME_WINDOW_FOCUS →
    (c.captureDisplays add sub set).server.subed n c.id = c.server.subed n c.id
  multiUiSession : (c.captureDisplays add sub set).multiUiSession = true ↔
    ((c.captureDisplays add sub set).server.captured c.id).Nontrivial

/-- After a capture there is more than one session if and only if more than one display is captured.
-/
theorem multiUiSession_captureDisplays :
    (c.captureDisplays add sub set).multiUiSession = true ↔
      ((c.captureDisplays add sub set).server.captured c.id).Nontrivial := by
  have hcaptured : (c.captureDisplays add sub set).server.captured c.id =
      (c.chooseDisplays add sub set).captured c.id := by
    ext n
    simp only [Server.captured, Set.mem_ofPred_eq]
    refine and_congr_right fun hvideo => ?_
    rw [subed_captureDisplays (.inl (ne_windowFocus hvideo))]
  rw [hcaptured, ← Server.one_lt_count_iff]
  simp [captureDisplays]

/-- One message is followed unless it takes displays away from a connection that has some. -/
theorem follows_captureDisplays_iff :
    Follows c add sub set ↔ add ≠ [] ∨ sub = [] ∨ c.server.captured c.id = ∅ := by
  constructor
  · intro h
    have hcaptured := h.captured
    rw [captured_captureDisplays] at hcaptured
    by_contra hnot
    push Not at hnot
    obtain ⟨hadd, hsub, n, hn⟩ := hnot
    simp only [hadd, hsub, ne_eq, not_true_eq_false, not_false_eq_true, if_false, if_true]
      at hcaptured
    have hiff := Set.ext_iff.mp hcaptured n
    simp only [Set.mem_inter_iff, Set.mem_sdiff, hn, true_and] at hiff
    exact iff_not_self hiff
  · intro hok
    refine ⟨?_, fun id hid n => ?_, fun n hvideo hfocus => ?_, multiUiSession_captureDisplays⟩
    · rw [captured_captureDisplays]
      split_ifs with hadd hsub
      · rfl
      · have hnone := (hok.resolve_left (by simpa using hadd)).resolve_left hsub
        simp [hnone]
      · rfl
    · rw [subed_captureDisplays (.inr hid), subed_chooseDisplays_of_not (.inr hid)]
    · rw [subed_captureDisplays (.inl hfocus), subed_chooseDisplays_of_not (.inl hvideo)]

/-- **Captured displays.** After any messages of a connection, `CaptureDisplays` is followed
if and only if it adds displays, or takes none away, or nothing is captured. -/
theorem follows_iff (c : DisplayConn) (before : List DisplayMessage) (m : CaptureDisplaysMsg) :
    Follows (before.foldl onMessage c) (m.add.map asUsize) (m.sub.map asUsize)
        (m.set.map asUsize) ↔
      m.add ≠ [] ∨ m.sub = [] ∨
        (before.foldl onMessage c).server.captured (before.foldl onMessage c).id = ∅ := by
  rw [follows_captureDisplays_iff]
  simp

/-- A connection to a server with one display, not subscribed to anything. -/
def newConn : DisplayConn where
  server := ⟨OrderedMap.empty.set (getServiceName 0) videoService⟩
  id := 7
  displayIdx := 0
  followRemoteWindow := false
  supportsMultiUiSession := true
  multiUiSession := false
  primaryDisplayIdx := 0

/-- A connection that captures the displays 0 and 1 takes display 1 away: it keeps display 1
and loses display 0. -/
theorem not_follows_sub :
    ¬ ∀ (c : DisplayConn) (before : List DisplayMessage) (m : CaptureDisplaysMsg),
      Follows (before.foldl onMessage c) (m.add.map asUsize) (m.sub.map asUsize)
        (m.set.map asUsize) := by
  intro hall
  have hcaptured :=
    (hall newConn [.captureDisplays ⟨[], [], [0, 1]⟩] ⟨[], [1], []⟩).captured
  have hmem := (Set.ext_iff.mp hcaptured (getServiceName 0)).mpr
  have hkept : getServiceName 0 ∉ serviceNames [1] := by
    rintro ⟨display, hdisplay, heq⟩
    obtain rfl : display = 1 := by simpa using hdisplay
    revert heq
    decide
  have hlost := (hmem ⟨⟨by decide, by decide⟩, hkept⟩).2
  revert hlost
  decide

end DisplayConn

end RdWeb.Host
