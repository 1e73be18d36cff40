import RdWeb.Lib.Machine
import RdWeb.Lib.OrderedMap
import Mathlib.Algebra.Order.Field.Rat
import Mathlib.Algebra.Order.Floor.Div
import Mathlib.Data.Rat.Defs

/-!
# The video quality controller

`VideoQoS` of `server/video_qos.rs` derives one frame rate and one bitrate ratio from the records
of all viewers. Ratios are exact rationals, `u32` sums wrap, and a clamp whose lower bound is above
its upper one panics: the functions that clamp return an `Option`.
-/

namespace RdWeb.Host

namespace VideoQoS

/-- The rate without any wish. -/
def FPS : ℕ := 30

/-- The least rate. -/
def minFps : ℕ := 1

/-- The greatest rate. -/
def maxFps : ℕ := 120

/-- The rate at the start. -/
def initFps : ℕ := 15

/-- The greatest bitrate ratio. -/
def brMax : ℚ := 40

/-- The least bitrate ratio. -/
def brMin : ℚ := 1 / 5

/-- The least bitrate ratio for high resolutions. -/
def brMinHighResolution : ℚ := 1 / 10

/-- The greatest factor for the wished ratio. -/
def maxBrMultiple : ℚ := 1

/-- The ratio for the best quality. -/
def brBest : ℚ := 3 / 2

/-- The ratio for a balanced quality. -/
def brBalanced : ℚ := 67 / 100

/-- The ratio for speed. -/
def brSpeed : ℚ := 1 / 2

/-- How many delays are kept, less one. -/
def historyDelayLen : ℕ := 2

/-- The seconds between two changes of the ratio. -/
def adjustRatioInterval : ℕ := 3

/-- The frames of a second that make a screen dynamic. -/
def dynamicScreenThreshold : ℕ := 2

/-- The delay from which the rate goes down. -/
def delayThreshold150ms : ℕ := 150

/-- `Ord::clamp` and `f32::clamp`, which panic when the bounds are the wrong way round. -/
def clamp {α : Type} [LinearOrder α] (v lo hi : α) : Option α :=
  if lo ≤ hi then some (if v < lo then lo else if hi < v then hi else v) else none

end VideoQoS

open VideoQoS

/-- `Quality` of the codec. -/
inductive Quality where
  | best
  | balanced
  | low
  | custom (ratio : ℚ)
deriving DecidableEq

namespace Quality

/-- The ratio of a quality. -/
def ratio : Quality → ℚ
  | best => brBest
  | balanced => brBalanced
  | low => brSpeed
  | custom v => v

/-- `convert_quality` of `user_image_quality`, on an `i32`. -/
def convert (q : BitVec 32) : Option Quality :=
  if q = 3 then some balanced
  else if q = 2 then some low
  else if q = 4 then some best
  else
    let b : ℚ := (((q.sshiftRight 8 &&& 0xFFF#32).toNat * 2 : ℕ) : ℚ) / 100
    (clamp b brMin brMax).map custom

end Quality

/-- The round trip time of a user, as far as it is known. -/
structure RttCalculator where
  minRtt : Option ℕ := none
  windowMinRtt : Option ℕ := none
  smoothedRtt : Option ℕ := none
  samples : List ℕ := []

namespace RttCalculator

/-- How many samples are kept. -/
def windowSamples : ℕ := 60

/-- How many samples there must be. -/
def minSamples : ℕ := 10

/-- One more sample. -/
def update (c : RttCalculator) (delay : ℕ) : RttCalculator :=
  let minRtt := match c.minRtt with
    | some minRtt => if delay < minRtt then some delay else some minRtt
    | none => some delay
  let samples := (if windowSamples ≤ c.samples.length then c.samples.tail else c.samples) ++ [delay]
  let windowMinRtt := samples.min?
  -- `ALPHA` is one half, and `as u32` rounds down.
  let smoothedRtt := match minRtt, windowMinRtt with
    | some min, some windowMin =>
      if windowSamples ≤ samples.length then some ((min + windowMin) / 2) else c.smoothedRtt
    | _, _ => c.smoothedRtt
  { minRtt, windowMinRtt, smoothedRtt, samples }

/-- The smoothed time, or the least one if there are samples enough. -/
def getRtt (c : RttCalculator) : Option ℕ :=
  match c.smoothedRtt with
  | some rtt => some rtt
  | none => if minSamples ≤ c.samples.length then c.minRtt else none

end RttCalculator

/-- What is known of the delay of a user. -/
structure UserDelay where
  responseDelayed : Bool := false
  delayHistory : List ℕ := []
  fps : Option ℕ := none
  rttCalculator : RttCalculator := {}
  quickIncreaseFpsCount : ℕ := 0
  increaseFpsCount : ℕ := 0

namespace UserDelay

/-- One more delay, where the oldest makes room. -/
def addDelay (d : UserDelay) (delay : ℕ) : UserDelay :=
  let history := if historyDelayLen < d.delayHistory.length then d.delayHistory.tail
    else d.delayHistory
  { d with rttCalculator := d.rttCalculator.update delay, delayHistory := history ++ [delay] }

/-- The average delay minus the round trip time. -/
def avgDelay (d : UserDelay) : ℕ :=
  if 0 < d.delayHistory.length then
    let avgDelay := d.delayHistory.sum % 2 ^ 32 / d.delayHistory.length
    match d.rttCalculator.getRtt with
    | some rtt => if avgDelay > rtt then avgDelay - rtt else avgDelay
    | none => avgDelay
  else delayThreshold150ms

/-- The adaptive adjustment of `user_network_delay`: the counters of the user and the frame rate
before the final clamp. -/
def adapt (d : UserDelay) (oldAvgDelay avgDelay minFps normalFps fps : ℕ) : UserDelay × ℕ :=
  let dividendMs := delayThreshold150ms * minFps
  let devideFps := fps * delayThreshold150ms ⌈/⌉ avgDelay
  let d := if avgDelay < 50 then { d with quickIncreaseFpsCount := d.quickIncreaseFpsCount + 1 }
    else d
  let quick := decide (avgDelay < 50 ∧ 3 ≤ d.quickIncreaseFpsCount)
  let d := if quick then { d with quickIncreaseFpsCount := 0 } else d
  let step := if fps < normalFps then 1 else 0
  let fps :=
    if avgDelay < 50 then max minFps (fps + if quick then 5 else step)
    else if avgDelay < 100 then max minFps (fps + if avgDelay < oldAvgDelay then step else 0)
    else if avgDelay < delayThreshold150ms then max minFps fps
    else if avgDelay < 200 then max minFps devideFps
    else if avgDelay < 300 then min minFps devideFps
    else if avgDelay < 600 then dividendMs / avgDelay
    else min (dividendMs / avgDelay) devideFps
  let d := { d with increaseFpsCount :=
    if avgDelay < delayThreshold150ms then d.increaseFpsCount + 1 else 0 }
  let stable := decide (3 ≤ d.increaseFpsCount)
  let d := if stable then { d with increaseFpsCount := 0 } else d
  let d := if 50 < avgDelay then { d with quickIncreaseFpsCount := 0 } else d
  (d, if stable then fps + 1 else fps)

end UserDelay

/-- The wishes and the delay of a user. -/
structure UserData where
  autoAdjustFps : Option ℕ := none
  customFps : Option ℕ := none
  /-- The time it was set at, and the quality. -/
  quality : Option (ℤ × Quality) := none
  delay : UserDelay := {}

/-- `user_fps` of `highest_fps`. -/
def UserData.userFps (u : UserData) : ℕ :=
  let fps := u.customFps.getD FPS
  match u.autoAdjustFps with
  | some autoAdjustFps => if fps = 0 ∨ autoAdjustFps < fps then autoAdjustFps else fps
  | none => fps

/-- What is known of a display. -/
structure DisplayData where
  sendCounter : ℕ := 0
  supportChangingQuality : Bool := false

/-- The rate and the ratio, with the users and the displays they depend on. -/
structure VideoQoS where
  fps : ℕ
  ratio : ℚ
  users : OrderedMap ℤ UserData
  displays : OrderedMap ℕ DisplayData
  bitrateStore : ℕ
  adjustRatioInstant : ℕ
  abrConfig : Bool
  newUserInstant : ℕ

/-- What a call finds: the clock in milliseconds, the time of `get_time`, and the order in which
the map of the users is iterated, which may be any. -/
structure Moment where
  now : ℕ
  time : ℤ
  order : List (ℤ × UserData) → List (ℤ × UserData)
  order_perm : ∀ users, (order users).Perm users

namespace VideoQoS

/-- `VideoQoS::default` at an instant. -/
def default (now : ℕ) : VideoQoS where
  fps := FPS
  ratio := brBalanced
  users := .empty
  displays := .empty
  bitrateStore := 0
  adjustRatioInstant := now
  abrConfig := true
  newUserInstant := now

/-- The record of a user is changed, if it is there. -/
def updateUser (s : VideoQoS) (id : ℤ) (f : UserData → UserData) : VideoQoS :=
  match s.users.get? id with
  | some user => { s with users := s.users.set id (f user) }
  | none => s

/-- The record of a display is changed, if it is there. -/
def updateDisplay (s : VideoQoS) (displayIdx : ℕ) (f : DisplayData → DisplayData) : VideoQoS :=
  match s.displays.get? displayIdx with
  | some display => { s with displays := s.displays.set displayIdx (f display) }
  | none => s

/-- Whether a display can change its quality. -/
def setSupportChangingQuality (s : VideoQoS) (displayIdx : ℕ) (support : Bool) : VideoQoS :=
  s.updateDisplay displayIdx fun display => { display with supportChangingQuality := support }

/-- The bits follow the network where all displays allow it. -/
def inVbrState (s : VideoQoS) : Bool :=
  s.abrConfig && s.displays.values.all (·.supportChangingQuality)

/-- `enable-abr` is the option read from the configuration. -/
def onConnectionOpen (s : VideoQoS) (m : Moment) (id : ℤ) (enableAbr : Bool) : VideoQoS :=
  { s with users := s.users.set id {}, abrConfig := enableAbr, newUserInstant := m.now }

/-- A user leaves, and after the last one everything starts again. -/
def onConnectionClose (s : VideoQoS) (m : Moment) (id : ℤ) : VideoQoS :=
  let users := s.users.delete id
  if users.entries = [] then default m.now else { s with users }

/-- A user wishes a rate, if it is in range. -/
def userCustomFps (s : VideoQoS) (id : ℤ) (fps : ℕ) : VideoQoS :=
  if fps < minFps ∨ maxFps < fps then s
  else s.updateUser id fun user => { user with customFps := some fps }

/-- A client adjusts its rate, if it is in range. -/
def userAutoAdjustFps (s : VideoQoS) (id : ℤ) (fps : ℕ) : VideoQoS :=
  if fps < minFps ∨ maxFps < fps then s
  else s.updateUser id fun user => { user with autoAdjustFps := some fps }

/-- `max_by` on the times: the last of the greatest ones. -/
def latest : List (ℤ × Quality) → Option (ℤ × Quality)
  | [] => none
  | q :: rest => some (rest.foldl (fun a b => if b.1 < a.1 then a else b) q)

/-- The quality that was set last. -/
def latestQuality (s : VideoQoS) (m : Moment) : Quality :=
  ((latest ((m.order s.users.entries).filterMap (·.2.quality))).getD (0, .balanced)).2

/-- A user wishes a quality. -/
def userImageQuality (s : VideoQoS) (m : Moment) (id : ℤ) (imageQuality : BitVec 32) :
    Option VideoQoS :=
  (Quality.convert imageQuality).map fun quality =>
    match s.users.get? id with
    | some user =>
      let s := { s with users := s.users.set id { user with quality := some (m.time, quality) } }
      { s with ratio := (s.latestQuality m).ratio }
    | none => s

/-- The highest rate that all users allow. -/
def highestFps (s : VideoQoS) : Option ℕ :=
  clamp (((s.users.values.map (·.userFps)).filter (minFps ≤ ·)).min?.getD FPS) minFps maxFps

/-- The frame rate the users and the last opening ask for, before the clamp. -/
def wantedFps (s : VideoQoS) (m : Moment) : ℕ :=
  let fps := (s.users.values.map fun u => u.delay.fps.getD initFps).min?.getD initFps
  let fps := if s.users.values.any (·.delay.responseDelayed) ∧ minFps + 1 < fps then minFps + 1
    else fps
  if (m.now - s.newUserInstant) / 1000 < 1 ∧ initFps < fps then initFps else fps

/-- The rate as it is wanted, within its bounds. -/
def adjustFps (s : VideoQoS) (m : Moment) : Option VideoQoS := do
  let highestFps ← s.highestFps
  let fps ← clamp (s.wantedFps m) minFps highestFps
  return { s with fps }

/-- For a high resolution 1 Mbps needs a lower minimum: it is taken if there is one. -/
def lowered (minimum : ℚ) (ratio1mbps : Option ℚ) : ℚ :=
  match ratio1mbps with
  | some ratio => if ratio < minimum then ratio else minimum
  | none => minimum

/-- The minimum of `adjust_ratio`. -/
def minRatio (quality : Quality) (ratio1mbps : Option ℚ) : ℚ :=
  match quality with
  | .best => max (lowered (brBest / (5 / 2)) ratio1mbps) brMin
  | .balanced => max (lowered (min (brBalanced / 2) (2 / 5)) ratio1mbps) brMinHighResolution
  | .low => brMinHighResolution
  | .custom _ => brMinHighResolution

/-- The ratio `adjust_ratio` wants for a delay, before the limits. -/
def delayedRatio (maxDelay : ℕ) (dynamicScreen : Bool) (ratio : ℚ) : ℚ :=
  if maxDelay < 50 then if dynamicScreen then ratio * (115 / 100) else ratio
  else if maxDelay < 100 then if dynamicScreen then ratio * (110 / 100) else ratio
  else if maxDelay < delayThreshold150ms then if dynamicScreen then ratio * (105 / 100) else ratio
  else if maxDelay < 200 then ratio * (95 / 100)
  else if maxDelay < 300 then ratio * (90 / 100)
  else if maxDelay < 500 then ratio * (85 / 100)
  else ratio * (80 / 100)

/-- The ratio, where the bits follow the network. -/
def adjustRatio (s : VideoQoS) (m : Moment) (dynamicScreen : Bool) : Option VideoQoS :=
  if s.inVbrState = false then some s
  else
    match (s.users.values.map (·.delay.avgDelay)).max? with
    | none => some s
    | some maxDelay =>
      let targetQuality := s.latestQuality m
      let ratio1mbps :=
        if 0 < s.bitrateStore then
          some (max (s.ratio * 1000 / s.bitrateStore) brMinHighResolution)
        else none
      let ratioAdd150kbps :=
        if 0 < s.bitrateStore then
          some (((s.bitrateStore + 150) % 2 ^ 32 : ℕ) * s.ratio / s.bitrateStore)
        else none
      let v := delayedRatio maxDelay dynamicScreen s.ratio
      let v := match ratioAdd150kbps with
        | some add => if add < v ∧ s.ratio < add ∧ brSpeed ≤ s.ratio then add else v
        | none => v
      (clamp v (minRatio targetQuality ratio1mbps) (targetQuality.ratio * maxBrMultiple)).map
        fun ratio => { s with ratio, adjustRatioInstant := m.now }

/-- `linux` is the target the host is built for. -/
def userNetworkDelay (linux : Bool) (s : VideoQoS) (m : Moment) (id : ℤ) (delay : ℕ) :
    Option VideoQoS := do
  let highestFps ← s.highestFps
  let targetRatio := (s.latestQuality m).ratio
  let (userMinFps, normalFps) :=
    if brBest ≤ targetRatio then (8, 16)
    else if brBalanced ≤ targetRatio then (10, 20)
    else (12, 24)
  match s.users.get? id with
  | some user =>
    let oldAvgDelay := user.delay.avgDelay
    let d := user.delay.addDelay (max delay 10)
    let (d, fps) := d.adapt oldAvgDelay (max d.avgDelay 10) userMinFps normalFps s.fps
    let fps ← clamp fps minFps highestFps
    let user' := { user with delay := { d with fps := some fps } }
    let s ← { s with users := s.users.set id user' }.adjustFps m
    if user.delay.fps = none ∧ linux = false then s.adjustRatio m false else some s
  | none => s.adjustFps m

/-- A response that takes too long counts as delayed. -/
def userDelayResponseElapsed (s : VideoQoS) (m : Moment) (id : ℤ) (elapsed : ℕ) :
    Option VideoQoS :=
  match s.users.get? id with
  | some user =>
    if 2000 < elapsed then
      let delay := { user.delay with responseDelayed := true }.addDelay (elapsed % 2 ^ 32)
      let user' := { user with delay }
      { s with users := s.users.set id user' }.adjustFps m
    else
      let user' := { user with delay := { user.delay with responseDelayed := false } }
      some { s with users := s.users.set id user' }
  | none => some s

/-- The frames of a display are counted. -/
def updateDisplayData (s : VideoQoS) (m : Moment) (displayIdx sendCounter : ℕ) :
    Option VideoQoS := do
  let s := s.updateDisplay displayIdx fun display =>
    { display with sendCounter := (display.sendCounter + sendCounter) % 2 ^ 64 }
  let s ← s.adjustFps m
  if s.inVbrState then
    if adjustRatioInterval ≤ (m.now - s.adjustRatioInstant) / 1000 then
      let dynamicScreen := s.displays.values.any fun display =>
        adjustRatioInterval * dynamicScreenThreshold ≤ display.sendCounter
      let displays := s.displays.mapValues fun display => { display with sendCounter := 0 }
      { s with displays }.adjustRatio m dynamicScreen
    else some s
  else some { s with ratio := (s.latestQuality m).ratio }

end VideoQoS

/-- A call of the controller. -/
inductive QosCall where
  | onConnectionOpen (id : ℤ) (enableAbr : Bool)
  | onConnectionClose (id : ℤ)
  | userCustomFps (id : ℤ) (fps : ℕ)
  | userAutoAdjustFps (id : ℤ) (fps : ℕ)
  | userImageQuality (id : ℤ) (imageQuality : BitVec 32)
  | userNetworkDelay (id : ℤ) (delay : ℕ)
  | userDelayResponseElapsed (id : ℤ) (elapsed : ℕ)
  | newDisplay (displayIdx : ℕ)
  | removeDisplay (displayIdx : ℕ)
  | setSupportChangingQuality (displayIdx : ℕ) (support : Bool)
  | storeBitrate (bitrate : ℕ)
  | updateDisplayData (displayIdx sendCounter : ℕ)

namespace VideoQoS

/-- A call at a moment; `none` when it panics. -/
def step (linux : Bool) (s : VideoQoS) : Moment × QosCall → Option VideoQoS
  | (m, .onConnectionOpen id enableAbr) => some (s.onConnectionOpen m id enableAbr)
  | (m, .onConnectionClose id) => some (s.onConnectionClose m id)
  | (_, .userCustomFps id fps) => some (s.userCustomFps id fps)
  | (_, .userAutoAdjustFps id fps) => some (s.userAutoAdjustFps id fps)
  | (m, .userImageQuality id imageQuality) => s.userImageQuality m id imageQuality
  | (m, .userNetworkDelay id delay) => s.userNetworkDelay linux m id delay
  | (m, .userDelayResponseElapsed id elapsed) => s.userDelayResponseElapsed m id elapsed
  | (_, .newDisplay displayIdx) => some { s with displays := s.displays.set displayIdx {} }
  | (_, .removeDisplay displayIdx) => some { s with displays := s.displays.delete displayIdx }
  | (_, .setSupportChangingQuality displayIdx support) =>
    some (s.setSupportChangingQuality displayIdx support)
  | (_, .storeBitrate bitrate) => some { s with bitrateStore := bitrate }
  | (m, .updateDisplayData displayIdx sendCounter) => s.updateDisplayData m displayIdx sendCounter

/-- Calls one after the other, on a controller made at an instant. -/
def machine (linux : Bool) (start : ℕ) : Machine VideoQoS (Moment × QosCall) :=
  ⟨default start, step linux⟩

end VideoQoS

end RdWeb.Host
