import RdWeb.Lib.Machine
import Mathlib.Data.List.Chain
import Mathlib.Data.List.Perm.Basic

/-!
# The frame rate a viewer asks for

About once a second the desktop client looks at how fast it decodes and how many frames
wait, asks the host for another frame rate, and refreshes a display that lags behind. What the
decoder threads report may change between two looks.
-/

namespace RdWeb.Client.FpsControl

/-- What a video thread keeps for its requests. -/
structure Control where
  refreshTimes : ℕ
  /-- In milliseconds, as all times here. -/
  lastRefreshInstant : Option ℕ
  idleCounter : ℕ
  inactiveCounter : ℕ
  deriving DecidableEq

/-- The control of the thread of a display. -/
structure VideoThread where
  display : ℕ
  control : Control
  deriving DecidableEq

/-- What the threads report while the function runs: each value is read where it is used. -/
structure Readings where
  direct : Bool
  now : ℕ
  realFps : ℕ → ℤ
  maxQueueLen : ℕ → ℕ
  minDecodeFps : ℕ → Option ℕ
  trendQueueLen : ℕ → ℕ
  trendDecodeFps : ℕ → Option ℕ
  refreshQueueLen : ℕ → ℕ

/-- What was asked for. The rate comes with the custom rate of that time, and whether some
thread was found to be too slow. -/
inductive Request
  | customFps (fps customFps : ℕ) (slow : Bool)
  | refresh (display now : ℕ)
  deriving DecidableEq

/-- The session, as far as the control of the rate looks at it. -/
structure Session where
  /-- In the order in which the map goes through them. -/
  threads : List VideoThread
  customFps : Option ℕ
  lastAutoFps : Option ℕ
  now : ℕ
  requests : List Request
  deriving DecidableEq

/-- The rate the user chose, if it is between 5 and 120. -/
def customLimit (customFps : Option ℕ) : ℕ :=
  let fps := customFps.getD 30
  if fps < 5 ∨ 120 < fps then 30 else fps

/-- The ticks after which a display without frames counts as inactive. -/
def inactiveThreshold : ℕ := 15

/-- The capacity of a video queue. -/
def queueCapacity : ℕ := 120

/-- `min().flatten()`, where no rate is less than any rate. -/
def minFlatten : List (Option ℕ) → Option ℕ
  | [] => none
  | [fps] => fps
  | fps :: others =>
    match fps, minFlatten others with
    | some fps, some least => some (min fps least)
    | _, _ => none

namespace VideoThread

/-- A tick without frames counts, one with frames starts again. -/
def countInactive (realFps : ℕ → ℤ) (t : VideoThread) : VideoThread :=
  { t with
    control := { t.control with
      inactiveCounter := if realFps t.display = 0 then t.control.inactiveCounter + 1 else 0 } }

/-- `fps_trending`: whether the rate should rise, and the idle counter after it. -/
def fpsTrending (last limitedFps len : ℕ) (decodeFps : Option ℕ) (c : Control) :
    Option Bool × Control :=
  match decodeFps with
  | none => (none, c)
  | some fps =>
    if inactiveThreshold < c.inactiveCounter then (none, c)
    else if (1 < len ∧ limitedFps < last) ∨ max 1 (fps / 2) < len then
      (some false, { c with idleCounter := 0 })
    else if len ≤ 1 then
      if 3 < c.idleCounter + 1 ∧ last + 3 ≤ limitedFps then
        (some true, { c with idleCounter := c.idleCounter + 1 })
      else (none, { c with idleCounter := c.idleCounter + 1 })
    else (none, { c with idleCounter := 0 })

/-- `fps_trending` for a thread, as it finds the queue and the rate of decoding. -/
def trending (last limitedFps : ℕ) (r : Readings) (t : VideoThread) : Option Bool × VideoThread :=
  let (trend, control) := fpsTrending last limitedFps (r.trendQueueLen t.display)
    (r.trendDecodeFps t.display) t.control
  (trend, { t with control })

/-- Whether the display is refreshed: at most twenty times, and not within ten seconds. -/
def needsRefresh (minDecodeFps : ℕ) (r : Readings) (t : VideoThread) : Bool :=
  t.control.refreshTimes < 20 &&
    min minDecodeFps (queueCapacity / 2) < r.refreshQueueLen t.display &&
    (t.control.refreshTimes = 0 ||
      t.control.lastRefreshInstant.any fun last => 10 < (r.now - last) / 1000)

/-- A thread that needs a refresh notes when it was asked for. -/
def refreshIfNeeded (minDecodeFps : ℕ) (r : Readings) (t : VideoThread) : VideoThread :=
  if t.needsRefresh minDecodeFps r then
    { t with
      control := { t.control with
        refreshTimes := t.control.refreshTimes + 1, lastRefreshInstant := some r.now } }
  else t

end VideoThread

/-- The rate that is asked for: half the limit where too many frames wait, and at least one. -/
def autoFps (limitedFps maxQueueLen : ℕ) (slow : Bool) : ℕ :=
  let fps := if slow ∧ limitedFps < maxQueueLen then limitedFps / 2 else limitedFps
  if fps < 1 then 1 else fps

namespace Session

/-- The new rate, and the request for it. -/
def setFps (s : Session) (limitedFps maxQueueLen : ℕ) (slow fast : Bool) : Session :=
  if s.lastAutoFps = none ∨ slow ∨ (!slow && fast) then
    let fps := autoFps limitedFps maxQueueLen slow
    if some fps ≠ s.lastAutoFps then
      { s with
        lastAutoFps := some fps
        requests := s.requests ++ [.customFps fps (customLimit s.customFps) slow] }
    else s
  else s

/-- The end of the function: refresh the displays that lag. -/
def refreshDisplays (s : Session) (r : Readings) (minDecodeFps : ℕ) : Session :=
  { s with
    threads := s.threads.map (·.refreshIfNeeded minDecodeFps r)
    requests := s.requests ++
      (s.threads.filter (·.needsRefresh minDecodeFps r)).map fun t => .refresh t.display r.now }

/-- `fps_control` once it knows how fast the slowest thread decodes. -/
def adjust (s : Session) (r : Readings) (minDecodeFps limitedFps : ℕ) : Session :=
  let last := s.lastAutoFps.getD (customLimit s.customFps)
  let maxQueueLen := (s.threads.map fun t => r.maxQueueLen t.display).foldr max 0
  let trendings := s.threads.map (·.trending last limitedFps r)
  let trends := trendings.map Prod.fst
  let s := { s with threads := trendings.map Prod.snd }
  let s := s.setFps limitedFps maxQueueLen (trends.contains (some false))
    (trends.contains (some true))
  s.refreshDisplays r minDecodeFps

/-- `fps_control`. -/
def fpsControl (s : Session) (r : Readings) : Session :=
  let s := { s with threads := s.threads.map (·.countInactive r.realFps), now := r.now }
  let active := s.threads.filter (·.control.inactiveCounter < inactiveThreshold)
  match minFlatten (active.map fun t => r.minDecodeFps t.display) with
  | none => s
  | some minDecodeFps =>
    let limitedFps := min (if r.direct then minDecodeFps * 9 / 10 else minDecodeFps * 4 / 5)
      (customLimit s.customFps)
    s.adjust r minDecodeFps limitedFps

end Session

/-- What happens to the session. -/
inductive Event
  /-- The first frame of a display; the map goes through its entries in some new order. -/
  | newThread (display : ℕ) (threads : List VideoThread)
  | setCustomFps (fps : ℕ)
  | tick (r : Readings)

/-- One step of the session. -/
def step (s : Session) : Event → Option Session
  | .newThread display threads =>
    if display ∉ s.threads.map VideoThread.display ∧
        threads.Perm (⟨display, ⟨0, none, 0, 0⟩⟩ :: s.threads) then
      some { s with threads }
    else none
  | .setCustomFps fps => some { s with customFps := some fps }
  | .tick r => if s.now ≤ r.now then some (s.fpsControl r) else none

/-- The session from its start. -/
def machine : Machine Session Event where
  init := ⟨[], none, none, 0, []⟩
  step := step

end RdWeb.Client.FpsControl
