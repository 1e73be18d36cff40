import RdWeb.Client.FpsControl

/-!
# What the frame-rate control asks for

Over any run the rates stay within bounds and no request repeats the one before it; the rate goes
up by at least three unless some thread is too slow. A display is refreshed at most twenty times,
more than ten seconds apart.
-/

namespace RdWeb.Client.FpsControl

/-! ### Rates -/

/-- The rates asked for, with the custom rate of that time and whether a thread was too slow. -/
def rates (requests : List Request) : List (ℕ × ℕ × Bool) :=
  requests.filterMap fun
    | .customFps fps customFps slow => some (fps, customFps, slow)
    | .refresh .. => none

/-- The times at which the display was refreshed. -/
def refreshes (display : ℕ) (requests : List Request) : List ℕ :=
  requests.filterMap fun
    | .customFps .. => none
    | .refresh other now => if other = display then some now else none

/-- The rates asked for, part by part. -/
@[simp] theorem rates_append (first second : List Request) :
    rates (first ++ second) = rates first ++ rates second :=
  List.filterMap_append ..

/-- The refreshes of a display, part by part. -/
@[simp] theorem refreshes_append (display : ℕ) (first second : List Request) :
    refreshes display (first ++ second) = refreshes display first ++ refreshes display second :=
  List.filterMap_append ..

/-- The limit of the user is between 5 and 120. -/
theorem customLimit_bounds (customFps : Option ℕ) :
    5 ≤ customLimit customFps ∧ customLimit customFps ≤ 120 := by
  unfold customLimit
  dsimp only
  split_ifs <;> omega

/-- The rate for a full queue is at least one. -/
theorem autoFps_pos (limitedFps maxQueueLen : ℕ) (slow : Bool) :
    1 ≤ autoFps limitedFps maxQueueLen slow := by
  unfold autoFps
  dsimp only
  split_ifs <;> omega

/-- The rate is not above the limit, unless that is zero. -/
theorem autoFps_le {limitedFps bound : ℕ} (maxQueueLen : ℕ) (slow : Bool)
    (hlimit : limitedFps ≤ bound) (hbound : 1 ≤ bound) :
    autoFps limitedFps maxQueueLen slow ≤ bound := by
  unfold autoFps
  dsimp only
  split_ifs <;> omega

/-- Only a slow thread brings the rate below the limit. -/
theorem le_autoFps (limitedFps maxQueueLen : ℕ) :
    limitedFps ≤ autoFps limitedFps maxQueueLen false := by
  unfold autoFps
  simp only [Bool.false_eq_true, false_and, if_false]
  split_ifs <;> omega

/-- One rate after another: they differ, and without a slow thread the second is higher. -/
def Follows (first second : ℕ × ℕ × Bool) : Prop :=
  second.1 ≠ first.1 ∧ (second.2.2 = false → first.1 + 3 ≤ second.1)

/-- The rates are within bounds, each follows the one before, and the last is remembered. -/
structure RatesOk (s : Session) : Prop where
  bounds : ∀ rate ∈ rates s.requests, 1 ≤ rate.1 ∧ rate.1 ≤ rate.2.1 ∧ rate.2.1 ≤ 120
  follows : (rates s.requests).IsChain Follows
  last : s.lastAutoFps = (rates s.requests).getLast?.map Prod.fst

namespace Session

/-- `setFps` leaves the threads alone, and what it asks for is no refresh. -/
theorem refreshes_setFps (s : Session) (limitedFps maxQueueLen : ℕ) (slow fast : Bool) :
    (s.setFps limitedFps maxQueueLen slow fast).threads = s.threads ∧ ∀ display,
      refreshes display (s.setFps limitedFps maxQueueLen slow fast).requests =
        refreshes display s.requests := by
  unfold setFps
  dsimp only
  split_ifs <;> simp [refreshes]

/-- Setting a rate within the limit keeps the requests in order. -/
theorem ratesOk_setFps {s : Session} {limitedFps maxQueueLen : ℕ} {slow fast : Bool}
    (h : RatesOk s) (hlimit : limitedFps ≤ customLimit s.customFps)
    (hfast : fast = true → ∀ last, s.lastAutoFps = some last → last + 3 ≤ limitedFps) :
    RatesOk (s.setFps limitedFps maxQueueLen slow fast) := by
  have hcustom := customLimit_bounds s.customFps
  have hpos := autoFps_pos limitedFps maxQueueLen slow
  have hle := autoFps_le maxQueueLen slow hlimit (by omega)
  unfold setFps
  dsimp only
  split_ifs with hask hnew
  · have hrates : rates (s.requests ++ [.customFps (autoFps limitedFps maxQueueLen slow)
        (customLimit s.customFps) slow]) = rates s.requests ++
        [(autoFps limitedFps maxQueueLen slow, customLimit s.customFps, slow)] := by
      rw [rates_append]
      rfl
    constructor
    · rw [hrates]
      intro rate hmem
      rcases List.mem_append.mp hmem with hmem | hmem
      · exact h.bounds rate hmem
      · rw [List.mem_singleton.mp hmem]
        exact ⟨hpos, hle, hcustom.2⟩
    · rw [hrates, List.isChain_append]
      refine ⟨h.follows, List.isChain_singleton _, ?_⟩
      intro previous hprevious next hnext
      obtain rfl : _ = next := by simpa using hnext
      have hlast : s.lastAutoFps = some previous.1 := by
        rw [h.last, hprevious]
        rfl
      refine ⟨fun heq => hnew ?_, fun hslow => ?_⟩
      · rw [hlast, ← heq]
      · -- no thread is slow, so some thread is fast
        dsimp only at hslow ⊢
        subst hslow
        have hraise : fast = true := by simpa [hlast] using hask
        exact Nat.le_trans (hfast hraise _ hlast) (le_autoFps limitedFps maxQueueLen)
    · rw [hrates, List.getLast?_concat]
      rfl
  · exact h
  · exact h

/-- Refreshing displays asks for no rate. -/
theorem rates_refreshDisplays (s : Session) (r : Readings) (minDecodeFps : ℕ) :
    rates (s.refreshDisplays r minDecodeFps).requests = rates s.requests := by
  have hnone (threads : List VideoThread) :
      rates (threads.map fun t => .refresh t.display r.now) = [] := by
    simp [rates]
  rw [refreshDisplays, rates_append, hnone, List.append_nil]

end Session

/-! ### Refreshes -/

/-- What the threads count is what was asked for, and that is little. -/
structure RefreshesOk (s : Session) : Prop where
  nodup : (s.threads.map VideoThread.display).Nodup
  counted : ∀ t ∈ s.threads,
    t.control.refreshTimes = (refreshes t.display s.requests).length ∧
    t.control.lastRefreshInstant = (refreshes t.display s.requests).getLast?
  others : ∀ display ∉ s.threads.map VideoThread.display, refreshes display s.requests = []
  few : ∀ display, (refreshes display s.requests).length ≤ 20
  apart : ∀ display, (refreshes display s.requests).IsChain fun first second =>
    first + 11000 ≤ second

/-- Nothing changes while the threads keep their displays and what they know of refreshes. -/
theorem RefreshesOk.map {s t : Session} (h : RefreshesOk s) (change : VideoThread → VideoThread)
    (hthreads : t.threads = s.threads.map change)
    (hchange : ∀ v, (change v).display = v.display ∧
      (change v).control.refreshTimes = v.control.refreshTimes ∧
      (change v).control.lastRefreshInstant = v.control.lastRefreshInstant)
    (hrequests : ∀ display, refreshes display t.requests = refreshes display s.requests) :
    RefreshesOk t := by
  have hdisplays : t.threads.map VideoThread.display = s.threads.map VideoThread.display := by
    rw [hthreads, List.map_map]
    exact List.map_congr_left fun v _ => (hchange v).1
  constructor
  · rw [hdisplays]
    exact h.nodup
  · intro v hmem
    rw [hthreads] at hmem
    obtain ⟨old, hold, rfl⟩ := List.mem_map.mp hmem
    obtain ⟨hdisplay, htimes, hlast⟩ := hchange old
    rw [hdisplay, htimes, hlast, hrequests]
    exact h.counted old hold
  · intro display hdisplay
    rw [hdisplays] at hdisplay
    rw [hrequests]
    exact h.others display hdisplay
  · intro display
    rw [hrequests]
    exact h.few display
  · intro display
    rw [hrequests]
    exact h.apart display

/-- The refreshes of a display, among those of some threads. -/
theorem refreshes_map {threads : List VideoThread}
    (hnodup : (threads.map VideoThread.display).Nodup) (needs : VideoThread → Bool) (now : ℕ) :
    (∀ t ∈ threads, refreshes t.display
      ((threads.filter needs).map fun t => .refresh t.display now) =
        if needs t then [now] else []) ∧
    ∀ display ∉ threads.map VideoThread.display, refreshes display
      ((threads.filter needs).map fun t => .refresh t.display now) = [] := by
  induction threads with
  | nil => exact ⟨by simp, fun _ _ => rfl⟩
  | cons first threads ih =>
    obtain ⟨hfresh, hrest⟩ := List.nodup_cons.mp hnodup
    obtain ⟨hmembers, hothers⟩ := ih hrest
    have hcons (display : ℕ) : refreshes display
        (((first :: threads).filter needs).map fun t => .refresh t.display now) =
        (if needs first ∧ first.display = display then [now] else []) ++
          refreshes display ((threads.filter needs).map fun t => .refresh t.display now) := by
      by_cases hneeds : needs first
      · by_cases hdisplay : first.display = display <;> simp [refreshes, hneeds, hdisplay]
      · simp [hneeds]
    constructor
    · intro t hmem
      rw [hcons]
      rcases List.mem_cons.mp hmem with rfl | hmem
      · rw [hothers _ hfresh]
        simp
      · have hne : first.display ≠ t.display := fun heq =>
          hfresh (heq ▸ List.mem_map_of_mem hmem)
        rw [hmembers t hmem]
        simp [hne]
    · intro display hdisplay
      obtain ⟨hne, hdisplay⟩ : display ≠ first.display ∧
          display ∉ threads.map VideoThread.display := by
        simpa only [List.map_cons, List.mem_cons, not_or] using hdisplay
      rw [hcons, hothers display hdisplay]
      simp [hne.symm]

/-- A display is refreshed only with fewer than twenty refreshes and none of late. -/
theorem refresh_allowed {t : VideoThread} {minDecodeFps : ℕ} {r : Readings} {times : List ℕ}
    (htimes : t.control.refreshTimes = times.length)
    (hlast : t.control.lastRefreshInstant = times.getLast?)
    (h : t.needsRefresh minDecodeFps r = true) :
    times.length < 20 ∧ ∀ last ∈ times.getLast?, last + 11000 ≤ r.now := by
  unfold VideoThread.needsRefresh at h
  simp only [Bool.and_eq_true, decide_eq_true_eq, Bool.or_eq_true] at h
  obtain ⟨⟨hfew, -⟩, hwhen⟩ := h
  refine ⟨htimes ▸ hfew, fun last hmem => ?_⟩
  rcases hwhen with hzero | hlong
  · -- a display that was never refreshed
    obtain rfl : times = [] := List.length_eq_zero_iff.mp (htimes ▸ hzero)
    simp at hmem
  · rw [hlast, hmem] at hlong
    simp only [Option.any_some, decide_eq_true_eq] at hlong
    omega

/-- Refreshing keeps the spacing of the refreshes. -/
theorem refreshesOk_refreshDisplays {s : Session} (h : RefreshesOk s) (r : Readings)
    (minDecodeFps : ℕ) : RefreshesOk (s.refreshDisplays r minDecodeFps) := by
  obtain ⟨hnodup, hcounted, hothers, hfew, hapart⟩ := h
  obtain ⟨hnew, hnone⟩ := refreshes_map hnodup (·.needsRefresh minDecodeFps r) r.now
  have hdisplays : (s.threads.map (·.refreshIfNeeded minDecodeFps r)).map VideoThread.display =
      s.threads.map VideoThread.display := by
    rw [List.map_map]
    refine List.map_congr_left fun t _ => ?_
    rw [Function.comp_apply, VideoThread.refreshIfNeeded]
    split_ifs <;> rfl
  -- a display has a thread, which tells what is added, or nothing is ever asked for it
  have hcases (display : ℕ) : (∃ t ∈ s.threads, t.display = display) ∨
      refreshes display (s.refreshDisplays r minDecodeFps).requests = [] := by
    by_cases hmem : display ∈ s.threads.map VideoThread.display
    · exact .inl (by simpa using hmem)
    · right
      rw [Session.refreshDisplays, refreshes_append, hothers display hmem, hnone display hmem,
        List.append_nil]
  -- what a thread is refreshed adds to the times of its display
  have hmember (t : VideoThread) (hmem : t ∈ s.threads) :
      refreshes t.display (s.refreshDisplays r minDecodeFps).requests =
        refreshes t.display s.requests ++
          if t.needsRefresh minDecodeFps r then [r.now] else [] := by
    rw [Session.refreshDisplays, refreshes_append, hnew t hmem]
  constructor
  · rw [Session.refreshDisplays, hdisplays]
    exact hnodup
  · intro t hmem
    obtain ⟨old, hold, rfl⟩ := List.mem_map.mp hmem
    obtain ⟨htimes, hlast⟩ := hcounted old hold
    have hdisplay : (old.refreshIfNeeded minDecodeFps r).display = old.display := by
      unfold VideoThread.refreshIfNeeded
      split_ifs <;> rfl
    rw [hdisplay, hmember old hold, VideoThread.refreshIfNeeded]
    split_ifs
    · simp [htimes]
    · simp [htimes, hlast]
  · intro display hdisplay
    rw [Session.refreshDisplays, hdisplays] at hdisplay
    rw [Session.refreshDisplays, refreshes_append, hothers display hdisplay,
      hnone display hdisplay, List.append_nil]
  · intro display
    rcases hcases display with ⟨t, hmem, rfl⟩ | hnil
    · rw [hmember t hmem]
      split_ifs with hneeds
      · have hallowed := refresh_allowed (hcounted t hmem).1 (hcounted t hmem).2 hneeds
        rw [List.length_append, List.length_singleton]
        exact hallowed.1
      · rw [List.append_nil]
        exact hfew t.display
    · simp [hnil]
  · intro display
    rcases hcases display with ⟨t, hmem, rfl⟩ | hnil
    · rw [hmember t hmem]
      split_ifs with hneeds
      · have hallowed := refresh_allowed (hcounted t hmem).1 (hcounted t hmem).2 hneeds
        rw [List.isChain_append]
        refine ⟨hapart t.display, List.isChain_singleton _, ?_⟩
        intro last hlast now hnow
        obtain rfl : r.now = now := by simpa using hnow
        exact hallowed.2 last hlast
      · rw [List.append_nil]
        exact hapart t.display
    · rw [hnil]
      exact List.isChain_nil

/-! ### A run -/

/-- `fps_trending` is sure of a rise only with room for it. -/
theorem room_of_trending {last limitedFps : ℕ} {r : Readings} {t : VideoThread}
    (h : (t.trending last limitedFps r).1 = some true) : last + 3 ≤ limitedFps := by
  unfold VideoThread.trending VideoThread.fpsTrending at h
  dsimp only at h
  split at h
  · cases h
  · split_ifs at h with _ _ _ hroom
    all_goals first | exact hroom.2 | cases h

/-- The trend of a thread does not touch what its refreshes depend on. -/
theorem trending_keeps (last limitedFps : ℕ) (r : Readings) (t : VideoThread) :
    (t.trending last limitedFps r).2.display = t.display ∧
    (t.trending last limitedFps r).2.control.refreshTimes = t.control.refreshTimes ∧
    (t.trending last limitedFps r).2.control.lastRefreshInstant =
      t.control.lastRefreshInstant := by
  unfold VideoThread.trending VideoThread.fpsTrending
  dsimp only
  split
  · exact ⟨rfl, rfl, rfl⟩
  · split_ifs <;> exact ⟨rfl, rfl, rfl⟩

/-- The rates do not depend on the threads and the time. -/
theorem RatesOk.congr {s t : Session} (h : RatesOk s) (hrates : rates t.requests = rates s.requests)
    (hlast : t.lastAutoFps = s.lastAutoFps) : RatesOk t := by
  refine ⟨?_, ?_, ?_⟩
  · rw [hrates]
    exact h.bounds
  · rw [hrates]
    exact h.follows
  · rw [hlast, hrates]
    exact h.last

/-- Adjusting keeps the requests for rates in order. -/
theorem ratesOk_adjust {s : Session} (h : RatesOk s) (r : Readings) {limitedFps : ℕ}
    (minDecodeFps : ℕ) (hlimit : limitedFps ≤ customLimit s.customFps) :
    RatesOk (s.adjust r minDecodeFps limitedFps) := by
  unfold Session.adjust
  refine RatesOk.congr ?_ (Session.rates_refreshDisplays _ r _) rfl
  refine Session.ratesOk_setFps ?_ hlimit ?_
  · exact h.congr rfl rfl
  intro hfast last hlast
  have hmem := List.contains_iff_mem.mp hfast
  obtain ⟨trended, htrended, htrend⟩ := List.mem_map.mp hmem
  obtain ⟨t, -, rfl⟩ := List.mem_map.mp htrended
  have hroom := room_of_trending htrend
  have hlast' : s.lastAutoFps = some last := hlast
  rwa [hlast', Option.getD_some] at hroom

/-- Adjusting keeps the spacing of the refreshes. -/
theorem refreshesOk_adjust {s : Session} (h : RefreshesOk s) (r : Readings)
    (minDecodeFps limitedFps : ℕ) : RefreshesOk (s.adjust r minDecodeFps limitedFps) := by
  unfold Session.adjust
  apply refreshesOk_refreshDisplays
  obtain ⟨hthreads, hrequests⟩ := Session.refreshes_setFps
    { s with
      threads := (s.threads.map (VideoThread.trending
        (s.lastAutoFps.getD (customLimit s.customFps)) limitedFps r)).map Prod.snd }
    limitedFps _ _ _
  refine h.map (fun t =>
    (t.trending (s.lastAutoFps.getD (customLimit s.customFps)) limitedFps r).2) ?_
    (fun t => trending_keeps _ limitedFps r t) hrequests
  rw [hthreads, List.map_map]
  rfl

/-- A tick keeps both. -/
theorem requestsOk_fpsControl {s : Session} (hrates : RatesOk s) (hrefreshes : RefreshesOk s)
    (r : Readings) : RatesOk (s.fpsControl r) ∧ RefreshesOk (s.fpsControl r) := by
  have hcounted : RefreshesOk { s with
      threads := s.threads.map (·.countInactive r.realFps), now := r.now } :=
    hrefreshes.map _ rfl (fun _ => ⟨rfl, rfl, rfl⟩) fun _ => rfl
  unfold Session.fpsControl
  dsimp only
  split
  · exact ⟨hrates.congr rfl rfl, hcounted⟩
  · refine ⟨ratesOk_adjust ?_ r _ (Nat.min_le_right _ _), refreshesOk_adjust hcounted r _ _⟩
    exact hrates.congr rfl rfl

/-- A display without a thread was never refreshed, so its thread starts at nothing. -/
theorem refreshesOk_newThread {s : Session} (h : RefreshesOk s) {display : ℕ}
    {threads : List VideoThread} (hfresh : display ∉ s.threads.map VideoThread.display)
    (hperm : threads.Perm (⟨display, ⟨0, none, 0, 0⟩⟩ :: s.threads)) :
    RefreshesOk { s with threads } := by
  have hdisplays := hperm.map VideoThread.display
  rw [List.map_cons] at hdisplays
  constructor
  · exact hdisplays.nodup_iff.mpr (List.nodup_cons.mpr ⟨hfresh, h.nodup⟩)
  · intro t hmem
    rcases List.mem_cons.mp (hperm.mem_iff.mp hmem) with rfl | hmem
    · simp [h.others display hfresh]
    · exact h.counted t hmem
  · intro other hother
    apply h.others other
    intro hmem
    exact hother (hdisplays.mem_iff.mpr (List.mem_cons_of_mem _ hmem))
  · exact h.few
  · exact h.apart

/-- What holds of the requests of a session. -/
structure RequestsOk (s : Session) : Prop where
  rates : RatesOk s
  refreshes : RefreshesOk s

/-- **One step** keeps the requests in order. -/
theorem requestsOk_step {s t : Session} {e : Event} (h : step s e = some t) (hs : RequestsOk s) :
    RequestsOk t := by
  cases e with
  | newThread display threads =>
    obtain ⟨⟨hfresh, hperm⟩, heq⟩ := Option.ite_none_right_eq_some.mp h
    cases heq
    exact ⟨hs.rates.congr rfl rfl, refreshesOk_newThread hs.refreshes hfresh hperm⟩
  | setCustomFps fps =>
    cases h
    have hsame : s.threads = s.threads.map id := by rw [List.map_id]
    exact ⟨hs.rates.congr rfl rfl,
      hs.refreshes.map id hsame (fun _ => ⟨rfl, rfl, rfl⟩) fun _ => rfl⟩
  | tick r =>
    obtain ⟨-, heq⟩ := Option.ite_none_right_eq_some.mp h
    cases heq
    obtain ⟨hrates, hrefreshes⟩ := requestsOk_fpsControl hs.rates hs.refreshes r
    exact ⟨hrates, hrefreshes⟩

/-- **Pacing.** In every session, each rate is between one and the custom rate of its time, no
rate repeats the one before it, and without a slow thread it is higher by three at least. A
display is refreshed at most twenty times, with eleven seconds in between. -/
theorem requestsOk_of_reachable {s : Session} (h : machine.Reachable s) : RequestsOk s := by
  refine Machine.Reachable.invariant (M := machine) ?_ (fun _ _ _ => requestsOk_step) h
  constructor <;> constructor <;> simp [machine, rates, refreshes]

/-- A display whose frames pile up: the client asks for 13 frames a second, and for a refresh. -/
def pileUp : Readings :=
  ⟨true, 1000, fun _ => 30, fun _ => 40, fun _ => some 30, fun _ => 40, fun _ => some 30,
    fun _ => 40⟩

/-- The requests of a run whose queue grows. -/
theorem pileUp_requestsOk :
    RequestsOk ⟨[⟨0, ⟨1, some 1000, 0, 0⟩⟩], none, some 13, 1000,
      [.customFps 13 30 true, .refresh 0 1000]⟩ := by
  have hrun : machine.replay machine.init [.newThread 0 [⟨0, ⟨0, none, 0, 0⟩⟩], .tick pileUp] =
      some ⟨[⟨0, ⟨1, some 1000, 0, 0⟩⟩], none, some 13, 1000,
        [.customFps 13 30 true, .refresh 0 1000]⟩ := by decide
  exact requestsOk_of_reachable ⟨_, Machine.run_of_replay hrun⟩

end RdWeb.Client.FpsControl
