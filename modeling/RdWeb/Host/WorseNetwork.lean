import RdWeb.Host.ViewerBounds

/-!
# The frame rate on a worse network

`user_network_delay` turns the average delay of a user into a frame rate, by seven formulas. A
longer delay gives no higher rate, except that from 300 ms on the rate is computed without the
current one, which may be lower.
-/

namespace RdWeb.Host

open VideoQoS

namespace UserDelay

/-- The seven formulas of `adapt`. -/
def formula (d : UserDelay) (oldAvgDelay avgDelay minFps normalFps fps : ℕ) : ℕ :=
  let step := if fps < normalFps then 1 else 0
  let devideFps := fps * 150 ⌈/⌉ avgDelay
  if avgDelay < 50 then
    max minFps (fps + if 3 ≤ d.quickIncreaseFpsCount + 1 then 5 else step)
  else if avgDelay < 100 then max minFps (fps + if avgDelay < oldAvgDelay then step else 0)
  else if avgDelay < 150 then max minFps fps
  else if avgDelay < 200 then max minFps devideFps
  else if avgDelay < 300 then min minFps devideFps
  else if avgDelay < 600 then 150 * minFps / avgDelay
  else min (150 * minFps / avgDelay) devideFps

/-- The rate before the clamp: a formula, and one more after three stable samples. -/
theorem adapt_fps (d : UserDelay) (old a minFps normalFps fps : ℕ) :
    (d.adapt old a minFps normalFps fps).2 =
      d.formula old a minFps normalFps fps +
        if a < 150 ∧ 3 ≤ d.increaseFpsCount + 1 then 1 else 0 := by
  have hthreshold : delayThreshold150ms = 150 := rfl
  unfold adapt formula
  by_cases hfast : a < 50
  · have hgood : a < 150 := by omega
    simp only [hthreshold, hfast, hgood, if_true, true_and, decide_eq_true_eq]
    split_ifs <;> rfl
  · simp only [hthreshold, hfast, if_false, false_and, decide_false, Bool.false_eq_true]
    by_cases hgood : a < 150
    · simp only [hgood, if_true, true_and, decide_eq_true_eq]
      split_ifs <;> rfl
    · have hzero : ¬ 3 ≤ 0 := by decide
      simp only [hgood, if_false, false_and, hzero, decide_false, Bool.false_eq_true,
        Nat.add_zero]

/-! ## The formulas one by one -/

section Formula

variable {d : UserDelay} {old a b minFps normalFps fps : ℕ}

/-- Dividing by more gives less, rounded up too. -/
theorem ceilDiv_anti (hpos : 0 < a) (hab : a ≤ b) (x : ℕ) : x ⌈/⌉ b ≤ x ⌈/⌉ a := by
  rw [ceilDiv_le_iff_le_mul (hpos.trans_le hab)]
  calc x ≤ a * (x ⌈/⌉ a) := (ceilDiv_le_iff_le_mul hpos).mp le_rfl
    _ ≤ b * (x ⌈/⌉ a) := Nat.mul_le_mul_right _ hab

/-- From 150 ms on the current rate is divided by one or more. -/
theorem devideFps_le (fps : ℕ) (ha : 150 ≤ a) : fps * 150 ⌈/⌉ a ≤ fps := by
  rw [ceilDiv_le_iff_le_mul (by omega), Nat.mul_comm]
  exact Nat.mul_le_mul_right fps ha

/-- From 150 ms on the dividend is not above the least rate. -/
theorem dividend_le (minFps : ℕ) (ha : 150 ≤ a) : 150 * minFps / a ≤ minFps :=
  Nat.div_le_of_le_mul (Nat.mul_le_mul_right minFps ha)

/-- The rate below 50 ms. -/
theorem formula_of_lt_50 (ha : a < 50) :
    d.formula old a minFps normalFps fps = max minFps (fps +
      if 3 ≤ d.quickIncreaseFpsCount + 1 then 5 else if fps < normalFps then 1 else 0) := by
  simp only [formula, if_pos ha]

/-- The rate below 100 ms. -/
theorem formula_of_50 (ha : 50 ≤ a) (hb : a < 100) :
    d.formula old a minFps normalFps fps = max minFps (fps +
      if a < old then if fps < normalFps then 1 else 0 else 0) := by
  simp only [formula, if_neg (not_lt.mpr ha), if_pos hb]

/-- The rate below 150 ms. -/
theorem formula_of_100 (ha : 100 ≤ a) (hb : a < 150) :
    d.formula old a minFps normalFps fps = max minFps fps := by
  have h50 : ¬ a < 50 := by omega
  simp only [formula, if_neg h50, if_neg (not_lt.mpr ha), if_pos hb]

/-- The rate below 200 ms. -/
theorem formula_of_150 (ha : 150 ≤ a) (hb : a < 200) :
    d.formula old a minFps normalFps fps = max minFps (fps * 150 ⌈/⌉ a) := by
  have h50 : ¬ a < 50 := by omega
  have h100 : ¬ a < 100 := by omega
  simp only [formula, if_neg h50, if_neg h100, if_neg (not_lt.mpr ha), if_pos hb]

/-- The rate below 300 ms. -/
theorem formula_of_200 (ha : 200 ≤ a) (hb : a < 300) :
    d.formula old a minFps normalFps fps = min minFps (fps * 150 ⌈/⌉ a) := by
  have h50 : ¬ a < 50 := by omega
  have h100 : ¬ a < 100 := by omega
  have h150 : ¬ a < 150 := by omega
  simp only [formula, if_neg h50, if_neg h100, if_neg h150, if_neg (not_lt.mpr ha), if_pos hb]

/-- The rate below 600 ms. -/
theorem formula_of_300 (ha : 300 ≤ a) (hb : a < 600) :
    d.formula old a minFps normalFps fps = 150 * minFps / a := by
  have h50 : ¬ a < 50 := by omega
  have h100 : ¬ a < 100 := by omega
  have h150 : ¬ a < 150 := by omega
  have h200 : ¬ a < 200 := by omega
  simp only [formula, if_neg h50, if_neg h100, if_neg h150, if_neg h200, if_neg (not_lt.mpr ha),
    if_pos hb]

/-- The rate from 600 ms on. -/
theorem formula_of_600 (ha : 600 ≤ a) :
    d.formula old a minFps normalFps fps = min (150 * minFps / a) (fps * 150 ⌈/⌉ a) := by
  have h50 : ¬ a < 50 := by omega
  have h100 : ¬ a < 100 := by omega
  have h150 : ¬ a < 150 := by omega
  have h200 : ¬ a < 200 := by omega
  have h300 : ¬ a < 300 := by omega
  simp only [formula, if_neg h50, if_neg h100, if_neg h150, if_neg h200, if_neg h300,
    if_neg (not_lt.mpr ha)]

/-- Below 150 ms the rate does not fall below the current one and the minimum. -/
theorem le_formula_of_lt (ha : a < 150) :
    max minFps fps ≤ d.formula old a minFps normalFps fps := by
  by_cases h50 : a < 50
  · rw [formula_of_lt_50 h50]
    omega
  by_cases h100 : a < 100
  · rw [formula_of_50 (by omega) h100]
    omega
  · rw [formula_of_100 (by omega) ha]

/-- From 150 ms on the rate goes up to the least rate at most. -/
theorem formula_le_of_150 (ha : 150 ≤ a) :
    d.formula old a minFps normalFps fps ≤ max minFps fps := by
  have hdevide := devideFps_le fps ha
  have hdividend := dividend_le minFps ha
  by_cases h200 : a < 200
  · rw [formula_of_150 ha h200]
    omega
  by_cases h300 : a < 300
  · rw [formula_of_200 (by omega) h300]
    omega
  by_cases h600 : a < 600
  · rw [formula_of_300 (by omega) h600]
    omega
  · rw [formula_of_600 (by omega)]
    omega

/-- From 200 ms on the rate is at most the minimum. -/
theorem formula_le_of_200 (ha : 200 ≤ a) :
    d.formula old a minFps normalFps fps ≤ minFps := by
  have hdividend := dividend_le minFps (show 150 ≤ a by omega)
  by_cases h300 : a < 300
  · rw [formula_of_200 ha h300]
    omega
  by_cases h600 : a < 600
  · rw [formula_of_300 (by omega) h600]
    omega
  · rw [formula_of_600 (by omega)]
    omega

/-- On a good network a longer delay gives no higher rate. -/
theorem formula_anti_of_lt (hab : a ≤ b) (hb : b < 150) :
    d.formula old b minFps normalFps fps ≤ d.formula old a minFps normalFps fps := by
  by_cases hb100 : 100 ≤ b
  · rw [formula_of_100 hb100 hb]
    exact le_formula_of_lt (by omega)
  by_cases hb50 : 50 ≤ b
  · rw [formula_of_50 hb50 (by omega)]
    by_cases ha50 : a < 50
    · rw [formula_of_lt_50 ha50]
      split_ifs <;> omega
    · rw [formula_of_50 (by omega) (by omega)]
      split_ifs <;> omega
  · rw [formula_of_lt_50 (by omega), formula_of_lt_50 (by omega)]

/-- **Worse is slower**, except from the fifth formula to the sixth. -/
theorem formula_anti (hpos : 0 < a) (hab : a ≤ b)
    (hexcept : 200 ≤ a → a < 300 → 300 ≤ b → b < 600 →
      150 * minFps / b ≤ fps * 150 ⌈/⌉ a) :
    d.formula old b minFps normalFps fps ≤ d.formula old a minFps normalFps fps := by
  have hdevide := ceilDiv_anti hpos hab (fps * 150)
  have hdividend : 150 * minFps / b ≤ 150 * minFps / a := Nat.div_le_div_left hab hpos
  by_cases hb150 : b < 150
  · exact formula_anti_of_lt hab hb150
  by_cases ha150 : a < 150
  · exact (formula_le_of_150 (by omega)).trans (le_formula_of_lt ha150)
  have hminimum := dividend_le minFps (show 150 ≤ b by omega)
  by_cases ha200 : a < 200
  · rw [formula_of_150 (by omega) ha200]
    by_cases hb200 : b < 200
    · rw [formula_of_150 (by omega) hb200]
      omega
    · exact (formula_le_of_200 (by omega)).trans (le_max_left _ _)
  by_cases ha300 : a < 300
  · rw [formula_of_200 (by omega) ha300]
    by_cases hb300 : b < 300
    · rw [formula_of_200 (by omega) hb300]
      omega
    by_cases hb600 : b < 600
    · have hfifth := hexcept (by omega) ha300 (by omega) hb600
      rw [formula_of_300 (by omega) hb600]
      omega
    · rw [formula_of_600 (by omega)]
      omega
  by_cases hb600 : b < 600
  · rw [formula_of_300 (by omega) hb600, formula_of_300 (by omega) (by omega)]
    exact hdividend
  rw [formula_of_600 (by omega)]
  by_cases ha600 : a < 600
  · rw [formula_of_300 (by omega) ha600]
    omega
  · rw [formula_of_600 (by omega)]
    omega

end Formula

end UserDelay

namespace VideoQoS

/-- The minimum and the normal frame rate for a quality. -/
def delayLevels (targetRatio : ℚ) : ℕ × ℕ :=
  if brBest ≤ targetRatio then (8, 16)
  else if brBalanced ≤ targetRatio then (10, 20)
  else (12, 24)

/-- The levels that `user_network_delay` takes. -/
def levels (s : VideoQoS) (m : Moment) : ℕ × ℕ := delayLevels (s.latestQuality m).ratio

/-- The frame rate that `user_network_delay` stores for a user, if `avg_delay` after the new sample
is `avgDelay`. -/
def fpsAfter (s : VideoQoS) (m : Moment) (d : UserDelay) (avgDelay : ℕ) : Option ℕ := do
  let highestFps ← s.highestFps
  let levels := s.levels m
  clamp (d.adapt d.avgDelay (max avgDelay 10) levels.1 levels.2 s.fps).2 minFps highestFps

/-- The longer delay gives no higher rate, and from 150 ms on none above the current one and the
minimum. -/
def WorseIsSlower (s : VideoQoS) (m : Moment) (d : UserDelay) (a b : ℕ) : Prop :=
  ∃ fast slow, s.fpsAfter m d a = some fast ∧ s.fpsAfter m d b = some slow ∧ slow ≤ fast ∧
    (150 ≤ b → slow ≤ max s.fps (s.levels m).1)

/-- The current rate is so low that dividing it for the first delay gives less than some rate that
the highest rate and the minimum allow for the second one. -/
def Jumps (s : VideoQoS) (m : Moment) (a b : ℕ) : Prop :=
  200 ≤ a ∧ a < 300 ∧ 300 ≤ b ∧ b < 600 ∧
    ∃ highest rate, s.highestFps = some highest ∧ 1 < rate ∧ rate ≤ highest ∧
      rate * b ≤ 150 * (s.levels m).1 ∧ 150 * s.fps ≤ a * (rate - 1)

/-! ## What the call stores -/

section Stored

variable {s t : VideoQoS} {m : Moment}

/-- Clamping is taking the greater and the lesser. -/
theorem clamp_eq {v lo hi : ℕ} (h : lo ≤ hi) : clamp v lo hi = some (max lo (min v hi)) := by
  rw [clamp, if_pos h]
  split_ifs <;> congr 1 <;> omega

/-- There is a highest rate, and it is not zero. -/
theorem exists_highestFps (s : VideoQoS) : ∃ h, s.highestFps = some h ∧ 1 ≤ h := by
  obtain ⟨h, hclamp, hmin, -⟩ := clamp_eq_some
    (v := ((s.users.values.map (·.userFps)).filter (minFps ≤ ·)).min?.getD FPS)
    (show minFps ≤ maxFps by decide)
  exact ⟨h, hclamp, hmin⟩

/-- Adjusting the rate keeps the users. -/
theorem users_adjustFps (h : s.adjustFps m = some t) : t.users = s.users := by
  simp only [adjustFps, Option.bind_eq_bind, Option.bind_eq_some_iff, Option.pure_def,
    Option.some.injEq] at h
  obtain ⟨-, -, fps, -, rfl⟩ := h
  rfl

/-- Adjusting the ratio keeps the users. -/
theorem users_adjustRatio {dynamicScreen : Bool} (h : s.adjustRatio m dynamicScreen = some t) :
    t.users = s.users := by
  unfold adjustRatio at h
  by_cases hvbr : s.inVbrState = false
  · rw [if_pos hvbr] at h
    cases h
    rfl
  rw [if_neg hvbr] at h
  cases hdelays : (s.users.values.map (·.delay.avgDelay)).max? with
  | none =>
    rw [hdelays] at h
    cases h
    rfl
  | some maxDelay =>
    rw [hdelays] at h
    obtain ⟨ratio, -, rfl⟩ := Option.map_eq_some_iff.mp h
    rfl

/-- A new sample changes none of the counters. -/
theorem adapt_addDelay (d : UserDelay) (delay old a minFps normalFps fps : ℕ) :
    ((d.addDelay delay).adapt old a minFps normalFps fps).2 =
      (d.adapt old a minFps normalFps fps).2 := by
  rw [UserDelay.adapt_fps, UserDelay.adapt_fps]
  rfl

/-- `user_network_delay` stores `fpsAfter` of the new average. -/
theorem fps_userNetworkDelay {linux : Bool} {id : ℤ} {delay : ℕ} {user : UserData}
    (hget : s.users.get? id = some user) (h : s.userNetworkDelay linux m id delay = some t) :
    ∃ user', t.users.get? id = some user' ∧ user'.delay.fps =
      s.fpsAfter m user.delay (user.delay.addDelay (max delay 10)).avgDelay := by
  obtain ⟨highest, hhighest, hmin⟩ := s.exists_highestFps
  simp only [userNetworkDelay, hhighest, hget, Option.bind_eq_bind, Option.bind_some,
    Option.bind_eq_some_iff] at h
  obtain ⟨fps, hclamp, u, hadjust, hlast⟩ := h
  have husers : t.users = u.users := by
    split_ifs at hlast
    · exact users_adjustRatio hlast
    · cases hlast
      rfl
  refine ⟨_, by rw [husers, users_adjustFps hadjust, OrderedMap.get?_set, if_pos rfl], ?_⟩
  rw [fpsAfter, hhighest, Option.bind_eq_bind, Option.bind_some, levels]
  dsimp only
  rw [← adapt_addDelay _ (max delay 10)]
  exact hclamp.symm

/-- The levels start at one. -/
theorem levels_pos (s : VideoQoS) (m : Moment) : 1 ≤ (s.levels m).1 := by
  unfold levels delayLevels
  split_ifs <;> decide

/-- The rate that comes with a formula, and the one more where the network is good. -/
theorem fpsAfter_eq {highest : ℕ} (hhighest : s.highestFps = some highest) (hmin : 1 ≤ highest)
    (d : UserDelay) (a : ℕ) :
    s.fpsAfter m d a = some (max 1 (min (d.formula d.avgDelay (max a 10) (s.levels m).1
      (s.levels m).2 s.fps + if max a 10 < 150 ∧ 3 ≤ d.increaseFpsCount + 1 then 1 else 0)
        highest)) := by
  rw [fpsAfter, hhighest, Option.bind_eq_bind, Option.bind_some]
  dsimp only
  rw [UserDelay.adapt_fps]
  exact clamp_eq hmin

/-- From 150 ms on there is no bonus. -/
theorem bonus_eq_zero {c : ℕ} (hc : 150 ≤ c) (n : ℕ) :
    (if c < 150 ∧ 3 ≤ n then 1 else 0) = 0 :=
  if_neg fun h => absurd h.1 (not_lt.mpr hc)

/-- Where the rate jumps, it is higher for the longer delay. -/
theorem Jumps.not_worseIsSlower {d : UserDelay} {a b : ℕ} (h : s.Jumps m a b) :
    ¬ s.WorseIsSlower m d a b := by
  rintro ⟨fast, slow, hfast, hslow, hle, -⟩
  obtain ⟨ha, ha', hb, hb', highest, rate, hhighest, hone, hrate, hminimum, hcurrent⟩ := h
  have hmin : 1 ≤ highest := by omega
  have hmaxa : max a 10 = a := by omega
  have hmaxb : max b 10 = b := by omega
  rw [fpsAfter_eq hhighest hmin, hmaxa, bonus_eq_zero (by omega) _,
    UserDelay.formula_of_200 ha ha'] at hfast
  rw [fpsAfter_eq hhighest hmin, hmaxb, bonus_eq_zero (by omega) _,
    UserDelay.formula_of_300 hb hb'] at hslow
  have hsixth : rate ≤ 150 * (s.levels m).1 / b :=
    (Nat.le_div_iff_mul_le (by omega)).mpr hminimum
  have hfifth : s.fps * 150 ⌈/⌉ a ≤ rate - 1 := by
    rw [ceilDiv_le_iff_le_mul (by omega), Nat.mul_comm]
    exact hcurrent
  cases hfast
  cases hslow
  omega

/-- Without a jump the worse network is not the faster one. -/
theorem worseIsSlower_of_not_jumps (d : UserDelay) {a b : ℕ} (hab : a ≤ b)
    (h : ¬ s.Jumps m a b) : s.WorseIsSlower m d a b := by
  obtain ⟨highest, hhighest, hmin⟩ := s.exists_highestFps
  have hlevel := s.levels_pos m
  refine ⟨_, _, fpsAfter_eq hhighest hmin d a, fpsAfter_eq hhighest hmin d b, ?_, ?_⟩
  · -- The bonus is the same on both sides, or the second delay has none.
    have hbonus : (if max b 10 < 150 ∧ 3 ≤ d.increaseFpsCount + 1 then 1 else 0) ≤
        if max a 10 < 150 ∧ 3 ≤ d.increaseFpsCount + 1 then 1 else 0 := by
      split_ifs <;> omega
    by_cases hfifth : 200 ≤ max a 10 → max a 10 < 300 → 300 ≤ max b 10 → max b 10 < 600 →
        150 * (s.levels m).1 / max b 10 ≤ s.fps * 150 ⌈/⌉ max a 10
    · have hformula :
          d.formula d.avgDelay (max b 10) (s.levels m).1 (s.levels m).2 s.fps ≤
            d.formula d.avgDelay (max a 10) (s.levels m).1 (s.levels m).2 s.fps :=
        UserDelay.formula_anti (by omega) (by omega) hfifth
      omega
    · simp only [Classical.not_imp] at hfifth
      obtain ⟨ha, ha', hb, hb', hlower⟩ := hfifth
      have hmaxa : max a 10 = a := by omega
      have hmaxb : max b 10 = b := by omega
      rw [hmaxa] at ha ha' hlower ⊢
      rw [hmaxb] at hb hb' hlower ⊢
      have hdividend := UserDelay.dividend_le (s.levels m).1 (show 150 ≤ b by omega)
      rw [UserDelay.formula_of_200 ha ha', UserDelay.formula_of_300 hb hb',
        bonus_eq_zero (by omega) _, bonus_eq_zero (by omega) _]
      -- The rate that both limits of the second delay allow is not above what the first one gives.
      have hallowed : min (150 * (s.levels m).1 / b) highest ≤ 1 ∨
          min (150 * (s.levels m).1 / b) highest ≤ s.fps * 150 ⌈/⌉ a := by
        by_contra hnone
        rw [not_or, not_le, not_le] at hnone
        refine h ⟨ha, ha', hb, hb', highest, _, hhighest, hnone.1, min_le_right _ _, ?_, ?_⟩
        · exact (Nat.mul_le_mul_right b (min_le_left _ _)).trans (Nat.div_mul_le_self _ _)
        · have hle := Nat.le_sub_one_of_lt hnone.2
          rw [ceilDiv_le_iff_le_mul (by omega), Nat.mul_comm] at hle
          exact hle
      omega
  · intro hb
    have hmaxb : max b 10 = b := by omega
    have hformula :
        d.formula d.avgDelay b (s.levels m).1 (s.levels m).2 s.fps ≤ max (s.levels m).1 s.fps :=
      UserDelay.formula_le_of_150 hb
    rw [hmaxb, bonus_eq_zero hb]
    omega

end Stored

/-- **A worse network does not raise the rate**, exactly unless it jumps: the call stores a rate
that depends on the average delay, and the longer one of two delays gives no higher rate, and none
above the current one and the minimum. -/
theorem worseIsSlower_iff (s : VideoQoS) (m : Moment) (linux : Bool) (id : ℤ) (user : UserData)
    (hget : s.users.get? id = some user) :
    (∀ delay t, s.userNetworkDelay linux m id delay = some t →
      ∃ user', t.users.get? id = some user' ∧ user'.delay.fps =
        s.fpsAfter m user.delay (user.delay.addDelay (max delay 10)).avgDelay) ∧
      ∀ a b, a ≤ b → (s.WorseIsSlower m user.delay a b ↔ ¬ s.Jumps m a b) :=
  ⟨fun _ _ => fps_userNetworkDelay hget, fun _ _ hab =>
    ⟨fun h hjumps => hjumps.not_worseIsSlower h, worseIsSlower_of_not_jumps _ hab⟩⟩

/-- A viewer on a network that was very bad: the current rate is one frame a second. -/
def slowViewer : VideoQoS :=
  { default 0 with fps := 1, users := OrderedMap.empty.set 1001 {} }

/-- The first moment. -/
def firstMoment : Moment := ⟨0, 0, id, fun _ => .refl _⟩

/-- Twice as long a delay gives no higher rate. -/
theorem worseIsSlower_iff_slowViewer : slowViewer.WorseIsSlower firstMoment {} 300 600 := by
  refine ((worseIsSlower_iff slowViewer firstMoment false 1001 {} rfl).2 300 600 (by decide)).mpr ?_
  rintro ⟨-, hlt, -⟩
  exact absurd hlt (by decide)

/-- With 299 ms the viewer gets one frame, with 300 ms five. -/
theorem not_worseIsSlower_slowViewer :
    ¬ ∀ (s : VideoQoS) m d a b, a ≤ b → s.WorseIsSlower m d a b := by
  intro hall
  have hjumps : slowViewer.Jumps firstMoment 299 300 := by
    have hlevels : slowViewer.levels firstMoment = (10, 20) := by
      have hratio : (slowViewer.latestQuality firstMoment).ratio = brBalanced := rfl
      have hbest : ¬ brBest ≤ brBalanced := by norm_num [brBest, brBalanced]
      rw [levels, hratio, delayLevels, if_neg hbest, if_pos le_rfl]
    refine ⟨by decide, by decide, by decide, by decide, 30, 5, rfl, by decide, by decide, ?_, ?_⟩
    · rw [hlevels]
      decide
    · decide
  exact hjumps.not_worseIsSlower (hall slowViewer firstMoment {} 299 300 (by decide))

end VideoQoS

end RdWeb.Host
