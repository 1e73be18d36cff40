import RdWeb.Host.VideoQos

/-!
# The delay estimate of a user

`avg_delay` subtracts the round trip time from the mean of the last delays. A mean that is not
above the round trip time is returned as it is, so the estimate jumps up where it should be zero,
and falls again as the mean rises. The sum is taken in `u32` and may wrap.
-/

namespace RdWeb.Host

namespace VideoQoS

/-- The mean of a history, rounded down. -/
def meanDelay (history : List ℕ) : ℕ := history.sum / history.length

/-- The mean as it is computed, from a sum that may wrap. -/
def wrappedMean (history : List ℕ) : ℕ := history.sum % 2 ^ 32 / history.length

/-- `avg_delay` with another history. -/
def avgDelayOf (d : UserDelay) (history : List ℕ) : ℕ :=
  { d with delayHistory := history }.avgDelay

/-- The estimate does not fall from the first history to the second as the mean rises, and with a
round trip time both are the mean above it. -/
def Estimates (d : UserDelay) (first second : List ℕ) : Prop :=
  (meanDelay first ≤ meanDelay second → avgDelayOf d first ≤ avgDelayOf d second) ∧
    ∀ rtt, d.rttCalculator.getRtt = some rtt → ∀ history ∈ [first, second], history ≠ [] →
      avgDelayOf d history = meanDelay history - rtt

/-- The mean is above the round trip time or zero; or a wrapped sum hits the right value. -/
def AboveRtt (rtt : ℕ) (history : List ℕ) : Prop :=
  wrappedMean history = meanDelay history ∧ (rtt < meanDelay history ∨ meanDelay history = 0) ∨
    wrappedMean history ≤ rtt ∧ meanDelay history = wrappedMean history + rtt ∨
    wrappedMean history = 0 ∧ meanDelay history ≤ rtt

/-- With a round trip time, the means of the histories are above it or zero; without one, wrapping
keeps them in order. -/
def Settled (d : UserDelay) (first second : List ℕ) : Prop :=
  (∀ rtt, d.rttCalculator.getRtt = some rtt → ∀ history ∈ [first, second], history ≠ [] →
    AboveRtt rtt history) ∧
    (d.rttCalculator.getRtt = none → meanDelay first ≤ meanDelay second →
      wrappedMean first ≤ wrappedMean second)

/-- A sum in the range of `u32` does not wrap. -/
theorem wrappedMean_of_lt {history : List ℕ} (hsum : history.sum < 2 ^ 32) :
    wrappedMean history = meanDelay history := by
  rw [wrappedMean, meanDelay, Nat.mod_eq_of_lt hsum]

/-- Where nothing wraps, the condition is about the mean alone. -/
theorem aboveRtt_iff {rtt : ℕ} {history : List ℕ} (hsum : history.sum < 2 ^ 32) :
    AboveRtt rtt history ↔ rtt < meanDelay history ∨ meanDelay history = 0 := by
  rw [AboveRtt, wrappedMean_of_lt hsum]
  omega

/-- With a round trip time the estimate is the mean less that time, where it is above it. -/
theorem avgDelayOf_of_rtt {d : UserDelay} {history : List ℕ} (hne : history ≠ []) {rtt : ℕ}
    (hrtt : d.rttCalculator.getRtt = some rtt) :
    avgDelayOf d history =
      if wrappedMean history > rtt then wrappedMean history - rtt else wrappedMean history := by
  have hlength : 0 < history.length := List.length_pos_iff.mpr hne
  unfold avgDelayOf UserDelay.avgDelay
  rw [if_pos hlength]
  dsimp only
  rw [hrtt]
  rfl

/-- Without one it is the mean. -/
theorem avgDelayOf_of_none {d : UserDelay} {history : List ℕ} (hne : history ≠ [])
    (hrtt : d.rttCalculator.getRtt = none) : avgDelayOf d history = wrappedMean history := by
  have hlength : 0 < history.length := List.length_pos_iff.mpr hne
  simp only [avgDelayOf, UserDelay.avgDelay, if_pos hlength, hrtt, wrappedMean]

/-- The estimate is the mean above the round trip time under exactly this condition. -/
theorem avgDelayOf_eq_iff {d : UserDelay} {history : List ℕ} (hne : history ≠ []) {rtt : ℕ}
    (hrtt : d.rttCalculator.getRtt = some rtt) :
    avgDelayOf d history = meanDelay history - rtt ↔ AboveRtt rtt history := by
  rw [avgDelayOf_of_rtt hne hrtt, AboveRtt]
  split_ifs with habove
  · omega
  · omega

/-- **The delay estimate** rises with the mean, and is the mean above the round trip time, exactly
if the means are above the round trip time or zero. -/
theorem estimates_iff_settled (d : UserDelay) {first second : List ℕ}
    (hlength : first.length = second.length) :
    Estimates d first second ↔ Settled d first second := by
  by_cases hnil : first = []
  · -- Two empty histories have the same estimate, and no mean.
    subst hnil
    obtain rfl : second = [] := List.length_eq_zero_iff.mp hlength.symm
    simp [Estimates, Settled]
  have hnil' : second ≠ [] := by
    rintro rfl
    exact hnil (List.length_eq_zero_iff.mp hlength)
  cases hrtt : d.rttCalculator.getRtt with
  | none =>
    simp [Estimates, Settled, hrtt, avgDelayOf_of_none hnil hrtt, avgDelayOf_of_none hnil' hrtt]
  | some rtt =>
    have hfirst := avgDelayOf_eq_iff hnil hrtt
    have hsecond := avgDelayOf_eq_iff hnil' hrtt
    have hsettled : Settled d first second ↔ AboveRtt rtt first ∧ AboveRtt rtt second := by
      simp [Settled, hrtt, hnil, hnil']
    rw [hsettled, ← hfirst, ← hsecond]
    constructor
    · rintro ⟨-, hformula⟩
      exact ⟨hformula rtt hrtt first (by simp) hnil, hformula rtt hrtt second (by simp) hnil'⟩
    · rintro ⟨heq, heq'⟩
      refine ⟨fun hmean => by omega, fun rtt' hrtt' history hmem _ => ?_⟩
      obtain rfl : rtt = rtt' := Option.some.inj (hrtt.symm.trans hrtt')
      rcases List.mem_pair.mp hmem with rfl | rfl
      · exact heq
      · exact heq'

/-- A user with ten delays of 100 ms. -/
def steadyUser : UserDelay := (List.replicate 10 100).foldl UserDelay.addDelay {}

/-- The estimate of the steady link is 100 ms, and falls to 1 ms as the mean rises. -/
theorem not_estimates_steady :
    ¬ Estimates steadyUser steadyUser.delayHistory [101, 101, 101] := by
  intro h
  have hmean : avgDelayOf steadyUser steadyUser.delayHistory ≤
      avgDelayOf steadyUser [101, 101, 101] := h.1 (by decide)
  exact absurd hmean (by decide)

/-- An estimate of a mean that lies above the round trip time. -/
theorem estimates_iff_settled_above :
    Estimates steadyUser [150, 150, 150] [180, 170, 190] := by
  have hlength : [150, 150, 150].length = [180, 170, 190].length := rfl
  refine (estimates_iff_settled steadyUser hlength).mpr ⟨?_, fun hrtt => by cases hrtt⟩
  intro rtt hrtt history hmem _
  obtain rfl : 100 = rtt := Option.some.inj hrtt
  rcases List.mem_pair.mp hmem with rfl | rfl
  · exact Or.inl (by decide)
  · exact Or.inl (by decide)

end VideoQoS

end RdWeb.Host
