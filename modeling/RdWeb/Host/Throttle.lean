import Mathlib.Algebra.Order.Ring.Int
import Mathlib.Data.List.Count
import RdWeb.Host.Login

/-!
# Counting failed logins

All connections of an address share one entry of each failure table. A connection reads
the entry, checks the password or the code, and then writes back the entry it read with
one failure more. Nothing keeps the entry from changing between the read and the write.
-/

namespace RdWeb.Host

/-- Whether `check_failure` lets an attempt through. -/
def Failure.passes (failure : Failure) (minute : ℤ) : Bool :=
  !(30 < failure.total ∨ (minute = failure.minute ∧ 6 < failure.inMinute))

/-- The entry after one failure more. -/
def Failure.next (failure : Failure) (minute : ℤ) : Failure :=
  if failure.minute = minute then ⟨failure.minute, failure.inMinute + 1, failure.total + 1⟩
  else ⟨minute, 1, failure.total + 1⟩

/-- What `update_failure` leaves of an entry, given what `check_failure` returned. -/
def Failure.update (failure : Failure) (minute : ℤ) (remove : Bool) (entry : Option Failure) :
    Option Failure :=
  if remove then if failure.minute ≠ 0 then none else entry else some (failure.next minute)

namespace Connection

variable {Totp : Type} {s : Connection Totp} {env : Surroundings}

/-- The entry a connection reads, and whether it lets the attempt through. -/
theorem checkFailure_eq (i : Fin 2) :
    (s.checkFailure env i).2 =
      ((s.tables.loginFailures i s.ip).getD ⟨0, 0, 0⟩,
        ((s.tables.loginFailures i s.ip).getD ⟨0, 0, 0⟩).passes env.minute) := by
  unfold checkFailure Failure.passes
  dsimp only
  split_ifs with htotal hminute
  · simp [htotal]
  · simp [hminute]
  · simp [htotal, hminute]

/-- The entry of the address and the table is written, and no other. -/
theorem updateFailure_loginFailures (failure : Failure) (remove : Bool) (i j : Fin 2)
    (ip : String) :
    (s.updateFailure env failure remove i).tables.loginFailures j ip =
      if j = i ∧ ip = s.ip then failure.update env.minute remove (s.tables.loginFailures i s.ip)
      else s.tables.loginFailures j ip := by
  unfold updateFailure Failure.update Failure.next setFailure
  split_ifs <;> simp_all

end Connection

/-- What a connection is doing about a login attempt. -/
inductive Attempt
  | idle
  /-- `check_failure` read this entry in this minute and let the attempt through. -/
  | allowed (i : Fin 2) (failure : Failure) (minute : ℤ)
  /-- The password or the code was checked, and `update_failure` is to come. -/
  | checked (i : Fin 2) (failure : Failure) (minute : ℤ) (valid : Bool)
  deriving DecidableEq

/-- The failure tables, the attempts of the connections, and the history of the checks. -/
structure Throttle (Conn : Type) where
  loginFailures : Fin 2 → String → Option Failure
  attempt : Conn → Attempt
  /-- The minutes of the failed checks since the last successful one. -/
  failed : Fin 2 → String → List ℤ
  /-- Whether a check was made after 31 had failed. -/
  exceeded : Bool

/-- The two steps of an attempt, for each connection. -/
inductive ThrottleEvent (Conn : Type)
  | checkFailure (c : Conn) (i : Fin 2) (minute : ℤ)
  /-- The check at a minute. It is `none` where nothing can be checked. -/
  | check (c : Conn) (now : ℤ) (valid : Option Bool)
  | updateFailure (c : Conn)

namespace Throttle

variable {Conn : Type} [DecidableEq Conn]

/-- The failures of an address. -/
def entry (s : Throttle Conn) (i : Fin 2) (ip : String) : Failure :=
  (s.loginFailures i ip).getD ⟨0, 0, 0⟩

/-- A connection goes on with its attempt. -/
def setAttempt (s : Throttle Conn) (c : Conn) (a : Attempt) : Throttle Conn :=
  { s with attempt := Function.update s.attempt c a }

/-- The history after a check. -/
def record (s : Throttle Conn) (i : Fin 2) (ip : String) (now : ℤ) (valid : Option Bool) :
    Throttle Conn :=
  let failed := match valid with
    | some true => []
    | some false => s.failed i ip ++ [now]
    | none => s.failed i ip
  { s with
    failed := fun j a => if j = i ∧ a = ip then failed else s.failed j a
    exceeded := s.exceeded || (valid.isSome && decide (31 ≤ (s.failed i ip).length)) }

/-- The failures of an address are written. -/
def write (s : Throttle Conn) (i : Fin 2) (ip : String) (entry : Option Failure) :
    Throttle Conn :=
  { s with loginFailures := fun j a => if j = i ∧ a = ip then entry else s.loginFailures j a }

/-- One step of an attempt. -/
def step (ip : Conn → String) (s : Throttle Conn) : ThrottleEvent Conn → Option (Throttle Conn)
  | .checkFailure c i minute =>
    match s.attempt c with
    | .idle =>
      let failure := s.entry i (ip c)
      if failure.passes minute then some (s.setAttempt c (.allowed i failure minute)) else some s
    | _ => none
  | .check c now valid =>
    match s.attempt c with
    | .allowed i failure minute =>
      let after := match valid with
        | some valid => .checked i failure minute valid
        | none => .idle
      some ((s.record i (ip c) now valid).setAttempt c after)
    | _ => none
  | .updateFailure c =>
    match s.attempt c with
    | .checked i failure minute valid =>
      let entry := failure.update minute valid (s.loginFailures i (ip c))
      some ((s.write i (ip c) entry).setAttempt c .idle)
    | _ => none

/-- Before the first attempt. -/
def new : Throttle Conn where
  loginFailures _ _ := none
  attempt _ := .idle
  failed _ _ := []
  exceeded := false

/-- A connection is between the check and the write of an entry. -/
def Writing (ip : Conn → String) (s : Throttle Conn) (c : Conn) (i : Fin 2) (a : String) : Prop :=
  ip c = a ∧ ∃ failure minute valid, s.attempt c = .checked i failure minute valid

/-- Every failure is counted: the stored total is the number of failed checks wherever no write
is outstanding, no check is made after 31 failed, and at most 7 fail in one minute. -/
structure Counted (ip : Conn → String) (s : Throttle Conn) : Prop where
  total : ∀ i a, (∀ c, ¬ s.Writing ip c i a) → (s.entry i a).total = (s.failed i a).length
  limit : s.exceeded = false
  inMinute : ∀ i a minute, (s.failed i a).count minute ≤ 7

/-- A check is made while the entry is still the one that was read and no write of it is
outstanding. A failing one is made in the minute that was read, and this minute does not come
back after another one. A valid one did not read failures of minute 0. -/
structure FreshCheck (ip : Conn → String) (s : Throttle Conn) (c : Conn) (i : Fin 2)
    (failure : Failure) (minute now : ℤ) (valid : Bool) : Prop where
  current : s.entry i (ip c) = failure
  alone : ∀ d, ¬ s.Writing ip d i (ip c)
  sameMinute : valid = false → now = minute
  newMinute : valid = false → now ∈ s.failed i (ip c) → failure.minute = now
  removable : valid = true → failure.minute ≠ 0 ∨ failure.total = 0

/-- Every check that is made is fresh. -/
def Fresh (ip : Conn → String) (s : Throttle Conn) : ThrottleEvent Conn → Prop
  | .check c now (some valid) => ∀ i failure minute, s.attempt c = .allowed i failure minute →
      s.FreshCheck ip c i failure minute now valid
  | _ => True

end Throttle

/-! ## What an entry counts -/

/-- The entry tells how many checks failed, and how many of them in its minute. -/
structure Failure.Tallies (failure : Failure) (failed : List ℤ) : Prop where
  total : failure.total = failed.length
  inMinute : failure.inMinute = failed.count failure.minute
  limit : failed.length ≤ 31
  most : ∀ minute, failed.count minute ≤ 7

namespace Failure

variable {failure : Failure} {failed : List ℤ} {minute : ℤ}

/-- An attempt passes below both limits. -/
theorem passes_iff :
    failure.passes minute = true ↔
      failure.total ≤ 30 ∧ (minute = failure.minute → failure.inMinute ≤ 6) := by
  unfold passes
  simp only [Bool.not_eq_true', decide_eq_false_iff_not, not_or, not_and, not_lt]

/-- No failure tallies with no attempt. -/
theorem tallies_nil (h : failure.total = 0) (hminute : failure.inMinute = 0) :
    failure.Tallies [] where
  total := h
  inMinute := hminute
  limit := by simp
  most := by simp

/-- One failure more, in the minute of the entry or in a new one. -/
theorem Tallies.next (h : failure.Tallies failed) (hpasses : failure.passes minute = true)
    (hnew : minute ∈ failed → failure.minute = minute) :
    (failure.next minute).Tallies (failed ++ [minute]) := by
  obtain ⟨htotal, hin⟩ := passes_iff.mp hpasses
  have hlength : failed.length ≤ 30 := h.total ▸ htotal
  have hcount : failed.count minute ≤ 6 := by
    by_cases hmem : minute ∈ failed
    · have hsame := hnew hmem
      rw [← hsame, ← h.inMinute]
      exact hin hsame.symm
    · rw [List.count_eq_zero_of_not_mem hmem]
      omega
  constructor
  · have := h.total
    unfold Failure.next
    split_ifs <;> simp [this]
  · unfold Failure.next
    split_ifs with hsame
    · simp [List.count_append, h.inMinute, hsame]
    · have hmem : minute ∉ failed := fun hmem => hsame (hnew hmem)
      simp [List.count_append, List.count_eq_zero_of_not_mem hmem]
  · simp only [List.length_append, List.length_singleton]
    omega
  · intro m
    have hmost := h.most m
    rw [List.count_append, List.count_singleton]
    split_ifs with hm
    · have : m = minute := by simpa using (beq_iff_eq.mp hm).symm
      subst this
      omega
    · omega

end Failure

/-! ## Runs of the connections of an address -/

namespace Throttle

variable {Conn : Type} {ip : Conn → String} {s t : Throttle Conn}

/-- An entry counts what failed, or it will once an outstanding write is done. -/
structure Sound (ip : Conn → String) (s : Throttle Conn) : Prop where
  allowed : ∀ c i failure minute, s.attempt c = .allowed i failure minute →
    failure.passes minute = true
  settled : ∀ i a, (∀ c, ¬ s.Writing ip c i a) → (s.entry i a).Tallies (s.failed i a)
  writing : ∀ c i failure minute valid, s.attempt c = .checked i failure minute valid →
    ((failure.update minute valid (s.loginFailures i (ip c))).getD ⟨0, 0, 0⟩).Tallies
      (s.failed i (ip c))
  alone : ∀ c d i a, s.Writing ip c i a → s.Writing ip d i a → c = d
  limit : s.exceeded = false

/-- Sound throttles count. -/
theorem Sound.counted (h : s.Sound ip) : s.Counted ip where
  total i a hsettled := (h.settled i a hsettled).total
  limit := h.limit
  inMinute i a minute := by
    by_cases hwriting : ∃ c, s.Writing ip c i a
    · obtain ⟨c, rfl, failure, minute', valid, hc⟩ := hwriting
      exact (h.writing c i failure minute' valid hc).most minute
    · exact (h.settled i a (not_exists.mp hwriting)).most minute

/-- Before the first attempt the throttle is sound. -/
theorem new_sound : (new : Throttle Conn).Sound ip where
  allowed c i failure minute h := by simp [new] at h
  settled i a _ := Failure.tallies_nil rfl rfl
  writing c i failure minute valid h := by simp [new] at h
  alone c d i a h := by simp [Writing, new] at h
  limit := rfl

/-- A connection that is not about to write is not writing. -/
theorem not_writing_of_attempt {c : Conn} {i : Fin 2} {a : String}
    (h : ∀ failure minute valid, s.attempt c ≠ .checked i failure minute valid) :
    ¬ s.Writing ip c i a := by
  rintro ⟨-, failure, minute, valid, hc⟩
  exact h failure minute valid hc

/-- A check is fresh if it is for the attempt the connection makes. -/
theorem fresh_of_attempt {c : Conn} {i : Fin 2} {failure : Failure} {minute now : ℤ}
    {valid : Bool} (hc : s.attempt c = .allowed i failure minute)
    (h : s.FreshCheck ip c i failure minute now valid) :
    s.Fresh ip (.check c now (some valid)) := by
  intro j f m hattempt
  rw [hc] at hattempt
  cases hattempt
  exact h

/-- What a fresh check leaves to be written counts it. -/
theorem Sound.tallies_check (h : s.Sound ip) {c : Conn} {i : Fin 2} {failure : Failure}
    {minute now : ℤ} {valid : Bool} (hc : s.attempt c = .allowed i failure minute)
    (hfresh : s.FreshCheck ip c i failure minute now valid) :
    ((failure.update minute valid (s.loginFailures i (ip c))).getD ⟨0, 0, 0⟩).Tallies
      (if valid then [] else s.failed i (ip c) ++ [now]) := by
  have htallies := h.settled i (ip c) hfresh.alone
  rw [hfresh.current] at htallies
  unfold Failure.update
  cases valid with
  | true =>
    rw [if_pos rfl, if_pos rfl]
    split_ifs with hminute
    · exact Failure.tallies_nil rfl rfl
    · have htotal := (hfresh.removable rfl).resolve_left hminute
      have hnone : s.failed i (ip c) = [] :=
        List.eq_nil_of_length_eq_zero (htallies.total.symm.trans htotal)
      rw [show (s.loginFailures i (ip c)).getD ⟨0, 0, 0⟩ = failure from hfresh.current, ← hnone]
      exact htallies
  | false =>
    obtain rfl := hfresh.sameMinute rfl
    exact htallies.next (h.allowed c i failure now hc) (hfresh.newMinute rfl)

/-! ### What a step changes -/

/-- Nothing to check, nothing to record. -/
theorem record_none (i : Fin 2) (a : String) (now : ℤ) : s.record i a now none = s := by
  have hfailed : (fun j b => if j = i ∧ b = a then s.failed i a else s.failed j b) = s.failed := by
    funext j b
    split_ifs with h
    · rw [h.1, h.2]
    · rfl
  simp [record, hfailed]

/-- A valid check forgets the failures, and another one adds to them. -/
theorem record_failed (i : Fin 2) (a : String) (now : ℤ) (valid : Bool) :
    (s.record i a now (some valid)).failed i a = if valid then [] else s.failed i a ++ [now] := by
  cases valid <;> simp [record]

/-- Other addresses stay. -/
theorem record_failed_of_ne {i j : Fin 2} {a b : String} (h : ¬ (j = i ∧ b = a)) (now : ℤ)
    (valid : Option Bool) : (s.record i a now valid).failed j b = s.failed j b := by
  simp [record, h]

/-- The failures that were written. -/
theorem write_entry (i : Fin 2) (a : String) (x : Option Failure) :
    (s.write i a x).entry i a = x.getD ⟨0, 0, 0⟩ := by
  simp [write, entry]

/-- Those of other addresses stay. -/
theorem write_loginFailures_of_ne {i j : Fin 2} {a b : String} (h : ¬ (j = i ∧ b = a))
    (x : Option Failure) : (s.write i a x).loginFailures j b = s.loginFailures j b := by
  simp [write, h]

variable [DecidableEq Conn]

/-- The attempt that goes on. -/
theorem setAttempt_self (c : Conn) (x : Attempt) : (s.setAttempt c x).attempt c = x := by
  simp [setAttempt]

/-- The other attempts stay. -/
theorem setAttempt_of_ne {c d : Conn} (h : d ≠ c) (x : Attempt) :
    (s.setAttempt c x).attempt d = s.attempt d := by
  simp [setAttempt, h]

/-- The other attempts write as before. -/
theorem writing_setAttempt_of_ne {c d : Conn} (h : d ≠ c) (x : Attempt) (i : Fin 2) (a : String) :
    (s.setAttempt c x).Writing ip d i a ↔ s.Writing ip d i a := by
  unfold Writing
  rw [setAttempt_of_ne h]

/-- A step that starts or drops an attempt leaves the entries sound. -/
theorem Sound.setAttempt (h : s.Sound ip) {c : Conn} {x : Attempt}
    (hbefore : ∀ i failure minute valid, s.attempt c ≠ .checked i failure minute valid)
    (hafter : ∀ i failure minute valid, x ≠ .checked i failure minute valid)
    (hallowed : ∀ i failure minute, x = .allowed i failure minute →
      failure.passes minute = true) : (s.setAttempt c x).Sound ip := by
  have hsame (d : Conn) (i : Fin 2) (a : String) :
      (s.setAttempt c x).Writing ip d i a ↔ s.Writing ip d i a := by
    by_cases hd : d = c
    · subst hd
      refine iff_of_false (not_writing_of_attempt ?_) (not_writing_of_attempt (hbefore i))
      rw [setAttempt_self]
      exact hafter i
    · exact writing_setAttempt_of_ne hd x i a
  constructor
  · intro d i failure minute hd
    by_cases hdc : d = c
    · subst hdc
      rw [setAttempt_self] at hd
      exact hallowed i failure minute hd
    · rw [setAttempt_of_ne hdc] at hd
      exact h.allowed d i failure minute hd
  · intro i a hsettled
    exact h.settled i a fun d => (hsame d i a).not.mp (hsettled d)
  · intro d i failure minute valid hd
    by_cases hdc : d = c
    · subst hdc
      rw [setAttempt_self] at hd
      exact absurd hd (hafter i failure minute valid)
    · rw [setAttempt_of_ne hdc] at hd
      exact h.writing d i failure minute valid hd
  · intro d e i a hd he
    exact h.alone d e i a ((hsame d i a).mp hd) ((hsame e i a).mp he)
  · exact h.limit

/-- A fresh check is made before the limit, and what it found is to be written. -/
theorem Sound.check (h : s.Sound ip) {c : Conn} {i : Fin 2} {failure : Failure}
    {minute now : ℤ} {valid : Bool} (hc : s.attempt c = .allowed i failure minute)
    (hfresh : s.FreshCheck ip c i failure minute now valid) :
    ((s.record i (ip c) now (some valid)).setAttempt c
      (.checked i failure minute valid)).Sound ip := by
  have htallies := h.tallies_check hc hfresh
  rw [← record_failed i (ip c) now valid] at htallies
  -- Only this connection is about to write this entry.
  have hother {d : Conn} {j : Fin 2} {a : String} (hd : d ≠ c) (hwriting : s.Writing ip d j a) :
      ¬ (j = i ∧ a = ip c) := by
    rintro ⟨rfl, rfl⟩
    exact hfresh.alone d hwriting
  constructor
  · intro d j f m hd
    by_cases hdc : d = c
    · subst hdc
      rw [setAttempt_self] at hd
      cases hd
    · rw [setAttempt_of_ne hdc] at hd
      exact h.allowed d j f m hd
  · intro j a hsettled
    have hentry : ¬ (j = i ∧ a = ip c) := by
      rintro ⟨rfl, rfl⟩
      exact hsettled c ⟨rfl, failure, minute, valid, setAttempt_self c _⟩
    have hsame := record_failed_of_ne (s := s) hentry now (some valid)
    change (s.entry j a).Tallies ((s.record i (ip c) now (some valid)).failed j a)
    rw [hsame]
    refine h.settled j a fun d hwriting => ?_
    by_cases hdc : d = c
    · subst hdc
      obtain ⟨-, f, m, v, hd⟩ := hwriting
      rw [hc] at hd
      cases hd
    · exact hsettled d ((writing_setAttempt_of_ne hdc _ j a).mpr hwriting)
  · intro d j f m v hd
    by_cases hdc : d = c
    · subst hdc
      rw [setAttempt_self] at hd
      cases hd
      exact htallies
    · rw [setAttempt_of_ne hdc] at hd
      have hentry := hother hdc ⟨rfl, f, m, v, hd⟩
      change ((f.update m v (s.loginFailures j (ip d))).getD ⟨0, 0, 0⟩).Tallies
        ((s.record i (ip c) now (some valid)).failed j (ip d))
      rw [record_failed_of_ne hentry]
      exact h.writing d j f m v hd
  · -- Another writer of the entry would be one before the check.
    have hlast {d e : Conn} {j : Fin 2} {a : String} (hdc : d = c) (hec : e ≠ c)
        (hd : ((s.record i (ip c) now (some valid)).setAttempt c
          (.checked i failure minute valid)).Writing ip d j a)
        (he : s.Writing ip e j a) : False := by
      subst hdc
      obtain ⟨rfl, f, m, v, hattempt⟩ := hd
      rw [setAttempt_self] at hattempt
      cases hattempt
      exact hother hec he ⟨rfl, rfl⟩
    intro d e j a hd he
    by_cases hdc : d = c
    · by_cases hec : e = c
      · exact hdc.trans hec.symm
      · exact (hlast hdc hec hd ((writing_setAttempt_of_ne hec _ j a).mp he)).elim
    · have hd' : s.Writing ip d j a := (writing_setAttempt_of_ne hdc _ j a).mp hd
      by_cases hec : e = c
      · exact (hlast hec hdc he hd').elim
      · exact h.alone d e j a hd' ((writing_setAttempt_of_ne hec _ j a).mp he)
  · have hsettled := h.settled i (ip c) hfresh.alone
    rw [hfresh.current] at hsettled
    have hpasses := (Failure.passes_iff.mp (h.allowed c i failure minute hc)).1
    have hlength := hsettled.total
    have hbelow : ¬ 31 ≤ (s.failed i (ip c)).length := by omega
    change (s.exceeded || (true && decide (31 ≤ (s.failed i (ip c)).length))) = false
    simp [h.limit, hbelow]

/-- The write of the only writer settles its entry. -/
theorem Sound.update (h : s.Sound ip) {c : Conn} {i : Fin 2} {failure : Failure} {minute : ℤ}
    {valid : Bool} (hc : s.attempt c = .checked i failure minute valid) :
    ((s.write i (ip c) (failure.update minute valid (s.loginFailures i (ip c)))).setAttempt c
      .idle).Sound ip := by
  have htallies := h.writing c i failure minute valid hc
  have hwrites : s.Writing ip c i (ip c) := ⟨rfl, failure, minute, valid, hc⟩
  have hidle (j : Fin 2) (a : String) :
      ¬ ((s.write i (ip c) (failure.update minute valid (s.loginFailures i (ip c)))).setAttempt c
        .idle).Writing ip c j a :=
    not_writing_of_attempt fun f m v hattempt => by simp [setAttempt_self] at hattempt
  constructor
  · intro d j f m hd
    by_cases hdc : d = c
    · subst hdc
      rw [setAttempt_self] at hd
      cases hd
    · rw [setAttempt_of_ne hdc] at hd
      exact h.allowed d j f m hd
  · intro j a hsettled
    by_cases hentry : j = i ∧ a = ip c
    · obtain ⟨rfl, rfl⟩ := hentry
      rw [← write_entry (s := s)] at htallies
      exact htallies
    · have hsame : (s.write i (ip c) (failure.update minute valid
          (s.loginFailures i (ip c)))).entry j a = s.entry j a := by
        unfold entry
        rw [write_loginFailures_of_ne hentry]
      have hbefore : ∀ d, ¬ s.Writing ip d j a := by
        intro d hwriting
        by_cases hdc : d = c
        · subst hdc
          obtain ⟨rfl, f, m, v, hd⟩ := hwriting
          rw [hc] at hd
          cases hd
          exact hentry ⟨rfl, rfl⟩
        · exact hsettled d ((writing_setAttempt_of_ne hdc _ j a).mpr hwriting)
      have hkept := h.settled j a hbefore
      rw [← hsame] at hkept
      exact hkept
  · intro d j f m v hd
    by_cases hdc : d = c
    · subst hdc
      rw [setAttempt_self] at hd
      cases hd
    · rw [setAttempt_of_ne hdc] at hd
      have hentry : ¬ (j = i ∧ ip d = ip c) := by
        rintro ⟨rfl, hip⟩
        exact hdc (h.alone d c j (ip c) ⟨hip, f, m, v, hd⟩ hwrites)
      have hkept := h.writing d j f m v hd
      rw [← write_loginFailures_of_ne (s := s) hentry] at hkept
      exact hkept
  · intro d e j a hd he
    by_cases hdc : d = c
    · subst hdc
      exact (hidle j a hd).elim
    · by_cases hec : e = c
      · subst hec
        exact (hidle j a he).elim
      · exact h.alone d e j a ((writing_setAttempt_of_ne hdc _ j a).mp hd)
          ((writing_setAttempt_of_ne hec _ j a).mp he)
  · exact h.limit

/-- **One step.** A fresh check keeps the entries sound, and so does every other step. -/
theorem Sound.step {e : ThrottleEvent Conn} (h : s.Sound ip) (hfresh : s.Fresh ip e)
    (hstep : s.step ip e = some t) : t.Sound ip := by
  cases e with
  | checkFailure c i minute =>
    simp only [Throttle.step] at hstep
    cases hc : s.attempt c with
    | idle =>
      rw [hc] at hstep
      dsimp only at hstep
      split_ifs at hstep with hpasses
      · obtain rfl := Option.some.inj hstep
        refine h.setAttempt (by simp [hc]) (by simp) fun j f m hx => ?_
        cases hx
        exact hpasses
      · obtain rfl := Option.some.inj hstep
        exact h
    | _ => simp [hc] at hstep
  | check c now valid =>
    simp only [Throttle.step] at hstep
    cases hc : s.attempt c with
    | allowed i failure minute =>
      rw [hc] at hstep
      obtain rfl := Option.some.inj hstep
      cases valid with
      | none =>
        rw [record_none]
        exact h.setAttempt (by simp [hc]) (by simp) (by simp)
      | some valid => exact h.check hc (hfresh i failure minute hc)
    | _ => simp [hc] at hstep
  | updateFailure c =>
    simp only [Throttle.step] at hstep
    cases hc : s.attempt c with
    | checked i failure minute valid =>
      rw [hc] at hstep
      obtain rfl := Option.some.inj hstep
      exact h.update hc
    | _ => simp [hc] at hstep

end Throttle

/-- Connections from addresses, with empty failure tables. -/
def throttleMachine {Conn : Type} [DecidableEq Conn] (ip : Conn → String) :
    Machine (Throttle Conn) (ThrottleEvent Conn) where
  init := .new
  step := Throttle.step ip

namespace Throttle

/-- **Login throttling.** In every run whose checks are fresh, every failure is counted. -/
theorem counted_of_fresh {Conn : Type} [DecidableEq Conn] (ip : Conn → String)
    (s : Throttle Conn) (events : List (ThrottleEvent Conn))
    (hrun : (throttleMachine ip).RunWhere (Fresh ip) (throttleMachine ip).init events s) :
    s.Counted ip :=
  (hrun.invariant (fun _ _ _ hfresh hstep h => h.step hfresh hstep) new_sound).counted

/-! ## Two connections from one address -/

/-- The address of both connections. -/
def demoIp (_ : Bool) : String := "10.0.0.1"

/-- Attempts that do not overlap are counted. -/
theorem counted_two_attempts :
    ∃ s, (throttleMachine demoIp).Run (throttleMachine demoIp).init
        [.checkFailure false 0 5, .check false 5 (some false), .updateFailure false,
          .checkFailure true 0 5, .check true 5 (some false), .updateFailure true] s ∧
      (s.entry 0 "10.0.0.1").total = 2 ∧ s.Counted demoIp := by
  have hwhere : ∃ s, (throttleMachine demoIp).RunWhere (Fresh demoIp) (throttleMachine demoIp).init
      [.checkFailure false 0 5, .check false 5 (some false), .updateFailure false,
        .checkFailure true 0 5, .check true 5 (some false), .updateFailure true] s ∧
      (s.entry 0 "10.0.0.1").total = 2 := by
    refine ⟨_, .cons trivial rfl (.cons (fresh_of_attempt rfl ?_) rfl (.cons trivial rfl
      (.cons trivial rfl (.cons (fresh_of_attempt rfl ?_) rfl (.single trivial rfl))))), rfl⟩
    · refine ⟨rfl, fun d => not_writing_of_attempt fun f m v hd => ?_, fun _ => rfl,
        fun _ h => ?_, fun h => ?_⟩
      · cases d <;> cases hd
      · cases h
      · cases h
    · refine ⟨rfl, fun d => not_writing_of_attempt fun f m v hd => ?_, fun _ => rfl,
        fun _ _ => rfl, fun h => ?_⟩
      · cases d <;> cases hd
      · cases h
  obtain ⟨s, hwhere, htotal⟩ := hwhere
  exact ⟨s, hwhere.run, htotal, counted_of_fresh demoIp s _ hwhere⟩

/-- Two attempts that overlap are counted as one. -/
theorem not_counted_overlapping :
    ∃ s, (throttleMachine demoIp).Run (throttleMachine demoIp).init
        [.checkFailure false 0 5, .checkFailure true 0 5, .check false 5 (some false),
          .check true 5 (some false), .updateFailure false, .updateFailure true] s ∧
      (s.entry 0 "10.0.0.1").total = 1 ∧ s.failed 0 "10.0.0.1" = [5, 5] ∧
      ¬ s.Counted demoIp := by
  have hrun : ∃ s, (throttleMachine demoIp).Run (throttleMachine demoIp).init
      [.checkFailure false 0 5, .checkFailure true 0 5, .check false 5 (some false),
        .check true 5 (some false), .updateFailure false, .updateFailure true] s ∧
      (s.entry 0 "10.0.0.1").total = 1 ∧ s.failed 0 "10.0.0.1" = [5, 5] ∧
      ∀ c, s.attempt c = .idle :=
    ⟨_, Machine.run_of_replay rfl, rfl, rfl, fun c => by cases c <;> rfl⟩
  obtain ⟨s, hrun, htotal, hfailed, hidle⟩ := hrun
  refine ⟨s, hrun, htotal, hfailed, fun h => ?_⟩
  have hcounted := h.total 0 "10.0.0.1" fun c =>
    not_writing_of_attempt fun f m v hc => by simp [hidle c] at hc
  rw [htotal, hfailed] at hcounted
  cases hcounted

end Throttle

end RdWeb.Host
