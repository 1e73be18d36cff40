import RdWeb.Host.PrivacyHolder

/-!
# A turn-on that was reported as failed

`turn_on_privacy_async` gives up waiting after some seconds, while its thread goes on. So a
connection whose request was reported as failed, or which has closed, may become the holder of
privacy mode by a thread that it does not know any more.
-/

namespace RdWeb.Host

namespace PrivacyPlatform

variable {platform : PrivacyPlatform}

/-- The implementation that a request turns on. -/
def asked (platform : PrivacyPlatform) (pm : Option PrivacyModeImpl) (implKey : String) :
    Option PrivacyKind :=
  match pm with
  | some cur => if cur.implKey = implKey then some cur.kind else platform.creator implKey
  | none => if implKey = "" then none else platform.creator implKey

/-- A fresh implementation is turned on for the caller only. -/
theorem connId_turnOnPrivacy (cur : PrivacyModeImpl)
    (hfresh : cur.connId = INVALID_PRIVACY_MODE_CONN_ID) (c : ℤ) (os : PrivacyOs) :
    (cur.turnOnPrivacy c os).1.connId = c ∨
      (cur.turnOnPrivacy c os).1.connId = INVALID_PRIVACY_MODE_CONN_ID := by
  have hoff (off : Except String Unit) :
      (cur.turnOffPrivacy INVALID_PRIVACY_MODE_CONN_ID off).1.connId =
        INVALID_PRIVACY_MODE_CONN_ID := by
    unfold PrivacyModeImpl.turnOffPrivacy
    split
    · exact hfresh
    · split
      · exact hfresh
      · rfl
  rw [PrivacyModeImpl.turnOnPrivacy]
  split
  · rw [PrivacyModeImpl.turnOnTopmost]
    split
    · exact .inr hfresh
    · exact .inr hfresh
    · split_ifs
      · exact .inr hfresh
      · split
        · exact .inr hfresh
        · exact .inl rfl
  · rw [PrivacyModeImpl.turnOnVirtual]
    split_ifs
    · exact .inr hfresh
    · split
      · exact .inr hfresh
      · exact .inr hfresh
      · split
        · exact .inr (hoff _)
        · exact .inl rfl

/-- A new implementation is held by the connection that turned it on, if the system let it. -/
theorem heldBy_of_turnOnPrivacy_new {implKey : String} {kind : PrivacyKind} {c d : ℤ}
    {os : PrivacyOs}
    (h : HeldBy (some ((PrivacyModeImpl.new implKey kind).turnOnPrivacy c os).1) d) :
    d = c ∧ os.Grants kind := by
  obtain ⟨hconn, hvalid⟩ := heldBy_some.mp h
  have hsame : d = c := by
    rcases connId_turnOnPrivacy (.new implKey kind) rfl c os with hid | hid
    · exact hconn.symm.trans hid
    · exact absurd (hconn.symm.trans hid) hvalid
  subst hsame
  exact ⟨rfl, (heldBy_turnOnPrivacy_new implKey kind hvalid os).mp h⟩

/-- Who holds the mode after a request held it before, or asked for it while nobody held it and
got it from the system. -/
theorem heldBy_of_turnOnPrivacySync {pm : Option PrivacyModeImpl} {implKey : String} {c d : ℤ}
    {os : PrivacyOs} (h : HeldBy (platform.turnOnPrivacySync pm implKey c os).1 d) :
    HeldBy pm d ∨ d = c ∧ (∀ b, ¬ HeldBy pm b) ∧
      ∃ kind, platform.asked pm (platform.getSupportedImpl os implKey) = some kind ∧
        os.Grants kind := by
  unfold turnOnPrivacySync at h
  dsimp only at h
  generalize platform.getSupportedImpl os implKey = key at h ⊢
  cases pm with
  | none =>
    have hnobody (b : ℤ) : ¬ HeldBy none b := by simp [HeldBy]
    simp only [turnOnImpl, Option.map_none, Option.getD_none] at h
    split_ifs at h with hkey
    · split at h
      · rename_i kind hcreator
        obtain ⟨rfl, hgrants⟩ := heldBy_of_turnOnPrivacy_new h
        refine .inr ⟨rfl, hnobody, kind, ?_, hgrants⟩
        rw [asked, if_neg fun heq => hkey heq.symm, hcreator]
      · exact absurd h (hnobody d)
    · exact absurd h (hnobody d)
  | some cur =>
    dsimp only at h
    cases hcheck : cur.checkOnConnId c with
    | error e =>
      rw [hcheck] at h
      exact .inl h
    | ok same =>
      rw [hcheck] at h
      dsimp only at h
      -- the mode is free, or the caller is the holder
      have hfree : cur.connId = c ∨ cur.connId = INVALID_PRIVACY_MODE_CONN_ID ∧ same = false := by
        rw [PrivacyModeImpl.checkOnConnId] at hcheck
        split_ifs at hcheck with hsame hother
        · exact .inl hsame
        · exact .inr ⟨not_not.mp hother, (Except.ok.inj hcheck).symm⟩
      split_ifs at h with hkept
      · exact .inl h
      · simp only [turnOnImpl, Option.map_some, Option.getD_some] at h
        split_ifs at h with hkey
        · split at h
          · rename_i kind hcreator
            obtain ⟨rfl, hgrants⟩ := heldBy_of_turnOnPrivacy_new h
            have hvalid : d ≠ INVALID_PRIVACY_MODE_CONN_ID := (heldBy_some.mp h).2
            rcases hfree with hsame | ⟨hinvalid, -⟩
            · exact .inl (heldBy_some.mpr ⟨hsame, hvalid⟩)
            · refine .inr ⟨rfl, fun b hb => ?_, kind, ?_, hgrants⟩
              · obtain ⟨hb, hvalid⟩ := heldBy_some.mp hb
                exact hvalid (hb.symm.trans hinvalid)
              · rw [asked, if_neg hkey, hcreator]
          · exact .inl h
        · rw [not_not] at hkey
          have hinvalid : cur.connId = INVALID_PRIVACY_MODE_CONN_ID := by
            rcases hfree with hsame | ⟨hinvalid, -⟩
            · refine absurd ?_ hkept
              rw [PrivacyModeImpl.checkOnConnId, if_pos hsame] at hcheck
              exact ⟨(Except.ok.inj hcheck).symm, hkey⟩
            · exact hinvalid
          have hnew : cur = .new cur.implKey cur.kind := by
            rw [PrivacyModeImpl.new, ← hinvalid]
          rw [hnew] at h
          obtain ⟨rfl, hgrants⟩ := heldBy_of_turnOnPrivacy_new h
          refine .inr ⟨rfl, fun b hb => ?_, cur.kind, ?_, hgrants⟩
          · obtain ⟨hb, hvalid⟩ := heldBy_some.mp hb
            exact hvalid (hb.symm.trans hinvalid)
          · rw [asked, if_pos hkey]

end PrivacyPlatform

namespace PrivacyHost

variable {platform : PrivacyPlatform} {s t : PrivacyHost} {e : PrivacyEvent}

/-- The last request of a connection was reported as failed because it took too long. -/
def TimedOut (c : ℤ) (events : List PrivacyEvent) : Prop :=
  ∃ first rest, events = first ++ .timeout c :: rest ∧ ∀ implKey, .request c implKey ∉ rest

/-- A connection whose request was reported as failed, or which has closed, does not hold the
mode. -/
def NeverLate (events : List PrivacyEvent) (s : PrivacyHost) : Prop :=
  ∀ c, TimedOut c events ∨ s.phase c = .closed → ¬ HeldBy s.pm c

/-- A connection that gives up waiting does not hold the mode already, a thread that nobody waits
for any more does not get it, and a connection that closes can give it up. -/
def Punctual (platform : PrivacyPlatform) (s : PrivacyHost) : PrivacyEvent → Prop
  | .timeout c => ¬ HeldBy s.pm c
  | .threadRuns thread os => ∀ c implKey, s.threads thread = some (c, implKey) →
      s.phase c ≠ .waiting thread → (∃ b, HeldBy s.pm b) ∨
        ∀ kind, platform.asked s.pm (platform.getSupportedImpl os implKey) = some kind →
          ¬ os.Grants kind
  | .turnOffClosing _ off => off = .ok ()
  | _ => True

/-- A connection is in the middle of a request. -/
def Asking (s : PrivacyHost) (c : ℤ) : Prop :=
  (∃ implKey, s.phase c = .calling implKey) ∨ ∃ thread, s.phase c = .waiting thread

/-- A request has timed out after one event more. -/
theorem timedOut_snoc {c : ℤ} {events : List PrivacyEvent}
    (h : TimedOut c (events ++ [e])) :
    e = .timeout c ∨ TimedOut c events ∧ ∀ implKey, e ≠ .request c implKey := by
  obtain ⟨first, rest, hevents, hrest⟩ := h
  rcases rest.eq_nil_or_concat with rfl | ⟨rest, last, rfl⟩
  · exact .inl (List.append_inj' hevents rfl |>.2 |> List.singleton_inj.mp)
  · rw [List.concat_eq_append] at hevents hrest
    rw [← List.cons_append, ← List.append_assoc] at hevents
    obtain ⟨hfirst, hlast⟩ := List.append_inj' hevents rfl
    obtain rfl := List.singleton_inj.mp hlast
    refine .inr ⟨⟨first, rest, hfirst, fun implKey hmem => ?_⟩, fun implKey heq => ?_⟩
    · exact hrest implKey (List.mem_append_left _ hmem)
    · exact hrest implKey (List.mem_append_right _ (heq ▸ List.mem_singleton_self _))

/-- A connection gets into a request, or closes, in its own steps only. -/
inductive PhaseMoves (s : PrivacyHost) (e : PrivacyEvent) (t : PrivacyHost) (c : ℤ) : Prop
  | stays (h : t.phase c = s.phase c)
  | asks (implKey : String) (h : e = .request c implKey) (hopen : t.phase c ≠ .closed)
  | settles (hasking : ¬ t.Asking c) (hopen : t.phase c ≠ .closed)
  | leaves (he : e = .leave c) (hfree : s.connId? ≠ some c) (hclosed : t.phase c = .closed)
  | closes (off : Except String Unit) (he : e = .turnOffClosing c off)
      (hpm : t.pm = s.pm.map fun pm => (pm.turnOffPrivacy c off).1) (hclosed : t.phase c = .closed)

/-- A phase that changes moves no privacy mode. -/
theorem phaseMoves_setPhase {c d : ℤ} {phase : PrivacyPhase} {u : PrivacyHost}
    (hu : u.phase = s.phase) (hasking : ∀ implKey, phase ≠ .calling implKey)
    (hwaiting : ∀ thread, phase ≠ .waiting thread) (hopen : phase ≠ .closed) :
    PhaseMoves s e (u.setPhase d phase) c := by
  by_cases hc : c = d
  · subst hc
    have hphase : (u.setPhase c phase).phase c = phase := Function.update_self _ _ _
    refine .settles ?_ (by rwa [hphase])
    rintro (⟨implKey, h⟩ | ⟨thread, h⟩)
    · exact hasking implKey (hphase.symm.trans h)
    · exact hwaiting thread (hphase.symm.trans h)
  · exact .stays ((Function.update_of_ne hc _ _).trans (congrFun hu c))

/-- Turning off takes the mode from nobody but the holder, and gives it to nobody. -/
theorem heldBy_of_turnOffPrivacy {d id : ℤ} {off : Except String Unit}
    (h : HeldBy (s.turnOffPrivacy id off).pm d) : HeldBy s.pm d := by
  rw [turnOffPrivacy, heldBy_turnOffPrivacy] at h
  exact h.1

/-- The events of a connection, one by one. -/
theorem heldBy_of_connStep {d : ℤ} (hstep : s.connStep platform e = some t)
    (h : HeldBy t.pm d) :
    HeldBy s.pm d ∨ ∃ os implKey, e = .turnOnSync d os ∧ s.phase d = .calling implKey := by
  cases e with
  | turnOnSync c os =>
    simp only [connStep] at hstep
    split at hstep
    case h_1 implKey hphase =>
      obtain rfl := Option.some.inj hstep
      rcases PrivacyPlatform.heldBy_of_turnOnPrivacySync h with hheld | ⟨rfl, -⟩
      · exact .inl hheld
      · exact .inr ⟨os, implKey, rfl, hphase⟩
    case h_2 => cases hstep
  | turnOffFailed c off =>
    left
    simp only [connStep] at hstep
    split at hstep <;> simp only [Option.some.injEq, reduceCtorEq] at hstep
    · subst hstep
      exact heldBy_of_turnOffPrivacy (s := s) h
    · subst hstep
      exact heldBy_of_turnOffPrivacy (s := s) h
  | turnOff c off =>
    left
    simp only [connStep] at hstep
    split_ifs at hstep <;> obtain rfl := Option.some.inj hstep
    · exact h
    · exact heldBy_of_turnOffPrivacy h
  | turnOffClosing c off =>
    left
    simp only [connStep] at hstep
    split_ifs at hstep
    obtain rfl := Option.some.inj hstep
    exact heldBy_of_turnOffPrivacy (s := s) h
  | threadRuns => cases hstep
  | _ => exact .inl (pm_connStep hstep id ▸ h)

/-- Nobody holds the mode by a step but who held it, or who asked for it. -/
theorem heldBy_of_step {d : ℤ} (hstep : step platform s e = some t) (h : HeldBy t.pm d) :
    HeldBy s.pm d ∨
      (∃ os implKey, e = .turnOnSync d os ∧ s.phase d = .calling implKey) ∨
      ∃ thread os implKey, e = .threadRuns thread os ∧ s.threads thread = some (d, implKey) ∧
        (∀ b, ¬ HeldBy s.pm b) ∧
        ∃ kind, platform.asked s.pm (platform.getSupportedImpl os implKey) = some kind ∧
          os.Grants kind := by
  rw [step.eq_def] at hstep
  split at hstep
  case h_1 thread os =>
    rw [runThread] at hstep
    split at hstep
    case h_1 c implKey hthread =>
      have hpm : t.pm = (platform.turnOnPrivacySync s.pm implKey c os).1 := by
        obtain rfl := Option.some.inj hstep
        dsimp only
        split_ifs <;> rfl
      rw [hpm] at h
      rcases PrivacyPlatform.heldBy_of_turnOnPrivacySync h with hheld | ⟨rfl, hfree, hkind⟩
      · exact .inl hheld
      · exact .inr (.inr ⟨thread, os, implKey, rfl, hthread, hfree, hkind⟩)
    case h_2 => cases hstep
  case h_2 off =>
    obtain rfl := Option.some.inj hstep
    exact .inl (heldBy_of_turnOffPrivacy h)
  case h_3 implKey =>
    obtain rfl := Option.some.inj hstep
    left
    dsimp only at h
    rw [PrivacyPlatform.switch] at h
    split_ifs at h
    · exact h
    · split at h
      · obtain ⟨hid, hvalid⟩ := heldBy_some.mp h
        exact absurd hid.symm hvalid
      · exact h
  all_goals
    split_ifs at hstep
    exact (heldBy_of_connStep hstep h).imp_right .inl

/-- The phases after the event of a connection. -/
theorem phaseMoves_of_connStep (hstep : s.connStep platform e = some t) (c : ℤ) :
    PhaseMoves s e t c := by
  have hset {d : ℤ} {phase : PrivacyPhase} {u : PrivacyHost} (hu : u.phase = s.phase)
      (hasking : ∀ implKey, phase ≠ .calling implKey) (hwaiting : ∀ thread, phase ≠ .waiting thread)
      (hopen : phase ≠ .closed) : PhaseMoves s e (u.setPhase d phase) c :=
    phaseMoves_setPhase hu hasking hwaiting hopen
  cases e with
  | request d implKey =>
    simp only [connStep] at hstep
    split_ifs at hstep <;> obtain rfl := Option.some.inj hstep
    · exact .stays rfl
    · by_cases hc : c = d
      · subst hc
        refine .asks implKey rfl ?_
        rw [call]
        split_ifs
        · dsimp only [setPhase]
          rw [Function.update_self]
          exact PrivacyPhase.noConfusion
        · dsimp only [setPhase]
          rw [Function.update_self]
          exact PrivacyPhase.noConfusion
      · refine .stays ?_
        rw [call]
        split_ifs
        · exact Function.update_of_ne hc _ _
        · exact Function.update_of_ne hc _ _
  | leave d =>
    simp only [connStep] at hstep
    split_ifs at hstep with hidle hheld
    · obtain rfl := Option.some.inj hstep
      exact hset rfl (by simp) (by simp) (by simp)
    · obtain rfl := Option.some.inj hstep
      by_cases hc : c = d
      · subst hc
        exact .leaves rfl hheld (Function.update_self _ _ _)
      · exact .stays (Function.update_of_ne hc _ _)
  | turnOffClosing d off =>
    simp only [connStep] at hstep
    split_ifs at hstep
    obtain rfl := Option.some.inj hstep
    by_cases hc : c = d
    · subst hc
      exact .closes off rfl rfl (Function.update_self _ _ _)
    · exact .stays (Function.update_of_ne hc _ _)
  | turnOff d off =>
    simp only [connStep] at hstep
    split_ifs at hstep <;> obtain rfl := Option.some.inj hstep <;> exact .stays rfl
  | checkErr d noError =>
    simp only [connStep] at hstep
    split_ifs at hstep <;> obtain rfl := Option.some.inj hstep <;>
      exact hset rfl (by simp) (by simp) (by simp)
  | finish d =>
    simp only [connStep] at hstep
    split_ifs at hstep
    obtain rfl := Option.some.inj hstep
    exact hset rfl (by simp) (by simp) (by simp)
  | checkInPrivacyMode d =>
    simp only [connStep] at hstep
    split at hstep <;> simp only [Option.some.injEq, reduceCtorEq] at hstep
    subst hstep
    split_ifs <;> exact hset rfl (by simp) (by simp) (by simp)
  | turnOnSync d os | turnOffFailed d off | timeout d =>
    simp only [connStep] at hstep
    split at hstep <;> simp only [Option.some.injEq, reduceCtorEq] at hstep <;> subst hstep <;>
      exact hset rfl (by simp) (by simp) (by simp)
  | threadRuns | localOff | switch => cases hstep

/-- The phases after a step. -/
theorem phaseMoves_of_step (hstep : step platform s e = some t) (c : ℤ) : PhaseMoves s e t c := by
  rw [step.eq_def] at hstep
  split at hstep
  case h_1 thread os =>
    rw [runThread] at hstep
    split at hstep
    case h_1 d implKey hthread =>
      obtain rfl := Option.some.inj hstep
      dsimp only
      split_ifs
      · exact phaseMoves_setPhase rfl (by simp) (by simp) (by simp)
      · exact .stays rfl
    case h_2 => cases hstep
  case h_2 off =>
    obtain rfl := Option.some.inj hstep
    exact .stays rfl
  case h_3 implKey =>
    obtain rfl := Option.some.inj hstep
    exact .stays rfl
  all_goals
    split_ifs at hstep
    exact phaseMoves_of_connStep hstep c

/-- A connection whose request was reported as failed is not in the middle of it. -/
theorem not_asking_of_timeout {c : ℤ} (hstep : step platform s (.timeout c) = some t) :
    ¬ t.Asking c := by
  simp only [step, connStep] at hstep
  split_ifs at hstep
  split at hstep <;> simp only [Option.some.injEq, reduceCtorEq] at hstep
  subst hstep
  have hphase : (s.setPhase c (.returned (some (.error .deadline)))).phase c =
      .returned (some (.error .deadline)) := Function.update_self _ _ _
  rintro (⟨implKey, h⟩ | ⟨thread, h⟩)
  · cases hphase.symm.trans h
  · cases hphase.symm.trans h

/-- The holder is the connection. -/
theorem connId?_of_heldBy {c : ℤ} (h : HeldBy s.pm c) : s.connId? = some c := by
  obtain ⟨cur, hpm, hconn, -⟩ := h
  rw [connId?, hpm, Option.map_some, hconn]

/-- What holds all along a run whose steps are punctual. -/
structure OnTime (events : List PrivacyEvent) (s : PrivacyHost) : Prop where
  neverLate : NeverLate events s
  reported : ∀ c, TimedOut c events → ¬ s.Asking c

variable {events : List PrivacyEvent}

/-- A connection that becomes the holder is in the middle of its request. -/
theorem asking_of_turnedOn {c : ℤ} (hpunctual : Punctual platform s e)
    (hstep : step platform s e = some t) (hbefore : ¬ HeldBy s.pm c) (h : HeldBy t.pm c) :
    s.Asking c ∧ e ≠ .timeout c ∧ e ≠ .leave c ∧ ∀ off, e ≠ .turnOffClosing c off := by
  rcases heldBy_of_step hstep h with hheld | ⟨os, implKey, rfl, hcalling⟩ |
    ⟨thread, os, implKey, rfl, hthread, hfree, kind, hkind, hgrants⟩
  · exact absurd hheld hbefore
  · exact ⟨.inl ⟨implKey, hcalling⟩, by simp, by simp, by simp⟩
  · refine ⟨.inr ⟨thread, ?_⟩, by simp, by simp, by simp⟩
    by_contra hphase
    rcases hpunctual c implKey hthread hphase with ⟨b, hb⟩ | hnot
    · exact hfree b hb
    · exact hnot kind hkind hgrants

/-- **One step** that is punctual stays on time. -/
theorem OnTime.step (h : OnTime events s) (hpunctual : Punctual platform s e)
    (hstep : PrivacyHost.step platform s e = some t) : OnTime (events ++ [e]) t := by
  constructor
  · intro c hlate hheld
    by_cases hbefore : HeldBy s.pm c
    · have hnot := fun hlate => h.neverLate c hlate hbefore
      rcases hlate with htimedOut | hclosed
      · rcases timedOut_snoc htimedOut with rfl | ⟨hold, -⟩
        · exact hpunctual hbefore
        · exact hnot (.inl hold)
      · cases phaseMoves_of_step hstep c with
        | stays hphase => exact hnot (.inr (hphase ▸ hclosed))
        | asks _ _ hopen => exact hopen hclosed
        | settles _ hopen => exact hopen hclosed
        | leaves _ hfree _ => exact hfree (connId?_of_heldBy hbefore)
        | closes off he hpm _ =>
          subst he
          rw [hpm, heldBy_turnOffPrivacy] at hheld
          exact hheld.2 ⟨hpunctual, .inr rfl⟩
    · obtain ⟨hasking, htimeout, hleave, hclosing⟩ :=
        asking_of_turnedOn hpunctual hstep hbefore hheld
      rcases hlate with htimedOut | hclosed
      · rcases timedOut_snoc htimedOut with heq | ⟨hold, -⟩
        · exact htimeout heq
        · exact h.reported c hold hasking
      · cases phaseMoves_of_step hstep c with
        | stays hphase =>
          rw [hphase] at hclosed
          rcases hasking with ⟨implKey, hcalling⟩ | ⟨thread, hwaiting⟩
          · cases hclosed.symm.trans hcalling
          · cases hclosed.symm.trans hwaiting
        | asks _ _ hopen => exact hopen hclosed
        | settles _ hopen => exact hopen hclosed
        | leaves he _ _ => exact hleave he
        | closes off he _ _ => exact hclosing off he
  · intro c htimedOut
    have hclosed (hclosed : t.phase c = .closed) : ¬ t.Asking c := by
      rintro (⟨implKey, hcalling⟩ | ⟨thread, hwaiting⟩)
      · cases hclosed.symm.trans hcalling
      · cases hclosed.symm.trans hwaiting
    rcases timedOut_snoc htimedOut with rfl | ⟨hold, hnotAsked⟩
    · exact not_asking_of_timeout hstep
    · cases phaseMoves_of_step hstep c with
      | stays hphase =>
        rw [Asking, hphase]
        exact h.reported c hold
      | asks implKey he _ => exact absurd he (hnotAsked implKey)
      | settles hasking _ => exact hasking
      | leaves _ _ hphase => exact hclosed hphase
      | closes _ _ _ hphase => exact hclosed hphase

/-- In a run whose steps are punctual nobody holds the mode late. -/
theorem neverLate_of_punctual {pm : Option PrivacyModeImpl}
    (hrun : (machine platform pm).RunWhere (Punctual platform) (machine platform pm).init events
      s) : NeverLate events s := by
  have honTime : OnTime events s := by
    generalize hstart : (machine platform pm).init = start at hrun
    induction hrun with
    | nil =>
      subst hstart
      have hnone (c : ℤ) : ¬ TimedOut c [] := by
        rintro ⟨first, rest, hevents, -⟩
        cases first <;> cases hevents
      refine ⟨fun c hlate => ?_, fun c htimedOut => absurd htimedOut (hnone c)⟩
      rcases hlate with htimedOut | hclosed
      · exact absurd htimedOut (hnone c)
      · cases hclosed
    | snoc _ hpunctual hstep ih => exact ih.step hpunctual hstep
  exact honTime.neverLate

end PrivacyHost

end RdWeb.Host
