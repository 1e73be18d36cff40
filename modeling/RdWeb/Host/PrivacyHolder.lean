import RdWeb.Host.PrivacyMode
import Mathlib.Tactic.Push

/-!
# Privacy mode belongs to its holder

A connection that holds privacy mode gives it up itself, or the host does. What else can
take it away is the clean-up after a failed request of another connection, and a request of
the holder for an implementation that then does not turn on.
-/

namespace RdWeb.Host

/-- The connection an implementation is turned on for. -/
def HeldBy (pm : Option PrivacyModeImpl) (a : ℤ) : Prop :=
  ∃ cur, pm = some cur ∧ cur.connId = a ∧ a ≠ INVALID_PRIVACY_MODE_CONN_ID

/-- A mode is held by the connection that its record names. -/
theorem heldBy_some {cur : PrivacyModeImpl} {a : ℤ} :
    HeldBy (some cur) a ↔ cur.connId = a ∧ a ≠ INVALID_PRIVACY_MODE_CONN_ID := by
  simp [HeldBy]

/-- A connection that the record does not name holds nothing. -/
theorem not_heldBy {pm : Option PrivacyModeImpl} {a : ℤ} (h : pm.map (·.connId) ≠ some a) :
    ¬ HeldBy pm a := by
  rintro ⟨cur, rfl, rfl, -⟩
  exact h rfl

/-- There is one id, so there is one holder. -/
theorem HeldBy.unique {pm : Option PrivacyModeImpl} {a b : ℤ} (ha : HeldBy pm a)
    (hb : HeldBy pm b) : a = b := by
  obtain ⟨cur, rfl, rfl, -⟩ := ha
  obtain ⟨cur', hcur, rfl, -⟩ := hb
  rw [Option.some.inj hcur]

/-- Turning off takes the mode from the holder if the caller is the holder or uses the invalid
id, and the system does its part. -/
theorem heldBy_turnOffPrivacy (pm : Option PrivacyModeImpl) (id a : ℤ)
    (off : Except String Unit) :
    HeldBy (pm.map fun pm => (pm.turnOffPrivacy id off).1) a ↔
      HeldBy pm a ∧ ¬ (off = .ok () ∧ (id = INVALID_PRIVACY_MODE_CONN_ID ∨ id = a)) := by
  cases pm with
  | none => simp [HeldBy]
  | some cur =>
    simp only [Option.map_some, heldBy_some, PrivacyModeImpl.turnOffPrivacy,
      PrivacyModeImpl.checkOffConnId]
    cases off with
    | error message => split_ifs <;> simp
    | ok =>
      split_ifs with hother
      · simp only [true_and]
        constructor
        · rintro ⟨rfl, ha⟩
          exact ⟨⟨rfl, ha⟩, by tauto⟩
        · exact And.left
      · simp only [true_and]
        constructor
        · rintro ⟨rfl, ha⟩
          exact absurd rfl ha
        · rintro ⟨⟨rfl, ha⟩, hnot⟩
          tauto

namespace PrivacyOs

/-- The system turns a fresh implementation on. -/
def Grants (os : PrivacyOs) : PrivacyKind → Prop
  | .topmostWindow => os.injected = true ∧ os.on = .ok ()
  | .virtualDisplay => os.iddSupported = true ∧ os.on = .ok ()

end PrivacyOs

/-- A fresh implementation is held by the caller exactly if the system turns it on. -/
theorem heldBy_turnOnPrivacy_new (implKey : String) (kind : PrivacyKind) {c : ℤ}
    (hc : c ≠ INVALID_PRIVACY_MODE_CONN_ID) (os : PrivacyOs) :
    HeldBy (some ((PrivacyModeImpl.new implKey kind).turnOnPrivacy c os).1) c ↔
      os.Grants kind := by
  have hcheck : (PrivacyModeImpl.new implKey kind).checkOnConnId c = .ok false := by
    simp [PrivacyModeImpl.checkOnConnId, PrivacyModeImpl.new, hc.symm]
  rw [heldBy_some]
  cases kind with
  | topmostWindow =>
    simp only [PrivacyModeImpl.turnOnPrivacy, PrivacyModeImpl.new, PrivacyModeImpl.turnOnTopmost]
    simp only [PrivacyModeImpl.new] at hcheck
    rw [hcheck]
    cases hinjected : os.injected <;> cases hon : os.on <;>
      simp [PrivacyOs.Grants, hinjected, hon, hc, hc.symm]
  | virtualDisplay =>
    simp only [PrivacyModeImpl.turnOnPrivacy, PrivacyModeImpl.new, PrivacyModeImpl.turnOnVirtual]
    simp only [PrivacyModeImpl.new] at hcheck
    rw [hcheck]
    cases hidd : os.iddSupported <;> cases hon : os.on <;> cases hoff : os.off <;>
      simp [PrivacyOs.Grants, PrivacyModeImpl.turnOffPrivacy, PrivacyModeImpl.checkOffConnId,
        hidd, hon, hc, hc.symm]

namespace PrivacyPlatform

variable (platform : PrivacyPlatform)

/-- A holder that asks again keeps the mode: it asks for the implementation it has, or for one
that does not exist, or for one that the system turns on. -/
def Regains (pm : Option PrivacyModeImpl) (implKey : String) (os : PrivacyOs) : Prop :=
  let implKey := platform.getSupportedImpl os implKey
  pm.map PrivacyModeImpl.implKey = some implKey ∨
    ∀ kind, platform.creator implKey = some kind → os.Grants kind

/-- A request for privacy mode takes it from nobody but from a holder that does not regain it. -/
theorem heldBy_turnOnPrivacySync {pm : Option PrivacyModeImpl} {a c : ℤ} (h : HeldBy pm a)
    (implKey : String) (os : PrivacyOs) :
    HeldBy (platform.turnOnPrivacySync pm implKey c os).1 a ↔
      (a = c → platform.Regains pm implKey os) := by
  obtain ⟨cur, rfl, rfl, hvalid⟩ := h
  rw [Regains, turnOnPrivacySync]
  generalize platform.getSupportedImpl os implKey = key
  by_cases hc : cur.connId = c
  · subst hc
    have hcheck : cur.checkOnConnId cur.connId = .ok true := by
      simp [PrivacyModeImpl.checkOnConnId]
    rw [hcheck]
    by_cases hkey : cur.implKey = key
    · simp [hkey, heldBy_some, hvalid]
    · cases hcreator : platform.creator key with
      | none => simp [turnOnImpl, hkey, hcreator, heldBy_some, hvalid]
      | some kind =>
        simp [turnOnImpl, hkey, hcreator, heldBy_turnOnPrivacy_new key kind hvalid os]
  · have hcheck : cur.checkOnConnId c = .error .occupied := by
      simp [PrivacyModeImpl.checkOnConnId, hc, hvalid]
    rw [hcheck]
    simp [hc, heldBy_some, hvalid]

end PrivacyPlatform

namespace PrivacyHost

variable {platform : PrivacyPlatform} {s t : PrivacyHost}

/-- The steps by which a holder may stop holding: its own `turn_off` or close, and what the
host does itself. -/
def Releases (a : ℤ) : PrivacyEvent → Prop
  | .turnOff c _ | .turnOffClosing c _ | .turnOffFailed c _ => c = a
  | .localOff _ | .switch _ => True
  | _ => False

/-- There is one holder, and it stops holding only by a step that releases it. -/
structure KeepsHolder (s : PrivacyHost) (e : PrivacyEvent) (t : PrivacyHost) : Prop where
  unique : ∀ a b, HeldBy t.pm a → HeldBy t.pm b → a = b
  kept : ∀ a, HeldBy s.pm a → HeldBy t.pm a ∨ Releases a e

/-- A connection whose request failed does not turn off the mode of another one, and a holder
that asks for privacy mode regains it. -/
def Unforced (platform : PrivacyPlatform) (s : PrivacyHost) : PrivacyEvent → Prop
  | .turnOffFailed c off =>
    s.phase c = .turningOffAny → ∀ a, HeldBy s.pm a → a = c ∨ off ≠ .ok ()
  | .turnOnSync c os => ∀ implKey, s.phase c = .calling implKey → HeldBy s.pm c →
      platform.Regains s.pm implKey os
  | .threadRuns thread os => ∀ c implKey, s.threads thread = some (c, implKey) →
      HeldBy s.pm c → platform.Regains s.pm implKey os
  | _ => True

/-- A step that leaves the global alone keeps the holder. -/
theorem keepsHolder_of_pm_eq {e : PrivacyEvent} (hpm : t.pm = s.pm) : KeepsHolder s e t :=
  ⟨fun _ _ => HeldBy.unique, fun _ ha => .inl (hpm ▸ ha)⟩

/-- Turning off with the id of a connection releases nobody else. -/
theorem keepsHolder_turnOff {e : PrivacyEvent} {c : ℤ} (hc : 0 < c) {off : Except String Unit}
    (hpm : t.pm = (s.turnOffPrivacy c off).pm) (hreleases : Releases c e) :
    KeepsHolder s e t := by
  refine ⟨fun _ _ => HeldBy.unique, fun a ha => ?_⟩
  by_cases hca : c = a
  · exact .inr (hca ▸ hreleases)
  · left
    rw [hpm, turnOffPrivacy, heldBy_turnOffPrivacy]
    refine ⟨ha, ?_⟩
    rintro ⟨-, hinvalid | hsame⟩
    · exact absurd hinvalid (ne_of_gt hc)
    · exact hca hsame

/-- A request that got the mutex. -/
theorem keepsHolder_turnOn_iff {e : PrivacyEvent} {c : ℤ} {implKey : String} {os : PrivacyOs}
    (hpm : t.pm = (platform.turnOnPrivacySync s.pm implKey c os).1)
    (hreleases : ∀ a, ¬ Releases a e) :
    KeepsHolder s e t ↔ (HeldBy s.pm c → platform.Regains s.pm implKey os) := by
  constructor
  · intro h hheld
    have hkept := (h.kept c hheld).resolve_right (hreleases c)
    rw [hpm, platform.heldBy_turnOnPrivacySync hheld] at hkept
    exact hkept rfl
  · intro h
    refine ⟨fun _ _ => HeldBy.unique, fun a ha => .inl ?_⟩
    rw [hpm, platform.heldBy_turnOnPrivacySync ha]
    rintro rfl
    exact h ha

/-- The clean-up after a failed request of a connection. -/
theorem keepsHolder_turnOffAny_iff {c : ℤ} {off : Except String Unit}
    (hpm : t.pm = (s.turnOffPrivacy INVALID_PRIVACY_MODE_CONN_ID off).pm) :
    KeepsHolder s (.turnOffFailed c off) t ↔
      ∀ a, HeldBy s.pm a → a = c ∨ off ≠ .ok () := by
  have hheld (a : ℤ) : HeldBy t.pm a ↔ HeldBy s.pm a ∧ off ≠ .ok () := by
    rw [hpm, turnOffPrivacy, heldBy_turnOffPrivacy]
    simp
  constructor
  · intro h a ha
    rcases h.kept a ha with hkept | hreleases
    · exact .inr ((hheld a).mp hkept).2
    · exact .inl hreleases.symm
  · intro h
    refine ⟨fun _ _ => HeldBy.unique, fun a ha => ?_⟩
    rcases h a ha with hown | hoff
    · exact .inr hown.symm
    · exact .inl ((hheld a).mpr ⟨ha, hoff⟩)

/-- The events in which a connection calls the global. -/
def CallsGlobal : PrivacyEvent → Prop
  | .turnOnSync _ _ | .turnOffFailed _ _ | .turnOff _ _ | .turnOffClosing _ _ => True
  | _ => False

/-- The other events of a connection leave the global alone. -/
theorem pm_connStep {e : PrivacyEvent} (hstep : s.connStep platform e = some t)
    (he : ¬ CallsGlobal e) : t.pm = s.pm := by
  cases e with
  | request c implKey =>
    simp only [connStep, call] at hstep
    split_ifs at hstep <;> obtain rfl := Option.some.inj hstep <;> rfl
  | timeout c =>
    simp only [connStep] at hstep
    split at hstep <;> simp only [Option.some.injEq, reduceCtorEq] at hstep
    rw [← hstep, setPhase]
  | checkErr c noError =>
    simp only [connStep] at hstep
    split_ifs at hstep <;> obtain rfl := Option.some.inj hstep <;> rfl
  | checkInPrivacyMode c =>
    simp only [connStep] at hstep
    split at hstep <;> simp only [Option.some.injEq, reduceCtorEq] at hstep
    rw [← hstep, setPhase]
  | finish c =>
    simp only [connStep] at hstep
    split_ifs at hstep
    obtain rfl := Option.some.inj hstep
    rfl
  | leave c =>
    simp only [connStep] at hstep
    split_ifs at hstep <;> obtain rfl := Option.some.inj hstep <;> rfl
  | threadRuns | localOff | switch => cases hstep
  | turnOnSync | turnOffFailed | turnOff | turnOffClosing => exact absurd trivial he

/-- The events of a connection, one by one. -/
theorem keepsHolder_connStep_iff {e : PrivacyEvent} (hstep : s.connStep platform e = some t)
    (hc : ∀ c off, e = .turnOff c off ∨ e = .turnOffClosing c off ∨ e = .turnOffFailed c off →
      0 < c) :
    KeepsHolder s e t ↔ Unforced platform s e := by
  cases e with
  | turnOnSync c os =>
    simp only [connStep] at hstep
    split at hstep
    case h_1 implKey hphase =>
      obtain rfl := Option.some.inj hstep
      refine (keepsHolder_turnOn_iff rfl fun _ => id).trans ?_
      simp [Unforced, hphase]
    case h_2 => cases hstep
  | turnOffFailed c off =>
    have hpos : 0 < c := hc c off (.inr (.inr rfl))
    simp only [connStep] at hstep
    split at hstep
    case h_1 hphase =>
      obtain rfl := Option.some.inj hstep
      refine iff_of_true (keepsHolder_turnOff hpos rfl rfl) ?_
      simp [Unforced, hphase]
    case h_2 hphase =>
      obtain rfl := Option.some.inj hstep
      have hkeeps : KeepsHolder s (.turnOffFailed c off)
          ((s.turnOffPrivacy INVALID_PRIVACY_MODE_CONN_ID off).setPhase c .idle) ↔ _ :=
        keepsHolder_turnOffAny_iff rfl
      rw [hkeeps]
      simp [Unforced, hphase]
    case h_3 => cases hstep
  | turnOff c off =>
    refine iff_of_true ?_ trivial
    simp only [connStep] at hstep
    split_ifs at hstep <;> obtain rfl := Option.some.inj hstep
    · exact keepsHolder_of_pm_eq rfl
    · exact keepsHolder_turnOff (hc c off (.inl rfl)) rfl rfl
  | turnOffClosing c off =>
    refine iff_of_true ?_ trivial
    simp only [connStep] at hstep
    split_ifs at hstep
    obtain rfl := Option.some.inj hstep
    exact keepsHolder_turnOff (hc c off (.inr (.inl rfl))) rfl rfl
  | threadRuns => cases hstep
  | _ => exact iff_of_true (keepsHolder_of_pm_eq (pm_connStep hstep id)) trivial

/-- A step keeps the holder exactly if it is not forced. -/
theorem keepsHolder_step_iff {e : PrivacyEvent} (hstep : step platform s e = some t) :
    KeepsHolder s e t ↔ Unforced platform s e := by
  have hlocal (h : ∀ a, Releases a e) : KeepsHolder s e t :=
    ⟨fun _ _ => HeldBy.unique, fun a _ => .inr (h a)⟩
  rw [step.eq_def] at hstep
  split at hstep
  case h_1 thread os =>
    rw [runThread] at hstep
    split at hstep
    case h_1 c implKey hthread =>
      have hpm : t.pm = (platform.turnOnPrivacySync s.pm implKey c os).1 := by
        obtain rfl := Option.some.inj hstep
        dsimp only
        split_ifs <;> rfl
      rw [keepsHolder_turnOn_iff hpm fun _ => id]
      simp [Unforced, hthread]
    case h_2 => cases hstep
  case h_2 => exact iff_of_true (hlocal fun _ => trivial) trivial
  case h_3 => exact iff_of_true (hlocal fun _ => trivial) trivial
  all_goals
    split_ifs at hstep with hpos
    refine keepsHolder_connStep_iff hstep ?_
    simp [hpos]

/-- **Privacy mode.** In a run, every step keeps privacy mode with its holder, if and only if
no step of the run is forced. -/
theorem keepsHolder_iff_unforced (platform : PrivacyPlatform) (pm : Option PrivacyModeImpl)
    {events : List PrivacyEvent}
    (hrun : (machine platform pm).Run (machine platform pm).init events s) :
    (∀ first e u v, first ++ [e] <+: events →
      (machine platform pm).Run (machine platform pm).init first u →
        (machine platform pm).step u e = some v → KeepsHolder u e v) ↔
      (machine platform pm).RunWhere (Unforced platform) (machine platform pm).init events s :=
  Machine.runWhere_iff_steps (M := machine platform pm) (R := KeepsHolder)
    (fun _ _ _ hstep => keepsHolder_step_iff hstep) hrun

/-- The platform of the examples has the one implementation with the topmost window. -/
def demoPlatform : PrivacyPlatform where
  creator implKey := if implKey = "mag" then some .topmostWindow else none
  defaultImpl := "mag"
  amyuniIdd := false

/-- A system that does everything it is asked to. -/
def willingOs : PrivacyOs := ⟨["mag"], "", true, true, .ok (), .ok ()⟩

/-- The host of the examples. -/
def demoMachine : Machine PrivacyHost PrivacyEvent :=
  machine demoPlatform (some (.new "mag" .topmostWindow))

/-- A connection holds privacy mode and the request of another one is refused. -/
def refused : List PrivacyEvent :=
  [.request 1001 "mag", .turnOnSync 1001 willingOs, .checkErr 1001 true,
    .request 1002 "mag", .turnOnSync 1002 willingOs, .checkInPrivacyMode 1002]

/-- The host after these events. -/
def afterRefused : PrivacyHost :=
  (demoMachine.replay demoMachine.init refused).getD demoMachine.init

/-- The clean-up of the refused connection fails, and the holder turns privacy mode off. -/
def refusedAndKept : List PrivacyEvent :=
  refused ++ [.turnOffFailed 1002 (.error "busy"), .turnOff 1001 (.ok ())]

/-- The host after these events. -/
def afterRefusedAndKept : PrivacyHost :=
  (demoMachine.replay demoMachine.init refusedAndKept).getD demoMachine.init

/-- A run with a request that is refused, in which the first connection stays the holder. -/
theorem keepsHolder_iff_unforced_refusedAndKept :
    HeldBy afterRefused.pm 1001 ∧
      ∀ first e u v, first ++ [e] <+: refusedAndKept → demoMachine.Run demoMachine.init first u →
        demoMachine.step u e = some v → KeepsHolder u e v := by
  have hwhere : demoMachine.RunWhere (Unforced demoPlatform) demoMachine.init refusedAndKept
      afterRefusedAndKept :=
    .cons trivial rfl <| .cons (fun _ _ h => absurd h (not_heldBy (by decide))) rfl <|
      .cons trivial rfl <| .cons trivial rfl <|
      .cons (fun _ _ h => absurd h (not_heldBy (by decide))) rfl <| .cons trivial rfl <|
      .cons (fun _ _ _ => .inr nofun) rfl <| .single trivial rfl
  exact ⟨⟨_, rfl, rfl, by decide⟩,
    (keepsHolder_iff_unforced demoPlatform (some (.new "mag" .topmostWindow)) hwhere.run).mpr
      hwhere⟩

/-- The request of a second connection is refused, and turning off after it ends the mode of the
first one. -/
theorem not_keepsHolder_refused :
    ¬ ∀ events s e t, demoMachine.Run demoMachine.init events s →
      demoMachine.step s e = some t → KeepsHolder s e t := by
  intro hall
  have hkeeps := hall refused afterRefused (.turnOffFailed 1002 (.ok ()))
    ((afterRefused.turnOffPrivacy INVALID_PRIVACY_MODE_CONN_ID (.ok ())).setPhase 1002 .idle)
    (Machine.run_of_replay rfl) rfl
  rcases hkeeps.kept 1001 ⟨⟨"mag", .topmostWindow, 1001⟩, rfl, rfl, by decide⟩ with hheld | hown
  · obtain ⟨cur, hcur, hid, -⟩ := hheld
    have hnone : cur.connId = INVALID_PRIVACY_MODE_CONN_ID :=
      congrArg PrivacyModeImpl.connId (Option.some.inj hcur.symm)
    rw [hnone] at hid
    cases hid
  · cases hown

end PrivacyHost

end RdWeb.Host
