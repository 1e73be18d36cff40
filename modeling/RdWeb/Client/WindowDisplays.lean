import RdWeb.Client.UiSessions

/-!
# Every window has its displays captured

A window that switches sends the displays the host has to capture from then on, for all
windows. Those of the other windows are in it if they are among its own, or, when it switches
to a single display on the desktop, if the renderer of another window knows them.
-/

namespace RdWeb.Host

/-- Different displays have different services. -/
theorem getServiceName_injective : Function.Injective getServiceName := by
  intro d d' h
  have hdigits := congrArg String.toList h
  simp only [getServiceName, String.toList_append, List.append_cancel_left_eq] at hdigits
  have hread : Nat.ofDigitChars 10 (toString d).toList 0 =
      Nat.ofDigitChars 10 (toString d').toList 0 := by rw [hdigits]
  simpa using hread

/-- A message that only sets displays has exactly these captured. -/
theorem mem_captured_set (c : DisplayConn) (set : List (BitVec 32)) (d : ℕ) :
    getServiceName d ∈
        (c.onMessage (.captureDisplays ⟨[], [], set⟩)).server.captured
          (c.onMessage (.captureDisplays ⟨[], [], set⟩)).id ↔
      d ∈ set.map asUsize := by
  have hcaptured : (c.captureDisplays [] [] (set.map asUsize)).server.captured c.id =
      serviceNames (set.map asUsize) := DisplayConn.captured_captureDisplays
  simp only [DisplayConn.onMessage, List.map_nil]
  have hid : (c.captureDisplays [] [] (set.map asUsize)).id = c.id := rfl
  rw [hid, hcaptured, serviceNames, getServiceName_injective.mem_set_image, Set.mem_ofPred_eq]

end RdWeb.Host

namespace RdWeb.Client

open RdWeb.Host

variable {SessionId : Type*} [DecidableEq SessionId]

/-- A display number survives the way to the host and back. -/
@[simp] theorem asI32_asUsize (x : BitVec 32) : asI32 (asUsize x) = x := by
  rw [asI32, asUsize, BitVec.ofNat_toNat]
  ext i hi
  simp [BitVec.getLsbD_signExtend, hi]
  omega

namespace PeerSession

/-- The host captures a display for this peer. -/
def Captures (s : PeerSession SessionId) (d : ℕ) : Prop :=
  getServiceName d ∈ s.host.server.captured s.host.id

/-- Every window that issued a switch has its displays captured. -/
def Covered (s : PeerSession SessionId) : Prop :=
  ∀ id h, s.handlers.get? id = some h → h.switched = true → ∀ d ∈ h.displays, s.Captures d

/-- The windows other than `id` that issued a switch show only displays of `known`. -/
def OthersShow (s : PeerSession SessionId) (id : SessionId) (known : ℕ → Prop) : Prop :=
  ∀ k h, k ≠ id → s.handlers.get? k = some h → h.switched = true → ∀ d ∈ h.displays, known d

/-- The renderer of another window knows a display, whose number is sent as an `i32`. -/
def RenderedElsewhere (s : PeerSession SessionId) (id : SessionId) (d : ℕ) : Prop :=
  ∃ k h, k ≠ id ∧ s.handlers.get? k = some h ∧
    ∃ key ∈ h.renderer.mapDisplaySessions.keys, asUsize (asI32 key) = d

variable {s t : PeerSession SessionId} {id : SessionId}

/-- The other windows show only known displays if all their entries do. -/
theorem othersShow_of_entries {known : ℕ → Prop}
    (h : ∀ e ∈ s.handlers.entries, e.1 = id ∨ ∀ d ∈ e.2.displays, known d) :
    s.OthersShow id known := fun _ _ hk hget _ d hd =>
  (h _ (OrderedMap.mem_entries_iff.mpr hget)).resolve_left hk d hd

omit [DecidableEq SessionId] in
/-- The displays that are captured are the ones of the list. -/
@[simp] theorem captures_captureDisplays (set : List (BitVec 32)) (d : ℕ) :
    (s.captureDisplays [] [] set).Captures d ↔ d ∈ set.map asUsize :=
  mem_captured_set s.host set d

/-- The displays that remain are the current one and those that other windows render. -/
theorem mem_remainsDisplays {current : Option ℕ} {key : ℕ} :
    key ∈ s.remainsDisplays current id ↔ current = some key ∨
      ∃ k h, k ≠ id ∧ s.handlers.get? k = some h ∧
        key ∈ h.renderer.mapDisplaySessions.keys := by
  simp only [remainsDisplays, List.mem_dedup, List.mem_append, Option.mem_toList,
    List.mem_flatMap, List.mem_filter, decide_eq_true_eq, Prod.exists,
    ← OrderedMap.mem_entries_iff]
  refine or_congr_right (exists_congr fun k => exists_congr fun h => ?_)
  tauto

/-- What is sent for the remaining displays, as the host reads it. -/
theorem mem_remainsDisplays_map {current : Option ℕ} {d : ℕ} :
    d ∈ ((s.remainsDisplays current id).map asI32).map asUsize ↔
      (∃ key, current = some key ∧ asUsize (asI32 key) = d) ∨ s.RenderedElsewhere id d := by
  simp only [List.map_map, List.mem_map, Function.comp_apply, mem_remainsDisplays,
    RenderedElsewhere]
  constructor
  · rintro ⟨key, hcurrent | ⟨k, h, hk, hget, hkey⟩, hd⟩
    · exact .inl ⟨key, hcurrent, hd⟩
    · exact .inr ⟨k, h, hk, hget, key, hkey, hd⟩
  · rintro (⟨key, hcurrent, hd⟩ | ⟨k, h, hk, hget, key, hkey, hd⟩)
    · exact ⟨key, .inl hcurrent, hd⟩
    · exact ⟨key, .inr ⟨k, h, hk, hget, hkey⟩, hd⟩

/-- A window that switched is covered with the others exactly if what is captured from then on
covers the others. -/
theorem covered_switched_iff {h : SessionHandler} {known : ℕ → Prop}
    (hhandlers : t.handlers = s.handlers.set id h) (hcaptures : ∀ d, t.Captures d ↔ known d)
    (hown : ∀ d ∈ h.displays, known d) : t.Covered ↔ s.OthersShow id known := by
  constructor
  · intro ht k hk hne hget hswitched d hd
    exact (hcaptures d).mp (ht k hk (by simp [hhandlers, hne, hget]) hswitched d hd)
  · intro hothers k hk hget hswitched d hd
    rw [hcaptures]
    rw [hhandlers, OrderedMap.get?_set] at hget
    split_ifs at hget with hne
    · obtain rfl := Option.some.inj hget
      exact hown d hd
    · exact hothers k hk hne hget hswitched d hd

/-- One that only replaces a handler which did not issue a switch. -/
theorem covered_replaced {h : SessionHandler} (hs : s.Covered)
    (hhandlers : t.handlers = s.handlers.set id h) (hhost : t.host = s.host)
    (hown : h.switched = true → ∀ d ∈ h.displays, s.Captures d) : t.Covered := by
  intro k hk hget hswitched d hd
  rw [Captures, hhost]
  rw [hhandlers, OrderedMap.get?_set] at hget
  split_ifs at hget with hne
  · obtain rfl := Option.some.inj hget
    exact hown hswitched d hd
  · exact hs k hk hget hswitched d hd

/-- What the other renderers know does not depend on the window itself. -/
theorem renderedElsewhere_set {h : SessionHandler} {d : ℕ}
    (hhandlers : t.handlers = s.handlers.set id h) :
    t.RenderedElsewhere id d ↔ s.RenderedElsewhere id d := by
  refine exists_congr fun k => exists_congr fun h' => and_congr_right fun hk => ?_
  rw [hhandlers, OrderedMap.get?_set, if_neg hk]

/-- Deleting a window leaves what the others render. -/
theorem renderedElsewhere_delete {d : ℕ} (hhandlers : t.handlers = s.handlers.delete id) :
    t.RenderedElsewhere id d ↔ s.RenderedElsewhere id d := by
  refine exists_congr fun k => exists_congr fun h => and_congr_right fun hk => ?_
  rw [hhandlers, OrderedMap.get?_delete, if_neg hk]

/-- Nothing remains where no other renderer knows a display. -/
theorem remainsDisplays_none_eq_nil_iff :
    s.remainsDisplays none id = [] ↔ ¬ ∃ d, s.RenderedElsewhere id d := by
  rw [← not_iff_not, not_not]
  constructor
  · intro hremains
    obtain ⟨key, hkey⟩ := List.exists_mem_of_ne_nil _ hremains
    obtain ⟨k, h, hk, hget, hkeys⟩ := (mem_remainsDisplays.mp hkey).resolve_left (by simp)
    exact ⟨_, k, h, hk, hget, key, hkeys, rfl⟩
  · rintro ⟨_, k, h, hk, hget, key, hkeys, -⟩
    exact List.ne_nil_of_mem (mem_remainsDisplays.mpr (.inr ⟨k, h, hk, hget, hkeys⟩))

/-- The displays that remain are captured, if there are any. -/
theorem captures_checkRemoveUnusedDisplays {current : Option ℕ} {d : ℕ}
    (hremains : s.remainsDisplays current id ≠ []) :
    (s.checkRemoveUnusedDisplays current id).Captures d ↔
      (∃ key, current = some key ∧ asUsize (asI32 key) = d) ∨ s.RenderedElsewhere id d := by
  rw [checkRemoveUnusedDisplays, if_pos hremains, captures_captureDisplays,
    mem_remainsDisplays_map]

omit [DecidableEq SessionId] in
/-- Switching leaves the windows as they are. -/
@[simp] theorem handlers_switchDisplay (useTextureRender : Bool) (display : BitVec 32) :
    (s.switchDisplay useTextureRender display).handlers = s.handlers := by
  cases useTextureRender <;> rfl

/-- Giving up displays leaves the windows as they are. -/
@[simp] theorem handlers_checkRemoveUnusedDisplays (current : Option ℕ) :
    (s.checkRemoveUnusedDisplays current id).handlers = s.handlers := by
  rw [checkRemoveUnusedDisplays]
  split_ifs <;> rfl

/-- A switch. -/
theorem covered_sessionSwitchDisplay_iff {useTextureRender isDesktop : Bool}
    {value : List (BitVec 32)} (hid : s.handlers.has id = true) :
    (s.sessionSwitchDisplay useTextureRender isDesktop id value).Covered ↔
      s.OthersShow id fun d => d ∈ value.map asUsize ∨
        isDesktop = true ∧ value.length = 1 ∧ s.RenderedElsewhere id d := by
  obtain ⟨h, hget⟩ := OrderedMap.has_iff.mp hid
  rw [sessionSwitchDisplay, hget]
  dsimp only
  generalize hnew : ({ h with displays := value.map asUsize, switched := true } :
    SessionHandler) = h'
  have hdisplays : h'.displays = value.map asUsize := by rw [← hnew]
  split
  case h_1 display =>
    generalize hswitch : ({ s with handlers := s.handlers.set id h' } :
      PeerSession SessionId).switchDisplay useTextureRender display = s'
    have hhandlers : s'.handlers = s.handlers.set id h' := by
      rw [← hswitch, handlers_switchDisplay]
    cases isDesktop with
    | false =>
      refine covered_switched_iff (h := h') hhandlers (fun d => ?_) fun d hd => .inl ?_
      · simp
      · rwa [hdisplays] at hd
    | true =>
      have hremains : s'.remainsDisplays (some (asUsize display)) id ≠ [] :=
        List.ne_nil_of_mem (mem_remainsDisplays.mpr (.inl rfl))
      refine covered_switched_iff ((handlers_checkRemoveUnusedDisplays _).trans hhandlers)
        (fun d => ?_) fun d hd => .inl ?_
      · rw [Bool.not_true, if_neg Bool.false_ne_true,
          captures_checkRemoveUnusedDisplays hremains, renderedElsewhere_set hhandlers]
        simp [eq_comm]
      · rwa [hdisplays] at hd
  case h_2 hlength =>
    have hone : value.length ≠ 1 := fun h => by
      obtain ⟨display, rfl⟩ := List.length_eq_one_iff.mp h
      exact hlength display rfl
    refine covered_switched_iff (h := h') rfl (fun d => ?_) fun d hd => .inl ?_
    · simp [hone]
    · rwa [hdisplays] at hd

/-- A window goes away, and others are left. -/
theorem covered_remove_iff (hs : s.Covered)
    (hhandlers : t.handlers = s.handlers.delete id) (hhost : t.host = s.host) :
    (t.checkRemoveUnusedDisplays none id).Covered ↔
      ((∃ d, s.RenderedElsewhere id d) → s.OthersShow id (s.RenderedElsewhere id)) := by
  have hget (k : SessionId) : t.handlers.get? k = if k = id then none else s.handlers.get? k := by
    rw [hhandlers, OrderedMap.get?_delete]
  have hremains : t.remainsDisplays none id = [] ↔ ¬ ∃ d, s.RenderedElsewhere id d := by
    simp only [remainsDisplays_none_eq_nil_iff, renderedElsewhere_delete hhandlers]
  by_cases hsome : ∃ d, s.RenderedElsewhere id d
  · have hne : t.remainsDisplays none id ≠ [] := fun h => hremains.mp h hsome
    have hcaptures (d : ℕ) : (t.checkRemoveUnusedDisplays none id).Captures d ↔
        s.RenderedElsewhere id d := by
      rw [captures_checkRemoveUnusedDisplays hne, renderedElsewhere_delete hhandlers]
      simp
    rw [forall_prop_of_true hsome]
    constructor
    · intro hcovered k h hk hget' hswitched d hd
      refine (hcaptures d).mp (hcovered k h ?_ hswitched d hd)
      rw [handlers_checkRemoveUnusedDisplays, hget, if_neg hk, hget']
    · intro hothers k h hk hswitched d hd
      rw [handlers_checkRemoveUnusedDisplays, hget] at hk
      split_ifs at hk with hne
      exact (hcaptures d).mpr (hothers k h hne hk hswitched d hd)
  · -- no message is sent, so what was captured still is
    refine iff_of_true ?_ fun h => absurd h hsome
    rw [checkRemoveUnusedDisplays, if_neg (not_not_intro (hremains.mpr hsome))]
    intro k h hk hswitched d hd
    rw [Captures, hhost]
    rw [hget] at hk
    split_ifs at hk
    exact hs k h hk hswitched d hd

/-- The size of a display adds it to the displays of the window. -/
theorem covered_sessionSetSize_iff {display width height : ℕ} (hs : s.Covered) :
    (s.sessionSetSize id display width height).Covered ↔
      ∀ h, s.handlers.get? id = some h → h.switched = true → display ∉ h.displays →
        s.Captures display := by
  rw [sessionSetSize, modify]
  cases hget : s.handlers.get? id with
  | none => simpa using hs
  | some h =>
    dsimp only
    constructor
    · intro hcovered h' hh' hswitched hnot
      obtain rfl := Option.some.inj hh'
      refine hcovered id _ (OrderedMap.get?_set _ _ _ _ |>.trans (if_pos rfl)) hswitched
        display ?_
      simp [hnot]
    · intro hok
      refine covered_replaced hs rfl rfl fun hswitched d hd => ?_
      dsimp only at hswitched hd
      split_ifs at hd with hmem
      · exact hs id h hget hswitched d hd
      · rcases List.mem_append.mp hd with hd | hd
        · exact hs id h hget hswitched d hd
        · obtain rfl := List.mem_singleton.mp hd
          exact hok h rfl hswitched hmem

/-- What a renderer learns changes no display of a window. -/
theorem covered_modify {f : SessionHandler → SessionHandler} (hs : s.Covered)
    (hf : ∀ h, (f h).displays = h.displays ∧ (f h).switched = h.switched) :
    (s.modify id f).Covered := by
  rw [modify]
  cases hget : s.handlers.get? id with
  | none => exact hs
  | some h =>
    refine covered_replaced hs rfl rfl fun hswitched d hd => ?_
    rw [(hf h).2] at hswitched
    rw [(hf h).1] at hd
    exact hs id h hget hswitched d hd

end PeerSession

namespace UiEvent

variable {s t : Option (PeerSession SessionId)}

/-- A call leaves the windows of the others their displays: those of the other windows that
issued a switch are among the ones switched to, or known to the renderer of another window if
a single display is switched to on the desktop, or if the window goes away and another
renderer knows any. A size is only set for a display the window shows, or that is captured. -/
def KeepsOthers (s : Option (PeerSession SessionId)) : UiEvent SessionId → Prop
  | .sessionSwitchDisplay _ isDesktop id value => ∀ session, s = some session →
      session.handlers.has id = true → session.OthersShow id fun d =>
        d ∈ value.map asUsize ∨
          isDesktop = true ∧ value.length = 1 ∧ session.RenderedElsewhere id d
  | .removeSession id => ∀ session, s = some session → session.handlers.has id = true →
      (∃ d, session.RenderedElsewhere id d) →
        session.OthersShow id (session.RenderedElsewhere id)
  | .sessionSetSize id display _ _ => ∀ session h, s = some session →
      session.handlers.get? id = some h → h.switched = true → display ∉ h.displays →
        session.Captures display
  | _ => True

/-- A call keeps the windows covered exactly if it leaves the others their displays. -/
theorem covered_step_iff (e : UiEvent SessionId) (hs : ∀ session ∈ s, session.Covered) :
    (∀ session ∈ step s e, session.Covered) ↔ KeepsOthers s e := by
  cases s with
  | none =>
    refine iff_of_true ?_ (by cases e <;> simp [KeepsOthers])
    cases e with
    | insertSession id login =>
      simp only [step, Option.getD_none, Option.mem_some, forall_eq']
      intro k h hget hswitched
      simp only [OrderedMap.get?_set, OrderedMap.get?_empty] at hget
      split_ifs at hget
      obtain rfl := Option.some.inj hget
      cases hswitched
    | _ => simp [step]
  | some session =>
    have hcovered := hs session rfl
    cases e with
    | insertSession id login =>
      refine iff_of_true ?_ trivial
      simp only [step, Option.getD_some, Option.mem_some, forall_eq']
      exact PeerSession.covered_replaced hcovered rfl rfl fun hswitched => by cases hswitched
    | insertPeerSessionId id displays =>
      refine iff_of_true ?_ trivial
      simp only [step, Option.map_some, Option.mem_some, forall_eq']
      exact PeerSession.covered_replaced hcovered rfl rfl fun hswitched => by cases hswitched
    | sessionSwitchDisplay useTextureRender isDesktop id value =>
      simp only [step, Option.map_some, Option.mem_some, forall_eq', KeepsOthers,
        Option.some.injEq]
      cases hid : session.handlers.has id with
      | false =>
        have hnone := OrderedMap.has_eq_false_iff.mp hid
        simpa [PeerSession.sessionSwitchDisplay, hnone] using hcovered
      | true =>
        rw [PeerSession.covered_sessionSwitchDisplay_iff hid]
        simp
    | removeSession id =>
      simp only [step, Option.bind_some, KeepsOthers, Option.some.injEq, forall_eq',
        PeerSession.removeSessionBySessionId]
      cases hget : session.handlers.get? id with
      | none =>
        have hhas := OrderedMap.has_eq_false_iff.mpr hget
        simpa [hhas] using hcovered
      | some h =>
        have hhas := OrderedMap.has_iff.mpr ⟨h, hget⟩
        dsimp only
        split_ifs with hempty
        · refine iff_of_true (by simp) fun _ _ k h' hk hget' => ?_
          have hmem : (k, h') ∈ (session.handlers.delete id).entries := by
            rw [OrderedMap.mem_entries_iff, OrderedMap.get?_delete, if_neg hk, hget']
          rw [hempty] at hmem
          cases hmem
        · simp only [Option.mem_some, forall_eq', hhas, forall_const]
          exact PeerSession.covered_remove_iff hcovered rfl rfl
    | sessionSetSize id display width height =>
      simp only [step, Option.map_some, Option.mem_some, forall_eq', KeepsOthers,
        Option.some.injEq]
      rw [PeerSession.covered_sessionSetSize_iff hcovered]
      constructor
      · rintro hok _ h rfl
        exact hok h
      · exact fun hok h => hok session h rfl
    | registerPixelbufferTexture id display ptr =>
      refine iff_of_true ?_ trivial
      simp only [step, Option.map_some, Option.mem_some, forall_eq']
      exact PeerSession.covered_modify hcovered fun _ => ⟨rfl, rfl⟩
    | registerGpuTexture id display ptr =>
      refine iff_of_true ?_ trivial
      simp only [step, Option.map_some, Option.mem_some, forall_eq']
      exact PeerSession.covered_modify hcovered fun _ => ⟨rfl, rfl⟩

/-- **Captured displays cover every window.** In any calls, after each of them every window
that issued a switch has its displays captured, if and only if each call leaves the others
their displays. -/
theorem covered_iff_keepsOthers {events : List (UiEvent SessionId)}
    (hrun : machine.Run machine.init events s) :
    (∀ first u, first <+: events → machine.Run machine.init first u →
      ∀ session ∈ u, session.Covered) ↔
      machine.RunWhere KeepsOthers machine.init events s := by
  have hinit : ∀ session ∈ (machine : Machine _ (UiEvent SessionId)).init, session.Covered := by
    rintro session hnone
    cases hnone
  refine Machine.runWhere_iff_invariant (fun s e t hstep hs => ?_) hinit hrun
  obtain rfl := Option.some.inj hstep
  exact covered_step_iff e hs

/-- The host's connection after a login: it captures the first display. -/
def demoLogin : DisplayConn where
  server := (Server.mk (OrderedMap.empty.set (getServiceName 0) videoService)).subscribe
    (getServiceName 0) 7 true
  id := 7
  displayIdx := 0
  followRemoteWindow := false
  supportsMultiUiSession := true
  multiUiSession := false
  primaryDisplayIdx := 0

/-- A window shows the displays 0 and 1, and another one switches to these and 2. -/
def keptWindows : List (UiEvent ℕ) :=
  [.insertSession 1 demoLogin, .sessionSwitchDisplay true true 1 [0, 1],
    .insertPeerSessionId 2 [2], .sessionSwitchDisplay true true 2 [0, 1, 2]]

/-- The peer after these calls. -/
def afterKeptWindows : Option (PeerSession ℕ) :=
  (machine.replay machine.init keptWindows).getD machine.init

/-- Along the run of two windows every step keeps the displays of the other one. -/
theorem keepsOthers_keptWindows :
    machine.RunWhere KeepsOthers machine.init keptWindows afterKeptWindows := by
  have hfirst (session : PeerSession ℕ) (hentries : session.handlers.entries.map Prod.fst = [1])
      (known : ℕ → Prop) : session.OthersShow 1 known := by
    refine PeerSession.othersShow_of_entries fun e he => .inl ?_
    have hmem : e.1 ∈ session.handlers.entries.map Prod.fst := List.mem_map_of_mem he
    rw [hentries] at hmem
    exact List.mem_singleton.mp hmem
  refine .cons trivial rfl <| .cons ?_ rfl <| .cons trivial rfl <| .single ?_ rfl
  · rintro session ⟨⟩ -
    exact hfirst _ rfl _
  · rintro session ⟨⟩ -
    refine PeerSession.othersShow_of_entries ?_
    rintro e he
    rcases List.mem_cons.mp he with rfl | he
    · exact .inr fun d hd => .inl (List.mem_of_mem_dropLast (l := [0, 1, 2]) hd)
    · exact .inl (congrArg Prod.fst (List.mem_singleton.mp he))

/-- The equivalence on that run, in which both windows stay covered. -/
theorem covered_iff_keepsOthers_keptWindows :
    ∃ session, afterKeptWindows = some session ∧ session.handlers.keys = [1, 2] ∧
      session.Covered :=
  ⟨_, rfl, rfl, (covered_iff_keepsOthers keepsOthers_keptWindows.run).mpr keepsOthers_keptWindows
    keptWindows _ (List.prefix_refl _) keepsOthers_keptWindows.run _ rfl⟩

/-- A window shows the displays 0 and 1, then another one switches to 2 and 3. -/
def twoWindows : List (UiEvent ℕ) :=
  [.insertSession 1 demoLogin, .sessionSwitchDisplay true true 1 [0, 1],
    .insertPeerSessionId 2 [2, 3], .sessionSwitchDisplay true true 2 [2, 3]]

/-- The peer after these calls. -/
def afterTwoWindows : PeerSession ℕ :=
  ((machine.replay machine.init twoWindows).bind id).getD ⟨OrderedMap.empty, demoLogin⟩

/-- A second window that switches takes the display of the first one away. -/
theorem not_covered_twoWindows :
    ¬ ∀ (events : List (UiEvent ℕ)) s, machine.Run machine.init events s →
      ∀ session ∈ s, session.Covered := by
  intro hall
  have hcovered := hall twoWindows (some afterTwoWindows) (Machine.run_of_replay rfl)
    afterTwoWindows rfl
  have hlost := hcovered 1 ⟨[0, 1], ⟨OrderedMap.empty⟩, true⟩ rfl rfl 0 (by simp)
  have hsubed := hlost.2
  revert hsubed
  decide

end UiEvent

end RdWeb.Client
