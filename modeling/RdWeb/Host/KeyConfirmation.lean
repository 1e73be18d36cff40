import RdWeb.Lib.Machine
import Mathlib.Algebra.Order.Ring.Int
import Mathlib.Data.List.Basic
import Mathlib.Data.List.Nodup

/-!
# Confirming the key with the rendezvous hosts

`rendezvous_mediator.rs`: one mediator for each host, all of them over one configuration and one
`SOLVING_PK_MISMATCH`. A response names neither the id nor the request it answers, so a mediator
handles an answer to any request its host was ever sent, any number of times. The requests are
numbered here to say what is answered.
-/

namespace RdWeb.Host

/-- `str::parse::<i32>().is_ok()`: an optional sign and digits, in range. -/
def parsesAsI32 (s : String) : Bool :=
  let value (digits : List Char) : ℕ := digits.foldl (fun n c => 10 * n + (c.toNat - 48)) 0
  match s.toList with
  | '-' :: digits => digits ≠ [] && digits.all Char.isDigit && decide (value digits ≤ 2 ^ 31)
  | '+' :: digits => digits ≠ [] && digits.all Char.isDigit && decide (value digits < 2 ^ 31)
  | digits => digits ≠ [] && digits.all Char.isDigit && decide (value digits < 2 ^ 31)

/-- The first label of a host name, or the whole of an address. -/
def getHostPrefix (host : String) : String :=
  let first := String.ofList (host.toList.takeWhile (· ≠ '.'))
  if parsesAsI32 first then host else first

/-- What the mediators read and write of `Config`. -/
structure RendezvousConfig where
  id : String
  keyConfirmed : Bool
  /-- the hosts `get_host_key_confirmed` says yes to -/
  confirmedHosts : List String
  deriving DecidableEq

namespace RendezvousConfig

/-- `set_key_confirmed`, which also clears the flags of the hosts when it clears its own. -/
def setKeyConfirmed (c : RendezvousConfig) (v : Bool) : RendezvousConfig :=
  { c with keyConfirmed := v, confirmedHosts := if v then c.confirmedHosts else [] }

/-- A host confirms the key, or does not. -/
def setHostKeyConfirmed (c : RendezvousConfig) (host : String) (v : Bool) : RendezvousConfig :=
  { c with confirmedHosts :=
      if v then host :: c.confirmedHosts else c.confirmedHosts.filter (· ≠ host) }

/-- A host has confirmed the key. -/
def getHostKeyConfirmed (c : RendezvousConfig) (host : String) : Bool := host ∈ c.confirmedHosts

end RendezvousConfig

/-- `register_pk_response::Result`, as far as it is told apart. -/
inductive RegisterPkResult
  | ok
  | uuidMismatch
  | other
  deriving DecidableEq

/-- The mediators, what they sent and what the hosts answered. -/
structure Mediators where
  config : RendezvousConfig
  /-- `SOLVING_PK_MISMATCH` -/
  solving : String
  /-- the `RegisterPk` requests, each with its host and id -/
  requests : List (String × String)
  /-- the `RegisterPeer` requests -/
  peerRequests : List (String × String)
  /-- the results the hosts gave, each with the number of the request -/
  answers : List (ℕ × RegisterPkResult)
  /-- the requests whose rejection changed the id -/
  changes : List ℕ
  /-- whom an `OK` took out of `SOLVING_PK_MISMATCH`, and whose `OK` it was -/
  cleared : List (String × String)
  deriving DecidableEq

/-- The requests, the answers and the timers. -/
inductive MediatorEvent
  /-- the timer of `start_udp` -/
  | registerPeer (host : String)
  /-- the timer of `start_tcp` -/
  | tcpTick (host : String)
  /-- `start_tcp` begins -/
  | startTcp (host : String)
  /-- a `RegisterPeerResponse` with `request_pk` -/
  | requestPk (host : String)
  /-- a host answers a request; the answer may arrive at any time, and more than once -/
  | answer (request : ℕ) (result : RegisterPkResult)
  /-- a mediator handles an answer; `newId` is what `update_id` draws -/
  | response (request : ℕ) (result : RegisterPkResult) (newId : String)
  /-- `start_all` starts over -/
  | restart
  deriving DecidableEq

namespace Mediators

/-- `register_pk`. -/
def registerPk (s : Mediators) (host : String) : Mediators :=
  { s with requests := s.requests ++ [(host, s.config.id)] }

/-- Whether `SOLVING_PK_MISMATCH` leaves a host its turn. -/
def MaySolve (s : Mediators) (host : String) : Prop := s.solving = "" ∨ s.solving = host

/-- Whether a host may be solving is decided by who solves. -/
instance (s : Mediators) (host : String) : Decidable (s.MaySolve host) :=
  inferInstanceAs (Decidable (_ ∨ _))

/-- The timer of a host, which asks for a registration of the key unless it is confirmed. -/
def registerPeer (s : Mediators) (host : String) : Mediators :=
  if ¬ s.MaySolve host then s
  else if !s.config.keyConfirmed || !s.config.getHostKeyConfirmed (getHostPrefix host) then
    s.registerPk host
  else { s with peerRequests := s.peerRequests ++ [(host, s.config.id)] }

/-- The registration in the loop of `start_tcp`, which asks for the flag of the whole host name. -/
def tcpTick (s : Mediators) (host : String) : Mediators :=
  if !s.config.keyConfirmed || !s.config.getHostKeyConfirmed host then s.registerPk host else s

/-- A host that knows another key: the id changes, and no confirmation stays. -/
def handleUuidMismatch (s : Mediators) (host : String) (request : ℕ) (newId : String) :
    Mediators :=
  if s.MaySolve host then
    { s with
      config := { s.config.setKeyConfirmed false with id := newId }
      solving := host
      changes := s.changes ++ [request] }.registerPk host
  else s

/-- The `OK` branch of `handle_resp`. -/
def handleOk (s : Mediators) (host : String) : Mediators :=
  { s with
    config := (s.config.setKeyConfirmed true).setHostKeyConfirmed (getHostPrefix host) true
    solving := ""
    cleared := if s.solving = "" then s.cleared else s.cleared ++ [(s.solving, host)] }

/-- `handle_resp` on a `RegisterPkResponse`. -/
def handleResp (s : Mediators) (host : String) (request : ℕ) (newId : String) :
    RegisterPkResult → Mediators
  | .ok => s.handleOk host
  | .uuidMismatch => s.handleUuidMismatch host request newId
  | .other => s

/-- One step of the mediators of these hosts. -/
def step (hosts : List String) (s : Mediators) : MediatorEvent → Option Mediators
  | .registerPeer host => if host ∈ hosts then some (s.registerPeer host) else none
  | .tcpTick host => if host ∈ hosts then some (s.tcpTick host) else none
  | .startTcp host =>
    if host ∈ hosts then some { s with config := s.config.setHostKeyConfirmed host false }
    else none
  | .requestPk host => if host ∈ hosts then some (s.registerPk host) else none
  | .answer request result =>
    if request < s.requests.length then some { s with answers := s.answers ++ [(request, result)] }
    else none
  | .response request result newId =>
    if (request, result) ∈ s.answers then
      s.requests[request]?.map fun sent => s.handleResp sent.1 request newId result
    else none
  | .restart => some { s with solving := "" }

/-- The mediators of some hosts, before anything was confirmed. -/
def machine (hosts : List String) (id : String) : Machine Mediators MediatorEvent :=
  ⟨⟨⟨id, false, []⟩, "", [], [], [], [], []⟩, step hosts⟩

/-- The host has answered `OK` to a `RegisterPk` that carried the current id. -/
def AnsweredOk (s : Mediators) (host : String) : Prop :=
  ∃ request, s.requests[request]? = some (host, s.config.id) ∧ (request, .ok) ∈ s.answers

/-- Key confirmation is for the current id. -/
structure Confirmed (hosts : List String) (s : Mediators) : Prop where
  flags_answered : ∀ host ∈ hosts, s.config.keyConfirmed = true →
    s.config.getHostKeyConfirmed (getHostPrefix host) = true → s.AnsweredOk host
  cleared_own : ∀ c ∈ s.cleared, c.1 = c.2
  changes_once : s.changes.Nodup
  changes_rejected : ∀ request ∈ s.changes, (request, .uuidMismatch) ∈ s.answers

/-- An `OK` is handled while its host may solve, and after every host with its prefix answered
`OK` for the current id; a rejection that is acted on was not acted on before. -/
def Timely (hosts : List String) (s : Mediators) : MediatorEvent → Prop
  | .response request .ok _ => ∀ host id, s.requests[request]? = some (host, id) →
      s.MaySolve host ∧ ∀ other ∈ hosts, getHostPrefix other = getHostPrefix host →
        s.AnsweredOk other
  | .response request .uuidMismatch _ => ∀ host id, s.requests[request]? = some (host, id) →
      s.MaySolve host → request ∉ s.changes
  | _ => True

/-- Without the key no host is confirmed, and requests go to the hosts only. -/
structure Kept (hosts : List String) (s : Mediators) : Prop where
  unconfirmed : s.config.keyConfirmed = false → s.config.confirmedHosts = []
  to_hosts : ∀ r ∈ s.requests, r.1 ∈ hosts

variable {hosts : List String} {s t : Mediators}

/-- Answers stay answers while the id is kept. -/
theorem AnsweredOk.mono {host : String} (h : s.AnsweredOk host) (hid : t.config.id = s.config.id)
    (hrequests : s.requests <+: t.requests) (hanswers : s.answers <+: t.answers) :
    t.AnsweredOk host := by
  obtain ⟨request, hrequest, hok⟩ := h
  refine ⟨request, ?_, hanswers.subset hok⟩
  obtain ⟨more, hmore⟩ := hrequests
  rw [hid, ← hmore, List.getElem?_append_left (List.getElem?_eq_some_iff.mp hrequest).1]
  exact hrequest

/-- A step that changes no flag, id or history keeps the confirmations. -/
theorem Confirmed.keep (h : s.Confirmed hosts) (hid : t.config.id = s.config.id)
    (hkey : t.config.keyConfirmed = s.config.keyConfirmed)
    (hflags : t.config.confirmedHosts ⊆ s.config.confirmedHosts)
    (hrequests : s.requests <+: t.requests) (hanswers : s.answers <+: t.answers)
    (hchanges : t.changes = s.changes) (hcleared : t.cleared = s.cleared) :
    t.Confirmed hosts where
  flags_answered host hhost hconfirmed hflag := by
    have hold : s.config.getHostKeyConfirmed (getHostPrefix host) = true := by
      unfold RendezvousConfig.getHostKeyConfirmed at hflag ⊢
      simpa using hflags (by simpa using hflag)
    exact (h.flags_answered host hhost (hkey ▸ hconfirmed) hold).mono hid hrequests hanswers
  cleared_own := hcleared ▸ h.cleared_own
  changes_once := hchanges ▸ h.changes_once
  changes_rejected request hrequest :=
    hanswers.subset (h.changes_rejected request (hchanges ▸ hrequest))

/-- A request to register the key takes no confirmation away. -/
theorem Confirmed.registerPk (h : s.Confirmed hosts) (host : String) :
    (s.registerPk host).Confirmed hosts :=
  h.keep rfl rfl (List.Subset.refl _) (List.prefix_append _ _) List.prefix_rfl rfl rfl

/-- Nor does the timer of a host. -/
theorem Confirmed.registerPeer (h : s.Confirmed hosts) (host : String) :
    (s.registerPeer host).Confirmed hosts := by
  unfold Mediators.registerPeer
  split
  · exact h
  · split
    · exact h.registerPk host
    · exact h.keep rfl rfl (List.Subset.refl _) List.prefix_rfl List.prefix_rfl rfl rfl

/-- Nor does a tick of its connection. -/
theorem Confirmed.tcpTick (h : s.Confirmed hosts) (host : String) :
    (s.tcpTick host).Confirmed hosts := by
  unfold Mediators.tcpTick
  split_ifs
  · exact h.registerPk host
  · exact h

/-- **An `OK`** keeps the confirmations if and only if it is handled in time. -/
theorem confirmed_handleOk_iff (h : s.Confirmed hosts) (hkept : s.Kept hosts) (host : String) :
    (s.handleOk host).Confirmed hosts ↔
      s.MaySolve host ∧ ∀ other ∈ hosts, getHostPrefix other = getHostPrefix host →
        s.AnsweredOk other := by
  constructor
  · intro hafter
    constructor
    · by_cases hsolving : s.solving = ""
      · exact Or.inl hsolving
      · refine Or.inr (hafter.cleared_own (s.solving, host) ?_)
        simp [handleOk, hsolving]
    · intro other hother hsame
      refine (hafter.flags_answered other hother rfl ?_).mono rfl List.prefix_rfl List.prefix_rfl
      simp [handleOk, RendezvousConfig.getHostKeyConfirmed, RendezvousConfig.setHostKeyConfirmed,
        hsame]
  · rintro ⟨hsolve, hanswered⟩
    refine ⟨?_, ?_, h.changes_once, h.changes_rejected⟩
    · intro other hother _ hflag
      have hcases : getHostPrefix other = getHostPrefix host ∨
          getHostPrefix other ∈ s.config.confirmedHosts := by
        simpa [handleOk, RendezvousConfig.getHostKeyConfirmed, RendezvousConfig.setKeyConfirmed,
          RendezvousConfig.setHostKeyConfirmed] using hflag
      have hold : s.AnsweredOk other := by
        rcases hcases with hsame | hmem
        · exact hanswered other hother hsame
        · refine h.flags_answered other hother ?_
            (by simpa [RendezvousConfig.getHostKeyConfirmed] using hmem)
          by_contra hunconfirmed
          rw [hkept.unconfirmed (by simpa using hunconfirmed)] at hmem
          cases hmem
      exact hold.mono rfl List.prefix_rfl List.prefix_rfl
    · intro c hc
      simp only [handleOk] at hc
      split_ifs at hc with hsolving
      · exact h.cleared_own c hc
      · rcases List.mem_append.mp hc with hold | hnew
        · exact h.cleared_own c hold
        · obtain rfl := List.mem_singleton.mp hnew
          exact hsolve.resolve_left hsolving

/-- **A rejection** keeps the confirmations if and only if it is the first one of its request
that is acted on. -/
theorem confirmed_handleUuidMismatch_iff (h : s.Confirmed hosts) {host newId : String}
    {request : ℕ} (hanswer : (request, .uuidMismatch) ∈ s.answers) :
    (s.handleUuidMismatch host request newId).Confirmed hosts ↔
      (s.MaySolve host → request ∉ s.changes) := by
  unfold handleUuidMismatch
  split_ifs with hsolve
  · constructor
    · intro hafter _
      have hnodup : (s.changes ++ [request]).Nodup := hafter.changes_once
      intro hmem
      exact List.disjoint_of_nodup_append hnodup hmem (List.mem_singleton_self _)
    · intro hnew
      refine ⟨fun _ _ hconfirmed => ?_, h.cleared_own, ?_, ?_⟩
      · simp [registerPk, RendezvousConfig.setKeyConfirmed] at hconfirmed
      · exact List.concat_eq_append ▸ h.changes_once.concat (hnew hsolve)
      · intro r hr
        rcases List.mem_append.mp hr with hold | hlast
        · exact h.changes_rejected r hold
        · obtain rfl := List.mem_singleton.mp hlast
          exact hanswer
  · exact iff_of_true h fun hother => absurd hother hsolve

/-- **One step** keeps the confirmations if and only if it is timely. -/
theorem confirmed_step_iff {e : MediatorEvent} (hstep : step hosts s e = some t)
    (hkept : s.Kept hosts) (h : s.Confirmed hosts) : t.Confirmed hosts ↔ s.Timely hosts e := by
  cases e with
  | registerPeer host =>
    simp only [step] at hstep
    split_ifs at hstep
    obtain rfl := Option.some.inj hstep
    exact iff_of_true (h.registerPeer host) trivial
  | tcpTick host =>
    simp only [step] at hstep
    split_ifs at hstep
    obtain rfl := Option.some.inj hstep
    exact iff_of_true (h.tcpTick host) trivial
  | startTcp host =>
    simp only [step] at hstep
    split_ifs at hstep
    obtain rfl := Option.some.inj hstep
    exact iff_of_true (h.keep rfl rfl List.filter_sublist.subset List.prefix_rfl List.prefix_rfl
      rfl rfl) trivial
  | requestPk host =>
    simp only [step] at hstep
    split_ifs at hstep
    obtain rfl := Option.some.inj hstep
    exact iff_of_true (h.registerPk host) trivial
  | answer request result =>
    simp only [step] at hstep
    split_ifs at hstep
    obtain rfl := Option.some.inj hstep
    exact iff_of_true (h.keep rfl rfl (List.Subset.refl _) List.prefix_rfl (List.prefix_append _ _)
      rfl rfl) trivial
  | response request result newId =>
    simp only [step] at hstep
    split_ifs at hstep with hanswer
    obtain ⟨⟨host, id⟩, hrequest, rfl⟩ := Option.map_eq_some_iff.mp hstep
    cases result with
    | ok =>
      simp only [handleResp, Timely, hrequest, Option.some.injEq, Prod.mk.injEq]
      rw [confirmed_handleOk_iff h hkept]
      constructor
      · rintro hok _ _ ⟨rfl, rfl⟩
        exact hok
      · exact fun hok => hok host id ⟨rfl, rfl⟩
    | uuidMismatch =>
      simp only [handleResp, Timely, hrequest, Option.some.injEq, Prod.mk.injEq]
      rw [confirmed_handleUuidMismatch_iff h hanswer]
      constructor
      · rintro hok _ _ ⟨rfl, rfl⟩
        exact hok
      · exact fun hok => hok host id ⟨rfl, rfl⟩
    | other => exact iff_of_true h trivial
  | restart =>
    obtain rfl := Option.some.inj hstep
    exact iff_of_true (h.keep rfl rfl (List.Subset.refl _) List.prefix_rfl List.prefix_rfl
      rfl rfl) trivial

/-- A request to register the key keeps the mediators. -/
theorem Kept.registerPk (h : s.Kept hosts) {host : String} (hhost : host ∈ hosts) :
    (s.registerPk host).Kept hosts := by
  refine ⟨h.unconfirmed, fun r hr => ?_⟩
  rcases List.mem_append.mp hr with hold | hnew
  · exact h.to_hosts r hold
  · obtain rfl := List.mem_singleton.mp hnew
    exact hhost

/-- **One step** keeps the mediators. -/
theorem Kept.step {e : MediatorEvent} (h : s.Kept hosts)
    (hstep : Mediators.step hosts s e = some t) : t.Kept hosts := by
  cases e with
  | registerPeer host =>
    simp only [Mediators.step] at hstep
    split_ifs at hstep with hhost
    obtain rfl := Option.some.inj hstep
    unfold Mediators.registerPeer
    split
    · exact h
    · split
      · exact h.registerPk hhost
      · exact ⟨h.unconfirmed, h.to_hosts⟩
  | tcpTick host =>
    simp only [Mediators.step] at hstep
    split_ifs at hstep with hhost
    obtain rfl := Option.some.inj hstep
    unfold Mediators.tcpTick
    split_ifs
    · exact h.registerPk hhost
    · exact h
  | startTcp host =>
    simp only [Mediators.step] at hstep
    split_ifs at hstep
    obtain rfl := Option.some.inj hstep
    refine ⟨fun hkey => ?_, h.to_hosts⟩
    show s.config.confirmedHosts.filter (· ≠ host) = []
    rw [h.unconfirmed hkey]
    rfl
  | requestPk host =>
    simp only [Mediators.step] at hstep
    split_ifs at hstep with hhost
    obtain rfl := Option.some.inj hstep
    exact h.registerPk hhost
  | answer request result =>
    simp only [Mediators.step] at hstep
    split_ifs at hstep
    obtain rfl := Option.some.inj hstep
    exact ⟨h.unconfirmed, h.to_hosts⟩
  | response request result newId =>
    simp only [Mediators.step] at hstep
    split_ifs at hstep
    obtain ⟨⟨host, id⟩, hrequest, rfl⟩ := Option.map_eq_some_iff.mp hstep
    have hhost : host ∈ hosts := h.to_hosts _ (List.mem_of_getElem? hrequest)
    cases result with
    | ok =>
      refine ⟨fun hkey => ?_, h.to_hosts⟩
      cases hkey
    | uuidMismatch =>
      simp only [handleResp, handleUuidMismatch]
      split_ifs
      · refine Kept.registerPk (s := { s with
          config := { s.config.setKeyConfirmed false with id := newId }
          solving := host
          changes := s.changes ++ [request] }) ⟨fun _ => ?_, h.to_hosts⟩ hhost
        simp [RendezvousConfig.setKeyConfirmed]
      · exact h
    | other => exact h
  | restart =>
    obtain rfl := Option.some.inj hstep
    exact ⟨h.unconfirmed, h.to_hosts⟩

/-- **Key confirmation is for the current id.** For any hosts and any interleaving of requests,
answers and late or repeated responses, the confirmations hold all along if and only if every
response is handled in time. -/
theorem confirmed_iff_timely (id : String) {events : List MediatorEvent}
    (hrun : (machine hosts id).Run (machine hosts id).init events s) :
    (∀ first u, first <+: events → (machine hosts id).Run (machine hosts id).init first u →
      u.Confirmed hosts) ↔
      (machine hosts id).RunWhere (Timely hosts) (machine hosts id).init events s := by
  have hkept : (machine hosts id).init.Kept hosts :=
    ⟨fun _ => rfl, fun r hr => by cases hr⟩
  have hconfirmed : (machine hosts id).init.Confirmed hosts := by
    refine ⟨fun _ _ hkey => ?_, ?_, List.nodup_nil, ?_⟩
    · cases hkey
    · intro c hc
      cases hc
    · intro request hrequest
      cases hrequest
  exact Machine.runWhere_iff_beside (M := machine hosts id) (fun _ _ _ hstep h => h.step hstep)
    (fun _ _ _ hstep h hs => confirmed_step_iff hstep h hs) hkept hconfirmed hrun

/-- Two hosts with names of their own. -/
def demoHosts : List String := ["rs-ny.example:21116", "rs-sg.example:21116"]

/-- The first host rejects the id, and then accepts the new one. -/
def solved : List MediatorEvent :=
  [.registerPeer "rs-ny.example:21116", .answer 0 .uuidMismatch, .response 0 .uuidMismatch "2",
    .answer 1 .ok, .registerPeer "rs-sg.example:21116", .response 1 .ok "3",
    .registerPeer "rs-sg.example:21116", .answer 2 .ok, .response 2 .ok "3"]

/-- The mediators after these steps. -/
def afterSolved : Mediators :=
  ((machine demoHosts "1").replay (machine demoHosts "1").init solved).getD
    (machine demoHosts "1").init

/-- The equivalence on a run that solves a mismatch. -/
theorem confirmed_iff_timely_solved :
    (∀ first u, first <+: solved →
      (machine demoHosts "1").Run (machine demoHosts "1").init first u → u.Confirmed demoHosts) ↔
      (machine demoHosts "1").RunWhere (Timely demoHosts) (machine demoHosts "1").init solved
        afterSolved :=
  confirmed_iff_timely "1" (Machine.run_of_replay rfl)

/-- Both hosts are asked about the first id; the first one rejects it, and the `OK` of the second
one comes after the id was changed. -/
def lateOk : List MediatorEvent :=
  [.registerPeer "rs-ny.example:21116", .registerPeer "rs-sg.example:21116",
    .answer 0 .uuidMismatch, .answer 1 .ok, .response 0 .uuidMismatch "2", .response 1 .ok "3"]

/-- The mediators after these steps. -/
def afterLateOk : Mediators :=
  ((machine demoHosts "1").replay (machine demoHosts "1").init lateOk).getD
    (machine demoHosts "1").init

/-- An answer that comes late confirms the key of another id. -/
theorem not_confirmed_lateOk :
    ¬ ∀ hosts id events s, (machine hosts id).Run (machine hosts id).init events s →
      s.Confirmed hosts := by
  intro hall
  have hconfirmed := hall demoHosts "1" lateOk afterLateOk (Machine.run_of_replay rfl)
  have hcleared := hconfirmed.cleared_own ("rs-ny.example:21116", "rs-sg.example:21116")
    (by decide)
  revert hcleared
  decide

end Mediators

end RdWeb.Host
