import RdWeb.Host.KeyConfirmation
import Mathlib.Data.BitVec
import Mathlib.Data.List.TakeWhile

/-!
# Registering over TCP

`start_tcp` of `rendezvous_mediator.rs`, for one host, beside the mediators of the others. Its
timer registers until the key and the host are confirmed. An `OK` confirms the first label of the
host, but the timer asks for the whole of it, so where they differ it never stops registering.
-/

namespace RdWeb.Host

/-- What stands before the first dot of a host. -/
def firstLabel (host : String) : String := String.ofList (host.toList.takeWhile (· ≠ '.'))

/-- A host without a dot, or with a number before the first one. -/
def Undivided (host : String) : Prop :=
  '.' ∉ host.toList ∨ parsesAsI32 (firstLabel host) = true

/-- Whether a host is undivided is decided by its text. -/
instance (host : String) : Decidable (Undivided host) := inferInstanceAs (Decidable (_ ∨ _))

/-- The first label of a host is the host if there is no dot. -/
theorem firstLabel_eq_self_iff {host : String} : firstLabel host = host ↔ '.' ∉ host.toList := by
  have hlists : firstLabel host = host ↔ host.toList.takeWhile (· ≠ '.') = host.toList := by
    rw [firstLabel, ← String.toList_inj, String.toList_ofList]
  rw [hlists, List.takeWhile_eq_self_iff]
  constructor
  · intro hall hdot
    simpa using hall '.' hdot
  · intro hdot c hc
    have hne : c ≠ '.' := fun h => hdot (h ▸ hc)
    simpa using hne

/-- The prefix of a host is the host or its first label. -/
theorem getHostPrefix_eq_ite (host : String) :
    getHostPrefix host = if parsesAsI32 (firstLabel host) then host else firstLabel host :=
  rfl

/-- **The undivided hosts** are those that are their own prefix. -/
theorem getHostPrefix_eq_self_iff {host : String} :
    getHostPrefix host = host ↔ Undivided host := by
  rw [getHostPrefix_eq_ite, Undivided]
  split_ifs with hnumber
  · exact iff_of_true rfl (Or.inr hnumber)
  · rw [firstLabel_eq_self_iff]
    exact (or_iff_left hnumber).symm

/-- A prefix is undivided. -/
theorem undivided_getHostPrefix (host : String) : Undivided (getHostPrefix host) := by
  rw [getHostPrefix_eq_ite]
  split_ifs with hnumber
  · exact Or.inr hnumber
  · left
    rw [firstLabel, String.toList_ofList]
    intro hdot
    simpa using List.mem_takeWhile_imp hdot

namespace RendezvousConfig

/-- A key that is no longer confirmed is confirmed by no host. -/
@[simp]
theorem getHostKeyConfirmed_setKeyConfirmed (c : RendezvousConfig) (v : Bool) (host : String) :
    (c.setKeyConfirmed v).getHostKeyConfirmed host = (v && c.getHostKeyConfirmed host) := by
  cases v <;> simp [setKeyConfirmed, getHostKeyConfirmed]

/-- A confirmation of one host leaves the others. -/
@[simp]
theorem getHostKeyConfirmed_setHostKeyConfirmed (c : RendezvousConfig) (host : String) (v : Bool)
    (other : String) :
    (c.setHostKeyConfirmed host v).getHostKeyConfirmed other =
      if other = host then v else c.getHostKeyConfirmed other := by
  cases v <;> by_cases hsame : other = host <;>
    simp [setHostKeyConfirmed, getHostKeyConfirmed, hsame]

end RendezvousConfig

/-- `rendezvous_message::Union`, with what `handle_resp` does itself. `newServers` tells whether
the servers of a `ConfigureUpdate` differ from those of the configuration. -/
inductive RendezvousUnion
  | registerPeerResponse (requestPk : Bool)
  | registerPkResponse (result : RegisterPkResult) (keepAlive : BitVec 32)
  | punchHole
  | requestRelay
  | fetchLocalAddr
  | configureUpdate (newServers : Bool)
  | other
  deriving DecidableEq

/-- A mediator in the loop of `start_tcp`, with the configuration and the `SOLVING_PK_MISMATCH` it
shares with the others. Times are in milliseconds. `sent` has the ids of the `RegisterPk` it gave
to its connection. `settled` is no variable of the code: an `OK` was handled, and since then there
was no `UUID_MISMATCH` and nothing took a confirmation back. -/
structure TcpMediator where
  host : String
  hostPrefix : String
  keepAlive : BitVec 32
  lastRegisterSent : Option ℕ
  lastRecvMsg : ℕ
  now : ℕ
  config : RendezvousConfig
  solving : String
  shouldExit : Bool
  running : Bool
  sent : List String
  settled : Bool
  deriving DecidableEq

/-- What happens in the loop and beside it. `delivered` tells whether a send works, where there is
one, and `newId` is what `update_id` draws. -/
inductive TcpEvent
  | tick (delivered : Bool)
  | heartbeat (delivered : Bool)
  | message (msg : RendezvousUnion) (newId : String) (delivered : Bool)
  /-- the connection ends, or sends what is no message -/
  | failed
  | elapse (ms : ℕ)
  /-- another mediator ends, or a restart is asked for -/
  | setShouldExit
  /-- `set_key_confirmed(false)` elsewhere, and `set_id` where there is an id -/
  | resetKey (id : Option String)
  /-- the mediator of another host: it begins, and has an `OK` or a `UUID_MISMATCH` -/
  | otherStartTcp (host : String)
  | otherOk (host : String)
  | otherMismatch (host newId : String)
  deriving DecidableEq

namespace TcpMediator

/-- `DEFAULT_KEEP_ALIVE`. -/
def DEFAULT_KEEP_ALIVE : BitVec 32 := 60000

/-- `start_tcp` up to its loop; `host` is what `check_port` has made of the host. -/
def start (host : String) (config : RendezvousConfig) (solving : String) : TcpMediator where
  host := host
  hostPrefix := getHostPrefix host
  keepAlive := DEFAULT_KEEP_ALIVE
  lastRegisterSent := none
  lastRecvMsg := 0
  now := 0
  config := config.setHostKeyConfirmed host false
  solving := solving
  shouldExit := false
  running := true
  sent := []
  settled := false

/-- `register_pk`, which ends the loop where the send fails. -/
def registerPk (s : TcpMediator) (delivered : Bool) : TcpMediator :=
  { s with sent := s.sent ++ [s.config.id], running := s.running && delivered }

/-- `x.elapsed().as_millis()` for an instant of before. -/
def elapsed (s : TcpMediator) (x : ℕ) : BitVec 64 := BitVec.ofNat 64 (s.now - x)

/-- Nothing was received for one and a half times the `keep_alive`. -/
def timedOut (s : TcpMediator) : Bool :=
  decide (s.elapsed s.lastRecvMsg > s.keepAlive.signExtend 64 * 3 / 2)

/-- The time since the last registration, or `REG_INTERVAL`. -/
def sinceRegister (regInterval : ℤ) (s : TcpMediator) : ℤ :=
  (s.lastRegisterSent.map fun x => (s.elapsed x).toInt).getD regInterval

/-- The timer of `start_tcp`. -/
def tick (regInterval : ℤ) (s : TcpMediator) (delivered : Bool) : TcpMediator :=
  if s.shouldExit then { s with running := false }
  else if s.timedOut then { s with running := false }
  else if (!s.config.keyConfirmed || !s.config.getHostKeyConfirmed s.host) &&
      decide (s.sinceRegister regInterval ≥ regInterval) then
    let s := s.registerPk delivered
    if delivered then { s with lastRegisterSent := some s.now } else s
  else s

/-- `handle_uuid_mismatch`. -/
def handleUuidMismatch (s : TcpMediator) (newId : String) (delivered : Bool) : TcpMediator :=
  if s.solving = "" ∨ s.solving = s.host then
    { s with
      config := { s.config.setKeyConfirmed false with id := newId }
      solving := s.host }.registerPk delivered
  else s

/-- `handle_resp` on the result of a `RegisterPkResponse`. -/
def handleResult (s : TcpMediator) (newId : String) (delivered : Bool) :
    RegisterPkResult → TcpMediator
  | .ok =>
    { s with
      config := (s.config.setKeyConfirmed true).setHostKeyConfirmed s.hostPrefix true
      solving := ""
      settled := true }
  | .uuidMismatch => { s with settled := false }.handleUuidMismatch newId delivered
  | .other => s

/-- What `handle_resp` does last on a `RegisterPkResponse`, unless a send has failed. -/
def updateKeepAlive (s : TcpMediator) (keepAlive : BitVec 32) : TcpMediator :=
  if s.running ∧ keepAlive.toInt > 0 then { s with keepAlive := keepAlive * 1000 } else s

/-- `handle_resp`. What it starts for a `PunchHole`, a `RequestRelay` or a `FetchLocalAddr` runs on
its own. -/
def handleResp (s : TcpMediator) (newId : String) (delivered : Bool) :
    RendezvousUnion → TcpMediator
  | .registerPeerResponse requestPk => if requestPk then s.registerPk delivered else s
  | .registerPkResponse result keepAlive =>
    (s.handleResult newId delivered result).updateKeepAlive keepAlive
  | .configureUpdate newServers => if newServers then { s with shouldExit := true } else s
  | .punchHole | .requestRelay | .fetchLocalAddr | .other => s

/-- `last_recv_msg = Instant::now()`. -/
def receive (s : TcpMediator) : TcpMediator := { s with lastRecvMsg := s.now }

/-- `start_tcp` of another host clears its flag; that takes a confirmation back where the flag is
one of this mediator's. -/
def otherStartTcp (s : TcpMediator) (host : String) : TcpMediator :=
  { s with
    config := s.config.setHostKeyConfirmed host false
    settled := s.settled && host ≠ s.host && host ≠ s.hostPrefix }

/-- Another connection got a confirmation. -/
def otherOk (s : TcpMediator) (host : String) : TcpMediator :=
  { s with
    config := (s.config.setKeyConfirmed true).setHostKeyConfirmed (getHostPrefix host) true
    solving := "" }

/-- The key is to be confirmed again, under a new id if there is one. -/
def resetKey (s : TcpMediator) (id : Option String) : TcpMediator :=
  { s with
    config := { s.config.setKeyConfirmed false with id := id.getD s.config.id }
    settled := false }

/-- Another connection got a mismatch, and solves it if nobody else does. -/
def otherMismatch (s : TcpMediator) (host newId : String) : TcpMediator :=
  if s.solving = "" ∨ s.solving = host then { s.resetKey (some newId) with solving := host } else s

/-- One step of the connection, while it runs. -/
def step (regInterval : ℤ) (s : TcpMediator) : TcpEvent → Option TcpMediator
  | .tick delivered => if s.running then some (s.tick regInterval delivered) else none
  | .heartbeat delivered =>
    if s.running then some { s.receive with running := delivered } else none
  | .message msg newId delivered =>
    if s.running then some (s.receive.handleResp newId delivered msg) else none
  | .failed => if s.running then some { s.receive with running := false } else none
  | .elapse ms => some { s with now := s.now + ms }
  | .setShouldExit => some { s with shouldExit := true }
  | .resetKey id => some (s.resetKey id)
  | .otherStartTcp host => some (s.otherStartTcp host)
  | .otherOk host => some (s.otherOk host)
  | .otherMismatch host newId => some (s.otherMismatch host newId)

/-- `start_tcp` on a host of the configuration; `checkPort` is `check_port` with
`RENDEZVOUS_PORT`. -/
def machine (checkPort : String → String) (regInterval : ℤ) (host : String)
    (config : RendezvousConfig) (solving : String) : Machine TcpMediator TcpEvent :=
  ⟨start (checkPort host) config solving, step regInterval⟩

/-- A settled mediator sends no `RegisterPk` in a step that leaves it settled. -/
def NoFurther (s t : TcpMediator) : Prop :=
  s.settled = true → t.settled = true → t.sent = s.sent

/-- A tick comes to the registration, and the last one was long enough ago. -/
def Due (regInterval : ℤ) (s : TcpMediator) : Prop :=
  s.shouldExit = false ∧ s.timedOut = false ∧ regInterval ≤ s.sinceRegister regInterval

/-- While the mediator is settled a registration comes due only for an undivided host, and the
server does not ask for the key. -/
def KeepsQuiet (regInterval : ℤ) (s : TcpMediator) : TcpEvent → Prop
  | .tick _ => s.settled = true → s.Due regInterval → Undivided s.host
  | .message (.registerPeerResponse true) _ _ => s.settled = false
  | _ => True

/-- Whether a registration is due is decided by the clock and the flags. -/
instance (regInterval : ℤ) (s : TcpMediator) : Decidable (s.Due regInterval) :=
  inferInstanceAs (Decidable (_ ∧ _ ∧ _))

/-- Whether a step keeps quiet is decided by what is due. -/
instance (regInterval : ℤ) (s : TcpMediator) : ∀ e, Decidable (KeepsQuiet regInterval s e)
  | .tick _ => inferInstanceAs (Decidable (_ → _ → _))
  | .message (.registerPeerResponse true) _ _ => inferInstanceAs (Decidable (_ = _))
  | .message (.registerPeerResponse false) _ _ | .message (.registerPkResponse _ _) _ _
  | .message .punchHole _ _ | .message .requestRelay _ _ | .message .fetchLocalAddr _ _
  | .message (.configureUpdate _) _ _ | .message .other _ _ | .heartbeat _ | .failed | .elapse _
  | .setShouldExit | .resetKey _ | .otherStartTcp _ | .otherOk _ | .otherMismatch _ _ =>
    isTrue trivial

/-- The server asks for the key, and `handle_resp` sends it. -/
def AsksForKey : TcpEvent → Prop
  | .message (.registerPeerResponse true) _ _ => True
  | _ => False

/-- What the flags are worth: a settled mediator has the flag its `OK` has set, and nobody sets
the flag of a host that is not undivided. -/
structure Flags (host : String) (s : TcpMediator) : Prop where
  host_eq : s.host = host
  prefix_eq : s.hostPrefix = getHostPrefix host
  settled_key : s.settled = true → s.config.keyConfirmed = true
  settled_prefix : s.settled = true → s.config.getHostKeyConfirmed s.hostPrefix = true
  divided : ¬ Undivided host → s.config.getHostKeyConfirmed host = false

variable {s t : TcpMediator} {regInterval : ℤ} {host : String}

/-- What changes no flag keeps what they are worth. -/
theorem Flags.keep (h : s.Flags host) (hhost : t.host = s.host)
    (hlabel : t.hostPrefix = s.hostPrefix) (hconfig : t.config = s.config)
    (hsettled : t.settled = s.settled) : t.Flags host := by
  refine ⟨hhost.trans h.host_eq, hlabel.trans h.prefix_eq, ?_, ?_, ?_⟩
  · rw [hsettled, hconfig]
    exact h.settled_key
  · rw [hsettled, hconfig, hlabel]
    exact h.settled_prefix
  · rw [hconfig]
    exact h.divided

/-- What takes the confirmation back and sets no flag keeps what the flags are worth. -/
theorem Flags.unsettle (h : s.Flags host) (hhost : t.host = s.host)
    (hlabel : t.hostPrefix = s.hostPrefix) (hsettled : t.settled = false)
    (hflags : t.config.getHostKeyConfirmed host = true →
      s.config.getHostKeyConfirmed host = true) : t.Flags host := by
  refine ⟨hhost.trans h.host_eq, hlabel.trans h.prefix_eq, ?_, ?_, ?_⟩
  · intro hset
    exact absurd hset (by simp [hsettled])
  · intro hset
    exact absurd hset (by simp [hsettled])
  · intro hdivided
    rw [← Bool.not_eq_true]
    intro hflag
    exact absurd (hflags hflag) (by simp [h.divided hdivided])

/-- A connection starts with its flags in order. -/
theorem Flags.start (host : String) (config : RendezvousConfig) (solving : String) :
    (start host config solving).Flags host := by
  refine ⟨rfl, rfl, ?_, ?_, ?_⟩
  · intro hset
    cases hset
  · intro hset
    cases hset
  · intro _
    simp [TcpMediator.start]

/-- A settled mediator finds the flag of the whole host exactly where the host is undivided. -/
theorem Flags.host_flag_iff (h : s.Flags host) (hsettled : s.settled = true) :
    s.config.getHostKeyConfirmed s.host = true ↔ Undivided s.host := by
  rw [h.host_eq]
  constructor
  · intro hflag
    by_contra hdivided
    exact absurd hflag (by simp [h.divided hdivided])
  · intro hundivided
    have hlabel : s.hostPrefix = host :=
      h.prefix_eq.trans (getHostPrefix_eq_self_iff.mpr hundivided)
    rw [← hlabel]
    exact h.settled_prefix hsettled

/-- A registration keeps the flags in order. -/
theorem Flags.registerPk (h : s.Flags host) (delivered : Bool) :
    (s.registerPk delivered).Flags host :=
  h.keep rfl rfl rfl rfl

/-- A message keeps the flags in order. -/
theorem Flags.receive (h : s.Flags host) : s.receive.Flags host := h.keep rfl rfl rfl rfl

/-- A tick keeps the flags in order. -/
theorem Flags.tick (h : s.Flags host) (delivered : Bool) :
    (s.tick regInterval delivered).Flags host := by
  unfold TcpMediator.tick
  split_ifs <;> exact h.keep rfl rfl rfl rfl

/-- An `OK` of another host sets the flag of an undivided host only. -/
theorem Flags.otherOk (h : s.Flags host) (other : String) : (s.otherOk other).Flags host := by
  refine ⟨h.host_eq, h.prefix_eq, fun _ => rfl, ?_, ?_⟩
  · intro hsettled
    have hflag := h.settled_prefix hsettled
    simp [TcpMediator.otherOk, hflag]
  · intro hdivided
    have hne : host ≠ getHostPrefix other := by
      intro heq
      exact hdivided (heq ▸ undivided_getHostPrefix other)
    have hflag := h.divided hdivided
    simp [TcpMediator.otherOk, hne, hflag]

/-- The mediator's own `OK` settles it. -/
theorem Flags.handleOk (h : s.Flags host) (newId : String) (delivered : Bool) :
    (s.handleResult newId delivered .ok).Flags host := by
  refine ⟨h.host_eq, h.prefix_eq, fun _ => rfl, ?_, ?_⟩
  · intro _
    simp [handleResult]
  · intro hdivided
    have hne : host ≠ s.hostPrefix := by
      intro heq
      rw [h.prefix_eq] at heq
      exact hdivided (getHostPrefix_eq_self_iff.mp heq.symm)
    have hflag := h.divided hdivided
    simp [handleResult, hne, hflag]

/-- A mismatch unsettles the connection. -/
theorem handleMismatch_settled (s : TcpMediator) (newId : String) (delivered : Bool) :
    (s.handleResult newId delivered .uuidMismatch).settled = false := by
  simp only [handleResult, handleUuidMismatch]
  split_ifs <;> rfl

/-- A mismatch keeps the flags in order. -/
theorem Flags.handleMismatch (h : s.Flags host) (newId : String) (delivered : Bool) :
    (s.handleResult newId delivered .uuidMismatch).Flags host := by
  have hsettled := handleMismatch_settled s newId delivered
  simp only [handleResult, handleUuidMismatch] at hsettled ⊢
  split_ifs with hsolve
  · exact h.unsettle rfl rfl rfl fun hflag => by
      cases hflag
  · exact h.unsettle rfl rfl rfl fun hflag => hflag

/-- A new interval keeps the flags in order. -/
theorem Flags.updateKeepAlive (h : s.Flags host) (keepAlive : BitVec 32) :
    (s.updateKeepAlive keepAlive).Flags host := by
  unfold TcpMediator.updateKeepAlive
  split_ifs
  · exact h.keep rfl rfl rfl rfl
  · exact h

/-- An answer of the server keeps the flags in order. -/
theorem Flags.handleResp (h : s.Flags host) (newId : String) (delivered : Bool)
    (msg : RendezvousUnion) : (s.handleResp newId delivered msg).Flags host := by
  cases msg with
  | registerPeerResponse requestPk =>
    cases requestPk with
    | true => exact h.registerPk delivered
    | false => exact h
  | registerPkResponse result keepAlive =>
    refine Flags.updateKeepAlive ?_ keepAlive
    cases result with
    | ok => exact h.handleOk newId delivered
    | uuidMismatch => exact h.handleMismatch newId delivered
    | other => exact h
  | configureUpdate newServers =>
    cases newServers with
    | true => exact h.keep rfl rfl rfl rfl
    | false => exact h
  | punchHole => exact h
  | requestRelay => exact h
  | fetchLocalAddr => exact h
  | other => exact h

/-- A reset of the key keeps the flags in order. -/
theorem Flags.resetKey (h : s.Flags host) (id : Option String) :
    (s.resetKey id).Flags host :=
  h.unsettle rfl rfl rfl fun hflag => by cases hflag

/-- Another connection that starts keeps the flags in order. -/
theorem Flags.otherStartTcp (h : s.Flags host) (other : String) :
    (s.otherStartTcp other).Flags host := by
  refine ⟨h.host_eq, h.prefix_eq, ?_, ?_, ?_⟩
  · intro hsettled
    simp only [TcpMediator.otherStartTcp, Bool.and_eq_true] at hsettled
    exact h.settled_key hsettled.1.1
  · intro hsettled
    simp only [TcpMediator.otherStartTcp, Bool.and_eq_true, decide_eq_true_eq] at hsettled
    have hflag := h.settled_prefix hsettled.1.1
    simp [TcpMediator.otherStartTcp, hflag, hsettled.2.symm]
  · intro hdivided
    have hflag := h.divided hdivided
    simp [TcpMediator.otherStartTcp, hflag]

/-- A mismatch of another connection keeps the flags in order. -/
theorem Flags.otherMismatch (h : s.Flags host) (other newId : String) :
    (s.otherMismatch other newId).Flags host := by
  unfold TcpMediator.otherMismatch
  split_ifs
  · exact (h.resetKey (some newId)).keep rfl rfl rfl rfl
  · exact h

/-- **Every step** keeps what the flags are worth. -/
theorem Flags.step {e : TcpEvent} (h : s.Flags host) (hstep : step regInterval s e = some t) :
    t.Flags host := by
  cases e with
  | tick delivered =>
    obtain ⟨-, ⟨⟩⟩ := Option.ite_none_right_eq_some.mp hstep
    exact h.tick delivered
  | heartbeat delivered =>
    obtain ⟨-, ⟨⟩⟩ := Option.ite_none_right_eq_some.mp hstep
    exact h.receive.keep rfl rfl rfl rfl
  | message msg newId delivered =>
    obtain ⟨-, ⟨⟩⟩ := Option.ite_none_right_eq_some.mp hstep
    exact h.receive.handleResp newId delivered msg
  | failed =>
    obtain ⟨-, ⟨⟩⟩ := Option.ite_none_right_eq_some.mp hstep
    exact h.receive.keep rfl rfl rfl rfl
  | elapse ms =>
    obtain rfl := Option.some.inj hstep
    exact h.keep rfl rfl rfl rfl
  | setShouldExit =>
    obtain rfl := Option.some.inj hstep
    exact h.keep rfl rfl rfl rfl
  | resetKey id =>
    obtain rfl := Option.some.inj hstep
    exact h.resetKey id
  | otherStartTcp other =>
    obtain rfl := Option.some.inj hstep
    exact h.otherStartTcp other
  | otherOk other =>
    obtain rfl := Option.some.inj hstep
    exact h.otherOk other
  | otherMismatch other newId =>
    obtain rfl := Option.some.inj hstep
    exact h.otherMismatch other newId

/-- A tick settles nothing. -/
theorem tick_settled (s : TcpMediator) (delivered : Bool) :
    (s.tick regInterval delivered).settled = s.settled := by
  unfold tick
  split_ifs <;> rfl

/-- A tick registers where a registration is due and a confirmation is missing. -/
theorem tick_sent_eq_iff {delivered : Bool} :
    (s.tick regInterval delivered).sent = s.sent ↔ (s.Due regInterval →
      s.config.keyConfirmed = true ∧ s.config.getHostKeyConfirmed s.host = true) := by
  unfold tick
  split_ifs with hexit htime hregister hdelivered
  · exact iff_of_true rfl fun hdue => absurd hexit (by simp [hdue.1])
  · exact iff_of_true rfl fun hdue => absurd htime (by simp [hdue.2.1])
  all_goals
    have hdue : s.Due regInterval ↔ regInterval ≤ s.sinceRegister regInterval := by
      simp [Due, hexit, htime]
    simp only [Bool.and_eq_true, Bool.or_eq_true, Bool.not_eq_true', decide_eq_true_eq,
      ge_iff_le] at hregister
  · refine iff_of_false (by simp [registerPk]) fun hconfirmed => ?_
    simpa [hconfirmed (hdue.mpr hregister.2)] using hregister.1
  · refine iff_of_false (by simp [registerPk]) fun hconfirmed => ?_
    simpa [hconfirmed (hdue.mpr hregister.2)] using hregister.1
  · refine iff_of_true rfl fun hdue' => ?_
    have hnone := fun hmissing => hregister ⟨hmissing, hdue.mp hdue'⟩
    simpa [not_or] using hnone

/-- **A tick** sends nothing further if and only if nothing is due or the host is undivided. -/
theorem noFurther_tick_iff (h : s.Flags host) {delivered : Bool} :
    s.NoFurther (s.tick regInterval delivered) ↔
      s.KeepsQuiet regInterval (.tick delivered) := by
  constructor
  · intro hlaw hsettled hdue
    have hsent := hlaw hsettled ((tick_settled s delivered).trans hsettled)
    obtain ⟨-, hflag⟩ := tick_sent_eq_iff.mp hsent hdue
    exact (h.host_flag_iff hsettled).mp hflag
  · intro hquiet hsettled _
    refine tick_sent_eq_iff.mpr fun hdue => ⟨h.settled_key hsettled, ?_⟩
    exact (h.host_flag_iff hsettled).mpr (hquiet hsettled hdue)

/-- **A message** makes a settled mediator register if and only if it asks for the key. -/
theorem noFurther_handleResp_iff (s : TcpMediator) (msg : RendezvousUnion) (newId : String)
    (delivered : Bool) : s.NoFurther (s.receive.handleResp newId delivered msg) ↔
      s.KeepsQuiet regInterval (.message msg newId delivered) := by
  cases msg with
  | registerPeerResponse requestPk =>
    cases requestPk with
    | true =>
      simp only [NoFurther, KeepsQuiet]
      constructor
      · intro hlaw
        rw [← Bool.not_eq_true]
        intro hsettled
        have hsent := hlaw hsettled hsettled
        simp [handleResp, registerPk, receive] at hsent
      · intro hunsettled hsettled
        simp [hunsettled] at hsettled
    | false => exact iff_of_true (fun _ _ => rfl) trivial
  | registerPkResponse result keepAlive =>
    refine iff_of_true ?_ trivial
    cases result with
    | ok =>
      intro _ _
      simp only [handleResp, updateKeepAlive]
      split_ifs <;> rfl
    | uuidMismatch =>
      intro _ hsettled
      have hunsettled := handleMismatch_settled s.receive newId delivered
      simp only [handleResp, updateKeepAlive] at hsettled
      split_ifs at hsettled <;> simp [hunsettled] at hsettled
    | other =>
      intro _ _
      simp only [handleResp, updateKeepAlive]
      split_ifs <;> rfl
  | configureUpdate newServers =>
    cases newServers with
    | true => exact iff_of_true (fun _ _ => rfl) trivial
    | false => exact iff_of_true (fun _ _ => rfl) trivial
  | punchHole => exact iff_of_true (fun _ _ => rfl) trivial
  | requestRelay => exact iff_of_true (fun _ _ => rfl) trivial
  | fetchLocalAddr => exact iff_of_true (fun _ _ => rfl) trivial
  | other => exact iff_of_true (fun _ _ => rfl) trivial

/-- A mismatch of another connection sends nothing. -/
theorem otherMismatch_sent (s : TcpMediator) (host newId : String) :
    (s.otherMismatch host newId).sent = s.sent := by
  unfold otherMismatch
  split_ifs <;> rfl

/-- **One step** sends nothing further if and only if it keeps quiet. -/
theorem noFurther_step_iff {e : TcpEvent} (hstep : step regInterval s e = some t)
    (h : s.Flags host) : s.NoFurther t ↔ s.KeepsQuiet regInterval e := by
  cases e with
  | tick delivered =>
    obtain ⟨-, ⟨⟩⟩ := Option.ite_none_right_eq_some.mp hstep
    exact noFurther_tick_iff h
  | message msg newId delivered =>
    obtain ⟨-, ⟨⟩⟩ := Option.ite_none_right_eq_some.mp hstep
    exact noFurther_handleResp_iff s msg newId delivered
  | heartbeat delivered =>
    obtain ⟨-, ⟨⟩⟩ := Option.ite_none_right_eq_some.mp hstep
    exact iff_of_true (fun _ _ => rfl) trivial
  | failed =>
    obtain ⟨-, ⟨⟩⟩ := Option.ite_none_right_eq_some.mp hstep
    exact iff_of_true (fun _ _ => rfl) trivial
  | otherMismatch other newId =>
    obtain rfl := Option.some.inj hstep
    exact iff_of_true (fun _ _ => otherMismatch_sent s other newId) trivial
  | elapse ms | setShouldExit | resetKey id | otherStartTcp other | otherOk other =>
    obtain rfl := Option.some.inj hstep
    exact iff_of_true (fun _ _ => rfl) trivial

/-- On an undivided host nothing but the server asking for the key makes a settled mediator
register. -/
theorem keepsQuiet_of_undivided {e : TcpEvent} (hundivided : Undivided s.host)
    (hasks : ¬ AsksForKey e) : s.KeepsQuiet regInterval e := by
  cases e with
  | tick delivered => exact fun _ _ => hundivided
  | message msg newId delivered =>
    cases msg with
    | registerPeerResponse requestPk =>
      cases requestPk with
      | true => exact absurd trivial hasks
      | false => trivial
    | _ => trivial
  | _ => trivial

/-- A host that is divided registers right after an `OK`. -/
theorem exists_further_of_divided (regInterval : ℤ) (config : RendezvousConfig)
    (solving : String) (hdivided : ¬ Undivided host) : ∃ u v : TcpMediator,
      step regInterval (start host config solving)
        (.message (.registerPkResponse .ok 0) "" true) = some u ∧
      step regInterval u (.tick true) = some v ∧ ¬ u.NoFurther v := by
  have hflags := Flags.start host config solving
  refine ⟨_, _, rfl, rfl, fun hlaw => ?_⟩
  have hafter : Flags host ((start host config solving).receive.handleResp "" true
      (.registerPkResponse .ok 0)) := hflags.receive.handleResp "" true _
  have hdue : Due regInterval ((start host config solving).receive.handleResp "" true
      (.registerPkResponse .ok 0)) := by
    refine ⟨rfl, ?_, le_refl _⟩
    rfl
  exact hdivided (hafter.host_eq ▸ (noFurther_tick_iff hafter).mp hlaw rfl hdue)

/-- **The hosts that settle** whatever happens, as long as the server does not ask for the key,
are the undivided ones. -/
theorem undivided_iff_settles (checkPort : String → String) (regInterval : ℤ) (host : String)
    (config : RendezvousConfig) (solving : String) : Undivided (checkPort host) ↔
      ∀ events s, (machine checkPort regInterval host config solving).Run
        (machine checkPort regInterval host config solving).init events s →
      ∀ first e u v, first ++ [e] <+: events → ¬ AsksForKey e →
        (machine checkPort regInterval host config solving).Run
          (machine checkPort regInterval host config solving).init first u →
        (machine checkPort regInterval host config solving).step u e = some v →
        u.NoFurther v := by
  constructor
  · intro hundivided events s _ first e u v _ hasks hfirst hstep
    have hflags : u.Flags (checkPort host) :=
      hfirst.invariant (fun _ _ _ _ hstep h => h.step hstep) (Flags.start _ _ _)
    exact (noFurther_step_iff hstep hflags).mpr
      (keepsQuiet_of_undivided (hflags.host_eq.symm ▸ hundivided) hasks)
  · intro hall
    by_contra hdivided
    obtain ⟨u, v, hok, htick, hfurther⟩ :=
      exists_further_of_divided regInterval config solving hdivided
    have hfirst : (machine checkPort regInterval host config solving).Run
        (machine checkPort regInterval host config solving).init
        [.message (.registerPkResponse .ok 0) "" true] u := .single trivial hok
    have hrun : (machine checkPort regInterval host config solving).Run
        (machine checkPort regInterval host config solving).init
        ([.message (.registerPkResponse .ok 0) "" true] ++ [.tick true]) v :=
      hfirst.snoc trivial htick
    exact hfurther (hall _ _ hrun _ _ u v List.prefix_rfl (fun h => h) hfirst htick)

/-- **Registration over TCP settles**: a run sends no `RegisterPk` after an `OK` if and only if,
as long as it is settled, a registration comes due only for an undivided host and the server does
not ask for the key. -/
theorem start_tcp_settles_iff (checkPort : String → String) (regInterval : ℤ) (host : String)
    (config : RendezvousConfig) (solving : String) {events : List TcpEvent}
    (hrun : (machine checkPort regInterval host config solving).Run
      (machine checkPort regInterval host config solving).init events s) :
    (∀ first e u v, first ++ [e] <+: events →
      (machine checkPort regInterval host config solving).Run
        (machine checkPort regInterval host config solving).init first u →
      (machine checkPort regInterval host config solving).step u e = some v → u.NoFurther v) ↔
      (machine checkPort regInterval host config solving).RunWhere (KeepsQuiet regInterval)
        (machine checkPort regInterval host config solving).init events s :=
  Machine.runWhere_iff_steps_beside (M := machine checkPort regInterval host config solving)
    (R := fun u _ v => u.NoFurther v) (fun _ _ _ hstep h => h.step hstep)
    (fun _ _ _ hstep h => noFurther_step_iff hstep h) (Flags.start _ _ _) hrun

/-- `check_port` with `RENDEZVOUS_PORT`, on hosts that are no IPv6 addresses. -/
def demoCheckPort (host : String) : String :=
  if ':' ∈ host.toList then host else host ++ ":21116"

/-- The configuration before anything was confirmed. -/
def unconfirmed : RendezvousConfig := ⟨"1", false, []⟩

/-- The server answers the first registration, and the timer goes on. -/
def answeredTicks : List TcpEvent :=
  [.tick true, .message (.registerPkResponse .ok 0) "" true, .elapse 15000, .tick true]

/-- The mediator of a server in the local network after these steps. -/
def settledLocal : TcpMediator :=
  { start "hbbs:21116" unconfirmed "" with
    config := ⟨"1", true, ["hbbs:21116"]⟩
    lastRegisterSent := some 0
    now := 15000
    sent := ["1"]
    settled := true }

/-- A run whose ticks are answered, along which the connection settles. -/
theorem start_tcp_settles_iff_local :
    (machine demoCheckPort 15000 "hbbs" unconfirmed "").Run
      (machine demoCheckPort 15000 "hbbs" unconfirmed "").init answeredTicks settledLocal ∧
    ∀ first e u v, first ++ [e] <+: answeredTicks →
      (machine demoCheckPort 15000 "hbbs" unconfirmed "").Run
        (machine demoCheckPort 15000 "hbbs" unconfirmed "").init first u →
      (machine demoCheckPort 15000 "hbbs" unconfirmed "").step u e = some v → u.NoFurther v := by
  have hwhere : (machine demoCheckPort 15000 "hbbs" unconfirmed "").RunWhere (KeepsQuiet 15000)
      (machine demoCheckPort 15000 "hbbs" unconfirmed "").init answeredTicks settledLocal :=
    Machine.runWhere_of_replayWhere (by decide +kernel)
  exact ⟨hwhere.run,
    (start_tcp_settles_iff demoCheckPort 15000 "hbbs" unconfirmed "" hwhere.run).mpr hwhere⟩

/-- The mediator of a public server when the timer comes again after its `OK`. -/
def answeredPublic : TcpMediator :=
  { start "rs-ny.rustdesk.com:21116" unconfirmed "" with
    config := ⟨"1", true, ["rs-ny"]⟩
    lastRegisterSent := some 0
    now := 15000
    sent := ["1"]
    settled := true }

/-- The public server has answered `OK`, and the timer registers again. -/
theorem not_start_tcp_settles :
    ¬ ∀ (checkPort : String → String) (regInterval : ℤ) (host : String)
      (config : RendezvousConfig) (solving : String) (events : List TcpEvent) (s : TcpMediator),
      (machine checkPort regInterval host config solving).Run
        (machine checkPort regInterval host config solving).init events s →
      ∀ first e u v, first ++ [e] <+: events →
        (machine checkPort regInterval host config solving).Run
          (machine checkPort regInterval host config solving).init first u →
        (machine checkPort regInterval host config solving).step u e = some v →
        u.NoFurther v := by
  intro hall
  have hrun : (machine demoCheckPort 15000 "rs-ny.rustdesk.com" unconfirmed "").Run
      (machine demoCheckPort 15000 "rs-ny.rustdesk.com" unconfirmed "").init
      (answeredTicks.take 3) answeredPublic := Machine.run_of_replay (by decide +kernel)
  have hstep : (machine demoCheckPort 15000 "rs-ny.rustdesk.com" unconfirmed "").step
      answeredPublic (.tick true) = some (answeredPublic.tick 15000 true) := rfl
  have hlaw := hall _ _ _ _ _ _ _ (hrun.snoc trivial hstep) _ _ _ _ List.prefix_rfl hrun hstep
  have hsent := hlaw rfl (tick_settled answeredPublic true)
  revert hsent
  decide +kernel

end TcpMediator

end RdWeb.Host
