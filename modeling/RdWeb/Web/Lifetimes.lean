import RdWeb.Web.SessionInvariant

/-!
# Whom a call of a connection reaches

The message loop of a connection outlives its registration, and it calls back into the
registry with nothing but the session id. Here every such call has an owner, so that one
can tell when it reaches another connection that was registered under the same id.
-/

namespace RdWeb.Web

namespace Registry

/-- The connection has closed. -/
def isClosed (r : Registry) (c : ConnRef) : Bool := (r.conn (some c)).any (·.closed)

/-- The session of the file transfer has ended. -/
def isEnded (r : Registry) (c : ConnRef) : Bool := (r.conn (some c)).any (·.ftSessionEnded)

/-- `sid` of a connection. -/
def sid (r : Registry) (c : ConnRef) : Option String := (r.conn (some c)).bind (·.sessionId)

/-- The connection that is registered under the id of another. -/
def namesake (r : Registry) (c : ConnRef) : Option ConnRef := (r.sid c).bind r.sessions.get?

/-- A step on behalf of a connection unregisters or closes another one under its id. -/
def trespasses (r after : Registry) (c : ConnRef) : Bool :=
  (r.namesake c).any fun d =>
    d ≠ c && ((r.sid c).bind after.sessions.get? ≠ some d || (after.isClosed d && !r.isClosed d))

end Registry

/-- What reaches the registry, and on behalf of which connection. -/
inductive LifetimeEvent
  /-- `session_add_sync`. -/
  | sessionAddSync (data : Option Registry.SessionAddData)
  /-- `session_start`. -/
  | sessionStart (data : Option Registry.SessionStartData)
  /-- `session_close`. -/
  | sessionClose (value : Option String)
  /-- `close`. -/
  | close
  /-- A fatal message box of a remote desktop connection, or of the bridge. -/
  | fatalError (owner : Option ConnRef)
  /-- A file transfer connection calls `endFileTransferSession`. Where it is guarded, it looks at
  `_closing` and `_ftSessionEnded` first. -/
  | report (c : ConnRef) (guarded : Bool)
  /-- A remote desktop connection closes itself. -/
  | closeSelf (c : ConnRef)
  /-- `restart` of a remote desktop connection. -/
  | restart (c : ConnRef)
  /-- The socket of a connection opens or goes away. -/
  | wsStatus (c : ConnRef) (isOpen : Bool)
  deriving DecidableEq, Repr

/-- The registry, and whether a call reached a connection it was not for. -/
structure Lifetimes where
  registry : Registry
  trespassed : Bool

namespace Lifetimes

/-- The registry after a call, on behalf of a connection if it has an owner. -/
def enter (s : Lifetimes) (after : Registry) (owner : Option ConnRef) : Lifetimes :=
  ⟨after, s.trespassed || owner.any (s.registry.trespasses after)⟩

/-- One call of the bridge, with what it does to the other windows. -/
def step (s : Lifetimes) (e : LifetimeEvent) : Option Lifetimes :=
  let r := s.registry
  match e with
  | .sessionAddSync data => some (s.enter (r.sessionAdd data) none)
  | .sessionStart data => some (s.enter (r.sessionStart data) none)
  | .sessionClose value => some (s.enter (r.sessionClose value) none)
  | .close => some (s.enter r.close none)
  | .fatalError owner =>
    if owner.all fun c => r.isRemoteDesktop (some c) then some (s.enter r.showFatalError owner)
    else none
  | .report c guarded =>
    if r.isFileTransfer (some c) ∧ (guarded → ¬ r.isClosed c ∧ ¬ r.isEnded c) then
      some (s.enter (r.endFileTransferSession (r.sid c)) (some c))
    else none
  | .closeSelf c =>
    if r.isRemoteDesktop (some c) then some (s.enter (r.closeConn c) none) else none
  | .restart c =>
    if r.isRemoteDesktop (some c) ∧ c ∈ r.sessions.values then
      some (s.enter (r.updateConn c fun conn => { conn with closed := false }) none)
    else none
  | .wsStatus c isOpen =>
    some (s.enter (r.updateConn c fun conn => { conn with wsOpen := isOpen }) none)

end Lifetimes

/-- The registry over a whole history of calls and callbacks. -/
def lifetimeMachine : Machine Lifetimes LifetimeEvent where
  init := ⟨.initial, false⟩
  step := Lifetimes.step

namespace Registry

/-- Every connection is registered or closed. All of them were added. -/
def Complete (r : Registry) : Prop :=
  ∀ c < r.conns.length, (∃ s, r.sessions.get? s = some c) ∨ r.isClosed c = true

/-- A registered connection did not end its file transfer session. -/
def NoneEnded (r : Registry) : Prop :=
  ∀ s c, r.sessions.get? s = some c → r.isEnded c = false

/-- An id is added anew only where it is not in use, unless the connection under it is closed.
And no connection calls back while another one is registered under its id that the call would
reach. -/
def Considerate (r : Registry) : LifetimeEvent → Prop
  | .sessionAddSync (some ⟨some id, _⟩) =>
    id ≠ "" → ∀ d, r.sessions.get? id = some d → r.isClosed d = true
  | .report c _ => ∀ d, r.namesake c = some d → d ≠ c → r.isFileTransfer (some d) = false
  | .fatalError (some c) => ∀ d, r.namesake c = some d → d ≠ c → r.curConn ≠ some d
  | _ => True

/-! ## What a call does to the registry -/

/-- Nothing but `window.curConn` changes. -/
structure Same (r after : Registry) : Prop where
  conns : after.conns = r.conns
  sessions : after.sessions = r.sessions

/-- A registered connection is closed and unregistered. -/
structure Removes (r after : Registry) (id : String) (c : ConnRef) : Prop where
  registered : r.sessions.get? id = some c
  sessions : after.sessions = r.sessions.delete id
  closed : ∀ d, after.isClosed d = (r.isClosed d || decide (d = c))
  ended : ∀ d, d ≠ c → after.isEnded d = r.isEnded d
  length : after.conns.length = r.conns.length

/-- A call closes and unregisters one connection, or does neither. -/
inductive Outcome (r after : Registry) : Prop
  | same (h : r.Same after)
  | removes (id : String) (c : ConnRef) (h : r.Removes after id c)

variable {r after : Registry}

/-- The connections after one changed. -/
theorem conn_updateConn (c d : ConnRef) (f : SessionConn → SessionConn) :
    (r.updateConn c f).conn (some d) =
      if d = c then (r.conn (some d)).map f else r.conn (some d) := by
  simp only [conn, updateConn, Option.bind_some, List.getElem?_modify]
  by_cases hd : d = c
  · simp [hd]
  · simp [hd, Ne.symm hd]

/-- Closing a registered connection and taking it out. -/
theorem removes_of_conn (hr : r.WellFormed) {id : String} {c : ConnRef}
    (hreg : r.sessions.get? id = some c) {f : SessionConn → SessionConn}
    (hf : ∀ conn, (f conn).closed = true) (hsessions : after.sessions = r.sessions.delete id)
    (hconn : ∀ d, after.conn (some d) =
      if d = c then (r.conn (some d)).map f else r.conn (some d))
    (hlength : after.conns.length = r.conns.length) : r.Removes after id c := by
  obtain ⟨conn, hc, -⟩ := Option.map_eq_some_iff.mp (hr.sessionId_eq hreg)
  refine ⟨hreg, hsessions, fun d => ?_, fun d hd => ?_, hlength⟩
  · unfold isClosed
    rw [hconn]
    by_cases hd : d = c
    · subst hd
      simp [hc, hf]
    · simp [hd]
  · unfold isEnded
    rw [hconn, if_neg hd]

/-- Moving the current connection on changes no connection. -/
theorem advanceCurConn_conns (c : Option ConnRef) : (r.advanceCurConn c).conns = r.conns := by
  unfold advanceCurConn
  split_ifs <;> rfl

/-- Nor does it change the sessions. -/
theorem advanceCurConn_sessions (c : Option ConnRef) :
    (r.advanceCurConn c).sessions = r.sessions := by
  unfold advanceCurConn
  split_ifs <;> rfl

/-- Every connection is the same after it. -/
theorem conn_advanceCurConn (c d : Option ConnRef) : (r.advanceCurConn c).conn d = r.conn d := by
  unfold conn
  rw [advanceCurConn_conns]

/-- Removing a session removes that session and closes its connection. -/
theorem removeSession_removes (hr : r.WellFormed) {id : String} {c : ConnRef}
    (hreg : r.sessions.get? id = some c) : r.Removes (r.removeSession id) id c := by
  unfold removeSession
  rw [hreg]
  refine removes_of_conn hr hreg (f := fun conn => { conn with closed := true }) (fun _ => rfl) ?_
    (fun d => ?_) ?_
  · rw [advanceCurConn_sessions]
  · rw [conn_advanceCurConn]
    exact conn_updateConn c d _
  · rw [advanceCurConn_conns]
    exact List.length_modify ..

/-- Removing an unknown session changes nothing. -/
theorem removeSession_same {id : String} (hreg : r.sessions.get? id = none) :
    r.Same (r.removeSession id) := by
  unfold removeSession
  rw [hreg]
  exact ⟨advanceCurConn_conns none, advanceCurConn_sessions none⟩

/-- Removing a session has one of the two outcomes. -/
theorem removeSession_outcome (hr : r.WellFormed) (id : String) :
    r.Outcome (r.removeSession id) := by
  cases hreg : r.sessions.get? id with
  | none => exact .same (removeSession_same hreg)
  | some c => exact .removes id c (removeSession_removes hr hreg)

/-- A file transfer connection that did not end is ended, closed and taken out. -/
theorem endFileTransferSession_removes (hr : r.WellFormed) {id : String} {c : ConnRef}
    (hreg : r.sessions.get? id = some c) (hkind : r.isFileTransfer (some c) = true)
    (hended : r.isEnded c = false) : r.Removes (r.endFileTransferSession (some id)) id c := by
  have hguard : (!r.isFileTransfer (some c) || (r.conn (some c)).any (·.ftSessionEnded)) = false := by
    rw [hkind, show (r.conn (some c)).any (·.ftSessionEnded) = false from hended]
    rfl
  unfold endFileTransferSession
  simp only [if_neg (hr.id_ne_empty hreg), hreg, hguard, Bool.false_eq_true, if_false]
  refine removes_of_conn hr hreg
    (f := fun conn => { conn with ftSessionEnded := true, closed := true }) (fun _ => rfl) ?_
    (fun d => ?_) ?_
  · rw [advanceCurConn_sessions]
  · rw [conn_advanceCurConn]
    refine (conn_updateConn c d _).trans ?_
    rw [conn_updateConn]
    by_cases hd : d = c
    · simp only [if_pos hd, Option.map_map]
      rfl
    · simp only [if_neg hd]
  · rw [advanceCurConn_conns]
    exact (List.length_modify ..).trans (List.length_modify ..)

/-- Another id, or one of a connection that is not transferring files, is left alone. -/
theorem endFileTransferSession_eq {id : Option String}
    (h : ∀ c, id.bind r.sessions.get? = some c → r.isFileTransfer (some c) = false) :
    r.endFileTransferSession id = r := by
  unfold endFileTransferSession
  cases id with
  | none => rfl
  | some id =>
    dsimp only
    split_ifs
    · rfl
    · cases hreg : r.sessions.get? id with
      | none => rfl
      | some c => simp [h c hreg]

/-- `window.curConn` is registered under its own id. -/
theorem WellFormed.curConn_sid (hr : r.WellFormed) {c : ConnRef} (hcur : r.curConn = some c) :
    ∃ id, r.sid c = some id ∧ r.sessions.get? id = some c := by
  obtain ⟨id, hreg⟩ := hr.curConn_registered hcur
  obtain ⟨conn, hconn, hid⟩ := Option.map_eq_some_iff.mp (hr.sessionId_eq hreg)
  exact ⟨id, by rw [sid, hconn]; exact hid, hreg⟩

/-- Closing without a current connection changes nothing. -/
theorem close_same (hcur : r.curConn = none) : r.Same r.close := by
  unfold close
  rw [hcur]
  exact ⟨rfl, rfl⟩

/-- Closing removes the session of the current connection. -/
theorem close_removes (hr : r.WellFormed) {c : ConnRef} (hcur : r.curConn = some c) :
    ∃ id, r.Removes r.close id c := by
  obtain ⟨id, hsid, hreg⟩ := hr.curConn_sid hcur
  refine ⟨id, ?_⟩
  have hclose : r.close = r.removeSession id := by
    unfold close
    rw [hcur, show (r.conn (some c)).bind (·.sessionId) = some id from hsid]
    exact if_pos (hr.id_ne_empty hreg)
  rw [hclose]
  exact removeSession_removes hr hreg

/-- A fatal error without a current connection changes nothing. -/
theorem showFatalError_same (hcur : r.curConn = none) : r.Same r.showFatalError := by
  have hclose : r.showFatalError = r.close := by
    unfold showFatalError isFileTransfer
    rw [hcur]
    rfl
  rw [hclose]
  exact close_same hcur

/-- A fatal error removes the session of the current connection. -/
theorem showFatalError_removes (hr : r.WellFormed) (hended : r.NoneEnded) {c : ConnRef}
    (hcur : r.curConn = some c) : ∃ id, r.Removes r.showFatalError id c := by
  unfold showFatalError
  split_ifs with hkind
  · obtain ⟨id, hsid, hreg⟩ := hr.curConn_sid hcur
    rw [hcur, show (r.conn (some c)).bind (·.sessionId) = some id from hsid]
    rw [hcur, Bool.and_eq_true] at hkind
    exact ⟨id, endFileTransferSession_removes hr hreg hkind.1 (hended id c hreg)⟩
  · exact close_removes hr hcur

/-- Closing has one of the two outcomes. -/
theorem close_outcome (hr : r.WellFormed) : r.Outcome r.close := by
  cases hcur : r.curConn with
  | none => exact .same (close_same hcur)
  | some c =>
    obtain ⟨id, h⟩ := close_removes hr hcur
    exact .removes id c h

/-- A fatal error has one of the two outcomes. -/
theorem showFatalError_outcome (hr : r.WellFormed) (hended : r.NoneEnded) :
    r.Outcome r.showFatalError := by
  cases hcur : r.curConn with
  | none => exact .same (showFatalError_same hcur)
  | some c =>
    obtain ⟨id, h⟩ := showFatalError_removes hr hended hcur
    exact .removes id c h

/-- Closing a session has one of the two outcomes. -/
theorem sessionClose_outcome (hr : r.WellFormed) (value : Option String) :
    r.Outcome (r.sessionClose value) := by
  unfold sessionClose
  cases value with
  | none => exact close_outcome hr
  | some id =>
    dsimp only
    split_ifs
    · exact removeSession_outcome hr id
    · exact close_outcome hr

/-- Starting a session has one of the two outcomes. -/
theorem sessionStart_outcome (hr : r.WellFormed) (hended : r.NoneEnded)
    (data : Option SessionStartData) : r.Outcome (r.sessionStart data) := by
  unfold sessionStart
  cases data with
  | none => exact showFatalError_outcome hr hended
  | some data =>
    dsimp only
    cases hget : r.getSession data.sessionId with
    | none => exact .same ⟨rfl, rfl⟩
    | some c =>
      dsimp only
      split_ifs
      · exact .same ⟨rfl, rfl⟩
      · obtain ⟨s, hs⟩ := hr.getSession_registered hget
        obtain ⟨id, h⟩ := showFatalError_removes (hr.setCurConn hs) hended rfl
        exact .removes id c ⟨h.registered, h.sessions, h.closed, h.ended, h.length⟩

/-- A registered connection ends its own session, or a namesake's. -/
theorem endFileTransferSession_outcome (hr : r.WellFormed) (hended : r.NoneEnded)
    (id : Option String) : r.Outcome (r.endFileTransferSession id) := by
  by_cases h : ∀ c, id.bind r.sessions.get? = some c → r.isFileTransfer (some c) = false
  · rw [endFileTransferSession_eq h]
    exact .same ⟨rfl, rfl⟩
  · simp only [not_forall, Bool.not_eq_false] at h
    obtain ⟨c, hc, hkind⟩ := h
    obtain ⟨id, rfl, hreg⟩ := Option.bind_eq_some_iff.mp hc
    exact .removes id c (endFileTransferSession_removes hr hreg hkind (hended id c hreg))

/-! ## What an outcome keeps -/

/-- Where nothing changes the closed connections are the same. -/
theorem Same.isClosed (h : r.Same after) (c : ConnRef) : after.isClosed c = r.isClosed c := by
  unfold Registry.isClosed conn
  rw [h.conns]

/-- Where nothing changes the ended sessions are the same. -/
theorem Same.isEnded (h : r.Same after) (c : ConnRef) : after.isEnded c = r.isEnded c := by
  unfold Registry.isEnded conn
  rw [h.conns]

/-- Who is unregistered is closed. -/
theorem Outcome.complete (h : r.Outcome after) (hc : r.Complete) : after.Complete := by
  cases h with
  | same h =>
    intro c hlt
    rw [h.conns] at hlt
    rw [h.sessions, h.isClosed]
    exact hc c hlt
  | removes id d h =>
    intro c hlt
    rw [h.length] at hlt
    rw [h.closed, Bool.or_eq_true, decide_eq_true_eq]
    rcases hc c hlt with ⟨s, hs⟩ | hclosed
    · by_cases hsid : s = id
      · subst hsid
        rw [h.registered] at hs
        exact .inr (.inr (Option.some.inj hs).symm)
      · exact .inl ⟨s, by rw [h.sessions, OrderedMap.get?_delete, if_neg hsid, hs]⟩
    · exact .inr (.inl hclosed)

/-- A connection is registered under no id but its own. -/
theorem WellFormed.id_unique (hr : r.WellFormed) {s id : String} {c : ConnRef}
    (hs : r.sessions.get? s = some c) (hid : r.sessions.get? id = some c) : s = id :=
  Option.some.inj (Option.some.inj ((hr.sessionId_eq hs).symm.trans (hr.sessionId_eq hid)))

/-- Neither outcome leaves an ended session. -/
theorem Outcome.noneEnded (h : r.Outcome after) (hr : r.WellFormed) (hended : r.NoneEnded) :
    after.NoneEnded := by
  cases h with
  | same h =>
    intro s c hs
    rw [h.sessions] at hs
    rw [h.isEnded]
    exact hended s c hs
  | removes id d h =>
    intro s c hs
    rw [h.sessions, OrderedMap.get?_delete] at hs
    split_ifs at hs with hsid
    have hne : c ≠ d := by
      rintro rfl
      exact hsid (hr.id_unique hs h.registered)
    rw [h.ended c hne]
    exact hended s c hs

/-! ## When a call trespasses -/

/-- Where nothing changes nothing is trespassed on. -/
theorem Same.not_trespasses (h : r.Same after) (c : ConnRef) : r.trespasses after c = false := by
  unfold trespasses
  cases hn : r.namesake c with
  | none => rfl
  | some d =>
    have hstill : (r.sid c).bind after.sessions.get? = some d := by
      rw [h.sessions]
      exact hn
    simp [hstill, h.isClosed]

/-- Removing a connection is a trespass against it exactly for another one of its id. -/
theorem Removes.trespasses_iff {id : String} {d : ConnRef} (h : r.Removes after id d)
    (hr : r.WellFormed) (c : ConnRef) :
    r.trespasses after c = true ↔ r.namesake c = some d ∧ d ≠ c := by
  unfold trespasses
  cases hn : r.namesake c with
  | none => simp
  | some e =>
    obtain ⟨s, hsid, hs⟩ := Option.bind_eq_some_iff.mp hn
    rw [hsid, Option.bind_some, h.sessions, OrderedMap.get?_delete, Option.any_some, h.closed]
    by_cases hed : e = d
    · subst hed
      obtain rfl := hr.id_unique hs h.registered
      simp
    · have hne : s ≠ id := by
        rintro rfl
        rw [h.registered] at hs
        exact hed (Option.some.inj hs).symm
      simp [hne, hs, hed]

/-- A report trespasses exactly if it finds another file transfer under its id. -/
theorem report_trespasses_iff (hr : r.WellFormed) (hended : r.NoneEnded) (c : ConnRef) :
    r.trespasses (r.endFileTransferSession (r.sid c)) c = true ↔
      ∃ d, r.namesake c = some d ∧ d ≠ c ∧ r.isFileTransfer (some d) = true := by
  by_cases h : ∀ d, r.namesake c = some d → r.isFileTransfer (some d) = false
  · rw [endFileTransferSession_eq h, Same.not_trespasses ⟨rfl, rfl⟩]
    refine iff_of_false (by simp) ?_
    rintro ⟨d, hd, -, hkind⟩
    rw [h d hd] at hkind
    cases hkind
  · simp only [not_forall, Bool.not_eq_false] at h
    obtain ⟨d, hd, hkind⟩ := h
    obtain ⟨id, hsid, hreg⟩ := Option.bind_eq_some_iff.mp hd
    rw [hsid, (endFileTransferSession_removes hr hreg hkind (hended id d hreg)).trespasses_iff hr]
    constructor
    · exact fun h => ⟨d, h.1, h.2, hkind⟩
    · rintro ⟨e, he, hne, -⟩
      rw [hd] at he
      cases he
      exact ⟨hd, hne⟩

/-- A fatal error trespasses exactly if `window.curConn` is another connection of the id. -/
theorem fatalError_trespasses_iff (hr : r.WellFormed) (hended : r.NoneEnded) (c : ConnRef) :
    r.trespasses r.showFatalError c = true ↔
      ∃ d, r.namesake c = some d ∧ d ≠ c ∧ r.curConn = some d := by
  cases hcur : r.curConn with
  | none =>
    rw [(showFatalError_same hcur).not_trespasses]
    simp
  | some d =>
    obtain ⟨id, h⟩ := showFatalError_removes hr hended hcur
    rw [h.trespasses_iff hr]
    constructor
    · exact fun h => ⟨d, h.1, h.2, rfl⟩
    · rintro ⟨e, he, hne, hd⟩
      obtain rfl := Option.some.inj hd
      exact ⟨he, hne⟩

/-- Adding a session completes the registry exactly if it replaces no open connection. -/
theorem register_complete_iff (hr : r.WellFormed) (hc : r.Complete) (id : String)
    (fresh : SessionConn) :
    (({ r with conns := r.conns ++ [fresh] } : Registry).addSession id r.conns.length).Complete ↔
      ∀ d, r.sessions.get? id = some d → r.isClosed d = true := by
  let added := ({ r with conns := r.conns ++ [fresh] } : Registry).addSession id r.conns.length
  have hget (s : String) : added.sessions.get? s =
      if s = id then some r.conns.length else r.sessions.get? s := by
    simp [added, addSession]
  have hlength : added.conns.length = r.conns.length + 1 := by
    simp [added, addSession, updateConn]
  have hold {c : ConnRef} (hlt : c < r.conns.length) : added.isClosed c = r.isClosed c := by
    have hne : r.conns.length ≠ c := Nat.ne_of_gt hlt
    simp [added, isClosed, conn, addSession, updateConn, List.getElem?_modify, hne,
      List.getElem?_append_left hlt]
  change added.Complete ↔ _
  constructor
  · intro h d hd
    obtain ⟨conn, hconn, -⟩ := Option.map_eq_some_iff.mp (hr.sessionId_eq hd)
    have hlt : d < r.conns.length := (List.getElem?_eq_some_iff.mp hconn).1
    rcases h d (by rw [hlength]; exact Nat.lt_succ_of_lt hlt) with ⟨s, hs⟩ | hclosed
    · rw [hget] at hs
      split_ifs at hs with hsid
      · exact absurd (Option.some.inj hs).symm (Nat.ne_of_lt hlt)
      · exact absurd (hr.id_unique hs hd) hsid
    · rwa [hold hlt] at hclosed
  · intro h c hlt
    rw [hlength] at hlt
    by_cases hnew : c = r.conns.length
    · subst hnew
      exact .inl ⟨id, by rw [hget, if_pos rfl]⟩
    · have hlt' : c < r.conns.length := by omega
      rcases hc c hlt' with ⟨s, hs⟩ | hclosed
      · by_cases hsid : s = id
        · subst hsid
          exact .inr ((hold hlt').trans (h c hs))
        · exact .inl ⟨s, by rw [hget, if_neg hsid, hs]⟩
      · exact .inr ((hold hlt').trans hclosed)

/-! ## Steps and runs -/

/-- The first registry is complete. -/
theorem initial_complete : initial.Complete := by
  intro c hlt
  cases hlt

/-- In it no session has ended. -/
theorem initial_noneEnded : initial.NoneEnded := by
  intro s c hs
  cases hs

/-- Changing a flag of a connection object. -/
theorem NoneEnded.updateConn (h : r.NoneEnded) (c : ConnRef) {f : SessionConn → SessionConn}
    (hf : ∀ conn, (f conn).ftSessionEnded = conn.ftSessionEnded) : (r.updateConn c f).NoneEnded := by
  intro s d hd
  have hsame : (r.updateConn c f).isEnded d = r.isEnded d := by
    unfold isEnded
    rw [conn_updateConn]
    split_ifs
    · cases r.conn (some d) <;> simp [hf]
    · rfl
  rw [hsame]
  exact h s d hd

/-- A connection may change if it does not close or has a session. -/
theorem Complete.updateConn (h : r.Complete) (c : ConnRef) {f : SessionConn → SessionConn}
    (hf : ∀ conn, conn.closed = true → (f conn).closed = true ∨ c ∈ r.sessions.values) :
    (r.updateConn c f).Complete := by
  intro d hlt
  have hlt' : d < r.conns.length := by
    simpa [Registry.updateConn] using hlt
  rcases h d hlt' with hreg | hclosed
  · exact .inl hreg
  · by_cases hd : d = c
    · subst hd
      unfold isClosed at hclosed ⊢
      rw [conn_updateConn, if_pos rfl]
      cases hconn : r.conn (some d) with
      | none => simp [hconn] at hclosed
      | some conn =>
        rw [hconn] at hclosed
        rcases hf conn hclosed with hkept | hmem
        · exact .inr hkept
        · exact .inl (OrderedMap.mem_values_iff.mp hmem)
    · refine .inr ?_
      unfold isClosed
      rw [conn_updateConn, if_neg hd]
      exact hclosed

/-- A connection that is added did not end a session. -/
theorem NoneEnded.register (h : r.NoneEnded) (hr : r.WellFormed) (id : String)
    {fresh : SessionConn} (hfresh : fresh.ftSessionEnded = false) :
    (({ r with conns := r.conns ++ [fresh] } : Registry).addSession id r.conns.length).NoneEnded := by
  intro s c hs
  by_cases hsid : s = id
  · obtain rfl : r.conns.length = c := by simpa [addSession, hsid] using hs
    simp [isEnded, addSession, Registry.updateConn, conn, List.getElem?_modify, hfresh]
  · have hold : r.sessions.get? s = some c := by simpa [addSession, hsid] using hs
    obtain ⟨old, hconn, -⟩ := Option.map_eq_some_iff.mp (hr.sessionId_eq hold)
    have hlt : c < r.conns.length := (List.getElem?_eq_some_iff.mp hconn).1
    have hne : ¬ r.conns.length = c := Nat.ne_of_gt hlt
    have hended := h s c hold
    unfold isEnded at hended ⊢
    simpa [addSession, Registry.updateConn, conn, List.getElem?_modify, hne,
      List.getElem?_append_left hlt] using hended

/-- Adding a session ends none. -/
theorem NoneEnded.sessionAdd (h : r.NoneEnded) (hr : r.WellFormed)
    (data : Option SessionAddData) : (r.sessionAdd data).NoneEnded := by
  unfold Registry.sessionAdd
  split
  · exact h
  · split
    · exact h
    · split
      · exact h
      · exact h.register hr _ rfl

/-- Adding a session is complete exactly if it is considerate. -/
theorem sessionAdd_complete_iff (hr : r.WellFormed) (hc : r.Complete)
    (data : Option SessionAddData) :
    (r.sessionAdd data).Complete ↔ r.Considerate (.sessionAddSync data) := by
  match data with
  | none => exact iff_of_true hc trivial
  | some ⟨none, _⟩ => exact iff_of_true hc trivial
  | some ⟨some id, isFileTransfer⟩ =>
    by_cases hid : id = ""
    · subst hid
      exact iff_of_true hc fun h => absurd rfl h
    · have hadd : r.sessionAdd (some ⟨some id, isFileTransfer⟩) =
          ({ r with conns := r.conns ++
            [{ kind := if isFileTransfer then .fileTransfer else .remoteDesktop }] } :
              Registry).addSession id r.conns.length := by
        unfold sessionAdd
        exact if_neg hid
      rw [hadd, register_complete_iff hr hc]
      exact ⟨fun h _ => h, fun h => h hid⟩

end Registry

namespace Lifetimes

variable {s t : Lifetimes}

/-- The registry is well formed, every connection that left it was closed, and no call reached
a connection it was not for. -/
structure Sound (s : Lifetimes) : Prop where
  wellFormed : s.registry.WellFormed
  complete : s.registry.Complete
  own : s.trespassed = false

/-- What every call keeps. -/
structure Kept (s : Lifetimes) : Prop where
  wellFormed : s.registry.WellFormed
  noneEnded : s.registry.NoneEnded

/-- **One call** keeps the lifetimes. -/
theorem Kept.step {e : LifetimeEvent} (h : s.Kept) (hstep : s.step e = some t) : t.Kept := by
  obtain ⟨hr, hended⟩ := h
  cases e with
  | sessionAddSync data =>
    obtain rfl := Option.some.inj hstep
    exact ⟨hr.sessionAdd data, hended.sessionAdd hr data⟩
  | sessionStart data =>
    obtain rfl := Option.some.inj hstep
    exact ⟨hr.sessionStart data, (Registry.sessionStart_outcome hr hended data).noneEnded hr hended⟩
  | sessionClose value =>
    obtain rfl := Option.some.inj hstep
    exact ⟨hr.sessionClose value, (Registry.sessionClose_outcome hr value).noneEnded hr hended⟩
  | close =>
    obtain rfl := Option.some.inj hstep
    exact ⟨hr.close, (Registry.close_outcome hr).noneEnded hr hended⟩
  | fatalError owner =>
    simp only [Lifetimes.step] at hstep
    split_ifs at hstep
    obtain rfl := Option.some.inj hstep
    exact ⟨hr.showFatalError, (Registry.showFatalError_outcome hr hended).noneEnded hr hended⟩
  | report c guarded =>
    simp only [Lifetimes.step] at hstep
    split_ifs at hstep
    obtain rfl := Option.some.inj hstep
    exact ⟨hr.endFileTransferSession _,
      (Registry.endFileTransferSession_outcome hr hended _).noneEnded hr hended⟩
  | closeSelf c =>
    simp only [Lifetimes.step] at hstep
    split_ifs at hstep
    obtain rfl := Option.some.inj hstep
    exact ⟨hr.closeConn c, hended.updateConn c fun _ => rfl⟩
  | restart c =>
    simp only [Lifetimes.step] at hstep
    split_ifs at hstep
    obtain rfl := Option.some.inj hstep
    exact ⟨hr.updateConn c fun _ => rfl, hended.updateConn c fun _ => rfl⟩
  | wsStatus c isOpen =>
    obtain rfl := Option.some.inj hstep
    exact ⟨hr.updateConn c fun _ => rfl, hended.updateConn c fun _ => rfl⟩

/-- What a call may break. -/
structure Tidy (s : Lifetimes) : Prop where
  complete : s.registry.Complete
  own : s.trespassed = false

/-- A call of no window trespasses on none. -/
theorem enter_none_own (after : Registry) :
    (s.enter after none).trespassed = s.trespassed := by
  simp [enter]

/-- A call without an owner is tidy if the registry stays complete. -/
theorem Tidy.enter_none (h : s.Tidy) {after : Registry} (hafter : after.Complete) :
    (s.enter after none).Tidy :=
  ⟨hafter, (enter_none_own after).trans h.own⟩

/-- A call that removes a connection at most is tidy exactly if it does not trespass. -/
theorem Tidy.enter_some_iff (h : s.Tidy) {after : Registry} (hafter : s.registry.Outcome after)
    (c : ConnRef) :
    (s.enter after (some c)).Tidy ↔ ¬ s.registry.trespasses after c = true := by
  have hown : (s.enter after (some c)).trespassed = s.registry.trespasses after c := by
    simp [enter, h.own]
  constructor
  · intro ht
    rw [← hown, ht.own]
    simp
  · intro ht
    exact ⟨hafter.complete h.complete, by rw [hown]; simpa using ht⟩

/-- **One step.** The condition says exactly which calls are tidy. -/
theorem Tidy.step_iff {e : LifetimeEvent} (h : s.Tidy) (hkept : s.Kept)
    (hstep : s.step e = some t) : t.Tidy ↔ s.registry.Considerate e := by
  obtain ⟨hr, hended⟩ := hkept
  cases e with
  | sessionAddSync data =>
    obtain rfl := Option.some.inj hstep
    rw [← Registry.sessionAdd_complete_iff hr h.complete]
    exact ⟨fun ht => ht.complete, fun hc => h.enter_none hc⟩
  | sessionStart data =>
    obtain rfl := Option.some.inj hstep
    exact iff_of_true
      (h.enter_none ((Registry.sessionStart_outcome hr hended data).complete h.complete)) trivial
  | sessionClose value =>
    obtain rfl := Option.some.inj hstep
    exact iff_of_true
      (h.enter_none ((Registry.sessionClose_outcome hr value).complete h.complete)) trivial
  | close =>
    obtain rfl := Option.some.inj hstep
    exact iff_of_true (h.enter_none ((Registry.close_outcome hr).complete h.complete)) trivial
  | fatalError owner =>
    have houtcome := Registry.showFatalError_outcome hr hended
    simp only [Lifetimes.step] at hstep
    split_ifs at hstep
    obtain rfl := Option.some.inj hstep
    cases owner with
    | none => exact iff_of_true (h.enter_none (houtcome.complete h.complete)) trivial
    | some c =>
      rw [h.enter_some_iff houtcome, Registry.fatalError_trespasses_iff hr hended]
      exact ⟨fun hnot d hd hne hcur => hnot ⟨d, hd, hne, hcur⟩,
        fun hok ⟨d, hd, hne, hcur⟩ => hok d hd hne hcur⟩
  | report c guarded =>
    simp only [Lifetimes.step] at hstep
    split_ifs at hstep
    obtain rfl := Option.some.inj hstep
    rw [h.enter_some_iff (Registry.endFileTransferSession_outcome hr hended _),
      Registry.report_trespasses_iff hr hended]
    simp only [Registry.Considerate, not_exists, not_and, Bool.not_eq_true]
  | closeSelf c =>
    simp only [Lifetimes.step] at hstep
    split_ifs at hstep
    obtain rfl := Option.some.inj hstep
    exact iff_of_true (h.enter_none (h.complete.updateConn c fun _ _ => .inl rfl)) trivial
  | restart c =>
    simp only [Lifetimes.step] at hstep
    split_ifs at hstep with hguard
    obtain rfl := Option.some.inj hstep
    exact iff_of_true (h.enter_none (h.complete.updateConn c fun _ _ => .inr hguard.2)) trivial
  | wsStatus c isOpen =>
    obtain rfl := Option.some.inj hstep
    exact iff_of_true (h.enter_none (h.complete.updateConn c fun _ hc => .inl hc)) trivial

/-- A guarded report is always considerate: who is neither closed nor ended is registered. -/
theorem considerate_of_guarded (h : s.Tidy) (hkept : s.Kept) {c : ConnRef}
    (hstep : s.step (.report c true) = some t) : s.registry.Considerate (.report c true) := by
  simp only [Lifetimes.step] at hstep
  split_ifs at hstep with hguard
  have hlt : c < s.registry.conns.length := by
    by_contra hnot
    have hnone : s.registry.conns[c]? = none := List.getElem?_eq_none (Nat.le_of_not_lt hnot)
    simp [Registry.isFileTransfer, Registry.conn, hnone] at hguard
  obtain ⟨id, hreg⟩ := (h.complete c hlt).resolve_right (hguard.2 trivial).1
  obtain ⟨conn, hconn, hid⟩ := Option.map_eq_some_iff.mp (hkept.wellFormed.sessionId_eq hreg)
  intro d hd hne
  have hself : s.registry.namesake c = some c := by
    unfold Registry.namesake Registry.sid
    rw [hconn, Option.bind_some, hid, Option.bind_some, hreg]
  rw [hself] at hd
  exact absurd (Option.some.inj hd).symm hne

/-- At first nothing is trespassed on. -/
theorem init_kept : lifetimeMachine.init.Kept :=
  ⟨Registry.wellFormed_of_reachable Machine.reachable_init, Registry.initial_noneEnded⟩

/-- **Session lifetimes.** All along a run the registry is well formed, whoever left it was closed
and no call reached a connection it was not for, if and only if every call is considerate. -/
theorem sound_iff_considerate (s : Lifetimes) (events : List LifetimeEvent)
    (hrun : lifetimeMachine.Run lifetimeMachine.init events s) :
    (∀ first t, first <+: events → lifetimeMachine.Run lifetimeMachine.init first t → t.Sound) ↔
      lifetimeMachine.RunWhere (fun s => s.registry.Considerate) lifetimeMachine.init events s := by
  have hkept {first : List LifetimeEvent} {t : Lifetimes}
      (hfirst : lifetimeMachine.Run lifetimeMachine.init first t) : t.Kept :=
    hfirst.invariant (fun _ _ _ _ hstep h => h.step hstep) init_kept
  rw [← Machine.runWhere_iff_beside (I := Kept) (P := Tidy) (fun _ _ _ hstep h => h.step hstep)
    (fun _ _ _ hstep hkept h => h.step_iff hkept hstep) init_kept
    ⟨Registry.initial_complete, rfl⟩ hrun]
  constructor
  · intro h first t hfirst ht
    exact ⟨(h first t hfirst ht).complete, (h first t hfirst ht).own⟩
  · intro h first t hfirst ht
    have htidy := h first t hfirst ht
    exact ⟨(hkept ht).wellFormed, htidy.complete, htidy.own⟩

/-! ## An id that is used twice -/

/-- A file transfer session is added. -/
def addFiles (id : String) : LifetimeEvent := .sessionAddSync (some ⟨some id, true⟩)

/-- Whether a call is considerate is decided by the registry. -/
instance (r : Registry) (e : LifetimeEvent) : Decidable (r.Considerate e) := by
  unfold Registry.Considerate
  split <;> infer_instance

/-- A connection may end its session by itself, and its id may be used again then. -/
theorem sound_reported_then_added :
    ∃ s, lifetimeMachine.Run lifetimeMachine.init
        [addFiles "a", .report 0 true, addFiles "a", .close] s ∧
      ∀ first t, first <+: [addFiles "a", .report 0 true, addFiles "a", .close] →
        lifetimeMachine.Run lifetimeMachine.init first t → t.Sound := by
  have hwhere : ∃ s, lifetimeMachine.RunWhere (fun s => s.registry.Considerate)
      lifetimeMachine.init [addFiles "a", .report 0 true, addFiles "a", .close] s :=
    ⟨_, Machine.runWhere_of_replayWhere rfl⟩
  obtain ⟨s, hwhere⟩ := hwhere
  exact ⟨s, hwhere.run, (sound_iff_considerate s _ hwhere.run).mpr hwhere⟩

/-- An id that is in use loses its connection unclosed, and a late login error of a closed
connection ends the session that has its id now. -/
theorem not_sound_reused_id :
    (∃ s, lifetimeMachine.Run lifetimeMachine.init [addFiles "a", addFiles "a"] s ∧
      s.registry.sessions.values = [1] ∧ s.registry.isClosed 0 = false ∧ ¬ s.Sound) ∧
    ∃ s, lifetimeMachine.Run lifetimeMachine.init
        [addFiles "a", .sessionClose (some "a"), addFiles "a", .report 0 false] s ∧
      s.registry.sessions.values = [] ∧ s.registry.isClosed 1 = true ∧ ¬ s.Sound := by
  constructor
  · refine ⟨_, Machine.run_of_replay rfl, rfl, rfl, fun h => ?_⟩
    rcases h.complete 0 (by decide) with ⟨id, hid⟩ | hclosed
    · have hvalues := OrderedMap.mem_values_iff.mpr ⟨id, hid⟩
      exact absurd hvalues (by decide)
    · cases hclosed
  · exact ⟨_, Machine.run_of_replay rfl, rfl, rfl, fun h => by cases h.own⟩

end Lifetimes

end RdWeb.Web
