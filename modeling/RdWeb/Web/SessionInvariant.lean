import RdWeb.Web.Sessions

/-!
# The invariant of the session registry

Ids may be reused, and every function of the registry moves `window.curConn`.
What survives every history is that a registered connection knows its own id and
that `window.curConn` is registered unless no session is open.
-/

namespace RdWeb.Web.Registry

/-- The registry's invariant: a registered connection knows its own id, no
session is registered under the empty id, and `window.curConn` is a registered
connection unless no session is open. -/
structure WellFormed (r : Registry) : Prop where
  sessionId_eq : ∀ {s c}, r.sessions.get? s = some c →
    (r.conn (some c)).map (·.sessionId) = some (some s)
  id_ne_empty : ∀ {s c}, r.sessions.get? s = some c → s ≠ ""
  curConn_registered : ∀ {c}, r.curConn = some c → ∃ s, r.sessions.get? s = some c
  curConn_defined : r.curConn = none → r.sessions.entries = []

/-- No reference is no connection. -/
@[simp] theorem conn_none (r : Registry) : r.conn none = none := rfl

/-- A changed connection leaves the sessions. -/
@[simp] theorem updateConn_sessions (r : Registry) (c : ConnRef) (f : SessionConn → SessionConn) :
    (r.updateConn c f).sessions = r.sessions := rfl

/-- A changed connection leaves the current one. -/
@[simp] theorem updateConn_curConn (r : Registry) (c : ConnRef) (f : SessionConn → SessionConn) :
    (r.updateConn c f).curConn = r.curConn := rfl

/-- A field update that leaves the session id alone does so for every object. -/
theorem sessionId_updateConn {r : Registry} {c d : ConnRef} {f : SessionConn → SessionConn}
    (hf : ∀ conn, (f conn).sessionId = conn.sessionId) :
    ((r.updateConn c f).conn (some d)).map (·.sessionId) =
      (r.conn (some d)).map (·.sessionId) := by
  simp only [conn, updateConn, Option.bind_some, List.getElem?_modify]
  cases r.conns[d]? <;> simp [hf, apply_ite]

/-- Updates that leave the session ids alone keep the invariant. -/
theorem WellFormed.updateConn {r : Registry} (h : r.WellFormed) (c : ConnRef)
    {f : SessionConn → SessionConn} (hf : ∀ conn, (f conn).sessionId = conn.sessionId) :
    (r.updateConn c f).WellFormed where
  sessionId_eq hget := (sessionId_updateConn hf).trans (h.sessionId_eq hget)
  id_ne_empty hget := h.id_ne_empty hget
  curConn_registered hcur := h.curConn_registered hcur
  curConn_defined hcur := h.curConn_defined hcur

/-- Moving `window.curConn` to a registered connection keeps the invariant. -/
theorem WellFormed.setCurConn {r : Registry} (h : r.WellFormed) {c : ConnRef} {s : String}
    (hreg : r.sessions.get? s = some c) : { r with curConn := some c }.WellFormed where
  sessionId_eq hget := h.sessionId_eq hget
  id_ne_empty hget := h.id_ne_empty hget
  curConn_registered hcur := ⟨s, by rwa [← Option.some.inj hcur]⟩
  curConn_defined hcur := by simp at hcur

/-- Taking a session out and advancing `window.curConn` keeps the invariant. -/
theorem WellFormed.unregister {r : Registry} (h : r.WellFormed) {c : ConnRef} {s : String}
    (hreg : r.sessions.get? s = some c) :
    ({ r with sessions := r.sessions.delete s }.advanceCurConn (some c)).WellFormed := by
  have hsub {t : String} {d : ConnRef} (hget : (r.sessions.delete s).get? t = some d) :
      r.sessions.get? t = some d := by
    by_cases hts : t = s
    · simp [hts] at hget
    · simpa [hts] using hget
  by_cases hcur : r.curConn = some c
  · have hadvance : { r with sessions := r.sessions.delete s }.advanceCurConn (some c) =
        { r with
          sessions := r.sessions.delete s
          curConn := (r.sessions.delete s).values.head? } := by
      simp [advanceCurConn, hcur]
    rw [hadvance]
    refine ⟨fun hget => h.sessionId_eq (hsub hget), fun hget => h.id_ne_empty (hsub hget), ?_, ?_⟩
    · intro d hd
      exact OrderedMap.mem_values_iff.mp (List.mem_of_head? hd)
    · intro hnone
      simpa [OrderedMap.values] using hnone
  · have hstay : { r with sessions := r.sessions.delete s }.advanceCurConn (some c) =
        { r with sessions := r.sessions.delete s } := by
      simp [advanceCurConn, hcur]
    rw [hstay]
    refine ⟨fun hget => h.sessionId_eq (hsub hget), fun hget => h.id_ne_empty (hsub hget), ?_, ?_⟩
    · intro d hd
      obtain ⟨t, ht⟩ := h.curConn_registered hd
      have hts : t ≠ s := by
        rintro rfl
        exact hcur (hd.trans (ht.symm.trans hreg))
      exact ⟨t, by simpa [hts] using ht⟩
    · intro hnone
      have hempty := OrderedMap.mem_entries_of_get? hreg
      simp [h.curConn_defined hnone] at hempty

/-- Closing a connection keeps the registry well formed. -/
theorem WellFormed.closeConn {r : Registry} (h : r.WellFormed) (c : ConnRef) :
    (r.closeConn c).WellFormed :=
  h.updateConn c fun _ => rfl

/-- Removing a session keeps the registry well formed. -/
theorem WellFormed.removeSession {r : Registry} (h : r.WellFormed) (s : String) :
    (r.removeSession s).WellFormed := by
  unfold Registry.removeSession
  split
  · next hreg =>
    by_cases hcur : r.curConn = none
    · have hentries := h.curConn_defined hcur
      have hsame : r.advanceCurConn none = r := by
        simp only [advanceCurConn, hcur, OrderedMap.values, hentries]
        simp [← hcur]
      rwa [hsame]
    · simpa [advanceCurConn, hcur] using h
  · next c hreg => exact (h.closeConn c).unregister hreg

/-- The end of a file transfer keeps the registry well formed. -/
theorem WellFormed.endFileTransferSession {r : Registry} (h : r.WellFormed)
    (sessionId : Option String) : (r.endFileTransferSession sessionId).WellFormed := by
  unfold Registry.endFileTransferSession
  split
  · exact h
  · next id =>
    split_ifs
    · exact h
    · split
      · exact h
      · next c hreg =>
        split_ifs
        · exact h
        · have hended :
              (r.updateConn c fun conn => { conn with ftSessionEnded := true }).WellFormed :=
            h.updateConn c fun _ => rfl
          exact (hended.closeConn c).unregister hreg

/-- Closing the current session keeps the registry well formed. -/
theorem WellFormed.close {r : Registry} (h : r.WellFormed) : r.close.WellFormed := by
  unfold Registry.close
  cases hcur : r.curConn with
  | none =>
    have hsame : { r with curConn := none } = r := by rw [← hcur]
    simpa [hsame] using h
  | some c =>
    obtain ⟨s, hs⟩ := h.curConn_registered hcur
    obtain ⟨conn, hconn, hid⟩ := Option.map_eq_some_iff.mp (h.sessionId_eq hs)
    simp only [hconn, Option.bind_some, hid, if_pos (h.id_ne_empty hs)]
    exact h.removeSession s

/-- A fatal error keeps the registry well formed. -/
theorem WellFormed.showFatalError {r : Registry} (h : r.WellFormed) :
    r.showFatalError.WellFormed := by
  unfold Registry.showFatalError
  split_ifs
  · exact h.endFileTransferSession _
  · exact h.close

/-- Registering a fresh connection object keeps the invariant, also under an id
that is in use. -/
theorem WellFormed.register {r : Registry} (h : r.WellFormed) {id : String} (hid : id ≠ "")
    (fresh : SessionConn) :
    (({ r with conns := r.conns ++ [fresh] } : Registry).addSession id r.conns.length).WellFormed where
  sessionId_eq := by
    intro s c hget
    by_cases hs : s = id
    · obtain rfl : r.conns.length = c := by simpa [addSession, hs] using hget
      simp [hs, addSession, Registry.updateConn, conn, List.getElem?_modify]
    · have hold : r.sessions.get? s = some c := by simpa [addSession, hs] using hget
      -- the new object is appended, so the old references still resolve
      obtain ⟨old, hconn, hsid⟩ := Option.map_eq_some_iff.mp (h.sessionId_eq hold)
      have hold' : r.conns[c]? = some old := hconn
      have hlt : c < r.conns.length := (List.getElem?_eq_some_iff.mp hold').1
      have hne : ¬ r.conns.length = c := Nat.ne_of_gt hlt
      simp [addSession, Registry.updateConn, conn, List.getElem?_modify, hne,
        List.getElem?_append_left hlt, hold', hsid]
  id_ne_empty := by
    intro s c hget
    by_cases hs : s = id
    · exact hs ▸ hid
    · exact h.id_ne_empty (by simpa [addSession, hs] using hget)
  curConn_registered hcur := ⟨id, by simpa [addSession] using hcur⟩
  curConn_defined hcur := by simp [addSession] at hcur

/-- Adding a session keeps the registry well formed. -/
theorem WellFormed.sessionAdd {r : Registry} (h : r.WellFormed)
    (data : Option SessionAddData) : (r.sessionAdd data).WellFormed := by
  unfold Registry.sessionAdd
  split
  · exact h
  · split
    · exact h
    · split
      · exact h
      · next hempty => exact h.register hempty _

/-- Only registered connections are found. -/
theorem WellFormed.getSession_registered {r : Registry} (h : r.WellFormed)
    {sessionId : Option String} {c : ConnRef} (hget : r.getSession sessionId = some c) :
    ∃ s, r.sessions.get? s = some c := by
  unfold Registry.getSession at hget
  split at hget
  · exact h.curConn_registered hget
  · split at hget
    · exact ⟨_, hget⟩
    · exact h.curConn_registered hget

/-- Starting a session keeps the registry well formed. -/
theorem WellFormed.sessionStart {r : Registry} (h : r.WellFormed)
    (data : Option SessionStartData) : (r.sessionStart data).WellFormed := by
  unfold Registry.sessionStart
  cases data with
  | none => exact h.showFatalError
  | some data =>
    cases hget : r.getSession data.sessionId with
    | none => simpa [hget] using h
    | some c =>
      obtain ⟨s, hs⟩ := h.getSession_registered hget
      simp only [hget]
      split_ifs
      · exact h.setCurConn hs
      · exact (h.setCurConn hs).showFatalError

/-- Closing a session keeps the registry well formed. -/
theorem WellFormed.sessionClose {r : Registry} (h : r.WellFormed) (value : Option String) :
    (r.sessionClose value).WellFormed := by
  unfold Registry.sessionClose
  cases value with
  | none => exact h.close
  | some id =>
    dsimp only
    split_ifs
    · exact h.removeSession id
    · exact h.close

/-- Every call and callback keeps the invariant. -/
theorem WellFormed.step {r : Registry} (h : r.WellFormed) (e : SessionEvent) :
    (r.step e).WellFormed := by
  cases e with
  | sessionAddSync data => exact h.sessionAdd data
  | sessionStart data => exact h.sessionStart data
  | sessionClose value => exact h.sessionClose value
  | endFileTransferSession id => exact h.endFileTransferSession id
  | close => exact h.close
  | fatalError => exact h.showFatalError
  | wsStatus c isOpen => exact h.updateConn c fun _ => rfl

/-- The invariant holds after every history. -/
theorem wellFormed_of_reachable {r : Registry} (hr : registryMachine.Reachable r) :
    r.WellFormed := by
  refine hr.invariant ?_ ?_
  · exact ⟨by simp [registryMachine, initial], by simp [registryMachine, initial],
      by simp [registryMachine, initial], fun _ => rfl⟩
  · intro s e t hse hs
    obtain rfl : s.step e = t := by simpa [registryMachine] using hse
    exact hs.step e

end RdWeb.Web.Registry
