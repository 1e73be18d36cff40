import RdWeb.Web.SessionInvariant

/-!
# Which connection a bridge call acts on

Every `setByName` and `getByName` handler reaches its connection through the
context `bridgeContext` builds for the session id of the call. The last result
says exactly when that connection is the one registered under the id.
-/

namespace RdWeb.Web

/-- The accessor of `bridgeContext` a handler goes through. -/
inductive Accessor
  | rd
  | ft
  | curConn
  deriving DecidableEq, Repr

/-- The handlers that act on a connection, under their bridge names. -/
inductive BridgeCall
  -- set_ft.js
  | readRemoteDir | sendFiles | confirmOverrideFile | removeFile | readDirToRemoveRecursive
  | removeAllEmptyDirs | cancelJob | createDir | renameFile | selectFiles | sendLocalFiles
  | sendFolderUpload | addJob | resumeJob | readRemoteEmptyDirs
  -- set_rd.js, get_rd.js and the key events of set_common.js
  | refresh | toggleOption | togglePrivacyMode | imageQuality | lockScreen | ctrlAltDel
  | switchDisplay | inputKey | inputString | sendMouse | send2fa | inputOsPassword
  | elevateWithLogon | restart | changePreferCodec | optionToggle | flutterKeyEvent
  -- set_common.js and get_storage.js
  | login | optionSession | forget | remember | getToggleOption | platform | hostname
  deriving DecidableEq, Repr

/-- The accessor each handler goes through. -/
def BridgeCall.accessor : BridgeCall → Accessor
  | readRemoteDir | sendFiles | confirmOverrideFile | removeFile | readDirToRemoveRecursive
  | removeAllEmptyDirs | cancelJob | createDir | renameFile | selectFiles | sendLocalFiles
  | sendFolderUpload | addJob | resumeJob | readRemoteEmptyDirs => .ft
  | refresh | toggleOption | togglePrivacyMode | imageQuality | lockScreen | ctrlAltDel
  | switchDisplay | inputKey | inputString | sendMouse | send2fa | inputOsPassword
  | elevateWithLogon | restart | changePreferCodec | optionToggle | flutterKeyEvent => .rd
  | login | optionSession | forget | remember | getToggleOption | platform | hostname => .curConn

namespace Registry

/-- `bridgeContext`: the connection each accessor yields for a session id. -/
def bridgeContext (r : Registry) (sessionId : Option String) : Accessor → Option ConnRef
  | .rd => r.requireRemoteDesktop sessionId
  | .ft => r.requireFileTransfer sessionId
  | .curConn => r.connFor sessionId

/-- The connection a bridge call with this session id acts on. -/
def target (r : Registry) (sessionId : Option String) (call : BridgeCall) : Option ConnRef :=
  r.bridgeContext sessionId call.accessor

/-- Every bridge call addressed to `s` acts on the connection registered under
`s`, or on nothing. -/
def Isolated (r : Registry) (s : String) : Prop :=
  ∀ call, r.target (some s) call = none ∨ r.target (some s) call = r.sessions.get? s

/-- A registered id is looked up strictly. -/
theorem getSession_of_registered {r : Registry} {s : String} {c : ConnRef} (hs : s ≠ "")
    (hreg : r.sessions.get? s = some c) : r.getSession (some s) = r.sessions.get? s := by
  simp [getSession, hs, OrderedMap.has, hreg]

/-- An id that is not registered is looked up as `window.curConn`. -/
theorem getSession_of_not_registered {r : Registry} {s : String}
    (hreg : r.sessions.get? s = none) : r.getSession (some s) = r.curConn := by
  simp [getSession, OrderedMap.has, hreg]

/-- Every accessor yields nothing or what `getSession` yields, once `connFor` has
no reason to fall back. -/
theorem bridgeContext_eq_none_or {r : Registry} {sessionId : Option String} {c : Option ConnRef}
    (hget : r.getSession sessionId = c) (hcur : c = none → r.curConn = none)
    (accessor : Accessor) :
    r.bridgeContext sessionId accessor = none ∨ r.bridgeContext sessionId accessor = c := by
  cases accessor with
  | rd =>
    simp only [bridgeContext, requireRemoteDesktop, hget]
    split_ifs <;> simp
  | ft =>
    simp only [bridgeContext, requireFileTransfer, hget]
    split_ifs <;> simp
  | curConn =>
    right
    simp only [bridgeContext, connFor, hget]
    cases c with
    | none => simpa using hcur rfl
    | some c => rfl

/-- **Session isolation.** After any history, the calls addressed to an id stay
within its session exactly when the id is registered or no session is open at
all. While another session is open, a call addressed to an id that is closed or
was never added reaches that other session. -/
theorem isolated_iff {r : Registry} (hr : registryMachine.Reachable r) {s : String} (hs : s ≠ "") :
    r.Isolated s ↔ r.sessions.has s = true ∨ r.sessions.keys = [] := by
  have hwf := wellFormed_of_reachable hr
  constructor
  · intro hiso
    by_contra hnot
    obtain ⟨hunreg, hopen⟩ := not_or.mp hnot
    have hnone : r.sessions.get? s = none :=
      OrderedMap.has_eq_false_iff.mp (by simpa using hunreg)
    cases hcur : r.curConn with
    | none => exact hopen (by simp [OrderedMap.keys, hwf.curConn_defined hcur])
    | some c =>
      -- `login` acts on `connFor`, which falls back to `window.curConn`
      have hlogin : r.target (some s) .login = some c := by
        simp [target, BridgeCall.accessor, bridgeContext, connFor,
          getSession_of_not_registered hnone, hcur]
      rcases hiso .login with h | h <;> simp [hlogin, hnone] at h
  · rintro (hreg | hempty) call
    · obtain ⟨c, hc⟩ := OrderedMap.has_iff.mp hreg
      exact bridgeContext_eq_none_or (getSession_of_registered hs hc) (by simp [hc]) _
    · have hentries : r.sessions.entries = [] := List.map_eq_nil_iff.mp hempty
      have hnone : r.sessions.get? s = none := by
        simp [OrderedMap.get?, hentries, OrderedMap.lookupIn]
      have hcur : r.curConn = none := by
        cases hcur : r.curConn with
        | none => rfl
        | some c =>
          obtain ⟨t, ht⟩ := hwf.curConn_registered hcur
          have hmem := OrderedMap.mem_entries_of_get? ht
          simp [hentries] at hmem
      have hget := getSession_of_not_registered hnone
      exact bridgeContext_eq_none_or (hget.trans (hcur.trans hnone.symm)) (fun _ => hcur) _

/-- Two file-transfer sessions are added and the first one is closed. -/
def closedBesideOpen : List SessionEvent :=
  [.sessionAddSync (some ⟨some "a", true⟩), .sessionAddSync (some ⟨some "b", true⟩),
    .sessionClose (some "a")]

/-- The registry `closedBesideOpen` leaves behind. -/
def afterClose : Registry := closedBesideOpen.foldl Registry.step .initial

/-- The registry after a close can be reached. -/
theorem afterClose_reachable : registryMachine.Reachable afterClose :=
  ⟨closedBesideOpen, Machine.run_of_replay rfl⟩

/-- `isolated_iff` at the id that stays open. -/
theorem isolated_iff_open_session :
    afterClose.Isolated "b" ↔
      afterClose.sessions.has "b" = true ∨ afterClose.sessions.keys = [] :=
  isolated_iff afterClose_reachable (by decide)

/-- A cancel addressed to the closed session reaches the session still open. -/
theorem not_isolated_after_close :
    ¬ ∀ r, registryMachine.Reachable r → ∀ s, s ≠ "" → r.Isolated s := by
  intro h
  have hcancel := h afterClose afterClose_reachable "a" (by decide) .cancelJob
  revert hcancel
  decide

end Registry

end RdWeb.Web
