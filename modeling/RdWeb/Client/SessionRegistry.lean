import RdWeb.Client.UiSessions

/-!
# The registry of peer sessions

Module `sessions` of `flutter.rs` at the granularity of its locks. `remove_session_by_session_id`
tests under one acquisition of `SESSIONS` whether the peer session is empty and takes it out under
a second one; `insert_peer_session_id` holds the read lock between finding the peer session and
writing its handlers. The windows the callers have open are kept beside the registry.
-/

namespace RdWeb.Client

variable {PeerKey SessionId : Type*}

/-- `SESSIONS`, the calls that hold a lock or a key, and what the callers know. -/
structure SessionRegistry (PeerKey SessionId : Type*) where
  /-- the UI sessions of every peer session -/
  sessions : OrderedMap PeerKey (OrderedMap SessionId SessionHandler)
  /-- `insert_peer_session_id` calls that hold the read lock of `SESSIONS` -/
  joining : List (PeerKey × SessionId × List (BitVec 32))
  /-- `remove_peer_key` of the removals between their two acquisitions -/
  emptied : List PeerKey
  /-- the windows whose insertion returned and that were not removed -/
  windows : List (PeerKey × SessionId)
  /-- the ids of all insertions so far -/
  used : List SessionId
  /-- whether no insertion so far reused an id -/
  freshIds : Bool
  /-- the peer sessions taken out so far, each as it was then -/
  taken : List (OrderedMap SessionId SessionHandler)

/-- The steps of the calls, one for each acquisition that does something. -/
inductive RegistryEvent (PeerKey SessionId : Type*)
  | insertSession (key : PeerKey) (id : SessionId)
  /-- `insert_peer_session_id` takes the read lock and looks for the peer -/
  | joinFind (key : PeerKey) (id : SessionId) (displays : List (BitVec 32))
  /-- it writes the handlers, releases both locks and returns true -/
  | joinInsert (key : PeerKey) (id : SessionId) (displays : List (BitVec 32))
  /-- the first acquisition of `remove_session_by_session_id`, with the first peer session in the
  order of the map that has the id -/
  | removeId (id : SessionId) (found : Option PeerKey)
  /-- the second one, with the key it remembers -/
  | removePeer (key : PeerKey)

namespace SessionRegistry

variable [DecidableEq PeerKey] [DecidableEq SessionId]

/-- Whether a UI session is registered under a key. -/
def Registered (s : SessionRegistry PeerKey SessionId) (key : PeerKey) (id : SessionId) : Prop :=
  ∃ handlers, s.sessions.get? key = some handlers ∧ handlers.has id = true

/-- Whether a window is registered is decided by the two maps. -/
instance (s : SessionRegistry PeerKey SessionId) (key : PeerKey) (id : SessionId) :
    Decidable (s.Registered key id) :=
  match h : s.sessions.get? key with
  | none => isFalse (by rintro ⟨handlers, hget, -⟩; simp [h] at hget)
  | some handlers =>
    decidable_of_iff (handlers.has id = true) (by simp [Registered, h])

/-- Write a handler of the peer session under a key. -/
def register (s : SessionRegistry PeerKey SessionId) (key : PeerKey) (id : SessionId)
    (handlers : OrderedMap SessionId SessionHandler) (h : SessionHandler) :
    SessionRegistry PeerKey SessionId :=
  { s with
    sessions := s.sessions.set key (handlers.set id h)
    windows := if (key, id) ∈ s.windows then s.windows else s.windows ++ [(key, id)] }

/-- An insertion that goes ahead uses its id. -/
def use (s : SessionRegistry PeerKey SessionId) (id : SessionId) :
    SessionRegistry PeerKey SessionId :=
  { s with used := s.used ++ [id], freshIds := s.freshIds && decide (id ∉ s.used) }

/-- The peer session under the key goes on without the id, or its key is remembered. -/
def detach (s : SessionRegistry PeerKey SessionId) (key : PeerKey) (id : SessionId)
    (handlers : OrderedMap SessionId SessionHandler) : SessionRegistry PeerKey SessionId :=
  { s with
    sessions := s.sessions.set key (handlers.delete id)
    emptied := if (handlers.delete id).entries = [] then s.emptied ++ [key] else s.emptied
    windows := s.windows.filter fun window => window ≠ (key, id) }

/-- `SESSIONS.write().unwrap().remove(key)`. -/
def takeOut (s : SessionRegistry PeerKey SessionId) (key : PeerKey) :
    SessionRegistry PeerKey SessionId :=
  { s with
    sessions := s.sessions.delete key
    emptied := s.emptied.erase key
    taken := s.taken ++ (s.sessions.get? key).toList }

/-- What one step does. A write lock of `SESSIONS` excludes the readers. -/
def step (s : SessionRegistry PeerKey SessionId) :
    RegistryEvent PeerKey SessionId → Option (SessionRegistry PeerKey SessionId)
  | .insertSession key id =>
    if s.joining = [] then
      some ((s.use id).register key id ((s.sessions.get? key).getD .empty) .new)
    else none
  | .joinFind key id displays =>
    match s.sessions.get? key with
    | some _ => some { s.use id with joining := s.joining ++ [(key, id, displays)] }
    | none => some s
  | .joinInsert key id displays =>
    if (key, id, displays) ∈ s.joining then
      (s.sessions.get? key).map fun handlers =>
        { s with joining := s.joining.erase (key, id, displays) }.register key id handlers
          { SessionHandler.new with displays := displays.map Host.asUsize }
    else none
  | .removeId id (some key) =>
    if s.joining = [] ∧ s.Registered key id then
      (s.sessions.get? key).map (s.detach key id)
    else none
  | .removeId id none =>
    if s.joining = [] ∧ ∀ key ∈ s.sessions.keys, ¬ s.Registered key id then
      some { s with windows := s.windows.filter fun window => window.2 ≠ id }
    else none
  | .removePeer key =>
    if s.joining = [] ∧ key ∈ s.emptied then some (s.takeOut key) else none

/-- Any calls of any threads, on an empty registry. -/
def machine : Machine (SessionRegistry PeerKey SessionId) (RegistryEvent PeerKey SessionId) :=
  ⟨⟨.empty, [], [], [], [], true, []⟩, step⟩

/-- A peer session is removed only when unused. -/
structure Sound (s : SessionRegistry PeerKey SessionId) : Prop where
  taken_unused : ∀ handlers ∈ s.taken, handlers.entries = []
  windows_registered : ∀ window ∈ s.windows, s.Registered window.1 window.2
  registered_once : s.freshIds = true → ∀ id key key',
    s.Registered key id → s.Registered key' id → key = key'

/-- A removal takes a peer session out only while none of the callers has a window open on that
peer: every window that joined it since the removal found it empty is gone again. -/
def Unjoined (s : SessionRegistry PeerKey SessionId) : RegistryEvent PeerKey SessionId → Prop
  | .removePeer key => ∀ id, (key, id) ∉ s.windows
  | _ => True

/-- The ids of the calls under way and of the open windows. -/
def ids (s : SessionRegistry PeerKey SessionId) : List SessionId :=
  (s.joining.map fun join => join.2.1) ++ s.windows.map Prod.snd

/-- What every run keeps: what is registered is a window of a caller, the peers being joined are
there, and fresh ids stay apart. -/
structure Tracked (s : SessionRegistry PeerKey SessionId) : Prop where
  registered_window : ∀ key id, s.Registered key id → (key, id) ∈ s.windows
  joining_present : ∀ join ∈ s.joining, (s.sessions.get? join.1).isSome
  ids_apart : s.freshIds = true → s.ids.Nodup
  ids_used : ∀ id ∈ s.ids, id ∈ s.used

variable {s : SessionRegistry PeerKey SessionId}

/-- Nothing is registered under a key without a session. -/
theorem not_registered_of_none {key : PeerKey} (hget : s.sessions.get? key = none)
    (id : SessionId) : ¬ s.Registered key id := by
  rintro ⟨handlers, hsome, -⟩
  rw [hget] at hsome
  cases hsome

/-- Under a key with a session its handlers are registered. -/
theorem registered_of_get {key : PeerKey} {handlers : OrderedMap SessionId SessionHandler}
    (hget : s.sessions.get? key = some handlers) (id : SessionId) :
    s.Registered key id ↔ handlers.has id = true := by
  simp [Registered, hget]

/-- Registering adds one window. -/
theorem registered_register {key k : PeerKey} {id i : SessionId}
    {handlers : OrderedMap SessionId SessionHandler} {h : SessionHandler}
    (hhandlers : ∀ i, handlers.has i = true ↔ s.Registered key i) :
    (s.register key id handlers h).Registered k i ↔
      (k = key ∧ i = id) ∨ s.Registered k i := by
  by_cases hk : k = key
  · subst hk
    have hget : (s.register k id handlers h).sessions.get? k = some (handlers.set id h) := by
      simp [register]
    rw [registered_of_get hget, ← hhandlers i]
    by_cases hi : i = id
    · simp [OrderedMap.has, hi]
    · simp [OrderedMap.has, hi]
  · simp [Registered, register, hk]

/-- Detaching takes one window away. -/
theorem registered_detach {key k : PeerKey} {id i : SessionId}
    {handlers : OrderedMap SessionId SessionHandler} (hget : s.sessions.get? key = some handlers) :
    (s.detach key id handlers).Registered k i ↔ s.Registered k i ∧ ¬ (k = key ∧ i = id) := by
  by_cases hk : k = key
  · subst hk
    have hget' : (s.detach k id handlers).sessions.get? k = some (handlers.delete id) := by
      simp [detach]
    rw [registered_of_get hget', registered_of_get hget]
    by_cases hi : i = id
    · simp [OrderedMap.has, hi]
    · simp [OrderedMap.has, hi]
  · simp [Registered, detach, hk]

/-- Taking a session out takes its windows away. -/
theorem registered_takeOut {key k : PeerKey} {i : SessionId} :
    (s.takeOut key).Registered k i ↔ s.Registered k i ∧ k ≠ key := by
  by_cases hk : k = key
  · simp [Registered, takeOut, hk]
  · simp [Registered, takeOut, hk]

/-- Registering opens one window. -/
theorem mem_windows_register {key : PeerKey} {id : SessionId}
    {handlers : OrderedMap SessionId SessionHandler} {h : SessionHandler}
    {window : PeerKey × SessionId} :
    window ∈ (s.register key id handlers h).windows ↔ window = (key, id) ∨ window ∈ s.windows := by
  simp only [register]
  split_ifs with hmem
  · constructor
    · exact Or.inr
    · rintro (rfl | hold)
      · exact hmem
      · exact hold
  · rw [List.mem_append, List.mem_singleton, or_comm]

/-- The handlers an insertion writes into are those registered under the key. -/
theorem has_getD_iff (key : PeerKey) (i : SessionId) :
    ((s.sessions.get? key).getD .empty).has i = true ↔ s.Registered key i := by
  cases hget : s.sessions.get? key with
  | none => simp [not_registered_of_none hget, OrderedMap.has]
  | some handlers => rw [registered_of_get hget, Option.getD_some]

/-- Registering a new id adds it to the windows. -/
theorem ids_register {key : PeerKey} {id : SessionId}
    {handlers : OrderedMap SessionId SessionHandler} {h : SessionHandler}
    (hnew : id ∉ s.windows.map Prod.snd) : (s.register key id handlers h).ids = s.ids ++ [id] := by
  have hmem : (key, id) ∉ s.windows := fun hmem => hnew (List.mem_map.mpr ⟨_, hmem, rfl⟩)
  simp [ids, register, hmem]

/-- Registering uses one id. -/
theorem mem_ids_register {key : PeerKey} {id i : SessionId}
    {handlers : OrderedMap SessionId SessionHandler} {h : SessionHandler}
    (hi : i ∈ (s.register key id handlers h).ids) : i = id ∨ i ∈ s.ids := by
  unfold ids at hi ⊢
  rcases List.mem_append.mp hi with hi | hi
  · exact Or.inr (List.mem_append_left _ hi)
  · obtain ⟨window, hwindow, rfl⟩ := List.mem_map.mp hi
    rcases mem_windows_register.mp hwindow with rfl | hold
    · exact Or.inl rfl
    · exact Or.inr (List.mem_append_right _ (List.mem_map.mpr ⟨window, hold, rfl⟩))

/-- What an accepted removal event says. -/
theorem step_removeId_some {id : SessionId} {key : PeerKey} {t : SessionRegistry PeerKey SessionId}
    (hstep : s.step (.removeId id (some key)) = some t) :
    s.joining = [] ∧ ∃ handlers, s.sessions.get? key = some handlers ∧
      s.Registered key id ∧ s.detach key id handlers = t := by
  simp only [step] at hstep
  split_ifs at hstep with hguard
  obtain ⟨handlers, hget, rfl⟩ := Option.map_eq_some_iff.mp hstep
  exact ⟨hguard.1, handlers, hget, hguard.2, rfl⟩

/-- A removal that finds nothing has looked at all keys. -/
theorem step_removeId_none {id : SessionId} {t : SessionRegistry PeerKey SessionId}
    (hstep : s.step (.removeId id none) = some t) :
    s.joining = [] ∧ (∀ key, ¬ s.Registered key id) ∧
      { s with windows := s.windows.filter fun window => window.2 ≠ id } = t := by
  simp only [step] at hstep
  split_ifs at hstep with hguard
  refine ⟨hguard.1, fun key hreg => ?_, Option.some.inj hstep⟩
  have hkey : key ∈ s.sessions.keys := by
    obtain ⟨handlers, hget, -⟩ := hreg
    exact OrderedMap.mem_keys_iff.mpr ⟨handlers, hget⟩
  exact hguard.2 key hkey hreg

/-- A join that inserts was begun, and its session is still there. -/
theorem step_joinInsert {key : PeerKey} {id : SessionId} {displays : List (BitVec 32)}
    {t : SessionRegistry PeerKey SessionId}
    (hstep : s.step (.joinInsert key id displays) = some t) :
    (key, id, displays) ∈ s.joining ∧ ∃ handlers, s.sessions.get? key = some handlers ∧
      { s with joining := s.joining.erase (key, id, displays) }.register key id handlers
        { SessionHandler.new with displays := displays.map Host.asUsize } = t := by
  simp only [step] at hstep
  split_ifs at hstep with hguard
  obtain ⟨handlers, hget, rfl⟩ := Option.map_eq_some_iff.mp hstep
  exact ⟨hguard, handlers, hget, rfl⟩

/-- Starting a session keeps the ids tracked. -/
theorem Tracked.insertSession (h : s.Tracked) (hjoining : s.joining = []) (key : PeerKey)
    (id : SessionId) :
    ((s.use id).register key id ((s.sessions.get? key).getD .empty) .new).Tracked where
  registered_window k i hreg := by
    rcases (registered_register (s := s.use id) (has_getD_iff key)).mp hreg with ⟨rfl, rfl⟩ | hold
    · exact mem_windows_register.mpr (Or.inl rfl)
    · exact mem_windows_register.mpr (Or.inr (h.registered_window k i hold))
  joining_present join hjoin := by
    have hnil : join ∈ s.joining := hjoin
    rw [hjoining] at hnil
    cases hnil
  ids_apart hfresh := by
    have hboth : s.freshIds = true ∧ id ∉ s.used := by
      simpa [register, use] using hfresh
    have hnew : id ∉ s.ids := fun hmem => hboth.2 (h.ids_used id hmem)
    have hwindows : id ∉ s.windows.map Prod.snd := fun hmem => hnew (List.mem_append_right _ hmem)
    rw [ids_register (s := s.use id) hwindows]
    exact List.concat_eq_append ▸ (h.ids_apart hboth.1).concat hnew
  ids_used i hi := by
    show i ∈ s.used ++ [id]
    rcases mem_ids_register hi with rfl | hold
    · simp
    · exact List.mem_append_left _ (h.ids_used i hold)

/-- Beginning a join keeps the ids tracked. -/
theorem Tracked.joinFind (h : s.Tracked) {key : PeerKey}
    {handlers : OrderedMap SessionId SessionHandler} (hget : s.sessions.get? key = some handlers)
    (id : SessionId) (displays : List (BitVec 32)) :
    { s.use id with joining := s.joining ++ [(key, id, displays)] }.Tracked where
  registered_window := h.registered_window
  joining_present join hjoin := by
    rcases List.mem_append.mp hjoin with hold | hnew
    · exact h.joining_present join hold
    · obtain rfl := List.mem_singleton.mp hnew
      show (s.sessions.get? key).isSome
      rw [hget]
      rfl
  ids_apart hfresh := by
    have hboth : s.freshIds = true ∧ id ∉ s.used := by simpa [use] using hfresh
    have hnew : id ∉ s.ids := fun hmem => hboth.2 (h.ids_used id hmem)
    have hperm : ((s.joining ++ [(key, id, displays)]).map (fun join => join.2.1) ++
        s.windows.map Prod.snd).Perm (id :: s.ids) := by
      simp only [List.map_append, List.map_cons, List.map_nil, List.append_assoc, ids]
      exact List.perm_middle
    exact hperm.nodup_iff.mpr (List.nodup_cons.mpr ⟨hnew, h.ids_apart hboth.1⟩)
  ids_used i hi := by
    show i ∈ s.used ++ [id]
    unfold ids at hi
    simp only [List.map_append, List.mem_append] at hi
    rcases hi with (hold | hnew) | hold
    · exact List.mem_append_left _ (h.ids_used i (List.mem_append_left _ hold))
    · obtain rfl : i = id := by simpa using hnew
      simp
    · exact List.mem_append_left _ (h.ids_used i (List.mem_append_right _ hold))

/-- Finishing a join keeps the ids tracked. -/
theorem Tracked.joinInsert (h : s.Tracked) {key : PeerKey} {id : SessionId}
    {displays : List (BitVec 32)} (hjoin : (key, id, displays) ∈ s.joining)
    {handlers : OrderedMap SessionId SessionHandler} (hget : s.sessions.get? key = some handlers)
    (handler : SessionHandler) :
    ({ s with joining := s.joining.erase (key, id, displays) }.register key id handlers
      handler).Tracked where
  registered_window k i hreg := by
    have hhandlers (i : SessionId) : handlers.has i = true ↔
        { s with joining := s.joining.erase (key, id, displays) }.Registered key i :=
      (registered_of_get hget i).symm
    rcases (registered_register hhandlers).mp hreg with ⟨rfl, rfl⟩ | hold
    · exact mem_windows_register.mpr (Or.inl rfl)
    · exact mem_windows_register.mpr (Or.inr (h.registered_window k i hold))
  joining_present join hmem := by
    have hsome := h.joining_present join (List.mem_of_mem_erase hmem)
    simp only [register, OrderedMap.get?_set]
    split_ifs
    · rfl
    · exact hsome
  ids_apart hfresh := by
    have hnodup := h.ids_apart hfresh
    have hnew : id ∉ s.windows.map Prod.snd := by
      intro hmem
      exact List.disjoint_of_nodup_append hnodup (List.mem_map.mpr ⟨_, hjoin, rfl⟩) hmem
    have hperm : (({ s with joining := s.joining.erase (key, id, displays) } :
        SessionRegistry PeerKey SessionId).ids ++ [id]).Perm s.ids := by
      have hmoved := ((List.perm_cons_erase hjoin).map fun join => join.2.1).symm
      unfold ids
      refine List.perm_append_comm.trans ?_
      exact hmoved.append_right _
    rw [ids_register (s := { s with joining := s.joining.erase (key, id, displays) }) hnew]
    exact hperm.nodup_iff.mpr hnodup
  ids_used i hi := by
    show i ∈ s.used
    rcases mem_ids_register hi with rfl | hold
    · exact h.ids_used _ (List.mem_append_left _ (List.mem_map.mpr ⟨_, hjoin, rfl⟩))
    · refine h.ids_used i ?_
      unfold ids at hold ⊢
      rcases List.mem_append.mp hold with hold | hold
      · obtain ⟨join, hmem, rfl⟩ := List.mem_map.mp hold
        exact List.mem_append_left _ (List.mem_map.mpr ⟨join, List.mem_of_mem_erase hmem, rfl⟩)
      · exact List.mem_append_right _ hold

/-- Closing windows keeps the ids apart. -/
theorem Tracked.closing (h : s.Tracked) {t : SessionRegistry PeerKey SessionId}
    (hjoining : t.joining = s.joining) (hwindows : t.windows.Sublist s.windows)
    (hused : t.used = s.used) (hfresh : t.freshIds = s.freshIds)
    (hpresent : ∀ join ∈ s.joining, (t.sessions.get? join.1).isSome)
    (hregistered : ∀ key id, t.Registered key id → (key, id) ∈ t.windows) : t.Tracked := by
  have hids : t.ids.Sublist s.ids := by
    unfold ids
    rw [hjoining]
    exact (List.Sublist.refl _).append (hwindows.map _)
  refine ⟨hregistered, hjoining ▸ hpresent, fun ht => ?_, fun i hi => ?_⟩
  · exact (h.ids_apart (hfresh ▸ ht)).sublist hids
  · exact hused ▸ h.ids_used i (hids.subset hi)

/-- **Every step** keeps the callers' windows in line with the registry. -/
theorem Tracked.step (h : s.Tracked) {e : RegistryEvent PeerKey SessionId}
    {t : SessionRegistry PeerKey SessionId} (hstep : s.step e = some t) : t.Tracked := by
  cases e with
  | insertSession key id =>
    simp only [SessionRegistry.step] at hstep
    split_ifs at hstep with hjoining
    obtain rfl := Option.some.inj hstep
    exact h.insertSession hjoining key id
  | joinFind key id displays =>
    simp only [SessionRegistry.step] at hstep
    cases hget : s.sessions.get? key with
    | none =>
      rw [hget] at hstep
      obtain rfl := Option.some.inj hstep
      exact h
    | some handlers =>
      rw [hget] at hstep
      obtain rfl := Option.some.inj hstep
      exact h.joinFind hget id displays
  | joinInsert key id displays =>
    obtain ⟨hjoin, handlers, hget, rfl⟩ := step_joinInsert hstep
    exact h.joinInsert hjoin hget _
  | removeId id found =>
    cases found with
    | some key =>
      obtain ⟨hjoining, handlers, hget, -, rfl⟩ := step_removeId_some hstep
      refine h.closing rfl List.filter_sublist rfl rfl (by simp [hjoining]) fun k i hreg => ?_
      obtain ⟨hold, hother⟩ := (registered_detach hget).mp hreg
      refine List.mem_filter.mpr ⟨h.registered_window k i hold, ?_⟩
      simpa only [ne_eq, Prod.mk.injEq, decide_eq_true_eq] using hother
    | none =>
      obtain ⟨hjoining, hnone, rfl⟩ := step_removeId_none hstep
      refine h.closing rfl List.filter_sublist rfl rfl (by simp [hjoining]) fun k i hreg => ?_
      have hother : i ≠ id := fun hi => hnone k (hi ▸ hreg)
      exact List.mem_filter.mpr ⟨h.registered_window k i hreg, by simpa using hother⟩
  | removePeer key =>
    simp only [SessionRegistry.step] at hstep
    split_ifs at hstep with hguard
    obtain rfl := Option.some.inj hstep
    refine h.closing rfl (List.Sublist.refl _) rfl rfl (by simp [hguard.1]) fun k i hreg => ?_
    exact h.registered_window k i (registered_takeOut.mp hreg).1

/-- Ids that are kept apart are registered once. -/
theorem Tracked.registered_once (h : s.Tracked) (hfresh : s.freshIds = true) {id : SessionId}
    {key key' : PeerKey} (hreg : s.Registered key id) (hreg' : s.Registered key' id) :
    key = key' := by
  have hnodup := (List.nodup_append.mp (h.ids_apart hfresh)).2.1
  have hsame := List.inj_on_of_nodup_map hnodup (h.registered_window _ _ hreg)
    (h.registered_window _ _ hreg') rfl
  exact (Prod.mk.inj hsame).1

/-- What is left to show of a sound registry. -/
theorem Tracked.sound (h : s.Tracked) (htaken : ∀ handlers ∈ s.taken, handlers.entries = [])
    (hwindows : ∀ window ∈ s.windows, s.Registered window.1 window.2) : s.Sound :=
  ⟨htaken, hwindows, fun hfresh _ _ _ hreg hreg' => h.registered_once hfresh hreg hreg'⟩

/-- Every window stays registered when one registers. -/
theorem windows_registered_register {key : PeerKey} {id : SessionId}
    {handlers : OrderedMap SessionId SessionHandler} {h : SessionHandler}
    (hhandlers : ∀ i, handlers.has i = true ↔ s.Registered key i)
    (hwindows : ∀ window ∈ s.windows, s.Registered window.1 window.2) :
    ∀ window ∈ (s.register key id handlers h).windows,
      (s.register key id handlers h).Registered window.1 window.2 := by
  intro window hwindow
  rw [registered_register hhandlers]
  rcases mem_windows_register.mp hwindow with rfl | hold
  · exact Or.inl ⟨rfl, rfl⟩
  · exact Or.inr (hwindows window hold)

/-- An empty peer session has no UI session, and one without windows is empty. -/
theorem Tracked.entries_eq_nil_iff (h : s.Tracked) (hsound : s.Sound) {key : PeerKey}
    {handlers : OrderedMap SessionId SessionHandler} (hget : s.sessions.get? key = some handlers) :
    handlers.entries = [] ↔ ∀ id, (key, id) ∉ s.windows := by
  constructor
  · intro hempty id hwindow
    have hhas := (registered_of_get hget id).mp (hsound.windows_registered _ hwindow)
    obtain ⟨handler, hhandler⟩ := OrderedMap.has_iff.mp hhas
    have hmem := OrderedMap.mem_entries_of_get? hhandler
    rw [hempty] at hmem
    cases hmem
  · intro hnone
    rw [List.eq_nil_iff_forall_not_mem]
    rintro ⟨id, handler⟩ hmem
    have hhas := OrderedMap.has_iff.mpr ⟨handler, OrderedMap.get?_of_mem_entries hmem⟩
    exact hnone id (h.registered_window key id ((registered_of_get hget id).mpr hhas))

/-- Taking a session out is sound if and only if no window shows it. -/
theorem sound_takeOut_iff {key : PeerKey} (h : s.Tracked) (hsound : s.Sound)
    (ht : (s.takeOut key).Tracked) :
    (s.takeOut key).Sound ↔ ∀ id, (key, id) ∉ s.windows := by
  constructor
  · intro hafter id hwindow
    have hreg := hafter.windows_registered _ hwindow
    exact (registered_takeOut.mp hreg).2 rfl
  · intro hnone
    refine ht.sound ?_ ?_
    · intro handlers hmem
      rcases List.mem_append.mp hmem with hold | hnew
      · exact hsound.taken_unused handlers hold
      · exact (h.entries_eq_nil_iff hsound (Option.mem_toList.mp hnew)).mpr hnone
    · intro window hwindow
      refine registered_takeOut.mpr ⟨hsound.windows_registered window hwindow, ?_⟩
      rintro rfl
      exact hnone window.2 hwindow

/-- **One step** keeps the registry sound if and only if it does not take out a peer session that
a window joined. -/
theorem sound_step_iff {e : RegistryEvent PeerKey SessionId}
    {t : SessionRegistry PeerKey SessionId} (hstep : s.step e = some t) (h : s.Tracked)
    (hsound : s.Sound) : t.Sound ↔ s.Unjoined e := by
  have ht := h.step hstep
  cases e with
  | insertSession key id =>
    simp only [step] at hstep
    split_ifs at hstep with hjoining
    obtain rfl := Option.some.inj hstep
    exact iff_of_true (ht.sound hsound.taken_unused
      (windows_registered_register (s := s.use id) (has_getD_iff key)
        hsound.windows_registered)) trivial
  | joinFind key id displays =>
    simp only [step] at hstep
    split at hstep
    · obtain rfl := Option.some.inj hstep
      exact iff_of_true (ht.sound hsound.taken_unused hsound.windows_registered) trivial
    · obtain rfl := Option.some.inj hstep
      exact iff_of_true hsound trivial
  | joinInsert key id displays =>
    obtain ⟨hjoin, handlers, hget, rfl⟩ := step_joinInsert hstep
    exact iff_of_true (ht.sound hsound.taken_unused
      (windows_registered_register (s := { s with joining := s.joining.erase (key, id, displays) })
        (fun i => (registered_of_get hget i).symm) hsound.windows_registered)) trivial
  | removeId id found =>
    cases found with
    | some key =>
      obtain ⟨-, handlers, hget, -, rfl⟩ := step_removeId_some hstep
      refine iff_of_true (ht.sound hsound.taken_unused fun window hwindow => ?_) trivial
      obtain ⟨hold, hother⟩ := List.mem_filter.mp hwindow
      refine (registered_detach hget).mpr ⟨hsound.windows_registered window hold, ?_⟩
      rintro ⟨hkey, hid⟩
      have hsame : window = (key, id) := Prod.ext hkey hid
      simp [hsame] at hother
    | none =>
      obtain ⟨-, -, rfl⟩ := step_removeId_none hstep
      exact iff_of_true (ht.sound hsound.taken_unused fun window hwindow =>
        hsound.windows_registered window (List.mem_of_mem_filter hwindow)) trivial
  | removePeer key =>
    simp only [step] at hstep
    split_ifs at hstep with hguard
    obtain rfl := Option.some.inj hstep
    exact sound_takeOut_iff h hsound ht

/-- **Peer sessions are removed only when unused.** In any interleaving of the calls, the registry
is sound all along if and only if no removal takes out a peer session that a window joined between
its two acquisitions and still has open. -/
theorem sound_iff_unjoined {events : List (RegistryEvent PeerKey SessionId)}
    (hrun : machine.Run machine.init events s) :
    (∀ first u, first <+: events → machine.Run machine.init first u → u.Sound) ↔
      machine.RunWhere Unjoined machine.init events s := by
  have htracked : (machine : Machine (SessionRegistry PeerKey SessionId) _).init.Tracked := by
    refine ⟨?_, ?_, fun _ => List.nodup_nil, ?_⟩
    · rintro key id ⟨handlers, hget, -⟩
      cases hget
    · rintro join hjoin
      cases hjoin
    · rintro id hid
      cases hid
  have hsound : (machine : Machine (SessionRegistry PeerKey SessionId) _).init.Sound :=
    htracked.sound (by rintro _ hmem; cases hmem) (by rintro _ hmem; cases hmem)
  exact Machine.runWhere_iff_beside (fun _ _ _ hstep h => h.step hstep)
    (fun _ _ _ hstep h hs => sound_step_iff hstep h hs) htracked hsound hrun

/-- A window opens and closes a peer session, and then another one opens a new one. -/
def oneAfterTheOther : List (RegistryEvent ℕ ℕ) :=
  [.insertSession 5 1, .joinFind 5 2 [0], .joinInsert 5 2 [0], .removeId 1 (some 5),
    .removeId 2 (some 5), .removePeer 5, .joinFind 5 3 [0], .insertSession 5 3]

/-- The registry after these steps. -/
def afterOneAfterTheOther : SessionRegistry ℕ ℕ :=
  (machine.replay machine.init oneAfterTheOther).getD machine.init

/-- The equivalence on a run in which a session is left before it is joined again. -/
theorem sound_iff_unjoined_oneAfterTheOther :
    (∀ first u, first <+: oneAfterTheOther → machine.Run machine.init first u → u.Sound) ↔
      machine.RunWhere Unjoined machine.init oneAfterTheOther afterOneAfterTheOther :=
  sound_iff_unjoined (Machine.run_of_replay rfl)

/-- A second window joins a peer session between the two acquisitions of the removal of the
first. -/
def joinedWhileRemoved : List (RegistryEvent ℕ ℕ) :=
  [.insertSession 5 1, .removeId 1 (some 5), .joinFind 5 2 [0], .joinInsert 5 2 [0],
    .removePeer 5]

/-- The registry after these steps. -/
def afterJoinedWhileRemoved : SessionRegistry ℕ ℕ :=
  (machine.replay machine.init joinedWhileRemoved).getD machine.init

/-- A window that joins while the last one leaves is lost. -/
theorem not_sound_joinedWhileRemoved :
    ¬ ∀ events (s : SessionRegistry ℕ ℕ), machine.Run machine.init events s → s.Sound := by
  intro hall
  have hsound := hall joinedWhileRemoved afterJoinedWhileRemoved (Machine.run_of_replay rfl)
  have hwindow := hsound.windows_registered (5, 2) (by decide)
  revert hwindow
  decide

end SessionRegistry

end RdWeb.Client
