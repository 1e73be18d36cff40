import RdWeb.Host.MouseCursor
import RdWeb.Lib.Machine

/-!
# The cursor service

`run_cursor` of `input_service.rs` in the loop of `ServiceTmpl::repeat`, with the subscriptions
that arrive between any two of its uses of the lock. A new subscriber waits in `new_subscribes` for
a snapshot with the cursor and then joins `subscribes`, to which a new cursor is sent.
-/

namespace RdWeb.Host

/-- `StateCursor`. -/
structure StateCursor where
  hcursor : UInt64
  cursorData : CursorMessage
  cachedCursorData : OrderedMap UInt64 CursorMessage

namespace StateCursor

/-- `Default::default()`, and what `reset` goes back to. -/
def default : StateCursor := ⟨0, .default, .empty⟩

/-- The message for a handle that is not the last one, from the cache or from what
`get_cursor_data` returns, and the state up to the `send_shared`. -/
def nextMessage (compress : List UInt8 → List UInt8) (state : StateCursor) (hcursor : UInt64)
    (data : Option CursorData) : Option (CursorMessage × StateCursor) :=
  match state.cachedCursorData.get? hcursor with
  | some cached => some (cached, { state with hcursor := hcursor })
  | none => data.map fun data =>
      let msg := .cursorData { data with colors := compress data.colors }
      (msg, { state with
        hcursor := hcursor
        cachedCursorData := state.cachedCursorData.set hcursor msg })

end StateCursor

/-- What the thread of `repeat` does next. `handle` is what `get_cursor` has returned to the
running `run_cursor`. -/
inductive CursorPhase
  | hasSubscribes
  | reset
  | getCursor
  | sendShared (hcursor : UInt64) (msg : CursorMessage)
  | snapshot (handle : Option UInt64)
  | sendNewSubscribes (handle : Option UInt64)
  | swapNewSubscribes (handle : Option UInt64)

/-- `ServiceInner` behind its lock, and the variables of the thread. -/
structure CursorService where
  subscribes : OrderedMap ℤ MouseCursorSub
  newSubscribes : OrderedMap ℤ MouseCursorSub
  state : StateCursor
  mayReset : Bool
  phase : CursorPhase

/-- A subscription that comes or goes, or a step of the thread. `handle` is what `get_cursor`
returns, `none` for an error, and `data` what `get_cursor_data` returns where it is asked. -/
inductive CursorEvent
  | onSubscribe (id : ℤ)
  | onUnsubscribe (id : ℤ)
  | hasSubscribes
  | reset
  | getCursor (handle : Option (Option UInt64)) (data : Option CursorData)
  | sendShared
  | snapshot
  | sendNewSubscribes
  | swapNewSubscribes

namespace CursorService

/-- `new_cursor`. -/
def new : CursorService := ⟨.empty, .empty, .default, false, .hasSubscribes⟩

/-- The thread goes on to a phase. -/
def setPhase (s : CursorService) (phase : CursorPhase) : CursorService := { s with phase := phase }

/-- A snapshot was sent, and the swap is still to come. -/
def snapshotSent (s : CursorService) : Bool :=
  match s.phase with
  | .swapNewSubscribes _ => true
  | _ => false

/-- The cursor service needs a snapshot. -/
def onSubscribe (s : CursorService) (id : ℤ) : CursorService :=
  if s.subscribes.has id then s
  else
    { s with
      newSubscribes := s.newSubscribes.set id (.ofConnInner id s.snapshotSent) }

/-- A subscription ends. -/
def onUnsubscribe (s : CursorService) (id : ℤ) : CursorService :=
  if s.subscribes.has id then { s with subscribes := s.subscribes.delete id }
  else { s with newSubscribes := s.newSubscribes.delete id }

/-- The start of the loop of `repeat`. -/
def hasSubscribes (s : CursorService) : CursorService :=
  if s.subscribes.keys.length > 0 ∨ s.newSubscribes.keys.length > 0 then
    { s with mayReset := true, phase := .getCursor }
  else if s.mayReset then s.setPhase .reset
  else s

/-- The service starts again. -/
def reset (s : CursorService) : CursorService :=
  { s with state := .default, mayReset := false, phase := .hasSubscribes }

/-- `run_cursor` up to the `send_shared`. After an error the loop starts over. -/
def getCursor (compress : List UInt8 → List UInt8) (s : CursorService) (data : Option CursorData) :
    Option (Option UInt64) → CursorService
  | none => s.setPhase .hasSubscribes
  | some none => s.setPhase (.snapshot none)
  | some (some hcursor) =>
    if hcursor ≠ s.state.hcursor then
      match s.state.nextMessage compress hcursor data with
      | none => s.setPhase .hasSubscribes
      | some (msg, state) => { s with state := state, phase := .sendShared hcursor msg }
    else s.setPhase (.snapshot (some hcursor))

/-- `sp.send_shared`, and then `state.cursor_data = msg`. -/
def sendShared (s : CursorService) (hcursor : UInt64) (msg : CursorMessage) : CursorService :=
  { s with
    subscribes := s.subscribes.mapValues (·.send msg)
    state := { s.state with cursorData := msg }
    phase := .snapshot (some hcursor) }

/-- The check of `snapshot`. Where nobody waits, `run_cursor` returns. -/
def snapshot (s : CursorService) (handle : Option UInt64) : CursorService :=
  if s.newSubscribes.keys.length > 0 then s.setPhase (.sendNewSubscribes handle)
  else s.setPhase .hasSubscribes

/-- `sps.send_shared`. -/
def sendNewSubscribes (s : CursorService) (handle : Option UInt64) : CursorService :=
  { s with
    newSubscribes := s.newSubscribes.mapValues (·.send s.state.cursorData)
    phase := .swapNewSubscribes handle }

/-- `Drop` of the `ServiceSwap`; then `run_cursor` returns. -/
def swapNewSubscribes (s : CursorService) : CursorService :=
  { s with
    subscribes := s.subscribes.setAll (·.id) s.newSubscribes.values
    newSubscribes := .empty
    phase := .hasSubscribes }

/-- The data is that of the handle. -/
def Describes (handle : Option (Option UInt64)) (data : Option CursorData) : Prop :=
  ∀ d, data = some d → handle = some (some d.id)

/-- Whether the data describe the handle is decided by comparing them. -/
instance (handle : Option (Option UInt64)) (data : Option CursorData) :
    Decidable (Describes handle data) :=
  match data with
  | none => isTrue fun _ h => nomatch h
  | some d => decidable_of_iff (handle = some (some d.id))
      ⟨fun h d' hd => by rw [h, Option.some.inj hd], fun h => h d rfl⟩

/-- One step: the thread takes the one its phase is for. -/
def step (compress : List UInt8 → List UInt8) (s : CursorService) :
    CursorEvent → Option CursorService
  | .onSubscribe id => some (s.onSubscribe id)
  | .onUnsubscribe id => some (s.onUnsubscribe id)
  | .hasSubscribes =>
    match s.phase with
    | .hasSubscribes => some s.hasSubscribes
    | _ => none
  | .reset =>
    match s.phase with
    | .reset => some s.reset
    | _ => none
  | .getCursor handle data =>
    match s.phase with
    | .getCursor => if Describes handle data then some (s.getCursor compress data handle) else none
    | _ => none
  | .sendShared =>
    match s.phase with
    | .sendShared hcursor msg => some (s.sendShared hcursor msg)
    | _ => none
  | .snapshot =>
    match s.phase with
    | .snapshot handle => some (s.snapshot handle)
    | _ => none
  | .sendNewSubscribes =>
    match s.phase with
    | .sendNewSubscribes handle => some (s.sendNewSubscribes handle)
    | _ => none
  | .swapNewSubscribes =>
    match s.phase with
    | .swapNewSubscribes _ => some s.swapNewSubscribes
    | _ => none

/-- The service with its thread; `compress` is that of the colors. -/
def machine (compress : List UInt8 → List UInt8) : Machine CursorService CursorEvent :=
  ⟨new, step compress⟩

/-- The handle of the `run_cursor` that returns `Ok` by this step, where there was one. -/
def returns (s : CursorService) : CursorEvent → Option UInt64
  | .snapshot =>
    match s.phase with
    | .snapshot handle => if s.newSubscribes.keys.length > 0 then none else handle
    | _ => none
  | .swapNewSubscribes =>
    match s.phase with
    | .swapNewSubscribes handle => handle
    | _ => none
  | _ => none

/-- A subscription that has not ended. -/
def Has (s : CursorService) (sub : MouseCursorSub) : Prop :=
  ∃ id, s.subscribes.get? id = some sub ∨ s.newSubscribes.get? id = some sub

/-- After a step no subscriber has an id before its data, and after a `run_cursor` with a handle
all of them know it as the current one. -/
def Informs (s : CursorService) (e : CursorEvent) (t : CursorService) : Prop :=
  (∀ sub, t.Has sub → sub.IdsAfterData) ∧
    ∀ hcursor, s.returns e = some hcursor → ∀ sub, t.Has sub → sub.lastCursor = some hcursor

/-- Where `run_cursor` returns with a handle, every subscriber was there before the snapshot went
out or was sent a cursor since, and a handle of zero is not the first one. -/
def Timely (s : CursorService) (e : CursorEvent) : Prop :=
  ∀ hcursor, s.returns e = some hcursor → ∀ sub, s.Has sub →
    sub.late = false ∧ (hcursor = 0 → s.state.cursorData ≠ .default)

/-- The subscribers that `Timely` speaks of are the entries of the two lists. -/
theorem timely_iff_all (s : CursorService) (e : CursorEvent) : Timely s e ↔
    ((s.returns e).all fun hcursor =>
      (s.subscribes.entries ++ s.newSubscribes.entries).all fun entry =>
        decide (entry.2.late = false ∧ (hcursor = 0 → s.state.cursorData ≠ .default))) = true := by
  simp only [Option.all_eq_true, List.all_eq_true, decide_eq_true_eq, List.mem_append]
  refine forall₂_congr fun hcursor _ => ⟨fun h entry hentry => ?_, fun h sub hsub => ?_⟩
  · exact h entry.2 ⟨entry.1, hentry.imp OrderedMap.mem_entries_iff.mp OrderedMap.mem_entries_iff.mp⟩
  · obtain ⟨id, hid⟩ := hsub
    exact h (id, sub) (hid.imp OrderedMap.mem_entries_iff.mpr OrderedMap.mem_entries_iff.mpr)

/-- Whether a step is timely is decided by the subscribers. -/
instance (s : CursorService) (e : CursorEvent) : Decidable (Timely s e) :=
  decidable_of_iff _ (timely_iff_all s e).symm

/-! ## What every step keeps -/

/-- The message of a snapshot is that of the last handle, or there was none yet. -/
def Shown (state : StateCursor) : Prop :=
  (state.cursorData = .default ∧ state.hcursor = 0) ∨
    ∃ data, state.cursorData = .cursorData data ∧ data.id = state.hcursor

/-- What the thread has computed so far. -/
def PhaseKept (state : StateCursor) : CursorPhase → Prop
  | .hasSubscribes | .reset | .getCursor => Shown state
  | .sendShared hcursor msg =>
    state.hcursor = hcursor ∧ ∃ data, msg = .cursorData data ∧ data.id = hcursor
  | .snapshot handle | .sendNewSubscribes handle | .swapNewSubscribes handle =>
    Shown state ∧ ∀ hcursor, handle = some hcursor → state.hcursor = hcursor

/-- A subscriber that is not late was told the cursor of this message last. -/
structure Told (msg : CursorMessage) (sub : MouseCursorSub) : Prop where
  of_late : sub.late = true → sub.received = []
  of_not_late : sub.late = false → sub.lastCursor = msg.cursor

/-- A waiting subscriber was handed nothing before the snapshot, and is told the cursor by it. -/
def Waits (sent : Bool) (msg : CursorMessage) (sub : MouseCursorSub) : Prop :=
  if sent then Told msg sub else sub.received = [] ∧ sub.late = false

/-- What every step of the service keeps. -/
structure Kept (s : CursorService) : Prop where
  delivered : ∀ sub, s.Has sub → sub.Delivered
  waiting_id : ∀ id sub, s.newSubscribes.get? id = some sub → sub.id = id
  apart : ∀ id sub, s.newSubscribes.get? id = some sub → s.subscribes.get? id = none
  told : ∀ id sub, s.subscribes.get? id = some sub → Told s.state.cursorData sub
  waits : ∀ id sub, s.newSubscribes.get? id = some sub →
    Waits s.snapshotSent s.state.cursorData sub
  cached : ∀ hcursor msg, s.state.cachedCursorData.get? hcursor = some msg →
    ∃ data, msg = .cursorData data ∧ data.id = hcursor
  phase_kept : PhaseKept s.state s.phase
  reset_empty : s.phase = .reset → ∀ id, s.subscribes.get? id = none

variable {s t : CursorService} {compress : List UInt8 → List UInt8}

/-- A new service keeps it. -/
theorem kept_new : new.Kept where
  delivered sub h := by
    obtain ⟨id, h | h⟩ := h <;> simp [new] at h
  waiting_id id sub h := by simp [new] at h
  apart id sub h := by simp [new] at h
  told id sub h := by simp [new] at h
  waits id sub h := by simp [new] at h
  cached hcursor msg h := by simp [new, StateCursor.default] at h
  phase_kept := Or.inl ⟨rfl, rfl⟩
  reset_empty h := by cases h

/-- What is shown is shared. -/
theorem Shown.shared {state : StateCursor} (h : Shown state) : state.cursorData.Shared := by
  intro id heq
  rcases h with ⟨hdefault, -⟩ | ⟨data, hdata, -⟩
  · rw [hdefault] at heq
    cases heq
  · rw [hdata] at heq
    cases heq

/-- Before the snapshot a waiting subscriber was handed nothing. -/
theorem Kept.nothing_of_waiting (h : s.Kept) (hsent : s.snapshotSent = false) {id : ℤ}
    {sub : MouseCursorSub} (hsub : s.newSubscribes.get? id = some sub) :
    sub.received = [] ∧ sub.late = false := by
  have hwaits := h.waits id sub hsub
  rwa [hsent] at hwaits

/-- Once the snapshot was sent a waiting subscriber was told the cursor, unless it is late. -/
theorem Kept.told_of_waiting (h : s.Kept) (hsent : s.snapshotSent = true) {id : ℤ}
    {sub : MouseCursorSub} (hsub : s.newSubscribes.get? id = some sub) :
    Told s.state.cursorData sub := by
  have hwaits := h.waits id sub hsub
  rwa [hsent] at hwaits

/-- A step of the thread that sends nothing keeps what the subscribers were told. -/
theorem Kept.thread (h : s.Kept) (hsubscribes : t.subscribes = s.subscribes)
    (hnew : t.newSubscribes = s.newSubscribes) (hdata : t.state.cursorData = s.state.cursorData)
    (hsent : t.snapshotSent = s.snapshotSent)
    (hcached : ∀ hcursor msg, t.state.cachedCursorData.get? hcursor = some msg →
      ∃ data, msg = .cursorData data ∧ data.id = hcursor)
    (hphase : PhaseKept t.state t.phase)
    (hreset : t.phase = .reset → ∀ id, s.subscribes.get? id = none) : t.Kept where
  delivered sub hsub := by
    rw [Has, hsubscribes, hnew] at hsub
    exact h.delivered sub hsub
  waiting_id := hnew ▸ h.waiting_id
  apart := by
    rw [hnew, hsubscribes]
    exact h.apart
  told := by
    rw [hsubscribes, hdata]
    exact h.told
  waits := by
    rw [hnew, hsent, hdata]
    exact h.waits
  cached := hcached
  phase_kept := hphase
  reset_empty := hsubscribes ▸ hreset

/-- A map without keys has no entry. -/
theorem get?_eq_none_of_keys {m : OrderedMap ℤ MouseCursorSub} (h : ¬ m.keys.length > 0)
    (id : ℤ) : m.get? id = none := by
  cases hget : m.get? id with
  | none => rfl
  | some sub =>
    have hmem : id ∈ m.keys := OrderedMap.mem_keys_iff.mpr ⟨sub, hget⟩
    exact absurd (List.length_pos_of_mem hmem) h

/-- A new subscriber waits for the snapshot. -/
theorem waits_ofConnInner (sent : Bool) (msg : CursorMessage) (id : ℤ) :
    Waits sent msg (.ofConnInner id sent) := by
  cases sent with
  | false => exact ⟨rfl, rfl⟩
  | true => exact ⟨fun _ => rfl, fun h => by cases h⟩

/-- A subscription keeps the service. -/
theorem Kept.onSubscribe (h : s.Kept) (id : ℤ) : (s.onSubscribe id).Kept := by
  unfold CursorService.onSubscribe
  split_ifs with hold
  · exact h
  · have hfree : s.subscribes.get? id = none := by
      simpa [OrderedMap.has_eq_false_iff] using hold
    refine ⟨?_, ?_, ?_, h.told, ?_, h.cached, h.phase_kept, h.reset_empty⟩
    · rintro sub ⟨id', hsub | hsub⟩
      · exact h.delivered sub ⟨id', Or.inl hsub⟩
      · simp only [OrderedMap.get?_set] at hsub
        split_ifs at hsub
        · exact Option.some.inj hsub ▸ .ofConnInner id _
        · exact h.delivered sub ⟨id', Or.inr hsub⟩
    · intro id' sub hsub
      simp only [OrderedMap.get?_set] at hsub
      split_ifs at hsub with hid
      · rw [← Option.some.inj hsub, hid]
        rfl
      · exact h.waiting_id id' sub hsub
    · intro id' sub hsub
      simp only [OrderedMap.get?_set] at hsub
      split_ifs at hsub with hid
      · exact hid ▸ hfree
      · exact h.apart id' sub hsub
    · intro id' sub hsub
      simp only [OrderedMap.get?_set] at hsub
      split_ifs at hsub
      · exact Option.some.inj hsub ▸ waits_ofConnInner s.snapshotSent _ id
      · exact h.waits id' sub hsub

/-- The end of a subscription keeps the service. -/
theorem Kept.onUnsubscribe (h : s.Kept) (id : ℤ) : (s.onUnsubscribe id).Kept := by
  have hdelete {m : OrderedMap ℤ MouseCursorSub} {id' : ℤ} {sub : MouseCursorSub}
      (hsub : (m.delete id).get? id' = some sub) : m.get? id' = some sub := by
    rw [OrderedMap.get?_delete] at hsub
    split_ifs at hsub
    exact hsub
  have hnone {m : OrderedMap ℤ MouseCursorSub} {id' : ℤ} (hget : m.get? id' = none) :
      (m.delete id).get? id' = none := by
    rw [OrderedMap.get?_delete, hget, ite_self]
  unfold CursorService.onUnsubscribe
  split_ifs with hold
  · refine ⟨?_, h.waiting_id, fun id' sub hsub => hnone (h.apart id' sub hsub),
      fun id' sub hsub => h.told id' sub (hdelete hsub), h.waits, h.cached, h.phase_kept,
      fun hreset id' => hnone (h.reset_empty hreset id')⟩
    rintro sub ⟨id', hsub | hsub⟩
    · exact h.delivered sub ⟨id', Or.inl (hdelete hsub)⟩
    · exact h.delivered sub ⟨id', Or.inr hsub⟩
  · refine ⟨?_, fun id' sub hsub => h.waiting_id id' sub (hdelete hsub),
      fun id' sub hsub => h.apart id' sub (hdelete hsub), h.told,
      fun id' sub hsub => h.waits id' sub (hdelete hsub), h.cached, h.phase_kept, h.reset_empty⟩
    rintro sub ⟨id', hsub | hsub⟩
    · exact h.delivered sub ⟨id', Or.inl hsub⟩
    · exact h.delivered sub ⟨id', Or.inr (hdelete hsub)⟩

/-- The question for subscribers keeps the service. -/
theorem Kept.hasSubscribes (h : s.Kept) (hphase : s.phase = .hasSubscribes) :
    s.hasSubscribes.Kept := by
  have hshown : Shown s.state := by
    have hkept := h.phase_kept
    rwa [hphase] at hkept
  have hsent : s.snapshotSent = false := by
    simp only [snapshotSent, hphase]
  unfold CursorService.hasSubscribes
  split_ifs with hany hmay
  · exact h.thread rfl rfl rfl hsent.symm h.cached hshown fun hreset => by cases hreset
  · exact h.thread rfl rfl rfl hsent.symm h.cached hshown
      fun _ => get?_eq_none_of_keys fun hlength => hany (Or.inl hlength)
  · exact h

/-- A reset finds nobody in `subscribes`, whoever has come to wait. -/
theorem Kept.reset (h : s.Kept) (hphase : s.phase = .reset) : s.reset.Kept := by
  have hempty := h.reset_empty hphase
  have hsent : s.snapshotSent = false := by
    simp only [snapshotSent, hphase]
  refine ⟨h.delivered, h.waiting_id, h.apart, ?_, ?_, ?_, Or.inl ⟨rfl, rfl⟩, fun hreset => ?_⟩
  · intro id sub hsub
    rw [show s.reset.subscribes = s.subscribes from rfl, hempty id] at hsub
    cases hsub
  · exact fun id sub hsub => h.nothing_of_waiting hsent hsub
  · intro hcursor msg hget
    simp [CursorService.reset, StateCursor.default] at hget
  · cases hreset

/-- What `run_cursor` sends for a new handle identifies it. -/
theorem nextMessage_spec {state state' : StateCursor} {hcursor : UInt64} {msg : CursorMessage}
    {data : Option CursorData}
    (hcached : ∀ hcursor msg, state.cachedCursorData.get? hcursor = some msg →
      ∃ data, msg = .cursorData data ∧ data.id = hcursor)
    (hdata : ∀ d, data = some d → d.id = hcursor)
    (hnext : state.nextMessage compress hcursor data = some (msg, state')) :
    (∃ data, msg = .cursorData data ∧ data.id = hcursor) ∧ state'.hcursor = hcursor ∧
      state'.cursorData = state.cursorData ∧
      ∀ hcursor msg, state'.cachedCursorData.get? hcursor = some msg →
        ∃ data, msg = .cursorData data ∧ data.id = hcursor := by
  unfold StateCursor.nextMessage at hnext
  cases hget : state.cachedCursorData.get? hcursor with
  | some cached =>
    simp only [hget, Option.some.injEq, Prod.mk.injEq] at hnext
    obtain ⟨rfl, rfl⟩ := hnext
    exact ⟨hcached hcursor cached hget, rfl, rfl, hcached⟩
  | none =>
    simp only [hget, Option.map_eq_some_iff, Prod.mk.injEq] at hnext
    obtain ⟨d, hd, rfl, rfl⟩ := hnext
    refine ⟨⟨_, rfl, hdata d hd⟩, rfl, rfl, ?_⟩
    intro hcursor' msg' hget'
    rw [OrderedMap.get?_set] at hget'
    split_ifs at hget' with hsame
    · exact ⟨_, (Option.some.inj hget').symm, (hdata d hd).trans hsame.symm⟩
    · exact hcached hcursor' msg' hget'

/-- A new cursor keeps the service. -/
theorem Kept.getCursor (h : s.Kept) (hphase : s.phase = .getCursor)
    {handle : Option (Option UInt64)} {data : Option CursorData}
    (hdescribes : Describes handle data) : (s.getCursor compress data handle).Kept := by
  have hshown : Shown s.state := by
    have hkept := h.phase_kept
    rwa [hphase] at hkept
  have hsent : s.snapshotSent = false := by
    simp only [snapshotSent, hphase]
  have hover : (s.setPhase .hasSubscribes).Kept :=
    h.thread rfl rfl rfl hsent.symm h.cached hshown fun hreset => by cases hreset
  have hunchanged (handle : Option UInt64)
      (hhandle : ∀ hcursor, handle = some hcursor → s.state.hcursor = hcursor) :
      (s.setPhase (.snapshot handle)).Kept :=
    h.thread rfl rfl rfl hsent.symm h.cached ⟨hshown, hhandle⟩ fun hreset => by cases hreset
  rcases handle with _ | _ | hcursor
  · exact hover
  · exact hunchanged none fun hcursor hnone => by cases hnone
  · simp only [CursorService.getCursor]
    split_ifs with hnew
    · have hdata (d : CursorData) (hd : data = some d) : d.id = hcursor := by
        have hsame := hdescribes d hd
        simpa using hsame.symm
      cases hnext : s.state.nextMessage compress hcursor data with
      | none => exact hover
      | some next =>
        obtain ⟨msg, state⟩ := next
        obtain ⟨hmsg, hhcursor, hcursorData, hcached⟩ := nextMessage_spec h.cached hdata hnext
        exact h.thread rfl rfl hcursorData hsent.symm hcached ⟨hhcursor, hmsg⟩
          fun hreset => by cases hreset
    · refine hunchanged (some hcursor) fun hcursor' hsome => ?_
      rw [← Option.some.inj hsome]
      exact (not_not.mp hnew).symm

/-- Everyone who has joined is told the new cursor. -/
theorem Kept.sendShared (h : s.Kept) {hcursor : UInt64} {msg : CursorMessage}
    (hphase : s.phase = .sendShared hcursor msg) : (s.sendShared hcursor msg).Kept := by
  have hkept := h.phase_kept
  rw [hphase] at hkept
  obtain ⟨hhcursor, data, rfl, hdata⟩ := hkept
  have hsent : s.snapshotSent = false := by
    simp only [snapshotSent, hphase]
  have hshared : (CursorMessage.cursorData data).Shared := fun id heq => by cases heq
  have hsubscribes {id : ℤ} {sub : MouseCursorSub}
      (hsub : (s.sendShared hcursor (.cursorData data)).subscribes.get? id = some sub) :
      ∃ old, s.subscribes.get? id = some old ∧ old.send (.cursorData data) = sub := by
    simpa [CursorService.sendShared] using hsub
  refine ⟨?_, h.waiting_id, ?_, ?_, ?_, h.cached, ?_, fun hreset => by cases hreset⟩
  · rintro sub ⟨id, hsub | hsub⟩
    · obtain ⟨old, hold, rfl⟩ := hsubscribes hsub
      exact (h.delivered old ⟨id, Or.inl hold⟩).send hshared
    · exact h.delivered sub ⟨id, Or.inr hsub⟩
  · intro id sub hsub
    simp [CursorService.sendShared, h.apart id sub hsub]
  · intro id sub hsub
    obtain ⟨old, hold, rfl⟩ := hsubscribes hsub
    have hdelivered := h.delivered old ⟨id, Or.inl hold⟩
    refine ⟨fun hlate => ?_, fun _ => ?_⟩
    · simp [old.late_send] at hlate
    · exact hdelivered.lastCursor_send _
  · exact fun id sub hsub => h.nothing_of_waiting hsent hsub
  · refine ⟨Or.inr ⟨data, rfl, hdata.trans hhcursor.symm⟩, ?_⟩
    intro hcursor' hsome
    exact hhcursor.trans (Option.some.inj hsome)

/-- A snapshot keeps the service. -/
theorem Kept.snapshot (h : s.Kept) {handle : Option UInt64}
    (hphase : s.phase = .snapshot handle) : (s.snapshot handle).Kept := by
  have hkept := h.phase_kept
  rw [hphase] at hkept
  have hsent : s.snapshotSent = false := by
    simp only [snapshotSent, hphase]
  unfold CursorService.snapshot
  split_ifs
  · exact h.thread rfl rfl rfl hsent.symm h.cached hkept fun hreset => by cases hreset
  · exact h.thread rfl rfl rfl hsent.symm h.cached hkept.1 fun hreset => by cases hreset

/-- Everyone who waits is told the cursor by the snapshot. -/
theorem Kept.sendNewSubscribes (h : s.Kept) {handle : Option UInt64}
    (hphase : s.phase = .sendNewSubscribes handle) : (s.sendNewSubscribes handle).Kept := by
  have hkept := h.phase_kept
  rw [hphase] at hkept
  have hsent : s.snapshotSent = false := by
    simp only [snapshotSent, hphase]
  have hnew {id : ℤ} {sub : MouseCursorSub}
      (hsub : (s.sendNewSubscribes handle).newSubscribes.get? id = some sub) :
      ∃ old, s.newSubscribes.get? id = some old ∧ old.send s.state.cursorData = sub := by
    simpa [CursorService.sendNewSubscribes] using hsub
  refine ⟨?_, ?_, ?_, h.told, ?_, h.cached, hkept, fun hreset => by cases hreset⟩
  · rintro sub ⟨id, hsub | hsub⟩
    · exact h.delivered sub ⟨id, Or.inl hsub⟩
    · obtain ⟨old, hold, rfl⟩ := hnew hsub
      exact (h.delivered old ⟨id, Or.inr hold⟩).send hkept.1.shared
  · intro id sub hsub
    obtain ⟨old, hold, rfl⟩ := hnew hsub
    rw [old.id_send]
    exact h.waiting_id id old hold
  · intro id sub hsub
    obtain ⟨old, hold, -⟩ := hnew hsub
    exact h.apart id old hold
  · intro id sub hsub
    obtain ⟨old, hold, rfl⟩ := hnew hsub
    have hdelivered := h.delivered old ⟨id, Or.inr hold⟩
    refine ⟨fun hlate => ?_, fun _ => ?_⟩
    · simp [old.late_send] at hlate
    · have hnothing : old.lastCursor = none := by
        rw [MouseCursorSub.lastCursor, (h.nothing_of_waiting hsent hold).1]
        rfl
      rw [hdelivered.lastCursor_send, hnothing, Option.or_none]
      rfl

/-- After the swap a subscriber that waited is found, and every other one as before. -/
theorem Kept.get?_swapNewSubscribes (h : s.Kept) (id : ℤ) :
    s.swapNewSubscribes.subscribes.get? id =
      (s.newSubscribes.get? id).or (s.subscribes.get? id) :=
  OrderedMap.get?_setAll_values h.waiting_id id

/-- The swap changes nothing about who has a subscription. -/
theorem Kept.has_swapNewSubscribes_iff (h : s.Kept) {sub : MouseCursorSub} :
    s.swapNewSubscribes.Has sub ↔ s.Has sub := by
  refine exists_congr fun id => ?_
  have hempty : s.swapNewSubscribes.newSubscribes.get? id = none := rfl
  rw [h.get?_swapNewSubscribes, hempty, Option.or_eq_some_iff]
  constructor
  · rintro ((hsub | ⟨-, hsub⟩) | hsub)
    · exact Or.inr hsub
    · exact Or.inl hsub
    · cases hsub
  · rintro (hsub | hsub)
    · cases hnew : s.newSubscribes.get? id with
      | none => exact Or.inl (Or.inr ⟨rfl, hsub⟩)
      | some other =>
        rw [h.apart id other hnew] at hsub
        cases hsub
    · exact Or.inl (Or.inl hsub)

/-- The swap after a snapshot keeps the service. -/
theorem Kept.swapNewSubscribes (h : s.Kept) {handle : Option UInt64}
    (hphase : s.phase = .swapNewSubscribes handle) : s.swapNewSubscribes.Kept := by
  have hkept := h.phase_kept
  rw [hphase] at hkept
  have hsent : s.snapshotSent = true := by
    simp only [snapshotSent, hphase]
  refine ⟨fun sub hsub => h.delivered sub (h.has_swapNewSubscribes_iff.mp hsub), ?_, ?_, ?_, ?_,
    h.cached, hkept.1, fun hreset => by cases hreset⟩
  · intro id sub hsub
    cases hsub
  · intro id sub hsub
    cases hsub
  · intro id sub hsub
    rw [h.get?_swapNewSubscribes, Option.or_eq_some_iff] at hsub
    rcases hsub with hsub | ⟨-, hsub⟩
    · exact h.told_of_waiting hsent hsub
    · exact h.told id sub hsub
  · intro id sub hsub
    cases hsub

/-- **Every step** keeps what the subscribers were told. -/
theorem Kept.step {e : CursorEvent} (h : s.Kept) (hstep : step compress s e = some t) :
    t.Kept := by
  cases e with
  | onSubscribe id => exact Option.some.inj hstep ▸ h.onSubscribe id
  | onUnsubscribe id => exact Option.some.inj hstep ▸ h.onUnsubscribe id
  | hasSubscribes =>
    simp only [CursorService.step] at hstep
    split at hstep
    next hphase => exact Option.some.inj hstep ▸ h.hasSubscribes hphase
    next => cases hstep
  | reset =>
    simp only [CursorService.step] at hstep
    split at hstep
    next hphase => exact Option.some.inj hstep ▸ h.reset hphase
    next => cases hstep
  | getCursor handle data =>
    simp only [CursorService.step] at hstep
    split at hstep
    next hphase =>
      split_ifs at hstep with hdescribes
      exact Option.some.inj hstep ▸ h.getCursor hphase hdescribes
    next => cases hstep
  | sendShared =>
    simp only [CursorService.step] at hstep
    split at hstep
    next hphase => exact Option.some.inj hstep ▸ h.sendShared hphase
    next => cases hstep
  | snapshot =>
    simp only [CursorService.step] at hstep
    split at hstep
    next hphase => exact Option.some.inj hstep ▸ h.snapshot hphase
    next => cases hstep
  | sendNewSubscribes =>
    simp only [CursorService.step] at hstep
    split at hstep
    next hphase => exact Option.some.inj hstep ▸ h.sendNewSubscribes hphase
    next => cases hstep
  | swapNewSubscribes =>
    simp only [CursorService.step] at hstep
    split at hstep
    next hphase => exact Option.some.inj hstep ▸ h.swapNewSubscribes hphase
    next => cases hstep

/-! ## Which passes inform everyone -/

/-- A subscriber knows the last handle unless it is late or the handle is a first zero. -/
theorem Told.lastCursor_iff {state : StateCursor} {sub : MouseCursorSub}
    (h : Told state.cursorData sub) (hshown : Shown state) :
    sub.lastCursor = some state.hcursor ↔
      sub.late = false ∧ (state.hcursor = 0 → state.cursorData ≠ .default) := by
  cases hlate : sub.late with
  | true =>
    have hnothing : sub.lastCursor = none := by
      rw [MouseCursorSub.lastCursor, h.of_late hlate]
      rfl
    simp [hnothing]
  | false =>
    rw [h.of_not_late hlate]
    rcases hshown with ⟨hdefault, hzero⟩ | ⟨data, hdata, hid⟩
    · simp [hdefault, hzero, CursorMessage.cursor]
    · simp [hdata, hid, CursorMessage.cursor]

/-- Where `run_cursor` returns, everyone has been told its cursor, as far as they are not late. -/
theorem returns_spec {e : CursorEvent} {hcursor : UInt64} (h : s.Kept)
    (hstep : step compress s e = some t) (hreturns : s.returns e = some hcursor) :
    Shown s.state ∧ s.state.hcursor = hcursor ∧ (∀ sub, t.Has sub ↔ s.Has sub) ∧
      ∀ sub, s.Has sub → Told s.state.cursorData sub := by
  have hkept := h.phase_kept
  cases e with
  | snapshot =>
    simp only [CursorService.step] at hstep
    simp only [returns] at hreturns
    cases hphase : s.phase with
    | snapshot handle =>
      simp only [hphase] at hstep hreturns hkept
      split_ifs at hreturns with hany
      obtain rfl := Option.some.inj hstep
      have hempty := get?_eq_none_of_keys hany
      refine ⟨hkept.1, hkept.2 hcursor hreturns, fun sub => ?_, ?_⟩
      · rw [CursorService.snapshot, if_neg hany]
        rfl
      · rintro sub ⟨id, hsub | hsub⟩
        · exact h.told id sub hsub
        · rw [hempty id] at hsub
          cases hsub
    | _ => simp [hphase] at hreturns
  | swapNewSubscribes =>
    simp only [CursorService.step] at hstep
    simp only [returns] at hreturns
    cases hphase : s.phase with
    | swapNewSubscribes handle =>
      simp only [hphase] at hstep hreturns hkept
      obtain rfl := Option.some.inj hstep
      have hsent : s.snapshotSent = true := by
        simp only [snapshotSent, hphase]
      refine ⟨hkept.1, hkept.2 hcursor hreturns, fun sub => h.has_swapNewSubscribes_iff, ?_⟩
      rintro sub ⟨id, hsub | hsub⟩
      · exact h.told id sub hsub
      · exact h.told_of_waiting hsent hsub
    | _ => simp [hphase] at hreturns
  | _ => cases hreturns

/-- **One step** informs everyone if and only if it is timely. -/
theorem informs_step_iff {e : CursorEvent} (hstep : step compress s e = some t) (h : s.Kept) :
    s.Informs e t ↔ s.Timely e := by
  have hids : ∀ sub, t.Has sub → sub.IdsAfterData :=
    fun sub hsub => ((h.step hstep).delivered sub hsub).ids_after_data
  have hall : s.Informs e t ↔
      ∀ hcursor, s.returns e = some hcursor → ∀ sub, t.Has sub → sub.lastCursor = some hcursor :=
    and_iff_right hids
  rw [hall]
  refine forall₂_congr fun hcursor hreturns => ?_
  obtain ⟨hshown, rfl, hhas, htold⟩ := returns_spec h hstep hreturns
  refine forall_congr' fun sub => ?_
  rw [hhas sub]
  exact forall_congr' fun hsub => (htold sub hsub).lastCursor_iff hshown

/-- **The cursor is delivered**: along a run no id comes before its data, whatever happens, and
each `run_cursor` with a handle leaves all subscribers with that cursor if and only if it returns
while no subscriber is late, and not with a first handle of zero. -/
theorem cursor_delivered_iff (compress : List UInt8 → List UInt8) {events : List CursorEvent}
    (hrun : (machine compress).Run (machine compress).init events s) :
    (∀ first e u v, first ++ [e] <+: events →
      (machine compress).Run (machine compress).init first u →
      (machine compress).step u e = some v → u.Informs e v) ↔
      (machine compress).RunWhere Timely (machine compress).init events s :=
  Machine.runWhere_iff_steps_beside (M := machine compress) (R := Informs)
    (fun _ _ _ hstep h => h.step hstep) (fun _ _ _ hstep h => informs_step_iff hstep h)
    kept_new hrun

/-- Ids after their data, in every state of every run. -/
theorem idsAfterData_of_run {events : List CursorEvent}
    (hrun : (machine compress).Run (machine compress).init events s) {sub : MouseCursorSub}
    (hsub : s.Has sub) : sub.IdsAfterData := by
  have hkept : s.Kept := hrun.invariant (fun _ _ _ _ hstep h => h.step hstep) kept_new
  exact (hkept.delivered sub hsub).ids_after_data

/-- The data of a cursor with one pixel. -/
def demoData (id : UInt64) : CursorData := ⟨id, 0, 0, 1, 1, [0, 0, 0, 255]⟩

/-- A subscriber gets a cursor by the snapshot, and the next one as it comes. -/
def twoCursors : List CursorEvent :=
  [.onSubscribe 1, .hasSubscribes, .getCursor (some (some 5)) (some (demoData 5)), .sendShared,
    .snapshot, .sendNewSubscribes, .swapNewSubscribes, .hasSubscribes,
    .getCursor (some (some 6)) (some (demoData 6)), .sendShared, .snapshot]

/-- A run with two cursors, along which everyone is informed. -/
theorem cursor_delivered_iff_twoCursors : ∃ s,
    (machine id).Run (machine id).init twoCursors s ∧
      ∀ first e u v, first ++ [e] <+: twoCursors →
        (machine id).Run (machine id).init first u →
        (machine id).step u e = some v → u.Informs e v := by
  have hsome : ((machine id).replayWhere Timely (machine id).init twoCursors).isSome = true := by
    decide +kernel
  have hwhere : (machine id).RunWhere Timely (machine id).init twoCursors
      (((machine id).replayWhere Timely (machine id).init twoCursors).get hsome) :=
    Machine.runWhere_of_replayWhere (Option.some_get hsome).symm
  exact ⟨_, hwhere.run, (cursor_delivered_iff id hwhere.run).mpr hwhere⟩

/-- The second subscription comes between the snapshot and the swap. -/
def lateSubscription : List CursorEvent :=
  [.onSubscribe 1, .hasSubscribes, .getCursor (some (some 5)) (some (demoData 5)), .sendShared,
    .snapshot, .sendNewSubscribes, .onSubscribe 2]

/-- The service after these steps. -/
def afterLateSubscription : CursorService :=
  ((machine id).replay (machine id).init lateSubscription).getD new

/-- The second subscriber joins without the cursor. -/
theorem not_cursor_delivered :
    ¬ ∀ (compress : List UInt8 → List UInt8) (events : List CursorEvent) (s : CursorService),
      (machine compress).Run (machine compress).init events s →
      ∀ first e u v, first ++ [e] <+: events →
        (machine compress).Run (machine compress).init first u →
        (machine compress).step u e = some v → u.Informs e v := by
  intro hall
  have hrun : (machine id).Run (machine id).init lateSubscription afterLateSubscription :=
    Machine.run_of_replay rfl
  have hstep : (machine id).step afterLateSubscription .swapNewSubscribes =
      some afterLateSubscription.swapNewSubscribes := rfl
  have hinforms := hall id _ _ (hrun.snoc trivial hstep) _ _ _ _ List.prefix_rfl hrun hstep
  have hjoined : afterLateSubscription.swapNewSubscribes.Has (.ofConnInner 2 true) :=
    ⟨2, Or.inl rfl⟩
  have hlast := hinforms.2 5 rfl _ hjoined
  cases hlast

end CursorService

end RdWeb.Host
