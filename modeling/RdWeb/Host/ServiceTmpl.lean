import RdWeb.Host.CaptureDisplays
import RdWeb.Lib.Machine

/-!
# A snapshot before the stream

`ServiceTmpl` of `service.rs`: a subscriber of a service that needs a snapshot waits in
`new_subscribes` until a callback has sent it the state so far, and then joins
`subscribes`, to which `ServiceTmpl::send` sends. The callback's sends and the final move
take the lock one at a time, so subscriptions arrive in between.
-/

namespace RdWeb.Host

/-- A message as a subscriber gets it: from the callback of the numbered snapshot, or from
`ServiceTmpl::send`. -/
inductive Delivery (M : Type*)
  | snapshot (number : ℕ) (msg : M)
  | sent (msg : M)
  deriving DecidableEq

/-- A subscriber built by `on_subscribe`, with what `Subscriber::send` has handed to it.
`awaits` numbers the callback it waits for, the running or the next one, and `missed` counts
the messages that callback had sent when it subscribed. -/
structure Subscriber (M : Type*) where
  id : ℤ
  received : List (Delivery M) := []
  awaits : ℕ
  missed : ℕ

/-- A subscriber gets a message. -/
def Subscriber.send {M : Type*} (sub : Subscriber M) (delivery : Delivery M) : Subscriber M :=
  { sub with received := sub.received ++ [delivery] }

/-- `ServiceInner` behind its lock. `swap` is there while a callback holds a `ServiceSwap`,
with each message it sent and the ids that were waiting then; `done` has the messages of the
callbacks that have ended. -/
structure ServiceTmpl (M : Type*) where
  subscribes : OrderedMap ℤ (Subscriber M)
  newSubscribes : OrderedMap ℤ (Subscriber M)
  needSnapshot : Bool
  swap : Option (List (M × List ℤ))
  done : List (List M)

namespace ServiceTmpl

variable {M : Type*} {s t : ServiceTmpl M}

/-- `ServiceTmpl::new`. -/
def new (needSnapshot : Bool) : ServiceTmpl M where
  subscribes := .empty
  newSubscribes := .empty
  needSnapshot := needSnapshot
  swap := none
  done := []

/-- What the running callback has sent. -/
def sends (s : ServiceTmpl M) : List (M × List ℤ) := s.swap.getD []

/-- A subscriber is there, now or with the next snapshot. -/
def isSubed (s : ServiceTmpl M) (id : ℤ) : Bool :=
  s.subscribes.has id || s.newSubscribes.has id

/-- A subscriber comes, with the next snapshot if there has to be one. -/
def onSubscribe (s : ServiceTmpl M) (id : ℤ) : ServiceTmpl M :=
  let sub : Subscriber M := { id, awaits := s.done.length, missed := s.sends.length }
  if s.subscribes.has id then s
  else if s.needSnapshot then { s with newSubscribes := s.newSubscribes.set id sub }
  else { s with subscribes := s.subscribes.set id sub }

/-- A subscriber goes. -/
def onUnsubscribe (s : ServiceTmpl M) (id : ℤ) : ServiceTmpl M :=
  if s.subscribes.has id then { s with subscribes := s.subscribes.delete id }
  else { s with newSubscribes := s.newSubscribes.delete id }

/-- The check of `snapshot`; the callback starts where someone waits. -/
def snapshot (s : ServiceTmpl M) : ServiceTmpl M :=
  if s.newSubscribes.keys.length > 0 then { s with swap := some [] } else s

/-- `ServiceSwap::send` in the callback, with `send_new_subscribes`. -/
def sendNewSubscribes (s : ServiceTmpl M) (msg : M) : ServiceTmpl M :=
  { s with
    newSubscribes := s.newSubscribes.mapValues (·.send (.snapshot s.done.length msg))
    swap := some (s.sends ++ [(msg, s.newSubscribes.keys)]) }

/-- `Drop` of the `ServiceSwap`, whether the callback succeeded or not. -/
def swapNewSubscribes (s : ServiceTmpl M) : ServiceTmpl M :=
  { s with
    subscribes := s.subscribes.setAll (·.id) s.newSubscribes.values
    newSubscribes := .empty
    swap := none
    done := s.done ++ [s.sends.map Prod.fst] }

/-- Send to the subscribers whose id is kept. -/
def sendWhere (s : ServiceTmpl M) (keep : ℤ → Bool) (msg : M) : ServiceTmpl M :=
  { s with
    subscribes := s.subscribes.mapValues fun sub =>
      if keep sub.id then sub.send (.sent msg) else sub }

/-- `send`, `send_shared` and `send_video_frame`. -/
def send (s : ServiceTmpl M) (msg : M) : ServiceTmpl M := s.sendWhere (fun _ => true) msg

/-- A message goes to one subscriber. -/
def sendTo (s : ServiceTmpl M) (msg : M) (id : ℤ) : ServiceTmpl M := s.sendWhere (· == id) msg

/-- `send_to_others`, and `send_without` with the same effect. -/
def sendToOthers (s : ServiceTmpl M) (msg : M) (id : ℤ) : ServiceTmpl M :=
  s.sendWhere (· != id) msg

end ServiceTmpl

/-- What takes the lock of a service. -/
inductive ServiceEvent (M : Type*)
  | onSubscribe (id : ℤ)
  | onUnsubscribe (id : ℤ)
  | snapshot
  | swapSend (msg : M)
  | swapDrop
  | send (msg : M)
  | sendTo (msg : M) (id : ℤ)
  | sendToOthers (msg : M) (id : ℤ)

namespace ServiceTmpl

variable {M : Type*} {s t : ServiceTmpl M}

/-- One step: a callback sends and ends only while it runs, and one runs at a time. -/
def step (s : ServiceTmpl M) : ServiceEvent M → Option (ServiceTmpl M)
  | .onSubscribe id => some (s.onSubscribe id)
  | .onUnsubscribe id => some (s.onUnsubscribe id)
  | .snapshot => if s.swap.isNone then some s.snapshot else none
  | .swapSend msg => if s.swap.isSome then some (s.sendNewSubscribes msg) else none
  | .swapDrop => if s.swap.isSome then some s.swapNewSubscribes else none
  | .send msg => some (s.send msg)
  | .sendTo msg id => some (s.sendTo msg id)
  | .sendToOthers msg id => some (s.sendToOthers msg id)

end ServiceTmpl

/-- A service created with `need_snapshot`. -/
def serviceMachine (M : Type*) : Machine (ServiceTmpl M) (ServiceEvent M) where
  init := .new true
  step := ServiceTmpl.step

namespace ServiceTmpl

variable {M : Type*} {s t : ServiceTmpl M}

/-! ## What is wanted -/

/-- No id is in both maps. -/
def Apart (s : ServiceTmpl M) : Prop :=
  ∀ id ∈ s.subscribes.keys, id ∉ s.newSubscribes.keys

/-- A subscriber with a message of the stream got all messages of its callback before. -/
def SnapshotFirst (s : ServiceTmpl M) : Prop :=
  ∀ id sub, s.subscribes.get? id = some sub →
    ∀ before msg after, sub.received = before ++ .sent msg :: after →
      ∃ msgs : List M, s.done[sub.awaits]? = some msgs ∧
        msgs.map (Delivery.snapshot sub.awaits) <+: before

/-- A step moves an id only if it was waiting at each send of the callback, and its subscriber
got them all. -/
def MovesComplete (s t : ServiceTmpl M) : Prop :=
  ∀ id ∈ s.newSubscribes.keys, ∀ sub, t.subscribes.get? id = some sub →
    (∀ send ∈ s.sends, id ∈ send.2) ∧
      sub.received = s.sends.map fun send => .snapshot s.done.length send.1

/-- Every move along the run is complete, and in every state reached the ids are apart and
the snapshot comes first. -/
def KeepsOrder (events : List (ServiceEvent M)) : Prop :=
  (∀ first e s t, first ++ [e] <+: events → (serviceMachine M).Run (.new true) first s →
    s.step e = some t → s.MovesComplete t) ∧
  ∀ first s, first <+: events → (serviceMachine M).Run (.new true) first s →
    s.Apart ∧ s.SnapshotFirst

/-- A callback does not end while a subscriber waits that came after its first send. -/
def Timely (s : ServiceTmpl M) : ServiceEvent M → Prop
  | .swapDrop => ∀ id sub, s.newSubscribes.get? id = some sub → sub.missed = 0
  | _ => True

/-! ## What every step keeps -/

/-- A waiting subscriber got each message sent since it subscribed. -/
structure Waits (sends : List (M × List ℤ)) (number : ℕ) (id : ℤ) (sub : Subscriber M) :
    Prop where
  id_eq : sub.id = id
  awaits_eq : sub.awaits = number
  missed_le : sub.missed ≤ sends.length
  received_eq : sub.received =
    (sends.drop sub.missed).map fun send => .snapshot number send.1
  present : ∀ send ∈ sends.drop sub.missed, id ∈ send.2

/-- What every step of the service keeps. -/
structure Ordered (s : ServiceTmpl M) : Prop where
  need : s.needSnapshot = true
  apart : s.Apart
  subscribed_id : ∀ id sub, s.subscribes.get? id = some sub → sub.id = id
  waits : ∀ id sub, s.newSubscribes.get? id = some sub → Waits s.sends s.done.length id sub

/-- A new service keeps it. -/
theorem ordered_new : (new true : ServiceTmpl M).Ordered where
  need := rfl
  apart _ h := by simp [new, OrderedMap.mem_keys_iff] at h
  subscribed_id _ _ h := by simp [new] at h
  waits _ _ h := by simp [new] at h

/-- A new subscriber waits for all that was sent. -/
theorem Waits.fresh (s : ServiceTmpl M) (id : ℤ) :
    Waits s.sends s.done.length id
      { id, awaits := s.done.length, missed := s.sends.length } :=
  ⟨rfl, rfl, le_rfl, by simp, by simp⟩

/-- A subscriber that comes keeps the order. -/
theorem Ordered.onSubscribe (h : s.Ordered) (id : ℤ) : (s.onSubscribe id).Ordered := by
  unfold ServiceTmpl.onSubscribe
  dsimp only
  split_ifs with hold hneed
  · exact h
  · refine ⟨h.need, fun id' hid' hnew => ?_, h.subscribed_id, fun id' sub hget => ?_⟩
    · rcases OrderedMap.mem_keys_set.mp hnew with rfl | hnew
      · obtain ⟨sub, hsub⟩ := OrderedMap.mem_keys_iff.mp hid'
        exact hold (OrderedMap.has_iff.mpr ⟨sub, hsub⟩)
      · exact h.apart id' hid' hnew
    · rw [OrderedMap.get?_set] at hget
      split_ifs at hget with hid
      · obtain rfl := Option.some.inj hget
        rw [hid]
        exact Waits.fresh s id
      · exact h.waits id' sub hget
  · exact absurd h.need hneed

/-- A subscriber that goes keeps the order. -/
theorem Ordered.onUnsubscribe (h : s.Ordered) (id : ℤ) : (s.onUnsubscribe id).Ordered := by
  unfold ServiceTmpl.onUnsubscribe
  split_ifs with hold
  · refine ⟨h.need, fun id' hid' => h.apart id' (OrderedMap.mem_keys_delete.mp hid').2,
      fun id' sub hget => ?_, h.waits⟩
    rw [OrderedMap.get?_delete] at hget
    split_ifs at hget
    exact h.subscribed_id id' sub hget
  · refine ⟨h.need, fun id' hid' hnew => h.apart id' hid' (OrderedMap.mem_keys_delete.mp hnew).2,
      h.subscribed_id, fun id' sub hget => ?_⟩
    rw [OrderedMap.get?_delete] at hget
    split_ifs at hget
    exact h.waits id' sub hget

/-- Without a swap nothing was sent since. -/
theorem sends_eq_nil (hswap : s.swap = none) : s.sends = [] := by
  rw [sends, hswap, Option.getD_none]

/-- Beginning a snapshot sends nothing. -/
theorem sends_snapshot (hswap : s.swap = none) : s.snapshot.sends = s.sends := by
  unfold snapshot
  split_ifs
  · rw [sends_eq_nil hswap]
    rfl
  · rfl

/-- Beginning a snapshot keeps the order. -/
theorem Ordered.snapshot (h : s.Ordered) (hswap : s.swap = none) : s.snapshot.Ordered := by
  have hsends := sends_snapshot hswap
  unfold ServiceTmpl.snapshot at hsends ⊢
  split_ifs at hsends ⊢
  · exact ⟨h.need, h.apart, h.subscribed_id, fun id sub hget => hsends ▸ h.waits id sub hget⟩
  · exact h

/-- Sending keeps the subscribers. -/
@[simp] theorem keys_sendWhere (keep : ℤ → Bool) (msg : M) :
    (s.sendWhere keep msg).subscribes.keys = s.subscribes.keys :=
  OrderedMap.keys_mapValues _ _

/-- A send of the callback reaches every waiting subscriber. -/
theorem Waits.send {sends : List (M × List ℤ)} {number : ℕ} {id : ℤ} {sub : Subscriber M}
    (h : Waits sends number id sub) (msg : M) {ids : List ℤ} (hid : id ∈ ids) :
    Waits (sends ++ [(msg, ids)]) number id (sub.send (.snapshot number msg)) := by
  have hdrop : (sends ++ [(msg, ids)]).drop sub.missed = sends.drop sub.missed ++ [(msg, ids)] :=
    List.drop_append_of_le_length h.missed_le
  refine ⟨h.id_eq, h.awaits_eq, ?_, ?_, ?_⟩
  · exact le_trans h.missed_le (by simp)
  · change sub.received ++ [.snapshot number msg] =
      ((sends ++ [(msg, ids)]).drop sub.missed).map fun send => Delivery.snapshot number send.1
    rw [hdrop, h.received_eq, List.map_append, List.map_singleton]
  · change ∀ send ∈ (sends ++ [(msg, ids)]).drop sub.missed, id ∈ send.2
    rw [hdrop]
    intro send hsend
    rcases List.mem_append.mp hsend with hsend | hsend
    · exact h.present send hsend
    · rw [List.mem_singleton.mp hsend]
      exact hid

/-- A message of the snapshot keeps the order. -/
theorem Ordered.sendNewSubscribes (h : s.Ordered) (msg : M) :
    (s.sendNewSubscribes msg).Ordered := by
  refine ⟨h.need, fun id hid hnew => h.apart id hid ?_, h.subscribed_id, fun id sub hget => ?_⟩
  · simpa [ServiceTmpl.sendNewSubscribes] using hnew
  · simp only [ServiceTmpl.sendNewSubscribes, OrderedMap.get?_mapValues] at hget
    obtain ⟨sub', hsub', rfl⟩ := Option.map_eq_some_iff.mp hget
    exact (h.waits id sub' hsub').send msg (OrderedMap.mem_keys_iff.mpr ⟨sub', hsub'⟩)

/-- After the move a subscriber that waited is found, and every other one as before. -/
theorem Ordered.get?_swapNewSubscribes (h : s.Ordered) (id : ℤ) :
    s.swapNewSubscribes.subscribes.get? id =
      (s.newSubscribes.get? id).or (s.subscribes.get? id) :=
  OrderedMap.get?_setAll_values (fun id sub hget => (h.waits id sub hget).id_eq) id

/-- The swap keeps the order. -/
theorem Ordered.swapNewSubscribes (h : s.Ordered) : s.swapNewSubscribes.Ordered := by
  refine ⟨h.need, fun id _ hnew => ?_, fun id sub hget => ?_, fun id sub hget => ?_⟩
  · simp [ServiceTmpl.swapNewSubscribes, OrderedMap.mem_keys_iff] at hnew
  · rw [h.get?_swapNewSubscribes, Option.or_eq_some_iff] at hget
    rcases hget with hget | ⟨-, hget⟩
    · exact (h.waits id sub hget).id_eq
    · exact h.subscribed_id id sub hget
  · simp [ServiceTmpl.swapNewSubscribes] at hget

/-- A message keeps the order. -/
theorem Ordered.sendWhere (h : s.Ordered) (keep : ℤ → Bool) (msg : M) :
    (s.sendWhere keep msg).Ordered := by
  refine ⟨h.need, fun id hid => h.apart id ?_, fun id sub hget => ?_, h.waits⟩
  · simpa using hid
  · simp only [ServiceTmpl.sendWhere, OrderedMap.get?_mapValues] at hget
    obtain ⟨sub', hsub', rfl⟩ := Option.map_eq_some_iff.mp hget
    rw [← h.subscribed_id id sub' hsub']
    split_ifs <;> rfl

/-- **One step** keeps the order. -/
theorem Ordered.step (h : s.Ordered) {e : ServiceEvent M} (hstep : s.step e = some t) :
    t.Ordered := by
  cases e with
  | onSubscribe id => exact Option.some.inj hstep ▸ h.onSubscribe id
  | onUnsubscribe id => exact Option.some.inj hstep ▸ h.onUnsubscribe id
  | snapshot =>
    simp only [ServiceTmpl.step] at hstep
    split_ifs at hstep with hswap
    exact Option.some.inj hstep ▸ h.snapshot (Option.isNone_iff_eq_none.mp hswap)
  | swapSend msg =>
    simp only [ServiceTmpl.step] at hstep
    split_ifs at hstep
    exact Option.some.inj hstep ▸ h.sendNewSubscribes msg
  | swapDrop =>
    simp only [ServiceTmpl.step] at hstep
    split_ifs at hstep
    exact Option.some.inj hstep ▸ h.swapNewSubscribes
  | send msg => exact Option.some.inj hstep ▸ h.sendWhere _ msg
  | sendTo msg id => exact Option.some.inj hstep ▸ h.sendWhere _ msg
  | sendToOthers msg id => exact Option.some.inj hstep ▸ h.sendWhere _ msg

/-! ## Which moves are complete -/

/-- Only the end of a callback puts an id into `subscribes`. -/
theorem Ordered.mem_keys_of_step (h : s.Ordered) {e : ServiceEvent M} (hstep : s.step e = some t)
    (hdrop : e ≠ .swapDrop) {id : ℤ} (hid : id ∈ t.subscribes.keys) : id ∈ s.subscribes.keys := by
  cases e with
  | onSubscribe id' =>
    rw [← Option.some.inj hstep] at hid
    unfold ServiceTmpl.onSubscribe at hid
    dsimp only at hid
    split_ifs at hid with hold hneed
    · exact hid
    · exact hid
    · exact absurd h.need hneed
  | onUnsubscribe id' =>
    rw [← Option.some.inj hstep] at hid
    unfold ServiceTmpl.onUnsubscribe at hid
    split_ifs at hid
    · exact (OrderedMap.mem_keys_delete.mp hid).2
    · exact hid
  | snapshot =>
    simp only [ServiceTmpl.step] at hstep
    split_ifs at hstep
    rw [← Option.some.inj hstep] at hid
    unfold ServiceTmpl.snapshot at hid
    split_ifs at hid <;> exact hid
  | swapSend msg =>
    simp only [ServiceTmpl.step] at hstep
    split_ifs at hstep
    rw [← Option.some.inj hstep] at hid
    exact hid
  | swapDrop => exact absurd rfl hdrop
  | send msg =>
    rw [← Option.some.inj hstep, ServiceTmpl.send, keys_sendWhere] at hid
    exact hid
  | sendTo msg id' =>
    rw [← Option.some.inj hstep, ServiceTmpl.sendTo, keys_sendWhere] at hid
    exact hid
  | sendToOthers msg id' =>
    rw [← Option.some.inj hstep, ServiceTmpl.sendToOthers, keys_sendWhere] at hid
    exact hid

/-- A waiting subscriber got all that the callback sent exactly if it missed nothing. -/
theorem Waits.received_all_iff {sends : List (M × List ℤ)} {number : ℕ} {id : ℤ}
    {sub : Subscriber M} (h : Waits sends number id sub) :
    ((∀ send ∈ sends, id ∈ send.2) ∧
      sub.received = sends.map fun send => .snapshot number send.1) ↔ sub.missed = 0 := by
  constructor
  · rintro ⟨-, hreceived⟩
    have hlength : (sends.drop sub.missed).length = sends.length := by
      simpa using congrArg List.length (h.received_eq.symm.trans hreceived)
    have hle := h.missed_le
    rw [List.length_drop] at hlength
    omega
  · intro hmissed
    have hdrop : sends.drop sub.missed = sends := by rw [hmissed, List.drop_zero]
    have hpresent := h.present
    have hreceived := h.received_eq
    rw [hdrop] at hpresent hreceived
    exact ⟨hpresent, hreceived⟩

/-- A step moves subscribers only with their snapshot if and only if it is timely. -/
theorem Ordered.movesComplete_iff (h : s.Ordered) {e : ServiceEvent M}
    (hstep : s.step e = some t) : s.MovesComplete t ↔ s.Timely e := by
  by_cases hdrop : e = .swapDrop
  · subst hdrop
    simp only [ServiceTmpl.step] at hstep
    split_ifs at hstep
    obtain rfl := Option.some.inj hstep
    constructor
    · intro hmoves id sub hget
      have hmoved : s.swapNewSubscribes.subscribes.get? id = some sub := by
        rw [h.get?_swapNewSubscribes, hget, Option.some_or]
      exact (h.waits id sub hget).received_all_iff.mp
        (hmoves id (OrderedMap.mem_keys_iff.mpr ⟨sub, hget⟩) sub hmoved)
    · intro htimely id hid sub hmoved
      obtain ⟨sub', hget⟩ := OrderedMap.mem_keys_iff.mp hid
      rw [h.get?_swapNewSubscribes, hget, Option.some_or] at hmoved
      obtain rfl := Option.some.inj hmoved
      exact (h.waits id sub' hget).received_all_iff.mpr (htimely id sub' hget)
  · have htimely : s.Timely e := by cases e <;> trivial
    refine iff_of_true (fun id hid sub hget => ?_) htimely
    have hold := h.mem_keys_of_step hstep hdrop (OrderedMap.mem_keys_iff.mpr ⟨sub, hget⟩)
    exact absurd hid (h.apart id hold)

/-! ## The stream after the snapshot -/

/-- Every subscriber of the stream got its whole snapshot before anything else. -/
def AllServed (s : ServiceTmpl M) : Prop :=
  ∀ id sub, s.subscribes.get? id = some sub → ∃ msgs : List M,
    s.done[sub.awaits]? = some msgs ∧ msgs.map (Delivery.snapshot sub.awaits) <+: sub.received

/-- Who was served got the snapshot first. -/
theorem AllServed.snapshotFirst (h : s.AllServed) : s.SnapshotFirst := by
  intro id sub hget before msg after hreceived
  obtain ⟨msgs, hdone, hprefix⟩ := h id sub hget
  refine ⟨msgs, hdone, ?_⟩
  rw [hreceived] at hprefix
  rcases List.prefix_or_prefix_of_prefix hprefix (List.prefix_append before _) with hle | hle
  · exact hle
  · obtain ⟨rest, hrest⟩ := hle
    cases rest with
    | nil => rw [← hrest, List.append_nil]
    | cons delivery rest =>
      -- the message of the stream would be one of the snapshot
      rw [← hrest, List.prefix_append_right_inj, List.cons_prefix_cons] at hprefix
      have hmem : Delivery.sent msg ∈ msgs.map (Delivery.snapshot sub.awaits) := by
        rw [← hrest, ← hprefix.1]
        simp
      simp at hmem

/-- A swap that is timely serves all. -/
theorem AllServed.swapNewSubscribes (h : s.Ordered) (hserved : s.AllServed)
    (htimely : s.Timely .swapDrop) : s.swapNewSubscribes.AllServed := by
  intro id sub hget
  rw [h.get?_swapNewSubscribes, Option.or_eq_some_iff] at hget
  rcases hget with hget | ⟨-, hget⟩
  · have hwaits := h.waits id sub hget
    obtain ⟨-, hreceived⟩ := hwaits.received_all_iff.mpr (htimely id sub hget)
    refine ⟨s.sends.map Prod.fst, ?_, ?_⟩
    · simp [ServiceTmpl.swapNewSubscribes, hwaits.awaits_eq]
    · rw [hreceived, hwaits.awaits_eq, List.map_map]
      exact List.prefix_refl _
  · obtain ⟨msgs, hdone, hprefix⟩ := hserved id sub hget
    obtain ⟨hlt, -⟩ := List.getElem?_eq_some_iff.mp hdone
    exact ⟨msgs, (List.getElem?_append_left hlt).trans hdone, hprefix⟩

/-- A message leaves all served. -/
theorem AllServed.sendWhere (hserved : s.AllServed) (keep : ℤ → Bool) (msg : M) :
    (s.sendWhere keep msg).AllServed := by
  intro id sub hget
  simp only [ServiceTmpl.sendWhere, OrderedMap.get?_mapValues] at hget
  obtain ⟨sub', hsub', rfl⟩ := Option.map_eq_some_iff.mp hget
  obtain ⟨msgs, hdone, hprefix⟩ := hserved id sub' hsub'
  split_ifs
  · exact ⟨msgs, hdone, hprefix.trans (List.prefix_append _ _)⟩
  · exact ⟨msgs, hdone, hprefix⟩

/-- A step that keeps `done` and puts no new subscriber into `subscribes`. -/
theorem AllServed.of_subset (hserved : s.AllServed) (hdone : t.done = s.done)
    (hsubscribes : ∀ id sub, t.subscribes.get? id = some sub → s.subscribes.get? id = some sub) :
    t.AllServed := by
  intro id sub hget
  rw [hdone]
  exact hserved id sub (hsubscribes id sub hget)

/-- **One step** that is timely leaves all served. -/
theorem AllServed.step (h : s.Ordered) (hserved : s.AllServed) {e : ServiceEvent M}
    (htimely : s.Timely e) (hstep : s.step e = some t) : t.AllServed := by
  cases e with
  | onSubscribe id =>
    obtain rfl := Option.some.inj hstep
    unfold ServiceTmpl.onSubscribe
    dsimp only
    split_ifs with hold hneed
    · exact hserved
    · exact hserved
    · exact absurd h.need hneed
  | onUnsubscribe id =>
    obtain rfl := Option.some.inj hstep
    unfold ServiceTmpl.onUnsubscribe
    split_ifs with hold
    · refine hserved.of_subset rfl fun id' sub hget => ?_
      rw [OrderedMap.get?_delete] at hget
      split_ifs at hget
      exact hget
    · exact hserved
  | snapshot =>
    simp only [ServiceTmpl.step] at hstep
    split_ifs at hstep
    obtain rfl := Option.some.inj hstep
    unfold ServiceTmpl.snapshot
    split_ifs <;> exact hserved
  | swapSend msg =>
    simp only [ServiceTmpl.step] at hstep
    split_ifs at hstep
    obtain rfl := Option.some.inj hstep
    exact hserved
  | swapDrop =>
    simp only [ServiceTmpl.step] at hstep
    split_ifs at hstep
    exact Option.some.inj hstep ▸ hserved.swapNewSubscribes h htimely
  | send msg => exact Option.some.inj hstep ▸ hserved.sendWhere _ msg
  | sendTo msg id => exact Option.some.inj hstep ▸ hserved.sendWhere _ msg
  | sendToOthers msg id => exact Option.some.inj hstep ▸ hserved.sendWhere _ msg

/-- **The snapshot comes before the stream** in a run if and only if no callback of it ends
while a subscriber waits that came after the callback's first send. -/
theorem keepsOrder_iff_timely {events : List (ServiceEvent M)}
    (hrun : (serviceMachine M).Run (.new true) events t) :
    KeepsOrder events ↔ (serviceMachine M).RunWhere Timely (.new true) events t := by
  have hsteps := Machine.runWhere_iff_steps_beside (M := serviceMachine M)
    (R := fun s _ t => s.MovesComplete t) (fun s e t hse hs => Ordered.step hs hse)
    (fun s e t hse hs => Ordered.movesComplete_iff hs hse) ordered_new hrun
  refine ⟨fun h => hsteps.mp h.1, fun hwhere => ⟨hsteps.mpr hwhere, ?_⟩⟩
  intro first u hinitial hfirst
  obtain ⟨v, hv⟩ := hwhere.initial hinitial
  obtain rfl := hv.end_eq hfirst
  have hkept : v.Ordered ∧ v.AllServed :=
    hv.invariant (P := fun s => s.Ordered ∧ s.AllServed)
      (fun s e t hok hse hs => ⟨hs.1.step hse, hs.2.step hs.1 hok hse⟩)
      ⟨ordered_new, fun id sub hget => by simp [new] at hget⟩
  exact ⟨hkept.1.apart, hkept.2.snapshotFirst⟩

/-- Whatever the callbacks do, no id is ever in both maps. -/
theorem apart_of_reachable (h : (serviceMachine M).Reachable s) : s.Apart :=
  (h.invariant (P := Ordered) ordered_new fun _ _ _ hstep hs => hs.step hstep).apart

/-- The states of a callback that sends one message to the subscriber 1. -/
def demoSent : ServiceTmpl ℕ :=
  ((((new true).onSubscribe 1).snapshot).sendNewSubscribes 7)

/-- With nobody coming during the callback the order is kept. -/
theorem keepsOrder_demo :
    KeepsOrder [.onSubscribe 1, .snapshot, .swapSend 7, .swapDrop, .send (9 : ℕ)] := by
  have htimely : demoSent.Timely .swapDrop := by
    intro id sub hget
    have hmem := OrderedMap.mem_entries_of_get? hget
    rw [show demoSent.newSubscribes.entries = [(1, ⟨1, [.snapshot 0 7], 0, 0⟩)] from rfl,
      List.mem_singleton] at hmem
    injection hmem with _ hsub
    rw [hsub]
  have hrun : (serviceMachine ℕ).RunWhere Timely (.new true)
      [.onSubscribe 1, .snapshot, .swapSend 7, .swapDrop, .send (9 : ℕ)]
      (demoSent.swapNewSubscribes.send 9) :=
    .cons trivial rfl <| .cons trivial rfl <| .cons trivial rfl <| .cons htimely rfl <|
      .single trivial rfl
  exact (keepsOrder_iff_timely hrun.run).mpr hrun

/-- The subscriber 2 comes after the callback's send and before its end. It is moved with the
subscriber 1, and all it has got when the stream begins is the message of the stream. -/
theorem not_keepsOrder_late :
    ∃ t : ServiceTmpl ℕ, (serviceMachine ℕ).Run (.new true)
        [.onSubscribe 1, .snapshot, .swapSend 7, .onSubscribe 2, .swapDrop, .send 9] t ∧
      (t.subscribes.get? 1).map (·.received) = some [.snapshot 0 7, .sent 9] ∧
      (t.subscribes.get? 2).map (·.received) = some [.sent 9] ∧
      ¬ KeepsOrder [.onSubscribe 1, .snapshot, .swapSend 7, .onSubscribe 2, .swapDrop,
        .send (9 : ℕ)] := by
  refine ⟨((demoSent.onSubscribe 2).swapNewSubscribes).send 9, Machine.run_of_replay rfl, rfl, rfl,
    fun hkeeps => ?_⟩
  have hmoves := hkeeps.1 [.onSubscribe 1, .snapshot, .swapSend 7, .onSubscribe 2] .swapDrop
    (demoSent.onSubscribe 2) _ ⟨[.send 9], rfl⟩ (Machine.run_of_replay rfl) rfl
  have hpresent := (hmoves 2 (by decide) ⟨2, [], 0, 1⟩ rfl).1 (7, [1]) (by decide)
  exact absurd hpresent (by decide)

end ServiceTmpl

end RdWeb.Host
