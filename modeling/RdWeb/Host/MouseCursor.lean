import Mathlib.Algebra.Order.Ring.Int
import RdWeb.Lib.OrderedMap

/-!
# What a subscriber gets of the cursor

`MouseCursorSub` of `input_service.rs`: the data of a cursor goes out once, and from then on its
id. The receiver keeps the data it got.
-/

namespace RdWeb.Host

/-- `CursorData`. -/
structure CursorData where
  id : UInt64
  hotx : BitVec 32
  hoty : BitVec 32
  width : BitVec 32
  height : BitVec 32
  colors : List UInt8
  deriving DecidableEq

/-- `Message`, as far as the cursor service makes one; `default` has no union. -/
inductive CursorMessage
  | default
  | cursorData (data : CursorData)
  | cursorId (id : UInt64)
  deriving DecidableEq

/-- The cursor a message identifies. -/
def CursorMessage.cursor : CursorMessage → Option UInt64
  | .default => none
  | .cursorData data => some data.id
  | .cursorId id => some id

/-- A message that `MouseCursorSub::send` is given. -/
def CursorMessage.Shared (msg : CursorMessage) : Prop := ∀ id, msg ≠ .cursorId id

/-- One subscription, with what its connection was handed. `late` is no field of the code: the
subscription came after a snapshot had gone out and before the swap, and was handed nothing. -/
structure MouseCursorSub where
  id : ℤ
  cached : OrderedMap UInt64 CursorMessage
  received : List CursorMessage
  late : Bool

namespace MouseCursorSub

/-- `From<ConnInner>`. -/
def ofConnInner (id : ℤ) (late : Bool) : MouseCursorSub := ⟨id, .empty, [], late⟩

/-- `inner.send`. -/
def innerSend (sub : MouseCursorSub) (msg : CursorMessage) : MouseCursorSub :=
  { sub with received := sub.received ++ [msg], late := false }

/-- `MouseCursorSub::send`. -/
def send (sub : MouseCursorSub) (msg : CursorMessage) : MouseCursorSub :=
  match msg with
  | .cursorData cd =>
    match sub.cached.get? cd.id with
    | some cached => sub.innerSend cached
    | none => { sub.innerSend msg with cached := sub.cached.set cd.id (.cursorId cd.id) }
  | msg => sub.innerSend msg

/-- An id is received only after the data with that id. -/
def IdsAfterData (sub : MouseCursorSub) : Prop :=
  ∀ before id after, sub.received = before ++ .cursorId id :: after →
    ∃ data, .cursorData data ∈ before ∧ data.id = id

/-- The cursor that the last message about one has identified. -/
def lastCursor (sub : MouseCursorSub) : Option UInt64 :=
  (sub.received.filterMap CursorMessage.cursor).getLast?

/-- What is cached for an id is that id, and its data was received. -/
structure Delivered (sub : MouseCursorSub) : Prop where
  ids_after_data : sub.IdsAfterData
  cached_id : ∀ id msg, sub.cached.get? id = some msg → msg = .cursorId id
  cached_data : ∀ id msg, sub.cached.get? id = some msg →
    ∃ data, .cursorData data ∈ sub.received ∧ data.id = id

variable {sub : MouseCursorSub} {msg : CursorMessage}

/-- Known data is sent in the message that was kept. -/
theorem send_eq_of_cached {data : CursorData} (h : sub.cached.get? data.id = some msg) :
    sub.send (.cursorData data) = sub.innerSend msg := by
  simp only [send, h]

/-- Unknown data is sent as it is, and kept. -/
theorem send_eq_of_not_cached {data : CursorData} (h : sub.cached.get? data.id = none) :
    sub.send (.cursorData data) = { sub.innerSend (.cursorData data) with
      cached := sub.cached.set data.id (.cursorId data.id) } := by
  simp only [send, h]

/-- To a new subscriber nothing was delivered. -/
theorem Delivered.ofConnInner (id : ℤ) (late : Bool) : (ofConnInner id late).Delivered where
  ids_after_data before id' after h := by simp [MouseCursorSub.ofConnInner] at h
  cached_id id' msg h := by simp [MouseCursorSub.ofConnInner] at h
  cached_data id' msg h := by simp [MouseCursorSub.ofConnInner] at h

/-- A message that is no id, or one whose data was received, keeps the ids after their data. -/
theorem IdsAfterData.innerSend (h : sub.IdsAfterData)
    (hdata : ∀ id, msg = .cursorId id → ∃ data, .cursorData data ∈ sub.received ∧ data.id = id) :
    (sub.innerSend msg).IdsAfterData := by
  intro before id after heq
  change sub.received ++ [msg] = before ++ .cursorId id :: after at heq
  rcases List.eq_nil_or_concat after with rfl | ⟨after, last, rfl⟩
  · obtain ⟨hbefore, hmsg⟩ := List.append_inj' heq rfl
    obtain rfl : msg = .cursorId id := by simpa using hmsg
    exact hbefore ▸ hdata id rfl
  · have hends : sub.received ++ [msg] = (before ++ .cursorId id :: after) ++ [last] := by
      simpa using heq
    exact h before id after (List.append_inj' hends rfl).1

/-- What was received stays received. -/
theorem Delivered.cached_data_innerSend (h : sub.Delivered) (msg : CursorMessage) (id : UInt64)
    (cached : CursorMessage) (hget : sub.cached.get? id = some cached) :
    ∃ data, .cursorData data ∈ (sub.innerSend msg).received ∧ data.id = id := by
  obtain ⟨data, hmem, hid⟩ := h.cached_data id cached hget
  exact ⟨data, List.mem_append_left _ hmem, hid⟩

/-- **One send** keeps every id after its data. -/
theorem Delivered.send (h : sub.Delivered) (hmsg : msg.Shared) : (sub.send msg).Delivered := by
  cases msg with
  | default =>
    exact ⟨h.ids_after_data.innerSend fun id hid => absurd hid (hmsg id), h.cached_id,
      h.cached_data_innerSend _⟩
  | cursorId id => exact absurd rfl (hmsg id)
  | cursorData data =>
    cases hget : sub.cached.get? data.id with
    | some cached =>
      rw [send_eq_of_cached hget]
      obtain rfl := h.cached_id data.id cached hget
      refine ⟨h.ids_after_data.innerSend ?_, h.cached_id, h.cached_data_innerSend _⟩
      intro id hid
      obtain rfl := CursorMessage.cursorId.inj hid
      exact h.cached_data data.id _ hget
    | none =>
      rw [send_eq_of_not_cached hget]
      refine ⟨h.ids_after_data.innerSend fun id hid => absurd hid (hmsg id), ?_, ?_⟩
      · intro id cached hset
        rw [OrderedMap.get?_set] at hset
        split_ifs at hset with hid
        · rw [← Option.some.inj hset, hid]
        · exact h.cached_id id cached hset
      · intro id cached hset
        rw [OrderedMap.get?_set] at hset
        split_ifs at hset with hid
        · exact ⟨data, List.mem_append_right _ (List.mem_singleton_self _), hid.symm⟩
        · exact h.cached_data_innerSend _ id cached hset

/-- The last cursor is that of the last message with one. -/
theorem lastCursor_innerSend (sub : MouseCursorSub) (msg : CursorMessage) :
    (sub.innerSend msg).lastCursor = msg.cursor.or sub.lastCursor := by
  have hcursors : (sub.innerSend msg).received.filterMap CursorMessage.cursor =
      sub.received.filterMap CursorMessage.cursor ++ msg.cursor.toList := by
    rw [innerSend, List.filterMap_append]
    cases hmsg : msg.cursor <;> simp [hmsg]
  rw [lastCursor, hcursors]
  cases msg.cursor with
  | none => simp [lastCursor]
  | some id => simp

/-- A subscriber is told the cursor it is sent, one way or the other. -/
theorem Delivered.lastCursor_send (h : sub.Delivered) (msg : CursorMessage) :
    (sub.send msg).lastCursor = msg.cursor.or sub.lastCursor := by
  cases msg with
  | default => exact lastCursor_innerSend sub _
  | cursorId id => exact lastCursor_innerSend sub _
  | cursorData data =>
    cases hget : sub.cached.get? data.id with
    | some cached =>
      rw [send_eq_of_cached hget, lastCursor_innerSend, h.cached_id data.id cached hget]
      rfl
    | none =>
      rw [send_eq_of_not_cached hget]
      exact lastCursor_innerSend sub _

/-- Sending keeps the id. -/
theorem id_send (sub : MouseCursorSub) (msg : CursorMessage) : (sub.send msg).id = sub.id := by
  unfold send innerSend
  split
  · split <;> rfl
  · rfl

/-- After a message the subscriber is no longer late. -/
theorem late_send (sub : MouseCursorSub) (msg : CursorMessage) :
    (sub.send msg).late = false := by
  unfold send innerSend
  split
  · split <;> rfl
  · rfl

end MouseCursorSub

end RdWeb.Host
