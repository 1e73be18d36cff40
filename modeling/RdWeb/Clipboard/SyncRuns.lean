import RdWeb.Clipboard.SyncNetwork
import Mathlib.Algebra.BigOperators.Group.List.Basic
import Mathlib.Algebra.Order.Ring.Nat

/-!
# What goes from clipboard to clipboard

A message carries what a user copied where it comes from, and is not passed on: what a session
puts on a clipboard has a mark, and a marked clipboard is read for the first message of a session
only. So every change dies down.
-/

namespace RdWeb.MultiClip

variable {Node : Type*} {w : World Node}

/-! ### Reading a clipboard -/

namespace Board

/-- What is read in some format is on the clipboard. -/
theorem mem_items_of_mem_getFormats {b : Board} {item : ClipboardData}
    (h : item ∈ b.getFormats) : item ∈ b.items := by
  obtain ⟨format, _, hfind⟩ := List.mem_filterMap.mp h
  exact List.mem_of_find?_eq_some hfind

/-- What is read from a clipboard is on it and can be synchronised. -/
theorem mem_of_mem_get {b : Board} {filesApart : Bool} {side : ClipboardSide} {force : Bool}
    {item : ClipboardData} (h : item ∈ b.get filesApart side force) :
    item ∈ b.items ∧ item.isSynchronised = true := by
  have hdata : item ∈ b.getFormatsFilter side force := by
    dsimp only [get] at h
    split_ifs at h
    · exact absurd h (by simp)
    · exact h
  dsimp only [getFormatsFilter] at hdata
  split_ifs at hdata with hempty hmark
  · rw [List.isEmpty_iff.mp hempty] at hdata
    exact absurd hdata (by simp)
  · exact absurd hdata (by simp)
  · obtain ⟨hmem, hsync⟩ := List.mem_filter.mp hdata
    exact ⟨mem_items_of_mem_getFormats hmem, hsync⟩

/-- A marked clipboard is not read unless it has to be. -/
theorem get_of_owned {b : Board} (h : b.Owned) (filesApart : Bool) (side : ClipboardSide) :
    b.get filesApart side false = [] := by
  have hne : b.getFormats.isEmpty = false := by
    obtain ⟨item, hmem, -⟩ := List.any_eq_true.mp h
    exact List.isEmpty_eq_false_iff.mpr (List.ne_nil_of_mem hmem)
  have hmark : b.getFormats.any (·.isMark side) = true := h
  have hfilter : b.getFormatsFilter side false = [] := by
    simp [getFormatsFilter, hne, hmark]
  rw [get, hfilter, ite_self]

/-- Nothing is read from an empty clipboard. -/
theorem get_empty (filesApart : Bool) (side : ClipboardSide) (force : Bool) :
    Board.empty.get filesApart side force = [] := by
  cases filesApart <;> rfl

end Board

/-! ### What a message carries -/

/-- Every item of the message is one of the clipboard, as the encoders write it. -/
def CarriesOnly (w : World Node) (b : Board) (clipboards : List Clipboard) : Prop :=
  ∀ c ∈ clipboards, ∃ item ∈ b.items, item.isSynchronised = true ∧
    clipboardDataToProto w.compress item = some c

/-- Nothing carries only what a clipboard holds. -/
theorem carriesOnly_nil (b : Board) : CarriesOnly w b [] := by
  intro c hc
  exact absurd hc (by simp)

/-- What is read from a clipboard carries only what it holds. -/
theorem carriesOnly_get (b : Board) (filesApart : Bool) (side : ClipboardSide) (force : Bool) :
    CarriesOnly w b (createMultiClipboards w.compress (b.get filesApart side force)) := by
  intro c hc
  obtain ⟨item, hitem, hproto⟩ := List.mem_filterMap.mp hc
  obtain ⟨hmem, hsync⟩ := Board.mem_of_mem_get hitem
  exact ⟨item, hmem, hsync, hproto⟩

/-- Fewer clipboards carry no more. -/
theorem CarriesOnly.of_subset {b : Board} {clipboards fewer : List Clipboard}
    (h : CarriesOnly w b clipboards) (hsub : ∀ c ∈ fewer, c ∈ clipboards) :
    CarriesOnly w b fewer :=
  fun c hc => h c (hsub c hc)

/-- What the peer gets is part of what was read. -/
theorem forPeer_subset (multi : Bool) (clipboards : List Clipboard) :
    ∀ c ∈ forPeer multi clipboards, c ∈ clipboards := by
  intro c hc
  unfold forPeer at hc
  split_ifs at hc
  · exact hc
  · split at hc
    · rename_i text htext
      obtain rfl := List.mem_singleton.mp hc
      exact List.mem_of_find?_eq_some htext
    · exact hc

/-- Only an item of a special format comes back as one, and with the same name. -/
theorem eq_special_of_carried {compress decompress : ByteArray → ByteArray} {item : ClipboardData}
    {c : Clipboard} {name : String} {data : ByteArray}
    (hproto : clipboardDataToProto compress item = some c)
    (hback : fromClipboard decompress c = some (.special name data)) :
    ∃ sent, item = .special name sent := by
  cases item with
  | text | rtf | html =>
    obtain rfl := Option.some.inj hproto
    simp [fromClipboard] at hback
  | image a =>
    obtain rfl := Option.some.inj hproto
    cases a <;> simp [fromClipboard, imageToProto] at hback
  | special other sent =>
    obtain rfl := Option.some.inj hproto
    simp only [fromClipboard, specialToProto, ClipboardFormat.enumValue_value, Option.some.injEq,
      ClipboardData.special.injEq] at hback
    exact ⟨sent, by rw [hback.1]⟩
  | other => exact absurd hproto (by simp [clipboardDataToProto])

/-- **The mark is found.** Nothing a message carries hides the mark behind it. -/
theorem CarriesOnly.received_owned {b : Board} {clipboards : List Clipboard}
    (h : CarriesOnly w b clipboards) (side : ClipboardSide) :
    (Network.received w side clipboards).Owned := by
  have hnone : ∀ item ∈ fromMultiClipboards w.decompress clipboards,
      ¬ (ArboardFormat.special rustdeskClipboardOwnerFormat).offers item = true := by
    intro item hitem hoffers
    obtain ⟨c, hc, hback⟩ := List.mem_filterMap.mp hitem
    obtain ⟨sent, -, hsync, hproto⟩ := h c hc
    cases item with
    | special name data =>
      obtain ⟨old, rfl⟩ := eq_special_of_carried hproto hback
      have hname : rustdeskClipboardOwnerFormat = name := by
        simpa [ArboardFormat.offers] using hoffers
      exact absurd hname.symm (by simpa [ClipboardData.isSynchronised] using hsync)
    | _ => exact absurd hoffers (by simp [ArboardFormat.offers])
  have hfind : (Network.received w side clipboards).items.find?
      (ArboardFormat.special rustdeskClipboardOwnerFormat).offers =
        some (.special rustdeskClipboardOwnerFormat side.getOwnerData) := by
    rw [Network.received, List.find?_append, List.find?_eq_none.mpr hnone]
    rfl
  have hmem : ClipboardData.special rustdeskClipboardOwnerFormat side.getOwnerData ∈
      (Network.received w side clipboards).getFormats :=
    List.mem_filterMap.mpr ⟨.special rustdeskClipboardOwnerFormat, by simp [supportedFormats],
      hfind⟩
  refine List.any_eq_true.mpr ⟨_, hmem, ?_⟩
  cases side <;> decide

/-! ### One step -/

namespace Network

/-- A cache belongs to its machine. -/
@[simp] theorem cache_fst (m : Node) (side : ClipboardSide) : (cache w m side).1 = m := by
  unfold cache
  split_ifs <;> rfl

/-- What every sender may send is in the messages and in the caches. -/
structure Sends (P : Node → List Clipboard → Prop) (s : Network Node) : Prop where
  messages : ∀ msg ∈ s.messages, P msg.sender msg.clipboards
  last : ∀ key, P key.1 (s.last key)

section Sends

variable {P : Node → List Clipboard → Prop} {s t : Network Node}

/-- A property of what is sent may be relaxed. -/
theorem Sends.mono {Q : Node → List Clipboard → Prop} (h : s.Sends P)
    (hPQ : ∀ m clipboards, P m clipboards → Q m clipboards) : s.Sends Q :=
  ⟨fun msg hmsg => hPQ _ _ (h.messages msg hmsg), fun key => hPQ _ _ (h.last key)⟩

/-- Fewer messages, and the same caches. -/
theorem Sends.of_subset (h : s.Sends P) (hmessages : ∀ msg ∈ t.messages, msg ∈ s.messages)
    (hlast : t.last = s.last) : t.Sends P :=
  ⟨fun msg hmsg => h.messages msg (hmessages msg hmsg), fun key => hlast ▸ h.last key⟩

/-- More messages, of senders that may send them. -/
theorem Sends.append (h : s.Sends P) {messages : List (SyncMessage Node)}
    (hP : ∀ msg ∈ messages, P msg.sender msg.clipboards) :
    ({ s with messages := s.messages ++ messages } : Network Node).Sends P :=
  ⟨List.forall_mem_append.mpr ⟨h.messages, hP⟩, h.last⟩

variable [DecidableEq Node]

/-- A cache may be set to what has the property. -/
theorem Sends.setLast (h : s.Sends P) {m : Node} {side : ClipboardSide}
    {clipboards : List Clipboard} (hP : P m clipboards) :
    ({ s with last := Function.update s.last (cache w m side) clipboards } : Network Node).Sends
      P := by
  refine ⟨h.messages, fun key => ?_⟩
  show P key.1 (Function.update s.last (cache w m side) clipboards key)
  rcases eq_or_ne key (cache w m side) with rfl | hne
  · rw [Function.update_self, cache_fst]
    exact hP
  · rw [Function.update_of_ne hne]
    exact h.last key

/-- A loop sends what it reads, or the one text of it. -/
theorem Sends.check (hless : ∀ m clipboards fewer, P m clipboards →
      (∀ c ∈ fewer, c ∈ clipboards) → P m fewer) (h : s.Sends P)
    {m : Node} {side : ClipboardSide} {readOk : Bool}
    (hread : P m (createMultiClipboards w.compress
      ((s.board m).get (w.filesApart m) side false))) :
    (s.check w m side readOk).Sends P := by
  unfold Network.check
  cases hcheck : s.checkClipboard w m side readOk with
  | none => exact h
  | some clipboards =>
    have hP : P m clipboards := by
      dsimp only [checkClipboard] at hcheck
      split_ifs at hcheck
      rw [← Option.some.inj hcheck]
      exact hread
    refine (h.setLast hP).append fun msg hmsg => ?_
    obtain ⟨x, -, rfl⟩ := List.mem_map.mp hmsg
    exact hless _ _ _ hP (forPeer_subset _ _)

/-- A session begins with what is cached, or with what is read for it. -/
theorem Sends.syncInit (hnil : ∀ m, P m [])
    (hless : ∀ m clipboards fewer, P m clipboards →
      (∀ c ∈ fewer, c ∈ clipboards) → P m fewer) (h : s.Sends P)
    {x : Session Node} {readOk : Bool}
    (hread : s.last (cache w x.controller .client) = [] → P x.controller
      (createMultiClipboards w.compress
        ((s.board x.controller).get (w.filesApart x.controller) .client true))) :
    (s.syncInit w x readOk).Sends P := by
  have hP : P x.controller (s.currentClipboards w x.controller readOk) := by
    dsimp only [currentClipboards]
    split_ifs with hempty hok
    · exact hread (List.isEmpty_iff.mp hempty)
    · exact hnil _
    · have hlast := h.last (cache w x.controller .client)
      rwa [cache_fst] at hlast
  have hset : ({ s with
      last := Function.update s.last (cache w x.controller .client)
        (s.currentClipboards w x.controller readOk) } : Network Node).Sends P := h.setLast hP
  dsimp only [Network.syncInit]
  split_ifs with hmulti hnone hnone
  · exact hset
  · exact hset.append (List.forall_mem_singleton.mpr hP)
  · exact hset
  · refine hset.append (List.forall_mem_singleton.mpr (hless _ _ _ hP fun c hc => ?_))
    exact List.mem_of_find?_eq_some (Option.mem_toList.mp hc)

/-- A message that arrives changes at most the clipboard it is for. -/
theorem update_cases (s : Network Node) (msg : SyncMessage Node) (setOk : Bool) :
    s.update w msg setOk = s ∨
    ∃ x ∈ s.sessions, x.id = msg.session ∧ x.acceptsOn msg.side = true ∧
      fromMultiClipboards w.decompress msg.clipboards ≠ [] ∧
      s.update w msg setOk =
        s.setBoard (x.machineOn msg.side) (received w msg.side msg.clipboards) := by
  unfold update
  cases hfind : s.sessions.find? (·.id = msg.session) with
  | none => exact .inl rfl
  | some x =>
    dsimp only
    split_ifs with haccepts hempty hset
    · exact .inl rfl
    · exact .inl rfl
    · exact .inl rfl
    · refine .inr ⟨x, List.mem_of_find?_eq_some hfind, ?_, ?_, ?_, rfl⟩
      · simpa using List.find?_some hfind
      · simpa using haccepts
      · simpa using hempty

/-- What a step does to the messages: none is made but by the two ways of reading. -/
theorem Sends.step (hnil : ∀ m, P m [])
    (hless : ∀ m clipboards fewer, P m clipboards →
      (∀ c ∈ fewer, c ∈ clipboards) → P m fewer) (h : s.Sends P) {e : SyncEvent Node}
    (hstep : step w s e = some t)
    (hcheck : ∀ m side, P m (createMultiClipboards w.compress
      ((s.board m).get (w.filesApart m) side false)))
    (hstart : ∀ id readOk x, e = .start id readOk → s.sessions.find? (·.id = id) = some x →
      s.last (cache w x.controller .client) = [] → P x.controller
        (createMultiClipboards w.compress
          ((s.board x.controller).get (w.filesApart x.controller) .client true))) :
    t.Sends P := by
  cases e with
  | copy m b =>
    dsimp only [Network.step] at hstep
    split_ifs at hstep
    rw [← Option.some.inj hstep]
    exact h.of_subset (fun _ hmsg => hmsg) rfl
  | configure sessions =>
    dsimp only [Network.step] at hstep
    split_ifs at hstep
    rw [← Option.some.inj hstep]
    exact h.of_subset (fun _ hmsg => hmsg) rfl
  | start id readOk =>
    obtain ⟨x, hfind, rfl⟩ := Option.map_eq_some_iff.mp hstep
    exact h.syncInit hnil hless (hstart id readOk x rfl hfind)
  | check i readOk =>
    obtain ⟨⟨m, side⟩, -, rfl⟩ := Option.map_eq_some_iff.mp hstep
    have hrest : ({ s with notices := s.notices.eraseIdx i } : Network Node).Sends P :=
      h.of_subset (fun _ hmsg => hmsg) rfl
    exact hrest.check hless (hcheck m side)
  | deliver i setOk =>
    obtain ⟨msg, -, rfl⟩ := Option.map_eq_some_iff.mp hstep
    have hrest : ({ s with messages := s.messages.eraseIdx i } : Network Node).Sends P :=
      h.of_subset (fun _ hmsg => List.mem_of_mem_eraseIdx hmsg) rfl
    rcases update_cases (w := w) { s with messages := s.messages.eraseIdx i } msg setOk with
      hsame | ⟨x, -, -, -, -, hset⟩
    · rw [hsame]
      exact hrest
    · rw [hset]
      exact hrest.of_subset (fun _ hmsg => hmsg) rfl
  | loseNotice i =>
    dsimp only [Network.step] at hstep
    split_ifs at hstep
    rw [← Option.some.inj hstep]
    exact h.of_subset (fun _ hmsg => hmsg) rfl
  | loseMessage i =>
    dsimp only [Network.step] at hstep
    split_ifs at hstep
    rw [← Option.some.inj hstep]
    exact h.of_subset (fun _ hmsg => List.mem_of_mem_eraseIdx hmsg) rfl

end Sends

/-! ### What is sent was copied there -/

section Own

variable {s t : Network Node}

/-- The items were copied, at one time, on the machine. -/
def Own (w : World Node) (s : Network Node) (m : Node) (clipboards : List Clipboard) : Prop :=
  clipboards = [] ∨ ∃ b, (m, b) ∈ s.copied ∧ CarriesOnly w b clipboards

/-- What the clipboard of a machine shows: nothing, what was copied there, or what a session brought
from a machine where it was copied. -/
def Shown (w : World Node) (s : Network Node) (m : Node) : Prop :=
  s.board m = .empty ∨ (m, s.board m) ∈ s.copied ∨
    ∃ sender b clipboards side, (sender, b) ∈ s.copied ∧ CarriesOnly w b clipboards ∧
      s.board m = received w side clipboards

/-- Nothing is passed on: what a machine sends was copied on the machine. -/
structure Provenance (w : World Node) (s : Network Node) : Prop where
  sends : s.Sends (Own w s)
  boards : ∀ m, Shown w s m

/-- A session does not begin with a marked clipboard. -/
def Fresh (w : World Node) (s : Network Node) : SyncEvent Node → Prop
  | .start id _ => ∀ x, s.sessions.find? (·.id = id) = some x →
    s.last (cache w x.controller .client) ≠ [] ∨ ¬ (s.board x.controller).Owned
  | _ => True

/-- What was copied stays copied. -/
theorem Own.mono {m : Node} {clipboards : List Clipboard} (h : Own w s m clipboards)
    (hcopied : ∀ entry ∈ s.copied, entry ∈ t.copied) : Own w t m clipboards :=
  h.imp_right fun ⟨b, hb, hcarries⟩ => ⟨b, hcopied _ hb, hcarries⟩

/-- Part of what was copied here was copied here. -/
theorem Own.of_subset {m : Node} {clipboards fewer : List Clipboard}
    (h : Own w s m clipboards) (hsub : ∀ c ∈ fewer, c ∈ clipboards) : Own w s m fewer := by
  rcases h with rfl | ⟨b, hb, hcarries⟩
  · exact .inl (List.eq_nil_iff_forall_not_mem.mpr fun c hc => absurd (hsub c hc) (by simp))
  · exact .inr ⟨b, hb, hcarries.of_subset hsub⟩

/-- What a machine reads from its clipboard was copied there, unless the clipboard is marked. -/
theorem own_of_shown {m : Node} (h : Shown w s m) (filesApart : Bool)
    (side : ClipboardSide) (force : Bool)
    (hread : force = false ∨ ¬ (s.board m).Owned) :
    Own w s m (createMultiClipboards w.compress ((s.board m).get filesApart side force)) := by
  rcases h with hempty | hcopied | ⟨sender, b, clipboards, at_, -, hcarries, hboard⟩
  · rw [hempty, Board.get_empty]
    exact .inl rfl
  · exact .inr ⟨_, hcopied, carriesOnly_get _ _ _ _⟩
  · have howned : (s.board m).Owned := hboard ▸ hcarries.received_owned at_
    obtain rfl := hread.resolve_right (fun h => h howned)
    rw [Board.get_of_owned howned]
    exact .inl rfl

/-- At first nothing was sent. -/
theorem provenance_init : (init : Network Node).Provenance w :=
  ⟨⟨by simp [init], fun _ => .inl rfl⟩, fun _ => .inl rfl⟩

end Own

/-! ### Every run -/

section Runs

variable [DecidableEq Node] {s t : Network Node} {e : SyncEvent Node}

/-- Checking a clipboard leaves it. -/
@[simp] theorem board_check (s : Network Node) (m : Node) (side : ClipboardSide) (readOk : Bool) :
    (s.check w m side readOk).board = s.board := by
  unfold check
  split <;> rfl

/-- Checking a clipboard keeps the sessions. -/
@[simp] theorem sessions_check (s : Network Node) (m : Node) (side : ClipboardSide)
    (readOk : Bool) : (s.check w m side readOk).sessions = s.sessions := by
  unfold check
  split <;> rfl

/-- Checking a clipboard copies nothing. -/
@[simp] theorem copied_check (s : Network Node) (m : Node) (side : ClipboardSide)
    (readOk : Bool) : (s.check w m side readOk).copied = s.copied := by
  unfold check
  split <;> rfl

/-- Checking a clipboard takes no notice. -/
@[simp] theorem notices_check (s : Network Node) (m : Node) (side : ClipboardSide)
    (readOk : Bool) : (s.check w m side readOk).notices = s.notices := by
  unfold check
  split <;> rfl

/-- The first message of a session changes no clipboard. -/
theorem syncInit_frame (s : Network Node) (x : Session Node) (readOk : Bool) :
    (s.syncInit w x readOk).board = s.board ∧ (s.syncInit w x readOk).copied = s.copied ∧
      (s.syncInit w x readOk).sessions = s.sessions := by
  unfold syncInit
  dsimp only
  split_ifs <;> exact ⟨rfl, rfl, rfl⟩

/-- A clipboard changes when a user copies, or when a message for it arrives. -/
theorem board_cases (hstep : step w s e = some t) (m : Node) :
    t.board m = s.board m ∨ (∃ b, e = .copy m b ∧ t.board m = b) ∨
    ∃ msg ∈ s.messages, fromMultiClipboards w.decompress msg.clipboards ≠ [] ∧
      t.board m = received w msg.side msg.clipboards := by
  cases e with
  | copy n b =>
    dsimp only [Network.step] at hstep
    split_ifs at hstep
    rw [← Option.some.inj hstep]
    rcases eq_or_ne m n with rfl | hne
    · exact .inr (.inl ⟨b, rfl, Function.update_self ..⟩)
    · exact .inl (Function.update_of_ne hne ..)
  | configure sessions =>
    dsimp only [Network.step] at hstep
    split_ifs at hstep
    rw [← Option.some.inj hstep]
    exact .inl rfl
  | start id readOk =>
    obtain ⟨x, -, rfl⟩ := Option.map_eq_some_iff.mp hstep
    exact .inl (congrFun (syncInit_frame s x readOk).1 m)
  | check i readOk =>
    obtain ⟨⟨n, side⟩, -, rfl⟩ := Option.map_eq_some_iff.mp hstep
    exact .inl (congrFun (board_check ..) m)
  | deliver i setOk =>
    obtain ⟨msg, hmsg, rfl⟩ := Option.map_eq_some_iff.mp hstep
    rcases update_cases (w := w) { s with messages := s.messages.eraseIdx i } msg setOk with
      hsame | ⟨x, -, -, -, hne, hset⟩
    · rw [hsame]
      exact .inl rfl
    · rw [hset]
      rcases eq_or_ne m (x.machineOn msg.side) with rfl | hother
      · exact .inr (.inr ⟨msg, List.mem_of_getElem? hmsg, hne, Function.update_self ..⟩)
      · exact .inl (Function.update_of_ne hother ..)
  | loseNotice i =>
    dsimp only [Network.step] at hstep
    split_ifs at hstep
    rw [← Option.some.inj hstep]
    exact .inl rfl
  | loseMessage i =>
    dsimp only [Network.step] at hstep
    split_ifs at hstep
    rw [← Option.some.inj hstep]
    exact .inl rfl

/-- Setting a clipboard copies nothing for the user. -/
theorem copied_update (s : Network Node) (msg : SyncMessage Node) (setOk : Bool) :
    (s.update w msg setOk).copied = s.copied := by
  rcases update_cases (w := w) s msg setOk with hsame | ⟨x, -, -, -, -, hset⟩
  · rw [hsame]
  · rw [hset]
    rfl

/-- What was copied stays on record, and a copy goes on record. -/
theorem copied_step (hstep : step w s e = some t) :
    (∀ entry ∈ s.copied, entry ∈ t.copied) ∧ ∀ m b, e = .copy m b → (m, b) ∈ t.copied := by
  cases e with
  | copy n b =>
    dsimp only [Network.step] at hstep
    split_ifs at hstep
    rw [← Option.some.inj hstep]
    refine ⟨fun entry hentry => List.mem_append_left _ hentry, ?_⟩
    rintro m b' ⟨⟩
    exact List.mem_append_right _ (List.mem_singleton_self _)
  | configure sessions =>
    dsimp only [Network.step] at hstep
    split_ifs at hstep
    rw [← Option.some.inj hstep]
    exact ⟨fun _ hentry => hentry, nofun⟩
  | start id readOk =>
    obtain ⟨x, -, rfl⟩ := Option.map_eq_some_iff.mp hstep
    exact ⟨fun _ hentry => (syncInit_frame s x readOk).2.1 ▸ hentry, nofun⟩
  | check i readOk =>
    obtain ⟨⟨n, side⟩, -, rfl⟩ := Option.map_eq_some_iff.mp hstep
    refine ⟨fun entry hentry => ?_, nofun⟩
    rw [copied_check]
    exact hentry
  | deliver i setOk =>
    obtain ⟨msg, -, rfl⟩ := Option.map_eq_some_iff.mp hstep
    refine ⟨fun entry hentry => ?_, nofun⟩
    rw [copied_update]
    exact hentry
  | loseNotice i =>
    dsimp only [Network.step] at hstep
    split_ifs at hstep
    rw [← Option.some.inj hstep]
    exact ⟨fun _ hentry => hentry, nofun⟩
  | loseMessage i =>
    dsimp only [Network.step] at hstep
    split_ifs at hstep
    rw [← Option.some.inj hstep]
    exact ⟨fun _ hentry => hentry, nofun⟩

/-- Whatever a message carries was on some clipboard, so it has no mark in it. -/
def Clean (w : World Node) (s : Network Node) : Prop :=
  s.Sends fun _ clipboards => ∃ b, CarriesOnly w b clipboards

/-- **One step** leaves the network clean. -/
theorem Clean.step (h : s.Clean w) (hstep : step w s e = some t) : t.Clean w := by
  refine Sends.step (fun _ => ⟨.empty, carriesOnly_nil _⟩) ?_ h hstep
    (fun m side => ⟨_, carriesOnly_get _ _ _ _⟩) (fun _ _ _ _ _ _ => ⟨_, carriesOnly_get _ _ _ _⟩)
  rintro m clipboards fewer ⟨b, hb⟩ hsub
  exact ⟨b, hb.of_subset hsub⟩

/-- Every network that can be reached is clean. -/
theorem clean_of_reachable (h : (syncNetwork w).Reachable s) : s.Clean w := by
  refine h.invariant (P := Clean w) ?_ fun s e t hstep hs => hs.step hstep
  exact ⟨by simp [syncNetwork, init], fun _ => ⟨.empty, carriesOnly_nil _⟩⟩

/-- **A step passes nothing on** unless a session begins with a marked clipboard. -/
theorem Provenance.step (h : s.Provenance w) (hfresh : Fresh w s e)
    (hstep : step w s e = some t) : t.Provenance w := by
  have hkept := (copied_step hstep).1
  constructor
  · have hsends : t.Sends (Own w s) := by
      refine Sends.step (fun _ => .inl rfl) (fun m _ _ h hsub => h.of_subset hsub) h.sends hstep
        (fun m side => own_of_shown (h.boards m) _ _ _ (.inl rfl)) ?_
      rintro id readOk x rfl hfind hnone
      have hunmarked := (hfresh x hfind).resolve_left (fun hne => hne hnone)
      exact own_of_shown (h.boards x.controller) _ _ _ (.inr hunmarked)
    exact hsends.mono fun m clipboards hown => hown.mono hkept
  · intro m
    rcases board_cases hstep m with hsame | ⟨b, he, hboard⟩ | ⟨msg, hmsg, hne, hboard⟩
    · unfold Shown
      rw [hsame]
      rcases h.boards m with hempty | hcopied | ⟨sender, b, clipboards, side, hb, hrest⟩
      · exact .inl hempty
      · exact .inr (.inl (hkept _ hcopied))
      · exact .inr (.inr ⟨sender, b, clipboards, side, hkept _ hb, hrest⟩)
    · exact .inr (.inl (hboard ▸ (copied_step hstep).2 m b he))
    · rcases h.sends.messages msg hmsg with hnil | ⟨b, hb, hcarries⟩
      · exact absurd (by rw [hnil]; rfl) hne
      · exact .inr (.inr ⟨msg.sender, b, msg.clipboards, msg.side, hkept _ hb, hcarries, hboard⟩)

/-- **Nothing is passed on.** In every run in which no session begins with a marked clipboard,
each message carries what a user copied on the machine that sends it, and each clipboard shows
what was copied there or what came in one step from where it was copied. -/
theorem provenance_of_run {events : List (SyncEvent Node)}
    (hrun : (syncNetwork w).RunWhere (Fresh w) init events s) : s.Provenance w :=
  hrun.invariant (fun _ _ _ hfresh hstep hs => hs.step hfresh hstep) provenance_init

end Runs

/-- The second machine shows what was copied on the first, when the session began. -/
theorem provenance_of_run_hello :
    (after [.configure [firstToSecond], .copy 0 hello, .start 0 true, .deliver 0 true]).Provenance
      threeDesks := by
  have hfresh : Fresh threeDesks (after [.configure [firstToSecond], .copy 0 hello])
      (.start 0 true) := by
    intro x hx
    obtain rfl : firstToSecond = x := Option.some.inj hx
    exact .inr (by decide)
  have hrun : (syncNetwork threeDesks).RunWhere (Fresh threeDesks) init
      [.configure [firstToSecond], .copy 0 hello, .start 0 true, .deliver 0 true]
      (after [.configure [firstToSecond], .copy 0 hello, .start 0 true, .deliver 0 true]) :=
    .cons trivial rfl (.cons trivial rfl (.cons hfresh rfl (.cons trivial rfl (.nil _))))
  exact provenance_of_run hrun

end Network

end RdWeb.MultiClip
