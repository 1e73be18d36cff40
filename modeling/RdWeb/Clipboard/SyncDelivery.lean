import RdWeb.Clipboard.SyncSettles

/-!
# A copy arrives

From a network at rest: when the machines are at rest again after one copy and nothing was lost, all
peers of the machine have what was copied, and no other clipboard has changed.
-/

namespace RdWeb.MultiClip

/-- A step of the machines in which nothing fails. -/
def SyncEvent.Lossless {Node : Type*} : SyncEvent Node → Prop
  | .check _ readOk => readOk = true
  | .deliver _ setOk => setOk = true
  | _ => False

namespace ClipboardSide

/-- The other side of the other side is the side itself. -/
@[simp] theorem other_other (side : ClipboardSide) : side.other.other = side := by
  cases side <;> rfl

end ClipboardSide

namespace Session

variable {Node : Type*}

/-- The two sides of a session are on two machines. -/
theorem machineOn_other_ne (x : Session Node) (side : ClipboardSide) :
    x.machineOn side.other ≠ x.machineOn side := by
  cases side
  · exact x.controller_ne_controlled
  · exact x.controller_ne_controlled.symm

variable [DecidableEq Node]

/-- Who sends over a session is on that side of it. -/
theorem machineOn_of_sendsFrom {x : Session Node} {m : Node} {side : ClipboardSide}
    (h : x.sendsFrom m side = true) : x.machineOn side = m := by
  cases side <;> simp only [sendsFrom, Bool.and_eq_true, beq_iff_eq] at h <;> exact h.1

/-- A side that sends also listens. -/
theorem listensAt_of_sendsFrom {x : Session Node} {m : Node} {side : ClipboardSide}
    (h : x.sendsFrom m side = true) : x.listensAt m side = true := by
  cases side
  · exact h
  · simp only [sendsFrom, Bool.and_eq_true] at h
    exact h.1

end Session

namespace Network

variable {Node : Type*} {w : World Node} {s t u : Network Node} {e : SyncEvent Node}

/-! ### The sessions have different ids -/

/-- A session is found by its id. -/
theorem find_session (hnodup : (s.sessions.map (·.id)).Nodup) {x : Session Node}
    (hx : x ∈ s.sessions) : s.sessions.find? (·.id = x.id) = some x := by
  obtain ⟨y, hfind⟩ := Option.isSome_iff_exists.mp
    (List.find?_isSome (p := fun y => decide (y.id = x.id)) |>.mpr ⟨x, hx, by simp⟩)
  have hid : y.id = x.id := by simpa using List.find?_some hfind
  have hsame : y = x := List.inj_on_of_nodup_map hnodup (List.mem_of_find?_eq_some hfind) hx hid
  rw [hfind, hsame]

section Ids

variable [DecidableEq Node]

/-- Setting a clipboard keeps the sessions. -/
theorem sessions_update (s : Network Node) (msg : SyncMessage Node) (setOk : Bool) :
    (s.update w msg setOk).sessions = s.sessions := by
  rcases update_cases (w := w) s msg setOk with hsame | ⟨x, -, -, -, -, hset⟩
  · rw [hsame]
  · rw [hset]
    rfl

/-- The sessions change when they are configured only. -/
theorem sessions_step (hstep : step w s e = some t) :
    t.sessions = s.sessions ∨ (t.sessions.map (·.id)).Nodup := by
  cases e with
  | configure sessions =>
    dsimp only [step] at hstep
    split_ifs at hstep with hnodup
    rw [← Option.some.inj hstep]
    exact .inr hnodup
  | start id readOk =>
    obtain ⟨x, -, rfl⟩ := Option.map_eq_some_iff.mp hstep
    exact .inl (syncInit_frame s x readOk).2.2
  | check i readOk =>
    obtain ⟨⟨m, side⟩, -, rfl⟩ := Option.map_eq_some_iff.mp hstep
    exact .inl (sessions_check ..)
  | deliver i setOk =>
    obtain ⟨msg, -, rfl⟩ := Option.map_eq_some_iff.mp hstep
    exact .inl (sessions_update ..)
  | copy | loseNotice | loseMessage =>
    dsimp only [step] at hstep
    split_ifs at hstep
    rw [← Option.some.inj hstep]
    exact .inl rfl

/-- Sessions have different ids. -/
theorem nodup_of_reachable (h : (syncNetwork w).Reachable s) : (s.sessions.map (·.id)).Nodup := by
  refine h.invariant (P := fun s => (s.sessions.map (·.id)).Nodup) List.nodup_nil ?_
  intro s e t hstep hs
  rcases sessions_step hstep with hsame | hnodup
  · rw [hsame]
    exact hs
  · exact hnodup

end Ids

/-! ### What one copy makes -/

section Copy

variable (w) (s) (m : Node) (b : Board)

/-- The message that one session carries for the copy. -/
def messageOf (side : ClipboardSide) (x : Session Node) : SyncMessage Node :=
  { sender := m
    session := x.id
    side := side.other
    clipboards := forPeer (x.multiOn side.other)
      (createMultiClipboards w.compress (b.get (w.filesApart m) side false)) }

/-- The items of the message when it is read. -/
def arrival (side : ClipboardSide) (x : Session Node) : List ClipboardData :=
  fromMultiClipboards w.decompress (messageOf w m b side x).clipboards

variable [DecidableEq Node]

/-- The session carries the copy from one of its sides to the machine on the other. -/
structure Reaches (side : ClipboardSide) (x : Session Node) (n : Node) : Prop where
  mem : x ∈ s.sessions
  sends : x.sendsFrom m side = true
  accepts : x.acceptsOn side.other = true
  machine : x.machineOn side.other = n
  arrival_ne : arrival w m b side x ≠ []

/-- The clipboard of a machine shows the copy, as some session carried it. -/
def ShowsCopy (u : Network Node) (n : Node) : Prop :=
  ∃ side x, Reaches w s m b side x n ∧
    u.board n = ⟨arrival w m b side x ++
      [.special rustdeskClipboardOwnerFormat side.other.getOwnerData], false⟩

/-- The copy on its way through the network. -/
structure Spreading (u : Network Node) : Prop where
  sessions : u.sessions = s.sessions
  own : u.board m = b
  notices : ∀ n ∈ u.notices, n.1 = m ∨ (u.board n.1).Owned
  messages : ∀ msg ∈ u.messages, ∃ side, ∃ x ∈ s.sessions, x.sendsFrom m side = true ∧
    msg = messageOf w m b side x
  boards : ∀ n, n ≠ m → u.board n = s.board n ∨ ShowsCopy w s m b u n
  pending : ∀ side, (m, side) ∈ u.notices ∨ ∀ x n, Reaches w s m b side x n →
    messageOf w m b side x ∈ u.messages ∨ ShowsCopy w s m b u n

end Copy

variable {m : Node} {b : Board}

/-- A peer that reads several items gets of each what the codec carries. -/
theorem arrival_of_multi {side : ClipboardSide} {x : Session Node}
    (hmulti : x.multiOn side.other = true) :
    arrival w m b side x =
      (b.get (w.filesApart m) side false).filterMap (carried w.compress w.decompress) := by
  rw [arrival, messageOf, forPeer, if_pos hmulti, fromMultiClipboards_createMultiClipboards]

/-- What arrives was read from a clipboard with data. -/
theorem arrival_ne_nil {side : ClipboardSide} {x : Session Node} (h : arrival w m b side x ≠ []) :
    (b.get (w.filesApart m) side false).isEmpty = false := by
  rw [List.isEmpty_eq_false_iff]
  intro hnone
  refine h ?_
  rw [arrival, messageOf, hnone]
  unfold forPeer
  split_ifs <;> rfl

variable [DecidableEq Node]

/-- A board reaches other machines only. -/
theorem Reaches.ne {side : ClipboardSide} {x : Session Node} {n : Node}
    (h : Reaches w s m b side x n) : n ≠ m := by
  rw [← h.machine, ← Session.machineOn_of_sendsFrom h.sends]
  exact x.machineOn_other_ne side

/-- What is read of a clipboard without a mark makes the message of every session. -/
theorem messagesTo_eq (side : ClipboardSide) :
    s.messagesTo m side (createMultiClipboards w.compress (b.get (w.filesApart m) side false)) =
      (s.sessions.filter (·.sendsFrom m side)).map (messageOf w m b side) := rfl

/-- Another message stays when one is taken. -/
theorem mem_eraseIdx_of_ne {α : Type*} {l : List α} {i : ℕ} {a c : α} (hi : l[i]? = some c)
    (ha : a ∈ l) (hne : a ≠ c) : a ∈ l.eraseIdx i := by
  obtain ⟨hlt, rfl⟩ := List.getElem?_eq_some_iff.mp hi
  have hmem := (List.getElem_cons_eraseIdx_perm hlt).mem_iff.mpr ha
  exact (List.mem_cons.mp hmem).resolve_left hne

/-- The copy begins to spread. -/
theorem spreading_copy (hsettled : s.Settled) (hstep : step w s (.copy m b) = some t) :
    Spreading w s m b t := by
  dsimp only [step] at hstep
  split_ifs at hstep
  rw [← Option.some.inj hstep]
  have hnotices : ∀ n, n ∈ s.notices ++ s.noticesOf m ↔
      ∃ side, s.listens m side = true ∧ (m, side) = n := by
    intro n
    rw [hsettled.1, List.nil_append, noticesOf, List.mem_map]
    constructor
    · rintro ⟨side, hside, rfl⟩
      exact ⟨side, (List.mem_filter.mp hside).2, rfl⟩
    · rintro ⟨side, hlistens, rfl⟩
      exact ⟨side, List.mem_filter.mpr ⟨by cases side <;> simp, hlistens⟩, rfl⟩
  constructor
  · rfl
  · exact Function.update_self ..
  · intro n hn
    obtain ⟨side, -, rfl⟩ := (hnotices n).mp hn
    exact .inl rfl
  · intro msg hmsg
    change msg ∈ s.messages at hmsg
    rw [hsettled.2] at hmsg
    exact absurd hmsg (by simp)
  · exact fun n hne => .inl (Function.update_of_ne hne ..)
  · intro side
    by_cases hlistens : s.listens m side = true
    · exact .inl ((hnotices _).mpr ⟨side, hlistens, rfl⟩)
    · refine .inr fun x n hreaches => absurd ?_ hlistens
      exact List.any_eq_true.mpr
        ⟨x, hreaches.mem, Session.listensAt_of_sendsFrom hreaches.sends⟩

/-- A loop of the machine sends the copy; the others find a mark. -/
theorem Spreading.check (h : Spreading w s m b u) {i : ℕ} {n : Node × ClipboardSide}
    (hn : u.notices[i]? = some n) :
    Spreading w s m b
      (({ u with notices := u.notices.eraseIdx i } : Network Node).check w n.1 n.2 true) := by
  obtain ⟨at_, side⟩ := n
  have hfewer : ∀ n ∈ u.notices.eraseIdx i, n ∈ u.notices := fun n hn => List.mem_of_mem_eraseIdx hn
  have hkeep : ∀ side', (m, side') ∈ u.notices → (m, side') ≠ (at_, side) →
      (m, side') ∈ u.notices.eraseIdx i := fun side' hmem hne => mem_eraseIdx_of_ne hn hmem hne
  have hboards : ∀ v : Network Node, v.board = u.board → ∀ n, ShowsCopy w s m b u n →
      ShowsCopy w s m b v n := by
    rintro v hv n ⟨side, x, hreaches, hboard⟩
    exact ⟨side, x, hreaches, by rw [hv, hboard]⟩
  -- nothing is sent: the notice is not for the copy, or there is nothing to send
  have hquiet (hnone : ∀ x n, at_ = m → ¬ Reaches w s m b side x n) :
      Spreading w s m b ({ u with notices := u.notices.eraseIdx i } : Network Node) := by
    refine ⟨h.sessions, h.own, fun n hn => h.notices n (hfewer n hn), h.messages, h.boards, ?_⟩
    intro side'
    rcases h.pending side' with hnotice | hsent
    · by_cases heq : (m, side') = (at_, side)
      · obtain ⟨hat, rfl⟩ := Prod.mk.inj heq
        exact .inr fun x n hreaches => absurd hreaches (hnone x n hat.symm)
      · exact .inl (hkeep side' hnotice heq)
    · exact .inr hsent
  by_cases hat : at_ = m
  · subst hat
    have hread : b.get (w.filesApart at_) side false =
        (u.board at_).get (w.filesApart at_) side false := by
      rw [h.own]
    cases hempty : (b.get (w.filesApart at_) side false).isEmpty with
    | true =>
      have hcheck : ({ u with notices := u.notices.eraseIdx i } : Network Node).checkClipboard w
          at_ side true = none := by
        simp [checkClipboard, ← hread, hempty]
      rw [Network.check, hcheck]
      refine hquiet fun x n _ hreaches => ?_
      rw [arrival_ne_nil hreaches.arrival_ne] at hempty
      exact absurd hempty (by simp)
    | false =>
      have hcheck : ({ u with notices := u.notices.eraseIdx i } : Network Node).checkClipboard w
          at_ side true =
            some (createMultiClipboards w.compress (b.get (w.filesApart at_) side false)) := by
        simp [checkClipboard, ← hread, hempty]
      have hmessages : ({ u with notices := u.notices.eraseIdx i } : Network Node).messagesTo at_
          side (createMultiClipboards w.compress (b.get (w.filesApart at_) side false)) =
            (s.sessions.filter (·.sendsFrom at_ side)).map (messageOf w at_ b side) := by
        rw [messagesTo_eq]
        show (u.sessions.filter _).map _ = _
        rw [h.sessions]
      rw [Network.check, hcheck]
      dsimp only
      rw [hmessages]
      refine ⟨h.sessions, h.own, fun n hn => h.notices n (hfewer n hn), ?_, h.boards, ?_⟩
      · intro msg hmsg
        rcases List.mem_append.mp hmsg with hmsg | hmsg
        · exact h.messages msg hmsg
        · obtain ⟨x, hx, rfl⟩ := List.mem_map.mp hmsg
          obtain ⟨hmem, hsends⟩ := List.mem_filter.mp hx
          exact ⟨side, x, hmem, hsends, rfl⟩
      · intro side'
        by_cases hside : side' = side
        · subst hside
          refine .inr fun x n hreaches => .inl (List.mem_append_right _ ?_)
          exact List.mem_map.mpr ⟨x, List.mem_filter.mpr ⟨hreaches.mem, hreaches.sends⟩, rfl⟩
        · rcases h.pending side' with hnotice | hsent
          · exact .inl (hkeep side' hnotice fun heq => hside (Prod.mk.inj heq).2)
          · exact .inr fun x n hreaches =>
              (hsent x n hreaches).imp (fun hmsg => List.mem_append_left _ hmsg) (hboards _ rfl n)
  · have howned : (u.board at_).Owned :=
      (h.notices _ (List.mem_of_getElem? hn)).resolve_left hat
    have hcheck : ({ u with notices := u.notices.eraseIdx i } : Network Node).checkClipboard w
        at_ side true = none := by
      simp [checkClipboard, Board.get_of_owned howned]
    rw [Network.check, hcheck]
    exact hquiet fun x n heq => absurd heq hat

/-- A message of the copy arrives. -/
theorem Spreading.deliver (hnodup : (s.sessions.map (·.id)).Nodup) (h : Spreading w s m b u)
    {i : ℕ} {msg : SyncMessage Node} (hmsg : u.messages[i]? = some msg) :
    Spreading w s m b
      (({ u with messages := u.messages.eraseIdx i } : Network Node).update w msg true) := by
  obtain ⟨side, x, hx, hsends, rfl⟩ := h.messages msg (List.mem_of_getElem? hmsg)
  have hfewer : ∀ msg ∈ u.messages.eraseIdx i, msg ∈ u.messages :=
    fun msg hmsg => List.mem_of_mem_eraseIdx hmsg
  have hfind : ({ u with messages := u.messages.eraseIdx i } : Network Node).sessions.find?
      (·.id = (messageOf w m b side x).session) = some x := by
    show u.sessions.find? (·.id = x.id) = some x
    rw [h.sessions]
    exact find_session hnodup hx
  -- the other messages of the copy stay where they are
  have hrest (v : Network Node) (hv : v.messages = u.messages.eraseIdx i)
      (hshown : ∀ n, ShowsCopy w s m b u n → ShowsCopy w s m b v n)
      (hown : ∀ n, Reaches w s m b side x n → ShowsCopy w s m b v n) {side' : ClipboardSide}
      (hsent : ∀ y n, Reaches w s m b side' y n →
        messageOf w m b side' y ∈ u.messages ∨ ShowsCopy w s m b u n) :
      ∀ y n, Reaches w s m b side' y n →
        messageOf w m b side' y ∈ v.messages ∨ ShowsCopy w s m b v n := by
    intro y n hreaches
    rcases hsent y n hreaches with hmem | hshows
    · by_cases heq : messageOf w m b side' y = messageOf w m b side x
      · have hside : side' = side := by
          have hother : side'.other = side.other := congrArg SyncMessage.side heq
          rw [← side'.other_other, hother, side.other_other]
        have hsession : y = x :=
          List.inj_on_of_nodup_map hnodup hreaches.mem hx (congrArg SyncMessage.session heq)
        subst hside hsession
        exact .inr (hown n hreaches)
      · exact .inl (hv ▸ mem_eraseIdx_of_ne hmsg hmem heq)
    · exact .inr (hshown n hshows)
  -- the message is not taken
  have hdropped (hnone : ∀ n, ¬ Reaches w s m b side x n) :
      Spreading w s m b ({ u with messages := u.messages.eraseIdx i } : Network Node) :=
    { sessions := h.sessions
      own := h.own
      notices := h.notices
      messages := fun msg hmsg => h.messages msg (hfewer msg hmsg)
      boards := h.boards
      pending := fun side' => (h.pending side').imp_right fun hsent =>
        hrest { u with messages := u.messages.eraseIdx i } rfl (fun n hn => hn)
          (fun n hreaches => absurd hreaches (hnone n)) hsent }
  rw [update, hfind]
  dsimp only
  split_ifs with haccepts hempty hset
  · refine hdropped fun n hreaches => ?_
    rw [show (messageOf w m b side x).side = side.other from rfl, hreaches.accepts] at haccepts
    exact absurd haccepts (by simp)
  · exact hdropped fun n hreaches => hreaches.arrival_ne (List.isEmpty_iff.mp hempty)
  · exact absurd hset (by simp)
  · have hreaches : Reaches w s m b side x (x.machineOn side.other) :=
      ⟨hx, hsends, by simpa [messageOf] using haccepts, rfl, by simpa [arrival] using hempty⟩
    have hcarries : CarriesOnly w b (messageOf w m b side x).clipboards :=
      (carriesOnly_get b _ side false).of_subset (forPeer_subset _ _)
    have hboard : received w side.other (messageOf w m b side x).clipboards =
        ⟨arrival w m b side x ++
          [.special rustdeskClipboardOwnerFormat side.other.getOwnerData], false⟩ := rfl
    have hshows : ∀ v : Network Node, v.board = Function.update u.board (x.machineOn side.other)
        (received w side.other (messageOf w m b side x).clipboards) → ∀ n,
        ShowsCopy w s m b u n ∨ n = x.machineOn side.other → ShowsCopy w s m b v n := by
      intro v hv n hn
      by_cases hat : n = x.machineOn side.other
      · subst hat
        exact ⟨side, x, hreaches, by rw [hv, Function.update_self, hboard]⟩
      · obtain ⟨side', y, hy, hyboard⟩ := hn.resolve_right hat
        exact ⟨side', y, hy, by rw [hv, Function.update_of_ne hat, hyboard]⟩
    refine ⟨h.sessions, ?_, ?_, fun msg hmsg => h.messages msg (hfewer msg hmsg), ?_, ?_⟩
    · exact (Function.update_of_ne hreaches.ne.symm ..).trans h.own
    · intro n hn
      show n.1 = m ∨ (Function.update u.board _ _ n.1).Owned
      by_cases hat : n.1 = x.machineOn side.other
      · rw [show (messageOf w m b side x).side = side.other from rfl, hat, Function.update_self]
        exact .inr (hcarries.received_owned side.other)
      · rw [show (messageOf w m b side x).side = side.other from rfl, Function.update_of_ne hat]
        rcases List.mem_append.mp hn with hold | hnew
        · exact h.notices n hold
        · obtain ⟨side', -, rfl⟩ := List.mem_map.mp hnew
          exact absurd rfl hat
    · intro n hne
      by_cases hat : n = x.machineOn side.other
      · exact .inr (hshows _ rfl n (.inr hat))
      · rcases h.boards n hne with hold | hshown
        · exact .inl ((Function.update_of_ne hat ..).trans hold)
        · exact .inr (hshows _ rfl n (.inl hshown))
    · intro side'
      rcases h.pending side' with hnotice | hsent
      · exact .inl (List.mem_append_left _ hnotice)
      · refine .inr (hrest _ rfl (fun n hn => hshows _ rfl n (.inl hn)) ?_ hsent)
        exact fun n hn => hshows _ rfl n (.inr hn.machine.symm)

/-- A step in which nothing fails keeps the copy spreading. -/
theorem Spreading.step (hnodup : (s.sessions.map (·.id)).Nodup) (h : Spreading w s m b u)
    (he : e.Lossless) (hstep : Network.step w u e = some t) : Spreading w s m b t := by
  cases e with
  | check i readOk =>
    obtain rfl : readOk = true := he
    obtain ⟨n, hn, rfl⟩ := Option.map_eq_some_iff.mp hstep
    exact h.check hn
  | deliver i setOk =>
    obtain rfl : setOk = true := he
    obtain ⟨msg, hmsg, rfl⟩ := Option.map_eq_some_iff.mp hstep
    exact h.deliver hnodup hmsg
  | _ => exact absurd he (by simp [SyncEvent.Lossless])

/-- **A copy arrives.** A user copies in a network at rest. Whatever the order of the steps, when the
machines are at rest again and nothing has failed, every machine a session of the first one reaches
shows the copy as one of these sessions carried it, and every other clipboard is as it was. -/
theorem copy_arrives (h : (syncNetwork w).Reachable s) (hsettled : s.Settled) {s₁ : Network Node}
    (hcopy : step w s (.copy m b) = some s₁) {events : List (SyncEvent Node)}
    (hrun : (syncNetwork w).RunWhere (fun _ e => e.Lossless) s₁ events t) (hdone : t.Settled) :
    t.board m = b ∧ ∀ n, n ≠ m →
      ((∃ side x, Reaches w s m b side x n) → ShowsCopy w s m b t n) ∧
      ((∀ side x, ¬ Reaches w s m b side x n) → t.board n = s.board n) := by
  have hnodup := nodup_of_reachable h
  have hspread : Spreading w s m b t :=
    hrun.invariant (fun _ _ _ he hstep hu => hu.step hnodup he hstep)
      (spreading_copy hsettled hcopy)
  refine ⟨hspread.own, fun n hne => ⟨?_, fun hnone => ?_⟩⟩
  · rintro ⟨side, x, hreaches⟩
    rcases hspread.pending side with hnotice | hsent
    · rw [hdone.1] at hnotice
      exact absurd hnotice (by simp)
    · rcases hsent x n hreaches with hmsg | hshows
      · rw [hdone.2] at hmsg
        exact absurd hmsg (by simp)
      · exact hshows
  · rcases hspread.boards n hne with hold | ⟨side, x, hreaches, -⟩
    · exact hold
    · exact absurd hreaches (hnone side x)

/-- A text arrives as it was copied, at the one machine that is controlled. -/
theorem copy_arrives_hello :
    ((after [.configure [firstToSecond], .copy 0 hello, .check 0 true, .deliver 0 true,
        .check 0 true]).board 1).items =
      [.text "hello", .special rustdeskClipboardOwnerFormat [0b01].toByteArray] ∧
    (after [.configure [firstToSecond], .copy 0 hello, .check 0 true, .deliver 0 true,
        .check 0 true]).board 2 = .empty := by
  have hreach : (syncNetwork threeDesks).Reachable (after [.configure [firstToSecond]]) :=
    ⟨[.configure [firstToSecond]], Machine.run_of_replay rfl⟩
  have hcopy : step threeDesks (after [.configure [firstToSecond]]) (.copy 0 hello) =
      some (after [.configure [firstToSecond], .copy 0 hello]) := rfl
  have hrun : (syncNetwork threeDesks).RunWhere (fun _ e => e.Lossless)
      (after [.configure [firstToSecond], .copy 0 hello])
      [.check 0 true, .deliver 0 true, .check 0 true]
      (after [.configure [firstToSecond], .copy 0 hello, .check 0 true, .deliver 0 true,
        .check 0 true]) :=
    .cons rfl rfl (.cons rfl rfl (.cons rfl rfl (.nil _)))
  obtain ⟨-, hpeers⟩ := copy_arrives hreach ⟨rfl, rfl⟩ hcopy hrun ⟨rfl, rfl⟩
  have hitems : arrival threeDesks 0 hello .client firstToSecond = [.text "hello"] := rfl
  constructor
  · have hreaches : Reaches threeDesks (after [.configure [firstToSecond]]) 0 hello .client
        firstToSecond 1 :=
      ⟨List.mem_singleton_self _, rfl, rfl, rfl, by simp [hitems]⟩
    obtain ⟨side, x, hshown, hboard⟩ := (hpeers 1 (by decide)).1 ⟨_, _, hreaches⟩
    obtain rfl := List.mem_singleton.mp hshown.mem
    cases side with
    | host => exact absurd hshown.sends (by decide)
    | client =>
      rw [hboard, hitems]
      rfl
  · refine (hpeers 2 (by decide)).2 fun side x hreaches => ?_
    obtain rfl := List.mem_singleton.mp hreaches.mem
    cases side with
    | host => exact absurd hreaches.sends (by decide)
    | client => exact absurd hreaches.machine (by decide)

end Network

end RdWeb.MultiClip
