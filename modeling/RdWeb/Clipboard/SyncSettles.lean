import RdWeb.Clipboard.SyncRuns

/-!
# Every change dies down

The weight of a network bounds what is left to do in it: a message makes at most two notices, and a
notice of a marked clipboard makes no message.
-/

namespace RdWeb.MultiClip

variable {Node : Type*} {w : World Node}

/-- A step of the machines themselves: no user and no session begins anything. -/
def SyncEvent.Internal : SyncEvent Node → Prop
  | .check .. | .deliver .. | .loseNotice _ | .loseMessage _ => True
  | _ => False

namespace Network

variable {s t : Network Node} {e : SyncEvent Node}

/-- Nothing is left to do. -/
def Settled (s : Network Node) : Prop := s.notices = [] ∧ s.messages = []

/-! ### Sums over notices -/

/-- One notice is taken out of the sum. -/
theorem sum_eraseIdx (f : Node × ClipboardSide → ℕ) {notices : List (Node × ClipboardSide)} {i : ℕ}
    {n : Node × ClipboardSide} (hn : notices[i]? = some n) :
    (notices.map f).sum = f n + ((notices.eraseIdx i).map f).sum := by
  obtain ⟨hlt, rfl⟩ := List.getElem?_eq_some_iff.mp hn
  have hperm := (List.getElem_cons_eraseIdx_perm hlt).map f
  rw [← hperm.sum_eq, List.map_cons, List.sum_cons]

/-- A sum of lesser weights is at most as great. -/
theorem sum_map_le {f g : Node × ClipboardSide → ℕ} (hfg : ∀ n, f n ≤ g n)
    (notices : List (Node × ClipboardSide)) : (notices.map f).sum ≤ (notices.map g).sum := by
  induction notices with
  | nil => simp
  | cons n notices ih =>
    have hn := hfg n
    rw [List.map_cons, List.map_cons, List.sum_cons, List.sum_cons]
    omega

/-- Taking a message leaves one less. -/
theorem length_eraseIdx_messages {i : ℕ} {msg : SyncMessage Node}
    (hmsg : s.messages[i]? = some msg) : (s.messages.eraseIdx i).length + 1 = s.messages.length := by
  obtain ⟨hlt, -⟩ := List.getElem?_eq_some_iff.mp hmsg
  rw [List.length_eraseIdx_of_lt hlt]
  omega

/-! ### Weights -/

variable [DecidableEq Node]

/-- The peers that a side of a machine sends to. -/
def degree (s : Network Node) (n : Node × ClipboardSide) : ℕ :=
  (s.sessions.filter (·.sendsFrom n.1 n.2)).length

/-- A notice, and where the clipboard has no mark the messages that come of it. -/
def noticeWeight (s : Network Node) (n : Node × ClipboardSide) : ℕ :=
  if (s.board n.1).Owned then 1 else 1 + 3 * s.degree n

/-- The work that is left: the notices by their weight, and three for each message. -/
def weight (s : Network Node) : ℕ :=
  (s.notices.map s.noticeWeight).sum + 3 * s.messages.length

/-- Every notice weighs something. -/
theorem noticeWeight_pos (s : Network Node) (n : Node × ClipboardSide) : 0 < s.noticeWeight n := by
  unfold noticeWeight
  split_ifs <;> omega

/-- A change is noticed by two ends at most. -/
theorem length_noticesOf_le (s : Network Node) (m : Node) : (s.noticesOf m).length ≤ 2 := by
  rw [noticesOf, List.length_map]
  exact List.length_filter_le _ _

/-- A loop that sends makes no more messages than it has peers, and only for a clipboard without a
mark. -/
theorem length_check_le (s : Network Node) (m : Node) (side : ClipboardSide) (readOk : Bool) :
    3 * (s.check w m side readOk).messages.length + 1 ≤
      3 * s.messages.length + s.noticeWeight (m, side) := by
  have hpos := s.noticeWeight_pos (m, side)
  unfold check
  cases hcheck : s.checkClipboard w m side readOk with
  | none =>
    dsimp only
    omega
  | some clipboards =>
    have hunmarked : ¬ (s.board m).Owned := by
      intro howned
      simp [checkClipboard, Board.get_of_owned howned] at hcheck
    have hweight : s.noticeWeight (m, side) = 1 + 3 * s.degree (m, side) := if_neg hunmarked
    have hlength : (s.messagesTo m side clipboards).length = s.degree (m, side) := by
      rw [messagesTo, List.length_map, degree]
    dsimp only
    rw [List.length_append, hlength, hweight]
    omega

/-- A notice weighs no more when a mark comes to a clipboard. -/
theorem noticeWeight_setBoard_le {m : Node} {b : Board} (howned : b.Owned)
    (n : Node × ClipboardSide) : (s.setBoard m b).noticeWeight n ≤ s.noticeWeight n := by
  rcases eq_or_ne n.1 m with rfl | hne
  · have hone : (s.setBoard n.1 b).noticeWeight n = 1 := by
      refine if_pos ?_
      show (Function.update s.board n.1 b n.1).Owned
      rwa [Function.update_self]
    have hpos := s.noticeWeight_pos n
    omega
  · have hsame : (s.setBoard m b).board n.1 = s.board n.1 := Function.update_of_ne hne ..
    unfold noticeWeight
    rw [hsame]
    rfl

/-- What comes to a clipboard with a mark costs two notices at most. -/
theorem weight_setBoard_le {m : Node} {b : Board} (howned : b.Owned) :
    (s.setBoard m b).weight ≤ s.weight + 2 := by
  have hold := sum_map_le (noticeWeight_setBoard_le (s := s) (m := m) howned) s.notices
  have hone : ∀ n ∈ s.noticesOf m, (s.setBoard m b).noticeWeight n = 1 := by
    intro n hn
    obtain ⟨side, -, rfl⟩ := List.mem_map.mp hn
    refine if_pos ?_
    show (Function.update s.board m b m).Owned
    rwa [Function.update_self]
  have hnew : ((s.noticesOf m).map (s.setBoard m b).noticeWeight).sum =
      (s.noticesOf m).length := by
    rw [List.map_congr_left hone]
    simp
  have hfew := s.length_noticesOf_le m
  show ((s.notices ++ s.noticesOf m).map (s.setBoard m b).noticeWeight).sum +
    3 * s.messages.length ≤ (s.notices.map s.noticeWeight).sum + 3 * s.messages.length + 2
  rw [List.map_append, List.sum_append, hnew]
  omega

/-- **Every step of the machines takes weight off.** -/
theorem weight_lt (hclean : s.Clean w) (he : e.Internal) (hstep : step w s e = some t) :
    t.weight < s.weight := by
  cases e with
  | copy | configure | start => exact absurd he (by simp [SyncEvent.Internal])
  | check i readOk =>
    obtain ⟨⟨m, side⟩, hn, rfl⟩ := Option.map_eq_some_iff.mp hstep
    have hsum := sum_eraseIdx s.noticeWeight hn
    have hlength := length_check_le (w := w) { s with notices := s.notices.eraseIdx i } m side readOk
    have hsame : (check w { s with notices := s.notices.eraseIdx i } m side readOk).noticeWeight =
        s.noticeWeight := by
      funext n
      simp only [noticeWeight, degree, board_check, sessions_check]
    show ((check w { s with notices := s.notices.eraseIdx i } m side readOk).notices.map
        (check w { s with notices := s.notices.eraseIdx i } m side readOk).noticeWeight).sum + _ < _
    rw [hsame, notices_check]
    have hweight : noticeWeight { s with notices := s.notices.eraseIdx i } (m, side) =
        s.noticeWeight (m, side) := rfl
    dsimp only at hlength ⊢
    unfold weight
    omega
  | deliver i setOk =>
    obtain ⟨msg, hmsg, rfl⟩ := Option.map_eq_some_iff.mp hstep
    have hlength := length_eraseIdx_messages hmsg
    have hrest : ({ s with messages := s.messages.eraseIdx i } : Network Node).weight + 3 =
        s.weight := by
      show (s.notices.map s.noticeWeight).sum + 3 * (s.messages.eraseIdx i).length + 3 = s.weight
      unfold weight
      omega
    rcases update_cases (w := w) { s with messages := s.messages.eraseIdx i } msg setOk with
      hsame | ⟨x, -, -, -, -, hset⟩
    · rw [hsame]
      omega
    · obtain ⟨b, hcarries⟩ := hclean.messages msg (List.mem_of_getElem? hmsg)
      have hle := weight_setBoard_le (s := { s with messages := s.messages.eraseIdx i })
        (m := x.machineOn msg.side) (hcarries.received_owned msg.side)
      rw [hset]
      omega
  | loseNotice i =>
    dsimp only [Network.step] at hstep
    split_ifs at hstep with hlt
    rw [← Option.some.inj hstep]
    have hsum := sum_eraseIdx s.noticeWeight (List.getElem?_eq_getElem hlt)
    have hpos := s.noticeWeight_pos s.notices[i]
    show ((s.notices.eraseIdx i).map s.noticeWeight).sum + 3 * s.messages.length < s.weight
    unfold weight
    omega
  | loseMessage i =>
    dsimp only [Network.step] at hstep
    split_ifs at hstep with hlt
    rw [← Option.some.inj hstep]
    have hlength := length_eraseIdx_messages (List.getElem?_eq_getElem hlt)
    show (s.notices.map s.noticeWeight).sum + 3 * (s.messages.eraseIdx i).length < s.weight
    unfold weight
    omega

/-- What is left to do can be done. -/
theorem exists_step_of_not_settled (hleft : ¬ s.Settled) :
    ∃ e t, e.Internal ∧ step w s e = some t := by
  by_cases hnotices : s.notices = []
  · obtain ⟨msg, messages, hmessages⟩ :=
      List.exists_cons_of_ne_nil fun hnone => hleft ⟨hnotices, hnone⟩
    refine ⟨.deliver 0 true, update w { s with messages := s.messages.eraseIdx 0 } msg true,
      trivial, ?_⟩
    rw [step, hmessages]
    rfl
  · obtain ⟨n, notices, hcons⟩ := List.exists_cons_of_ne_nil hnotices
    refine ⟨.check 0 true, check w { s with notices := s.notices.eraseIdx 0 } n.1 n.2 true,
      trivial, ?_⟩
    rw [step, hcons]
    rfl

/-- A machine is on one side of a session only. -/
theorem degree_add_degree_le (s : Network Node) (m : Node) :
    s.degree (m, .host) + s.degree (m, .client) ≤ s.sessions.length := by
  simp only [degree]
  induction s.sessions with
  | nil => simp
  | cons x sessions ih =>
    have hne := x.controller_ne_controlled
    rw [List.filter_cons, List.filter_cons, List.length_cons]
    split_ifs with hhost hclient hclient
    · have hcontrolled : x.controlled = m := by
        simp only [Session.sendsFrom, Bool.and_eq_true, beq_iff_eq] at hhost
        exact hhost.1
      have hcontroller : x.controller = m := by
        simp only [Session.sendsFrom, Bool.and_eq_true, beq_iff_eq] at hclient
        exact hclient.1
      exact absurd (hcontroller.trans hcontrolled.symm) hne
    · rw [List.length_cons]
      omega
    · rw [List.length_cons]
      omega
    · omega

/-- What one copy costs in a settled network. -/
theorem weight_copy_le (hsettled : s.Settled) {m : Node} {b : Board}
    (hstep : step w s (.copy m b) = some t) : t.weight ≤ 2 + 3 * s.sessions.length := by
  dsimp only [step] at hstep
  split_ifs at hstep
  rw [← Option.some.inj hstep]
  have hdegrees := s.degree_add_degree_le m
  have hle : ∀ side, (s.setBoard m b).noticeWeight (m, side) ≤ 1 + 3 * s.degree (m, side) := by
    intro side
    unfold noticeWeight
    split_ifs
    · omega
    · exact le_refl _
  have hhost := hle .host
  have hclient := hle .client
  have hnotices : ((s.noticesOf m).map (s.setBoard m b).noticeWeight).sum ≤
      (s.setBoard m b).noticeWeight (m, .host) + (s.setBoard m b).noticeWeight (m, .client) := by
    unfold noticesOf
    rw [List.filter_cons, List.filter_singleton]
    cases s.listens m .host <;> cases s.listens m .client <;> simp
  show ((s.notices ++ s.noticesOf m).map (s.setBoard m b).noticeWeight).sum +
    3 * s.messages.length ≤ _
  rw [hsettled.1, hsettled.2, List.nil_append, List.length_nil]
  omega

/-- **There is no echo.** From every state the machines come to rest, after no more steps than the
weight, whatever the order of the steps; and one copy in a settled network costs two steps and three
for each session. -/
theorem settles (h : (syncNetwork w).Reachable s) :
    (∀ events t, (syncNetwork w).RunWhere (fun _ e => e.Internal) s events t →
      events.length + t.weight ≤ s.weight) ∧
    (∃ events t, (syncNetwork w).RunWhere (fun _ e => e.Internal) s events t ∧ t.Settled) ∧
    ∀ m b t events u, s.Settled → step w s (.copy m b) = some t →
      (syncNetwork w).RunWhere (fun _ e => e.Internal) t events u →
      events.length ≤ 2 + 3 * s.sessions.length := by
  have hclean := clean_of_reachable h
  have hinv : ∀ (s : Network Node) e t, e.Internal → (syncNetwork w).step s e = some t →
      s.Clean w → t.Clean w := fun s e t _ hstep hs => hs.step hstep
  have hdown : ∀ (s : Network Node) e t, e.Internal → (syncNetwork w).step s e = some t →
      s.Clean w → t.weight < s.weight := fun s e t he hstep hs => weight_lt hs he hstep
  refine ⟨fun events t hrun => hrun.length_add_le hinv hdown hclean, ?_, ?_⟩
  · exact Machine.exists_run_done hinv hdown
      (fun s _ hleft => exists_step_of_not_settled hleft) hclean
  · intro m b t events u hsettled hcopy hrun
    have hbound := hrun.length_add_le hinv hdown (hclean.step hcopy)
    have hcost := weight_copy_le hsettled hcopy
    omega

/-- A copy with one session comes to rest, after five steps at most. -/
theorem settles_hello : ∃ events t, (syncNetwork threeDesks).RunWhere (fun _ e => e.Internal)
    (after [.configure [firstToSecond], .copy 0 hello]) events t ∧ t.Settled ∧
      events.length ≤ 5 := by
  have hsettled : (syncNetwork threeDesks).Reachable (after [.configure [firstToSecond]]) :=
    ⟨[.configure [firstToSecond]], Machine.run_of_replay rfl⟩
  have hcopied : (syncNetwork threeDesks).Reachable
      (after [.configure [firstToSecond], .copy 0 hello]) :=
    ⟨[.configure [firstToSecond], .copy 0 hello], Machine.run_of_replay rfl⟩
  obtain ⟨events, t, hrun, hrest⟩ := (settles hcopied).2.1
  have hbound := (settles hsettled).2.2 0 hello _ events t ⟨rfl, rfl⟩ rfl hrun
  exact ⟨events, t, hrun, hrest, hbound⟩

end Network

end RdWeb.MultiClip
