import RdWeb.Web.ConnectionAwaits

/-!
# A connection that is closed on purpose

Closing takes the socket in `_ws` alone, and what awaits a message of it is rejected with what
`_status` is when its timer runs: with an empty text, which no box shows, unless the close event
comes first.
-/

namespace RdWeb.Web

namespace RdLifecycle

/-- After a deliberate close no socket from before it makes the connection show an error, and
after a restart it makes it show nothing. -/
def Silent (s : RdLifecycle) : Prop :=
  ∀ x ∈ s.shown, x.origin = x.generation ∨ ¬ x.item.IsError ∧ x.restarted = false

end RdLifecycle

/-- The loop shows no error for the message. -/
def Incoming.Quiet : Incoming → Prop
  | .host ⟨.loginResponse error displays, failure⟩ =>
    failure.getD "" = "" ∧ error = "" ∧ displays ≠ some 0
  | .host ⟨.closeReason reason, failure⟩ => failure.getD "" = "" ∧ reason = ""
  | .host ⟨_, failure⟩ => failure.getD "" = ""
  | _ => True

/-- Whether a message is quiet is decided by its kind and its texts. -/
instance (m : Incoming) : Decidable m.Quiet :=
  match m with
  | .host ⟨.loginResponse _ _, _⟩ => inferInstanceAs (Decidable (_ ∧ _ ∧ _))
  | .host ⟨.closeReason _, _⟩ => inferInstanceAs (Decidable (_ ∧ _))
  | .host ⟨.hash, _⟩ | .host ⟨.compressed, _⟩ | .host ⟨.signedId, _⟩ | .host ⟨.shown, _⟩ =>
    inferInstanceAs (Decidable (_ = _))
  | .failed _ | .relay _ | .noAnswer => inferInstanceAs (Decidable True)

/-- The message loop has been entered. -/
def Place.InLoop : Place → Prop
  | .waiting _ | .handling .. => True
  | _ => False

/-- Whether a task is in its loop is decided by its place. -/
instance (place : Place) : Decidable place.InLoop :=
  match place with
  | .waiting _ | .handling .. => inferInstanceAs (Decidable True)
  | .ended | .opening _ | .punching _ | .openingRelay .. | .verifyingKey _ | .handshaking _
  | .verifyingId _ => inferInstanceAs (Decidable False)

namespace RdLifecycle

/-- What a socket has left to read shows no error, and nothing at all where it may not. -/
def LeavesQuiet (s : RdLifecycle) (restarting : Bool) (w : ℕ) : Prop :=
  (∀ m ∈ (s.sockets w).buf, m.Quiet) ∧ (restarting = true → (s.sockets w).buf = [])

/-- A call of `start` that a deliberate close silences: it is over, or its loop waits for the
socket that is closed, or for one that was closed before. -/
def Leaves (s : RdLifecycle) (restarting : Bool) : Place → Prop
  | .ended => True
  | .waiting w =>
    (s.ws = some w ∨ (s.sockets w).generation ≠ s.generation) ∧
      (restarting = true → (s.sockets w).buf = []) ∧ ∀ v ∈ s.ws, s.LeavesQuiet restarting v
  | .handling _ failure =>
    restarting = false ∧ failure.getD "" = "" ∧ ∀ v ∈ s.ws, s.LeavesQuiet restarting v
  | _ => False

/-- Whether a socket is left quiet is decided by its buffer and its state. -/
instance (s : RdLifecycle) (restarting : Bool) (w : ℕ) : Decidable (s.LeavesQuiet restarting w) :=
  inferInstanceAs (Decidable (_ ∧ _))

/-- Whether a place is left quiet is decided by its socket. -/
instance (s : RdLifecycle) (restarting : Bool) (place : Place) :
    Decidable (s.Leaves restarting place) :=
  match place with
  | .ended => inferInstanceAs (Decidable True)
  | .waiting _ => inferInstanceAs (Decidable (_ ∧ _ ∧ _))
  | .handling .. => inferInstanceAs (Decidable (_ ∧ _ ∧ _))
  | .opening _ | .punching _ | .openingRelay .. | .verifyingKey _ | .handshaking _
  | .verifyingId _ => inferInstanceAs (Decidable False)

/-- The connection is closed where every call of `start` is silenced by that, and the close event
of a socket that was closed on purpose comes when no loop reads it any more. -/
def Careful (s : RdLifecycle) : LifecycleEvent → Prop
  | .close => ∀ place ∈ s.tasks, s.Leaves false place
  | .restart => ∀ place ∈ s.tasks, s.Leaves true place
  | .closed w => (s.sockets w).generation ≠ s.generation →
      ∀ place ∈ s.tasks, place.InLoop → place ≠ .waiting w ∧ s.ws ≠ some w
  | _ => True

/-- Whether an event is careful is decided by the places of the tasks. -/
instance (s : RdLifecycle) (e : LifecycleEvent) : Decidable (s.Careful e) :=
  match e with
  | .close => inferInstanceAs (Decidable (∀ place ∈ s.tasks, s.Leaves false place))
  | .restart => inferInstanceAs (Decidable (∀ place ∈ s.tasks, s.Leaves true place))
  | .closed w => inferInstanceAs (Decidable ((s.sockets w).generation ≠ s.generation →
      ∀ place ∈ s.tasks, place.InLoop → place ≠ .waiting w ∧ s.ws ≠ some w))
  | .start _ | .refresh | .opened _ | .errored _ | .openTimeout _ | .received .. | .poll _
  | .timedOut _ | .keyVerified .. | .idVerified .. | .decompressed .. =>
    inferInstanceAs (Decidable True)

/-! ## What is kept -/

/-- A socket of an earlier start, from which nothing comes but what may still be shown. -/
structure Silenced (s : RdLifecycle) (w : ℕ) : Prop where
  status : (s.sockets w).status = .empty
  state : (s.sockets w).state ≠ .CONNECTING
  receives : (s.sockets w).receives = false
  quiet : s.LeavesQuiet s.restarted w

/-- A socket that a loop may read. -/
def Allowed (s : RdLifecycle) (w : ℕ) : Prop :=
  (s.sockets w).generation = s.generation ∨ s.Silenced w

/-- A call of `start` that shows nothing it should not. -/
def Fine (s : RdLifecycle) : Place → Prop
  | .ended => True
  | .waiting w => s.Allowed w
  | .handling w failure => (s.sockets w).generation = s.generation ∨
      s.restarted = false ∧ failure.getD "" = ""
  | .opening w | .punching w | .openingRelay w _ | .verifyingKey w | .handshaking w
  | .verifyingId w => (s.sockets w).generation = s.generation

/-- Nothing was shown that should not be, and nothing will be. -/
structure Kept (s : RdLifecycle) : Prop where
  silent : s.Silent
  tasks : ∀ place ∈ s.tasks, s.Fine place
  ws : (∃ place ∈ s.tasks, place.InLoop) → ∀ w ∈ s.ws, s.Allowed w

/-- The sockets and the history of closing are the same. -/
structure Carries (s t : RdLifecycle) : Prop where
  sockets : t.sockets = s.sockets
  ws : t.ws = s.ws
  generation : t.generation = s.generation
  restarted : t.restarted = s.restarted

variable {s t : RdLifecycle} {i w v : ℕ} {place : Place} {m : Incoming}

/-- Doing nothing carries over. -/
theorem Carries.refl (s : RdLifecycle) : s.Carries s := ⟨rfl, rfl, rfl, rfl⟩

/-- Carrying over twice is carrying over. -/
theorem Carries.trans {u : RdLifecycle} (hst : s.Carries t) (htu : t.Carries u) : s.Carries u :=
  ⟨htu.sockets.trans hst.sockets, htu.ws.trans hst.ws, htu.generation.trans hst.generation,
    htu.restarted.trans hst.restarted⟩

/-- A place stays fine where its socket does. -/
theorem Fine.imp (h : s.Fine place)
    (hgeneration : ∀ v, (s.sockets v).generation = s.generation →
      (t.sockets v).generation = t.generation)
    (hallowed : ∀ v, place = .waiting v → s.Allowed v → t.Allowed v)
    (hrestarted : t.restarted = s.restarted) : t.Fine place := by
  cases place with
  | ended => trivial
  | waiting v => exact hallowed v rfl h
  | handling v failure =>
    refine Or.imp (hgeneration v) (fun hquiet => ?_) h
    exact ⟨hrestarted.trans hquiet.1, hquiet.2⟩
  | opening v => exact hgeneration v h
  | punching v => exact hgeneration v h
  | openingRelay v signed => exact hgeneration v h
  | verifyingKey v => exact hgeneration v h
  | handshaking v => exact hgeneration v h
  | verifyingId v => exact hgeneration v h

/-- What a loop may read depends on the sockets and the history of closing. -/
theorem allowed_congr (hsockets : t.sockets = s.sockets) (hgeneration : t.generation = s.generation)
    (hrestarted : t.restarted = s.restarted) : t.Allowed w ↔ s.Allowed w := by
  have hsilenced : t.Silenced w ↔ s.Silenced w := by
    constructor
    · rintro ⟨hstatus, hstate, hreceives, hquiet⟩
      rw [LeavesQuiet, hrestarted] at hquiet
      rw [hsockets] at hstatus hstate hreceives hquiet
      exact ⟨hstatus, hstate, hreceives, hquiet⟩
    · rintro ⟨hstatus, hstate, hreceives, hquiet⟩
      rw [← hsockets] at hstatus hstate hreceives
      rw [LeavesQuiet, ← hsockets, ← hrestarted] at hquiet
      exact ⟨hstatus, hstate, hreceives, hquiet⟩
  rw [Allowed, Allowed, hsilenced, hsockets, hgeneration]

/-- Whether a place is fine depends on the sockets and on two counters. -/
theorem fine_congr (hsockets : t.sockets = s.sockets) (hgeneration : t.generation = s.generation)
    (hrestarted : t.restarted = s.restarted) : t.Fine place ↔ s.Fine place := by
  cases place <;> simp only [Fine, allowed_congr hsockets hgeneration hrestarted, hsockets,
    hgeneration, hrestarted]

/-- What is carried over stays allowed. -/
theorem Carries.allowed (h : s.Carries t) : t.Allowed w ↔ s.Allowed w :=
  allowed_congr h.sockets h.generation h.restarted

/-- What is carried over stays fine. -/
theorem Carries.fine (h : s.Carries t) : t.Fine place ↔ s.Fine place :=
  fine_congr h.sockets h.generation h.restarted

/-- Only what is shown changes. -/
theorem Kept.carry (h : s.Kept) (hcarries : s.Carries t) (htasks : t.tasks = s.tasks)
    (hsilent : t.Silent) : t.Kept := by
  refine ⟨hsilent, fun place hmem => ?_, fun hloop w hw => ?_⟩
  · rw [hcarries.fine]
    exact h.tasks place (htasks ▸ hmem)
  · rw [htasks] at hloop
    rw [hcarries.ws] at hw
    rw [hcarries.allowed]
    exact h.ws hloop w hw

/-- What a socket of the last start makes the connection show, and harmless boxes. -/
theorem Kept.present (h : s.Kept) {item : ShownItem} (hitem :
    (s.sockets w).generation = s.generation ∨ ¬ item.IsError ∧ s.restarted = false) :
    (s.present w item).Kept := by
  refine h.carry ⟨rfl, rfl, rfl, rfl⟩ rfl fun x hmem => ?_
  rcases List.mem_append.mp hmem with hold | hnew
  · exact h.silent x hold
  · obtain rfl := List.mem_singleton.mp hnew
    exact hitem

/-- A message box changes no task. -/
theorem msgbox_carries (s : RdLifecycle) (w : ℕ) (type title text : String) :
    s.Carries (s.msgbox w type title text) ∧ (s.msgbox w type title text).tasks = s.tasks := by
  unfold msgbox
  split_ifs <;> exact ⟨⟨rfl, rfl, rfl, rfl⟩, rfl⟩

/-- A message box may be shown if it belongs to the current connection or is no error. -/
theorem Kept.msgbox (h : s.Kept) {type title text : String} (hbox :
    (s.sockets w).generation = s.generation ∨ type = "error" ∧ text = "" ∨
      ¬ (ShownItem.box type title text).IsError ∧ s.restarted = false) :
    (s.msgbox w type title text).Kept := by
  unfold RdLifecycle.msgbox
  split_ifs with hempty
  · exact h
  · refine h.present ?_
    rcases hbox with hlast | hnone | hharmless
    · exact .inl hlast
    · exact absurd hnone hempty
    · exact .inr hharmless

/-- A task may go on to a place that is fine. -/
theorem Kept.setTask (h : s.Kept) (i : ℕ) (hfine : s.Fine place)
    (hws : place.InLoop → ∀ w ∈ s.ws, s.Allowed w) : (s.setTask i place).Kept := by
  have hcarries : s.Carries (s.setTask i place) := ⟨rfl, rfl, rfl, rfl⟩
  refine ⟨h.silent, fun p hmem => ?_, ?_⟩
  · rw [hcarries.fine]
    rcases List.mem_or_eq_of_mem_set hmem with hold | rfl
    · exact h.tasks p hold
    · exact hfine
  · rintro ⟨p, hmem, hloop⟩ w hw
    rw [hcarries.allowed]
    rcases List.mem_or_eq_of_mem_set hmem with hold | rfl
    · exact h.ws ⟨p, hold, hloop⟩ w hw
    · exact hws hloop w hw

/-- A task may end. -/
theorem Kept.end (h : s.Kept) (i : ℕ) : (s.setTask i .ended).Kept :=
  h.setTask i trivial fun hloop => hloop.elim

/-- A start may fail on the current connection. -/
theorem Kept.failStart (h : s.Kept) (i : ℕ) (hw : (s.sockets w).generation = s.generation)
    (e : Reason) : (s.failStart i w e).Kept := (h.msgbox (.inl hw)).end i

/-- A loop may fail on the current connection, or without a text. -/
theorem Kept.failLoop (h : s.Kept) (i : ℕ) {e : Reason}
    (hw : (s.sockets w).generation = s.generation ∨ e.toText = "") : (s.failLoop i w e).Kept :=
  (h.msgbox (hw.imp_right fun htext => .inl ⟨rfl, htext⟩)).end i

/-! ## The message loop -/

/-- What the handling of a message leaves: the connection is as it should be, and a loop that goes
on finds the same sockets. -/
structure Handled (s : RdLifecycle) (r : RdLifecycle × Bool) : Prop where
  kept : r.1.Kept
  carries : r.2 = true → s.Carries r.1

/-- A message that was handled leaves the page kept, whatever came of it. -/
theorem Kept.afterHandling (h : t.Kept) (hcarries : s.Carries t) {failure : Option String}
    (hm : (s.sockets w).generation = s.generation ∨ failure.getD "" = "") :
    s.Handled (t.afterHandling i w failure) := by
  cases failure with
  | none => exact ⟨h, fun _ => hcarries⟩
  | some text =>
    refine ⟨h.failLoop i ?_, fun hfalse => by cases hfalse⟩
    rw [hcarries.sockets, hcarries.generation]
    exact hm

/-- The question for the password keeps the page, if the message is quiet. -/
theorem Kept.handleHash (h : s.Kept)
    (hm : (s.sockets w).generation = s.generation ∨ s.restarted = false) :
    (s.handleHash w).Kept ∧ s.Carries (s.handleHash w) := by
  have hharmless {type title text : String}
      (hconnecting : type ≠ "error" ∧ type ≠ "re-input-password") :
      (s.sockets w).generation = s.generation ∨ type = "error" ∧ text = "" ∨
        ¬ (ShownItem.box type title text).IsError ∧ s.restarted = false :=
    hm.imp_right fun hnot => .inr ⟨not_or.mpr hconnecting, hnot⟩
  unfold RdLifecycle.handleHash
  split_ifs
  · have hknown : ({ s with password := true } : RdLifecycle).Kept :=
      h.carry ⟨rfl, rfl, rfl, rfl⟩ rfl h.silent
    obtain ⟨hcarries, -⟩ := msgbox_carries { s with password := true } w "connecting"
      "Connecting..." "Logging in..."
    exact ⟨hknown.msgbox (hharmless (by decide)),
      ⟨hcarries.sockets, hcarries.ws, hcarries.generation, hcarries.restarted⟩⟩
  · exact ⟨h, .refl s⟩
  · exact ⟨h.msgbox (hharmless (by decide)), (msgbox_carries s w _ _ _).1⟩

/-- The answer to a login keeps the page, if the message is quiet. -/
theorem Kept.handleLoginResponse (h : s.Kept) (error : String) (displays : Option ℕ)
    (hm : (s.sockets w).generation = s.generation ∨
      (error = "" ∧ displays ≠ some 0) ∧ s.restarted = false) :
    (s.handleLoginResponse w error displays).Kept ∧
      s.Carries (s.handleLoginResponse w error displays) := by
  have hlast (herror : error ≠ "") : (s.sockets w).generation = s.generation :=
    hm.resolve_right fun hquiet => herror hquiet.1.1
  unfold RdLifecycle.handleLoginResponse
  split_ifs with hwrong herror
  · have hforgot : ({ s with password := false } : RdLifecycle).Kept :=
      h.carry ⟨rfl, rfl, rfl, rfl⟩ rfl h.silent
    have hne : error ≠ "" := by
      rw [hwrong]
      decide
    obtain ⟨hcarries, -⟩ := msgbox_carries { s with password := false } w "re-input-password"
      error "Do you want to enter again?"
    exact ⟨hforgot.msgbox (.inl (hlast hne)),
      ⟨hcarries.sockets, hcarries.ws, hcarries.generation, hcarries.restarted⟩⟩
  · exact ⟨h.msgbox (.inl (hlast herror)), (msgbox_carries s w _ _ _).1⟩
  · split
    · exact ⟨h, .refl s⟩
    · refine ⟨h.msgbox (.inl (hm.resolve_right fun hquiet => hquiet.1.2 rfl)),
        (msgbox_carries s w _ _ _).1⟩
    · obtain ⟨hcarries, -⟩ := msgbox_carries s w "success" "Successful"
        "Connected, waiting for image..."
      have hboxed : (s.msgbox w "success" "Successful" "Connected, waiting for image...").Kept :=
        h.msgbox (hm.imp_right fun hquiet => .inr ⟨not_or.mpr (by decide), hquiet.2⟩)
      refine ⟨hboxed.present ?_, hcarries.trans ⟨rfl, rfl, rfl, rfl⟩⟩
      rw [hcarries.sockets, hcarries.generation, hcarries.restarted]
      exact hm.imp_right fun hquiet => ⟨fun hbox => hbox, hquiet.2⟩

/-- A change of one socket that keeps its start. -/
def KeepsStart (s : RdLifecycle) (w : ℕ) (f : RdSocket → RdSocket) : Prop :=
  (f (s.sockets w)).generation = (s.sockets w).generation

/-- A change of a socket keeps its generation. -/
theorem KeepsStart.generation_eq {f : RdSocket → RdSocket} (hf : s.KeepsStart w f) (v : ℕ) :
    ((s.updateSocket w f).sockets v).generation = (s.sockets v).generation := by
  simp only [RdLifecycle.updateSocket]
  split_ifs with hv
  · rw [hv, hf]
  · rfl

/-- The other sockets are left as they are. -/
theorem allowed_updateSocket (f : RdSocket → RdSocket) (hvw : v ≠ w) (hv : s.Allowed v) :
    (s.updateSocket w f).Allowed v := by
  have hother : (s.updateSocket w f).sockets v = s.sockets v := if_neg hvw
  refine hv.imp (fun hlast => by rw [hother]; exact hlast) fun hsilenced => ⟨?_, ?_, ?_, ?_⟩
  · rw [hother]
    exact hsilenced.status
  · rw [hother]
    exact hsilenced.state
  · rw [hother]
    exact hsilenced.receives
  · rw [LeavesQuiet, hother]
    exact hsilenced.quiet

/-- A socket that is changed is one that a loop may still read, if one reads it. -/
theorem Kept.updateSocket (h : s.Kept) {f : RdSocket → RdSocket} (hf : s.KeepsStart w f)
    (hallowed : ∀ place ∈ s.tasks, place.InLoop → place = .waiting w ∨ s.ws = some w →
      s.Allowed w → (s.updateSocket w f).Allowed w) : (s.updateSocket w f).Kept := by
  have hread {v : ℕ} {place : Place} (hmem : place ∈ s.tasks) (hloop : place.InLoop)
      (hreads : place = .waiting v ∨ s.ws = some v) (hv : s.Allowed v) :
      (s.updateSocket w f).Allowed v := by
    by_cases hvw : v = w
    · subst hvw
      exact hallowed place hmem hloop hreads hv
    · exact allowed_updateSocket f hvw hv
  refine ⟨h.silent, fun place hmem => ?_, ?_⟩
  · refine (h.tasks place hmem).imp (fun v => (hf.generation_eq v).trans) (fun v hv => ?_) rfl
    subst hv
    exact hread hmem trivial (.inl rfl)
  · rintro ⟨place, hmem, hloop⟩ v hv
    exact hread hmem hloop (.inr hv) (h.ws ⟨place, hmem, hloop⟩ v hv)

/-- The socket that was changed. -/
theorem updateSocket_self (s : RdLifecycle) (w : ℕ) (f : RdSocket → RdSocket) :
    (s.updateSocket w f).sockets w = f (s.sockets w) := if_pos rfl

/-- Closing silences a socket of an earlier start. -/
theorem silenced_closeSocket (hquiet : s.LeavesQuiet s.restarted w) :
    (s.closeSocket w).Silenced w := by
  unfold RdLifecycle.closeSocket
  refine ⟨?_, ?_, ?_, ?_⟩
  · rw [updateSocket_self]
  · rw [updateSocket_self]
    dsimp only
    split_ifs <;> decide
  · rw [updateSocket_self]
  · rw [LeavesQuiet, updateSocket_self]
    exact hquiet

/-- Closing a socket keeps the page. -/
theorem Kept.closeSocket (h : s.Kept) (w : ℕ) : (s.closeSocket w).Kept := by
  have hstart : s.KeepsStart w fun socket =>
      { socket with
        status := .empty
        state := if socket.state = .CLOSED then .CLOSED else .CLOSING
        receives := false } := rfl
  exact h.updateSocket hstart fun _ _ _ _ hw =>
    hw.imp (hstart.generation_eq w).trans fun hsilenced => silenced_closeSocket hsilenced.quiet

/-- Closing the connection keeps the page. -/
theorem Kept.baseClose (h : s.Kept) : s.baseClose.Kept := by
  unfold RdLifecycle.baseClose
  split
  · exact h.closeSocket _
  · exact h

/-- Taking a message keeps the generations. -/
theorem generation_pop (s : RdLifecycle) (w v : ℕ) :
    ((s.pop w).sockets v).generation = (s.sockets v).generation := by
  have hstart : s.KeepsStart w fun socket => { socket with buf := socket.buf.tail } := rfl
  exact hstart.generation_eq v

/-- Taking a message keeps a socket allowed. -/
theorem allowed_pop (hv : s.Allowed v) : (s.pop w).Allowed v := by
  by_cases hvw : v = w
  · subst hvw
    refine hv.imp (generation_pop s v v).trans fun hsilenced => ?_
    obtain ⟨hquiet, hempty⟩ := hsilenced.quiet
    unfold RdLifecycle.pop
    refine ⟨?_, ?_, ?_, ?_⟩
    · rw [updateSocket_self]
      exact hsilenced.status
    · rw [updateSocket_self]
      exact hsilenced.state
    · rw [updateSocket_self]
      exact hsilenced.receives
    · rw [LeavesQuiet, updateSocket_self]
      refine ⟨fun m hmem => hquiet m (List.mem_of_mem_tail hmem), fun hrestarted => ?_⟩
      dsimp only
      rw [hempty hrestarted, List.tail_nil]
  · exact allowed_updateSocket _ hvw hv

/-- Taking a message keeps the page. -/
theorem Kept.pop (h : s.Kept) (w : ℕ) : (s.pop w).Kept :=
  h.updateSocket rfl fun _ _ _ _ => allowed_pop

/-- The branches of the loop. -/
theorem Kept.handle (h : s.Kept) (hws : ∀ v ∈ s.ws, s.Allowed v)
    (hm : (s.sockets w).generation = s.generation ∨ m.Quiet ∧ s.restarted = false) :
    s.Handled (s.handle i w m) := by
  have hnone : s.Handled (s, true) := ⟨h, fun _ => .refl s⟩
  cases m with
  | failed text => exact hnone
  | relay signed => exact hnone
  | noAnswer => exact hnone
  | host m =>
    obtain ⟨kind, failure⟩ := m
    cases kind with
    | hash =>
      obtain ⟨hkept, hcarries⟩ := h.handleHash (hm.imp_right And.right)
      exact hkept.afterHandling hcarries (hm.imp_right And.left)
    | loginResponse error displays =>
      obtain ⟨hkept, hcarries⟩ := h.handleLoginResponse error displays
        (hm.imp_right fun hquiet => ⟨hquiet.1.2, hquiet.2⟩)
      exact hkept.afterHandling hcarries (hm.imp_right fun hquiet => hquiet.1.1)
    | closeReason reason =>
      simp only [RdLifecycle.handle]
      split_ifs with hreason
      · have hlast := hm.resolve_right fun hquiet => hreason hquiet.1.2
        exact ⟨(h.msgbox (.inl hlast)).baseClose.end i, fun hfalse => by cases hfalse⟩
      · exact h.afterHandling (.refl s) (hm.imp_right fun hquiet => hquiet.1.1)
    | compressed =>
      refine ⟨h.setTask i ?_ fun _ => hws, fun hfalse => by cases hfalse⟩
      exact hm.imp_right fun hquiet => ⟨hquiet.2, hquiet.1⟩
    | signedId => exact h.afterHandling (.refl s) (hm.imp_right And.left)
    | shown =>
      have hshown : (s.present w .event).Kept :=
        h.present (hm.imp_right fun hquiet => ⟨fun hbox => hbox, hquiet.2⟩)
      have hcarries : s.Carries (s.present w .event) := ⟨rfl, rfl, rfl, rfl⟩
      exact hshown.afterHandling hcarries (hm.imp_right And.left)

/-- What a loop may find in a socket that it reads. -/
def Reads (s : RdLifecycle) (w : ℕ) (buf : List Incoming) : Prop :=
  (s.sockets w).generation = s.generation ∨
    (s.sockets w).status = .empty ∧ (∀ m ∈ buf, m.Quiet) ∧ (s.restarted = true → buf = [])

/-- An allowed socket reads its own buffer. -/
theorem Allowed.reads (h : s.Allowed w) : s.Reads w (s.sockets w).buf :=
  h.imp_right fun hsilenced => ⟨hsilenced.status, hsilenced.quiet⟩

/-- A message is taken and handled. -/
theorem Kept.take {rest : List Incoming} (h : s.Kept) (hws : ∀ v ∈ s.ws, s.Allowed v)
    (hreads : s.Reads w (m :: rest)) : (s.pop w).Handled ((s.pop w).handle i w m) ∧
      (s.pop w).Reads w rest := by
  have hgeneration := generation_pop s w w
  have hpop := h.pop w
  have hstatus : ((s.pop w).sockets w).status = (s.sockets w).status := by
    rw [RdLifecycle.pop, updateSocket_self]
  have hfirst (hsilenced : s.restarted = true → m :: rest = []) : s.restarted = false :=
    Bool.eq_false_iff.mpr fun hrestarted => absurd (hsilenced hrestarted) (List.cons_ne_nil m rest)
  constructor
  · refine hpop.handle (fun v hv => allowed_pop (hws v hv)) ?_
    exact hreads.imp hgeneration.trans fun hsilenced =>
      ⟨hsilenced.2.1 m List.mem_cons_self, hfirst hsilenced.2.2⟩
  · refine hreads.imp hgeneration.trans fun hsilenced => ?_
    refine ⟨hstatus.trans hsilenced.1,
      fun m' hmem => hsilenced.2.1 m' (List.mem_cons_of_mem m hmem), fun hrestarted => ?_⟩
    exact absurd (hsilenced.2.2 hrestarted) (List.cons_ne_nil m rest)

/-- The loop is rejected with what the status is. -/
theorem Kept.rejectLoop {buf : List Incoming} (h : s.Kept) (hreads : s.Reads w buf) :
    (s.failLoop i w (s.sockets w).status.reason).Kept := by
  refine h.failLoop i (hreads.imp_right fun hsilenced => ?_)
  rw [hsilenced.1]
  rfl

/-- The current sockets stay allowed when they are carried over. -/
theorem Carries.allowed_ws (h : s.Carries t) (hws : ∀ v ∈ s.ws, s.Allowed v) :
    ∀ v ∈ t.ws, t.Allowed v := by
  intro v hv
  rw [h.ws] at hv
  rw [h.allowed]
  exact hws v hv

/-- The turns of the loop. -/
theorem Kept.drain {buf : List Incoming} (h : s.Kept) (hws : ∀ v ∈ s.ws, s.Allowed v)
    (hw : s.ws = some w) (hreads : s.Reads w buf) : (drain i w buf s).Kept := by
  induction buf generalizing s with
  | nil =>
    unfold RdLifecycle.drain
    split_ifs with hopen
    · exact h.setTask i (hws w hw) fun _ => hws
    · exact h.rejectLoop hreads
  | cons m rest ih =>
    obtain ⟨hhandled, hrest⟩ := h.take (i := i) hws hreads
    unfold RdLifecycle.drain
    dsimp only
    split_ifs with hgoesOn
    · have hcarries := hhandled.carries hgoesOn
      refine ih hhandled.kept (hcarries.allowed_ws fun v hv => allowed_pop (hws v hv))
        (hcarries.ws.trans hw) ?_
      rw [Reads, hcarries.sockets, hcarries.generation, hcarries.restarted]
      exact hrest
    · exact hhandled.kept

/-- The next turn of the loop keeps the page. -/
theorem Kept.nextTurn (h : s.Kept) (hws : ∀ v ∈ s.ws, s.Allowed v) (i : ℕ) :
    (s.nextTurn i).Kept := by
  unfold RdLifecycle.nextTurn
  split
  · exact h.end i
  · rename_i w hw
    exact h.drain hws hw (hws w hw).reads

/-- The timer of a loop that waits. -/
theorem Kept.pollLoop (h : s.Kept) (hwaiting : s.tasks[i]? = some (.waiting w))
    (hpoll : s.pollLoop i w = some t) : t.Kept := by
  have hmem : Place.waiting w ∈ s.tasks := List.mem_of_getElem? hwaiting
  have hws := h.ws ⟨_, hmem, trivial⟩
  have hreads := Allowed.reads (h.tasks _ hmem)
  simp only [RdLifecycle.pollLoop] at hpoll
  split at hpoll
  · split_ifs at hpoll
    obtain rfl := Option.some.inj hpoll
    exact h.rejectLoop hreads
  · rename_i m rest hbuf
    rw [hbuf] at hreads
    obtain rfl := Option.some.inj hpoll
    obtain ⟨hhandled, -⟩ := h.take (i := i) hws hreads
    split_ifs with hgoesOn
    · have hcarries := hhandled.carries hgoesOn
      exact hhandled.kept.nextTurn (hcarries.allowed_ws fun v hv => allowed_pop (hws v hv)) i
    · exact hhandled.kept

/-! ## Connecting -/

/-- The sockets after a new one was made. -/
theorem newSocket_same (s : RdLifecycle) (i generation : ℕ) (isRendezvous : Bool) (v : ℕ) :
    ((s.newSocket i generation isRendezvous).sockets v =
        ⟨generation, i, isRendezvous, .CONNECTING, .empty, [], true⟩ ∧ v = s.nextSocket) ∨
      (s.newSocket i generation isRendezvous).sockets v = s.sockets v := by
  simp only [newSocket]
  split_ifs with hv
  · exact .inl ⟨rfl, hv⟩
  · exact .inr rfl

/-- A new socket keeps the current generation. -/
theorem generation_newSocket (hv : (s.sockets v).generation = s.generation) (i : ℕ) (r : Bool) :
    ((s.newSocket i s.generation r).sockets v).generation = s.generation := by
  rcases newSocket_same s i s.generation r v with ⟨hnew, -⟩ | hold
  · rw [hnew]
  · rw [hold, hv]

/-- A new socket keeps the others allowed. -/
theorem allowed_newSocket (hv : s.Allowed v) (i : ℕ) (r : Bool) :
    (s.newSocket i s.generation r).Allowed v := by
  rcases newSocket_same s i s.generation r v with ⟨hnew, -⟩ | hold
  · refine .inl ?_
    rw [hnew]
    rfl
  · refine hv.imp (fun hlast => by rw [hold]; exact hlast) fun hsilenced => ⟨?_, ?_, ?_, ?_⟩
    · rw [hold]
      exact hsilenced.status
    · rw [hold]
      exact hsilenced.state
    · rw [hold]
      exact hsilenced.receives
    · rw [LeavesQuiet, hold]
      exact hsilenced.quiet

/-- A new socket keeps the places fine. -/
theorem fine_newSocket (hplace : s.Fine place) (i : ℕ) (r : Bool) :
    (s.newSocket i s.generation r).Fine place :=
  hplace.imp (fun _ hv => generation_newSocket hv i r) (fun _ _ hv => allowed_newSocket hv i r) rfl

/-- The new socket is of the current generation. -/
theorem generation_nextSocket (s : RdLifecycle) (i : ℕ) (r : Bool) :
    ((s.newSocket i s.generation r).sockets s.nextSocket).generation = s.generation := by
  simp [newSocket]

/-- A new socket keeps the page. -/
theorem Kept.newSocket (h : s.Kept) (i : ℕ) (r : Bool) : (s.newSocket i s.generation r).Kept :=
  ⟨h.silent, fun place hmem => fine_newSocket (h.tasks place hmem) i r,
    fun hloop v hv => allowed_newSocket (h.ws hloop v hv) i r⟩

/-- A start keeps the page. -/
theorem Kept.start (h : s.Kept) (plaintextPassword : Bool) : (s.start plaintextPassword).Kept := by
  have hcarries : (s.newSocket s.tasks.length s.generation true).Carries
      (s.start plaintextPassword) := ⟨rfl, rfl, rfl, rfl⟩
  refine ⟨h.silent, fun place hmem => ?_, fun hloop v hv => ?_⟩
  · rcases List.mem_append.mp hmem with hold | hnew
    · exact hcarries.fine.mpr (fine_newSocket (h.tasks place hold) s.tasks.length true)
    · obtain rfl := List.mem_singleton.mp hnew
      exact generation_nextSocket s s.tasks.length true
  · obtain ⟨place, hmem, hin⟩ := hloop
    refine hcarries.allowed.mpr
      (allowed_newSocket (h.ws ⟨place, ?_, hin⟩ v hv) s.tasks.length true)
    rcases List.mem_append.mp hmem with hold | hnew
    · exact hold
    · obtain rfl := List.mem_singleton.mp hnew
      exact hin.elim

/-- The connection gets the socket of a call of `start`. -/
theorem Kept.ready (h : s.Kept) (hw : (s.sockets w).generation = s.generation) (i : ℕ) :
    (s.ready i w).Kept := by
  have hws : ∀ v ∈ ({ s with ws := some w } : RdLifecycle).ws,
      ({ s with ws := some w } : RdLifecycle).Allowed v := by
    intro v hv
    obtain rfl := Option.some.inj hv
    exact .inl hw
  have hfine (place : Place) (hmem : place ∈ s.tasks) :
      ({ s with ws := some w } : RdLifecycle).Fine place := by
    have hsame : ({ s with ws := some w } : RdLifecycle).Fine place ↔ s.Fine place :=
      fine_congr rfl rfl rfl
    exact hsame.mpr (h.tasks place hmem)
  have hset : ({ s with ws := some w } : RdLifecycle).Kept := ⟨h.silent, hfine, fun _ => hws⟩
  have hcarries : ({ s with ws := some w } : RdLifecycle).Carries
      ({ s with ws := some w }.present w .event) := ⟨rfl, rfl, rfl, rfl⟩
  exact (hset.present (.inl hw)).nextTurn (hcarries.allowed_ws hws) i

/-- The answer to a punch keeps the page. -/
theorem Kept.punched (h : s.Kept) (hw : (s.sockets w).generation = s.generation) (i : ℕ)
    (m : Incoming) : (s.punched i w m).Kept := by
  have hclosed := h.closeSocket w
  have hlast : ((s.closeSocket w).sockets w).generation = (s.closeSocket w).generation := by
    rw [RdLifecycle.closeSocket, updateSocket_self]
    exact hw
  cases m with
  | failed text => exact (hclosed.msgbox (.inl hlast)).end i
  | relay signed =>
    simp only [RdLifecycle.punched]
    rw [hw]
    exact (hclosed.newSocket i false).setTask i (generation_nextSocket (s.closeSocket w) i false)
      fun hloop => hloop.elim
  | noAnswer => exact hclosed.end i
  | host m => exact hclosed.end i

/-- The answer to a handshake keeps the page. -/
theorem Kept.handshaken (h : s.Kept) (hw : (s.sockets w).generation = s.generation) (i : ℕ)
    (m : Incoming) : (s.handshaken i w m).Kept := by
  unfold RdLifecycle.handshaken
  split
  · exact h.setTask i hw fun hloop => hloop.elim
  · exact h.ready hw i

/-- A call of `start` goes on with the first message of its socket. -/
theorem Kept.pollStart (h : s.Kept) (hw : (s.sockets w).generation = s.generation)
    {goOn : RdLifecycle → Incoming → RdLifecycle}
    (hgoOn : ∀ {s : RdLifecycle} (m : Incoming), s.Kept →
      (s.sockets w).generation = s.generation → (goOn s m).Kept)
    (hpoll : s.pollStart i w goOn = some t) : t.Kept := by
  simp only [RdLifecycle.pollStart] at hpoll
  split at hpoll
  · split_ifs at hpoll
    obtain rfl := Option.some.inj hpoll
    exact h.failStart i hw _
  · obtain rfl := Option.some.inj hpoll
    exact hgoOn _ (h.pop w) ((generation_pop s w w).trans hw)

/-- A socket that opens is of the current generation. -/
theorem Kept.generation_of_opening (h : s.Kept) (signed : Bool)
    (htask : s.tasks[i]? = some (.opening w) ∨ s.tasks[i]? = some (.openingRelay w signed)) :
    (s.sockets w).generation = s.generation := by
  rcases htask with htask | htask
  · exact h.tasks _ (List.mem_of_getElem? htask)
  · exact h.tasks _ (List.mem_of_getElem? htask)

/-- A socket that has opened keeps the page. -/
theorem Kept.opened (h : s.Kept) (hstate : (s.sockets w).state = .CONNECTING) :
    (s.opened w).Kept := by
  have hstart : s.KeepsStart w fun socket => { socket with state := .OPEN, status := .isOpen } :=
    rfl
  have hopened := h.updateSocket hstart fun _ _ _ _ hw =>
    .inl ((hstart.generation_eq w).trans
      (hw.resolve_right fun hsilenced => hsilenced.state hstate))
  unfold RdLifecycle.opened
  dsimp only
  split_ifs with hrendezvous hsigned hunsigned
  · exact hopened.setTask _ (hopened.generation_of_opening true (.inl hrendezvous))
      fun hloop => hloop.elim
  · exact hopened.setTask _ (hopened.generation_of_opening true (.inr hsigned))
      fun hloop => hloop.elim
  · exact hopened.ready (hopened.generation_of_opening false (.inr hunsigned)) _
  · exact hopened

/-- A socket that could not open keeps the page. -/
theorem Kept.rejectOpen (h : s.Kept) (w : ℕ) (e : Reason) : (s.rejectOpen w e).Kept := by
  unfold RdLifecycle.rejectOpen
  dsimp only
  split_ifs with hawaited
  · refine h.failStart _ ?_ e
    rcases hawaited with hrendezvous | hsigned | hunsigned
    · exact h.generation_of_opening true (.inl hrendezvous)
    · exact h.generation_of_opening true (.inr hsigned)
    · exact h.generation_of_opening false (.inr hunsigned)
  · exact h

/-! ## Steps -/

/-- The close event of a socket that no loop reads, or of one of the last start. -/
theorem Kept.onclose (h : s.Kept) (hcareful : s.Careful (.closed w)) : (s.onclose w).Kept := by
  have hstart : s.KeepsStart w fun socket =>
      { socket with state := .CLOSED, status := .event true } := rfl
  refine Kept.rejectOpen (h.updateSocket hstart fun place hmem hloop hreads _ => ?_) w _
  by_cases hlast : (s.sockets w).generation = s.generation
  · exact .inl ((hstart.generation_eq w).trans hlast)
  · obtain ⟨hwaiting, hws⟩ := hcareful hlast place hmem hloop
    exact absurd hreads (not_or.mpr ⟨hwaiting, hws⟩)

/-- An error of a socket keeps the page. -/
theorem Kept.onerror (h : s.Kept) (w : ℕ) : (s.onerror w).Kept := by
  unfold RdLifecycle.onerror
  by_cases hempty : (s.sockets w).status = .empty
  · rw [if_pos hempty]
    exact h.rejectOpen w _
  · rw [if_neg hempty]
    have hstart : s.KeepsStart w fun socket => { socket with status := .event false } := rfl
    exact h.updateSocket hstart fun _ _ _ _ hw =>
      .inl ((hstart.generation_eq w).trans
        (hw.resolve_right fun hsilenced => hempty hsilenced.status))

/-- A message that arrives keeps the page. -/
theorem Kept.received (h : s.Kept) (w : ℕ) (m : Incoming) : (s.received w m).Kept := by
  unfold RdLifecycle.received
  split_ifs with hreceives
  · have hstart : s.KeepsStart w fun socket => { socket with buf := socket.buf ++ [m] } := rfl
    exact h.updateSocket hstart fun _ _ _ _ hw =>
      .inl ((hstart.generation_eq w).trans (hw.resolve_right fun hsilenced => by
        rw [hsilenced.receives] at hreceives
        cases hreceives))
  · exact h

/-- A loop goes on with what it has decompressed. -/
theorem Kept.decompressed (h : s.Kept) {failure : Option String}
    (hhandling : s.tasks[i]? = some (.handling w failure)) (isShown : Bool) :
    (s.decompressed i w failure isShown).Kept := by
  have hmem := List.mem_of_getElem? hhandling
  have hfine := h.tasks _ hmem
  have hws := h.ws ⟨_, hmem, trivial⟩
  have hshown : (if isShown then s.present w .event else s).Kept ∧
      s.Carries (if isShown then s.present w .event else s) := by
    split_ifs
    · exact ⟨h.present (hfine.imp_right fun hquiet => ⟨fun hbox => hbox, hquiet.1⟩),
        ⟨rfl, rfl, rfl, rfl⟩⟩
    · exact ⟨h, .refl s⟩
  unfold RdLifecycle.decompressed
  dsimp only
  generalize (if isShown then s.present w .event else s) = q at hshown ⊢
  have hhandled := hshown.1.afterHandling (i := i) hshown.2 (hfine.imp_right And.right)
  split_ifs with hgoesOn
  · exact hhandled.kept.nextTurn ((hhandled.carries hgoesOn).allowed_ws hws) i
  · exact hhandled.kept

/-- Closing leaves what is shown, the tasks and the current socket. -/
theorem baseClose_same (s : RdLifecycle) : s.baseClose.shown = s.shown ∧
    s.baseClose.tasks = s.tasks ∧ s.baseClose.ws = s.ws := by
  unfold RdLifecycle.baseClose
  split <;> exact ⟨rfl, rfl, rfl⟩

/-- A socket after the close of the connection. -/
theorem baseClose_socket (s : RdLifecycle) (v : ℕ) :
    (s.baseClose.sockets v).generation = (s.sockets v).generation ∧
      (s.baseClose.sockets v).buf = (s.sockets v).buf ∧
      (s.ws = some v ∨ (s.sockets v).status = .empty ∧ (s.sockets v).state ≠ .CONNECTING ∧
          (s.sockets v).receives = false →
        (s.baseClose.sockets v).status = .empty ∧ (s.baseClose.sockets v).state ≠ .CONNECTING ∧
          (s.baseClose.sockets v).receives = false) := by
  unfold RdLifecycle.baseClose
  split
  · rename_i w hw
    by_cases hv : v = w
    · subst hv
      rw [RdLifecycle.closeSocket, updateSocket_self]
      refine ⟨rfl, rfl, fun _ => ⟨rfl, ?_, rfl⟩⟩
      dsimp only
      split_ifs <;> decide
    · have hother : (s.closeSocket w).sockets v = s.sockets v := if_neg hv
      rw [hother]
      refine ⟨rfl, rfl, fun hclosed => hclosed.resolve_left fun hsame => hv ?_⟩
      exact Option.some.inj (hsame.symm.trans hw)
  · rename_i hnone
    refine ⟨rfl, rfl, fun hclosed => hclosed.resolve_left fun hsame => ?_⟩
    rw [hnone] at hsame
    cases hsame

/-- A deliberate close that silences all that is under way. -/
theorem Kept.closeOnPurpose (h : s.Kept) {restarted : Bool}
    (hleaves : ∀ place ∈ s.tasks, s.Leaves restarted place) :
    (s.closeOnPurpose restarted).Kept := by
  obtain ⟨hshown, htasks, hws⟩ := baseClose_same s
  have hsilenced {v : ℕ} (hclosed : s.ws = some v ∨ s.Silenced v)
      (hquiet : s.LeavesQuiet restarted v) : (s.closeOnPurpose restarted).Silenced v := by
    obtain ⟨-, hbuf, hafter⟩ := baseClose_socket s v
    obtain ⟨hstatus, hstate, hreceives⟩ := hafter (hclosed.imp_right fun hsilenced =>
      ⟨hsilenced.status, hsilenced.state, hsilenced.receives⟩)
    refine ⟨hstatus, hstate, hreceives, ?_⟩
    rw [LeavesQuiet, ← hbuf] at hquiet
    exact hquiet
  refine ⟨fun x hmem => h.silent x (hshown ▸ hmem), fun place hmem => ?_, ?_⟩
  · have hmem' : place ∈ s.tasks := htasks ▸ hmem
    have hleave := hleaves place hmem'
    have hfine := h.tasks place hmem'
    cases place with
    | ended => trivial
    | waiting v =>
      obtain ⟨hclosed, hempty, hquiet⟩ := hleave
      refine .inr ?_
      rcases hclosed with hcurrent | hearlier
      · exact hsilenced (.inl hcurrent) (hquiet v hcurrent)
      · have hold : s.Silenced v := hfine.resolve_left hearlier
        exact hsilenced (.inr hold) ⟨hold.quiet.1, hempty⟩
    | handling v failure => exact .inr ⟨hleave.1, hleave.2.1⟩
    | _ => exact hleave.elim
  · rintro ⟨place, hmem, hloop⟩ v hv
    have hcurrent : s.ws = some v := hws.symm.trans hv
    have hleave := hleaves place (htasks ▸ hmem)
    refine .inr (hsilenced (.inl hcurrent) ?_)
    cases place with
    | waiting w => exact hleave.2.2 v hcurrent
    | handling w failure => exact hleave.2.2 v hcurrent
    | _ => exact hloop.elim

/-- **One step** keeps the page. -/
theorem Kept.step {e : LifecycleEvent} (h : s.Kept) (hcareful : s.Careful e)
    (hstep : s.step e = some t) : t.Kept := by
  cases e with
  | start plaintextPassword =>
    obtain rfl := Option.some.inj hstep
    exact h.start plaintextPassword
  | close =>
    obtain rfl := Option.some.inj hstep
    exact h.closeOnPurpose hcareful
  | refresh =>
    obtain rfl := Option.some.inj hstep
    exact h
  | restart =>
    obtain rfl := Option.some.inj hstep
    exact (h.closeOnPurpose hcareful).start false
  | opened w =>
    simp only [RdLifecycle.step] at hstep
    split_ifs at hstep with hstate
    obtain rfl := Option.some.inj hstep
    exact h.opened hstate
  | closed w =>
    simp only [RdLifecycle.step] at hstep
    split_ifs at hstep
    obtain rfl := Option.some.inj hstep
    exact h.onclose hcareful
  | errored w =>
    simp only [RdLifecycle.step] at hstep
    split_ifs at hstep
    obtain rfl := Option.some.inj hstep
    exact h.onerror w
  | openTimeout w =>
    simp only [RdLifecycle.step] at hstep
    split_ifs at hstep
    obtain rfl := Option.some.inj hstep
    exact h.rejectOpen w _
  | received w m =>
    simp only [RdLifecycle.step] at hstep
    split_ifs at hstep
    obtain rfl := Option.some.inj hstep
    exact h.received w m
  | poll i =>
    simp only [RdLifecycle.step] at hstep
    split at hstep
    · rename_i w htask
      have hw : (s.sockets w).generation = s.generation := h.tasks _ (List.mem_of_getElem? htask)
      exact h.pollStart hw (fun m hkept hlast => hkept.punched hlast i m) hstep
    · rename_i w htask
      have hw : (s.sockets w).generation = s.generation := h.tasks _ (List.mem_of_getElem? htask)
      exact h.pollStart hw (fun m hkept hlast => hkept.handshaken hlast i m) hstep
    · rename_i w htask
      exact h.pollLoop htask hstep
    · cases hstep
  | timedOut i =>
    simp only [RdLifecycle.step] at hstep
    split at hstep
    · rename_i w htask
      split_ifs at hstep
      obtain rfl := Option.some.inj hstep
      exact h.failStart i (h.tasks _ (List.mem_of_getElem? htask)) _
    · rename_i w htask
      split_ifs at hstep
      obtain rfl := Option.some.inj hstep
      exact h.failStart i (h.tasks _ (List.mem_of_getElem? htask)) _
    · cases hstep
  | keyVerified i valid =>
    simp only [RdLifecycle.step] at hstep
    split at hstep
    · rename_i w htask
      have hw : (s.sockets w).generation = s.generation := h.tasks _ (List.mem_of_getElem? htask)
      obtain rfl := Option.some.inj hstep
      split_ifs
      · exact h.setTask i hw fun hloop => hloop.elim
      · exact h.ready hw i
    · cases hstep
  | idVerified i failure =>
    simp only [RdLifecycle.step] at hstep
    split at hstep
    · rename_i w htask
      have hw : (s.sockets w).generation = s.generation := h.tasks _ (List.mem_of_getElem? htask)
      cases failure with
      | none =>
        obtain rfl := Option.some.inj hstep
        exact h.ready hw i
      | some text =>
        obtain rfl := Option.some.inj hstep
        exact h.failStart i hw _
    · cases hstep
  | decompressed i isShown =>
    simp only [RdLifecycle.step] at hstep
    split at hstep
    · rename_i w failure htask
      obtain rfl := Option.some.inj hstep
      exact h.decompressed htask isShown
    · cases hstep

/-- **A deliberate close is silent** in every run whose steps are careful. -/
theorem silent_of_careful {plaintextPassword password : Bool} {events : List LifecycleEvent}
    (hrun : (machine plaintextPassword password).RunWhere Careful
      (new plaintextPassword password) events s) : s.Silent := by
  have hinit : (new plaintextPassword password).Kept :=
    ⟨fun _ hmem => absurd hmem List.not_mem_nil, fun _ hmem => absurd hmem List.not_mem_nil,
      fun hloop => absurd hloop.choose_spec.1 List.not_mem_nil⟩
  exact (hrun.invariant (P := Kept) (fun _ _ _ hcareful hstep h => h.step hcareful hstep)
    hinit).silent

/-- The connection after some events. -/
def after (events : List LifecycleEvent) : RdLifecycle :=
  events.foldl (fun s e => (s.step e).getD s) (new true false)

/-- A relay is connected and the loop waits; the connection is restarted; the old loop ends; the
login on the new relay fails. -/
def restartedWhileWaiting : List LifecycleEvent :=
  [.start false, .opened 0, .received 0 (.relay false), .poll 0, .opened 1, .restart, .poll 0,
    .closed 1, .opened 2, .received 2 (.relay false), .poll 1, .opened 3,
    .received 3 (.host ⟨.loginResponse "Offline" none, none⟩), .poll 1]

/-- The connection is closed while the rendezvous server is asked, which knows no such peer. -/
def closedWhilePunching : List LifecycleEvent :=
  [.start false, .opened 0, .close, .received 0 (.failed "ID does not exist"), .poll 0]

/-- A restart while a task waits for its message stays silent. -/
theorem silent_of_careful_restartedWhileWaiting : (after restartedWhileWaiting).Silent :=
  silent_of_careful (Machine.runWhere_of_replayWhere
    (rfl : (machine true false).replayWhere Careful (new true false) restartedWhileWaiting =
      some (after restartedWhileWaiting)))

/-- The failure is shown after the close. -/
theorem not_silent_closedWhilePunching :
    ¬ ∀ (plaintextPassword password : Bool) (events : List LifecycleEvent) (s : RdLifecycle),
      (machine plaintextPassword password).Run (new plaintextPassword password) events s →
        s.Silent := by
  intro hall
  have hsilent := hall true false closedWhilePunching (after closedWhilePunching)
    (Machine.run_of_replay rfl)
  have hmem : (⟨.box "error" "Error" "ID does not exist", 0, 1, false⟩ : Shown) ∈
      (after closedWhilePunching).shown := List.mem_singleton.mpr rfl
  rcases hsilent _ hmem with horigin | ⟨hharmless, -⟩
  · exact absurd horigin (by decide)
  · exact hharmless (.inl rfl)

end RdLifecycle

end RdWeb.Web
