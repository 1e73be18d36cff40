import RdWeb.Lib.History
import RdWeb.Lib.Machine
import RdWeb.Lib.OrderedMap

/-!
# The clipboard listener

`clipboard_listener` of `clipboard.rs`: one thread watches the clipboard and tells every
subscriber. `CLIPBOARD_LISTENER` is held through each call of `subscribe` and `unsubscribe`; the
handler of the thread takes only the lock of the subscribers.
-/

namespace RdWeb.Clipboard

/-- `clipboard_master::CallbackResult`, with the text of the error. -/
inductive CallbackResult
  | next
  | stop
  | stopWithError (error : String)
  deriving DecidableEq

/-- What the thread that is to be started reports. -/
inductive StartResult
  /-- `Master::new` succeeds, and the thread goes into `master.run` -/
  | started
  /-- `Master::new` fails, and the thread ends -/
  | failed (err : String)
  /-- the thread ends before it sends a result -/
  | closed (err : String)
  deriving DecidableEq

/-- `bail!`, where the start was not a success. -/
def StartResult.error? : StartResult → Option String
  | .started => none
  | .failed err => some ("Failed to create clipboard listener: " ++ err)
  | .closed err => some ("Failed to create clipboard listener: " ++ err)

/-- What happened: the calls that returned, and what was sent to the channel of a name. -/
inductive ListenerEntry (Tx : Type*)
  | subscribed (name : String)
  | refused (name : String) (err : String)
  | unsubscribed (name : String)
  | sent (name : String) (tx : Tx) (result : CallbackResult)

/-- `ClipboardListener`, its thread and the history. -/
structure ClipboardListener (Tx : Type*) where
  subscribers : OrderedMap String Tx
  /-- whether `handle` is `Some` -/
  handle : Bool
  /-- whether a listener thread is in `master.run` -/
  running : Bool
  history : List (ListenerEntry Tx)

/-- The calls, and what the thread does. -/
inductive ListenerEvent (Tx : Type*)
  | subscribe (name : String) (tx : Tx) (start : StartResult)
  | unsubscribe (name : String)
  | clipboardChange
  | clipboardError (error : String)
  /-- `master.run` returns although nobody asked for it -/
  | runEnds

namespace ClipboardListener

variable {Tx : Type*}

/-- `Default`: nobody subscribed and no thread. -/
def empty : ClipboardListener Tx := ⟨.empty, false, false, []⟩

/-- The history grows at its end. -/
def log (l : ClipboardListener Tx) (entries : List (ListenerEntry Tx)) : ClipboardListener Tx :=
  { l with history := l.history ++ entries }

/-- `start_clipbard_master_thread` and the wait for its result. -/
def subscribe (l : ClipboardListener Tx) (name : String) (tx : Tx) (start : StartResult) :
    ClipboardListener Tx :=
  let l := { l with subscribers := l.subscribers.set name tx }
  if l.handle then l.log [.subscribed name]
  else
    match start.error? with
    | some err => l.log [.refused name err]
    | none => { l with handle := true, running := true }.log [.subscribed name]

/-- `Stop` for the name; the thread is stopped and joined when nobody is left. -/
def unsubscribe (l : ClipboardListener Tx) (name : String) : ClipboardListener Tx :=
  let stop := (l.subscribers.get? name).toList.map fun tx => ListenerEntry.sent name tx .stop
  let l := { l with subscribers := l.subscribers.delete name }
  let l :=
    if l.subscribers.entries = [] ∧ l.handle then { l with handle := false, running := false }
    else l
  l.log (stop ++ [.unsubscribed name])

/-- The handler: one result for every subscriber. -/
def sendAll (l : ClipboardListener Tx) (result : CallbackResult) : ClipboardListener Tx :=
  l.log (l.subscribers.entries.map fun (name, tx) => .sent name tx result)

/-- All subscribers are told of a change. -/
def onClipboardChange (l : ClipboardListener Tx) : ClipboardListener Tx := l.sendAll .next

/-- All subscribers are told of an error. -/
def onClipboardError (l : ClipboardListener Tx) (error : String) : ClipboardListener Tx :=
  l.sendAll (.stopWithError ("Clipboard listener error: " ++ error))

/-- The handler runs on the thread. -/
def step (l : ClipboardListener Tx) : ListenerEvent Tx → Option (ClipboardListener Tx)
  | .subscribe name tx start => some (l.subscribe name tx start)
  | .unsubscribe name => some (l.unsubscribe name)
  | .clipboardChange => if l.running then some l.onClipboardChange else none
  | .clipboardError error => if l.running then some (l.onClipboardError error) else none
  | .runEnds => if l.running then some { l with running := false } else none

/-- Any calls, and a clipboard that changes at any time. -/
def machine : Machine (ClipboardListener Tx) (ListenerEvent Tx) := ⟨empty, step⟩

/-- The name subscribed, and did not unsubscribe since. -/
def Subscribed (name : String) (history : List (ListenerEntry Tx)) : Prop :=
  History.Open (· = .subscribed name) (· = .unsubscribed name) history

/-- What is sent to a name is sent to a subscriber. -/
def Justified (before : List (ListenerEntry Tx)) : ListenerEntry Tx → Prop
  | .sent name _ _ => Subscribed name before
  | _ => True

/-- The law of a step: the thread runs while somebody is subscribed, a call that returns an error
leaves the subscribers as they were, and nothing is sent to a name that is not subscribed. -/
structure Lawful (l : ClipboardListener Tx) (e : ListenerEvent Tx) (l' : ClipboardListener Tx) :
    Prop where
  running_iff : l'.running = true ↔ l'.subscribers.entries ≠ []
  refused : ∀ name tx start err, e = .subscribe name tx start →
    l'.history = l.history ++ [.refused name err] → l'.subscribers = l.subscribers
  justified : History.Grounded Justified l'.history

/-- The thread starts when it is asked to, and ends only when it is asked to. -/
def Starts (l : ClipboardListener Tx) : ListenerEvent Tx → Prop
  | .subscribe _ _ start => l.handle = false → start = .started
  | .runEnds => False
  | _ => True

/-- Whether a step starts the thread where it has to is decided by the handle. -/
instance (l : ClipboardListener Tx) (e : ListenerEvent Tx) : Decidable (Starts l e) :=
  match e with
  | .subscribe _ _ start => inferInstanceAs (Decidable (l.handle = false → start = .started))
  | .runEnds => isFalse id
  | .unsubscribe _ | .clipboardChange | .clipboardError _ => isTrue trivial

/-- What a run in which the thread starts keeps. -/
structure Sound (l : ClipboardListener Tx) : Prop where
  handle_eq : l.handle = l.running
  running_iff : l.running = true ↔ l.subscribers.entries ≠ []
  subscribed : ∀ name tx, l.subscribers.get? name = some tx → Subscribed name l.history
  justified : History.Grounded Justified l.history

section History

variable {history entries : List (ListenerEntry Tx)} {name : String}

/-- A name stays subscribed until it unsubscribes. -/
theorem Subscribed.append (h : Subscribed name history)
    (hentries : .unsubscribed name ∉ entries) : Subscribed name (history ++ entries) :=
  History.Open.append h fun _ hmem heq => hentries (heq ▸ hmem)

/-- The last entry is the newest. -/
theorem subscribed_concat : Subscribed name (history ++ [.subscribed name]) :=
  History.open_concat rfl

/-- What is sent keeps everybody subscribed, so it is justified by what came before all of it. -/
theorem grounded_append_sent (h : History.Grounded Justified history)
    (hsent : ∀ entry ∈ entries, ∃ name tx result, entry = .sent name tx result ∧
      Subscribed name history) : History.Grounded Justified (history ++ entries) := by
  induction entries using List.reverseRecOn with
  | nil => simpa using h
  | append_singleton entries entry ih =>
    rw [← List.append_assoc]
    refine (ih fun entry' hmem => hsent entry' (by simp [hmem])).concat ?_
    obtain ⟨name, tx, result, rfl, hsub⟩ := hsent entry (by simp)
    refine hsub.append fun hmem => ?_
    obtain ⟨name', tx', result', heq, -⟩ := hsent _ (List.mem_append_left _ hmem)
    cases heq

end History

variable {l l' : ClipboardListener Tx}

/-- No listener was subscribed yet. -/
theorem sound_empty : Sound (empty : ClipboardListener Tx) := by
  refine ⟨rfl, by simp [empty, OrderedMap.empty], by simp [empty], ?_⟩
  exact History.grounded_of_forall fun entry hmem => by simp [empty] at hmem

/-- A call of `subscribe` that succeeds. -/
theorem Sound.subscribe (h : Sound l) {name : String} {tx : Tx} {start : StartResult}
    (hstart : l.handle = false → start = .started) : Sound (l.subscribe name tx start) := by
  have hafter : l.subscribe name tx start =
      { subscribers := l.subscribers.set name tx, handle := true, running := true,
        history := l.history ++ [.subscribed name] } := by
    cases hhandle : l.handle with
    | true => simp [ClipboardListener.subscribe, log, hhandle, ← h.handle_eq]
    | false => simp [ClipboardListener.subscribe, log, hhandle, hstart hhandle, StartResult.error?]
  rw [hafter]
  refine ⟨rfl, iff_of_true rfl (OrderedMap.entries_set_ne_nil _ _ _), ?_, ?_⟩
  · intro name' tx' hget
    by_cases hname : name' = name
    · subst hname
      exact subscribed_concat
    · rw [OrderedMap.get?_set, if_neg hname] at hget
      exact (h.subscribed name' tx' hget).append (by simp)
  · exact h.justified.concat trivial

/-- The fields after a call of `unsubscribe`. -/
theorem subscribers_unsubscribe (l : ClipboardListener Tx) (name : String) :
    (l.unsubscribe name).subscribers = l.subscribers.delete name := by
  simp only [unsubscribe, log]
  split_ifs <;> rfl

/-- Unsubscribing stops the subscriber and notes it. -/
theorem history_unsubscribe (l : ClipboardListener Tx) (name : String) :
    (l.unsubscribe name).history =
      l.history ++ ((l.subscribers.get? name).toList.map fun tx => .sent name tx .stop) ++
        [.unsubscribed name] := by
  simp only [unsubscribe, log, List.append_assoc]
  split_ifs <;> rfl

/-- Unsubscribing keeps the listener sound. -/
theorem Sound.unsubscribe (h : Sound l) (name : String) : Sound (l.unsubscribe name) := by
  have hflags : (l.unsubscribe name).handle = (l.unsubscribe name).running ∧
      ((l.unsubscribe name).running = true ↔
        (l.subscribers.delete name).entries ≠ []) := by
    have hrun := h.handle_eq
    have hne := h.running_iff
    by_cases hempty : (l.subscribers.delete name).entries = []
    · cases hhandle : l.handle <;>
        simp_all [ClipboardListener.unsubscribe, log]
    · have hsub : l.subscribers.entries ≠ [] := by
        intro hnil
        simp [OrderedMap.delete, hnil] at hempty
      simp [ClipboardListener.unsubscribe, log, hempty, hrun, hne.mpr hsub]
  refine ⟨hflags.1, ?_, ?_, ?_⟩
  · rw [subscribers_unsubscribe]
    exact hflags.2
  · intro name' tx' hget
    rw [subscribers_unsubscribe, OrderedMap.get?_delete] at hget
    split_ifs at hget with hname
    rw [history_unsubscribe]
    refine ((h.subscribed name' tx' hget).append ?_).append ?_
    · simp
    · simpa using hname
  · rw [history_unsubscribe]
    refine (grounded_append_sent h.justified ?_).concat trivial
    intro entry hmem
    obtain ⟨tx, htx, rfl⟩ := List.mem_map.mp hmem
    exact ⟨name, tx, .stop, rfl, h.subscribed name tx (by simpa using htx)⟩

/-- What the handler sends goes to subscribers. -/
theorem Sound.sendAll (h : Sound l) (result : CallbackResult) : Sound (l.sendAll result) := by
  have hsent : ∀ entry ∈ l.subscribers.entries.map fun (name, tx) =>
      ListenerEntry.sent name tx result,
      ∃ name tx result, entry = .sent name tx result ∧ Subscribed name l.history := by
    intro entry hmem
    obtain ⟨⟨name, tx⟩, hentry, rfl⟩ := List.mem_map.mp hmem
    exact ⟨name, tx, result, rfl, h.subscribed name tx (OrderedMap.get?_of_mem_entries hentry)⟩
  refine ⟨h.handle_eq, h.running_iff, ?_, grounded_append_sent h.justified hsent⟩
  intro name tx hget
  refine (h.subscribed name tx hget).append fun hmem => ?_
  obtain ⟨name', tx', result', heq, -⟩ := hsent _ hmem
  cases heq

/-- A step in which the thread starts where it has to. -/
theorem Sound.step (h : Sound l) {e : ListenerEvent Tx} (hstarts : Starts l e)
    (hstep : step l e = some l') : Sound l' := by
  cases e with
  | subscribe name tx start =>
    obtain rfl := Option.some.inj hstep
    exact h.subscribe hstarts
  | unsubscribe name =>
    obtain rfl := Option.some.inj hstep
    exact h.unsubscribe name
  | clipboardChange =>
    simp only [ClipboardListener.step] at hstep
    split_ifs at hstep
    obtain rfl := Option.some.inj hstep
    exact h.sendAll _
  | clipboardError error =>
    simp only [ClipboardListener.step] at hstep
    split_ifs at hstep
    obtain rfl := Option.some.inj hstep
    exact h.sendAll _
  | runEnds => exact hstarts.elim

/-- The only call that logs a refusal is one that does not start the thread. -/
theorem not_refused_of_starts {name : String} {tx : Tx} {start : StartResult}
    (hstarts : l.handle = false → start = .started) (name' err : String) :
    (l.subscribe name tx start).history ≠ l.history ++ [.refused name' err] := by
  cases hhandle : l.handle with
  | true => simp [ClipboardListener.subscribe, log, hhandle]
  | false => simp [ClipboardListener.subscribe, log, hhandle, hstarts hhandle, StartResult.error?]

/-- A sound state obeys the law. -/
theorem Sound.lawful (h : Sound l) {e : ListenerEvent Tx} (hstarts : Starts l e)
    (hstep : ClipboardListener.step l e = some l') : Lawful l e l' := by
  have hafter := h.step hstarts hstep
  refine ⟨hafter.running_iff, ?_, hafter.justified⟩
  rintro name tx start err rfl hhistory
  obtain rfl := Option.some.inj hstep
  exact absurd hhistory (not_refused_of_starts hstarts name err)

/-- A call that fails, or a thread that ends by itself, leaves a subscriber without a thread. -/
theorem Sound.starts (h : Sound l) {e : ListenerEvent Tx}
    (hstep : ClipboardListener.step l e = some l') (hlawful : Lawful l e l') : Starts l e := by
  cases e with
  | subscribe name tx start =>
    obtain rfl := Option.some.inj hstep
    intro hhandle
    cases herr : start.error? with
    | none => cases start <;> simp_all [StartResult.error?]
    | some err =>
      have hrunning := hlawful.running_iff
      simp only [ClipboardListener.subscribe, log, hhandle, Bool.false_eq_true, if_false, herr,
        ← h.handle_eq] at hrunning
      exact absurd (hrunning.mpr (OrderedMap.entries_set_ne_nil _ _ _)) (by simp)
  | runEnds =>
    simp only [ClipboardListener.step] at hstep
    split_ifs at hstep with hrunning
    obtain rfl := Option.some.inj hstep
    exact absurd (hlawful.running_iff.mpr (h.running_iff.mp hrunning)) (by simp)
  | unsubscribe _ => trivial
  | clipboardChange => trivial
  | clipboardError _ => trivial

/-- **The thread runs exactly while somebody is subscribed, refused calls leave the subscribers
alone and nothing is sent after an unsubscription, all along a run, if and only if** every call
that finds no thread starts one and no thread ends by itself. -/
theorem lawful_iff_starts {events : List (ListenerEvent Tx)} (hrun : machine.Run empty events l) :
    (∀ first e u v, first ++ [e] <+: events → machine.Run empty first u →
      ClipboardListener.step u e = some v → Lawful u e v) ↔
      machine.RunWhere Starts empty events l := by
  refine Machine.runWhere_iff_steps_where (M := machine) (I := Sound) ?_ ?_ sound_empty hrun
  · exact fun u e v hstarts hstep h => h.step hstarts hstep
  · exact fun u e v hstep h => ⟨h.starts hstep, fun hstarts => h.lawful hstarts hstep⟩

/-- Two subscribers, of whom the second finds the thread of the first, and their unsubscriptions. -/
def twoSubscribers : List (ListenerEvent ℕ) :=
  [.subscribe "server" 1 .started, .clipboardChange, .subscribe "client" 2 (.failed "no display"),
    .unsubscribe "server", .clipboardChange, .unsubscribe "client"]

/-- The equivalence on a run of two subscribers. -/
theorem lawful_iff_starts_two :
    ∃ l, machine.Run empty twoSubscribers l ∧
      ∀ first e u v, first ++ [e] <+: twoSubscribers → machine.Run empty first u →
        ClipboardListener.step u e = some v → Lawful u e v := by
  have hwhere : machine.RunWhere Starts empty twoSubscribers
      { empty with
        history := [.subscribed "server", .sent "server" 1 .next, .subscribed "client",
          .sent "server" 1 .stop, .unsubscribed "server", .sent "client" 2 .next,
          .sent "client" 2 .stop, .unsubscribed "client"] } :=
    Machine.runWhere_of_replayWhere rfl
  exact ⟨_, hwhere.run, (lawful_iff_starts hwhere.run).mpr hwhere⟩

/-- The client whose subscription was refused is registered: it keeps the thread of another
subscriber alive, and is told of changes. -/
theorem not_lawful_refusedClient :
    (∃ l, step empty (.subscribe "client" 1 (.failed "no display")) = some l ∧
      ¬ Lawful empty (.subscribe "client" 1 (.failed "no display")) l) ∧
    ∃ l, machine.Run empty [.subscribe "client" 1 (.failed "no display"),
        .subscribe "server" 2 .started, .unsubscribe "server", .clipboardChange] l ∧
      l.running = true ∧ .sent "client" 1 .next ∈ l.history ∧ ¬ Subscribed "client" l.history := by
  refine ⟨⟨_, rfl, ?_⟩, ⟨.set .empty "client" 1, true, true,
    [.refused "client" "Failed to create clipboard listener: no display", .subscribed "server",
      .sent "server" 2 .stop, .unsubscribed "server", .sent "client" 1 .next]⟩,
    Machine.run_of_replay rfl, rfl, by simp, ?_⟩
  · intro hlawful
    have hsame := congrArg OrderedMap.entries (hlawful.refused _ _ _ _ rfl rfl)
    cases hsame
  · rintro ⟨before, question, after, heq, rfl, -⟩
    have hmem : ListenerEntry.subscribed "client" ∈ before ++ .subscribed "client" :: after := by
      simp
    rw [← heq] at hmem
    simp at hmem

end ClipboardListener

end RdWeb.Clipboard
