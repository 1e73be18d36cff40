import RdWeb.Web.Viewer

/-!
# What a viewer says, and to whom

A viewer speaks to the window it was opened for only, takes its session from that window only, and
calls `connect` once at most, with the token that window sealed for the key it was told. It answers
the messages it heeds, in order, except that one which fails while there is no user interface never
gets an answer.
-/

namespace RdWeb.Web

variable {PrivateKey PublicKey AesKey : Type}

namespace ViewerMessage

/-- The message acknowledges a hand-over. -/
def isAck : ViewerMessage → Bool
  | ack _ _ => true
  | _ => false

/-- The message reports an error. -/
def isError : ViewerMessage → Bool
  | viewerError _ _ _ => true
  | _ => false

end ViewerMessage

/-- Where an answer to the message goes. -/
def MessageEvent.sender (e : MessageEvent) : WindowId × String := (e.source, e.origin)

/-- The message whose answer is still to come. -/
def HandOver.pending : HandOver PrivateKey → Option MessageEvent
  | idle | ended => none
  | decrypting e _ | waiting e _ | connecting e => some e

namespace Viewer

variable (page : ViewerPage PrivateKey PublicKey AesKey) (v : Viewer PrivateKey PublicKey)

/-- It goes to the opener at the origin of the page that opened the viewer. An error may go to the
window around the viewer, where there is no opener. -/
def Addressed (p : Posted) : Prop :=
  some p.targetOrigin = v.parentOrigin ∧
    (some p.target = v.opener ∨
      p.message.isError = true ∧ v.opener = none ∧ some p.target = v.parent)

/-- The public half of the viewer's own key. -/
def Publishes (publicKey : String) : Prop :=
  ∃ privateKey own spki, v.keyPair = some (privateKey, own) ∧ page.exportSpki own = .ok spki ∧
    publicKey = .ofList (Base64.encode spki)

/-- A message of the opener that has everything of a session. -/
def FromOpener (e : MessageEvent) : Prop :=
  e.data.type = "REMOTE_SESSION_READY" ∧ e.data.isComplete = true ∧
    some e.origin = v.parentOrigin ∧ some e.source = v.opener

/-- The token that was in the message, for the viewer's own key. -/
def Opens (e : MessageEvent) (token : String) : Prop :=
  ∃ privateKey publicKey, v.keyPair = some (privateKey, publicKey) ∧
    page.decryptToken privateKey e.data.encryptedToken = .ok token

/-- A call of `connect` that a heeded message asked for. -/
def AskedFor (call : ConnectCall) : Prop :=
  ∃ e ∈ v.heeded, v.Opens page e call.token ∧ call.clientId = e.data.clientId ∧
    call.remoteSessionId = e.data.remoteSessionId

/-- Where the answers went. -/
def answers : List (WindowId × String) :=
  (v.posted.filter (·.message.isAck)).map fun p => (p.target, p.targetOrigin)

/-- What holds of the messages that a viewer posts and of the calls that it makes. -/
structure Safe : Prop where
  addressed : ∀ p ∈ v.posted, v.Addressed p
  publishes : ∀ p ∈ v.posted, ∀ version publicKey,
    p.message = .viewerReady version publicKey → v.Publishes page publicKey
  fromOpener : ∀ e ∈ v.heeded, v.FromOpener e
  /-- One answer for each, to where it came from, after those whose handler threw. -/
  answered : v.abandoned.map (·.sender) ++ v.answers ++ v.handOver.pending.toList.map (·.sender) =
    v.heeded.map (·.sender)
  once : v.connects.length ≤ 1
  askedFor : ∀ call ∈ v.connects, v.AskedFor page call
  acknowledged : ∀ p ∈ v.posted, ∀ error, p.message = .ack true error → v.connects ≠ []

/-! ### What one event can do -/

/-- The effects of an event. -/
inductive Move : Viewer PrivateKey PublicKey → Prop
  | reported (errors : List Posted) (r : Registry) (b : Bootstrap PublicKey) :
      (∀ p ∈ errors, p.message.isError = true ∧ v.Addressed p) →
      b = v.bootstrap ∨ b = .finished →
      Move { v with posted := v.posted ++ errors, registry := r, bootstrap := b }
  | keyed (keyPair : PrivateKey × PublicKey) : v.bootstrap = .generating →
      Move { v with keyPair := some keyPair, bootstrap := .exporting keyPair.2 }
  | ready (publicKey : PublicKey) (spki : List UInt8) (opener : WindowId) (origin : String) :
      v.bootstrap = .exporting publicKey → page.exportSpki publicKey = .ok spki →
      v.opener = some opener → v.parentOrigin = some origin →
      Move { v with
        bootstrap := .finished
        posted := v.posted ++
          [⟨opener, origin, .viewerReady 1 (.ofList (Base64.encode spki))⟩] }
  | refused (e : MessageEvent) (errors : List Posted) (r : Registry) (error : String) :
      v.heeds e = true → v.keyPair = none →
      (∀ p ∈ errors, p.message.isError = true ∧ v.Addressed p) →
      Move (({ v with
        heeded := v.heeded ++ [e]
        registry := r
        posted := v.posted ++ errors } : Viewer PrivateKey PublicKey).ackFailed e error)
  | accepted (e : MessageEvent) (keyPair : PrivateKey × PublicKey) :
      v.heeds e = true → v.keyPair = some keyPair →
      Move { v with
        heeded := v.heeded ++ [e], sessionStarted := true, handOver := .decrypting e keyPair.1 }
  | decrypted (e : MessageEvent) (privateKey : PrivateKey) (token : String) :
      v.handOver = .decrypting e privateKey →
      page.decryptToken privateKey e.data.encryptedToken = .ok token →
      Move { v with handOver := .waiting e token }
  | connectSet : Move { v with connectReady := true }
  | called (e : MessageEvent) (token : String) :
      v.handOver = .waiting e token → v.connectReady = true →
      Move { v with
        handOver := .connecting e
        connects := v.connects ++ [⟨e.data.clientId, token, e.data.remoteSessionId⟩] }
  | returned (e : MessageEvent) (value : Bool) : v.handOver = .connecting e →
      Move { v with
        handOver := .ended
        posted := v.posted ++ [⟨e.source, e.origin, .ack value none⟩] }
  | failed (e : MessageEvent) (errors : List Posted) (r : Registry) (error : String) :
      v.handOver.pending = some e →
      (∀ p ∈ errors, p.message.isError = true ∧ v.Addressed p) →
      Move { ({ v with registry := r, posted := v.posted ++ errors } :
        Viewer PrivateKey PublicKey).ackFailed e error with handOver := .ended }

/-- What an error report posts. -/
theorem exists_notifyParentError (box : FatalBox) :
    ∃ errors, v.notifyParentError box = { v with posted := v.posted ++ errors } ∧
      ∀ p ∈ errors, p.message.isError = true ∧ v.Addressed p := by
  unfold notifyParentError
  split
  · rename_i target origin htarget horigin
    refine ⟨_, rfl, fun p hp => ?_⟩
    obtain rfl := List.mem_singleton.mp hp
    refine ⟨rfl, horigin.symm, ?_⟩
    cases hopener : v.opener with
    | some opener =>
      rw [getParentTarget, hopener] at htarget
      exact .inl htarget.symm
    | none =>
      rw [getParentTarget, hopener] at htarget
      exact .inr ⟨rfl, rfl, htarget.symm⟩
  · exact ⟨[], by simp, by simp⟩

/-- Reporting an error posts errors only. -/
theorem exists_reportFatal (r : Registry) (box : FatalBox) :
    ∃ errors, v.reportFatal r box = { v with posted := v.posted ++ errors } ∧
      ∀ p ∈ errors, p.message.isError = true ∧ v.Addressed p := by
  unfold reportFatal
  cases r.endsFileTransferOnly with
  | true => exact ⟨[], by simp, by simp⟩
  | false => exact v.exists_notifyParentError _

/-- Showing an error posts errors only. -/
theorem exists_showFatalError (box : FatalBox) :
    ∃ errors, v.showFatalError box =
        { v with posted := v.posted ++ errors, registry := v.registry.showFatalError } ∧
      ∀ p ∈ errors, p.message.isError = true ∧ v.Addressed p := by
  obtain ⟨errors, heq, herrors⟩ := v.exists_reportFatal v.registry box
  exact ⟨errors, by rw [showFatalError, heq], herrors⟩

/-- Telling the opener of an error is a move. -/
theorem move_notifyParentError (box : FatalBox) (b : Bootstrap PublicKey)
    (hb : b = v.bootstrap ∨ b = .finished) :
    v.Move page { v.notifyParentError box with bootstrap := b } := by
  obtain ⟨errors, heq, herrors⟩ := v.exists_notifyParentError box
  rw [heq]
  exact .reported errors v.registry b herrors hb

/-- Nothing is posted. -/
theorem move_quiet (r : Registry) (b : Bootstrap PublicKey)
    (hb : b = v.bootstrap ∨ b = .finished) :
    v.Move page { v with registry := r, bootstrap := b } := by
  have hmove : v.Move page { v with posted := v.posted ++ [], registry := r, bootstrap := b } :=
    .reported [] r b (by simp) hb
  rwa [List.append_nil] at hmove

/-- A call of the session is a move. -/
theorem move_sessionCall (e : SessionEvent) (box : FatalBox) :
    v.Move page (v.sessionCall e box) := by
  unfold sessionCall
  cases v.registry.fatalIn e with
  | none => exact v.move_quiet page (v.registry.step e) v.bootstrap (.inl rfl)
  | some r =>
    obtain ⟨errors, heq, herrors⟩ := v.exists_reportFatal r box
    dsimp only
    rw [heq]
    exact .reported errors (v.registry.step e) v.bootstrap herrors (.inl rfl)

/-- A message of another window is a move. -/
theorem move_onMessage (e : MessageEvent) : v.Move page (v.onMessage e) := by
  unfold onMessage
  split_ifs with hheeds
  · dsimp only
    split
    · rename_i hkey
      obtain ⟨errors, heq, herrors⟩ :=
        ({ v with heeded := v.heeded ++ [e] } : Viewer PrivateKey PublicKey).exists_showFatalError
          ⟨"Error", "viewer not initialized", "error"⟩
      rw [heq]
      exact .refused e errors v.registry.showFatalError "viewer not initialized" hheeds hkey herrors
    · rename_i privateKey publicKey hkey
      exact .accepted e (privateKey, publicKey) hheeds hkey
  · exact v.move_quiet page v.registry v.bootstrap (.inl rfl)

/-- A hand-over that fails is a move. -/
theorem move_handOverFailed {e : MessageEvent} (he : v.handOver.pending = some e) (err : Thrown) :
    v.Move page (v.handOverFailed e err) := by
  unfold handOverFailed
  obtain ⟨errors, heq, herrors⟩ := v.exists_showFatalError
    ⟨"Error", if err.message = "" then err.toString else err.message, "error"⟩
  dsimp only
  rw [heq]
  exact .failed e errors v.registry.showFatalError err.message he herrors

/-- Every event is one of the moves. -/
theorem step_move {e : ViewerEvent PrivateKey PublicKey} {t : Viewer PrivateKey PublicKey}
    (h : v.step page e = some t) : v.Move page t := by
  cases e with
  | keyGenerated keyPair =>
    cases hboot : v.bootstrap with
    | generating =>
      simp only [step, hboot, Option.some.injEq] at h
      exact h ▸ .keyed keyPair hboot
    | exporting | finished => simp [step, hboot] at h
  | keyFailed =>
    cases hboot : v.bootstrap with
    | generating =>
      simp only [step, hboot, Option.some.injEq] at h
      exact h ▸ v.move_notifyParentError page _ .finished (.inr rfl)
    | exporting | finished => simp [step, hboot] at h
  | keyExported =>
    cases hboot : v.bootstrap with
    | generating | finished => simp [step, hboot] at h
    | exporting publicKey =>
      simp only [step, hboot] at h
      cases hspki : page.exportSpki publicKey with
      | error =>
        simp only [hspki, Option.some.injEq] at h
        exact h ▸ v.move_notifyParentError page _ .finished (.inr rfl)
      | ok spki =>
        simp only [hspki] at h
        split at h
        · rename_i opener origin hopener horigin
          exact Option.some.inj h ▸ .ready publicKey spki opener origin hboot hspki hopener horigin
        · rw [← Option.some.inj h]
          exact v.move_quiet page v.registry .finished (.inr rfl)
  | message e =>
    rw [← Option.some.inj h]
    exact v.move_onMessage page e
  | tokenDecrypted =>
    cases hover : v.handOver with
    | decrypting e privateKey =>
      simp only [step, hover] at h
      cases htoken : page.decryptToken privateKey e.data.encryptedToken with
      | ok token =>
        simp only [htoken, Option.some.injEq] at h
        exact h ▸ .decrypted e privateKey token hover htoken
      | error err =>
        simp only [htoken, Option.some.injEq] at h
        exact h ▸ v.move_handOverFailed page (by rw [hover]; rfl) err
    | idle | waiting | connecting | ended => simp [step, hover] at h
  | connectSet => exact Option.some.inj h ▸ .connectSet
  | connectCalled =>
    cases hover : v.handOver with
    | waiting e token =>
      simp only [step, hover] at h
      split_ifs at h with hready
      exact Option.some.inj h ▸ .called e token hover hready
    | idle | decrypting | connecting | ended => simp [step, hover] at h
  | connectReturned result =>
    cases hover : v.handOver with
    | connecting e =>
      simp only [step, hover] at h
      cases result with
      | ok value => exact Option.some.inj h ▸ .returned e value hover
      | error err => exact Option.some.inj h ▸ v.move_handOverFailed page (by rw [hover]; rfl) err
    | idle | decrypting | waiting | ended => simp [step, hover] at h
  | session e box =>
    rw [step] at h
    split_ifs at h
    exact Option.some.inj h ▸ v.move_sessionCall page e box
  | notified box =>
    obtain ⟨errors, heq, herrors⟩ := v.exists_notifyParentError box
    rw [← Option.some.inj h, heq]
    exact .reported errors v.registry v.bootstrap herrors (.inl rfl)

/-! ### What every event keeps -/

/-- What the stage of the hand-over says about the rest. -/
def Fits : Prop :=
  match v.handOver with
  | .idle => v.connects = []
  | .decrypting e privateKey =>
    e ∈ v.heeded ∧ v.connects = [] ∧ ∃ publicKey, v.keyPair = some (privateKey, publicKey)
  | .waiting e token => e ∈ v.heeded ∧ v.connects = [] ∧ v.Opens page e token
  | .connecting e => e ∈ v.heeded ∧ v.connects ≠ []
  | .ended => True

/-- What a viewer keeps from step to step. -/
structure Sound : Prop where
  safe : v.Safe page
  fits : v.Fits page
  /-- Without a user interface nothing is answered or called. -/
  early : v.connectReady = false → v.answers = [] ∧ v.connects = []
  fresh : v.sessionStarted = false → v.handOver = .idle
  unkeyed : v.bootstrap = .generating → v.keyPair = none
  exporting : ∀ publicKey, v.bootstrap = .exporting publicKey →
    ∃ privateKey, v.keyPair = some (privateKey, publicKey)

variable {page v}

/-- A message that is heeded comes from the opener. -/
theorem fromOpener_of_heeds {e : MessageEvent} (h : v.heeds e = true) : v.FromOpener e := by
  simp only [heeds, Bool.and_eq_true, decide_eq_true_eq] at h
  obtain ⟨⟨⟨⟨htype, hcomplete⟩, -⟩, horigin⟩, hsource⟩ := h
  exact ⟨htype, hcomplete, horigin, hsource⟩

/-- It comes before the session has started. -/
theorem not_started_of_heeds {e : MessageEvent} (h : v.heeds e = true) :
    v.sessionStarted = false := by
  simp only [heeds, Bool.and_eq_true] at h
  simpa using h.1.1.2

/-- An answer goes to where the message came from. -/
theorem addressed_answer {e : MessageEvent} (h : v.FromOpener e) (message : ViewerMessage) :
    v.Addressed ⟨e.source, e.origin, message⟩ :=
  ⟨h.2.2.1, .inl h.2.2.2⟩

/-- An error neither publishes a key nor acknowledges anything. -/
theorem isError_cases {p : Posted} (h : p.message.isError = true) :
    p.message.isAck = false ∧ (∀ version publicKey, p.message ≠ .viewerReady version publicKey) ∧
      ∀ result error, p.message ≠ .ack result error := by
  cases hmessage : p.message with
  | viewerError => exact ⟨rfl, nofun, nofun⟩
  | viewerReady | ack => simp [hmessage, ViewerMessage.isError] at h

/-- Errors answer no hand-over. -/
theorem answers_errors {errors : List Posted}
    (h : ∀ p ∈ errors, p.message.isError = true ∧ v.Addressed p) :
    errors.filter (·.message.isAck) = [] := by
  refine List.filter_eq_nil_iff.mpr fun p hp => ?_
  rw [(isError_cases (h p hp).1).1]
  exact Bool.false_ne_true

/-- A hand-over that is under way is that of a heeded message. -/
theorem Fits.pending_mem (h : v.Fits page) {e : MessageEvent}
    (he : v.handOver.pending = some e) : e ∈ v.heeded := by
  unfold Fits at h
  cases hover : v.handOver with
  | idle | ended => simp [hover, HandOver.pending] at he
  | decrypting e' privateKey =>
    rw [hover] at h he
    exact Option.some.inj he ▸ h.1
  | waiting e' token =>
    rw [hover] at h he
    exact Option.some.inj he ▸ h.1
  | connecting e' =>
    rw [hover] at h he
    exact Option.some.inj he ▸ h.1

/-- Error reports keep a viewer safe. -/
theorem Safe.errors (h : v.Safe page) {errors : List Posted}
    (herrors : ∀ p ∈ errors, p.message.isError = true ∧ v.Addressed p) (r : Registry)
    (b : Bootstrap PublicKey) :
    ({ v with posted := v.posted ++ errors, registry := r, bootstrap := b } :
      Viewer PrivateKey PublicKey).Safe page where
  addressed := List.forall_mem_append.mpr ⟨h.addressed, fun p hp => (herrors p hp).2⟩
  publishes := List.forall_mem_append.mpr ⟨h.publishes, fun p hp version publicKey heq =>
    absurd heq ((isError_cases (herrors p hp).1).2.1 version publicKey)⟩
  fromOpener := h.fromOpener
  answered := by
    have hanswered := h.answered
    rw [answers] at hanswered
    rw [answers, List.filter_append, answers_errors herrors, List.append_nil]
    exact hanswered
  once := h.once
  askedFor := h.askedFor
  acknowledged := List.forall_mem_append.mpr ⟨h.acknowledged, fun p hp error heq =>
    absurd heq ((isError_cases (herrors p hp).1).2.2 true error)⟩

/-- So does the answer to the message that waits for one. -/
theorem Safe.answer (h : v.Safe page) {e : MessageEvent} (he : v.handOver.pending = some e)
    (hfrom : v.FromOpener e) {result : Bool} {error : Option String}
    (hconnect : result = true → v.connects ≠ []) :
    ({ v with
        handOver := .ended
        posted := v.posted ++ [⟨e.source, e.origin, .ack result error⟩] } :
      Viewer PrivateKey PublicKey).Safe page where
  addressed := List.forall_mem_append.mpr ⟨h.addressed,
    List.forall_mem_singleton.mpr (addressed_answer hfrom _)⟩
  publishes := List.forall_mem_append.mpr ⟨h.publishes, by simp⟩
  fromOpener := h.fromOpener
  answered := by
    have hanswered := h.answered
    rw [he, answers] at hanswered
    rw [answers, List.filter_append, List.map_append]
    simpa [ViewerMessage.isAck, HandOver.pending, MessageEvent.sender] using hanswered
  once := h.once
  askedFor := h.askedFor
  acknowledged := List.forall_mem_append.mpr ⟨h.acknowledged, by
    intro p hp error' heq
    obtain rfl := List.mem_singleton.mp hp
    cases heq
    exact hconnect rfl⟩

/-- The message that waits for an answer gets none. -/
theorem Safe.abandon (h : v.Safe page) {e : MessageEvent} (he : v.handOver.pending = some e)
    (hnone : v.answers = []) :
    ({ v with handOver := .ended, abandoned := v.abandoned ++ [e] } :
      Viewer PrivateKey PublicKey).Safe page where
  addressed := h.addressed
  publishes := h.publishes
  fromOpener := h.fromOpener
  answered := by
    have hanswered := h.answered
    rw [he, hnone] at hanswered
    have hnone' : ({ v with handOver := .ended, abandoned := v.abandoned ++ [e] } :
        Viewer PrivateKey PublicKey).answers = [] := hnone
    rw [hnone']
    simpa [HandOver.pending] using hanswered
  once := h.once
  askedFor := h.askedFor
  acknowledged := h.acknowledged

/-- A viewer that called the session has a user interface. -/
theorem Sound.ready_of_connects (h : v.Sound page) (hne : v.connects ≠ []) :
    v.connectReady = true := by
  cases hready : v.connectReady with
  | true => rfl
  | false => exact absurd (h.early hready).2 hne

/-- A viewer without a key has called nothing and waits for nothing. -/
theorem Sound.of_unkeyed (h : v.Sound page) (hkey : v.keyPair = none) :
    v.connects = [] ∧ v.handOver.pending = none := by
  have hconnects : v.connects = [] := by
    cases hcalls : v.connects with
    | nil => rfl
    | cons call rest =>
      obtain ⟨e, _, ⟨privateKey, publicKey, hsome, _⟩, _⟩ :=
        h.safe.askedFor call (hcalls ▸ List.mem_cons_self)
      exact absurd (hkey.symm.trans hsome) (by simp)
  refine ⟨hconnects, ?_⟩
  have hfits := h.fits
  unfold Fits at hfits
  cases hover : v.handOver with
  | idle | ended => rfl
  | decrypting e privateKey =>
    rw [hover] at hfits
    obtain ⟨_, _, publicKey, hsome⟩ := hfits
    exact absurd (hkey.symm.trans hsome) (by simp)
  | waiting e token =>
    rw [hover] at hfits
    obtain ⟨_, _, privateKey, publicKey, hsome, _⟩ := hfits
    exact absurd (hkey.symm.trans hsome) (by simp)
  | connecting e =>
    rw [hover] at hfits
    exact absurd hconnects hfits.2

/-- A viewer without a hand-over and without calls is fit. -/
theorem fits_of_pending (hpending : v.handOver.pending = none) (hconnects : v.connects = []) :
    v.Fits page := by
  unfold Fits
  cases hover : v.handOver with
  | idle => exact hconnects
  | ended => trivial
  | decrypting | waiting | connecting => simp [hover, HandOver.pending] at hpending

/-- No key was there to publish, and none to decrypt with. -/
theorem Sound.keyed (h : v.Sound page) (hkey : v.keyPair = none)
    (keyPair : PrivateKey × PublicKey) :
    ({ v with keyPair := some keyPair, bootstrap := .exporting keyPair.2 } :
      Viewer PrivateKey PublicKey).Sound page where
  safe :=
    { addressed := h.safe.addressed
      publishes := by
        intro p hp version publicKey heq
        obtain ⟨privateKey, own, spki, hsome, _⟩ := h.safe.publishes p hp version publicKey heq
        exact absurd (hkey.symm.trans hsome) (by simp)
      fromOpener := h.safe.fromOpener
      answered := h.safe.answered
      once := h.safe.once
      askedFor := by simp [(h.of_unkeyed hkey).1]
      acknowledged := h.safe.acknowledged }
  fits := fits_of_pending (h.of_unkeyed hkey).2 (h.of_unkeyed hkey).1
  early := h.early
  fresh := h.fresh
  unkeyed hgenerating := by cases hgenerating
  exporting publicKey hexporting := by
    cases hexporting
    exact ⟨keyPair.1, rfl⟩

/-- Publishing the key keeps a viewer sound. -/
theorem Sound.ready (h : v.Sound page) {publicKey : PublicKey} {spki : List UInt8}
    {opener : WindowId} {origin : String} (hexporting : v.bootstrap = .exporting publicKey)
    (hspki : page.exportSpki publicKey = .ok spki) (hopener : v.opener = some opener)
    (horigin : v.parentOrigin = some origin) :
    ({ v with
        bootstrap := .finished
        posted := v.posted ++
          [⟨opener, origin, .viewerReady 1 (.ofList (Base64.encode spki))⟩] } :
      Viewer PrivateKey PublicKey).Sound page where
  safe :=
    { addressed := List.forall_mem_append.mpr ⟨h.safe.addressed,
        List.forall_mem_singleton.mpr ⟨horigin.symm, .inl hopener.symm⟩⟩
      publishes := by
        refine List.forall_mem_append.mpr ⟨h.safe.publishes, List.forall_mem_singleton.mpr ?_⟩
        intro version published heq
        obtain ⟨privateKey, hkey⟩ := h.exporting publicKey hexporting
        cases heq
        exact ⟨privateKey, publicKey, spki, hkey, hspki, rfl⟩
      fromOpener := h.safe.fromOpener
      answered := by
        have hanswered := h.safe.answered
        rw [answers] at hanswered
        rw [answers, List.filter_append]
        simpa [ViewerMessage.isAck] using hanswered
      once := h.safe.once
      askedFor := h.safe.askedFor
      acknowledged := List.forall_mem_append.mpr ⟨h.safe.acknowledged, by simp⟩ }
  fits := h.fits
  early hready := by
    obtain ⟨hanswers, hconnects⟩ := h.early hready
    refine ⟨?_, hconnects⟩
    rw [answers] at hanswers
    rw [answers, List.filter_append]
    simpa [ViewerMessage.isAck] using hanswers
  fresh := h.fresh
  unkeyed hgenerating := by cases hgenerating
  exporting publicKey hexporting := by cases hexporting

/-- A message is refused at once, with an answer where there is a user interface. -/
theorem Sound.refused (h : v.Sound page) {e : MessageEvent} (hfrom : v.FromOpener e)
    (hkey : v.keyPair = none) (error : String) :
    (({ v with heeded := v.heeded ++ [e] } : Viewer PrivateKey PublicKey).ackFailed e
      error).Sound page := by
  obtain ⟨hconnects, hpending⟩ := h.of_unkeyed hkey
  have hanswered := h.safe.answered
  have hfromOpener : ∀ m ∈ v.heeded ++ [e], v.FromOpener m :=
    List.forall_mem_append.mpr ⟨h.safe.fromOpener, List.forall_mem_singleton.mpr hfrom⟩
  by_cases hready : v.connectReady = true
  · rw [ackFailed, if_pos hready]
    refine ⟨⟨?_, ?_, hfromOpener, ?_, h.safe.once, ?_, ?_⟩, fits_of_pending hpending hconnects, ?_,
      h.fresh, h.unkeyed, h.exporting⟩
    · exact List.forall_mem_append.mpr ⟨h.safe.addressed,
        List.forall_mem_singleton.mpr (addressed_answer hfrom _)⟩
    · exact List.forall_mem_append.mpr ⟨h.safe.publishes, by simp⟩
    · rw [hpending, answers] at hanswered
      rw [post, answers, hpending, List.filter_append, List.map_append, List.map_append,
        ← hanswered]
      simp [ViewerMessage.isAck, MessageEvent.sender]
    · simp [post, hconnects]
    · exact List.forall_mem_append.mpr ⟨h.safe.acknowledged, by simp⟩
    · exact fun hnot => absurd (hready.symm.trans hnot) (by simp)
  · rw [ackFailed, if_neg hready]
    have hnone := (h.early (by simpa using hready)).1
    refine ⟨⟨h.safe.addressed, h.safe.publishes, hfromOpener, ?_, h.safe.once, ?_,
      h.safe.acknowledged⟩, fits_of_pending hpending hconnects, h.early, h.fresh, h.unkeyed,
      h.exporting⟩
    · rw [answers] at hnone
      rw [hpending, answers, hnone] at hanswered
      rw [answers, hnone, hpending, List.map_append, List.map_append, ← hanswered]
      simp
    · simp [hconnects]

/-- The first message that comes when the key is there is the last that is heeded. -/
theorem Sound.accepted (h : v.Sound page) {e : MessageEvent} (hheeds : v.heeds e = true)
    {keyPair : PrivateKey × PublicKey} (hkey : v.keyPair = some keyPair) :
    ({ v with
        heeded := v.heeded ++ [e], sessionStarted := true
        handOver := .decrypting e keyPair.1 } : Viewer PrivateKey PublicKey).Sound page := by
  have hfrom := fromOpener_of_heeds hheeds
  have hidle := h.fresh (not_started_of_heeds hheeds)
  have hconnects : v.connects = [] := by
    have hfits := h.fits
    rw [Fits, hidle] at hfits
    exact hfits
  refine ⟨⟨h.safe.addressed, h.safe.publishes, ?_, ?_, h.safe.once, ?_, h.safe.acknowledged⟩,
    ⟨by simp, hconnects, keyPair.2, hkey⟩, h.early, nofun, h.unkeyed, h.exporting⟩
  · exact List.forall_mem_append.mpr ⟨h.safe.fromOpener,
      List.forall_mem_singleton.mpr hfrom⟩
  · have hanswered := h.safe.answered
    rw [hidle, answers] at hanswered
    rw [answers, List.map_append, ← hanswered]
    simp [HandOver.pending]
  · simp [hconnects]

/-- A token that was decrypted keeps a viewer sound. -/
theorem Sound.decrypted (h : v.Sound page) {e : MessageEvent} {privateKey : PrivateKey}
    {token : String} (hover : v.handOver = .decrypting e privateKey)
    (htoken : page.decryptToken privateKey e.data.encryptedToken = .ok token) :
    ({ v with handOver := .waiting e token } : Viewer PrivateKey PublicKey).Sound page := by
  have hfits := h.fits
  rw [Fits, hover] at hfits
  obtain ⟨hmem, hconnects, publicKey, hkey⟩ := hfits
  refine ⟨⟨h.safe.addressed, h.safe.publishes, h.safe.fromOpener, ?_, h.safe.once,
    h.safe.askedFor, h.safe.acknowledged⟩, ⟨hmem, hconnects, privateKey, publicKey, hkey, htoken⟩,
    h.early, ?_, h.unkeyed, h.exporting⟩
  · have hanswered := h.safe.answered
    rw [hover] at hanswered
    exact hanswered
  · intro hfresh
    exact absurd (hover.symm.trans (h.fresh hfresh)) nofun

/-- The call of the session keeps a viewer sound. -/
theorem Sound.called (h : v.Sound page) {e : MessageEvent} {token : String}
    (hover : v.handOver = .waiting e token) (hready : v.connectReady = true) :
    ({ v with
        handOver := .connecting e
        connects := v.connects ++ [⟨e.data.clientId, token, e.data.remoteSessionId⟩] } :
      Viewer PrivateKey PublicKey).Sound page := by
  have hfits := h.fits
  rw [Fits, hover] at hfits
  obtain ⟨hmem, hconnects, hopens⟩ := hfits
  refine ⟨⟨h.safe.addressed, h.safe.publishes, h.safe.fromOpener, ?_, by simp [hconnects], ?_,
    fun _ _ _ _ => by simp⟩, ⟨hmem, by simp⟩, ?_, ?_, h.unkeyed, h.exporting⟩
  · have hanswered := h.safe.answered
    rw [hover] at hanswered
    exact hanswered
  · rw [hconnects]
    exact List.forall_mem_singleton.mpr ⟨e, hmem, hopens, rfl, rfl⟩
  · exact fun hnot => absurd (hready.symm.trans hnot) (by simp)
  · intro hfresh
    exact absurd (hover.symm.trans (h.fresh hfresh)) nofun

/-- The message that waits for its answer gets it. -/
theorem Sound.answer (h : v.Sound page) {e : MessageEvent} (he : v.handOver.pending = some e)
    (hready : v.connectReady = true) {result : Bool} {error : Option String}
    (hconnect : result = true → v.connects ≠ []) :
    ({ v with
        handOver := .ended
        posted := v.posted ++ [⟨e.source, e.origin, .ack result error⟩] } :
      Viewer PrivateKey PublicKey).Sound page where
  safe := h.safe.answer he (h.safe.fromOpener e (h.fits.pending_mem he)) hconnect
  fits := trivial
  early hnot := absurd (hready.symm.trans hnot) (by simp)
  fresh hfresh := by
    rw [h.fresh hfresh] at he
    cases he
  unkeyed := h.unkeyed
  exporting := h.exporting

/-- Or its handler throws first, where there is no user interface. -/
theorem Sound.ackFailed (h : v.Sound page) {e : MessageEvent} (he : v.handOver.pending = some e)
    (error : String) :
    ({ v.ackFailed e error with handOver := .ended } : Viewer PrivateKey PublicKey).Sound page := by
  by_cases hready : v.connectReady = true
  · rw [Viewer.ackFailed, if_pos hready]
    exact h.answer he hready nofun
  · rw [Viewer.ackFailed, if_neg hready]
    refine ⟨h.safe.abandon he (h.early (by simpa using hready)).1, trivial, h.early,
      fun hfresh => ?_, h.unkeyed, h.exporting⟩
    rw [h.fresh hfresh] at he
    cases he

/-- Errors keep a viewer sound. -/
theorem Sound.errors (h : v.Sound page) {errors : List Posted}
    (herrors : ∀ p ∈ errors, p.message.isError = true ∧ v.Addressed p) (r : Registry)
    {b : Bootstrap PublicKey} (hb : b = v.bootstrap ∨ b = .finished) :
    ({ v with posted := v.posted ++ errors, registry := r, bootstrap := b } :
      Viewer PrivateKey PublicKey).Sound page := by
  refine ⟨h.safe.errors herrors r b, h.fits, ?_, h.fresh, ?_, ?_⟩
  · intro hready
    obtain ⟨hanswers, hconnects⟩ := h.early hready
    refine ⟨?_, hconnects⟩
    rw [answers] at hanswers
    rw [answers, List.filter_append, answers_errors herrors, List.append_nil]
    exact hanswers
  · intro hgenerating
    rcases hb with rfl | rfl
    · exact h.unkeyed hgenerating
    · cases hgenerating
  · intro publicKey hexporting
    rcases hb with rfl | rfl
    · exact h.exporting publicKey hexporting
    · cases hexporting

/-- A move keeps a viewer sound. -/
theorem Sound.move {t : Viewer PrivateKey PublicKey} (h : v.Sound page) (hmove : v.Move page t) :
    t.Sound page := by
  cases hmove with
  | reported errors r b herrors hb => exact h.errors herrors r hb
  | keyed keyPair hgenerating => exact h.keyed (h.unkeyed hgenerating) keyPair
  | ready publicKey spki opener origin hexporting hspki hopener horigin =>
    exact h.ready hexporting hspki hopener horigin
  | refused e errors r error hheeds hkey herrors =>
    exact (h.errors herrors r (.inl rfl)).refused (fromOpener_of_heeds hheeds) hkey error
  | accepted e keyPair hheeds hkey => exact h.accepted hheeds hkey
  | decrypted e privateKey token hover htoken => exact h.decrypted hover htoken
  | connectSet =>
    exact ⟨⟨h.safe.addressed, h.safe.publishes, h.safe.fromOpener, h.safe.answered, h.safe.once,
      h.safe.askedFor, h.safe.acknowledged⟩, h.fits, nofun, h.fresh, h.unkeyed, h.exporting⟩
  | called e token hover hready => exact h.called hover hready
  | returned e value hover =>
    have hfits := h.fits
    rw [Fits, hover] at hfits
    exact h.answer (by rw [hover]; rfl) (h.ready_of_connects hfits.2) fun _ => hfits.2
  | failed e errors r error hpending herrors =>
    exact (h.errors herrors r (.inl rfl)).ackFailed hpending error

/-- One event keeps a viewer sound. -/
theorem Sound.step {e : ViewerEvent PrivateKey PublicKey} {t : Viewer PrivateKey PublicKey}
    (h : v.Sound page) (hstep : v.step page e = some t) : t.Sound page :=
  h.move (v.step_move page hstep)

/-- Once there is a user interface there always is one, and no handler throws any more. -/
theorem Move.abandoned {t : Viewer PrivateKey PublicKey} (hmove : v.Move page t)
    (hready : v.connectReady = true) : t.connectReady = true ∧ t.abandoned = v.abandoned := by
  cases hmove with
  | reported | keyed | ready | accepted | decrypted | called | returned => exact ⟨hready, rfl⟩
  | connectSet => exact ⟨rfl, rfl⟩
  | refused | failed =>
    rw [ackFailed, if_pos hready]
    exact ⟨hready, rfl⟩

end Viewer

end RdWeb.Web
