import RdWeb.Fuse.Mount

/-!
# Reads answer their own requests when they start settled

A late reply carries the stream id of the node, as the replies to the current read
do. The invariant says that while a read waits, everything unsettled under its
stream id is its own; only the start of a read has to ask for that.
-/

namespace RdWeb.Fuse

open RdWeb.Clipboard

namespace Mount

/-- What a run whose reads start settled keeps. -/
structure ReplyInvariant (s : Mount) : Prop where
  own : ∀ pending, s.reading = some pending →
    s.Settled pending.asked.request.streamId pending.asked.id
  recorded : ∀ origin reply, .response origin reply ∈ s.channel →
    (origin.id, reply.requestedData) ∈ s.produced ∧ reply.streamId = origin.request.streamId
  answered : ∀ id bytes, (id, .ok bytes) ∈ s.finished → (id, bytes) ∈ s.produced

/-- The origins of a channel are those of its responses. -/
theorem mem_origins {channel : List Incoming} {asked : Asked} :
    asked ∈ origins channel ↔ ∃ reply, .response asked reply ∈ channel := by
  simp only [origins, List.mem_filterMap]
  constructor
  · rintro ⟨message, hmem, hsome⟩
    cases message with
    | response origin reply =>
      obtain rfl := Option.some.inj hsome
      exact ⟨reply, hmem⟩
    | other => cases hsome
  · rintro ⟨reply, hmem⟩
    exact ⟨_, hmem, rfl⟩

/-- A read that ends with bytes that were produced keeps the replies right. -/
theorem ReplyInvariant.finish {s : Mount} (inv : s.ReplyInvariant) (id : ReadId)
    {result : Except IoError (List UInt8)}
    (hresult : ∀ bytes, result = .ok bytes → (id, bytes) ∈ s.produced) :
    (s.finish id result).ReplyInvariant where
  own pending h := by cases h
  recorded := inv.recorded
  answered id' bytes h := by
    rcases List.mem_append.mp h with h | h
    · exact inv.answered id' bytes h
    · obtain ⟨rfl, hok⟩ := Prod.mk.inj (List.mem_singleton.mp h)
      exact hresult bytes hok.symm

/-- Sending a request of the read itself leaves the read settled. -/
theorem ReplyInvariant.send {s : Mount} (inv : s.ReplyInvariant) (pending : PendingRead)
    (failure : Option String)
    (hown : s.Settled pending.asked.request.streamId pending.asked.id) :
    (s.send pending failure).ReplyInvariant := by
  cases failure with
  | some e => exact inv.finish _ (by simp)
  | none =>
    refine ⟨?_, inv.recorded, inv.answered⟩
    intro pending' h asked hasked hstream
    obtain rfl : pending = pending' := Option.some.inj h
    rcases List.mem_append.mp hasked with hasked | hasked
    · rcases List.mem_append.mp hasked with hasked | hasked
      · exact hown asked (List.mem_append_left _ hasked) hstream
      · rw [List.mem_singleton.mp hasked]
    · exact hown asked (List.mem_append_right _ hasked) hstream

/-- Taking a message off the channel. -/
theorem ReplyInvariant.pop {s : Mount} (inv : s.ReplyInvariant) {message : Incoming}
    {channel : List Incoming} (hchannel : s.channel = message :: channel) :
    ReplyInvariant { s with channel := channel } := by
  have hsub : ∀ m ∈ channel, m ∈ s.channel := fun m hm => by simp [hchannel, hm]
  refine ⟨?_, fun origin reply h => inv.recorded origin reply (hsub _ h), inv.answered⟩
  intro pending h asked hasked hstream
  refine inv.own pending h asked ?_ hstream
  rcases List.mem_append.mp hasked with hasked | hasked
  · exact List.mem_append_left _ hasked
  · obtain ⟨reply, hreply⟩ := mem_origins.mp hasked
    exact List.mem_append_right _ (mem_origins.mpr ⟨reply, hsub _ hreply⟩)

/-- **One message.** The read returns the payload of a message only when the request it
answers is under the read's stream id, and then it is the read's own. -/
theorem ReplyInvariant.onMessage {s : Mount} (inv : s.ReplyInvariant) {pending : PendingRead}
    (hreading : s.reading = some pending) {message : Incoming} {channel : List Incoming}
    (hchannel : s.channel = message :: channel) (failure : Option String) :
    ({ s with channel := channel }.onMessage pending failure message).ReplyInvariant := by
  have inv' := inv.pop hchannel
  cases message with
  | other => exact inv'.finish _ (by simp)
  | response origin reply =>
    simp only [Mount.onMessage]
    split_ifs with hstream hfailed hretries
    · exact inv'
    · exact inv'.finish _ (by simp)
    · exact inv'.send _ failure (inv'.own pending hreading)
    · refine inv'.finish _ ?_
      intro bytes hbytes
      obtain rfl := Except.ok.inj hbytes
      have hmem : .response origin reply ∈ s.channel := by simp [hchannel]
      obtain ⟨hproduced, hecho⟩ := inv.recorded origin reply hmem
      have hown := inv.own pending hreading origin
        (List.mem_append_right _ (mem_origins.mpr ⟨reply, hmem⟩)) (hecho.symm.trans (by
          simpa using hstream))
      rwa [← hown]

/-- **One step.** -/
theorem ReplyInvariant.step {s t : Mount} {e : MountEvent} (hok : s.StartsSettled e)
    (hstep : s.step e = some t) (inv : s.ReplyInvariant) : t.ReplyInvariant := by
  cases e with
  | op o =>
    rw [Mount.step] at hstep
    split_ifs at hstep with hidle
    obtain rfl := Option.some.inj hstep
    exact ⟨inv.own, inv.recorded, inv.answered⟩
  | read ino fh offset size failure =>
    rw [Mount.step] at hstep
    split_ifs at hstep with hidle
    obtain rfl := Option.some.inj hstep
    unfold startRead
    simp only [StartsSettled] at hok
    cases hchecks : s.server.readChecks ino fh with
    | error e => exact inv
    | ok node =>
      rw [hchecks] at hok
      exact inv.send _ failure hok
  | reply i msgFlags requestedData =>
    obtain ⟨asked, hget, rfl⟩ := Option.map_eq_some_iff.mp hstep
    have hin : asked ∈ s.outstanding := List.mem_of_getElem? hget
    refine ⟨?_, ?_, ?_⟩
    · intro pending h other hother hstream
      refine inv.own pending h other ?_ hstream
      rcases List.mem_append.mp hother with hother | hother
      · exact List.mem_append_left _ (List.mem_of_mem_eraseIdx hother)
      · obtain ⟨reply, hreply⟩ := mem_origins.mp hother
        rcases List.mem_append.mp hreply with hreply | hreply
        · exact List.mem_append_right _ (mem_origins.mpr ⟨reply, hreply⟩)
        · obtain ⟨rfl, -⟩ := Incoming.response.inj (List.mem_singleton.mp hreply)
          exact List.mem_append_left _ hin
    · intro origin reply h
      rcases List.mem_append.mp h with h | h
      · obtain ⟨hproduced, hecho⟩ := inv.recorded origin reply h
        exact ⟨List.mem_append_left _ hproduced, hecho⟩
      · obtain ⟨rfl, rfl⟩ := Incoming.response.inj (List.mem_singleton.mp h)
        exact ⟨List.mem_append_right _ (List.mem_singleton_self _), rfl⟩
    · intro id bytes h
      exact List.mem_append_left _ (inv.answered id bytes h)
  | other =>
    obtain rfl := Option.some.inj hstep
    refine ⟨?_, ?_, inv.answered⟩
    · intro pending h asked hasked hstream
      refine inv.own pending h asked ?_ hstream
      simpa [unsettled, origins] using hasked
    · intro origin reply h
      refine inv.recorded origin reply ?_
      simpa using h
  | receive failure =>
    cases hreading : s.reading with
    | none => simp [Mount.step, hreading] at hstep
    | some pending =>
      cases hchannel : s.channel with
      | nil => simp [Mount.step, hreading, hchannel] at hstep
      | cons message channel =>
        simp only [Mount.step, hreading, hchannel, Option.some.injEq] at hstep
        subst hstep
        have hnext := inv.onMessage hreading hchannel failure
        rwa [hreading] at hnext
  | timeout =>
    cases hreading : s.reading with
    | none => simp [Mount.step, hreading] at hstep
    | some pending =>
      cases hchannel : s.channel with
      | cons message channel => simp [Mount.step, hreading, hchannel] at hstep
      | nil =>
        simp only [Mount.step, hreading, hchannel, Option.some.injEq] at hstep
        subst hstep
        exact inv.finish _ (by simp)

/-- **Reads answer their own requests.** In every run whose reads start settled, the
bytes a read returns are the payload of a reply to a request of that node, offset and
size. -/
theorem answered_of_startsSettled {events : List MountEvent} {s : Mount}
    (hrun : mountMachine.RunWhere StartsSettled mountMachine.init events s) {id : ReadId}
    {bytes : List UInt8} (h : (id, .ok bytes) ∈ s.finished) : (id, bytes) ∈ s.produced := by
  have hinit : mountMachine.init.ReplyInvariant := by
    refine ⟨?_, ?_, ?_⟩ <;> simp [mountMachine]
  have inv := hrun.invariant (fun _ _ _ hok hstep hs => hs.step hok hstep) hinit
  exact inv.answered id bytes h

/-- A file is loaded and opened, and two reads of it are answered, one after the other. -/
def twoReads : List MountEvent :=
  [.op (.loadFileList 0 [(emptyFile [97], 7)]), .op (.open 2), .read 2 0 0 4 none,
    .reply 0 1 [1, 2], .receive none, .read 2 0 4 4 none, .reply 0 1 [3], .receive none]

/-- The mount after those reads. -/
def afterTwoReads : Mount :=
  (mountMachine.replayWhere StartsSettled mountMachine.init twoReads).getD mountMachine.init

/-- The run of two reads. -/
theorem replay_twoReads :
    mountMachine.replayWhere StartsSettled mountMachine.init twoReads = some afterTwoReads := rfl

/-- `answered_of_startsSettled` on those reads. -/
theorem answered_two_reads : (⟨1, 2, 0, 4⟩, [1, 2]) ∈ afterTwoReads.produced ∧
    (⟨1, 2, 4, 4⟩, [3]) ∈ afterTwoReads.produced :=
  ⟨answered_of_startsSettled (Machine.runWhere_of_replayWhere replay_twoReads) (by decide),
    answered_of_startsSettled (Machine.runWhere_of_replayWhere replay_twoReads) (by decide)⟩

/-- The reply to a read that timed out arrives while the next read of the file waits. -/
def lateReply : List MountEvent :=
  [.op (.loadFileList 0 [(emptyFile [97], 7)]), .op (.open 2), .read 2 0 0 4 none, .timeout,
    .read 2 0 4 4 none, .reply 0 1 [1, 2], .receive none]

/-- The second read returns the bytes asked for by the first. -/
theorem not_answered_late_reply :
    ¬ ∀ s, mountMachine.Reachable s → ∀ id bytes, (id, .ok bytes) ∈ s.finished →
      (id, bytes) ∈ s.produced := by
  intro h
  have hreached : mountMachine.Reachable _ :=
    ⟨lateReply, Machine.run_of_replay rfl⟩
  exact absurd (h _ hreached ⟨1, 2, 4, 4⟩ [1, 2] (by decide)) (by decide)

end Mount

end RdWeb.Fuse
