import RdWeb.FileTransfer.UploadStart

/-!
# Whether an upload ends as the host expects

Files are announced, sent and passed in the order of the listing. The pump closes the upload
with a `Done` behind the last file; a last file that is skipped is passed by
`advanceUploadAfterFile`, which reports the end to the user interface and tells the host
nothing.
-/

namespace RdWeb.FileTransfer

namespace Upload

variable {up : Upload} {s t u : FtConnection}

/-- Behind all other files stands the last one. -/
theorem last_of_listing {passed : List Listed} {f : Listed} (h : up.listing = passed ++ [f]) :
    up.last = f := by
  simp only [last, h, List.getLast_append_singleton]

/-- An upload that has ended without being dropped has come to its last file. -/
theorem Tracks.ended (h : up.Tracks False u) (hgone : u.readJobs.get? up.id = none) :
    ∃ passed a sent, up.listing = passed ++ [up.last] ∧
      answer? up.id up.last.1 (up.since u) = some a ∧
      up.unsent ++ queuedAbout up.id (up.since u) = up.receive ::
        (passed.flatMap (·.messages up.id (up.since u)) ++ up.last.digest up.id :: sent) ∧
      sent = match a with
        | .skip => []
        | .goOn offsetBlk =>
          up.last.answered up.id (.goOn offsetBlk) ++ [.done up.id up.last.1] := by
  obtain ⟨-, -, passed, f, rest, sent, hat⟩ := h
  have hdropped {p : Prop} (hlasts : up.Lasts False (up.view u)) : p := by
    rcases hlasts with hlive | ⟨hfalse, -⟩
    · exact absurd (hgone.symm.trans hlive) (by simp)
    · exact hfalse.elim
  have hlisting := hat.listing
  have hqueued := hat.queued
  cases hat.stage with
  | waiting _ _ _ _ hlasts => exact hdropped hlasts
  | sending _ _ _ hlasts => exact hdropped hlasts
  | finished hanswer _ _ hrest =>
    subst hrest
    obtain rfl := last_of_listing hlisting
    exact ⟨passed, _, _, hlisting, hanswer, hqueued, rfl⟩
  | skipped hanswer _ _ hrest =>
    subst hrest
    obtain rfl := last_of_listing hlisting
    exact ⟨passed, _, _, hlisting, hanswer, hqueued, rfl⟩

/-- **The protocol of an upload.** An upload that is answered in turn and ends without error,
cancellation and disconnection queues its protocol if and only if its last file is not
skipped. -/
theorem protocol_iff (decompress : List UInt8 → Option (List UInt8)) (registered : Bool)
    {c : BridgeCall} {events : List FtEvent}
    (hreach : (ftMachine decompress registered).Reachable s) (hbegins : c.Begins s up)
    (hunsent : up.unsent = []) (hresting : PumpPhase.Resting (s.phaseOf up.id))
    (hstart : s.step decompress (.call c) = some t)
    (hrun : (ftMachine decompress registered).RunWhere (fun s e => e.InTurn up.id s ∧
      (e.Drops up.id s → s.readJobs.get? up.id = none)) t events u)
    (hended : u.readJobs.get? up.id = none) :
    queuedAbout up.id (up.since u) = up.protocol (up.since u) ↔
      answer? up.id up.last.1 (up.since u) ≠ some .skip := by
  have hkeyed := (FtConnection.keyed_of_reachable hreach).step hstart
  have htracks : up.Tracks False u :=
    tracks_run (tracks_start hbegins hresting hstart) hkeyed
      (hrun.mono fun _ _ hok => ⟨hok.1, fun hdrop => .inr (hok.2 hdrop)⟩)
  obtain ⟨passed, a, sent, hlisting, hanswer, hqueued, hsent⟩ := htracks.ended hended
  have hprotocol : up.protocol (up.since u) = up.receive ::
      (passed.flatMap (·.messages up.id (up.since u)) ++ up.last.digest up.id ::
        (up.last.answered up.id a ++ [.done up.id up.last.1])) := by
    rw [protocol, hlisting, List.flatMap_append, List.flatMap_singleton,
      Listed.messages_of_answer hanswer]
    simp
  rw [hunsent, List.nil_append] at hqueued
  rw [hqueued, hprotocol, hanswer]
  cases a with
  | skip =>
    subst hsent
    simp [Listed.answered]
  | goOn offsetBlk =>
    subst hsent
    simp

/-! ## A folder of two files -/

/-- Both files are confirmed, the second with an offset behind its end. -/
theorem protocol_iff_confirmed :
    ∃ t u, demoConnected.step (fun _ => none)
        (.call (.sendFolderUpload 1 (some demoPlan) "/tmp/d" false)) = some t ∧
      FtConnection.demoMachine.Run t [.host (.sendConfirm 1 0 false 0), .sliceRead none,
        .pumpContinues, .host (.sendConfirm 1 1 false 1), .pumpContinues] u ∧
      queuedAbout 1 (demoFolder.since u) = demoFolder.protocol (demoFolder.since u) := by
  have hrun : FtConnection.demoMachine.RunWhere (fun s e => e.InTurn demoFolder.id s ∧
      (e.Drops demoFolder.id s → s.readJobs.get? demoFolder.id = none)) (demoFolderRun [])
      [.host (.sendConfirm 1 0 false 0), .sliceRead none, .pumpContinues,
        .host (.sendConfirm 1 1 false 1), .pumpContinues]
      (demoFolderRun [.host (.sendConfirm 1 0 false 0), .sliceRead none, .pumpContinues,
        .host (.sendConfirm 1 1 false 1), .pumpContinues]) :=
    .cons ⟨inTurn_of_waiting rfl rfl rfl, fun h => h.elim⟩ rfl <|
      .cons ⟨trivial, fun h => h.elim⟩ rfl <| .cons ⟨trivial, fun h => h.elim⟩ rfl <|
      .cons ⟨inTurn_of_waiting rfl rfl rfl, fun h => h.elim⟩ rfl <|
      .single ⟨trivial, fun h => h.elim⟩ rfl
  have hanswer : answer? 1 demoFolder.last.1 (demoFolder.since
      (demoFolderRun [.host (.sendConfirm 1 0 false 0), .sliceRead none, .pumpContinues,
        .host (.sendConfirm 1 1 false 1), .pumpContinues])) ≠ some .skip := by decide
  exact ⟨_, _, rfl, hrun.run, (protocol_iff (fun _ => none) true reachable_demoConnected
    .sendFolderUpload rfl (resting_demoConnected 1) rfl hrun rfl).mpr hanswer⟩

/-- The second file is skipped: the host waits for a `Done`, and the user interface is told that
the upload is done. -/
theorem not_protocol_skipped :
    ∃ t u, demoConnected.step (fun _ => none)
        (.call (.sendFolderUpload 1 (some demoPlan) "/tmp/d" false)) = some t ∧
      FtConnection.demoMachine.RunWhere (fun s e => e.InTurn 1 s ∧
        (e.Drops 1 s → s.readJobs.get? 1 = none)) t [.host (.sendConfirm 1 0 false 0),
          .sliceRead none, .pumpContinues, .host (.sendConfirm 1 1 true 0)] u ∧
      u.readJobs.get? 1 = none ∧ .event (.jobDone 1 1) ∈ u.log ∧
      queuedAbout 1 (demoFolder.since u) =
        [demoFolder.receive, .digest 1 0 3 0, .block 1 0 [1, 2, 3] false 1, .digest 1 1 2 0] ∧
      queuedAbout 1 (demoFolder.since u) ≠ demoFolder.protocol (demoFolder.since u) := by
  have hreported : Observation.event (.jobDone 1 1) ∈
      (demoFolderRun [.host (.sendConfirm 1 0 false 0), .sliceRead none, .pumpContinues,
        .host (.sendConfirm 1 1 true 0)]).log :=
    List.mem_append_right _ (List.mem_singleton.mpr rfl)
  have hqueued : queuedAbout 1 (demoFolder.since (demoFolderRun [.host (.sendConfirm 1 0 false 0),
      .sliceRead none, .pumpContinues, .host (.sendConfirm 1 1 true 0)])) =
        [demoFolder.receive, .digest 1 0 3 0, .block 1 0 [1, 2, 3] false 1, .digest 1 1 2 0] := rfl
  have hclosed (log : List Observation) : .done 1 1 ∈ demoFolder.protocol log :=
    List.mem_cons_of_mem _ (List.mem_append_right _ (List.mem_singleton.mpr rfl))
  refine ⟨demoFolderRun [], demoFolderRun [.host (.sendConfirm 1 0 false 0), .sliceRead none,
    .pumpContinues, .host (.sendConfirm 1 1 true 0)], rfl, ?_, rfl, hreported, hqueued, ?_⟩
  · exact .cons ⟨inTurn_of_waiting rfl rfl rfl, fun h => h.elim⟩ rfl <|
      .cons ⟨trivial, fun h => h.elim⟩ rfl <| .cons ⟨trivial, fun h => h.elim⟩ rfl <|
      .single ⟨inTurn_of_waiting rfl rfl rfl, fun h => h.elim⟩ rfl
  · intro heq
    have hmem := hclosed (demoFolder.since (demoFolderRun [.host (.sendConfirm 1 0 false 0),
      .sliceRead none, .pumpContinues, .host (.sendConfirm 1 1 true 0)]))
    rw [← heq, hqueued] at hmem
    simp [demoFolder, ofPlan] at hmem

end Upload

end RdWeb.FileTransfer
