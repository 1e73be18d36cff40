import RdWeb.FileTransfer.UploadContent

/-!
# Whether every confirmed file reaches the host

The host creates a file when a block of it arrives, and the pump queues no block without bytes. So
a file that is confirmed with an offset at or behind its end, as every empty file is, is passed
without a block.
-/

namespace RdWeb.FileTransfer

namespace Upload

variable {up : Upload} {d : Prop} {v : View} {passed rest : List Listed} {f g : Listed}
  {sent : List OutMessage} {s t u : FtConnection}

/-- A message that ends a file: the digest of a later file, or the `Done`. -/
def Closes (up : Upload) (n : ℤ) : OutMessage → Prop
  | .digest id m _ _ => id = up.id ∧ n < m
  | .done id _ => id = up.id
  | _ => False

/-- Every file that is confirmed has a block before what ends it. -/
def Arrives (up : Upload) (s : FtConnection) : Prop :=
  ∀ f ∈ up.listing, ∀ offsetBlk, answer? up.id f.1 (up.since s) = some (.goOn offsetBlk) →
    ∀ before m after, queuedAbout up.id (up.since s) = before ++ m :: after →
      up.Closes f.1 m → blocksOf f.1 before ≠ []

/-- The files that are passed are confirmed with an offset before their end. -/
def ConfirmedWithin (up : Upload) (s : FtConnection) : Prop :=
  ∀ f ∈ up.listing, up.Past s f.1 → ∀ offsetBlk,
    answer? up.id f.1 (up.since s) = some (.goOn offsetBlk) → offsetBlk * BLOCK_SIZE < f.2.size

/-- How the messages of an upload begin. -/
structure Opened (up : Upload) : Prop where
  plain : up.Plain
  receive_open : ∀ n, ¬ up.Closes n up.receive
  length_unsent : up.unsent.length ≤ 2

/-- All messages up to the last block of a file. -/
def upTo (up : Upload) (log : List Observation) (before : List Listed) (g : Listed)
    (offsetBlk : ℕ) : List OutMessage :=
  up.receive :: (before.flatMap (·.messages up.id log) ++
    g.digest up.id :: g.answered up.id (.goOn offsetBlk))

/-- A file has no block if the answer points to its end or past it. -/
theorem numbered_eq_nil_iff (g : Listed) (offsetBlk : ℕ) :
    g.numbered (.goOn offsetBlk) = [] ↔ ¬ offsetBlk * BLOCK_SIZE < g.2.size := by
  have hbytes : contents (g.numbered (.goOn offsetBlk)) =
      g.2.bytes.drop (offsetBlk * BLOCK_SIZE) := contents_numbered _ offsetBlk
  constructor
  · intro hnil
    rw [hnil] at hbytes
    have hlength := List.drop_eq_nil_iff.mp hbytes.symm
    exact Nat.not_lt.mpr hlength
  · intro hend
    have hdrop := List.drop_eq_nil_iff.mpr (Nat.not_lt.mp hend)
    rw [Listed.numbered, hdrop]
    simp [FileTransfer.numbered]

/-- The blocks of a file among the messages up to its last one. -/
theorem blocksOf_upTo (hopened : up.Opened) {log : List Observation} {before : List Listed}
    (hbefore : ∀ e ∈ before, e.1 ≠ g.1) (offsetBlk : ℕ) :
    blocksOf g.1 (up.upTo log before g offsetBlk) = g.numbered (.goOn offsetBlk) := by
  have hreceives : ∀ m ∈ [up.receive], m.Announces up.id := by simpa using hopened.plain.1
  have hdigest : blocksOf g.1 [g.digest up.id] = [] := rfl
  have hpassed : blocksOf g.1 (before.flatMap (·.messages up.id log)) = [] := by
    rw [blocksOf, List.filterMap_flatMap]
    exact flatMap_messages_other hbefore log
  rw [upTo, ← List.singleton_append, blocksOf_append, blocksOf_of_announces hreceives,
    List.nil_append, blocksOf_append, hpassed, List.nil_append, ← List.singleton_append,
    blocksOf_append, hdigest, List.nil_append, blocksOf_answered]

/-- The blocks of an answer close no file. -/
theorem not_closes_answered {n : ℤ} {a : Answer} {m : OutMessage}
    (hm : m ∈ g.answered up.id a) : ¬ up.Closes n m := by
  cases a with
  | skip => cases hm
  | goOn offsetBlk =>
    obtain ⟨piece, -, rfl⟩ := List.mem_map.mp hm
    exact fun hcloses => hcloses

/-- The messages of a file end no file from its number on. -/
theorem not_closes_messages {n : ℤ} (hn : g.1 ≤ n) {log : List Observation} {m : OutMessage}
    (hm : m ∈ g.messages up.id log) : ¬ up.Closes n m := by
  rcases List.mem_cons.mp hm with rfl | hm
  · rintro ⟨-, hlt⟩
    omega
  · cases ha : answer? up.id g.1 log with
    | none => simp [ha] at hm
    | some a =>
      rw [ha] at hm
      exact not_closes_answered hm

/-- Nothing up to the last block of a file ends it. -/
theorem not_closes_upTo (hopened : up.Opened) {log : List Observation} {before : List Listed}
    (hbefore : ∀ e ∈ before, e.1 ≤ g.1) {offsetBlk : ℕ} {m : OutMessage}
    (hm : m ∈ up.upTo log before g offsetBlk) : ¬ up.Closes g.1 m := by
  rcases List.mem_cons.mp hm with rfl | hm
  · exact hopened.receive_open g.1
  · rcases List.mem_append.mp hm with hm | hm
    · obtain ⟨e, he, hm⟩ := List.mem_flatMap.mp hm
      exact not_closes_messages (hbefore e he) hm
    · rcases List.mem_cons.mp hm with rfl | hm
      · rintro ⟨-, hlt⟩
        exact Int.lt_irrefl _ hlt
      · exact not_closes_answered hm

/-! ## The file before a message that ends it -/

/-- A file is passed where a later one is current, or where the `Done` is queued. -/
theorem At.passed_or_done (h : up.At d v passed f rest sent) (hg : g ∈ up.listing)
    (hplain : up.Plain) (hpast : g.1 < v.job.fileNum ∨
      .done up.id g.1 ∈ queuedAbout up.id v.later) :
    g ∈ passed ∨ g = f ∧ .done up.id g.1 ∈ queuedAbout up.id v.later := by
  have hlisting := h.listing
  rw [hlisting, List.mem_append, List.mem_cons] at hg
  have hpairwise := up.listing_pairwise
  rw [hlisting] at hpairwise
  obtain ⟨-, hafter, -⟩ := List.pairwise_append.mp hpairwise
  have hrest := (List.pairwise_cons.mp hafter).1
  rcases hg with hg | rfl | hg
  · exact .inl hg
  · rcases hpast with hlt | hdone
    · rw [h.job.fileNum] at hlt
      exact absurd hlt (Int.lt_irrefl _)
    · exact .inr ⟨rfl, hdone⟩
  · have hlt := hrest g hg
    rcases hpast with hback | hdone
    · rw [h.job.fileNum] at hback
      omega
    · obtain ⟨heq, -⟩ := h.done_mem hplain hdone
      omega

/-- The numbers before and after the current file. -/
theorem At.bounds (h : up.At d v passed f rest sent) :
    (∀ e ∈ passed, e.1 < f.1) ∧ ∀ e ∈ rest, f.1 < e.1 := by
  have hpairwise := up.listing_pairwise
  rw [h.listing] at hpairwise
  obtain ⟨-, hafter, hbefore⟩ := List.pairwise_append.mp hpairwise
  exact ⟨fun e he => hbefore e he f List.mem_cons_self, (List.pairwise_cons.mp hafter).1⟩

/-- What ends the current file, or one after it, is the `Done` of the last file. -/
theorem At.done_of_closes (h : up.At d v passed f rest sent) (hopened : up.Opened) {n : ℤ}
    (hn : f.1 ≤ n) {m : OutMessage} (hm : m ∈ queuedAbout up.id v.later)
    (hcloses : up.Closes n m) :
    rest = [] ∧ m = .done up.id f.1 ∧
      ∃ offsetBlk, answer? up.id f.1 v.later = some (.goOn offsetBlk) ∧
        sent = f.answered up.id (.goOn offsetBlk) ++ [.done up.id f.1] := by
  have hall := List.mem_append_right up.unsent hm
  rw [h.queued] at hall
  have hsent : m ∈ sent := by
    rcases List.mem_cons.mp hall with rfl | hall
    · exact absurd hcloses (hopened.receive_open n)
    · rcases List.mem_append.mp hall with hpassed | hall
      · obtain ⟨e, he, hmessage⟩ := List.mem_flatMap.mp hpassed
        have hlt := h.bounds.1 e he
        exact absurd hcloses (not_closes_messages (by omega) hmessage)
      · rcases List.mem_cons.mp hall with rfl | hsent
        · obtain ⟨-, hlt⟩ := hcloses
          omega
        · exact hsent
  cases h.stage with
  | waiting => cases hsent
  | @sending offsetBlk _ _ _ _ _ hblocks =>
    have hblock : m ∈ f.answered up.id (.goOn offsetBlk) := by
      rw [← hblocks, List.append_assoc]
      exact List.mem_append_left _ hsent
    exact absurd hcloses (not_closes_answered hblock)
  | @finished offsetBlk hanswer _ _ hlast =>
    rcases List.mem_append.mp hsent with hblock | hdone
    · exact absurd hcloses (not_closes_answered hblock)
    · exact ⟨hlast, List.mem_singleton.mp hdone, offsetBlk, hanswer, rfl⟩
  | skipped => cases hsent

/-- What ends a file comes behind it. -/
theorem At.past_of_closes (h : up.At d v passed f rest sent) (hopened : up.Opened)
    (hg : g ∈ up.listing) {m : OutMessage} (hm : m ∈ queuedAbout up.id v.later)
    (hcloses : up.Closes g.1 m) :
    g.1 < v.job.fileNum ∨ .done up.id g.1 ∈ queuedAbout up.id v.later := by
  rcases Int.lt_or_le g.1 f.1 with hlt | hle
  · rw [h.job.fileNum]
    exact .inl hlt
  · obtain ⟨rfl, rfl, -⟩ := h.done_of_closes hopened hle hm hcloses
    rw [h.listing, List.mem_append, List.mem_singleton] at hg
    rcases hg with hg | rfl
    · have hlt := h.bounds.1 g hg
      omega
    · exact .inr hm

/-- Behind the last block of a confirmed file that is passed stands what ends it. -/
theorem At.split_of_past (h : up.At d v passed f rest sent) (hopened : up.Opened)
    (hg : g ∈ up.listing) (hpast : g.1 < v.job.fileNum ∨
      .done up.id g.1 ∈ queuedAbout up.id v.later) {offsetBlk : ℕ}
    (hanswer : answer? up.id g.1 v.later = some (.goOn offsetBlk)) :
    ∃ before m after, (∀ e ∈ before, e.1 < g.1) ∧ up.Closes g.1 m ∧
      up.unsent ++ queuedAbout up.id v.later =
        up.upTo v.later before g offsetBlk ++ m :: after := by
  rcases h.passed_or_done hg hopened.plain hpast with hmem | ⟨rfl, hdone⟩
  · obtain ⟨before, behind, rfl⟩ := List.append_of_mem hmem
    have hpairwise := up.listing_pairwise
    rw [h.listing, List.append_assoc] at hpairwise
    obtain ⟨-, hafter, hbefore⟩ := List.pairwise_append.mp hpairwise
    have hbehind := (List.pairwise_cons.mp hafter).1
    -- the next message is the digest of the next file
    have hnext : ∃ m after, up.Closes g.1 m ∧
        behind.flatMap (·.messages up.id v.later) ++ f.digest up.id :: sent = m :: after := by
      cases behind with
      | nil => exact ⟨f.digest up.id, sent, ⟨rfl, hbehind f (by simp)⟩, rfl⟩
      | cons e behind => exact ⟨e.digest up.id, _, ⟨rfl, hbehind e (by simp)⟩, rfl⟩
    obtain ⟨m, after, hcloses, hnext⟩ := hnext
    refine ⟨before, m, after, fun e he => hbefore e he g List.mem_cons_self, hcloses, ?_⟩
    rw [h.queued, List.flatMap_append, List.flatMap_cons, Listed.messages_of_answer hanswer,
      upTo, ← hnext]
    refine congrArg (up.receive :: ·) ?_
    rw [List.append_assoc, List.append_assoc]
    exact (List.append_assoc _ _ _).symm
  · obtain ⟨-, -, offsetBlk', hanswer', hsent⟩ :=
      h.done_of_closes hopened (Int.le_refl _) hdone rfl
    obtain rfl : offsetBlk' = offsetBlk := by
      injection Option.some.inj (hanswer'.symm.trans hanswer)
    refine ⟨passed, .done up.id g.1, [], h.bounds.1, rfl, ?_⟩
    rw [h.queued, hsent, upTo, List.cons_append, List.append_assoc, List.cons_append]

/-- **Exactly when every file arrives**, at each point of an upload. -/
theorem Tracks.arrives_iff (h : up.Tracks d s) (hopened : up.Opened) :
    up.Arrives s ↔ up.ConfirmedWithin s := by
  obtain ⟨-, -, passed, f, rest, sent, hat⟩ := h
  constructor
  · intro harrives g hg hpast offsetBlk hanswer
    obtain ⟨before, m, after, hbefore, hcloses, hsplit⟩ :=
      hat.split_of_past hopened hg hpast hanswer
    have hunsent : up.unsent <+: up.upTo (up.since s) before g offsetBlk := by
      refine List.prefix_of_prefix_length_le (hsplit ▸ List.prefix_append _ _)
        (List.prefix_append _ _) ?_
      have hlength := hopened.length_unsent
      rw [upTo, List.length_cons, List.length_append, List.length_cons]
      omega
    obtain ⟨queued, hqueued⟩ := hunsent
    have hall : queuedAbout up.id (up.since s) = queued ++ m :: after := by
      have hsplit' : up.unsent ++ queuedAbout up.id (up.since s) =
          up.unsent ++ (queued ++ m :: after) := by
        rw [← List.append_assoc, hqueued]
        exact hsplit
      exact List.append_cancel_left hsplit'
    have hblocks : blocksOf g.1 queued = g.numbered (.goOn offsetBlk) := by
      rw [← blocksOf_upTo hopened (fun e he => Int.ne_of_lt (hbefore e he)) offsetBlk, ← hqueued,
        blocksOf_append, blocksOf_of_announces hopened.plain.2, List.nil_append]
    have hne := harrives g hg offsetBlk hanswer queued m after hall hcloses
    rw [hblocks] at hne
    exact Decidable.not_not.mp (mt (numbered_eq_nil_iff g offsetBlk).mpr hne)
  · intro hwithin g hg offsetBlk hanswer queued m after hall hcloses
    have hm : m ∈ queuedAbout up.id (up.since s) := by
      rw [hall]
      simp
    have hpast := hat.past_of_closes hopened hg hm hcloses
    obtain ⟨before, m', after', hbefore, -, hsplit⟩ :=
      hat.split_of_past hopened hg hpast hanswer
    have hpairs : (up.unsent ++ queued) ++ m :: after =
        up.upTo (up.since s) before g offsetBlk ++ m' :: after' := by
      rw [List.append_assoc, ← hall]
      exact hsplit
    have hprefix : up.upTo (up.since s) before g offsetBlk <+: up.unsent ++ queued := by
      rcases List.append_eq_append_iff.mp hpairs with ⟨x, hx, htail⟩ | ⟨x, hx, -⟩
      · cases x with
        | nil =>
          rw [List.append_nil] at hx
          exact hx ▸ List.prefix_refl _
        | cons y x =>
          obtain ⟨rfl, -⟩ := List.cons.inj htail
          have hmem : m ∈ up.upTo (up.since s) before g offsetBlk := by
            rw [hx]
            simp
          exact absurd hcloses
            (not_closes_upTo hopened (fun e he => Int.le_of_lt (hbefore e he)) hmem)
      · exact ⟨x, hx.symm⟩
    have hblocks : blocksOf g.1 (up.unsent ++ queued) ≠ [] := by
      have hinitial := hprefix.filterMap (·.blockOf? g.1)
      intro hnil
      have hnone : blocksOf g.1 (up.upTo (up.since s) before g offsetBlk) = [] :=
        List.prefix_nil.mp (hnil ▸ hinitial)
      rw [blocksOf_upTo hopened (fun e he => Int.ne_of_lt (hbefore e he)),
        numbered_eq_nil_iff] at hnone
      exact hnone (hwithin g hg hpast offsetBlk hanswer)
    rwa [blocksOf_append, blocksOf_of_announces hopened.plain.2, List.nil_append] at hblocks

/-- An upload that begins is opened. -/
theorem opened_of_begins {c : BridgeCall} (h : c.Begins s up) : up.Opened := by
  refine ⟨plain_of_begins h, fun n => ?_, ?_⟩
  · cases h <;> exact fun hcloses => hcloses
  · cases h <;> simp [ofFile, ofPlan, silent]

/-- **Every confirmed file arrives** at each point of an upload that is answered in turn if and
only if each file it has passed was confirmed with an offset before its end. -/
theorem arrives_iff_confirmedWithin (decompress : List UInt8 → Option (List UInt8))
    (registered : Bool) {c : BridgeCall} {events : List FtEvent}
    (hreach : (ftMachine decompress registered).Reachable s) (hbegins : c.Begins s up)
    (hresting : PumpPhase.Resting (s.phaseOf up.id))
    (hstart : s.step decompress (.call c) = some t)
    (hrun : (ftMachine decompress registered).RunWhere (fun s e => e.InTurn up.id s) t events u) :
    up.Arrives u ↔ up.ConfirmedWithin u := by
  have hkeyed := (FtConnection.keyed_of_reachable hreach).step hstart
  have htracks : up.Tracks True u :=
    tracks_run (tracks_start hbegins hresting hstart) hkeyed
      (hrun.mono fun _ _ hok => ⟨hok, fun _ => .inl trivial⟩)
  exact htracks.arrives_iff (opened_of_begins hbegins)

/-- Both files of the folder have bytes and arrive. -/
theorem arrives_iff_confirmed :
    ∃ t u, demoConnected.step (fun _ => none)
        (.call (.sendFolderUpload 1 (some demoPlan) "/tmp/d" false)) = some t ∧
      FtConnection.demoMachine.Run t [.host (.sendConfirm 1 0 false 0), .sliceRead none,
        .pumpContinues, .host (.sendConfirm 1 1 false 0), .sliceRead none, .pumpContinues] u ∧
      demoFolder.Arrives u := by
  have hrun : FtConnection.demoMachine.RunWhere (fun s e => e.InTurn demoFolder.id s)
      (demoFolderRun []) [.host (.sendConfirm 1 0 false 0), .sliceRead none, .pumpContinues,
        .host (.sendConfirm 1 1 false 0), .sliceRead none, .pumpContinues]
      (demoFolderRun [.host (.sendConfirm 1 0 false 0), .sliceRead none, .pumpContinues,
        .host (.sendConfirm 1 1 false 0), .sliceRead none, .pumpContinues]) :=
    .cons (inTurn_of_waiting rfl rfl rfl) rfl <| .cons trivial rfl <| .cons trivial rfl <|
      .cons (inTurn_of_waiting rfl rfl rfl) rfl <| .cons trivial rfl <| .single trivial rfl
  have hanswers : ∀ n ∈ [(0 : ℤ), 1], answer? demoFolder.id n (demoFolder.since (demoFolderRun
      [.host (.sendConfirm 1 0 false 0), .sliceRead none, .pumpContinues,
        .host (.sendConfirm 1 1 false 0), .sliceRead none, .pumpContinues])) = some (.goOn 0) := by
    intro n hn
    rcases List.mem_pair.mp hn with rfl | rfl <;> rfl
  have hlisting : demoFolder.listing =
      [(0, ⟨"a.txt", [1, 2, 3], 0⟩), (1, ⟨"b.txt", [4, 5], 0⟩)] := rfl
  have hwithin : demoFolder.ConfirmedWithin (demoFolderRun [.host (.sendConfirm 1 0 false 0),
      .sliceRead none, .pumpContinues, .host (.sendConfirm 1 1 false 0), .sliceRead none,
      .pumpContinues]) := by
    intro f hf _ offsetBlk hanswer
    rw [hlisting] at hf
    have hnum : f.1 ∈ [(0 : ℤ), 1] := by
      rcases List.mem_pair.mp hf with rfl | rfl <;> simp
    have hsize : 0 < f.2.size := by
      rcases List.mem_pair.mp hf with rfl | rfl <;> decide
    injection Option.some.inj ((hanswers f.1 hnum).symm.trans hanswer) with hzero
    rwa [← hzero, Nat.zero_mul]
  exact ⟨_, _, rfl, hrun.run, (arrives_iff_confirmedWithin (fun _ => none) true
    reachable_demoConnected .sendFolderUpload (resting_demoConnected 1) rfl hrun).mpr hwithin⟩

/-! ## A folder with an empty file -/

/-- A folder whose first file is empty. -/
def emptyFirstPlan : FolderUploadPlan where
  folderName := "d"
  files := [⟨"a.txt", [], 0⟩, ⟨"c.txt", [4, 5], 0⟩]
  relativeNames := ["a.txt", "c.txt"]
  totalSize := 2
  files_ne_nil := List.cons_ne_nil _ _
  names_length := rfl

/-- The upload of that folder. -/
def emptyFirst : Upload := .ofPlan demoConnected 1 "/tmp/d" emptyFirstPlan

/-- The empty file is confirmed, and the digest of the next file follows at once. -/
theorem not_arrives_emptyFirst :
    ∃ t u, demoConnected.step (fun _ => none)
        (.call (.sendFolderUpload 1 (some emptyFirstPlan) "/tmp/d" false)) = some t ∧
      FtConnection.demoMachine.RunWhere (fun s e => e.InTurn 1 s) t
        [.host (.sendConfirm 1 0 false 0), .pumpContinues] u ∧
      queuedAbout 1 (emptyFirst.since u) =
        [emptyFirst.receive, .digest 1 0 0 0, .digest 1 1 2 0] ∧
      ¬ emptyFirst.Arrives u := by
  have hrun : ∃ t u, demoConnected.step (fun _ => none)
        (.call (.sendFolderUpload 1 (some emptyFirstPlan) "/tmp/d" false)) = some t ∧
      FtConnection.demoMachine.RunWhere (fun s e => e.InTurn 1 s) t
        [.host (.sendConfirm 1 0 false 0), .pumpContinues] u ∧
      queuedAbout 1 (emptyFirst.since u) =
        [emptyFirst.receive, .digest 1 0 0 0, .digest 1 1 2 0] ∧
      answer? 1 0 (emptyFirst.since u) = some (.goOn 0) :=
    ⟨_, _, rfl, .cons (inTurn_of_waiting rfl rfl rfl) rfl (.single trivial rfl), rfl, rfl⟩
  obtain ⟨t, u, hstep, hrun, hqueued, hanswer⟩ := hrun
  refine ⟨t, u, hstep, hrun, hqueued, fun harrives => ?_⟩
  exact harrives emptyFirst.first List.mem_cons_self 0 hanswer
    [emptyFirst.receive, .digest 1 0 0 0] (.digest 1 1 2 0) [] hqueued ⟨rfl, by decide⟩ rfl

end Upload

end RdWeb.FileTransfer
