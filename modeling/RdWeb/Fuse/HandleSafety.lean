import RdWeb.Fuse.HandleEffects

/-!
# A handle is valid exactly while it is open

The invariant ties the bisected vectors and the counter to the transcript. It
holds as long as the 64-bit counter has not handed out the same number twice.
-/

namespace RdWeb.Fuse

open RdWeb.Clipboard

/-- The opens of a transcript, one call at a time. -/
theorem openCount_cons (x : FuseOp × Reply) (t : List (FuseOp × Reply)) :
    openCount (x :: t) = openCount t + if returnsHandle x then 1 else 0 := by
  simp [openCount, List.countP_cons]

/-- The opens of a transcript, part by part. -/
theorem openCount_append (t t' : List (FuseOp × Reply)) :
    openCount (t ++ t') = openCount t + openCount t' := by
  simp [openCount]

/-- The number of earlier handles determines which opening is meant. -/
theorem split_unique {b b' a a' : List (FuseOp × Reply)} {x x' : FuseOp × Reply}
    (heq : b ++ x :: a = b' ++ x' :: a') (hx : returnsHandle x = true)
    (hx' : returnsHandle x' = true) (hcount : openCount b = openCount b') :
    b = b' ∧ x = x' ∧ a = a' := by
  rcases List.append_eq_append_iff.mp heq with ⟨c, rfl, htail⟩ | ⟨c, rfl, htail⟩
  · cases c with
    | nil => simpa using htail
    | cons y c =>
      obtain ⟨rfl, -⟩ : x = y ∧ _ := by simpa using htail
      rw [openCount_append, openCount_cons, if_pos hx] at hcount
      omega
  · cases c with
    | nil => simpa [eq_comm] using htail
    | cons y c =>
      obtain ⟨rfl, -⟩ : x' = y ∧ _ := by simpa using htail
      rw [openCount_append, openCount_cons, if_pos hx'] at hcount
      omega

namespace FuseServer

/-- What ties the server to its transcript. -/
structure HandleInvariant (s : FuseServer) (t : List (FuseOp × Reply)) : Prop where
  sorted : s.Sorted
  bounded : ∀ node ∈ s.files, ∀ fh ∈ node.fileHandlers.handlers, fh < openCount t
  counter : s.fileHandleCounter = openCount t % 2 ^ 64
  live : ∀ ino fh, s.Holds ino fh ↔ Live t ino fh
  numbered : ∀ b x a ino fh, t = b ++ x :: a → Opens x ino fh → fh = openCount b

/-- Handles that are numbered by the opens before them are so with one call more. -/
private theorem numbered_snoc {t : List (FuseOp × Reply)} {x : FuseOp × Reply}
    (h : ∀ b y a ino fh, t = b ++ y :: a → Opens y ino fh → fh = openCount b)
    (hx : ∀ ino fh, Opens x ino fh → fh = openCount t) :
    ∀ b y a ino fh, t ++ [x] = b ++ y :: a → Opens y ino fh → fh = openCount b := by
  intro b y a ino fh heq hopen
  rcases List.eq_nil_or_concat a with rfl | ⟨a', z, rfl⟩
  · obtain ⟨rfl, hlast⟩ := List.append_inj' heq rfl
    obtain rfl : x = y := by simpa using hlast
    exact hx ino fh hopen
  · have hsplit : t ++ [x] = (b ++ y :: a') ++ [z] := by simpa using heq
    obtain ⟨rfl, -⟩ := List.append_inj' hsplit rfl
    exact h b y a' ino fh rfl hopen

/-- A call that returns no handle need not be numbered. -/
private theorem numbered_quiet {t : List (FuseOp × Reply)} {x : FuseOp × Reply}
    (hquiet : returnsHandle x = false) (ino fh : ℕ) (hopen : Opens x ino fh) :
    fh = openCount t := by
  rw [hopen.returnsHandle] at hquiet
  cases hquiet

/-- A new server keeps no handle. -/
theorem HandleInvariant.new : HandleInvariant new [] where
  sorted := by simp [Sorted, FuseServer.new]
  bounded := by simp [FuseServer.new]
  counter := rfl
  live := by simp [Holds, Live, entry, FuseServer.new]
  numbered := by simp

/-- A handle that was granted is the counter, above every stored handle. -/
theorem HandleInvariant.granted {s : FuseServer} {t : List (FuseOp × Reply)}
    (inv : HandleInvariant s t) {op : FuseOp} {ino : ℕ} {node : FuseNode}
    (hop : op = .open ino ∨ op = .opendir ino) (hentry : s.entry ino = some node)
    (hcount : openCount t < 2 ^ 64) :
    HandleInvariant
      ({ s with fileHandleCounter := (s.fileHandleCounter + 1) % 2 ^ 64 }.setHandlers ino
        (node.fileHandlers.addHandler s.fileHandleCounter))
      (t ++ [(op, .opened s.fileHandleCounter)]) := by
  have hfh : s.fileHandleCounter = openCount t := by
    rw [inv.counter, Nat.mod_eq_of_lt hcount]
  have hopens : Opens (op, .opened s.fileHandleCounter) ino s.fileHandleCounter := by
    rcases hop with rfl | rfl
    · exact Or.inl rfl
    · exact Or.inr rfl
  have hnext : openCount (t ++ [(op, .opened s.fileHandleCounter)]) = openCount t + 1 := by
    rw [openCount_snoc, if_pos hopens.returnsHandle]
  have hopens_iff : ∀ ino' fh', Opens (op, .opened s.fileHandleCounter) ino' fh' ↔
      ino' = ino ∧ fh' = s.fileHandleCounter := by
    intro ino' fh'
    rcases hop with rfl | rfl <;> simp [Opens, eq_comm]
  have hkeep : ¬ Loads (op, .opened s.fileHandleCounter) ∧
      ∀ ino' fh', ¬ Releases (op, .opened s.fileHandleCounter) ino' fh' := by
    rcases hop with rfl | rfl <;> simp [Loads, Releases]
  have hold := mem_files_of_entry hentry
  constructor
  · intro node' hnode'
    rcases mem_files_setHandlers hnode' with hmem | hsame
    · exact inv.sorted node' hmem
    · rw [hsame]
      refine List.pairwise_append.mpr ⟨inv.sorted node hold, by simp, ?_⟩
      intro fh hmem fh' hmem'
      obtain rfl := List.mem_singleton.mp hmem'
      rw [hfh]
      exact inv.bounded node hold fh hmem
  · intro node' hnode' fh hmem
    rw [hnext]
    rcases mem_files_setHandlers hnode' with hmem' | hsame
    · have := inv.bounded node' hmem' fh hmem
      omega
    · rw [hsame] at hmem
      rcases List.mem_append.mp hmem with hmem | hmem
      · have := inv.bounded node hold fh hmem
        omega
      · obtain rfl := List.mem_singleton.mp hmem
        omega
  · rw [hnext]
    show (s.fileHandleCounter + 1) % 2 ^ 64 = _
    rw [hfh]
  · intro ino' fh'
    have hentry' : FuseServer.entry
        { s with fileHandleCounter := (s.fileHandleCounter + 1) % 2 ^ 64 } ino = some node := hentry
    rw [holds_setHandlers hentry', live_snoc, hopens_iff]
    have hlive := inv.live ino' fh'
    simp only [hkeep.1, hkeep.2, not_false_eq_true, and_true]
    by_cases hino : ino' = ino
    · subst hino
      have hheld : s.Holds ino' fh' ↔ fh' ∈ node.fileHandlers.handlers := by
        simp [Holds, hentry]
      rw [if_pos rfl, ← hlive, hheld]
      simp [FileHandles.addHandler, or_comm]
    · rw [if_neg hino, ← hlive]
      simp only [hino, false_and, false_or]
      rfl
  · refine numbered_snoc inv.numbered ?_
    intro ino' fh' hopen
    rw [((hopens_iff ino' fh').mp hopen).2, hfh]

/-- Dropping every node drops every handle, as a load does in the transcript. -/
theorem HandleInvariant.replaced {s : FuseServer} {t : List (FuseOp × Reply)}
    (inv : HandleInvariant s t) {x : FuseOp × Reply} {tree : List FuseNode} (hloads : Loads x)
    (hempty : ∀ node ∈ tree, node.fileHandlers.handlers = []) :
    HandleInvariant { s with files := tree } (t ++ [x]) := by
  have hquiet : returnsHandle x = false := by
    obtain ⟨rootStreamId, files, rfl⟩ := hloads
    rfl
  have hnone : ∀ ino fh, ¬ Holds { s with files := tree } ino fh := by
    rintro ino fh ⟨node, hentry, hmem⟩
    rw [hempty node (mem_files_of_entry hentry)] at hmem
    simp at hmem
  constructor
  · intro node hnode
    rw [hempty node hnode]
    exact List.Pairwise.nil
  · intro node hnode fh hmem
    rw [hempty node hnode] at hmem
    simp at hmem
  · rw [openCount_snoc, if_neg (by simp [hquiet])]
    exact inv.counter
  · intro ino fh
    rw [live_snoc]
    have hopen : ¬ Opens x ino fh := fun h => by simp [h.returnsHandle] at hquiet
    simp [hnone ino fh, hopen, hloads]
  · exact numbered_snoc inv.numbered (numbered_quiet hquiet)

/-- A release removes the one handle from the one node. -/
theorem HandleInvariant.released {s : FuseServer} {t : List (FuseOp × Reply)}
    (inv : HandleInvariant s t) {x : FuseOp × Reply} {ino fh idx : ℕ} {node : FuseNode}
    (hreleases : Releases x ino fh) (hentry : s.entry ino = some node)
    (hfound : BinarySearch.binarySearch node.fileHandlers.handlers fh = some idx) :
    HandleInvariant (s.setHandlers ino
      { node.fileHandlers with handlers := node.fileHandlers.handlers.eraseIdx idx })
      (t ++ [x]) := by
  have hquiet : returnsHandle x = false := by
    rcases hreleases with rfl | rfl <;> rfl
  have hload : ¬ Loads x := by
    rcases hreleases with rfl | rfl <;> simp [Loads]
  have honly : ∀ ino' fh', Releases x ino' fh' ↔ ino' = ino ∧ fh' = fh := by
    intro ino' fh'
    rcases hreleases with rfl | rfl <;> simp [Releases, eq_comm]
  have hold := mem_files_of_entry hentry
  have hcount : openCount (t ++ [x]) = openCount t := by
    rw [openCount_snoc, if_neg (by simp [hquiet]), Nat.add_zero]
  constructor
  · intro node' hnode'
    rcases mem_files_setHandlers hnode' with hmem | hsame
    · exact inv.sorted node' hmem
    · rw [hsame]
      exact (inv.sorted node hold).sublist (List.eraseIdx_sublist _ _)
  · intro node' hnode' fh' hmem
    rw [hcount]
    rcases mem_files_setHandlers hnode' with hmem' | hsame
    · exact inv.bounded node' hmem' fh' hmem
    · rw [hsame] at hmem
      exact inv.bounded node hold fh' (List.mem_of_mem_eraseIdx hmem)
  · rw [hcount]
    exact inv.counter
  · intro ino' fh'
    have hopen : ¬ Opens x ino' fh' := fun h => by simp [h.returnsHandle] at hquiet
    rw [holds_setHandlers hentry, live_snoc, ← inv.live ino' fh', honly]
    by_cases hino : ino' = ino
    · subst hino
      have hheld : s.Holds ino' fh' ↔ fh' ∈ node.fileHandlers.handlers := by
        simp [Holds, hentry]
      rw [if_pos rfl, hheld, BinarySearch.mem_eraseIdx_iff (inv.sorted node hold) hfound]
      simp [hopen, hload]
    · simp [hino, hopen, hload]
  · exact numbered_snoc inv.numbered (numbered_quiet hquiet)

/-- An operation that changes no handle and says so keeps the invariant. -/
theorem HandleInvariant.kept {s s' : FuseServer} {t : List (FuseOp × Reply)}
    (inv : HandleInvariant s t) {x : FuseOp × Reply} (hquiet : returnsHandle x = false)
    (hkeep : ¬ Loads x ∧ ∀ ino fh, ¬ Releases x ino fh)
    (hcounter : s'.fileHandleCounter = s.fileHandleCounter)
    (hfiles : ∀ node ∈ s'.files, node ∈ s.files ∨ node.fileHandlers.handlers = [])
    (hholds : ∀ ino fh, s'.Holds ino fh ↔ s.Holds ino fh) : HandleInvariant s' (t ++ [x]) := by
  have hcount : openCount (t ++ [x]) = openCount t := by
    rw [openCount_snoc, if_neg (by simp [hquiet]), Nat.add_zero]
  constructor
  · intro node hnode
    rcases hfiles node hnode with hmem | hnil
    · exact inv.sorted node hmem
    · rw [hnil]
      exact List.Pairwise.nil
  · intro node hnode fh hmem
    rw [hcount]
    rcases hfiles node hnode with hold | hnil
    · exact inv.bounded node hold fh hmem
    · rw [hnil] at hmem
      simp at hmem
  · rw [hcounter, hcount]
    exact inv.counter
  · intro ino fh
    have hopen : ¬ Opens x ino fh := fun h => by simp [h.returnsHandle] at hquiet
    rw [live_snoc, hholds, inv.live ino fh]
    simp [hopen, hkeep.1, hkeep.2 ino fh]
  · exact numbered_snoc inv.numbered (numbered_quiet hquiet)

/-- **One operation.** The invariant is kept while the counter has not run out. -/
theorem HandleInvariant.step {s : FuseServer} {t : List (FuseOp × Reply)}
    (inv : HandleInvariant s t) (op : FuseOp)
    (hcount : openCount (t ++ [(op, (s.step op).2)]) ≤ 2 ^ 64) :
    HandleInvariant (s.step op).1 (t ++ [(op, (s.step op).2)]) := by
  cases s.stepEffect op with
  | granted ino node hop hentry hstep =>
    rw [hstep] at hcount ⊢
    refine inv.granted hop hentry ?_
    have hreturns : returnsHandle (op, .opened s.fileHandleCounter) = true := rfl
    rw [openCount_snoc, if_pos hreturns] at hcount
    omega
  | replaced tree hloads hstep hempty =>
    rw [show (s.step op).1 = { s with files := tree } from congrArg Prod.fst hstep]
    exact inv.replaced hloads hempty
  | released ino fh idx node hreleases hentry hfound hstep =>
    have hstate := congrArg Prod.fst hstep
    rw [hstate]
    exact inv.released hreleases hentry hfound
  | rooted root hop hfiles hroot hstep =>
    obtain ⟨rootStreamId, rfl⟩ := hop
    rw [hstep]
    have hempty : ∀ ino fh, ¬ s.Holds ino fh := by
      simp [Holds, entry, hfiles]
    refine inv.kept rfl (by simp [Loads, Releases]) rfl ?_ ?_
    · intro node hnode
      obtain rfl := List.mem_singleton.mp hnode
      exact Or.inr hroot
    · intro ino fh
      refine iff_of_false ?_ (hempty ino fh)
      rintro ⟨node, hentry, hmem⟩
      obtain rfl := List.mem_singleton.mp (mem_files_of_entry hentry)
      rw [hroot] at hmem
      simp at hmem
  | unchanged hstep hquiet hkeep =>
    rw [hstep]
    exact inv.kept hquiet hkeep rfl (fun _ hmem => Or.inl hmem) fun _ _ => Iff.rfl

/-- **Every run.** The invariant holds after every sequence of operations that
returned at most `2 ^ 64` handles. -/
theorem handleInvariant_after (ops : List FuseOp) (h : openCount (transcript ops) ≤ 2 ^ 64) :
    HandleInvariant (after ops) (transcript ops) := by
  induction ops using List.reverseRecOn with
  | nil => exact .new
  | append_singleton ops op ih =>
    rw [transcript_snoc] at h ⊢
    rw [after_snoc]
    refine (ih ?_).step op h
    rw [openCount_append] at h
    omega

/-- Handle safety after a sequence of operations: the vectors are sorted, a handle
passes the check exactly while it is live, never on two inodes, and never after a
load that followed its opening. -/
structure HandleSafe (ops : List FuseOp) : Prop where
  sorted : (after ops).Sorted
  valid_iff : ∀ ino fh, (after ops).PastHandleCheck ino fh ↔ Live (transcript ops) ino fh
  one_inode : ∀ ino ino' fh, (after ops).PastHandleCheck ino fh →
    (after ops).PastHandleCheck ino' fh → ino = ino'
  not_after_load : ∀ b x a ino fh, transcript ops = b ++ x :: a → Opens x ino fh →
    (∃ y ∈ a, Loads y) → ∀ ino', ¬ (after ops).PastHandleCheck ino' fh

/-- **Handle safety**, up to the `2 ^ 64`-th handle. -/
theorem handleSafe_of_openCount_le (ops : List FuseOp)
    (h : openCount (transcript ops) ≤ 2 ^ 64) : HandleSafe ops := by
  have inv := handleInvariant_after ops h
  have hvalid : ∀ ino fh, (after ops).PastHandleCheck ino fh ↔ Live (transcript ops) ino fh :=
    fun ino fh => (pastHandleCheck_iff_holds inv.sorted).trans (inv.live ino fh)
  have hsame : ∀ b x a b' x' a' ino ino' fh, transcript ops = b ++ x :: a →
      transcript ops = b' ++ x' :: a' → Opens x ino fh → Opens x' ino' fh →
      x = x' ∧ a = a' := by
    intro b x a b' x' a' ino ino' fh hsplit hsplit' hopen hopen'
    have hcount := (inv.numbered b x a ino fh hsplit hopen).symm.trans
      (inv.numbered b' x' a' ino' fh hsplit' hopen')
    exact (split_unique (hsplit.symm.trans hsplit') hopen.returnsHandle hopen'.returnsHandle
      hcount).2
  refine ⟨inv.sorted, hvalid, ?_, ?_⟩
  · intro ino ino' fh hpast hpast'
    obtain ⟨b, x, a, hsplit, hopen, -⟩ := (hvalid ino fh).mp hpast
    obtain ⟨b', x', a', hsplit', hopen', -⟩ := (hvalid ino' fh).mp hpast'
    obtain ⟨rfl, -⟩ := hsame b x a b' x' a' ino ino' fh hsplit hsplit' hopen hopen'
    exact hopen.ino_eq hopen'
  · intro b x a ino fh hsplit hopen ⟨y, hy, hload⟩ ino' hpast
    obtain ⟨b', x', a', hsplit', hopen', hquiet⟩ := (hvalid ino' fh).mp hpast
    obtain ⟨-, rfl⟩ := hsame b x a b' x' a' ino ino' fh hsplit hsplit' hopen hopen'
    exact (hquiet y hy).1 hload

/-- Hold one handle on inode 2 while the counter goes around over inode 3. -/
def wrappingOps (n : ℕ) : List FuseOp :=
  [.loadFileList 0 [(emptyFile [97], 0), (emptyFile [98], 0)], .open 2] ++
    (List.range n).flatMap fun k => [.open 3, .release 3 (k + 1)]

/-- The tree of two files with these handles. -/
def twoFiles (first second : List ℕ) (counter : ℕ) : FuseServer where
  files := [{ FuseNode.newRoot 0 with children := [2, 3] },
    { FuseNode.fromDescription 2 0 (emptyFile [97]) with
      parent := some 1, fileHandlers := ⟨first, false⟩ },
    { FuseNode.fromDescription 3 0 (emptyFile [98]) with
      parent := some 1, fileHandlers := ⟨second, false⟩ }]
  fileHandleCounter := counter

/-- Opening the second file takes the counter and counts on. -/
theorem step_open_second (first : List ℕ) (counter : ℕ) :
    (twoFiles first [] counter).step (.open 3) =
      (twoFiles first [counter] ((counter + 1) % 2 ^ 64), .opened counter) := rfl

/-- Releasing the second file gives its handle back. -/
theorem step_release_second (first : List ℕ) (fh counter : ℕ) :
    ((twoFiles first [fh] counter).step (.release 3 fh)).1 = twoFiles first [] counter := by
  simp [step, release, entry, twoFiles, FileHandles.unregister, BinarySearch.binarySearch,
    BinarySearch.locate, setHandlers]

/-- The server after the first file was opened, and the second one opened and released many times.
-/
theorem after_wrappingOps (n : ℕ) (hn : n < 2 ^ 64) :
    after (wrappingOps n) = twoFiles [0] [] ((n + 1) % 2 ^ 64) := by
  induction n with
  | zero => rfl
  | succ n ih =>
    have hsplit : wrappingOps (n + 1) = wrappingOps n ++ [.open 3] ++ [.release 3 (n + 1)] := by
      simp [wrappingOps, List.range_succ]
    have hcounter : (n + 1) % 2 ^ 64 = n + 1 := Nat.mod_eq_of_lt (by omega)
    rw [hsplit, after_snoc, after_snoc, ih (by omega), hcounter, step_open_second,
      step_release_second]

/-- The bound is met by two opens and a release. -/
theorem handleSafe_two_opens : HandleSafe [.init 0, .opendir 1, .opendir 1, .releasedir 1 0] :=
  handleSafe_of_openCount_le _ (by decide)

/-- The `2 ^ 64 + 1`-th open returns handle 0 again, while another inode holds it. -/
theorem not_handleSafe_wrapping : ¬ HandleSafe (wrappingOps (2 ^ 64 - 1) ++ [.open 3]) := by
  intro hsafe
  have hend : after (wrappingOps (2 ^ 64 - 1) ++ [.open 3]) = twoFiles [0] [0] 1 := by
    rw [after_snoc, after_wrappingOps _ (by omega),
      show (2 ^ 64 - 1 + 1) % 2 ^ 64 = 0 by rfl, step_open_second]
    rfl
  have hfirst : (twoFiles [0] [0] 1).PastHandleCheck 2 0 := ⟨_, rfl⟩
  have hsecond : (twoFiles [0] [0] 1).PastHandleCheck 3 0 := ⟨_, rfl⟩
  have hsame := hsafe.one_inode 2 3 0 (by rwa [hend]) (by rwa [hend])
  omega

end FuseServer

end RdWeb.Fuse
