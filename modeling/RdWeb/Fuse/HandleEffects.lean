import RdWeb.Fuse.Server
import Mathlib.Data.List.Induction

/-!
# Live handles, and what one operation does to them

The transcript of a server says which handles are live: opened on an inode, with
no later successful load and no later successful release of that handle there.
The server keeps them in bisected vectors, and `StepEffect` says everything one
operation can do to those.
-/

namespace RdWeb.Fuse

/-- The entry is an `open` or `opendir` of the inode that returned the handle. -/
def Opens (x : FuseOp × Reply) (ino : ℕ) (fh : ℕ) : Prop :=
  x = (.open ino, .opened fh) ∨ x = (.opendir ino, .opened fh)

/-- The entry is a successful `load_file_list`. -/
def Loads (x : FuseOp × Reply) : Prop :=
  ∃ rootStreamId files, x = (.loadFileList rootStreamId files, .ok)

/-- The entry is a successful release of the handle on the inode. -/
def Releases (x : FuseOp × Reply) (ino : ℕ) (fh : ℕ) : Prop :=
  x = (.release ino fh, .ok) ∨ x = (.releasedir ino fh, .ok)

/-- The handle was opened on the inode since the last load and not released since. -/
def Live (t : List (FuseOp × Reply)) (ino fh : ℕ) : Prop :=
  ∃ before x after, t = before ++ x :: after ∧ Opens x ino fh ∧
    ∀ y ∈ after, ¬ Loads y ∧ ¬ Releases y ino fh

/-- Whether an entry returned a handle. -/
def returnsHandle (x : FuseOp × Reply) : Bool :=
  match x.2 with
  | .opened _ => true
  | _ => false

/-- How many handles a transcript returned. -/
def openCount (t : List (FuseOp × Reply)) : ℕ := t.countP returnsHandle

/-- An open returns a handle. -/
theorem Opens.returnsHandle {x : FuseOp × Reply} {ino fh : ℕ} (h : Opens x ino fh) :
    returnsHandle x = true := by
  rcases h with rfl | rfl <;> rfl

/-- One entry opens one inode. -/
theorem Opens.ino_eq {x : FuseOp × Reply} {ino ino' fh fh' : ℕ} (h : Opens x ino fh)
    (h' : Opens x ino' fh') : ino = ino' := by
  rcases h with rfl | rfl
  · exact (show ino = ino' ∧ fh = fh' by simpa [Opens] using h').1
  · exact (show ino = ino' ∧ fh = fh' by simpa [Opens] using h').1

/-- The opens of a transcript, with one call more. -/
theorem openCount_snoc (t : List (FuseOp × Reply)) (x : FuseOp × Reply) :
    openCount (t ++ [x]) = openCount t + if returnsHandle x then 1 else 0 := by
  simp [openCount, List.countP_append, List.countP_singleton]

/-- One more entry makes the handle live by opening it, or keeps it live. -/
theorem live_snoc {t : List (FuseOp × Reply)} {x : FuseOp × Reply} {ino fh : ℕ} :
    Live (t ++ [x]) ino fh ↔
      Opens x ino fh ∨ (Live t ino fh ∧ ¬ Loads x ∧ ¬ Releases x ino fh) := by
  constructor
  · rintro ⟨before, y, after, heq, hopen, hafter⟩
    rcases List.eq_nil_or_concat after with rfl | ⟨after', z, rfl⟩
    · have hlast := (List.append_inj' heq rfl).2
      obtain rfl : x = y := by simpa using hlast
      exact Or.inl hopen
    · have hsplit : t ++ [x] = (before ++ y :: after') ++ [z] := by simpa using heq
      obtain ⟨rfl, hlast⟩ := List.append_inj' hsplit rfl
      obtain rfl : x = z := by simpa using hlast
      refine Or.inr ⟨⟨before, y, after', rfl, hopen, ?_⟩, hafter x (by simp)⟩
      exact fun w hw => hafter w (by simp [hw])
  · rintro (hopen | ⟨⟨before, y, after, rfl, hopen, hafter⟩, hload, hrelease⟩)
    · exact ⟨t, x, [], rfl, hopen, by simp⟩
    · refine ⟨before, y, after ++ [x], by simp, hopen, ?_⟩
      intro z hz
      rcases List.mem_append.mp hz with hz | hz
      · exact hafter z hz
      · obtain rfl := List.mem_singleton.mp hz
        exact ⟨hload, hrelease⟩

namespace FuseServer

/-- The node at the inode stores the handle. -/
def Holds (s : FuseServer) (ino fh : ℕ) : Prop :=
  ∃ node, s.entry ino = some node ∧ fh ∈ node.fileHandlers.handlers

/-- A `read` or `readdir` with this inode and handle gets past the handle check. -/
def PastHandleCheck (s : FuseServer) (ino fh : ℕ) : Prop := ∃ node, s.handleCheck ino fh = .ok node

/-- Every handlers vector is strictly sorted, as bisection requires. -/
def Sorted (s : FuseServer) : Prop :=
  ∀ node ∈ s.files, node.fileHandlers.handlers.Pairwise (· < ·)

/-- The node under a number is one of the files. -/
theorem mem_files_of_entry {s : FuseServer} {ino : ℕ} {node : FuseNode}
    (h : s.entry ino = some node) : node ∈ s.files := by
  unfold entry at h
  split_ifs at h
  exact List.mem_of_getElem? h

/-- No node has the number zero. -/
theorem ino_ne_zero_of_entry {s : FuseServer} {ino : ℕ} {node : FuseNode}
    (h : s.entry ino = some node) : ino ≠ 0 := by
  rintro rfl
  simp [entry] at h

/-- On sorted vectors the handle check is membership. -/
theorem pastHandleCheck_iff_holds {s : FuseServer} (hsorted : s.Sorted) {ino fh : ℕ} :
    s.PastHandleCheck ino fh ↔ s.Holds ino fh := by
  unfold PastHandleCheck Holds handleCheck
  cases hentry : s.entry ino with
  | none => simp
  | some node =>
    have hfound := BinarySearch.isSome_binarySearch_iff
      (hsorted node (mem_files_of_entry hentry)) (k := fh)
    by_cases hmem : fh ∈ node.fileHandlers.handlers
    · simp [FileHandles.haveHandler, hfound.mpr hmem, hmem]
    · have hmiss : node.fileHandlers.haveHandler fh = false := by
        rw [FileHandles.haveHandler, Bool.eq_false_iff]
        exact fun h => hmem (hfound.mp h)
      simp [hmiss, hmem]

/-- The nodes after the handles of one were set. -/
theorem entry_setHandlers {s : FuseServer} {ino : ℕ} (hino : ino ≠ 0) (h : FileHandles)
    (ino' : ℕ) :
    (s.setHandlers ino h).entry ino' =
      if ino' = ino then (s.entry ino').map fun node => { node with fileHandlers := h }
      else s.entry ino' := by
  unfold entry setHandlers
  by_cases hzero : ino' = 0
  · simp [hzero]
  · have hindex : ino - 1 = ino' - 1 ↔ ino' = ino := by omega
    simp only [if_neg hzero, List.getElem?_modify, hindex]
    split_ifs <;> simp

/-- The handles after those of one node were set. -/
theorem holds_setHandlers {s : FuseServer} {ino : ℕ} {node : FuseNode}
    (hentry : s.entry ino = some node) (h : FileHandles) (ino' fh : ℕ) :
    (s.setHandlers ino h).Holds ino' fh ↔
      if ino' = ino then fh ∈ h.handlers else s.Holds ino' fh := by
  unfold Holds
  rw [entry_setHandlers (ino_ne_zero_of_entry hentry)]
  by_cases hsame : ino' = ino
  · subst hsame
    simp [hentry]
  · simp [hsame]

/-- A file after the handles of a node were set was there before, or has these handles. -/
theorem mem_files_setHandlers {s : FuseServer} {ino : ℕ} {h : FileHandles} {node : FuseNode}
    (hmem : node ∈ (s.setHandlers ino h).files) : node ∈ s.files ∨ node.fileHandlers = h := by
  obtain ⟨i, hi⟩ := List.mem_iff_getElem?.mp hmem
  rw [setHandlers, List.getElem?_modify] at hi
  obtain ⟨old, hold, rfl⟩ := Option.map_eq_some_iff.mp hi
  split_ifs
  · exact Or.inr rfl
  · exact Or.inl (List.mem_of_getElem? hold)

/-- What one operation does to the handles: it grants the counter's value on an
openable node, drops every node, removes one stored handle, or changes no handle
and says so in its reply. -/
inductive StepEffect (s : FuseServer) (op : FuseOp) : Prop
  | granted (ino : ℕ) (node : FuseNode) (hop : op = .open ino ∨ op = .opendir ino)
      (hentry : s.entry ino = some node)
      (hstep : s.step op =
        ({ s with fileHandleCounter := (s.fileHandleCounter + 1) % 2 ^ 64 }.setHandlers ino
          (node.fileHandlers.addHandler s.fileHandleCounter), .opened s.fileHandleCounter))
  | replaced (tree : List FuseNode) (hloads : Loads (op, (s.step op).2))
      (hstep : s.step op = ({ s with files := tree }, .ok))
      (hempty : ∀ node ∈ tree, node.fileHandlers.handlers = [])
  | released (ino fh idx : ℕ) (node : FuseNode) (hreleases : Releases (op, (s.step op).2) ino fh)
      (hentry : s.entry ino = some node)
      (hfound : BinarySearch.binarySearch node.fileHandlers.handlers fh = some idx)
      (hstep : s.step op = (s.setHandlers ino
        { node.fileHandlers with handlers := node.fileHandlers.handlers.eraseIdx idx }, .ok))
  | rooted (root : FuseNode) (hop : ∃ rootStreamId, op = .init rootStreamId)
      (hfiles : s.files = []) (hroot : root.fileHandlers.handlers = [])
      (hstep : s.step op = ({ s with files := [root] }, .ok))
  | unchanged (hstep : (s.step op).1 = s)
      (hquiet : returnsHandle (op, (s.step op).2) = false)
      (hkeep : ¬ Loads (op, (s.step op).2) ∧ ∀ ino fh, ¬ Releases (op, (s.step op).2) ino fh)

/-- What an open does. -/
theorem stepEffect_open (s : FuseServer) (ino : ℕ) : StepEffect s (.open ino) := by
  cases hentry : s.entry ino with
  | none =>
    apply StepEffect.unchanged <;>
      simp [step, FuseServer.open, hentry, returnsHandle, Loads, Releases]
  | some node =>
    by_cases hkind : node.attributes.kind = .file
    · by_cases hgc : node.fileHandlers.marked = true
      · apply StepEffect.unchanged <;>
          simp [step, FuseServer.open, hentry, hkind, hgc, returnsHandle, Loads, Releases]
      · refine .granted ino node (Or.inl rfl) hentry ?_
        simp [step, FuseServer.open, hentry, hkind, hgc, grantHandle, allocFd]
    · apply StepEffect.unchanged <;>
        simp [step, FuseServer.open, hentry, hkind, returnsHandle, Loads, Releases]

/-- What the open of a directory does. -/
theorem stepEffect_opendir (s : FuseServer) (ino : ℕ) : StepEffect s (.opendir ino) := by
  cases hentry : s.entry ino with
  | none =>
    apply StepEffect.unchanged <;> simp [step, opendir, hentry, returnsHandle, Loads, Releases]
  | some node =>
    by_cases hkind : node.attributes.kind = .directory
    · by_cases hgc : node.fileHandlers.marked = true
      · apply StepEffect.unchanged <;>
          simp [step, opendir, hentry, hkind, hgc, returnsHandle, Loads, Releases]
      · refine .granted ino node (Or.inr rfl) hentry ?_
        simp [step, opendir, hentry, hkind, hgc, grantHandle, allocFd]
    · apply StepEffect.unchanged <;>
        simp [step, opendir, hentry, hkind, returnsHandle, Loads, Releases]

/-- What a release does. -/
theorem stepEffect_release (s : FuseServer) (ino fh : ℕ) : StepEffect s (.release ino fh) := by
  cases hentry : s.entry ino with
  | none =>
    apply StepEffect.unchanged <;> simp [step, release, hentry, returnsHandle, Loads, Releases]
  | some node =>
    cases hfound : BinarySearch.binarySearch node.fileHandlers.handlers fh with
    | none =>
      apply StepEffect.unchanged <;>
        simp [step, release, hentry, FileHandles.unregister, hfound, returnsHandle, Loads, Releases]
    | some idx =>
      have hstep : s.step (.release ino fh) = (s.setHandlers ino
          { node.fileHandlers with handlers := node.fileHandlers.handlers.eraseIdx idx }, .ok) := by
        simp [step, release, hentry, FileHandles.unregister, hfound]
      exact .released ino fh idx node (Or.inl (by rw [hstep])) hentry hfound hstep

/-- What the release of a directory does. -/
theorem stepEffect_releasedir (s : FuseServer) (ino fh : ℕ) :
    StepEffect s (.releasedir ino fh) := by
  cases hentry : s.entry ino with
  | none =>
    apply StepEffect.unchanged <;> simp [step, releasedir, hentry, returnsHandle, Loads, Releases]
  | some node =>
    by_cases hkind : node.attributes.kind = .directory
    · cases hfound : BinarySearch.binarySearch node.fileHandlers.handlers fh with
      | none =>
        apply StepEffect.unchanged <;>
          simp [step, releasedir, hentry, hkind, FileHandles.haveHandler, hfound, returnsHandle,
            Loads, Releases]
      | some idx =>
        have hstep : s.step (.releasedir ino fh) = (s.setHandlers ino
            { node.fileHandlers with handlers := node.fileHandlers.handlers.eraseIdx idx }, .ok) := by
          simp [step, releasedir, hentry, hkind, FileHandles.haveHandler, FileHandles.unregister,
            hfound]
        exact .released ino fh idx node (Or.inr (by rw [hstep])) hentry hfound hstep
    · apply StepEffect.unchanged <;>
        simp [step, releasedir, hentry, hkind, returnsHandle, Loads, Releases]

/-- A listing returns no handle. -/
theorem returnsHandle_readdir (s : FuseServer) (ino fh offset : ℕ) :
    returnsHandle (.readdir ino fh offset, s.readdir ino fh offset) = false := by
  unfold readdir
  cases s.handleCheck ino fh with
  | error e => rfl
  | ok node =>
    by_cases hkind : node.attributes.kind = .directory
    · simp [hkind, returnsHandle]
    · simp [hkind, returnsHandle]

/-- A read returns no handle. -/
theorem returnsHandle_read (s : FuseServer) (ino fh : ℕ) :
    returnsHandle (.read ino fh, s.read ino fh) = false := by
  unfold read
  cases s.readChecks ino fh with
  | error e => rfl
  | ok node => rfl

/-- Every operation has one of the effects above. -/
theorem stepEffect (s : FuseServer) (op : FuseOp) : StepEffect s op := by
  cases op with
  | init rootStreamId =>
    by_cases hfiles : s.files = []
    · refine .rooted (.newRoot rootStreamId) ⟨rootStreamId, rfl⟩ hfiles rfl ?_
      simp [step, init, hfiles]
    · apply StepEffect.unchanged <;> simp [step, init, hfiles, returnsHandle, Loads, Releases]
  | loadFileList rootStreamId files =>
    cases hbuild : FuseNode.buildTree rootStreamId files with
    | error e =>
      apply StepEffect.unchanged <;>
        simp [step, loadFileList, hbuild, returnsHandle, Loads, Releases]
    | ok tree =>
      have hstep : s.step (.loadFileList rootStreamId files) = ({ s with files := tree }, .ok) := by
        simp [step, loadFileList, hbuild]
      exact .replaced tree ⟨rootStreamId, files, by rw [hstep]⟩ hstep
        (FuseNode.handlers_buildTree hbuild)
  | opendir ino => exact stepEffect_opendir s ino
  | «open» ino => exact stepEffect_open s ino
  | readdir ino fh offset =>
    exact .unchanged rfl (returnsHandle_readdir s ino fh offset) (by simp [Loads, Releases])
  | read ino fh =>
    exact .unchanged rfl (returnsHandle_read s ino fh) (by simp [Loads, Releases])
  | releasedir ino fh => exact stepEffect_releasedir s ino fh
  | release ino fh => exact stepEffect_release s ino fh

end FuseServer

end RdWeb.Fuse
