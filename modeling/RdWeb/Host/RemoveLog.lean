import RdWeb.Lib.Occurrences
import RdWeb.Clipboard.Path
import Mathlib.Logic.Relation

/-!
# The log of removed files

`FileRemoveLogControl` keeps the removals of a file transfer until a second has passed without
one, and leaves out what lies directly in a directory that is removed too. Removing a directory
drops the files that are its parent, where the files it is the parent of are meant.
-/

namespace RdWeb.Host

/-- How `std::path` takes a path apart on a platform. Paths are equal where their components
are. -/
structure PathSyntax (Component : Type) where
  /-- `Path::components`. -/
  components : String → List Component
  /-- The component is a root or a prefix, which has no parent. -/
  isRoot : Component → Bool

/-- The paths of Unix. -/
def unixPaths : PathSyntax Clipboard.Component where
  components path := (Clipboard.PathBuf.ofString path).components
  isRoot component := component = .rootDir

namespace PathSyntax

variable {Component : Type} (syn : PathSyntax Component)

/-- `Path::parent`: all components but the last. -/
def parent (path : List Component) : Option (List Component) :=
  if path.getLast?.any fun c => ! syn.isRoot c then some path.dropLast else none

/-- The closure `direct_child` of `on_remove_dir`. -/
def DirectChild (parent child : String) : Prop :=
  syn.parent (syn.components child) = some (syn.components parent)

/-- Whether a path is a direct child is decided by its parent. -/
instance [DecidableEq Component] : DecidableRel syn.DirectChild :=
  fun _ _ => inferInstanceAs (Decidable (_ = _))

/-- Both name one path. -/
def SamePath (p q : String) : Prop := syn.components p = syn.components q

/-- The first path is reached from the second by taking parents, at least once. -/
def ProperAncestor (p q : String) : Prop :=
  Relation.TransGen (fun child above => syn.parent child = some above)
    (syn.components q) (syn.components p)

end PathSyntax

/-- The request to remove a file. -/
structure FileRemoveFile where
  id : ℤ
  path : String
  fileNum : ℤ
deriving DecidableEq

/-- The request to remove a directory. -/
structure FileRemoveDir where
  id : ℤ
  path : String
  recursive : Bool
deriving DecidableEq

/-- A request to remove something. -/
inductive Removal
  | file (f : FileRemoveFile)
  | dir (d : FileRemoveDir)
deriving DecidableEq

/-- The path to remove. -/
def Removal.path : Removal → String
  | .file f => f.path
  | .dir d => d.path

/-- What is logged of an action on a file. -/
structure FileActionLog where
  id : ℤ
  connId : ℤ
  path : String
  dir : Bool
deriving DecidableEq

/-- `ipc::Data::FileTransferLog`: the action, and the log that its JSON text is of. -/
structure FileTransferLog where
  action : String
  log : FileActionLog
deriving DecidableEq

/-- The log of the removal of a file. -/
def FileRemoveFile.log (connId : ℤ) (f : FileRemoveFile) : FileTransferLog :=
  ⟨"remove", ⟨f.id, connId, f.path, false⟩⟩

/-- The log of the removal of a directory. -/
def FileRemoveDir.log (connId : ℤ) (d : FileRemoveDir) : FileTransferLog :=
  ⟨"remove", ⟨d.id, connId, d.path, true⟩⟩

/-- The log of a removal. -/
def Removal.log (connId : ℤ) : Removal → FileTransferLog
  | .file f => f.log connId
  | .dir d => d.log connId

/-- `FileRemoveLogControl`. An instant is a number of nanoseconds. -/
structure FileRemoveLogControl where
  connId : ℤ
  instant : ℕ
  removedFiles : List FileRemoveFile
  removedDirs : List FileRemoveDir

namespace FileRemoveLogControl

/-- `FileRemoveLogControl::new` at an instant. -/
def new (connId : ℤ) (now : ℕ) : FileRemoveLogControl := ⟨connId, now, [], []⟩

/-- `on_remove_file`. -/
def onRemoveFile (c : FileRemoveLogControl) (now : ℕ) (f : FileRemoveFile) :
    FileRemoveLogControl × Option FileTransferLog :=
  ({ c with instant := now, removedFiles := c.removedFiles ++ [f] }, some (f.log c.connId))

section

variable {Component : Type} [DecidableEq Component] (syn : PathSyntax Component)

/-- `on_remove_dir`. -/
def onRemoveDir (c : FileRemoveLogControl) (now : ℕ) (d : FileRemoveDir) :
    FileRemoveLogControl × Option FileTransferLog :=
  let files := c.removedFiles.filter fun f => ¬ syn.DirectChild f.path d.path
  let dirs := c.removedDirs.filter fun x => ¬ syn.DirectChild d.path x.path
  let pushed := if dirs.any fun x => syn.DirectChild x.path d.path then dirs else dirs ++ [d]
  ({ c with instant := now, removedFiles := files, removedDirs := pushed }, some (d.log c.connId))

/-- `on_timer`. -/
def onTimer (c : FileRemoveLogControl) (now : ℕ) : FileRemoveLogControl × List FileTransferLog :=
  if (now - c.instant) / 1000000000 < 1 then (c, [])
  else
    ({ c with removedFiles := [], removedDirs := [] },
      c.removedFiles.map (·.log c.connId) ++ c.removedDirs.map (·.log c.connId))

/-- The call a request to remove something makes, as `on_message` does. -/
def onRemove (c : FileRemoveLogControl) (now : ℕ) : Removal → FileRemoveLogControl
  | .file f => (c.onRemoveFile now f).1
  | .dir d => (c.onRemoveDir syn now d).1

/-- The control after some calls, each made at an instant. -/
def afterCalls (c : FileRemoveLogControl) (calls : List (ℕ × Removal)) : FileRemoveLogControl :=
  calls.foldl (fun c call => c.onRemove syn call.1 call.2) c

end

end FileRemoveLogControl

section

variable {Component : Type} (syn : PathSyntax Component)

/-- Every path removed is reported, or has a proper ancestor directory that was removed and is
reported. -/
def Covers (removals : List Removal) (reports : List FileTransferLog) : Prop :=
  ∀ r ∈ removals,
    (∃ l ∈ reports, syn.SamePath l.log.path r.path) ∨
      ∃ d, .dir d ∈ removals ∧ syn.ProperAncestor d.path r.path ∧
        ∃ l ∈ reports, l.log.dir ∧ syn.SamePath l.log.path d.path

/-- What is reported are different removals, none of them of a direct child of a directory
removed after it. -/
def Collapses (connId : ℤ) (removals : List Removal) (reports : List FileTransferLog) : Prop :=
  ∃ kept : List (Removal × List Removal), kept.Nodup ∧
    (∀ x ∈ kept, x ∈ removals.occurrences ∧
      ∀ d, .dir d ∈ x.2 → ¬ syn.DirectChild d.path x.1.path) ∧
    reports = kept.map fun x => x.1.log connId

/-- A directory directly below the path is among the removals. -/
def ChildDirIn (path : String) (removals : List Removal) : Prop :=
  ∃ d, .dir d ∈ removals ∧ syn.DirectChild path d.path

/-- Every file whose directory is removed later is itself a parent of a directory removed
later. -/
def DirsAfterHitFiles (removals : List Removal) : Prop :=
  ∀ f after, (.file f, after) ∈ removals.occurrences →
    ∀ d, .dir d ∈ after → syn.DirectChild d.path f.path → ChildDirIn syn f.path after

/-- Every file with a directory directly below it removed after each of its removals has a
directory at or above it removed. -/
def LostFilesCovered (removals : List Removal) : Prop :=
  ∀ f, .file f ∈ removals →
    (∀ g after, (.file g, after) ∈ removals.occurrences → syn.SamePath g.path f.path →
      ChildDirIn syn f.path after) →
    ∃ d, .dir d ∈ removals ∧ (syn.SamePath d.path f.path ∨ syn.ProperAncestor d.path f.path)

variable {syn}

/-- More removals keep a removed child. -/
theorem ChildDirIn.mono {path : String} {removals removals' : List Removal}
    (h : ChildDirIn syn path removals) (hsub : removals ⊆ removals') :
    ChildDirIn syn path removals' := by
  obtain ⟨d, hd, hchild⟩ := h
  exact ⟨d, hsub hd, hchild⟩

/-- The same path has the same removed children. -/
theorem ChildDirIn.congr {p q : String} {removals : List Removal}
    (h : ChildDirIn syn p removals) (hsame : syn.SamePath p q) : ChildDirIn syn q removals := by
  obtain ⟨d, hd, hchild⟩ := h
  refine ⟨d, hd, ?_⟩
  unfold PathSyntax.DirectChild at hchild ⊢
  rw [hchild, hsame]

/-- A removed file is no removed directory. -/
theorem childDirIn_concat_file {path : String} {removals : List Removal} {f : FileRemoveFile} :
    ChildDirIn syn path (removals ++ [.file f]) ↔ ChildDirIn syn path removals := by
  simp [ChildDirIn]

/-- A removed directory counts for its parent. -/
theorem childDirIn_concat_dir {path : String} {removals : List Removal} {d : FileRemoveDir} :
    ChildDirIn syn path (removals ++ [.dir d]) ↔
      ChildDirIn syn path removals ∨ syn.DirectChild path d.path := by
  simp [ChildDirIn, or_and_right, exists_or]

end

variable {Component : Type} [DecidableEq Component] {syn : PathSyntax Component}

namespace FileRemoveLogControl

/-! ### What one call does -/

variable {c : FileRemoveLogControl} {calls : List (ℕ × Removal)} {now : ℕ}

/-- A removed file is noted. -/
@[simp] theorem onRemove_file_removedFiles (f : FileRemoveFile) :
    (c.onRemove syn now (.file f)).removedFiles = c.removedFiles ++ [f] := rfl

/-- A removed file leaves the directories. -/
@[simp] theorem onRemove_file_removedDirs (f : FileRemoveFile) :
    (c.onRemove syn now (.file f)).removedDirs = c.removedDirs := rfl

/-- A removed directory takes its files out of the list. -/
@[simp] theorem onRemove_dir_removedFiles (d : FileRemoveDir) :
    (c.onRemove syn now (.dir d)).removedFiles =
      c.removedFiles.filter fun f => ¬ syn.DirectChild f.path d.path := rfl

/-- A removal keeps the connection. -/
@[simp] theorem onRemove_connId (r : Removal) : (c.onRemove syn now r).connId = c.connId := by
  cases r <;> rfl

/-- The control after one call more. -/
theorem afterCalls_concat (call : ℕ × Removal) :
    afterCalls syn c (calls ++ [call]) =
      (afterCalls syn c calls).onRemove syn call.1 call.2 := by
  rw [afterCalls, List.foldl_append]
  rfl

/-- Calls keep the connection. -/
@[simp] theorem afterCalls_connId : (afterCalls syn c calls).connId = c.connId := by
  induction calls using List.reverseRecOn with
  | nil => rfl
  | append_singleton calls call ih => rw [afterCalls_concat, onRemove_connId, ih]

/-- The directories kept when one is removed: none directly below it, and it or its parent. -/
theorem mem_onRemove_dir_removedDirs {d x : FileRemoveDir} :
    x ∈ (c.onRemove syn now (.dir d)).removedDirs ↔
      (x ∈ c.removedDirs ∧ ¬ syn.DirectChild d.path x.path) ∨
        (x = d ∧ ∀ y ∈ c.removedDirs, ¬ syn.DirectChild d.path y.path →
          ¬ syn.DirectChild y.path d.path) := by
  simp only [onRemove, onRemoveDir]
  split_ifs with hany
  · have hparent : ∃ y ∈ c.removedDirs, ¬ syn.DirectChild d.path y.path ∧
        syn.DirectChild y.path d.path := by simpa [and_assoc] using hany
    obtain ⟨y, hy, hnot, hchild⟩ := hparent
    constructor
    · exact fun hx => .inl (by simpa using hx)
    · rintro (hx | ⟨-, hno⟩)
      · simpa using hx
      · exact absurd hchild (hno y hy hnot)
  · have hno : ∀ y ∈ c.removedDirs, ¬ syn.DirectChild d.path y.path →
        ¬ syn.DirectChild y.path d.path := by simpa using hany
    rw [List.mem_append, List.mem_singleton]
    constructor
    · rintro (hx | rfl)
      · exact .inl (by simpa using hx)
      · exact .inr ⟨rfl, hno⟩
    · rintro (hx | ⟨rfl, -⟩)
      · exact .inl (by simpa using hx)
      · exact .inr rfl

/-- A directory is pushed behind those that stay, or left out. -/
theorem onRemove_dir_removedDirs (syn : PathSyntax Component) (c : FileRemoveLogControl) (now : ℕ)
    (d : FileRemoveDir) :
    ∃ pushed, (pushed = [] ∨ pushed = [d]) ∧ (c.onRemove syn now (.dir d)).removedDirs =
      (c.removedDirs.filter fun x => ¬ syn.DirectChild d.path x.path) ++ pushed := by
  simp only [onRemove, onRemoveDir]
  split_ifs
  · exact ⟨[], .inl rfl, (List.append_nil _).symm⟩
  · exact ⟨[d], .inr rfl, rfl⟩

variable {connId : ℤ} {start : ℕ}

/-! ### What is kept of a period -/

/-- The files kept are those no directory directly below was removed after. -/
theorem exists_keptFiles (syn : PathSyntax Component) (connId : ℤ) (start : ℕ)
    (calls : List (ℕ × Removal)) :
    ∃ kept : List (Removal × List Removal),
      kept.Sublist (calls.map Prod.snd).occurrences ∧
      kept.map Prod.fst = (afterCalls syn (new connId start) calls).removedFiles.map .file ∧
      ∀ x ∈ (calls.map Prod.snd).occurrences,
        x ∈ kept ↔ (∃ f, x.1 = .file f) ∧ ¬ ChildDirIn syn x.1.path x.2 := by
  induction calls using List.reverseRecOn with
  | nil => exact ⟨[], List.Sublist.refl _, rfl, by simp⟩
  | append_singleton calls call ih =>
    obtain ⟨kept, hsub, hmap, hmem⟩ := ih
    obtain ⟨now, r⟩ := call
    have hinj : Function.Injective fun x : Removal × List Removal => (x.1, x.2 ++ [r]) := by
      intro x y hxy
      exact Prod.ext (Prod.ext_iff.mp hxy).1 (List.append_cancel_right (Prod.ext_iff.mp hxy).2)
    rw [afterCalls_concat, List.map_append, List.map_singleton, List.occurrences_concat]
    cases r with
    | file f =>
      refine ⟨kept.map (fun x => (x.1, x.2 ++ [.file f])) ++ [(.file f, [])],
        (hsub.map _).append (List.Sublist.refl _), ?_, ?_⟩
      · rw [onRemove_file_removedFiles, List.map_append, List.map_append, ← hmap, List.map_map]
        rfl
      · intro x hx
        rw [List.mem_append, List.mem_singleton] at hx ⊢
        rcases hx with hx | rfl
        · obtain ⟨y, hy, rfl⟩ := List.mem_map.mp hx
          have hlast : (y.1, y.2 ++ [Removal.file f]) ≠ (.file f, []) := by simp
          rw [or_iff_left hlast, List.mem_map_of_injective hinj, hmem y hy,
            childDirIn_concat_file]
        · simp [ChildDirIn]
    | dir d =>
      refine ⟨(kept.filter fun x => ¬ syn.DirectChild x.1.path d.path).map
          (fun x => (x.1, x.2 ++ [.dir d])),
        ((List.filter_sublist.trans hsub).map _).trans (List.sublist_append_left _ _), ?_, ?_⟩
      · rw [onRemove_dir_removedFiles, List.map_map]
        have hfst : Prod.fst ∘ (fun x : Removal × List Removal => (x.1, x.2 ++ [.dir d])) =
            Prod.fst := rfl
        rw [hfst]
        have hfilter := congrArg
          (List.filter fun r : Removal => decide (¬ syn.DirectChild r.path d.path)) hmap
        rw [List.filter_map, List.filter_map] at hfilter
        exact hfilter
      · intro x hx
        rw [List.mem_append, List.mem_singleton] at hx
        rcases hx with hx | rfl
        · obtain ⟨y, hy, rfl⟩ := List.mem_map.mp hx
          rw [List.mem_map_of_injective hinj, List.mem_filter, hmem y hy, childDirIn_concat_dir]
          simp only [decide_not, Bool.not_eq_eq_eq_not, Bool.not_true, decide_eq_false_iff_not]
          tauto
        · simp

/-- No directory kept is directly below one removed after it. -/
theorem exists_keptDirs (syn : PathSyntax Component) (connId : ℤ) (start : ℕ)
    (calls : List (ℕ × Removal)) :
    ∃ kept : List (Removal × List Removal),
      kept.Sublist (calls.map Prod.snd).occurrences ∧
      kept.map Prod.fst = (afterCalls syn (new connId start) calls).removedDirs.map .dir ∧
      ∀ x ∈ kept, ∀ d, .dir d ∈ x.2 → ¬ syn.DirectChild d.path x.1.path := by
  induction calls using List.reverseRecOn with
  | nil => exact ⟨[], List.Sublist.refl _, rfl, by simp⟩
  | append_singleton calls call ih =>
    obtain ⟨kept, hsub, hmap, hfree⟩ := ih
    obtain ⟨now, r⟩ := call
    rw [afterCalls_concat, List.map_append, List.map_singleton, List.occurrences_concat]
    cases r with
    | file f =>
      refine ⟨kept.map fun x => (x.1, x.2 ++ [.file f]),
        (hsub.map _).trans (List.sublist_append_left _ _), ?_, ?_⟩
      · rw [onRemove_file_removedDirs, ← hmap, List.map_map]
        rfl
      · intro x hx d hd
        obtain ⟨y, hy, rfl⟩ := List.mem_map.mp hx
        exact hfree y hy d (by simpa using hd)
    | dir d =>
      obtain ⟨pushed, hpushed, hdirs⟩ :=
        onRemove_dir_removedDirs syn (afterCalls syn (new connId start) calls) now d
      rw [hdirs]
      have hlast : (pushed.map fun d => (Removal.dir d, ([] : List Removal))).Sublist
          [(.dir d, [])] := by
        rcases hpushed with rfl | rfl
        · exact List.nil_sublist _
        · exact List.Sublist.refl _
      refine ⟨(kept.filter fun x => ¬ syn.DirectChild d.path x.1.path).map
          (fun x => (x.1, x.2 ++ [.dir d])) ++ pushed.map fun d => (.dir d, []),
        ((List.filter_sublist.trans hsub).map _).append hlast, ?_, ?_⟩
      · rw [List.map_append, List.map_append, List.map_map, List.map_map]
        have hfst : Prod.fst ∘ (fun x : Removal × List Removal => (x.1, x.2 ++ [.dir d])) =
            Prod.fst := rfl
        rw [hfst]
        have hfilter := congrArg
          (List.filter fun r : Removal => decide (¬ syn.DirectChild d.path r.path)) hmap
        rw [List.filter_map, List.filter_map] at hfilter
        exact congrArg₂ (· ++ ·) hfilter rfl
      · intro x hx e he
        rcases List.mem_append.mp hx with hx | hx
        · obtain ⟨y, hy, rfl⟩ := List.mem_map.mp hx
          obtain ⟨hy, hnot⟩ := List.mem_filter.mp hy
          rcases List.mem_append.mp he with he | he
          · exact hfree y hy e he
          · obtain rfl := Removal.dir.inj (List.mem_singleton.mp he)
            simpa using hnot
        · obtain ⟨y, -, rfl⟩ := List.mem_map.mp hx
          simp at he

/-- Every directory removed is kept, or a proper ancestor of it is. -/
theorem removedDirs_covers (syn : PathSyntax Component) (connId : ℤ) (start : ℕ)
    (calls : List (ℕ × Removal)) :
    ∀ d, .dir d ∈ calls.map Prod.snd →
      ∃ e ∈ (afterCalls syn (new connId start) calls).removedDirs,
        syn.SamePath e.path d.path ∨ syn.ProperAncestor e.path d.path := by
  induction calls using List.reverseRecOn with
  | nil => simp
  | append_singleton calls call ih =>
    obtain ⟨now, r⟩ := call
    intro d hd
    rw [List.map_append, List.map_singleton, List.mem_append, List.mem_singleton] at hd
    rw [afterCalls_concat]
    cases r with
    | file f => exact ih d (hd.resolve_right nofun)
    | dir r =>
      -- the directory removed last is kept, or its parent is
      have hr : ∃ e ∈ ((afterCalls syn (new connId start) calls).onRemove syn now
          (.dir r)).removedDirs, syn.SamePath e.path r.path ∨
            syn.ProperAncestor e.path r.path := by
        by_cases hno : ∀ y ∈ (afterCalls syn (new connId start) calls).removedDirs,
            ¬ syn.DirectChild r.path y.path → ¬ syn.DirectChild y.path r.path
        · exact ⟨r, mem_onRemove_dir_removedDirs.mpr (.inr ⟨rfl, hno⟩), .inl rfl⟩
        · push Not at hno
          obtain ⟨y, hy, hnot, hchild⟩ := hno
          exact ⟨y, mem_onRemove_dir_removedDirs.mpr (.inl ⟨hy, hnot⟩),
            .inr (Relation.TransGen.single hchild)⟩
      rcases hd with hd | hd
      · obtain ⟨e, he, hcover⟩ := ih d hd
        by_cases hdropped : syn.DirectChild r.path e.path
        · -- what covered it is dropped for being directly below the one removed last
          have habove : syn.ProperAncestor r.path d.path := by
            rcases hcover with hsame | habove
            · refine Relation.TransGen.single ?_
              rw [← hsame]
              exact hdropped
            · exact habove.tail hdropped
          obtain ⟨e', he', hcover'⟩ := hr
          refine ⟨e', he', .inr ?_⟩
          rcases hcover' with hsame' | habove'
          · unfold PathSyntax.ProperAncestor
            rw [hsame']
            exact habove
          · exact habove.trans habove'
        · exact ⟨e, mem_onRemove_dir_removedDirs.mpr (.inl ⟨he, hdropped⟩), hcover⟩
      · obtain rfl := Removal.dir.inj hd
        exact hr

/-- Removals of a file stay as long as no directory directly below it is removed. -/
theorem countP_removedFiles {p : Removal → Bool} {path : String}
    (hfile : ∀ f, p (.file f) → f.path = path) (hdir : ∀ d, ¬ p (.dir d))
    (hno : ¬ ChildDirIn syn path (calls.map Prod.snd)) :
    ((afterCalls syn c calls).removedFiles.map .file).countP p =
      (c.removedFiles.map .file).countP p + (calls.map Prod.snd).countP p := by
  induction calls using List.reverseRecOn with
  | nil => simp [afterCalls]
  | append_singleton calls call ih =>
    obtain ⟨now, r⟩ := call
    rw [List.map_append, List.map_singleton] at hno
    have hbefore := ih fun h => hno (h.mono (List.subset_append_left _ _))
    rw [afterCalls_concat, List.map_append, List.map_singleton, List.countP_append, ← add_assoc,
      ← hbefore]
    cases r with
    | file f => rw [onRemove_file_removedFiles, List.map_append, List.countP_append]; rfl
    | dir d =>
      have hnone : [Removal.dir d].countP p = 0 := by simp [hdir d]
      rw [onRemove_dir_removedFiles, hnone, add_zero, List.countP_map, List.countP_map,
        List.countP_filter]
      refine List.countP_congr fun f _ => ?_
      have hstays : p (.file f) → ¬ syn.DirectChild f.path d.path := by
        intro hp
        rw [hfile f hp]
        exact fun hchild => hno ⟨d, by simp, hchild⟩
      simpa using hstays

/-! ### What the timer reports -/

/-- The reports of a period. -/
def report (syn : PathSyntax Component) (connId : ℤ) (start : ℕ) (calls : List (ℕ × Removal)) :
    List FileTransferLog :=
  ((afterCalls syn (new connId start) calls).removedFiles.map Removal.file ++
    (afterCalls syn (new connId start) calls).removedDirs.map Removal.dir).map (Removal.log connId)

/-- After a quiet second the control is as new, and the next period starts. -/
theorem onTimer_new {now : ℕ} (hquiet : 1 ≤ (now - c.instant) / 1000000000) :
    (onTimer c now).1 = new c.connId c.instant := by
  unfold onTimer
  rw [if_neg (by omega)]
  rfl

/-- After a quiet second everything kept is reported. -/
theorem onTimer_report {now : ℕ}
    (hquiet : 1 ≤ (now - (afterCalls syn (new connId start) calls).instant) / 1000000000) :
    (onTimer (afterCalls syn (new connId start) calls) now).2 = report syn connId start calls := by
  unfold onTimer
  rw [if_neg (by omega), report, List.map_append, List.map_map, List.map_map, afterCalls_connId]
  rfl

/-- A report is of a file kept or of a directory kept. -/
theorem mem_report {l : FileTransferLog} :
    l ∈ report syn connId start calls ↔
      (∃ f ∈ (afterCalls syn (new connId start) calls).removedFiles, f.log connId = l) ∨
        ∃ d ∈ (afterCalls syn (new connId start) calls).removedDirs, d.log connId = l := by
  simp [report, Removal.log]

/-- A directory on the list was removed. -/
theorem mem_of_mem_removedDirs {d : FileRemoveDir}
    (hd : d ∈ (afterCalls syn (new connId start) calls).removedDirs) :
    .dir d ∈ calls.map Prod.snd := by
  obtain ⟨kept, hsub, hmap, -⟩ := exists_keptDirs syn connId start calls
  have hmem : Removal.dir d ∈ kept.map Prod.fst := hmap ▸ List.mem_map_of_mem hd
  have hall := (hsub.map Prod.fst).subset hmem
  rwa [List.map_fst_occurrences] at hall

/-- A file is kept exactly where a removal of it has no directory directly below it removed
after it. -/
theorem mem_removedFiles {f : FileRemoveFile} :
    f ∈ (afterCalls syn (new connId start) calls).removedFiles ↔
      ∃ after, (.file f, after) ∈ (calls.map Prod.snd).occurrences ∧
        ¬ ChildDirIn syn f.path after := by
  obtain ⟨kept, hsub, hmap, hmem⟩ := exists_keptFiles syn connId start calls
  have hiff : f ∈ (afterCalls syn (new connId start) calls).removedFiles ↔
      Removal.file f ∈ kept.map Prod.fst := by
    rw [hmap]
    simp
  rw [hiff]
  constructor
  · intro hf
    obtain ⟨⟨r, after⟩, hx, rfl⟩ := List.mem_map.mp hf
    have hocc := hsub.subset hx
    exact ⟨after, hocc, ((hmem _ hocc).mp hx).2⟩
  · rintro ⟨after, hocc, hno⟩
    exact List.mem_map.mpr ⟨_, (hmem _ hocc).mpr ⟨⟨f, rfl⟩, hno⟩, rfl⟩

/-- Exactly when every path removed is reported or below a directory reported. -/
theorem covers_report :
    Covers syn (calls.map Prod.snd) (report syn connId start calls) ↔
      LostFilesCovered syn (calls.map Prod.snd) := by
  constructor
  · intro hcovers f hf hlost
    rcases hcovers _ hf with ⟨l, hl, hsame⟩ | ⟨d, hd, habove, -⟩
    · rcases mem_report.mp hl with ⟨g, hg, rfl⟩ | ⟨d, hd, rfl⟩
      · obtain ⟨after, hocc, hno⟩ := mem_removedFiles.mp hg
        have hhit := hlost g after hocc hsame
        exact absurd (hhit.congr hsame.symm) hno
      · exact ⟨d, mem_of_mem_removedDirs hd, .inl hsame⟩
    · exact ⟨d, hd, .inr habove⟩
  · intro hlost
    -- a directory at or above what is removed is kept, or one above that directory is
    have hdir (r : Removal) (d : FileRemoveDir) (hd : .dir d ∈ calls.map Prod.snd)
        (hcover : syn.SamePath d.path r.path ∨ syn.ProperAncestor d.path r.path) :
        (∃ l ∈ report syn connId start calls, syn.SamePath l.log.path r.path) ∨
          ∃ d, .dir d ∈ calls.map Prod.snd ∧ syn.ProperAncestor d.path r.path ∧
            ∃ l ∈ report syn connId start calls, l.log.dir ∧ syn.SamePath l.log.path d.path := by
      obtain ⟨e, he, hcover'⟩ := removedDirs_covers syn connId start calls d hd
      have hreported : e.log connId ∈ report syn connId start calls :=
        mem_report.mpr (.inr ⟨e, he, rfl⟩)
      have habove (h : syn.ProperAncestor e.path r.path) :
          ∃ d, .dir d ∈ calls.map Prod.snd ∧ syn.ProperAncestor d.path r.path ∧
            ∃ l ∈ report syn connId start calls, l.log.dir ∧ syn.SamePath l.log.path d.path :=
        ⟨e, mem_of_mem_removedDirs he, h, _, hreported, rfl, rfl⟩
      unfold PathSyntax.SamePath PathSyntax.ProperAncestor at *
      rcases hcover with hsame | hbelow
      · rcases hcover' with hsame' | hbelow'
        · exact .inl ⟨_, hreported, hsame'.trans hsame⟩
        · exact .inr (habove (hsame ▸ hbelow'))
      · rcases hcover' with hsame' | hbelow'
        · exact .inr (habove (hsame'.symm ▸ hbelow))
        · exact .inr (habove (hbelow.trans hbelow'))
    intro r hr
    cases r with
    | dir d => exact hdir (.dir d) d hr (.inl rfl)
    | file f =>
      by_cases hall : ∀ g after, (.file g, after) ∈ (calls.map Prod.snd).occurrences →
          syn.SamePath g.path f.path → ChildDirIn syn f.path after
      · obtain ⟨d, hd, hcover⟩ := hlost f hr hall
        exact hdir (.file f) d hd hcover
      · push Not at hall
        obtain ⟨g, after, hocc, hsame, hno⟩ := hall
        have hkept : g ∈ (afterCalls syn (new connId start) calls).removedFiles :=
          mem_removedFiles.mpr ⟨after, hocc, fun h => hno (h.congr hsame)⟩
        exact .inl ⟨_, mem_report.mpr (.inl ⟨g, hkept, rfl⟩), hsame⟩

/-- Two removals with one log are of one path. -/
theorem path_eq_of_log_eq {r r' : Removal} (h : r.log connId = r'.log connId) :
    r.path = r'.path := by
  have hpath (r : Removal) : r.path = (r.log connId).log.path := by cases r <;> rfl
  rw [hpath, hpath, h]

/-- A removal that is kept is reported, and so is every equal one after it. -/
theorem countP_lt_report (connId : ℤ) (start : ℕ) {f : FileRemoveFile} {after : List Removal}
    (hocc : (.file f, after) ∈ (calls.map Prod.snd).occurrences)
    (hno : ¬ ChildDirIn syn f.path after) :
    after.countP (fun r => r.log connId = (Removal.file f).log connId) <
      (report syn connId start calls).countP (· = (Removal.file f).log connId) := by
  obtain ⟨before, hall⟩ := List.mem_occurrences_iff_append.mp hocc
  obtain ⟨first, rest, rfl, -, hrest⟩ := List.map_eq_append_iff.mp hall
  obtain ⟨call, later, rfl, hcall, rfl⟩ := List.map_eq_cons_iff.mp hrest
  have hsplit : afterCalls syn (new connId start) (first ++ call :: later) =
      afterCalls syn ((afterCalls syn (new connId start) first).onRemove syn call.1
        (.file f)) later := by
    rw [← hcall]
    exact List.foldl_append
  have hstay := countP_removedFiles
    (c := (afterCalls syn (new connId start) first).onRemove syn call.1 (.file f))
    (p := fun r => r.log connId = (Removal.file f).log connId)
    (fun g hg => path_eq_of_log_eq (of_decide_eq_true hg))
    (fun d hd => absurd (congrArg (fun l => l.log.dir) (of_decide_eq_true hd)) nofun) hno
  rw [← hsplit, onRemove_file_removedFiles, List.map_append, List.countP_append,
    List.map_singleton, List.countP_singleton, if_pos (decide_eq_true rfl)] at hstay
  calc (later.map Prod.snd).countP (fun r => r.log connId = (Removal.file f).log connId)
      < ((afterCalls syn (new connId start) (first ++ call :: later)).removedFiles.map
          Removal.file).countP (fun r => r.log connId = (Removal.file f).log connId) := by omega
    _ ≤ ((afterCalls syn (new connId start) (first ++ call :: later)).removedFiles.map
          Removal.file ++ (afterCalls syn (new connId start)
            (first ++ call :: later)).removedDirs.map Removal.dir).countP
          (fun r => r.log connId = (Removal.file f).log connId) :=
      (List.sublist_append_left _ _).countP_le
    _ = (report syn connId start (first ++ call :: later)).countP
          (· = (Removal.file f).log connId) := by
      rw [report, List.countP_map]
      rfl

/-- Exactly when nothing reported is a direct child of a directory removed after it. -/
theorem collapses_report :
    Collapses syn connId (calls.map Prod.snd) (report syn connId start calls) ↔
      DirsAfterHitFiles syn (calls.map Prod.snd) := by
  constructor
  · rintro ⟨kept, hnodup, hkept, hreport⟩ f after hocc d hd hchild
    by_contra hno
    have hmany := countP_lt_report connId start hocc hno
    -- a report with this log can only be of an equal removal after the directory's
    have hfew : (report syn connId start calls).countP (· = (Removal.file f).log connId) ≤
        after.countP fun r => r.log connId = (Removal.file f).log connId := by
      rw [hreport, List.countP_map, List.countP_eq_length_filter]
      refine List.length_le_countP (hnodup.filter _) fun x hx => ?_
      obtain ⟨hx, hlog⟩ := List.mem_filter.mp hx
      refine ⟨?_, hlog⟩
      obtain ⟨before, hall⟩ := List.mem_occurrences_iff_append.mp hocc
      obtain ⟨hxocc, hxfree⟩ := hkept x hx
      rw [hall] at hxocc
      rcases List.mem_occurrences_append hxocc with hsuffix | hlater
      · refine absurd ?_ (hxfree d (hsuffix.subset hd))
        rw [path_eq_of_log_eq (of_decide_eq_true hlog)]
        exact hchild
      · exact hlater
    omega
  · intro hhit
    obtain ⟨files, hsub, hmap, hmem⟩ := exists_keptFiles syn connId start calls
    obtain ⟨dirs, hsub', hmap', hfree⟩ := exists_keptDirs syn connId start calls
    have hnodup := List.nodup_occurrences (calls.map Prod.snd)
    refine ⟨files ++ dirs, ?_, ?_, ?_⟩
    · refine (hsub.nodup hnodup).append (hsub'.nodup hnodup) ?_
      intro x hx hx'
      obtain ⟨f, hf⟩ := ((hmem x (hsub.subset hx)).mp hx).1
      have hdir : x.1 ∈ dirs.map Prod.fst := List.mem_map_of_mem hx'
      rw [hmap', hf] at hdir
      simp at hdir
    · intro x hx
      rcases List.mem_append.mp hx with hx | hx
      · have hocc := hsub.subset hx
        obtain ⟨⟨f, hf⟩, hno⟩ := (hmem x hocc).mp hx
        refine ⟨hocc, fun d hd hchild => hno ?_⟩
        obtain ⟨r, after⟩ := x
        obtain rfl : r = .file f := hf
        exact hhit f after hocc d hd hchild
      · exact ⟨hsub'.subset hx, hfree x hx⟩
    · rw [report, ← hmap, ← hmap', ← List.map_append, List.map_map]
      rfl

/-- For every sequence of removals and the timer after a quiet second, what is reported covers
all that was removed and is collapsed, and nothing is left over, exactly where no removal of a
directory hit a file it should have left or left a file it should have dropped. -/
theorem period_iff (syn : PathSyntax Component) (connId : ℤ) (start now : ℕ)
    (calls : List (ℕ × Removal))
    (hquiet : 1 ≤ (now - (afterCalls syn (new connId start) calls).instant) / 1000000000) :
    (Covers syn (calls.map Prod.snd) (onTimer (afterCalls syn (new connId start) calls) now).2 ∧
        Collapses syn connId (calls.map Prod.snd)
          (onTimer (afterCalls syn (new connId start) calls) now).2 ∧
        (onTimer (afterCalls syn (new connId start) calls) now).1.removedFiles = [] ∧
        (onTimer (afterCalls syn (new connId start) calls) now).1.removedDirs = []) ↔
      LostFilesCovered syn (calls.map Prod.snd) ∧ DirsAfterHitFiles syn (calls.map Prod.snd) := by
  rw [onTimer_report hquiet, onTimer_new hquiet, covers_report, collapses_report]
  exact and_congr_right fun _ => and_iff_left ⟨rfl, rfl⟩

/-- The removal of `/a/f` and then of its directory `/a`, as for a folder removed with what is
in it. -/
def fileThenDir : List (ℕ × Removal) :=
  [(0, .file ⟨1, "/a/f", 0⟩), (5, .dir ⟨1, "/a", true⟩)]

/-- The file is reported beside the directory it was in. -/
theorem not_collapses_fileThenDir :
    ¬ Collapses unixPaths 7 (fileThenDir.map Prod.snd)
      (onTimer (afterCalls unixPaths (new 7 0) fileThenDir) 1000000005).2 := by
  rintro ⟨kept, -, hkept, hreport⟩
  have hreports : (onTimer (afterCalls unixPaths (new 7 0) fileThenDir) 1000000005).2 =
      [⟨"remove", ⟨1, 7, "/a/f", false⟩⟩, ⟨"remove", ⟨1, 7, "/a", true⟩⟩] := by decide +kernel
  rw [hreports] at hreport
  obtain ⟨⟨r, after⟩, rest, rfl, hlog, -⟩ := List.map_eq_cons_iff.mp hreport.symm
  obtain ⟨hocc, hfree⟩ := hkept _ List.mem_cons_self
  have hcases : (r, after) = (.file ⟨1, "/a/f", 0⟩, [.dir ⟨1, "/a", true⟩]) ∨
      (r, after) = (.dir ⟨1, "/a", true⟩, []) := by simpa [fileThenDir] using hocc
  rcases hcases with hfile | hdir
  · obtain ⟨rfl, rfl⟩ := Prod.ext_iff.mp hfile
    exact hfree ⟨1, "/a", true⟩ (List.mem_singleton.mpr rfl) (by decide +kernel)
  · obtain ⟨rfl, rfl⟩ := Prod.ext_iff.mp hdir
    simp [Removal.log, FileRemoveDir.log] at hlog

/-- The removal of the file `/x/f`, and then of `/a/b` and of its directory `/a`. -/
def fileAndDirs : List (ℕ × Removal) :=
  [(0, .file ⟨1, "/x/f", 0⟩), (3, .dir ⟨1, "/a/b", true⟩), (5, .dir ⟨1, "/a", true⟩)]

/-- In the demo no directory has the file as a child, nor the other way. -/
theorem not_directChild_fileAndDirs {d : FileRemoveDir}
    (hd : d = ⟨1, "/a/b", true⟩ ∨ d = ⟨1, "/a", true⟩) :
    ¬ unixPaths.DirectChild "/x/f" d.path ∧ ¬ unixPaths.DirectChild d.path "/x/f" := by
  rcases hd with rfl | rfl
  · exact ⟨by decide +kernel, by decide +kernel⟩
  · exact ⟨by decide +kernel, by decide +kernel⟩

/-- Directories are collapsed into the one above, and the file of another one is reported. -/
theorem period_iff_fileAndDirs :
    Covers unixPaths (fileAndDirs.map Prod.snd)
        (onTimer (afterCalls unixPaths (new 7 0) fileAndDirs) 1000000005).2 ∧
      Collapses unixPaths 7 (fileAndDirs.map Prod.snd)
        (onTimer (afterCalls unixPaths (new 7 0) fileAndDirs) 1000000005).2 ∧
      (onTimer (afterCalls unixPaths (new 7 0) fileAndDirs) 1000000005).1.removedFiles = [] ∧
      (onTimer (afterCalls unixPaths (new 7 0) fileAndDirs) 1000000005).1.removedDirs = [] := by
  refine (period_iff unixPaths 7 0 1000000005 fileAndDirs (by decide +kernel)).mpr ⟨?_, ?_⟩
  · intro f hf hlost
    obtain rfl : f = ⟨1, "/x/f", 0⟩ := by simpa [fileAndDirs] using hf
    obtain ⟨d, hd, hchild⟩ := hlost ⟨1, "/x/f", 0⟩
      [.dir ⟨1, "/a/b", true⟩, .dir ⟨1, "/a", true⟩] (by simp [fileAndDirs]) rfl
    exact absurd hchild (not_directChild_fileAndDirs (by simpa using hd)).1
  · intro f after hocc d hd hchild
    obtain ⟨rfl, rfl⟩ : f = ⟨1, "/x/f", 0⟩ ∧
        after = [.dir ⟨1, "/a/b", true⟩, .dir ⟨1, "/a", true⟩] := by
      simpa [fileAndDirs] using hocc
    exact absurd hchild (not_directChild_fileAndDirs (by simpa using hd)).2

end FileRemoveLogControl

end RdWeb.Host
