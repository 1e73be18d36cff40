import RdWeb.Clipboard.DescriptorCodec
import RdWeb.Clipboard.FileListWalk
import RdWeb.Clipboard.RelativePath

/-!
# The files that are copied

Files and directories of one directory are copied with all that is below them. The entries that
reach the other side name each file by its path below that directory, after the directory it is
in, and no two files alike.
-/

namespace RdWeb.Clipboard

open FileDescription

/-- What opening a file takes from the disk. -/
theorem LocalFile.tryOpen_metadata {fs : FileSystem} {relativeRoot path : PathBuf} {f : LocalFile}
    (h : LocalFile.tryOpen fs relativeRoot path = .ok f) :
    f.relativeRoot = relativeRoot ∧ ∃ mt, fs.stat path = .ok mt ∧ f.size = mt.len ∧
      f.isDir = mt.isDir ∧ f.perm = mt.mode := by
  unfold LocalFile.tryOpen at h
  cases hstat : fs.stat path with
  | error e => simp [hstat] at h
  | ok mt =>
    simp only [hstat, Except.ok.injEq] at h
    subst h
    exact ⟨rfl, mt, rfl, rfl, rfl, rfl⟩

/-- All files are listed relative to the parent of the first path. -/
theorem relativeRoot_of_constructFileList {fs : FileSystem} {fuel : ℕ} {paths : List PathBuf}
    {files : List LocalFile} (h : constructFileList fs fuel paths = some (.ok files)) :
    ∃ first ∈ paths, ∃ root, first.parent = some root ∧ ∀ f ∈ files, f.relativeRoot = root := by
  unfold constructFileList at h
  cases paths with
  | nil => simp at h
  | cons first rest =>
    simp only at h
    cases hparent : first.parent with
    | none => simp [hparent] at h
    | some root =>
      simp only [hparent] at h
      refine ⟨first, List.mem_cons_self, root, hparent, ?_⟩
      exact forall_of_constrFileLst (fun _ _ hopen => (LocalFile.tryOpen_metadata hopen).1)
        (by simp) h

/-- Components that are names. -/
def names (ns : List (List UInt8)) : List Component := ns.map .normal

/-- The components of a path with one more name. -/
theorem names_concat (ns : List (List UInt8)) (name : List UInt8) :
    names (ns ++ [name]) = names ns ++ [.normal name] := by
  simp [names]

/-- The components give the names. -/
theorem names_inj {ms ns : List (List UInt8)} (h : names ms = names ns) : ms = ns :=
  List.map_injective_iff.mpr (fun _ _ => Component.normal.inj) h

/-- A path that ends in a name has it as its file name. -/
theorem PathBuf.fileName_of_components {p : PathBuf} {front : List Component} {name : List UInt8}
    (h : p.components = front ++ [.normal name]) : p.fileName = some name := by
  simp [PathBuf.fileName, h]

namespace Disk

variable {Node : Type*}

/-- What is copied from one directory: every file below the paths is in the list, with a name and
a time its record can hold. -/
structure Copied (disk : Disk Node) (dir : List Component) (paths : List PathBuf)
    (files : List LocalFile) : Prop where
  listed : ∃ fuel, constructFileList disk.fileSystem fuel paths = some (.ok files)
  in_dir : ∀ s ∈ paths, ∃ name, s.components = dir ++ names [name]
  few : files.length ≤ 2 ^ 31
  no_backslash : ∀ f ∈ files, 92 ∉ f.relativePath
  portable : ∀ f ∈ files, f.Portable

variable {disk : Disk Node} {dir : List Component} {paths : List PathBuf}
  {files : List LocalFile}

/-- What a listed file is on the disk. -/
theorem metadata_of_listed {fuel : ℕ}
    (h : constructFileList disk.fileSystem fuel paths = some (.ok files)) {f : LocalFile}
    (hf : f ∈ files) {n : Node} (hn : disk.resolve f.path = some n) :
    f.size = (disk.metadata n).len ∧ f.isDir = disk.isDir n ∧ f.perm = (disk.metadata n).mode := by
  refine forall_of_constructFileList (P := fun f => ∀ n, disk.resolve f.path = some n →
    f.size = (disk.metadata n).len ∧ f.isDir = disk.isDir n ∧ f.perm = (disk.metadata n).mode)
    ?_ h f hf n hn
  intro relativeRoot path g hopen n hn
  obtain ⟨hpath, hnull, -⟩ := LocalFile.tryOpen_spec hopen
  obtain ⟨-, mt, hstat, hsize, hdir, hperm⟩ := LocalFile.tryOpen_metadata hopen
  rw [hpath] at hn
  rw [FileSystem.stat, if_neg hnull] at hstat
  simp only [fileSystem, hn, Except.ok.injEq] at hstat
  subst hstat
  exact ⟨hsize, hdir, hperm⟩

/-- A listed file is one of the paths, or an entry of a directory that is listed before it. -/
theorem Copied.origin (h : disk.Copied dir paths files) {i : ℕ} {f : LocalFile}
    (hf : files[i]? = some f) :
    (∃ s ∈ paths, disk.Reached s f.path ∧ ∃ n, disk.resolve f.path = some n) ∧
    (f.path ∈ paths ∨ ∃ j g name, j < i ∧ files[j]? = some g ∧ g.isDir = true ∧
      f.path.components = g.path.components ++ [.normal name]) := by
  obtain ⟨fuel, hlist⟩ := h.listed
  obtain ⟨root, hwalk⟩ := walked_of_constructFileList hlist
  obtain ⟨hpath, n, hn⟩ := resolve_of_listed hwalk hf
  obtain ⟨k, s, hs, hreached, -, horigin⟩ := hwalk.origin i f.path hpath
  refine ⟨⟨s, List.mem_of_getElem? hs, reached_iff.mp hreached, n, hn⟩, ?_⟩
  rcases horigin with rfl | ⟨j, b, hj, hb, hchild⟩
  · exact .inl (List.mem_of_getElem? hs)
  · right
    rw [List.getElem?_map] at hb
    obtain ⟨g, hg, rfl⟩ := Option.map_eq_some_iff.mp hb
    obtain ⟨d, hd, hdir, e, he, hjoin⟩ := child_iff.mp hchild
    have hgdir := (metadata_of_listed hlist (List.mem_of_getElem? hg) hd).2.1
    refine ⟨j, g, e.1, hj, hg, hgdir.trans hdir, ?_⟩
    rw [hjoin, PathBuf.components_join _ (disk.entries_named d e he)]

/-- Every listed file is below the directory. -/
theorem Copied.below (h : disk.Copied dir paths files) (i : ℕ) {f : LocalFile}
    (hf : files[i]? = some f) : ∃ ns name, f.path.components = dir ++ names (ns ++ [name]) := by
  induction i using Nat.strong_induction_on generalizing f with
  | _ i ih =>
    rcases (h.origin hf).2 with hpath | ⟨j, g, name, hj, hg, -, hcomponents⟩
    · obtain ⟨name, hname⟩ := h.in_dir _ hpath
      exact ⟨[], name, hname⟩
    · obtain ⟨ns, last, hbelow⟩ := ih j hj hg
      refine ⟨ns ++ [last], name, ?_⟩
      rw [hcomponents, hbelow, names_concat (ns ++ [last]), List.append_assoc]

/-- The relative path of a listed file is its path below the directory. -/
theorem Copied.relativePath (h : disk.Copied dir paths files) {i : ℕ} {f : LocalFile}
    (hf : files[i]? = some f) :
    f.path.components = dir ++ f.relativePath.components := by
  obtain ⟨fuel, hlist⟩ := h.listed
  obtain ⟨first, hfirst, root, hparent, hroots⟩ := relativeRoot_of_constructFileList hlist
  have hroot : f.relativeRoot.components = dir := by
    obtain ⟨name, hname⟩ := h.in_dir first hfirst
    rw [hroots f (List.mem_of_getElem? hf), PathBuf.components_of_parent hparent, hname]
    simp [names]
  obtain ⟨ns, name, hbelow⟩ := h.below i hf
  have hprefix : f.relativeRoot.components <+: f.path.components := by
    rw [hroot, hbelow]
    exact List.prefix_append _ _
  obtain ⟨q, hq⟩ : ∃ q, f.path.stripPrefix f.relativeRoot = some q := by
    unfold PathBuf.stripPrefix
    rw [if_pos hprefix]
    split_ifs <;> exact ⟨_, rfl⟩
  rw [LocalFile.relativePath, hq, Option.getD_some, PathBuf.components_stripPrefix hq, hroot,
    hbelow, List.drop_left]

/-- The entries arrive, one for each file. -/
theorem Copied.arrives (h : disk.Copied dir paths files) (checked : Bool) (connId : BitVec 32) :
    ∃ pdu, buildFileListPdu checked files = .ok pdu ∧
      parseFileDescriptors checked pdu connId =
        .ok (.ok (files.map (LocalFile.described connId))) := by
  obtain ⟨data, hdata⟩ := (recordsOf_isOk_iff checked).mpr fun f hf => (h.portable f hf).short
  have hpdu : buildFileListPdu checked files =
      .ok (LittleEndian.toBytes 4 files.length ++ data) := by
    rw [buildFileListPdu, hdata]
    rfl
  have hparse := (parseFileDescriptors_build connId hpdu).2
  have hfew : files.length < 2 ^ 32 := lt_of_le_of_lt h.few (by omega)
  rw [if_pos hfew] at hparse
  exact ⟨_, hpdu, hparse⟩

/-- The entry of a file carries its relative path. -/
theorem Copied.described_name (h : disk.Copied dir paths files) (connId : BitVec 32) {i : ℕ}
    {f : LocalFile} (hf : files[i]? = some f) : (f.described connId).name = f.relativePath := by
  obtain ⟨fuel, hlist⟩ := h.listed
  have hmem := List.mem_of_getElem? hf
  have hnull : 0 ∉ f.relativePath :=
    forall_of_constructFileList (fun _ _ _ => zero_notMem_relativePath) hlist f hmem
  exact (LocalFile.described_name_iff connId (h.no_backslash f hmem) hnull).mpr
    (h.portable f hmem).utf8

end Disk

end RdWeb.Clipboard
