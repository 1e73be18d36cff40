import RdWeb.Clipboard.ServedList
import RdWeb.Fuse.BuiltTree
import RdWeb.Fuse.ReadRequest

/-!
# What is pasted is what was copied

From the disk of one side over the file list, its encoding and the tree to the requests for the
contents: a path resolves in the mounted tree exactly when it was copied, its node has the kind
and the size of what is on the disk, and its bytes can be read.
-/

namespace RdWeb.Fuse

open RdWeb.Clipboard FileDescription

section Paste

variable {Node : Type*}

/-- What is copied has names the mount can show, and contents that can be read in full. -/
structure Pasteable (disk : Disk Node) (dir : List Component) (paths : List PathBuf)
    (files : List LocalFile) : Prop extends disk.Copied dir paths files where
  findable : ∀ f ∈ files, ∀ c ∈ f.relativePath.components,
    FuseServer.Findable (componentName c)
  readable : ∀ f ∈ files, ∀ n, disk.resolve f.path = some n → disk.isDir n = false →
    (disk.content n).fault = none ∧ (disk.metadata n).len ≤ (disk.content n).bytes.length

/-- A node of the mount shows a node of the disk: its attributes, and its bytes to every read
without a sign bit, whatever was asked before. -/
structure Mirrors (disk : Disk Node) (checked : Bool) (files : List LocalFile) (n : Node)
    (node : FuseNode) : Prop where
  kind : node.attributes.kind = if disk.isDir n then .directory else .file
  size : node.attributes.size.toNat = (disk.metadata n).len
  perm : node.attributes.perm = (disk.metadata n).mode.setWidth 16
  bytes : disk.isDir n = false → ∀ (cached s : ClipFiles) (connId : BitVec 32)
    (offset : BitVec 64) (size : BitVec 32), cached.fileList = files →
    (serveMachine disk.fileSystem checked cached).Reachable s → offset.getLsbD 31 = false →
    size.toNat < 2 ^ 31 → offset.toNat ≤ (disk.metadata n).len →
    (readFileContents disk.fileSystem checked s connId (node.readRequest offset size)).2 =
      .ok (.ok ⟨0x1, node.streamId, ((disk.content n).bytes.drop offset.toNat).take
        (min size.toNat ((disk.metadata n).len - offset.toNat))⟩)

variable {disk : Disk Node} {dir : List Component} {paths : List PathBuf}
  {files : List LocalFile} {checked : Bool} {connId : BitVec 32}

/-- A file whose bytes can be read is opened. -/
theorem openReader_of_resolve {path : PathBuf} {n : Node} (hn : disk.resolve path = some n)
    (hfault : (disk.content n).fault = none) :
    LocalFile.openReader disk.fileSystem path = .ok ⟨disk.content n, 0⟩ := by
  have hopen : disk.fileSystem.openFile path = .ok (disk.content n) := by
    simp only [Disk.fileSystem, hn]
  unfold LocalFile.openReader
  rw [hopen]
  dsimp only
  rw [hfault]
  split
  · next heq => cases heq
  · rfl

namespace Pasteable

variable (h : Pasteable disk dir paths files)

include h

/-- Every listed file leads somewhere. -/
theorem resolves {f : LocalFile} (hf : f ∈ files) : ∃ n, disk.resolve f.path = some n := by
  obtain ⟨i, hi⟩ := List.mem_iff_getElem?.mp hf
  exact (h.toCopied.origin hi).1.elim fun _ hs => hs.2.2

/-- At any time of the serving, the files of the list open. -/
theorem reader_isOk {cached s : ClipFiles} (hcached : cached.fileList = files)
    (hs : (serveMachine disk.fileSystem checked cached).Reachable s) {g : LocalFile}
    (hg : g ∈ s.fileList) (hdir : g.isDir = false) :
    ∃ r, g.reader disk.fileSystem = .ok r := by
  unfold LocalFile.reader
  cases hhandle : g.handle with
  | some r => exact ⟨r, rfl⟩
  | none =>
    have hmem : g.listed ∈ s.listed := List.mem_map.mpr ⟨g, hg, rfl⟩
    rw [listed_of_reachable hs, ClipFiles.listed, hcached] at hmem
    obtain ⟨f, hf, hlisted⟩ := List.mem_map.mp hmem
    simp only [LocalFile.listed, Prod.mk.injEq] at hlisted
    obtain ⟨hpath, -, hkind⟩ := hlisted
    obtain ⟨n, hn⟩ := h.resolves hf
    obtain ⟨fuel, hlist⟩ := h.listed
    have hnode := (Disk.metadata_of_listed hlist hf hn).2.1
    have hfault := (h.readable f hf n hn (by rw [← hnode, hkind, hdir])).1
    rw [hpath] at hn
    exact ⟨_, openReader_of_resolve hn hfault⟩

/-- The node made for a listed file shows what its path leads to. -/
theorem mirrors {i : ℕ} {f : LocalFile} (hf : files[i]? = some f) {n : Node}
    (hn : disk.resolve f.path = some n) {node : FuseNode} (hindex : node.index = i)
    (hattributes : node.attributes = ⟨i + 2, (f.described connId).size,
      (f.described connId).kind, (f.described connId).perm⟩) :
    Mirrors disk checked files n node := by
  have hmem := List.mem_of_getElem? hf
  obtain ⟨fuel, hlist⟩ := h.listed
  obtain ⟨hsize, hkind, hperm⟩ := Disk.metadata_of_listed hlist hmem hn
  refine ⟨?_, ?_, ?_, ?_⟩
  · rw [hattributes, ← hkind]
    rfl
  · rw [hattributes, ← hsize]
    have hlt := f.size_lt
    show (BitVec.ofNat 64 f.size).toNat = f.size
    rw [BitVec.toNat_ofNat]
    omega
  · rw [hattributes, ← hperm]
    rfl
  · intro hfile cached s connId offset size hcached hs hbit hlength hoffset
    have hidx : (node.readRequest offset size).fileIdx = i := by
      have hlt := (List.getElem?_eq_some_iff.mp hf).1
      have hfew := h.few
      show ((BitVec.ofNat 32 node.index).signExtend 64).toNat = i
      have hsmall : (BitVec.ofNat 32 i).toNat = i := by
        rw [BitVec.toNat_ofNat]
        omega
      have hmsb : (BitVec.ofNat 32 i).msb = false := by
        rw [BitVec.msb_eq_decide, hsmall]
        exact decide_eq_false (by omega)
      rw [hindex, BitVec.signExtend_eq_setWidth_of_msb_false hmsb,
        BitVec.toNat_setWidth_of_le (by omega), hsmall]
    have hlisted : s.listed[i]? = some f.listed := by
      rw [listed_of_reachable hs, ClipFiles.listed, hcached, List.getElem?_map, hf]
      rfl
    rw [ClipFiles.listed, List.getElem?_map] at hlisted
    obtain ⟨g, hg, hsame⟩ := Option.map_eq_some_iff.mp hlisted
    simp only [LocalFile.listed, Prod.mk.injEq] at hsame
    obtain ⟨hpath, hgsize, hgdir⟩ := hsame
    obtain ⟨hfault, hlong⟩ := h.readable f hmem n hn hfile
    have hdisk : OnDisk disk.fileSystem g (disk.content n) := by
      refine ⟨by rw [hgdir, hkind, hfile], ?_, by omega⟩
      rw [hpath]
      exact openReader_of_resolve hn hfault
    have hnext : ClipFiles.FirstOpens disk.fileSystem
        (s.fileList.drop ((node.readRequest offset size).fileIdx + 1)) := fun g' hg' =>
      h.reader_isOk hcached hs (List.mem_of_mem_drop (List.mem_of_find?_eq_some hg'))
        (by simpa using List.find?_some hg')
    rw [← hsize, ← hgsize] at hoffset ⊢
    exact readFileContents_exact (synced_of_reachable (hcached ▸ hlist) hs) hbit hlength
      (hidx ▸ hg) hdisk hoffset hnext

/-- The names of a listed file below the directory. -/
theorem described_names (connId : BitVec 32) {i : ℕ} {f : LocalFile} (hf : files[i]? = some f) :
    ∃ ns name, f.path.components = dir ++ names (ns ++ [name]) ∧
      (f.described connId).name.components = names (ns ++ [name]) ∧
      (f.described connId).name.fileName = some name := by
  obtain ⟨ns, name, hbelow⟩ := h.toCopied.below i hf
  have hrelative := h.toCopied.relativePath hf
  rw [hbelow, List.append_cancel_left_eq] at hrelative
  rw [h.toCopied.described_name connId hf]
  refine ⟨ns, name, hbelow, hrelative.symm, ?_⟩
  exact PathBuf.fileName_of_components (hrelative.symm.trans (names_concat ns name))

/-- The names of a copied file can be found. -/
theorem findable_described {file : FileDescription}
    (hfile : file ∈ files.map (LocalFile.described connId)) :
    ∀ c ∈ file.name.components, FuseServer.Findable (componentName c) := by
  obtain ⟨f, hf, rfl⟩ := List.mem_map.mp hfile
  obtain ⟨i, hi⟩ := List.mem_iff_getElem?.mp hf
  rw [h.toCopied.described_name connId hi]
  exact h.findable f hf

/-- Every entry comes after the directory it is in. -/
theorem preOrdered : FuseServer.PreOrdered [] (files.map (LocalFile.described connId)) := by
  intro i file hfile
  rw [List.getElem?_map] at hfile
  obtain ⟨f, hf, rfl⟩ := Option.map_eq_some_iff.mp hfile
  obtain ⟨ns, name, hbelow, hnames, hbase⟩ := h.described_names connId hf
  obtain ⟨parent, hparent, hcomponents⟩ := FuseNode.parent_of_fileName hbase
  rw [hnames, names_concat, List.dropLast_concat] at hcomponents
  refine ⟨parent, hparent, ?_⟩
  rcases (h.toCopied.origin hf).2 with hpath | ⟨j, g, last, hj, hg, hdir, hentry⟩
  · obtain ⟨only, honly⟩ := h.in_dir _ hpath
    rw [hbelow, List.append_cancel_left_eq] at honly
    have hsingle : ns ++ [name] = [only] := names_inj honly
    obtain rfl : ns = [] := List.append_eq_singleton_iff.mp hsingle |>.elim And.left
      fun hne => absurd hne.2 (List.cons_ne_nil name [])
    exact .inl hcomponents
  · right
    obtain ⟨ms, m, hgbelow, hgnames, -⟩ := h.described_names connId hg
    refine ⟨j, g.described connId, hj, by rw [List.getElem?_map, hg]; rfl, ?_, ?_⟩
    · show (if g.isDir then FileType.directory else FileType.file) = .directory
      rw [if_pos hdir]
    · rw [hbelow, hgbelow, names_concat, List.append_assoc, ← List.append_assoc,
        List.append_assoc, List.append_cancel_left_eq] at hentry
      have hfront := (List.append_inj' hentry rfl).1
      rw [hgnames, hcomponents, hfront]

/-- No two entries have the same path. -/
theorem distinctPaths : FuseServer.DistinctPaths (files.map (LocalFile.described connId)) := by
  obtain ⟨fuel, hlist⟩ := h.listed
  obtain ⟨root, hwalk⟩ := Disk.walked_of_constructFileList hlist
  have hnodup := hwalk.nodup
  rw [FuseServer.DistinctPaths, List.map_map]
  rw [List.map_map] at hnodup
  refine List.Nodup.of_map (fun components => dir ++ components) ?_
  rw [List.map_map]
  have hsame : files.map ((fun components => dir ++ components) ∘
      (fun file : FileDescription => file.name.components) ∘ LocalFile.described connId) =
      files.map (PathBuf.components ∘ LocalFile.path) := by
    refine List.map_congr_left fun f hf => ?_
    obtain ⟨i, hi⟩ := List.mem_iff_getElem?.mp hf
    obtain ⟨ns, name, hbelow, hnames, -⟩ := h.described_names connId hi
    show dir ++ (f.described connId).name.components = f.path.components
    rw [hnames, hbelow]
  rwa [hsame]

end Pasteable

/-- **What is pasted is what was copied.** The list arrives and makes a tree. Every path below
those that were copied resolves in it to a node that mirrors what is on the disk, and nothing
else resolves. -/
theorem pasted_is_copied (h : Pasteable disk dir paths files) (checked : Bool)
    (connId : BitVec 32) :
    ∃ pdu entries, buildFileListPdu checked files = .ok pdu ∧
      parseFileDescriptors checked pdu connId = .ok (.ok entries) ∧
      ∀ (rootStreamId : BitVec 32) (streamIds : List (BitVec 32)),
        streamIds.length = entries.length →
        ∃ tree, FuseNode.buildTree rootStreamId (entries.zip streamIds) = .ok tree ∧
        ∀ counter generation,
          (∀ s ∈ paths, ∀ p n, disk.Reached s p → disk.resolve p = some n →
            ∃ ns ino node, p.components = dir ++ names ns ∧
              (⟨tree, counter⟩ : FuseServer).resolve generation fuseRootId (names ns) =
                some ino ∧
              (⟨tree, counter⟩ : FuseServer).entry ino = some node ∧
              Mirrors disk checked files n node) ∧
          ∀ ns ino, ns ≠ [] →
            (⟨tree, counter⟩ : FuseServer).resolve generation fuseRootId (names ns) = some ino →
            ∃ s ∈ paths, ∃ p n, disk.Reached s p ∧ disk.resolve p = some n ∧
              p.components = dir ++ names ns := by
  obtain ⟨pdu, hpdu, hparse⟩ := h.toCopied.arrives checked connId
  refine ⟨pdu, _, hpdu, hparse, fun rootStreamId streamIds hlength => ?_⟩
  have hfst : ((files.map (LocalFile.described connId)).zip streamIds).map Prod.fst =
      files.map (LocalFile.described connId) := List.map_fst_zip hlength.ge
  have hnamed : ∀ entry ∈ (files.map (LocalFile.described connId)).zip streamIds,
      ∃ base, entry.1.name.fileName = some base := by
    intro entry hentry
    obtain ⟨f, hf, hdescribed⟩ := List.mem_map.mp (List.of_mem_zip hentry).1
    obtain ⟨i, hi⟩ := List.mem_iff_getElem?.mp hf
    obtain ⟨ns, name, -, -, hbase⟩ := h.described_names connId hi
    exact ⟨name, hdescribed ▸ hbase⟩
  obtain ⟨tree, htree⟩ := FuseNode.exists_buildTree hnamed rootStreamId
  refine ⟨tree, htree, fun counter generation => ?_⟩
  have hshows := FuseNode.shows_buildTree htree
  obtain ⟨b, rfl, hbuilds, htreeLength⟩ := FuseNode.builds_of_buildTree htree
  rw [hfst] at hshows hbuilds htreeLength
  constructor
  · intro s hs p n hreached hn
    obtain ⟨fuel, hlist⟩ := h.listed
    obtain ⟨root, hwalk⟩ := Disk.walked_of_constructFileList hlist
    obtain ⟨i, f, hf, hcomponents, hfn⟩ := Disk.listed_of_reached hwalk hs hreached hn
    obtain ⟨ns, name, hbelow, hnames, -⟩ := h.described_names connId hf
    have hfile : (files.map (LocalFile.described connId))[i]? = some (f.described connId) := by
      rw [List.getElem?_map, hf]
      rfl
    obtain ⟨node, hnode, hof⟩ := hbuilds.node_of_file htreeLength hfile
    have hresolve := hbuilds.resolve_entry htreeLength h.preOrdered h.distinctPaths counter
      generation i hfile fun c hc => h.findable_described (List.mem_of_getElem? hfile) c
        (List.mem_of_mem_drop hc)
    have hnil : (PathBuf.components []).length = 0 := rfl
    rw [hnil, List.drop_zero, hnames] at hresolve
    refine ⟨ns ++ [name], i + 2, node, hcomponents ▸ hbelow, hresolve, ?_, ?_⟩
    · rw [FuseNode.Builds.entry_succ]
      exact hnode
    · exact h.mirrors hf hfn hof.index_eq (hshows.2 i _ node hfile hnode)
  · intro ns ino hne hresolve
    rcases hbuilds.of_resolve h.preOrdered (fun file hfile base hbase =>
      h.findable_described hfile _ (List.mem_of_getLast? (FuseNode.getLast?_of_fileName hbase)))
      ns hresolve with ⟨hnil, -⟩ | ⟨i, file, hfile, -, hcomponents⟩
    · exact absurd hnil hne
    · rw [List.getElem?_map] at hfile
      obtain ⟨f, hf, rfl⟩ := Option.map_eq_some_iff.mp hfile
      obtain ⟨ms, name, hbelow, hnames, -⟩ := h.described_names connId hf
      obtain ⟨s, hs, hreached, n, hn⟩ := (h.toCopied.origin hf).1
      exact ⟨s, hs, f.path, n, hreached, hn, by rw [hbelow, ← hcomponents, hnames]⟩

end Paste

/-- The sizes of the nodes of `pasteDisk`. -/
def pasteLen (n : Fin 3) : ℕ := if n.val = 2 then 3 else 0

/-- The files of the disk are short enough for an offset. -/
theorem pasteLen_lt (n : Fin 3) : pasteLen n < 2 ^ 63 := by
  unfold pasteLen
  split_ifs
  · decide
  · decide

/-- The root is a node of the disk. -/
theorem pasteRoot_lt : 0 < 3 := by decide

/-- The directory is a node of the disk. -/
theorem pasteDir_lt : 1 < 3 := by decide

/-- The file is a node of the disk. -/
theorem pasteFile_lt : 2 < 3 := by decide

/-- The nodes of `pasteDisk`: its root, `/d` and `/d/a`. -/
def pasteRoot : Fin 3 := ⟨0, pasteRoot_lt⟩

/-- The directory of the disk. -/
def pasteDir : Fin 3 := ⟨1, pasteDir_lt⟩

/-- The file of the disk. -/
def pasteFile : Fin 3 := ⟨2, pasteFile_lt⟩

/-- The root holds the directory, and that the file. -/
def pasteEntries (n : Fin 3) : List (List UInt8 × Option (Fin 3)) :=
  if n.val = 0 then [([100], some pasteDir)]
  else if n.val = 1 then [([97], some pasteFile)]
  else []

/-- The names of the disk. -/
theorem pasteEntries_name {n : Fin 3} {e : List UInt8 × Option (Fin 3)} (he : e ∈ pasteEntries n) :
    e.1 = [100] ∨ e.1 = [97] := by
  unfold pasteEntries at he
  split_ifs at he <;> simp_all

/-- They are names of entries. -/
theorem pasteEntries_named (n : Fin 3) (e : List UInt8 × Option (Fin 3)) (he : e ∈ pasteEntries n) :
    IsName e.1 := by
  rcases pasteEntries_name he with hname | hname
  · rw [hname]
    exact ⟨by decide, by decide, by decide, by decide, by decide⟩
  · rw [hname]
    exact ⟨by decide, by decide, by decide, by decide, by decide⟩

/-- No directory has two entries of one name. -/
theorem pasteEntries_nodup (n : Fin 3) : ((pasteEntries n).map Prod.fst).Nodup := by
  unfold pasteEntries
  split_ifs <;> simp

/-- A disk with one directory, `/d`, and one file in it, `/d/a`. -/
def pasteDisk : Disk (Fin 3) where
  metadata n := ⟨pasteLen n, pasteLen_lt n, n.val ≠ 2, 0o644, some 0⟩
  content n := ⟨if n.val = 2 then [1, 2, 3] else [], none⟩
  entries := pasteEntries
  above _ := pasteRoot
  root := pasteRoot
  cwd := pasteRoot
  entries_named n e he := pasteEntries_named n e he
  entries_nodup n := pasteEntries_nodup n

/-- The list of `/d`. -/
def pasteFiles : List LocalFile :=
  ((constructFileList pasteDisk.fileSystem 4 [[47, 100]]).bind Except.toOption).getD []

/-- The paths of the copied files. -/
theorem relativePath_pasteFiles : ∀ f ∈ pasteFiles,
    f.relativePath = PathBuf.ofString "d" ∨ f.relativePath = PathBuf.ofString "d/a" := by
  decide

/-- The copied files can be pasted. -/
theorem pasteable_pasteFiles : Pasteable pasteDisk [.rootDir] [[47, 100]] pasteFiles where
  listed := ⟨4, rfl⟩
  in_dir s hs := by
    obtain rfl := List.mem_singleton.mp hs
    exact ⟨[100], by decide⟩
  few := by decide
  no_backslash := by decide
  portable f hf := by
    have htime : -100 < f.lastWriteTime ∧ f.lastWriteTime < 2 ^ 64 := by
      revert f
      decide
    rcases relativePath_pasteFiles f hf with hname | hname
    · refine ⟨?_, ?_, htime.1, htime.2⟩
      · rw [hname, PathBuf.toStr_ofString]
        rfl
      · rw [LocalFile.nameUnits, LocalFile.nameChars, hname, PathBuf.toStringLossy_ofString]
        decide
    · refine ⟨?_, ?_, htime.1, htime.2⟩
      · rw [hname, PathBuf.toStr_ofString]
        rfl
      · rw [LocalFile.nameUnits, LocalFile.nameChars, hname, PathBuf.toStringLossy_ofString]
        decide
  findable f hf c hc := by
    have hname : c = .normal [100] ∨ c = .normal [97] := by
      revert c f
      decide
    rcases hname with rfl | rfl
    · exact ⟨by decide, by decide⟩
    · exact ⟨by decide, by decide⟩
  readable := by decide

/-- The file that was copied with its directory is found below it, with its bytes. -/
theorem pasted_is_copied_pasteFiles : ∃ tree ino node,
    (⟨tree, 0⟩ : FuseServer).resolve 0 fuseRootId (names [[100], [97]]) = some ino ∧
    (⟨tree, 0⟩ : FuseServer).entry ino = some node ∧
    Mirrors pasteDisk true pasteFiles 2 node := by
  obtain ⟨pdu, entries, -, -, htree⟩ := pasted_is_copied pasteable_pasteFiles true 0
  obtain ⟨tree, -, hmount⟩ := htree 0 (List.replicate entries.length 7) (by simp)
  have hreached : pasteDisk.Reached [47, 100] [47, 100, 47, 97] :=
    .single ⟨1, by decide, rfl, ([97], some 2), by decide, rfl⟩
  obtain ⟨ns, ino, node, hcomponents, hresolve, hentry, hmirrors⟩ :=
    (hmount 0 0).1 [47, 100] (by simp) [47, 100, 47, 97] 2 hreached (by decide)
  have hns : names [[100], [97]] = names ns :=
    List.append_cancel_left (show [Component.rootDir] ++ names [[100], [97]] = _ from
      (show _ = PathBuf.components [47, 100, 47, 97] by decide).trans hcomponents)
  rw [← hns] at hresolve
  exact ⟨tree, ino, node, hresolve, hentry, hmirrors⟩

end RdWeb.Fuse
