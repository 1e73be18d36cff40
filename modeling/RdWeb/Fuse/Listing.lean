import RdWeb.Fuse.BuiltTree
import RdWeb.Fuse.HandleEffects
import RdWeb.Lib.Paging

/-!
# Listing a mounted directory

`readdir` fills a buffer from an offset on, and the kernel asks again from the offset of the last
entry it got. Whatever the buffers are, the entries are `.`, `..` and exactly what `lookup` finds in
the directory, each once, on every server whose list was not loaded again.
-/

namespace RdWeb.Fuse

open RdWeb.Clipboard

namespace FuseServer

/-- `readdir` with room for some bytes in its reply: entries are added with the offsets after them
until one does not fit. -/
def readdirPage (s : FuseServer) (cost : DirEntry → ℕ) (ino : Inode) (fh room offset : ℕ) :
    Option (List (ℕ × DirEntry)) :=
  match s.handleCheck ino fh with
  | .error _ => none
  | .ok node =>
    if node.attributes.kind ≠ .directory then none
    else some (Paging.page cost (s.listing ino node) room offset)

/-- What the kernel reads of a directory, if every entry of it fits in each of the replies. -/
def ReadsDirectory (s : FuseServer) (cost : DirEntry → ℕ) (ino : Inode) (fh : ℕ) :
    List DirEntry → Prop :=
  Paging.Reads (s.readdirPage cost ino fh)
    (fun room => ∀ node, s.entry ino = some node → ∀ e ∈ s.listing ino node, cost e ≤ room) 0

/-! ### Handles do not matter -/

/-- The server without its open handles. -/
def closed (s : FuseServer) : FuseServer :=
  { s with files := s.files.map fun node => { node with fileHandlers := {} } }

/-- The nodes of the server with all handles closed. -/
theorem entry_closed (s : FuseServer) (ino : Inode) :
    s.closed.entry ino = (s.entry ino).map fun node => { node with fileHandlers := {} } := by
  unfold entry
  split_ifs
  · rfl
  · exact List.getElem?_map ..

/-- Closing all handles does not change which child has a name. -/
theorem findChild_closed (s : FuseServer) (name : List UInt8) (children : List Inode) :
    s.closed.findChild name children = s.findChild name children := by
  unfold findChild
  congr 1
  funext inode
  rw [entry_closed]
  cases s.entry inode <;> rfl

/-- Closing all handles does not change a lookup. -/
theorem lookup_closed (s : FuseServer) (generation : ℕ) (parent : Inode) (name : List UInt8) :
    s.closed.lookup generation parent name = s.lookup generation parent name := by
  unfold lookup
  rw [entry_closed]
  cases s.entry parent with
  | none => rfl
  | some node => simp only [Option.map_some, findChild_closed]

/-- Closing all handles does not change a listing. -/
theorem listing_closed (s : FuseServer) (ino : Inode) (node : FuseNode) :
    s.closed.listing ino { node with fileHandlers := {} } = s.listing ino node := by
  unfold listing closed
  simp only [List.getElem?_map, Option.map_map]
  rfl

/-- The handles of a node do not matter once all are closed. -/
theorem closed_setHandlers (s : FuseServer) (ino : Inode) (h : FileHandles) :
    (s.setHandlers ino h).closed.files = s.closed.files := by
  unfold setHandlers closed
  apply List.ext_getElem?
  intro i
  simp only [List.getElem?_map, List.getElem?_modify]
  cases s.files[i]? with
  | none => rfl
  | some node =>
    simp only [Option.map_some]
    split_ifs <;> rfl

/-- A lookup needs the nodes only. -/
theorem lookup_congr {s t : FuseServer} (h : s.closed.files = t.closed.files) (generation : ℕ)
    (parent : Inode) (name : List UInt8) :
    s.lookup generation parent name = t.lookup generation parent name := by
  have hentry (ino : Inode) : s.closed.entry ino = t.closed.entry ino := by
    unfold entry
    rw [h]
  have hfind (children : List Inode) :
      s.closed.findChild name children = t.closed.findChild name children := by
    unfold findChild
    simp only [hentry]
  rw [← lookup_closed s, ← lookup_closed t]
  unfold lookup
  simp only [hentry, hfind]

/-- The operation does not replace the tree. -/
def KeepsTree : FuseOp → Prop
  | .init _ | .loadFileList .. => False
  | _ => True

/-- One operation changes handles only. -/
theorem closed_step (s : FuseServer) {op : FuseOp} (hop : KeepsTree op) :
    (s.step op).1.closed.files = s.closed.files := by
  have hgrant (ino : Inode) (node : FuseNode) :
      (s.grantHandle ino node).1.closed.files = s.closed.files :=
    closed_setHandlers s.allocFd.2 ino _
  cases op with
  | init | loadFileList => exact hop.elim
  | opendir ino =>
    unfold step opendir
    dsimp only
    split
    · rfl
    · split_ifs
      · rfl
      · rfl
      · exact hgrant ..
  | «open» ino =>
    unfold step FuseServer.open
    dsimp only
    split
    · rfl
    · split_ifs
      · rfl
      · rfl
      · exact hgrant ..
  | readdir | read => rfl
  | releasedir ino fh =>
    unfold step releasedir
    dsimp only
    split
    · rfl
    · split_ifs
      · rfl
      · rfl
      · exact closed_setHandlers ..
  | release ino fh =>
    unfold step release
    dsimp only
    split
    · rfl
    · split
      · rfl
      · exact closed_setHandlers ..

/-- The operations change handles only. -/
theorem closed_foldl (ops : List FuseOp) (hops : ∀ op ∈ ops, KeepsTree op) (s : FuseServer) :
    (ops.foldl (fun s op => (s.step op).1) s).closed.files = s.closed.files := by
  induction ops generalizing s with
  | nil => rfl
  | cons op ops ih =>
    rw [List.foldl_cons, ih fun op hop => hops op (List.mem_cons_of_mem _ hop)]
    exact closed_step s (hops op List.mem_cons_self)

/-! ### Entries and lookups -/

/-- The entries of the directory itself and of the one above. -/
def dots (ino : Inode) (node : FuseNode) : List DirEntry :=
  ⟨ino, .directory, "."⟩ :: node.parent.toList.map fun parent => ⟨parent, .directory, ".."⟩

/-- The entries of the children. -/
def childEntries (s : FuseServer) (node : FuseNode) : List DirEntry :=
  node.children.filterMap fun inode =>
    s.files[inode - 1]?.map fun child => ⟨inode, child.attributes.kind, child.name⟩

/-- A listing is the two dots and the children. -/
theorem listing_eq (s : FuseServer) (ino : Inode) (node : FuseNode) :
    s.listing ino node = dots ino node ++ s.childEntries node := rfl

/-- The entry stands for what is found under its name. -/
def Finds (s : FuseServer) (ino : Inode) (e : DirEntry) : Prop :=
  ∀ generation, ∃ attributes, s.lookup generation ino (PathBuf.ofString e.name) =
    .entry 0 attributes generation ∧ attributes.inode = e.inode ∧ attributes.kind = e.kind

/-- The names in a list can all be shown. -/
def Shown (all : List FileDescription) : Prop :=
  ∀ file ∈ all, ∀ base, file.name.fileName = some base → Findable base

section

variable {all : List FileDescription} {b : FuseNode.TreeBuilder} (h : FuseNode.Builds all b)
  (hlength : b.treeList.length = all.length + 1) {pre : PathBuf} (hpre : PreOrdered pre all)
  (hdistinct : DistinctPaths all) (hshown : Shown all) (counter : ℕ)

include h in
/-- The children in a listing are the nodes with this parent. -/
theorem mem_childEntries {p : ℕ} {node : FuseNode} (hnode : b.treeList[p]? = some node)
    {e : DirEntry} : e ∈ childEntries ⟨b.treeList, counter⟩ node ↔
      ∃ i child, b.treeList[i]? = some child ∧ child.parent = some (p + 1) ∧
        e = ⟨i + 1, child.attributes.kind, child.name⟩ := by
  unfold childEntries
  rw [List.mem_filterMap]
  constructor
  · rintro ⟨c, hc, hentry⟩
    obtain ⟨i, child, rfl, hchild, hparent⟩ := ((h.children p node hnode).mem_iff c).mp hc
    rw [Nat.add_sub_cancel, hchild] at hentry
    exact ⟨i, child, hchild, hparent, (Option.some.inj hentry).symm⟩
  · rintro ⟨i, child, hchild, hparent, rfl⟩
    refine ⟨i + 1, ((h.children p node hnode).mem_iff _).mpr ⟨i, child, rfl, hchild, hparent⟩, ?_⟩
    rw [Nat.add_sub_cancel, hchild]
    rfl

include h hlength hpre hdistinct hshown in
/-- A child is found under its name. -/
theorem finds_child {p i : ℕ} {child : FuseNode} (hchild : b.treeList[i]? = some child)
    (hparent : child.parent = some (p + 1)) :
    Finds ⟨b.treeList, counter⟩ (p + 1) ⟨i + 1, child.attributes.kind, child.name⟩ := by
  cases i with
  | zero =>
    obtain ⟨r, hr, -, -, hnone⟩ := h.root
    obtain rfl : child = r := Option.some.inj (hchild.symm.trans hr)
    rw [hnone] at hparent
    cases hparent
  | succ i =>
    obtain ⟨file, hfile, hof⟩ := h.node i child hchild
    obtain ⟨base, hbase, hname⟩ := hof.named
    have hfindable := hshown file (List.mem_of_getElem? hfile) base hbase
    obtain ⟨text, htext⟩ := Option.isSome_iff_exists.mp hfindable.2
    have hbytes : PathBuf.ofString child.name = base := by
      rw [hname, htext, Option.getD_some, PathBuf.ofString_of_toStr htext]
    intro generation
    refine ⟨child.attributes, ?_, hof.inode_eq, rfl⟩
    rw [hbytes]
    exact h.lookup_child hlength hpre hdistinct hfile hchild hbase hfindable hparent counter
      generation

include h hshown in
/-- What is found under a name is a child with it. -/
theorem child_of_finds {p : ℕ} {e : DirEntry} (hfinds : Finds ⟨b.treeList, counter⟩ (p + 1) e) :
    ∃ i child, b.treeList[i]? = some child ∧ child.parent = some (p + 1) ∧
      e = ⟨i + 1, child.attributes.kind, child.name⟩ := by
  obtain ⟨attributes, hlookup, hinode, hkind⟩ := hfinds 0
  obtain ⟨i, file, child, hfile, hchild, hof, hbase, hparent, rfl⟩ :=
    h.of_lookup hshown hlookup
  refine ⟨i + 1, child, hchild, hparent, ?_⟩
  obtain ⟨base, hbase', hname⟩ := hof.named
  obtain rfl : PathBuf.ofString e.name = base := Option.some.inj (hbase.symm.trans hbase')
  rw [PathBuf.toStr_ofString, Option.getD_some] at hname
  cases e with
  | mk inode kind name =>
    dsimp only at hname hkind hinode
    rw [hname, ← hkind, ← hinode, hof.inode_eq]

include h hlength hpre hdistinct hshown in
/-- The children of a node are what is found in it, each under a name of its own. -/
theorem childEntries_spec {p : ℕ} {node : FuseNode} (hnode : b.treeList[p]? = some node) :
    ((childEntries ⟨b.treeList, counter⟩ node).map DirEntry.name).Nodup ∧
      ∀ e, e ∈ childEntries ⟨b.treeList, counter⟩ node ↔
        Finds ⟨b.treeList, counter⟩ (p + 1) e := by
  have hmem (e : DirEntry) : e ∈ childEntries ⟨b.treeList, counter⟩ node ↔
      Finds ⟨b.treeList, counter⟩ (p + 1) e := by
    rw [mem_childEntries h counter hnode]
    constructor
    · rintro ⟨i, child, hchild, hparent, rfl⟩
      exact finds_child h hlength hpre hdistinct hshown counter hchild hparent
    · exact child_of_finds h hshown counter
  refine ⟨?_, hmem⟩
  have hsame (e e' : DirEntry) (he : e ∈ childEntries ⟨b.treeList, counter⟩ node)
      (he' : e' ∈ childEntries ⟨b.treeList, counter⟩ node) (hname : e.name = e'.name) :
      e.inode = e'.inode := by
    obtain ⟨attributes, hlookup, hinode, -⟩ := (hmem e).mp he 0
    obtain ⟨attributes', hlookup', hinode', -⟩ := (hmem e').mp he' 0
    rw [hname, hlookup'] at hlookup
    simp only [LookupReply.entry.injEq] at hlookup
    rw [← hinode, ← hinode', hlookup.2.1]
  have hsorted : (childEntries ⟨b.treeList, counter⟩ node).Pairwise
      fun e e' => e.inode < e'.inode := by
    unfold childEntries
    rw [List.pairwise_filterMap]
    refine (h.children p node hnode).sorted.imp ?_
    intro c c' hlt e he e' he'
    obtain ⟨child, -, rfl⟩ := Option.map_eq_some_iff.mp he
    obtain ⟨child', -, rfl⟩ := Option.map_eq_some_iff.mp he'
    exact hlt
  rw [List.Nodup, List.pairwise_map]
  refine hsorted.imp_of_mem fun he he' hlt hname => ?_
  exact absurd (hsame _ _ he he' hname) (Nat.ne_of_lt hlt)

end

/-- A handle that is checked is that of a node. -/
theorem entry_of_handleCheck {s : FuseServer} {ino : Inode} {fh : ℕ} {node : FuseNode}
    (h : s.handleCheck ino fh = .ok node) : s.entry ino = some node := by
  unfold handleCheck at h
  cases hentry : s.entry ino with
  | none => simp [hentry] at h
  | some found =>
    simp only [hentry] at h
    split_ifs at h
    rw [Except.ok.inj h]

/-- What is read of a directory is its listing. -/
theorem ReadsDirectory.listing {s : FuseServer} {cost : DirEntry → ℕ} {ino : Inode} {fh : ℕ}
    {out : List DirEntry} (h : s.ReadsDirectory cost ino fh out) :
    ∃ node, s.handleCheck ino fh = .ok node ∧ node.attributes.kind = .directory ∧
      out = s.listing ino node := by
  have hpage : ∃ room offset items, s.readdirPage cost ino fh room offset = some items := by
    cases h with
    | stop _ hpage => exact ⟨_, _, _, hpage⟩
    | more _ hpage => exact ⟨_, _, _, hpage⟩
  obtain ⟨room, offset, items, hpage⟩ := hpage
  unfold readdirPage at hpage
  cases hcheck : s.handleCheck ino fh with
  | error e => simp [hcheck] at hpage
  | ok node =>
    simp only [hcheck] at hpage
    split_ifs at hpage with hkind
    refine ⟨node, rfl, not_not.mp hkind, ?_⟩
    refine Paging.Reads.eq_drop cost (s.listing ino node) ?_ ?_ h
    · intro room offset items hitems
      unfold readdirPage at hitems
      simp only [hcheck, if_neg hkind, Option.some.injEq] at hitems
      exact hitems.symm
    · intro room hbig
      exact hbig node (entry_of_handleCheck hcheck)

/-- **Listing a directory.** On the tree of a pre-ordered list with distinct paths and names that
can be shown, a directory that is read to its end, in replies of any size and after any operations
on handles, has the entries `.` and `..` and, each once, what is found in it by name. -/
theorem listing_is_lookup {rootStreamId : BitVec 32} {files : List (FileDescription × BitVec 32)}
    {tree : List FuseNode} (hbuild : FuseNode.buildTree rootStreamId files = .ok tree)
    {pre : PathBuf} (hpre : PreOrdered pre (files.map Prod.fst))
    (hdistinct : DistinctPaths (files.map Prod.fst)) (hshown : Shown (files.map Prod.fst))
    {ops : List FuseOp} (hops : ∀ op ∈ ops, KeepsTree op) {counter : ℕ} {s : FuseServer}
    (hs : s = ops.foldl (fun s op => (s.step op).1) ⟨tree, counter⟩) {cost : DirEntry → ℕ}
    {ino : Inode} {fh : ℕ} {out : List DirEntry} (hread : s.ReadsDirectory cost ino fh out) :
    ∃ node, s.handleCheck ino fh = .ok node ∧ node.attributes.kind = .directory ∧
      ∃ children, out = dots ino node ++ children ∧ (children.map DirEntry.name).Nodup ∧
        ∀ e, e ∈ children ↔ s.Finds ino e := by
  obtain ⟨node, hcheck, hkind, hout⟩ := hread.listing
  have hclosed : s.closed.files = (closed ⟨tree, counter⟩).files := hs ▸ closed_foldl ops hops _
  have hentry : s.entry ino = some node := entry_of_handleCheck hcheck
  have hino : ino = ino - 1 + 1 :=
    (Nat.sub_add_cancel (Nat.pos_of_ne_zero (ino_ne_zero_of_entry hentry))).symm
  have hold : ((⟨tree, counter⟩ : FuseServer).entry ino).map
      (fun node => { node with fileHandlers := {} }) = some { node with fileHandlers := {} } := by
    rw [← entry_closed]
    unfold entry at hentry ⊢
    rw [← hclosed]
    split_ifs at hentry ⊢
    rw [closed, List.getElem?_map, hentry]
    rfl
  obtain ⟨old, hget, hsame⟩ := Option.map_eq_some_iff.mp hold
  have hlisting : s.listing ino node = (⟨tree, counter⟩ : FuseServer).listing ino old := by
    rw [← listing_closed s, ← hsame, ← listing_closed ⟨tree, counter⟩]
    unfold listing
    rw [hclosed]
  obtain ⟨b, rfl, hbuilds, hlength⟩ := FuseNode.builds_of_buildTree hbuild
  rw [hino, FuseNode.Builds.entry_succ] at hget
  have hspec := childEntries_spec hbuilds hlength hpre hdistinct hshown counter hget
  rw [← hino] at hspec
  refine ⟨node, hcheck, hkind, childEntries ⟨b.treeList, counter⟩ old, ?_, hspec.1, fun e => ?_⟩
  · have hparent := congrArg FuseNode.parent hsame
    dsimp only at hparent
    rw [hout, hlisting, listing_eq, dots, hparent]
    rfl
  · rw [hspec.2]
    unfold Finds
    simp only [lookup_congr hclosed]

/-- The demo list, with its directory open. -/
def demoServer : FuseServer := [FuseOp.opendir 2].foldl (fun s op => (s.step op).1) ⟨demoTree, 0⟩

/-- The demo files are shown by the tree. -/
theorem shown_demoFiles : Shown (demoFiles.map Prod.fst) := by
  intro file hfile base hbase
  have hname : base = [97] ∨ base = [98] := by
    revert file
    simp only [demoFiles, List.map_cons, List.map_nil, List.mem_cons, List.not_mem_nil, or_false]
    rintro file (rfl | rfl) hbase
    · exact .inl (Option.some.inj (hbase.symm.trans (by decide)))
    · exact .inr (Option.some.inj (hbase.symm.trans (by decide)))
  rcases hname with rfl | rfl
  · exact ⟨by decide, by decide⟩
  · exact ⟨by decide, by decide⟩

/-- Two entries fit in a reply. -/
theorem readsDirectory_demoServer : demoServer.ReadsDirectory (fun _ => 1) 2 0
    [⟨2, .directory, "."⟩, ⟨1, .directory, ".."⟩, ⟨3, .file, "b"⟩] := by
  have hfirst : demoServer.readdirPage (fun _ => 1) 2 0 2 0 =
      some [(1, ⟨2, .directory, "."⟩), (2, ⟨1, .directory, ".."⟩)] := by decide
  have hsecond : demoServer.readdirPage (fun _ => 1) 2 0 2 2 =
      some [(3, ⟨3, .file, "b"⟩)] := by decide
  have hlast : demoServer.readdirPage (fun _ => 1) 2 0 2 3 = some [] := by decide
  have hroom : 1 ≤ 2 := by decide
  exact .more (fun _ _ _ _ => hroom) hfirst rfl (.more (fun _ _ _ _ => hroom) hsecond rfl
    (.stop (fun _ _ _ _ => hroom) hlast))

/-- A directory of the demo is listed just as its names are looked up. -/
theorem listing_is_lookup_demo : ∃ node, demoServer.handleCheck 2 0 = .ok node ∧
    node.attributes.kind = .directory ∧
    ∃ children, [⟨2, .directory, "."⟩, ⟨1, .directory, ".."⟩, ⟨3, .file, "b"⟩] =
      dots 2 node ++ children ∧ (children.map DirEntry.name).Nodup ∧
      ∀ e, e ∈ children ↔ demoServer.Finds 2 e :=
  listing_is_lookup (show FuseNode.buildTree 0 demoFiles = .ok demoTree from rfl)
    preOrdered_demoFiles
    (show ((demoFiles.map Prod.fst).map fun file => file.name.components).Nodup by decide)
    shown_demoFiles
    (by
      intro op hop
      obtain rfl := List.mem_singleton.mp hop
      trivial)
    (rfl : demoServer = _) readsDirectory_demoServer

end FuseServer

end RdWeb.Fuse
