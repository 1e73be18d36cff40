import RdWeb.Fuse.Server
import RdWeb.Fuse.TreeShape

/-!
# Looking paths up in the built tree

`lookup` of `fuse/cs.rs` refuses long names and compares with the names of the children, which
are empty where the file name of the peer was not UTF-8. On a pre-ordered list every other path
leads to its own node.
-/

namespace RdWeb.Fuse

open RdWeb.Clipboard

/-- `MAX_NAME_LEN`. -/
def maxNameLen : ℕ := 255

/-- What `lookup` replies. -/
inductive LookupReply
  | entry (ttl : ℕ) (attributes : InodeAttributes) (generation : ℕ)
  | nameTooLong
  | error (e : Errno)
  deriving DecidableEq

/-- The bytes of a component. -/
def componentName : Component → List UInt8
  | .rootDir => [47]
  | .curDir => [46]
  | .parentDir => [46, 46]
  | .normal name => name

namespace FuseServer

/-- The attributes of the first child with a name. -/
def findChild (s : FuseServer) (name : List UInt8) (children : List Inode) :
    Option InodeAttributes :=
  children.findSome? fun inode => (s.entry inode).bind fun child =>
    if PathBuf.ofString child.name = name then some child.attributes else none

/-- A name is looked up among the children of a directory. -/
def lookup (s : FuseServer) (generation : ℕ) (parent : Inode) (name : List UInt8) : LookupReply :=
  if maxNameLen < name.length then .nameTooLong
  else
    match s.entry parent with
    | none => .error .ENOENT
    | some parentEntry =>
      if parentEntry.attributes.kind ≠ .directory then .error .ENOTDIR
      else
        match s.findChild name parentEntry.children with
        | some attributes => .entry 0 attributes generation
        | none => .error .ENOENT

/-- What the kernel does with a path: one lookup for each component. -/
def resolve (s : FuseServer) (generation : ℕ) : Inode → List Component → Option Inode
  | ino, [] => some ino
  | ino, c :: cs =>
    match s.lookup generation ino (componentName c) with
    | .entry _ attributes _ => s.resolve generation attributes.inode cs
    | _ => none

variable {s : FuseServer} {generation : ℕ}

/-- A path is resolved component by component. -/
theorem resolve_append (ino : Inode) (front : List Component) (c : Component) :
    s.resolve generation ino (front ++ [c]) =
      (s.resolve generation ino front).bind fun p => s.resolve generation p [c] := by
  induction front generalizing ino with
  | nil => rfl
  | cons d front ih =>
    rw [List.cons_append, resolve, resolve]
    cases s.lookup generation ino (componentName d) with
    | entry ttl attributes g => exact ih attributes.inode
    | nameTooLong => rfl
    | error e => rfl

/-- A name `lookup` can find: short enough, and text. -/
def Findable (name : List UInt8) : Prop := name.length ≤ maxNameLen ∧ (PathBuf.toStr name).isSome

/-- A name that was found is short enough, and text. -/
theorem findable_of_lookup {ttl g : ℕ} {parent : Inode} {name : List UInt8}
    {attributes : InodeAttributes}
    (h : s.lookup generation parent name = .entry ttl attributes g) : Findable name := by
  unfold lookup at h
  split_ifs at h with hlong
  cases hentry : s.entry parent with
  | none => simp [hentry] at h
  | some parentEntry =>
    simp only [hentry] at h
    split_ifs at h
    cases hfind : s.findChild name parentEntry.children with
    | none => simp [hfind] at h
    | some found =>
      obtain ⟨inode, -, hchild⟩ := List.exists_of_findSome?_eq_some hfind
      obtain ⟨child, -, hname⟩ := Option.bind_eq_some_iff.mp hchild
      split_ifs at hname with hsame
      refine ⟨by omega, ?_⟩
      rw [← hsame, PathBuf.toStr_ofString]
      rfl

/-- A path that was resolved has findable names only. -/
theorem findable_of_resolve {path : List Component} {ino out : Inode}
    (h : s.resolve generation ino path = some out) :
    ∀ c ∈ path, Findable (componentName c) := by
  induction path generalizing ino with
  | nil => simp
  | cons c path ih =>
    rw [resolve] at h
    cases hlookup : s.lookup generation ino (componentName c) with
    | entry ttl attributes g =>
      simp only [hlookup] at h
      intro d hd
      rcases List.mem_cons.mp hd with rfl | hd
      · exact findable_of_lookup hlookup
      · exact ih h d hd
    | nameTooLong => simp [hlookup] at h
    | error e => simp [hlookup] at h

/-- A list in which every entry's parent path is the common one or is listed before it as a
directory. -/
def PreOrdered (pre : PathBuf) (files : List FileDescription) : Prop :=
  ∀ (i : ℕ) (file : FileDescription), files[i]? = some file →
    ∃ parent, file.name.parent = some parent ∧ (parent.components = pre.components ∨
      ∃ (j : ℕ) (dir : FileDescription), j < i ∧ files[j]? = some dir ∧ dir.kind = .directory ∧
        dir.name.components = parent.components)

/-- No two entries are at the same path. -/
def DistinctPaths (files : List FileDescription) : Prop :=
  (files.map fun file => file.name.components).Nodup

end FuseServer

namespace FuseNode.Builds

open FuseServer

variable {all : List FileDescription} {b : TreeBuilder} (h : Builds all b)
  (hlength : b.treeList.length = all.length + 1) {pre : PathBuf} (hpre : PreOrdered pre all)
  (hdistinct : DistinctPaths all)

include h hlength in
/-- The node of an entry of the list. -/
theorem node_of_file {i : ℕ} {file : FileDescription} (hfile : all[i]? = some file) :
    ∃ node, b.treeList[i + 1]? = some node ∧ IsNodeOf all i file node := by
  have hi := (List.getElem?_eq_some_iff.mp hfile).1
  have hnode := List.getElem?_eq_getElem (l := b.treeList) (i := i + 1) (by omega)
  obtain ⟨file', hfile', hof⟩ := h.node i _ hnode
  obtain rfl : file = file' := Option.some.inj (hfile.symm.trans hfile')
  exact ⟨_, hnode, hof⟩

include h hlength in
/-- The path of an entry is its parent's path and its file name. -/
theorem components_of_file {i : ℕ} {file : FileDescription} (hfile : all[i]? = some file) :
    ∃ base, file.name.fileName = some base ∧
      file.name.components = file.name.components.dropLast ++ [.normal base] := by
  obtain ⟨node, -, hof⟩ := h.node_of_file hlength hfile
  obtain ⟨base, hbase, -⟩ := hof.named
  have hlast := getLast?_of_fileName hbase
  exact ⟨base, hbase, (List.dropLast_append_getLast? _ hlast).symm⟩

include hpre in
/-- The directory of a file comes before it in the list. -/
theorem dropLast_of_preOrdered {i : ℕ} {file : FileDescription} (hfile : all[i]? = some file) :
    file.name.components.dropLast = pre.components ∨
      ∃ (j : ℕ) (dir : FileDescription), j < i ∧ all[j]? = some dir ∧
      dir.kind = .directory ∧ dir.name.components = file.name.components.dropLast := by
  obtain ⟨parent, hparent, hplace⟩ := hpre i file hfile
  rwa [PathBuf.components_of_parent hparent] at hplace

include h hlength hpre in
/-- Every entry of a pre-ordered list is below the common path. -/
theorem below_pre (i : ℕ) {file : FileDescription} (hfile : all[i]? = some file) :
    ∃ c cs, file.name.components = pre.components ++ c :: cs := by
  induction i using Nat.strong_induction_on generalizing file with
  | _ i ih =>
    obtain ⟨base, -, hcomponents⟩ := h.components_of_file hlength hfile
    rcases dropLast_of_preOrdered hpre hfile with htop | ⟨j, dir, hj, hdir, -, hpath⟩
    · exact ⟨.normal base, [], by rw [hcomponents, htop]⟩
    · obtain ⟨c, cs, hbelow⟩ := ih j hj hdir
      exact ⟨c, cs ++ [.normal base], by rw [hcomponents, ← hpath, hbelow]; simp⟩

include hpre in
/-- Two entries with the same parent are in the same directory. -/
theorem same_directory {i k : ℕ} {file other : FileDescription} {p : Inode}
    (hfile : all[i]? = some file) (hother : all[k]? = some other)
    (hp : IsParent all i file p) (hp' : IsParent all k other p) :
    file.name.components.dropLast = other.name.components.dropLast := by
  have htop {i : ℕ} {file : FileDescription} (hfile : all[i]? = some file)
      (hnone : ∀ (j : ℕ) (dir : FileDescription), j < i → all[j]? = some dir →
        dir.kind = .directory →
        dir.name.components ≠ file.name.components.dropLast) :
      file.name.components.dropLast = pre.components := by
    rcases dropLast_of_preOrdered hpre hfile with htop | ⟨j, dir, hj, hdir, hkind, hpath⟩
    · exact htop
    · exact absurd hpath (hnone j dir hj hdir hkind)
  rcases hp with ⟨j, dir, -, hdir, -, hpath, rfl⟩ | ⟨rfl, hnone⟩
  · rcases hp' with ⟨j', dir', -, hdir', -, hpath', hsame⟩ | ⟨hroot, -⟩
    · obtain rfl : j = j' := Nat.add_right_cancel hsame
      obtain rfl : dir = dir' := Option.some.inj (hdir.symm.trans hdir')
      rw [← hpath, ← hpath']
    · cases hroot
  · rcases hp' with ⟨j', dir', -, -, -, -, hroot⟩ | ⟨-, hnone'⟩
    · cases hroot
    · rw [htop hfile hnone, htop hother hnone']

include hdistinct in
/-- The components tell the files apart. -/
theorem eq_of_components {i k : ℕ} {file other : FileDescription} (hfile : all[i]? = some file)
    (hother : all[k]? = some other) (hsame : file.name.components = other.name.components) :
    i = k := by
  have hi := (List.getElem?_eq_some_iff.mp hfile).1
  refine (List.getElem?_inj (by simpa using hi) hdistinct).mp ?_
  simp [hfile, hother, hsame]

/-- A name of a path is not empty. -/
theorem ne_nil_of_fileName {p : PathBuf} {base : List UInt8} (h : p.fileName = some base) :
    base ≠ [] := by
  have hmem := List.mem_of_getLast? (getLast?_of_fileName h)
  rw [PathBuf.components_eq] at hmem
  rcases List.mem_append.mp hmem with hlead | hbody
  · rcases PathBuf.lead_cases p with hl | hl | ⟨hl, -, -⟩ <;> simp [hl] at hlead
  · obtain ⟨part, hpart, hname⟩ := List.mem_map.mp hbody
    have hkept : ¬ PathBuf.IsSkipped part := by simpa using (List.mem_filter.mp hpart).2
    split_ifs at hname
    obtain rfl : part = base := by simpa using hname
    exact fun hnil => hkept (Or.inl hnil)

/-- The name shown for a file name is its text, or empty. -/
theorem shown_name {base name : List UInt8} (hne : name ≠ [])
    (h : PathBuf.ofString ((PathBuf.toStr base).getD "") = name) : base = name := by
  cases htext : PathBuf.toStr base with
  | none =>
    rw [htext, Option.getD_none] at h
    exact absurd h.symm hne
  | some text =>
    rw [htext, Option.getD_some, PathBuf.ofString_of_toStr htext] at h
    exact h

/-- The server right after the tree was loaded. -/
theorem entry_succ {tree : List FuseNode} {counter : ℕ} (p : ℕ) :
    (⟨tree, counter⟩ : FuseServer).entry (p + 1) = tree[p]? := by
  simp [FuseServer.entry]

include h hlength hpre hdistinct in
/-- A child shown under an entry's name is the entry. -/
theorem child_named {i q : ℕ} {file : FileDescription} {node parent child : FuseNode}
    {base : List UInt8} {c : Inode} (hfile : all[i]? = some file)
    (hbase : file.name.fileName = some base) (hof : IsNodeOf all i file node)
    (hq : node.parent = some (q + 1)) (hget : b.treeList[q]? = some parent)
    (hc : c ∈ parent.children) (hchild : (⟨b.treeList, 0⟩ : FuseServer).entry c = some child)
    (hname : PathBuf.ofString child.name = base) : c = i + 2 := by
  obtain ⟨k, child', rfl, hchild', hq'⟩ := ((h.children q parent hget).mem_iff c).mp hc
  rw [entry_succ] at hchild
  obtain rfl : child = child' := Option.some.inj (hchild.symm.trans hchild')
  cases k with
  | zero =>
    obtain ⟨r, hr, -, -, hnone⟩ := h.root
    obtain rfl : child = r := Option.some.inj (hchild.symm.trans hr)
    rw [hnone] at hq'
    cases hq'
  | succ k =>
    obtain ⟨other, hother, hofOther⟩ := h.node k child hchild
    obtain ⟨base', hbase', hshown⟩ := hofOther.named
    rw [hshown] at hname
    obtain rfl := shown_name (ne_nil_of_fileName hbase) hname
    obtain ⟨p, hp, hparent⟩ := hof.parent_eq
    obtain ⟨p', hp', hparent'⟩ := hofOther.parent_eq
    obtain rfl : p = q + 1 := Option.some.inj (hp.symm.trans hq)
    obtain rfl : p' = q + 1 := Option.some.inj (hp'.symm.trans hq')
    have hdirectory := same_directory hpre hfile hother hparent hparent'
    obtain ⟨_, hbase₁, hcomponents⟩ := h.components_of_file hlength hfile
    obtain ⟨_, hbase₂, hcomponents'⟩ := h.components_of_file hlength hother
    obtain rfl := Option.some.inj (hbase.symm.trans hbase₁)
    obtain rfl := Option.some.inj (hbase'.symm.trans hbase₂)
    have hsame : file.name.components = other.name.components := by
      rw [hcomponents, hcomponents', hdirectory]
    rw [eq_of_components hdistinct hfile hother hsame]

include h hlength hpre hdistinct in
/-- Looking an entry's name up in the node of its parent finds the entry. -/
theorem lookup_child {i : ℕ} {file : FileDescription} {node : FuseNode} {base : List UInt8}
    {p : Inode} (hfile : all[i]? = some file) (hnode : b.treeList[i + 1]? = some node)
    (hbase : file.name.fileName = some base) (hfindable : Findable base)
    (hp : node.parent = some p) (counter generation : ℕ) :
    (⟨b.treeList, counter⟩ : FuseServer).lookup generation p base =
      .entry 0 node.attributes generation := by
  obtain ⟨file', hfile', hof⟩ := h.node i node hnode
  obtain rfl : file = file' := Option.some.inj (hfile.symm.trans hfile')
  obtain ⟨q, parent, hq, hlt, hget, hkind⟩ := h.parent_before hnode
  obtain rfl : p = q + 1 := Option.some.inj (hp.symm.trans hq)
  have hmem : i + 2 ∈ parent.children :=
    ((h.children q parent hget).mem_iff _).mpr ⟨i + 1, node, rfl, hnode, hq⟩
  have hself : PathBuf.ofString node.name = base := by
    obtain ⟨base', hbase', hname⟩ := hof.named
    obtain rfl : base = base' := Option.some.inj (hbase.symm.trans hbase')
    obtain ⟨text, htext⟩ := Option.isSome_iff_exists.mp hfindable.2
    rw [hname, htext, Option.getD_some, PathBuf.ofString_of_toStr htext]
  have hfind : (⟨b.treeList, counter⟩ : FuseServer).findChild base parent.children =
      some node.attributes := by
    cases hsome : (⟨b.treeList, counter⟩ : FuseServer).findChild base parent.children with
    | none =>
      have hnone := List.findSome?_eq_none_iff.mp hsome _ hmem
      simp [entry_succ, hnode, hself] at hnone
    | some attributes =>
      obtain ⟨c, hc, hfound⟩ := List.exists_of_findSome?_eq_some hsome
      obtain ⟨child, hchild, hname⟩ := Option.bind_eq_some_iff.mp hfound
      split_ifs at hname with hnamed
      obtain rfl := h.child_named hlength hpre hdistinct hfile hbase hof hq hget hc hchild hnamed
      rw [entry_succ] at hchild
      obtain rfl : node = child := Option.some.inj (hnode.symm.trans hchild)
      exact hname.symm
  have hshort : ¬ maxNameLen < base.length := Nat.not_lt.mpr hfindable.1
  simp only [FuseServer.lookup, if_neg hshort, entry_succ, hget, hkind, hfind, ne_eq,
    not_true_eq_false, if_false]

include h hpre in
/-- The parent of an entry is the root at the top of the list, and the directory it is in
elsewhere. -/
theorem parent_of_entry {i : ℕ} {file : FileDescription} {node : FuseNode}
    (hfile : all[i]? = some file) (hnode : b.treeList[i + 1]? = some node) :
    file.name.components.dropLast = pre.components ∧ node.parent = some fuseRootId ∨
    ∃ j dir, j < i ∧ all[j]? = some dir ∧
      dir.name.components = file.name.components.dropLast ∧ node.parent = some (j + 2) := by
  obtain ⟨file', hfile', hof⟩ := h.node i node hnode
  obtain rfl : file = file' := Option.some.inj (hfile.symm.trans hfile')
  obtain ⟨p, hp, hparent⟩ := hof.parent_eq
  rcases hparent with ⟨j, dir, hj, hdir, -, hpath, rfl⟩ | ⟨rfl, hnone⟩
  · exact Or.inr ⟨j, dir, hj, hdir, hpath, hp⟩
  · rcases dropLast_of_preOrdered hpre hfile with htop | ⟨j, dir, hj, hdir, hkind, hpath⟩
    · exact Or.inl ⟨htop, hp⟩
    · exact absurd hpath (hnone j dir hj hdir hkind)

include h hlength hpre hdistinct in
/-- **Resolving** the part of an entry's path below the common one leads to its node, if all its
names can be found. -/
theorem resolve_entry (counter generation : ℕ) (i : ℕ) {file : FileDescription}
    (hfile : all[i]? = some file)
    (hfindable : ∀ c ∈ file.name.components.drop pre.components.length,
      Findable (componentName c)) :
    (⟨b.treeList, counter⟩ : FuseServer).resolve generation fuseRootId
      (file.name.components.drop pre.components.length) = some (i + 2) := by
  induction i using Nat.strong_induction_on generalizing file with
  | _ i ih =>
    obtain ⟨base, hbase, hcomponents⟩ := h.components_of_file hlength hfile
    obtain ⟨node, hnode, hof⟩ := h.node_of_file hlength hfile
    have hlast (p : Inode) (hp : node.parent = some p) (hfind : Findable base) :
        (⟨b.treeList, counter⟩ : FuseServer).resolve generation p [.normal base] =
          some (i + 2) := by
      have hlookup := h.lookup_child hlength hpre hdistinct hfile hnode hbase hfind hp counter
        generation
      simp only [FuseServer.resolve, componentName, hlookup, hof.inode_eq]
    rcases h.parent_of_entry hpre hfile hnode with
      ⟨htop, hp⟩ | ⟨j, dir, hj, hdir, hpath, hp⟩
    · rw [hcomponents, htop, List.drop_left] at hfindable ⊢
      exact hlast _ hp (hfindable _ (List.mem_singleton_self _))
    · obtain ⟨c, cs, hbelow⟩ := h.below_pre hlength hpre j hdir
      have hlen : pre.components.length ≤ dir.name.components.length := by
        rw [hbelow]
        simp
      rw [hcomponents, ← hpath, List.drop_append_of_le_length hlen] at hfindable ⊢
      rw [FuseServer.resolve_append, ih j hj hdir fun d hd => hfindable d (by simp [hd]),
        Option.bind_some]
      exact hlast _ hp (hfindable (.normal base) (by simp))

end FuseNode.Builds

/-- **The tree of a file list.** Whenever `build_tree` succeeds its nodes have the shape of a tree
numbered as the list is; and on a pre-ordered list with distinct paths, resolving the part of a
path below the common one yields the entry's inode exactly when every name in it is text of at
most `MAX_NAME_LEN` bytes. -/
theorem buildTree_shape_resolves {rootStreamId : BitVec 32}
    {files : List (FileDescription × BitVec 32)} {tree : List FuseNode}
    (hbuild : FuseNode.buildTree rootStreamId files = .ok tree) :
    FuseNode.TreeShape (files.map Prod.fst) tree ∧
    ∀ pre, FuseServer.PreOrdered pre (files.map Prod.fst) →
      FuseServer.DistinctPaths (files.map Prod.fst) →
      ∀ counter generation i file, (files.map Prod.fst)[i]? = some file →
        ((⟨tree, counter⟩ : FuseServer).resolve generation fuseRootId
          (file.name.components.drop pre.components.length) = some (i + 2) ↔
          ∀ c ∈ file.name.components.drop pre.components.length,
            FuseServer.Findable (componentName c)) := by
  obtain ⟨b, rfl, hbuilds, hlength⟩ := FuseNode.builds_of_buildTree hbuild
  refine ⟨hbuilds.treeShape hlength, ?_⟩
  intro pre hpre hdistinct counter generation i file hfile
  exact ⟨FuseServer.findable_of_resolve,
    hbuilds.resolve_entry hlength hpre hdistinct counter generation i hfile⟩

/-- A directory with a file in it, both below a directory that is not listed. -/
def demoFiles : List (FileDescription × BitVec 32) :=
  [({ emptyFile [112, 47, 97] with kind := .directory }, 7), (emptyFile [112, 47, 97, 47, 98], 8)]

/-- The tree of that list. -/
def demoTree : List FuseNode := (FuseNode.buildTree 0 demoFiles).toOption.getD []

/-- The demo files are in preorder. -/
theorem preOrdered_demoFiles : FuseServer.PreOrdered [112] (demoFiles.map Prod.fst) := by
  intro i file hfile
  match i with
  | 0 =>
    obtain rfl := Option.some.inj hfile
    exact ⟨[112], by decide, .inl rfl⟩
  | 1 =>
    obtain rfl := Option.some.inj hfile
    exact ⟨[112, 47, 97], by decide, .inr ⟨0, _, by decide, rfl, rfl, by decide⟩⟩
  | i + 2 => simp [demoFiles] at hfile

/-- The directory is found below the common path, and the file in it. -/
theorem buildTree_shape_resolves_demo :
    FuseNode.TreeShape (demoFiles.map Prod.fst) demoTree ∧
    ∀ counter generation,
      (⟨demoTree, counter⟩ : FuseServer).resolve generation fuseRootId [.normal [97]] = some 2 ∧
      (⟨demoTree, counter⟩ : FuseServer).resolve generation fuseRootId
        [.normal [97], .normal [98]] = some 3 := by
  obtain ⟨hshape, hresolve⟩ :=
    buildTree_shape_resolves (show FuseNode.buildTree 0 demoFiles = .ok demoTree from rfl)
  refine ⟨hshape, fun counter generation => ?_⟩
  have hentry := hresolve [112] preOrdered_demoFiles
    (show ((demoFiles.map Prod.fst).map fun file => file.name.components).Nodup by decide)
    counter generation
  have hnames : ∀ c ∈ [Component.normal [97], .normal [98]],
      FuseServer.Findable (componentName c) := by
    intro c hc
    simp only [List.mem_cons, List.not_mem_nil, or_false] at hc
    rcases hc with rfl | rfl
    · exact ⟨by decide, by decide⟩
    · exact ⟨by decide, by decide⟩
  exact ⟨(hentry 0 _ rfl).mpr fun c hc => hnames c (List.mem_of_mem_dropLast hc),
    (hentry 1 _ rfl).mpr hnames⟩

/-- A list of one file. -/
def oneFile (name : List UInt8) : List (FileDescription × BitVec 32) := [(emptyFile name, 7)]

/-- Resolving yields the inode of every entry. -/
def ResolvesAll (files : List (FileDescription × BitVec 32)) : Prop :=
  ∀ tree, FuseNode.buildTree 0 files = .ok tree →
    ∀ pre, FuseServer.PreOrdered pre (files.map Prod.fst) →
      FuseServer.DistinctPaths (files.map Prod.fst) →
      ∀ counter generation i file, (files.map Prod.fst)[i]? = some file →
        (⟨tree, counter⟩ : FuseServer).resolve generation fuseRootId
          (file.name.components.drop pre.components.length) = some (i + 2)

/-- A list of one file whose name cannot be found is not resolved. -/
theorem not_resolvesAll {name : List UInt8} (hsep : 47 ∉ name) (hempty : name ≠ [])
    (hdot : name ≠ [46]) (hdots : name ≠ [46, 46]) (hname : ¬ FuseServer.Findable name) :
    ¬ ResolvesAll (oneFile name) := by
  intro hall
  have hcomponents := PathBuf.components_single hsep hempty hdot hdots
  have hbase : PathBuf.fileName name = some name := by
    simp [PathBuf.fileName, hcomponents]
  obtain ⟨tree, hbuild⟩ : ∃ tree, FuseNode.buildTree 0 (oneFile name) = .ok tree := by
    simp [FuseNode.buildTree, FuseNode.buildTreeLoop, FuseNode.buildTreeStep, oneFile, emptyFile,
      hbase]
  have hpre : FuseServer.PreOrdered [] ((oneFile name).map Prod.fst) := by
    intro i file hfile
    cases i with
    | zero =>
      obtain rfl : emptyFile name = file := Option.some.inj hfile
      obtain ⟨q, hq, hparent⟩ := FuseNode.parent_of_fileName hbase
      exact ⟨q, hq, Or.inl (by rw [hparent, hcomponents]; rfl)⟩
    | succ i => simp [oneFile] at hfile
  have hresolve := hall tree hbuild [] hpre (by simp [FuseServer.DistinctPaths, oneFile]) 0 0 0
    (emptyFile name) rfl
  have hdrop : (emptyFile name).name.components.drop (PathBuf.components []).length =
      [.normal name] := by
    show (PathBuf.components name).drop 0 = [.normal name]
    rw [hcomponents, List.drop_zero]
  rw [hdrop] at hresolve
  exact hname (FuseServer.findable_of_resolve hresolve (.normal name) (by simp))

/-- A list of one file with a long name of one letter is not resolved. -/
theorem not_resolvesAll_long {n : ℕ} (hn : maxNameLen < n) :
    ¬ ResolvesAll (oneFile (List.replicate n 97)) := by
  unfold maxNameLen at hn
  have hne (other : List UInt8) (hlength : other.length < 255) : List.replicate n 97 ≠ other := by
    rintro rfl
    rw [List.length_replicate] at hlength
    omega
  refine not_resolvesAll (by simp) (hne _ (by decide)) (hne _ (by decide)) (hne _ (by decide)) ?_
  rintro ⟨hshort, -⟩
  rw [List.length_replicate, maxNameLen] at hshort
  omega

/-- Neither a name of 256 letters nor a name that is not text is resolved. -/
theorem not_resolvesAll_unfindable :
    ¬ ResolvesAll (oneFile (List.replicate 256 97)) ∧ ¬ ResolvesAll (oneFile [255]) := by
  constructor
  · exact not_resolvesAll_long (by decide)
  · refine not_resolvesAll (by simp) (by simp) (by simp) (by simp) ?_
    rintro ⟨-, htext⟩
    revert htext
    decide

end RdWeb.Fuse
