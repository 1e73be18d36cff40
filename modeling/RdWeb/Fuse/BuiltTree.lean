import RdWeb.Clipboard.CopiedFiles
import RdWeb.Fuse.Lookup

/-!
# What a built tree shows

Every node of a built tree has the attributes of its entry, and a lookup finds nothing but entries
of the list, under the names of their paths.
-/

namespace RdWeb.Fuse

open RdWeb.Clipboard FileDescription

namespace FuseNode

/-! ### The attributes of the nodes -/

/-- Every node shows what its entry says. -/
def Shows (all : List FileDescription) (tree : List FuseNode) : Prop :=
  tree.length = all.length + 1 ∧ ∀ (i : ℕ) file node, all[i]? = some file →
    tree[i + 1]? = some node → node.attributes = ⟨i + 2, file.size, file.kind, file.perm⟩

/-- A step of the loop adds its file to what the tree shows. -/
theorem shows_buildTreeStep {done : List FileDescription} {b b' : TreeBuilder}
    {file : FileDescription} {streamId : BitVec 32} (h : Shows done b.treeList)
    (hstep : buildTreeStep b file streamId = .ok b') : Shows (done ++ [file]) b'.treeList := by
  obtain ⟨base, -, rfl⟩ := buildTreeStep_ok hstep
  refine ⟨by simp [h.1], fun i file' node hfile hnode => ?_⟩
  rcases of_getElem?_grow hnode with ⟨old, hlt, hold, rfl⟩ | ⟨hi, rfl⟩
  · have hi : i < done.length := by
      have hlength := h.1
      omega
    rw [List.getElem?_append_left hi] at hfile
    have hattributes := h.2 i file' old hfile hold
    split_ifs
    · exact hattributes
    · exact hattributes
  · obtain rfl : i = done.length := by
      have hlength := h.1
      omega
    obtain rfl : file = file' := by simpa using hfile
    rw [← hi]
    rfl

/-- The loop adds its files to what the tree shows. -/
theorem shows_buildTreeLoop {rest : List (FileDescription × BitVec 32)}
    {done : List FileDescription} {b b' : TreeBuilder} (h : Shows done b.treeList)
    (hloop : buildTreeLoop b rest = .ok b') : Shows (done ++ rest.map Prod.fst) b'.treeList := by
  induction rest generalizing b done with
  | nil =>
    obtain rfl : b = b' := by simpa [buildTreeLoop] using hloop
    simpa using h
  | cons entry rest ih =>
    obtain ⟨file, streamId⟩ := entry
    cases hstep : buildTreeStep b file streamId with
    | error e => simp [buildTreeLoop, hstep] at hloop
    | ok next =>
      simp only [buildTreeLoop, hstep] at hloop
      have hrest := ih (shows_buildTreeStep h hstep) hloop
      rwa [List.append_assoc] at hrest

/-- The tree that is built shows the files. -/
theorem shows_buildTree {rootStreamId : BitVec 32} {files : List (FileDescription × BitVec 32)}
    {tree : List FuseNode} (h : buildTree rootStreamId files = .ok tree) :
    Shows (files.map Prod.fst) tree := by
  unfold buildTree at h
  split at h
  · cases h
  · next b hloop =>
    obtain rfl : b.treeList = tree := by simpa using h
    have hinitial : Shows [] (TreeBuilder.initial rootStreamId).treeList :=
      ⟨rfl, fun i file node hfile => by simp at hfile⟩
    simpa using shows_buildTreeLoop hinitial hloop

/-- The loop ends well if every file has a last name. -/
theorem exists_buildTreeLoop {files : List (FileDescription × BitVec 32)}
    (h : ∀ entry ∈ files, ∃ base, entry.1.name.fileName = some base) (b : TreeBuilder) :
    ∃ b', buildTreeLoop b files = .ok b' := by
  induction files generalizing b with
  | nil => exact ⟨b, rfl⟩
  | cons entry rest ih =>
    obtain ⟨file, streamId⟩ := entry
    obtain ⟨base, hbase⟩ := h (file, streamId) List.mem_cons_self
    obtain ⟨next, hstep⟩ : ∃ next, buildTreeStep b file streamId = .ok next := by
      unfold buildTreeStep
      simp only [hbase]
      exact ⟨_, rfl⟩
    obtain ⟨b', hloop⟩ := ih (fun e he => h e (List.mem_cons_of_mem _ he)) next
    refine ⟨b', ?_⟩
    simp only [buildTreeLoop, hstep]
    exact hloop

/-- A list of named files makes a tree. -/
theorem exists_buildTree {files : List (FileDescription × BitVec 32)}
    (h : ∀ entry ∈ files, ∃ base, entry.1.name.fileName = some base) (rootStreamId : BitVec 32) :
    ∃ tree, buildTree rootStreamId files = .ok tree := by
  obtain ⟨b, hloop⟩ := exists_buildTreeLoop h (.initial rootStreamId)
  exact ⟨b.treeList, by simp only [buildTree, hloop]⟩

/-! ### Nothing else resolves -/

namespace Builds

open FuseServer

variable {all : List FileDescription} {b : TreeBuilder} (h : Builds all b)

include h in
/-- What a lookup finds is an entry of the list, a child of the node it was looked up in. -/
theorem of_lookup (hfindable : ∀ file ∈ all, ∀ base, file.name.fileName = some base →
      Findable base) {counter generation ttl g : ℕ} {p : Inode} {name : List UInt8}
    {attributes : InodeAttributes}
    (hlookup : (⟨b.treeList, counter⟩ : FuseServer).lookup generation p name =
      .entry ttl attributes g) :
    ∃ i file child, all[i]? = some file ∧ b.treeList[i + 1]? = some child ∧
      IsNodeOf all i file child ∧ file.name.fileName = some name ∧ child.parent = some p ∧
      attributes = child.attributes := by
  unfold FuseServer.lookup at hlookup
  split_ifs at hlookup
  cases hentry : (⟨b.treeList, counter⟩ : FuseServer).entry p with
  | none => simp [hentry] at hlookup
  | some parent =>
    simp only [hentry] at hlookup
    split_ifs at hlookup
    cases hfind : (⟨b.treeList, counter⟩ : FuseServer).findChild name parent.children with
    | none => simp [hfind] at hlookup
    | some found =>
      rw [hfind] at hlookup
      obtain rfl : found = attributes := by
        simp only [LookupReply.entry.injEq] at hlookup
        exact hlookup.2.1
      cases p with
      | zero => simp [FuseServer.entry] at hentry
      | succ q =>
        rw [entry_succ] at hentry
        obtain ⟨c, hc, hchild⟩ := List.exists_of_findSome?_eq_some hfind
        obtain ⟨child, hget, hnamed⟩ := Option.bind_eq_some_iff.mp hchild
        split_ifs at hnamed with hname
        obtain rfl := Option.some.inj hnamed
        obtain ⟨k, child', rfl, hchild', hparent⟩ :=
          ((h.children q parent hentry).mem_iff c).mp hc
        rw [entry_succ] at hget
        obtain rfl : child = child' := Option.some.inj (hget.symm.trans hchild')
        cases k with
        | zero =>
          obtain ⟨r, hr, -, -, hnone⟩ := h.root
          obtain rfl : child = r := Option.some.inj (hget.symm.trans hr)
          rw [hnone] at hparent
          cases hparent
        | succ i =>
          obtain ⟨file, hfile, hof⟩ := h.node i child hget
          obtain ⟨base, hbase, hshown⟩ := hof.named
          obtain ⟨text, htext⟩ := Option.isSome_iff_exists.mp
            (hfindable file (List.mem_of_getElem? hfile) base hbase).2
          have hsame : name = base := by
            rw [← hname, hshown, htext, Option.getD_some, PathBuf.ofString_of_toStr htext]
          exact ⟨i, file, child, hfile, hget, hof, hsame ▸ hbase, hparent, rfl⟩

include h in
/-- What resolves below the common path is the root or an entry of the list. -/
theorem of_resolve (hpre : PreOrdered [] all)
    (hfindable : ∀ file ∈ all, ∀ base, file.name.fileName = some base → Findable base)
    {counter generation : ℕ} (ns : List (List UInt8)) {ino : Inode}
    (hresolve : (⟨b.treeList, counter⟩ : FuseServer).resolve generation fuseRootId (names ns) =
      some ino) :
    (ns = [] ∧ ino = fuseRootId) ∨
      ∃ (i : ℕ) (file : FileDescription), all[i]? = some file ∧ ino = i + 2 ∧
        file.name.components = names ns := by
  induction ns using List.reverseRecOn generalizing ino with
  | nil =>
    left
    exact ⟨rfl, (Option.some.inj hresolve).symm⟩
  | append_singleton front name ih =>
    right
    rw [names_concat, FuseServer.resolve_append] at hresolve
    obtain ⟨p, hp, hlast⟩ := Option.bind_eq_some_iff.mp hresolve
    rw [FuseServer.resolve] at hlast
    cases hlookup : (⟨b.treeList, counter⟩ : FuseServer).lookup generation p
        (componentName (.normal name)) with
    | nameTooLong => simp [hlookup] at hlast
    | error e => simp [hlookup] at hlast
    | entry ttl attributes g =>
      simp only [hlookup] at hlast
      obtain rfl := Option.some.inj hlast
      obtain ⟨i, file, child, hfile, -, hof, hbase, hp', rfl⟩ := h.of_lookup hfindable hlookup
      refine ⟨i, file, hfile, hof.inode_eq, ?_⟩
      obtain ⟨p', hparentEq, hparent⟩ := hof.parent_eq
      obtain rfl : p' = p := Option.some.inj (hparentEq.symm.trans hp')
      have hcomponents := (List.dropLast_append_getLast? _ (getLast?_of_fileName hbase)).symm
      rw [hcomponents, names_concat]
      congr 1
      rcases hparent with ⟨j, dir, hj, hdir, -, hpath, rfl⟩ | ⟨rfl, hnone⟩
      · rcases ih hp with ⟨-, hroot⟩ | ⟨j', dir', hdir', hj', hpath'⟩
        · simp [fuseRootId] at hroot
        · obtain rfl : j = j' := Nat.add_right_cancel hj'
          obtain rfl : dir = dir' := Option.some.inj (hdir.symm.trans hdir')
          rw [← hpath, hpath']
      · rcases ih hp with ⟨rfl, -⟩ | ⟨j', dir', hdir', hj', hpath'⟩
        · rcases dropLast_of_preOrdered hpre hfile with htop | ⟨j, dir, hj, hdir, hkind, hpath⟩
          · exact htop
          · exact absurd hpath (hnone j dir hj hdir hkind)
        · simp [fuseRootId] at hj'

end Builds

end FuseNode

end RdWeb.Fuse
