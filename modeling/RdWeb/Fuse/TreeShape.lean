import RdWeb.Fuse.Tree
import Mathlib.Logic.Relation

/-!
# The shape of the built tree

`build_tree` finds the parent of an entry in a map that grows with the list, and falls back to
the root. The loop invariant relates the node vector, the path map and the list; the child
vectors are read off from the parents.
-/

namespace RdWeb.Fuse

open RdWeb.Clipboard

namespace FuseNode

variable {all : List FileDescription}

/-- The inode the entry at an index gets as its parent: an earlier directory at the path above it,
or the root where no earlier directory is there. -/
def IsParent (all : List FileDescription) (i : ℕ) (file : FileDescription) (p : Inode) : Prop :=
  (∃ j dir, j < i ∧ all[j]? = some dir ∧ dir.kind = .directory ∧
    dir.name.components = file.name.components.dropLast ∧ p = j + 2) ∨
  p = fuseRootId ∧ ∀ j dir, j < i → all[j]? = some dir → dir.kind = .directory →
    dir.name.components ≠ file.name.components.dropLast

/-- The node made from the entry at an index. -/
structure IsNodeOf (all : List FileDescription) (i : ℕ) (file : FileDescription)
    (node : FuseNode) : Prop where
  inode_eq : node.attributes.inode = i + 2
  index_eq : node.index = i
  kind_eq : node.attributes.kind = file.kind
  named : ∃ base, file.name.fileName = some base ∧ node.name = (PathBuf.toStr base).getD ""
  parent_eq : ∃ p, node.parent = some p ∧ IsParent all i file p

/-- The children of a node are the inodes of the nodes that have it as their parent, once each
and in order. -/
structure HasChildren (tree : List FuseNode) (p : ℕ) (children : List Inode) : Prop where
  sorted : children.Pairwise (· < ·)
  mem_iff : ∀ c, c ∈ children ↔
    ∃ i child, c = i + 1 ∧ tree[i]? = some child ∧ child.parent = some (p + 1)

/-- The loop invariant of `build_tree`. -/
structure Builds (all : List FileDescription) (b : TreeBuilder) : Prop where
  root : ∃ r, b.treeList[0]? = some r ∧ r.attributes.inode = fuseRootId ∧
    r.attributes.kind = .directory ∧ r.parent = none
  node : ∀ i node, b.treeList[i + 1]? = some node →
    ∃ file, all[i]? = some file ∧ IsNodeOf all i file node
  children : ∀ p node, b.treeList[p]? = some node → HasChildren b.treeList p node.children
  roots_sound : ∀ path ino, b.subRootMap.get? path = some ino →
    ino = fuseRootId ∧ (path = [] ∨ path = [.rootDir]) ∨
    ∃ i dir, i + 1 < b.treeList.length ∧ all[i]? = some dir ∧ dir.kind = .directory ∧
      dir.name.components = path ∧ ino = i + 2
  roots_complete : ∀ i dir, i + 1 < b.treeList.length → all[i]? = some dir →
    dir.kind = .directory → (b.subRootMap.get? dir.name.components).isSome

/-- The path of an entry with a file name ends in a name. -/
theorem getLast?_of_fileName {p : PathBuf} {base : List UInt8} (h : p.fileName = some base) :
    p.components.getLast? = some (.normal base) := by
  unfold PathBuf.fileName at h
  split at h
  · next name hlast =>
    rw [hlast, Option.some.inj h]
  · cases h

/-- An entry with a file name has a parent path. -/
theorem parent_of_fileName {p : PathBuf} {base : List UInt8} (h : p.fileName = some base) :
    ∃ q, p.parent = some q ∧ q.components = p.components.dropLast := by
  have hlast := getLast?_of_fileName h
  have hparent : ∃ q, p.parent = some q := by
    unfold PathBuf.parent
    rw [hlast]
    exact ⟨_, rfl⟩
  obtain ⟨q, hq⟩ := hparent
  exact ⟨q, hq, PathBuf.components_of_parent hq⟩

/-- No entry with a file name is at one of the two spellings of the root. -/
theorem components_ne_root {p : PathBuf} {base : List UInt8} (h : p.fileName = some base) :
    p.components ≠ [] ∧ p.components ≠ [.rootDir] := by
  have hlast := getLast?_of_fileName h
  constructor
  · intro hnil
    simp [hnil] at hlast
  · intro hroot
    simp [hroot] at hlast

/-- The inode `build_tree` takes as the parent of a file. -/
def parentInode (b : TreeBuilder) (file : FileDescription) : Inode :=
  match PathBuf.parent file.name with
  | some parent => (b.subRootMap.get? (PathBuf.components parent)).getD fuseRootId
  | none => fuseRootId

/-- One round in one piece. -/
theorem buildTreeStep_ok {b b' : TreeBuilder} {file : FileDescription} {streamId : BitVec 32}
    (h : buildTreeStep b file streamId = .ok b') :
    ∃ base, file.name.fileName = some base ∧ b' =
      ⟨b.treeList.modify (parentInode b file - 1) (·.addChild (b.treeList.length + 1)) ++
        [{ fromDescription (b.treeList.length + 1) streamId { file with name := base } with
            parent := some (parentInode b file) }],
        if file.kind = .directory then
          b.subRootMap.set file.name.components (b.treeList.length + 1) else b.subRootMap⟩ := by
  unfold buildTreeStep at h
  cases hname : PathBuf.fileName file.name with
  | none => simp [hname] at h
  | some base =>
    simp only [hname, Except.ok.injEq] at h
    exact ⟨base, rfl, h.symm⟩

/-- The parent taken for the next file is the one its place in the list says. -/
theorem isParent_parentInode {b : TreeBuilder} {file : FileDescription} {base : List UInt8}
    {k : ℕ} (h : Builds all b) (hk : b.treeList.length = k + 1)
    (hbase : file.name.fileName = some base) : IsParent all k file (parentInode b file) := by
  obtain ⟨q, hq, hcomponents⟩ := parent_of_fileName hbase
  unfold parentInode
  rw [hq]
  simp only [hcomponents]
  cases hget : b.subRootMap.get? file.name.components.dropLast with
  | none =>
    right
    refine ⟨rfl, fun j dir hj hdir hkind hpath => ?_⟩
    have hsome := h.roots_complete j dir (by omega) hdir hkind
    rw [hpath, hget] at hsome
    cases hsome
  | some ino =>
    rcases h.roots_sound _ _ hget with ⟨hino, hpath⟩ | ⟨j, dir, hj, hdir, hkind, hpath, hino⟩
    · right
      refine ⟨by simp [hino], fun j dir hj hdir hkind hsame => ?_⟩
      obtain ⟨node, hnode⟩ : ∃ node, b.treeList[j + 1]? = some node :=
        ⟨_, List.getElem?_eq_getElem (by omega)⟩
      obtain ⟨dir', hdir', hof⟩ := h.node j node hnode
      obtain rfl : dir = dir' := Option.some.inj (hdir.symm.trans hdir')
      obtain ⟨base', hbase', -⟩ := hof.named
      have hroot := components_ne_root hbase'
      rw [hsame] at hroot
      exact hpath.elim hroot.1 hroot.2
    · left
      exact ⟨j, dir, by omega, hdir, hkind, hpath, by simp [hino]⟩

/-- The position of a parent, which is before the position of the next node. -/
theorem IsParent.position {i : ℕ} {file : FileDescription} {p : Inode}
    (h : IsParent all i file p) : ∃ q : ℕ, p = q + 1 ∧ q ≤ i := by
  rcases h with ⟨j, -, hj, -, -, -, rfl⟩ | ⟨rfl, -⟩
  · exact ⟨j + 1, rfl, hj⟩
  · exact ⟨0, rfl, Nat.zero_le i⟩

/-- A child does not change the parent of the node. -/
@[simp] theorem addChild_parent (node : FuseNode) (c : Inode) :
    (node.addChild c).parent = node.parent := rfl

/-- A child does not change the attributes of the node. -/
@[simp] theorem addChild_attributes (node : FuseNode) (c : Inode) :
    (node.addChild c).attributes = node.attributes := rfl

/-- A child comes last. -/
@[simp] theorem addChild_children (node : FuseNode) (c : Inode) :
    (node.addChild c).children = node.children ++ [c] := rfl

/-- A node stays that of its file with one child more. -/
theorem isNodeOf_addChild {i : ℕ} {file : FileDescription} {node : FuseNode}
    (h : IsNodeOf all i file node) (c : Inode) : IsNodeOf all i file (node.addChild c) :=
  ⟨h.inode_eq, h.index_eq, h.kind_eq, h.named, h.parent_eq⟩

section Grow

variable {tree : List FuseNode} {q c : ℕ} {new : FuseNode}

/-- A node that was there before a round, perhaps with one more child. -/
theorem getElem?_grow_of_lt {p : ℕ} (hp : p < tree.length) :
    (tree.modify q (·.addChild c) ++ [new])[p]? =
      tree[p]?.map fun node => if q = p then node.addChild c else node := by
  rw [List.getElem?_append_left (by simpa using hp), List.getElem?_modify]
  rfl

/-- The new node stands at the end of the tree. -/
theorem getElem?_grow_last :
    (tree.modify q (·.addChild c) ++ [new])[tree.length]? = some new := by
  rw [List.getElem?_append_right (by simp)]
  simp

/-- What a position holds after a round: an old node or, at the end, the new one. -/
theorem of_getElem?_grow {p : ℕ} {node : FuseNode}
    (h : (tree.modify q (·.addChild c) ++ [new])[p]? = some node) :
    (∃ old, p < tree.length ∧ tree[p]? = some old ∧
      node = if q = p then old.addChild c else old) ∨ p = tree.length ∧ node = new := by
  have hlt := (List.getElem?_eq_some_iff.mp h).1
  simp only [List.length_append, List.length_modify, List.length_singleton] at hlt
  rcases Nat.lt_succ_iff_lt_or_eq.mp hlt with hp | rfl
  · left
    rw [getElem?_grow_of_lt hp] at h
    obtain ⟨old, hold, rfl⟩ := Option.map_eq_some_iff.mp h
    exact ⟨old, hp, hold, rfl⟩
  · right
    rw [getElem?_grow_last] at h
    exact ⟨rfl, (Option.some.inj h).symm⟩

/-- Which positions have a given parent after a round. -/
theorem child_grow_iff {i p : ℕ} (hnew : new.parent = some (q + 1)) :
    (∃ child, (tree.modify q (·.addChild c) ++ [new])[i]? = some child ∧
      child.parent = some (p + 1)) ↔
      (∃ child, tree[i]? = some child ∧ child.parent = some (p + 1)) ∨
        i = tree.length ∧ p = q := by
  constructor
  · rintro ⟨child, hchild, hparent⟩
    rcases of_getElem?_grow hchild with ⟨old, -, hold, rfl⟩ | ⟨rfl, rfl⟩
    · left
      refine ⟨old, hold, ?_⟩
      split_ifs at hparent
      · exact hparent
      · exact hparent
    · right
      rw [hnew] at hparent
      exact ⟨rfl, by simpa using (Option.some.inj hparent).symm⟩
  · rintro (⟨child, hchild, hparent⟩ | ⟨rfl, rfl⟩)
    · have hlt := (List.getElem?_eq_some_iff.mp hchild).1
      refine ⟨if q = i then child.addChild c else child, ?_, ?_⟩
      · rw [getElem?_grow_of_lt hlt, hchild]
        rfl
      · split_ifs
        · exact hparent
        · exact hparent
    · exact ⟨new, getElem?_grow_last, hnew⟩

/-- The child vectors after a round. -/
theorem hasChildren_grow (h : ∀ p node, tree[p]? = some node → HasChildren tree p node.children)
    (hearlier : ∀ (i : ℕ) (child : FuseNode) (p : ℕ), tree[i]? = some child →
      child.parent = some (p + 1) → p < tree.length)
    (hc : c = tree.length + 1) (hnew : new.parent = some (q + 1)) (hleaf : new.children = [])
    (hq : q < tree.length) {p : ℕ} {node : FuseNode}
    (hnode : (tree.modify q (·.addChild c) ++ [new])[p]? = some node) :
    HasChildren (tree.modify q (·.addChild c) ++ [new]) p node.children := by
  have hiff (d : Inode) : (∃ i child, d = i + 1 ∧
      (tree.modify q (·.addChild c) ++ [new])[i]? = some child ∧ child.parent = some (p + 1)) ↔
      (∃ i child, d = i + 1 ∧ tree[i]? = some child ∧ child.parent = some (p + 1)) ∨
        d = c ∧ p = q := by
    constructor
    · rintro ⟨i, child, rfl, hchild⟩
      rcases (child_grow_iff hnew).mp ⟨child, hchild⟩ with ⟨old, hold⟩ | ⟨rfl, rfl⟩
      · exact Or.inl ⟨i, old, rfl, hold⟩
      · exact Or.inr ⟨hc.symm, rfl⟩
    · rintro (⟨i, old, rfl, hold⟩ | ⟨rfl, rfl⟩)
      · obtain ⟨child, hchild⟩ := (child_grow_iff (c := c) hnew).mpr (Or.inl ⟨old, hold⟩)
        exact ⟨i, child, rfl, hchild⟩
      · exact ⟨tree.length, new, hc, getElem?_grow_last, hnew⟩
  rcases of_getElem?_grow hnode with ⟨old, hp, hold, rfl⟩ | ⟨rfl, rfl⟩
  · have hchildren := h p old hold
    by_cases hsame : q = p
    · rw [if_pos hsame]
      refine ⟨?_, fun d => ?_⟩
      · refine List.pairwise_append.mpr ⟨hchildren.sorted, List.pairwise_singleton _ _, ?_⟩
        intro d hd e he
        obtain ⟨i, child, rfl, hchild, -⟩ := (hchildren.mem_iff d).mp hd
        rw [List.mem_singleton.mp he, hc]
        exact Nat.succ_lt_succ (List.getElem?_eq_some_iff.mp hchild).1
      · rw [hiff d, ← hchildren.mem_iff d, addChild_children, List.mem_append,
          List.mem_singleton]
        simp [hsame]
    · rw [if_neg hsame]
      refine ⟨hchildren.sorted, fun d => ?_⟩
      rw [hiff d, ← hchildren.mem_iff d]
      have hother : ¬ p = q := fun heq => hsame heq.symm
      simp [hother]
  · rw [hleaf]
    refine ⟨List.Pairwise.nil, fun d => ?_⟩
    rw [hiff d]
    refine iff_of_false (by simp) ?_
    rintro (⟨i, child, rfl, hchild, hparent⟩ | ⟨-, rfl⟩)
    · -- parents come before their children, so no old node has the new one as its parent
      exact absurd (hearlier i child _ hchild hparent) (lt_irrefl _)
    · omega

end Grow

/-- Parents are among the nodes built. -/
theorem Builds.parent_lt {b : TreeBuilder} (h : Builds all b) {i p : ℕ} {child : FuseNode}
    (hchild : b.treeList[i]? = some child) (hp : child.parent = some (p + 1)) :
    p < b.treeList.length := by
  cases i with
  | zero =>
    obtain ⟨r, hr, -, -, hnone⟩ := h.root
    obtain rfl : child = r := Option.some.inj (hchild.symm.trans hr)
    rw [hnone] at hp
    cases hp
  | succ i =>
    obtain ⟨file', -, hof⟩ := h.node i child hchild
    obtain ⟨p', hp', hisParent⟩ := hof.parent_eq
    obtain ⟨q', rfl, hq'⟩ := hisParent.position
    have hlt := (List.getElem?_eq_some_iff.mp hchild).1
    obtain rfl : p = q' := Nat.succ.inj (Option.some.inj (hp.symm.trans hp'))
    omega

section Roots

variable {b : TreeBuilder} {file : FileDescription} {k : ℕ}

/-- The map after a round still sends paths to the inodes of their directories. -/
theorem Builds.roots_sound_grow (h : Builds all b) (hk : b.treeList.length = k + 1)
    (hfile : all[k]? = some file) {path : List Component} {ino : Inode}
    (hget : (if file.kind = .directory then
      b.subRootMap.set file.name.components (b.treeList.length + 1)
        else b.subRootMap).get? path = some ino) :
    ino = fuseRootId ∧ (path = [] ∨ path = [.rootDir]) ∨
      ∃ i dir, i + 1 < b.treeList.length + 1 ∧ all[i]? = some dir ∧ dir.kind = .directory ∧
        dir.name.components = path ∧ ino = i + 2 := by
  have hold (hget : b.subRootMap.get? path = some ino) :
      ino = fuseRootId ∧ (path = [] ∨ path = [.rootDir]) ∨
      ∃ i dir, i + 1 < b.treeList.length + 1 ∧ all[i]? = some dir ∧ dir.kind = .directory ∧
        dir.name.components = path ∧ ino = i + 2 := by
    rcases h.roots_sound path ino hget with hroot | ⟨i, dir, hi, hdir⟩
    · exact Or.inl hroot
    · exact Or.inr ⟨i, dir, by omega, hdir⟩
  by_cases hdir : file.kind = .directory
  · rw [if_pos hdir, OrderedMap.get?_set] at hget
    split_ifs at hget with hpath
    · right
      refine ⟨k, file, by omega, hfile, hdir, hpath.symm, ?_⟩
      rw [← Option.some.inj hget, hk]
    · exact hold hget
  · rw [if_neg hdir] at hget
    exact hold hget

/-- The map after a round has every directory built so far. -/
theorem Builds.roots_complete_grow (h : Builds all b) (hk : b.treeList.length = k + 1)
    (hfile : all[k]? = some file) {i : ℕ} {dir : FileDescription}
    (hi : i + 1 < b.treeList.length + 1) (hdir : all[i]? = some dir)
    (hkind : dir.kind = .directory) :
    ((if file.kind = .directory then
      b.subRootMap.set file.name.components (b.treeList.length + 1)
        else b.subRootMap).get? dir.name.components).isSome := by
  by_cases hlast : i = k
  · subst hlast
    obtain rfl : dir = file := Option.some.inj (hdir.symm.trans hfile)
    simp [hkind]
  · have hsome := h.roots_complete i dir (by omega) hdir hkind
    by_cases hfileKind : file.kind = .directory
    · simp only [if_pos hfileKind, OrderedMap.get?_set]
      split_ifs
      · rfl
      · exact hsome
    · simpa only [if_neg hfileKind] using hsome

end Roots

/-- **One round** keeps the loop invariant. -/
theorem Builds.buildTreeStep {b b' : TreeBuilder} {file : FileDescription} {streamId : BitVec 32}
    {k : ℕ} (h : Builds all b) (hk : b.treeList.length = k + 1) (hfile : all[k]? = some file)
    (hstep : FuseNode.buildTreeStep b file streamId = .ok b') :
    Builds all b' ∧ b'.treeList.length = k + 2 := by
  obtain ⟨base, hbase, rfl⟩ := buildTreeStep_ok hstep
  have hparent := isParent_parentInode h hk hbase
  obtain ⟨q, hq, hqk⟩ := hparent.position
  rw [hq, Nat.add_sub_cancel]
  refine ⟨⟨?_, ?_, ?_, ?_, ?_⟩, by simp [hk]⟩
  · obtain ⟨r, hr, hino, hkind, hnone⟩ := h.root
    refine ⟨if q = 0 then r.addChild (b.treeList.length + 1) else r, ?_, ?_⟩
    · rw [getElem?_grow_of_lt (by omega), hr]
      rfl
    · split_ifs
      · exact ⟨hino, hkind, hnone⟩
      · exact ⟨hino, hkind, hnone⟩
  · intro i node hnode
    rcases of_getElem?_grow hnode with ⟨old, -, hold, rfl⟩ | ⟨hi, rfl⟩
    · obtain ⟨file', hfile', hof⟩ := h.node i old hold
      refine ⟨file', hfile', ?_⟩
      split_ifs
      · exact isNodeOf_addChild hof _
      · exact hof
    · obtain rfl : i = k := by omega
      refine ⟨file, hfile, ?_, ?_, rfl, ⟨base, hbase, rfl⟩, ⟨q + 1, rfl, hq ▸ hparent⟩⟩
      · show b.treeList.length + 1 = i + 2
        omega
      · show b.treeList.length + 1 - 2 = i
        omega
  · intro p node hnode
    have hearlier (i : ℕ) (child : FuseNode) (p : ℕ) (hchild : b.treeList[i]? = some child)
        (hp : child.parent = some (p + 1)) : p < b.treeList.length := h.parent_lt hchild hp
    exact hasChildren_grow h.children hearlier rfl rfl rfl (by omega) hnode
  · intro path ino hget
    simp only [List.length_append, List.length_modify, List.length_singleton]
    exact h.roots_sound_grow hk hfile hget
  · intro i dir hi hdir hkind
    simp only [List.length_append, List.length_modify, List.length_singleton] at hi
    exact h.roots_complete_grow hk hfile hi hdir hkind

/-- The builder starts with the root. -/
theorem builds_initial (all : List FileDescription) (rootStreamId : BitVec 32) :
    Builds all (.initial rootStreamId) where
  root := ⟨newRoot rootStreamId, rfl, rfl, rfl, rfl⟩
  node i node h := by simp [TreeBuilder.initial] at h
  children p node h := by
    have hp : p = 0 := by
      have hlt := (List.getElem?_eq_some_iff.mp h).1
      simpa [TreeBuilder.initial] using hlt
    subst hp
    obtain rfl : newRoot rootStreamId = node := Option.some.inj h
    refine ⟨List.Pairwise.nil, fun c => iff_of_false (by simp [newRoot]) ?_⟩
    rintro ⟨i, child, -, hchild, hparent⟩
    have hi : i = 0 := by
      have hlt := (List.getElem?_eq_some_iff.mp hchild).1
      simpa [TreeBuilder.initial] using hlt
    subst hi
    obtain rfl : newRoot rootStreamId = child := Option.some.inj hchild
    cases hparent
  roots_sound path ino h := by
    left
    simp only [TreeBuilder.initial, OrderedMap.get?_set, OrderedMap.get?_empty] at h
    split_ifs at h with hnil hroot
    · exact ⟨(Option.some.inj h).symm, Or.inl hnil⟩
    · exact ⟨(Option.some.inj h).symm, Or.inr hroot⟩
  roots_complete i dir h := by simp [TreeBuilder.initial] at h

/-- **The loop** keeps its invariant and makes one node for every entry. -/
theorem Builds.buildTreeLoop {rest : List (FileDescription × BitVec 32)}
    {done : List FileDescription} {b b' : TreeBuilder}
    (h : Builds (done ++ rest.map Prod.fst) b) (hlength : b.treeList.length = done.length + 1)
    (hloop : FuseNode.buildTreeLoop b rest = .ok b') :
    Builds (done ++ rest.map Prod.fst) b' ∧
      b'.treeList.length = (done ++ rest.map Prod.fst).length + 1 := by
  induction rest generalizing b done with
  | nil =>
    obtain rfl : b = b' := by simpa [FuseNode.buildTreeLoop] using hloop
    exact ⟨h, by simpa using hlength⟩
  | cons entry rest ih =>
    obtain ⟨file, streamId⟩ := entry
    cases hstep : FuseNode.buildTreeStep b file streamId with
    | error e => simp [FuseNode.buildTreeLoop, hstep] at hloop
    | ok next =>
      simp only [FuseNode.buildTreeLoop, hstep] at hloop
      have hsplit : done ++ ((file, streamId) :: rest).map Prod.fst =
          (done ++ [file]) ++ rest.map Prod.fst := by simp
      have hfile : (done ++ ((file, streamId) :: rest).map Prod.fst)[done.length]? = some file := by
        simp
      obtain ⟨hnext, hnextLength⟩ := h.buildTreeStep hlength hfile hstep
      rw [hsplit] at hnext ⊢
      exact ih hnext (by simpa using hnextLength) hloop

/-- The tree that is built is that of a builder that went through all files. -/
theorem builds_of_buildTree {rootStreamId : BitVec 32} {files : List (FileDescription × BitVec 32)}
    {tree : List FuseNode} (h : buildTree rootStreamId files = .ok tree) :
    ∃ b, b.treeList = tree ∧ Builds (files.map Prod.fst) b ∧
      tree.length = (files.map Prod.fst).length + 1 := by
  unfold buildTree at h
  split at h
  · cases h
  · next b hloop =>
    obtain rfl : b.treeList = tree := by simpa using h
    have hinitial : Builds ([] ++ files.map Prod.fst) (.initial rootStreamId) :=
      builds_initial _ _
    obtain ⟨hbuilds, hlength⟩ := hinitial.buildTreeLoop rfl hloop
    exact ⟨b, rfl, hbuilds, hlength⟩

/-- One step down the tree, from inode to inode. -/
def ChildOf (tree : List FuseNode) (p c : Inode) : Prop :=
  ∃ q parent, p = q + 1 ∧ tree[q]? = some parent ∧ c ∈ parent.children

/-- What `build_tree` promises about the shape of its nodes. -/
structure TreeShape (files : List FileDescription) (tree : List FuseNode) : Prop where
  length_eq : tree.length = files.length + 1
  numbered : ∀ i node, 1 ≤ i → tree[i]? = some node →
    node.attributes.inode = i + 1 ∧ node.index = i - 1
  child_once : ∀ p parent, tree[p]? = some parent → parent.children.Nodup ∧
    ∀ c, parent.children.count c = 1 ↔
      ∃ child, 1 ≤ c ∧ tree[c - 1]? = some child ∧ child.parent = some (p + 1)
  one_parent : ∀ i node, 1 ≤ i → tree[i]? = some node →
    ∃ p parent, node.parent = some (p + 1) ∧ p < i ∧ tree[p]? = some parent ∧
      parent.attributes.kind = .directory ∧ ∀ q, ChildOf tree q (i + 1) ↔ q = p + 1
  root_alone : ∃ root, tree[0]? = some root ∧ root.parent = none ∧ ∀ q, ¬ ChildOf tree q fuseRootId
  reachable : ∀ i, i < tree.length → Relation.ReflTransGen (ChildOf tree) fuseRootId (i + 1)

namespace Builds

variable {b : TreeBuilder} (h : Builds all b) (hlength : b.treeList.length = all.length + 1)

include h in
/-- The children of a node are the nodes that name it as their parent. -/
theorem childOf_iff (p i : ℕ) : ChildOf b.treeList (p + 1) (i + 1) ↔
    ∃ child, b.treeList[i]? = some child ∧ child.parent = some (p + 1) ∧
      p < b.treeList.length := by
  constructor
  · rintro ⟨q, parent, hq, hparent, hmem⟩
    obtain rfl : p = q := Nat.succ.inj hq
    obtain ⟨j, child, hj, hchild, hp⟩ := ((h.children p parent hparent).mem_iff _).mp hmem
    obtain rfl : i = j := Nat.succ.inj hj
    exact ⟨child, hchild, hp, (List.getElem?_eq_some_iff.mp hparent).1⟩
  · rintro ⟨child, hchild, hp, hlt⟩
    refine ⟨p, b.treeList[p], rfl, List.getElem?_eq_getElem hlt, ?_⟩
    exact ((h.children p _ (List.getElem?_eq_getElem hlt)).mem_iff _).mpr
      ⟨i, child, rfl, hchild, hp⟩

include h in
/-- The parent of a later node is a directory before it. -/
theorem parent_before {i : ℕ} {node : FuseNode} (hnode : b.treeList[i + 1]? = some node) :
    ∃ p parent, node.parent = some (p + 1) ∧ p < i + 1 ∧ b.treeList[p]? = some parent ∧
      parent.attributes.kind = .directory := by
  obtain ⟨file, -, hof⟩ := h.node i node hnode
  obtain ⟨p, hp, hisParent⟩ := hof.parent_eq
  rcases hisParent with ⟨j, dir, hj, hdir, hkind, -, rfl⟩ | ⟨rfl, -⟩
  · have hlt := (List.getElem?_eq_some_iff.mp hnode).1
    have hj' : j + 1 < b.treeList.length := by omega
    obtain ⟨dir', hdir', hofParent⟩ := h.node j _ (List.getElem?_eq_getElem hj')
    obtain rfl : dir = dir' := Option.some.inj (hdir.symm.trans hdir')
    exact ⟨j + 1, _, hp, by omega, List.getElem?_eq_getElem hj', hofParent.kind_eq.trans hkind⟩
  · obtain ⟨r, hr, -, hkind, -⟩ := h.root
    exact ⟨0, r, hp, Nat.succ_pos i, hr, hkind⟩

include h in
/-- The root is the child of no node. -/
theorem not_childOf_root (q : Inode) : ¬ ChildOf b.treeList q fuseRootId := by
  rintro ⟨p, parent, -, hparent, hmem⟩
  obtain ⟨j, child, hj, hchild, hp⟩ := ((h.children p parent hparent).mem_iff _).mp hmem
  obtain rfl : 0 = j := Nat.succ.inj hj
  obtain ⟨r, hr, -, -, hnone⟩ := h.root
  obtain rfl : child = r := Option.some.inj (hchild.symm.trans hr)
  rw [hnone] at hp
  cases hp

include h in
/-- Walking up the parents ends at the root. -/
theorem reachable (i : ℕ) (hi : i < b.treeList.length) :
    Relation.ReflTransGen (ChildOf b.treeList) fuseRootId (i + 1) := by
  induction i using Nat.strong_induction_on with
  | _ i ih =>
    cases i with
    | zero => exact .refl
    | succ i =>
      have hnode := List.getElem?_eq_getElem hi
      obtain ⟨p, parent, hp, hlt, hparent, -⟩ := h.parent_before hnode
      have hbound := (List.getElem?_eq_some_iff.mp hparent).1
      exact (ih p hlt hbound).tail ((h.childOf_iff p (i + 1)).mpr ⟨_, hnode, hp, hbound⟩)

include h hlength in
/-- **The shape of a built tree** follows from the loop invariant. -/
theorem treeShape : TreeShape all b.treeList where
  length_eq := hlength
  numbered i node hi hnode := by
    obtain ⟨i, rfl⟩ := Nat.exists_eq_add_of_le' hi
    obtain ⟨file, -, hof⟩ := h.node i node hnode
    exact ⟨hof.inode_eq, hof.index_eq⟩
  child_once p parent hparent := by
    have hchildren := h.children p parent hparent
    have hnodup : parent.children.Nodup := hchildren.sorted.imp fun hlt => Nat.ne_of_lt hlt
    refine ⟨hnodup, fun c => ?_⟩
    have hcount : parent.children.count c = 1 ↔ c ∈ parent.children :=
      ⟨fun hone => List.count_pos_iff.mp (by omega), List.count_eq_one_of_mem hnodup⟩
    rw [hcount, hchildren.mem_iff]
    constructor
    · rintro ⟨i, child, rfl, hchild⟩
      exact ⟨child, Nat.succ_pos i, hchild⟩
    · rintro ⟨child, hpos, hchild⟩
      exact ⟨c - 1, child, (Nat.sub_add_cancel hpos).symm, hchild⟩
  one_parent i node hi hnode := by
    obtain ⟨i, rfl⟩ := Nat.exists_eq_add_of_le' hi
    obtain ⟨p, parent, hp, hlt, hparent, hkind⟩ := h.parent_before hnode
    refine ⟨p, parent, hp, hlt, hparent, hkind, fun q => ⟨?_, ?_⟩⟩
    · intro hchild
      obtain ⟨q, parent', rfl, -⟩ := id hchild
      obtain ⟨child, hchild, hq, -⟩ := (h.childOf_iff q (i + 1)).mp hchild
      obtain rfl : node = child := Option.some.inj (hnode.symm.trans hchild)
      exact Option.some.inj (hq.symm.trans hp)
    · rintro rfl
      exact (h.childOf_iff p (i + 1)).mpr
        ⟨node, hnode, hp, (List.getElem?_eq_some_iff.mp hparent).1⟩
  root_alone := by
    obtain ⟨r, hr, -, -, hnone⟩ := h.root
    exact ⟨r, hr, hnone, h.not_childOf_root⟩
  reachable := h.reachable

end Builds

end FuseNode

end RdWeb.Fuse
