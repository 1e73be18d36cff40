import RdWeb.Clipboard.Basic
import RdWeb.Lib.BinarySearch
import RdWeb.Lib.OrderedMap

/-!
# Nodes and handles of the mounted file tree

`FuseNode` and `FileHandles` of `fuse/cs.rs`. The tree is rebuilt from the file
list of the peer; a node at position `i` of the vector has inode `i + 1`.
-/

namespace RdWeb.Fuse

open RdWeb.Clipboard

/-- `FUSE_ROOT_ID` of the FUSE protocol. -/
def fuseRootId : Inode := 1

/-- The open handles of one node. `handlers` is kept sorted by the order in which
handles are allocated, and is searched by bisection. -/
structure FileHandles where
  handlers : List ℕ := []
  gc : Bool := false
  deriving DecidableEq, Repr

namespace FileHandles

/-- The handles are to be collected. -/
def marked (h : FileHandles) : Bool := h.gc

/-- Callers check `marked` first; the source panics on a marked node. -/
def addHandler (h : FileHandles) (fh : ℕ) : FileHandles := { h with handlers := h.handlers ++ [fh] }

/-- The handle is one of these. -/
def haveHandler (h : FileHandles) (fh : ℕ) : Bool :=
  (BinarySearch.binarySearch h.handlers fh).isSome

/-- `none` where the source returns the invalid-handler error. -/
def unregister (h : FileHandles) (fh : ℕ) : Option FileHandles :=
  (BinarySearch.binarySearch h.handlers fh).map fun idx =>
    { h with handlers := h.handlers.eraseIdx idx }

end FileHandles

/-- The attributes of a node that some operation reads. -/
structure InodeAttributes where
  inode : Inode
  size : BitVec 64
  kind : FileType
  perm : BitVec 16
  deriving DecidableEq

/-- A node in the FUSE file tree. -/
structure FuseNode where
  connId : BitVec 32
  /-- Chosen at random when the node is built, and kept for all its reads. -/
  streamId : BitVec 32
  /-- The file's index in the peer's list. -/
  index : ℕ
  parent : Option Inode
  name : String
  attributes : InodeAttributes
  children : List Inode
  fileHandlers : FileHandles
  deriving DecidableEq

namespace FuseNode

/-- `PERM_RWX`. -/
def permRwx : BitVec 16 := 0o755

/-- The node of a described file. -/
def fromDescription (inode : Inode) (streamId : BitVec 32) (desc : FileDescription) : FuseNode where
  connId := desc.connId
  streamId := streamId
  index := inode - 2
  parent := none
  name := (PathBuf.toStr desc.name).getD ""
  attributes := ⟨inode, desc.size, desc.kind, desc.perm⟩
  children := []
  fileHandlers := {}

/-- The root. -/
def newRoot (streamId : BitVec 32) : FuseNode where
  connId := 0
  streamId := streamId
  index := 0
  parent := none
  name := "/"
  attributes := ⟨fuseRootId, 0, .directory, permRwx⟩
  children := []
  fileHandlers := {}

/-- A node gets a child. -/
def addChild (node : FuseNode) (inode : Inode) : FuseNode :=
  { node with children := node.children ++ [inode] }

/-- What the loop of `build_tree` carries: the nodes so far and the directories
by path. -/
structure TreeBuilder where
  treeList : List FuseNode
  subRootMap : OrderedMap (List Component) Inode

/-- One round of `build_tree`. -/
def buildTreeStep (b : TreeBuilder) (file : FileDescription) (streamId : BitVec 32) :
    Except CliprdrError TreeBuilder :=
  let inode := b.treeList.length + fuseRootId
  let parentInode :=
    match PathBuf.parent file.name with
    | some parent => (b.subRootMap.get? (PathBuf.components parent)).getD fuseRootId
    | none => fuseRootId
  let treeList := b.treeList.modify (parentInode - 1) (·.addChild inode)
  match PathBuf.fileName file.name with
  | none =>
    let name := PathBuf.toStringLossy file.name
    .error (.fileError name ⟨.invalidData, s!"invalid file name {name}"⟩)
  | some baseName =>
    let subRootMap :=
      if file.kind = .directory then b.subRootMap.set (PathBuf.components file.name) inode
      else b.subRootMap
    let node := { fromDescription inode streamId { file with name := baseName } with
      parent := some parentInode }
    .ok ⟨treeList ++ [node], subRootMap⟩

/-- The loop of `build_tree`, with the random stream id of each node. -/
def buildTreeLoop (b : TreeBuilder) :
    List (FileDescription × BitVec 32) → Except CliprdrError TreeBuilder
  | [] => .ok b
  | (file, streamId) :: rest =>
    match buildTreeStep b file streamId with
    | .error e => .error e
    | .ok b' => buildTreeLoop b' rest

/-- The loop state of `build_tree` before the first file: both spellings of the
root are known. -/
def TreeBuilder.initial (rootStreamId : BitVec 32) : TreeBuilder :=
  ⟨[newRoot rootStreamId], (OrderedMap.empty.set [.rootDir] fuseRootId).set [] fuseRootId⟩

/-- `FuseNode::build_tree`. -/
def buildTree (rootStreamId : BitVec 32) (files : List (FileDescription × BitVec 32)) :
    Except CliprdrError (List FuseNode) :=
  match buildTreeLoop (.initial rootStreamId) files with
  | .error e => .error e
  | .ok b => .ok b.treeList

/-- A freshly built loop state has no open handle; one round keeps it so. -/
theorem handlers_buildTreeStep {b b' : TreeBuilder} {file : FileDescription}
    {streamId : BitVec 32} (hstep : buildTreeStep b file streamId = .ok b')
    (h : ∀ node ∈ b.treeList, node.fileHandlers.handlers = []) :
    ∀ node ∈ b'.treeList, node.fileHandlers.handlers = [] := by
  unfold buildTreeStep at hstep
  cases hname : PathBuf.fileName file.name with
  | none => simp [hname] at hstep
  | some baseName =>
    simp only [hname, Except.ok.injEq] at hstep
    subst hstep
    intro node hnode
    rcases List.mem_append.mp hnode with hold | hnew
    · obtain ⟨i, hi⟩ := List.mem_iff_getElem?.mp hold
      rw [List.getElem?_modify] at hi
      obtain ⟨old, hget, rfl⟩ := Option.map_eq_some_iff.mp hi
      have hempty := h old (List.mem_of_getElem? hget)
      split_ifs
      · exact hempty
      · exact hempty
    · obtain rfl := List.mem_singleton.mp hnew
      rfl

/-- The loop opens no file. -/
theorem handlers_buildTreeLoop {files : List (FileDescription × BitVec 32)} {b b' : TreeBuilder}
    (hloop : buildTreeLoop b files = .ok b')
    (h : ∀ node ∈ b.treeList, node.fileHandlers.handlers = []) :
    ∀ node ∈ b'.treeList, node.fileHandlers.handlers = [] := by
  induction files generalizing b with
  | nil =>
    obtain rfl : b = b' := by simpa [buildTreeLoop] using hloop
    exact h
  | cons entry rest ih =>
    obtain ⟨file, streamId⟩ := entry
    cases hstep : buildTreeStep b file streamId with
    | error e => simp [buildTreeLoop, hstep] at hloop
    | ok next =>
      simp only [buildTreeLoop, hstep] at hloop
      exact ih hloop (handlers_buildTreeStep hstep h)

/-- No handle is open on a tree that was just built. -/
theorem handlers_buildTree {rootStreamId : BitVec 32} {files : List (FileDescription × BitVec 32)}
    {tree : List FuseNode} (h : buildTree rootStreamId files = .ok tree) :
    ∀ node ∈ tree, node.fileHandlers.handlers = [] := by
  unfold buildTree at h
  split at h
  · cases h
  · next b hloop =>
    obtain rfl : b.treeList = tree := by simpa using h
    apply handlers_buildTreeLoop hloop
    intro node hnode
    obtain rfl := List.mem_singleton.mp hnode
    rfl

end FuseNode

/-- A file description with this name and nothing in it. -/
def emptyFile (name : PathBuf) : FileDescription := ⟨0, name, .file, 0, 0, 0, 0, 0, 0o644⟩

end RdWeb.Fuse
