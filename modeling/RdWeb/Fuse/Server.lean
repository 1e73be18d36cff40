import RdWeb.Fuse.Tree

/-!
# The operations of the FUSE server

`FuseServer` of `fuse/cs.rs`, one operation at a time: a mutex serialises them.
Every operation returns the reply the kernel gets. The part of `read` after its
checks waits for the peer and is modelled on its own.
-/

namespace RdWeb.Fuse

open RdWeb.Clipboard

/-- The error numbers the operations reply with. -/
inductive Errno
  | ENOENT
  | ENOTDIR
  | ENFILE
  | EBADF
  | EBUSY
  | EIO
  deriving DecidableEq, Repr

/-- A directory entry of a `readdir` reply. -/
structure DirEntry where
  inode : Inode
  kind : FileType
  name : String
  deriving DecidableEq

/-- What an operation replies. -/
inductive Reply
  | ok
  | opened (fh : ℕ)
  | entries (listing : List DirEntry)
  /-- A `read` that passed its checks and goes on to ask the peer. -/
  | reading
  | error (e : Errno)
  deriving DecidableEq

/-- The mounted tree and the handle counter, an `AtomicU64`. -/
structure FuseServer where
  files : List FuseNode
  fileHandleCounter : ℕ
  deriving DecidableEq

namespace FuseServer

/-- `FuseServer::new`. -/
def new : FuseServer := ⟨[], 0⟩

/-- The node of an inode. Inodes start at 1. -/
def entry (s : FuseServer) (ino : Inode) : Option FuseNode :=
  if ino = 0 then none else s.files[ino - 1]?

/-- Replace the handles of the node at an inode; the source mutates them in place. -/
def setHandlers (s : FuseServer) (ino : Inode) (h : FileHandles) : FuseServer :=
  { s with files := s.files.modify (ino - 1) fun node => { node with fileHandlers := h } }

/-- `fetch_add` on the counter: the old value, and a counter that wraps. -/
def allocFd (s : FuseServer) : ℕ × FuseServer :=
  (s.fileHandleCounter, { s with fileHandleCounter := (s.fileHandleCounter + 1) % 2 ^ 64 })

/-- The last lines of `open` and `opendir`. -/
def grantHandle (s : FuseServer) (ino : Inode) (node : FuseNode) : FuseServer × Reply :=
  let (fh, s) := s.allocFd
  (s.setHandlers ino (node.fileHandlers.addHandler fh), .opened fh)

/-- `init`: an empty server gets a root node. -/
def init (s : FuseServer) (rootStreamId : BitVec 32) : FuseServer × Reply :=
  if s.files.isEmpty then ({ s with files := [.newRoot rootStreamId] }, .ok) else (s, .ok)

/-- `load_file_list`: on success the old nodes are dropped, handles included. -/
def loadFileList (s : FuseServer) (rootStreamId : BitVec 32)
    (files : List (FileDescription × BitVec 32)) : FuseServer × Reply :=
  match FuseNode.buildTree rootStreamId files with
  | .error _ => (s, .error Errno.EIO)
  | .ok tree => ({ s with files := tree }, .ok)

/-- The open of a directory. -/
def opendir (s : FuseServer) (ino : Inode) : FuseServer × Reply :=
  match s.entry ino with
  | none => (s, .error .ENOENT)
  | some node =>
    if node.attributes.kind ≠ .directory then (s, .error .ENOTDIR)
    else if node.fileHandlers.marked then (s, .error .EBUSY)
    else s.grantHandle ino node

/-- The open of a file. -/
def «open» (s : FuseServer) (ino : Inode) : FuseServer × Reply :=
  match s.entry ino with
  | none => (s, .error .ENOENT)
  | some node =>
    if node.attributes.kind ≠ .file then (s, .error .ENFILE)
    else if node.fileHandlers.marked then (s, .error .EBUSY)
    else s.grantHandle ino node

/-- The handle check at the head of `read` and `readdir`. -/
def handleCheck (s : FuseServer) (ino : Inode) (fh : ℕ) : Except Errno FuseNode :=
  match s.entry ino with
  | none => .error .ENOENT
  | some node => if node.fileHandlers.haveHandler fh then .ok node else .error .EBADF

/-- The listing `readdir` builds: the node itself, its parent, its children. -/
def listing (s : FuseServer) (ino : Inode) (node : FuseNode) : List DirEntry :=
  ⟨ino, .directory, "."⟩ :: (node.parent.toList.map fun parent => ⟨parent, .directory, ".."⟩) ++
    node.children.filterMap fun inode =>
      s.files[inode - 1]?.map fun child => ⟨inode, child.attributes.kind, child.name⟩

/-- The listing of a directory, from an offset. -/
def readdir (s : FuseServer) (ino : Inode) (fh offset : ℕ) : Reply :=
  match s.handleCheck ino fh with
  | .error e => .error e
  | .ok node =>
    if node.attributes.kind ≠ .directory then .error .ENOTDIR
    else .entries ((s.listing ino node).drop offset)

/-- The checks of `read` before `read_node`. -/
def readChecks (s : FuseServer) (ino : Inode) (fh : ℕ) : Except Errno FuseNode :=
  match s.handleCheck ino fh with
  | .error e => .error e
  | .ok node =>
    if node.attributes.kind ≠ .file then .error .ENFILE
    else if node.fileHandlers.marked then .error .EBUSY
    else .ok node

/-- A read is asked of the peer if its checks pass. -/
def read (s : FuseServer) (ino : Inode) (fh : ℕ) : Reply :=
  match s.readChecks ino fh with
  | .error e => .error e
  | .ok _ => .reading

/-- The release of a directory. -/
def releasedir (s : FuseServer) (ino : Inode) (fh : ℕ) : FuseServer × Reply :=
  match s.entry ino with
  | none => (s, .error .ENOENT)
  | some node =>
    if node.attributes.kind ≠ .directory then (s, .error .ENOTDIR)
    else if !node.fileHandlers.haveHandler fh then (s, .error .EBADF)
    else (s.setHandlers ino ((node.fileHandlers.unregister fh).getD node.fileHandlers), .ok)

/-- The release of a file. -/
def release (s : FuseServer) (ino : Inode) (fh : ℕ) : FuseServer × Reply :=
  match s.entry ino with
  | none => (s, .error .ENOENT)
  | some node =>
    match node.fileHandlers.unregister fh with
    | none => (s, .error .EBADF)
    | some handlers => (s.setHandlers ino handlers, .ok)

end FuseServer

/-- The operations on a server. -/
inductive FuseOp
  | init (rootStreamId : BitVec 32)
  | loadFileList (rootStreamId : BitVec 32) (files : List (FileDescription × BitVec 32))
  | opendir (ino : Inode)
  | «open» (ino : Inode)
  | readdir (ino : Inode) (fh offset : ℕ)
  | read (ino : Inode) (fh : ℕ)
  | releasedir (ino : Inode) (fh : ℕ)
  | release (ino : Inode) (fh : ℕ)
  deriving DecidableEq

namespace FuseServer

/-- One operation. -/
def step (s : FuseServer) : FuseOp → FuseServer × Reply
  | .init rootStreamId => s.init rootStreamId
  | .loadFileList rootStreamId files => s.loadFileList rootStreamId files
  | .opendir ino => s.opendir ino
  | .open ino => s.open ino
  | .readdir ino fh offset => (s, s.readdir ino fh offset)
  | .read ino fh => (s, s.read ino fh)
  | .releasedir ino fh => s.releasedir ino fh
  | .release ino fh => s.release ino fh

/-- The server after a sequence of operations on a new one. -/
def after (ops : List FuseOp) : FuseServer := ops.foldl (fun s op => (s.step op).1) new

/-- The operations together with their replies. -/
def replies (s : FuseServer) : List FuseOp → List (FuseOp × Reply)
  | [] => []
  | op :: ops => (op, (s.step op).2) :: replies (s.step op).1 ops

/-- The transcript of a sequence of operations on a new server. -/
def transcript (ops : List FuseOp) : List (FuseOp × Reply) := replies new ops

/-- The server after one call more. -/
theorem after_snoc (ops : List FuseOp) (op : FuseOp) :
    after (ops ++ [op]) = ((after ops).step op).1 := by
  simp [after]

/-- The replies, with one call more. -/
theorem replies_snoc (s : FuseServer) (ops : List FuseOp) (op : FuseOp) :
    replies s (ops ++ [op]) =
      replies s ops ++ [(op, ((ops.foldl (fun s op => (s.step op).1) s).step op).2)] := by
  induction ops generalizing s with
  | nil => rfl
  | cons op' ops ih => simp [replies, ih]

/-- The transcript, with one call more. -/
theorem transcript_snoc (ops : List FuseOp) (op : FuseOp) :
    transcript (ops ++ [op]) = transcript ops ++ [(op, ((after ops).step op).2)] :=
  replies_snoc new ops op

end FuseServer

end RdWeb.Fuse
