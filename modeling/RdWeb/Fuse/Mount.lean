import RdWeb.Fuse.Server
import RdWeb.Fuse.ReadRequest
import RdWeb.Lib.Machine

/-!
# Reads of the mounted files and the replies of the peers

`read_node` sends a request and then takes replies off one channel that all reads
share. A read holds the server's mutex, so reads follow each other, but a reply may
arrive at any time, also after its read has given up. Replies are told apart by the
stream id of the node alone.
-/

namespace RdWeb.Fuse

open RdWeb.Clipboard

/-- What a read asks for: a node, named by the load that built it and its inode, and
a range of it. -/
structure ReadId where
  load : ℕ
  ino : Inode
  offset : BitVec 64
  size : BitVec 32
  deriving DecidableEq

/-- A request on its way, with the read it is from. -/
structure Asked where
  id : ReadId
  connId : BitVec 32
  request : FileContentsRequest
  deriving DecidableEq

/-- A message in the channel, with the request it answers. -/
inductive Incoming
  | response (origin : Asked) (reply : FileContentsResponse)
  /-- Any other clipboard message. -/
  | other
  deriving DecidableEq

/-- A read that waits in its loop. -/
structure PendingRead where
  asked : Asked
  retryTimes : ℕ
  deriving DecidableEq

/-- The server, the messages under way, and the history of replies and reads. -/
structure Mount where
  server : FuseServer
  loads : ℕ
  outstanding : List Asked
  channel : List Incoming
  reading : Option PendingRead
  produced : List (ReadId × List UInt8)
  finished : List (ReadId × Except IoError (List UInt8))
  deriving DecidableEq

/-- What can happen. A `failure` is the error of `send_data`, if it fails. -/
inductive MountEvent
  | op (o : FuseOp)
  | read (ino : Inode) (fh : ℕ) (offset : BitVec 64) (size : BitVec 32) (failure : Option String)
  /-- A peer answers one of the requests it got. -/
  | reply (i : ℕ) (msgFlags : BitVec 32) (requestedData : List UInt8)
  | other
  | receive (failure : Option String)
  | timeout
  deriving DecidableEq

namespace Mount

/-- How often a read is retried. -/
def READ_RETRY : ℕ := 3

/-- The loop returns. -/
def finish (s : Mount) (id : ReadId) (result : Except IoError (List UInt8)) : Mount :=
  { s with reading := none, finished := s.finished ++ [(id, result)] }

/-- `send_data` and what follows it in the read. -/
def send (s : Mount) (pending : PendingRead) : Option String → Mount
  | some e => s.finish pending.asked.id (.error ⟨.other, e⟩)
  | none =>
    { s with outstanding := s.outstanding ++ [pending.asked], reading := some pending }

/-- A `read` that gets past its checks goes into `read_node`. -/
def startRead (s : Mount) (ino : Inode) (fh : ℕ) (offset : BitVec 64) (size : BitVec 32)
    (failure : Option String) : Mount :=
  match s.server.readChecks ino fh with
  | .error _ => s
  | .ok node =>
    let asked := ⟨⟨s.loads, ino, offset, size⟩, node.connId, node.readRequest offset size⟩
    s.send ⟨asked, 0⟩ failure

/-- One round of the loop of `read_node` on a received message. -/
def onMessage (s : Mount) (pending : PendingRead) (failure : Option String) : Incoming → Mount
  | .other => s.finish pending.asked.id (.error ⟨.other, "invalid reply"⟩)
  | .response _ reply =>
    if reply.streamId ≠ pending.asked.request.streamId then s
    else if reply.msgFlags &&& 1#32 = 0 then
      if READ_RETRY < pending.retryTimes + 1 then
        s.finish pending.asked.id (.error ⟨.other, "failure request"⟩)
      else s.send { pending with retryTimes := pending.retryTimes + 1 } failure
    else s.finish pending.asked.id (.ok reply.requestedData)

/-- An operation that does not wait; loads are counted. -/
def operate (s : Mount) (o : FuseOp) : Mount :=
  let (server, reply) := s.server.step o
  let loaded := match o, reply with
    | .loadFileList _ _, .ok => 1
    | _, _ => 0
  { s with server := server, loads := s.loads + loaded }

/-- One step of the mount. -/
def step (s : Mount) : MountEvent → Option Mount
  | .op o => if s.reading = none then some (s.operate o) else none
  | .read ino fh offset size failure =>
    if s.reading = none then some (s.startRead ino fh offset size failure) else none
  | .reply i msgFlags requestedData =>
    s.outstanding[i]?.map fun asked =>
      { s with
        outstanding := s.outstanding.eraseIdx i
        channel := s.channel ++
          [.response asked ⟨msgFlags, asked.request.streamId, requestedData⟩]
        produced := s.produced ++ [(asked.id, requestedData)] }
  | .other => some { s with channel := s.channel ++ [.other] }
  | .receive failure =>
    match s.reading, s.channel with
    | some pending, message :: channel =>
      some ({ s with channel := channel }.onMessage pending failure message)
    | _, _ => none
  | .timeout =>
    match s.reading, s.channel with
    | some pending, [] =>
      some (s.finish pending.asked.id (.error ⟨.timedOut, "timed out waiting on channel"⟩))
    | _, _ => none

/-- The requests that messages in the channel answer. -/
def origins (channel : List Incoming) : List Asked :=
  channel.filterMap fun
    | .response origin _ => some origin
    | .other => none

/-- The requests that are unanswered, or whose answer was not taken yet. -/
def unsettled (s : Mount) : List Asked := s.outstanding ++ origins s.channel

/-- Every request under the stream id that is not settled is from this very read. -/
def Settled (s : Mount) (streamId : BitVec 32) (id : ReadId) : Prop :=
  ∀ asked ∈ s.unsettled, asked.request.streamId = streamId → asked.id = id

/-- Whether a reply was settled is decided by what was asked. -/
instance (s : Mount) (streamId : BitVec 32) (id : ReadId) : Decidable (s.Settled streamId id) :=
  inferInstanceAs (Decidable (∀ asked ∈ s.unsettled, asked.request.streamId = streamId →
    asked.id = id))

/-- A read starts only when nothing else under its stream id is unsettled. -/
def StartsSettled (s : Mount) : MountEvent → Prop
  | .read ino fh offset size _ =>
    match s.server.readChecks ino fh with
    | .error _ => True
    | .ok node => s.Settled node.streamId ⟨s.loads, ino, offset, size⟩
  | _ => True

/-- Whether a read starts settled is decided by the node it reads. -/
instance (s : Mount) (e : MountEvent) : Decidable (s.StartsSettled e) :=
  match e with
  | .read ino fh offset size _ =>
    match hchecks : s.server.readChecks ino fh with
    | .error _ => isTrue (by simp [StartsSettled, hchecks])
    | .ok node =>
      decidable_of_iff (s.Settled node.streamId ⟨s.loads, ino, offset, size⟩)
        (by simp [StartsSettled, hchecks])
  | .op _ | .reply _ _ _ | .other | .receive _ | .timeout => isTrue trivial

end Mount

/-- The mount, from an empty server on. -/
def mountMachine : Machine Mount MountEvent where
  init := ⟨.new, 0, [], [], none, [], []⟩
  step := Mount.step

end RdWeb.Fuse
