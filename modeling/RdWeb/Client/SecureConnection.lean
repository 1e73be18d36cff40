import RdWeb.Lib.DolevYao

/-!
# The secure handshake of a connection

Client and host agree on a symmetric key before the login. The host signs its id with a fresh box
key; the client checks that with the key the rendezvous server signed for the id, and seals a
symmetric key for the box key. Whatever fails on the way leaves the connection open without a
key. The network between them belongs to an attacker.
-/

namespace RdWeb.Client.SecureConnection

open DolevYao DolevYao.Term

/-! ### Keys and messages -/

/-- Who a key belongs to: the rendezvous server, a host, the session `n` of a host (its box key)
or the connection `n` of a client to `peerId`. -/
inductive Owner (Name Host : Type*)
  | attacker (n : ℕ)
  | server
  | host (h : Host)
  | session (h : Host) (n : ℕ)
  | client (peerId : Name) (n : ℕ)
  deriving DecidableEq

variable {Name Host : Type*}

/-- The bytes of the handshake. -/
abbrev Bytes (Name Host : Type*) := Term Name (Owner Name Host)

/-- What a received packet parses to; `none` stands for empty bytes. -/
inductive Packet (Name Host : Type*)
  | unparsable
  /-- Any other message, the empty one included. -/
  | other
  | signedId (id : Bytes Name Host)
  | publicKey (asymmetricValue symmetricValue : Option (Bytes Name Host))

/-- The terms in a packet. -/
def Packet.terms : Packet Name Host → List (Bytes Name Host)
  | unparsable | other => []
  | signedId id => [id]
  | publicKey asymmetricValue symmetricValue =>
    asymmetricValue.toList ++ symmetricValue.toList

/-- `get_pk`: bytes of the length of a key. -/
def getPk (pk : Bytes Name Host) : Option (Bytes Name Host) :=
  match pk with
  | verifyKey _ | boxPublic _ | boxSecret _ | symmetric _ => some pk
  | _ => none

section
variable [DecidableEq Name] [DecidableEq Host]

/-- `decode_id_pk`: the id and the key in what `key` verifies. -/
def decodeIdPk (signature key : Bytes Name Host) : Option (Name × Bytes Name Host) :=
  match signature, key with
  | signed k (pair (.name id) pk), verifyKey verifier =>
    if k = verifier then (getPk pk).map fun pk => (id, pk) else none
  | _, _ => none

/-- `Encrypt::decode`: the symmetric key sealed between their public key and our secret one. -/
def decode (symmetricData theirPk : Bytes Name Host) (ours : Owner Name Host) :
    Option (Bytes Name Host) :=
  match symmetricData with
  | boxed k theirs content =>
    if (k = ours ∧ theirs = theirPk) ∨ (boxPublic k = theirPk ∧ theirs = boxPublic ours) then
      getPk content
    else none
  | _ => none

/-- `create_symmetric_key_msg` with the fresh keys of `own`: the public key, the sealed key and the
key itself. -/
def createSymmetricKeyMsg (theirPk : Bytes Name Host) (own : Owner Name Host) :
    Bytes Name Host × Bytes Name Host × Bytes Name Host :=
  (boxPublic own, boxed own theirPk (symmetric own), symmetric own)

/-! ### The client -/

/-- How far `secure_connection` is: it waits for the host with the verified key, or has returned,
with the key set on the connection and the public key it returns. -/
inductive ClientPhase (Name Host : Type*)
  | waiting (signPk : Bytes Name Host)
  | done (key optionPk : Option (Bytes Name Host))
  | failed

/-- `secure_connection` up to its first wait, and what it sends. -/
def secureStart (peerId : Name) (signedIdPk rsPk : Option (Bytes Name Host)) :
    ClientPhase Name Host × List (Packet Name Host) :=
  let signPk := do
    let signature ← signedIdPk
    let (id, pk) ← decodeIdPk signature (← rsPk)
    if id = peerId then some pk else none
  match signPk with
  | some pk => (.waiting pk, [])
  -- the host may be setting up and waiting for a first message
  | none => (.done none none, [.other])

/-- `secure_connection` from the answer of the host on; `none` is a reset. -/
def secureAnswer (peerId : Name) (own : Owner Name Host) (signPk : Bytes Name Host) :
    Option (Packet Name Host) → ClientPhase Name Host × List (Packet Name Host)
  | none => (.failed, [])
  | some (.signedId si) =>
    match decodeIdPk si signPk with
    | some (id, theirPk) =>
      if id = peerId then
        let (asymmetricValue, symmetricValue, key) := createSymmetricKeyMsg theirPk own
        (.done (some key) (some signPk),
          [.publicKey (some asymmetricValue) (some symmetricValue)])
      else (.done none (some signPk), [.other])
    -- the host may have changed its key
    | none => (.done none (some signPk), [.publicKey none none])
  | some _ => (.done none (some signPk), [.other])

/-! ### The host -/

/-- How far `create_tcp_connection` is with a session. -/
inductive SessionPhase (Name Host : Type*)
  | waiting
  /-- The key set on the connection, and whether the registered key stays confirmed. -/
  | done (key : Option (Bytes Name Host)) (keyConfirmed : Bool)
  | failed

/-- What the host signs for its session `n`. -/
def signedIdPk (id : Name) (h : Host) (n : ℕ) : Bytes Name Host :=
  signed (.host h) (pair (.name id) (boxPublic (.session h n)))

/-- `create_tcp_connection` up to its first wait, and what it sends. -/
def sessionStart (id : Name) (h : Host) (n : ℕ) (secure : Bool) :
    SessionPhase Name Host × List (Packet Name Host) :=
  if secure then (.waiting, [.signedId (signedIdPk id h n)]) else (.done none true, [])

/-- `create_tcp_connection` from the answer of the client on; `none` is a closed stream. -/
def sessionAnswer (h : Host) (n : ℕ) : Option (Packet Name Host) → SessionPhase Name Host
  | none | some .unparsable => .failed
  | some (.publicKey none _) => .done none false
  | some (.publicKey (some asymmetricValue) symmetricValue) =>
    match getPk asymmetricValue with
    | none => .failed
    | some theirPk =>
      match symmetricValue.bind fun data => decode data theirPk (.session h n) with
      | some key => .done (some key) true
      | none => .failed
  | some _ => .done none true

end

/-! ### The parties and the network -/

/-- A connection of a client. -/
structure ClientSide (Name Host : Type*) where
  peerId : Name
  phase : ClientPhase Name Host

/-- A session of a host. -/
structure HostSide (Name Host : Type*) where
  host : Host
  phase : SessionPhase Name Host

/-- All connections so far, all sessions so far, and all that went over the network. -/
structure State (Name Host : Type*) where
  clients : List (ClientSide Name Host) := []
  sessions : List (HostSide Name Host) := []
  seen : List (Bytes Name Host) := []

/-- The keys the attacker brings along. -/
def Own : Owner Name Host → Prop
  | .attacker _ => True
  | _ => False

/-- The attacker can send the packet. -/
def State.CanSend (s : State Name Host) (packet : Packet Name Host) : Prop :=
  ∀ t ∈ packet.terms, Derives Own s.seen t

/-- Packets go out: the attacker sees them. -/
def State.send (s : State Name Host) (packets : List (Packet Name Host)) : State Name Host :=
  { s with seen := s.seen ++ packets.flatMap Packet.terms }

section
variable [DecidableEq Name] [DecidableEq Host] (hostId : Host → Name)

/-- One step of a party. The server signs for the id of a host that host's key, and for another id
whatever it was given; clients are configured with that server's key or with none. -/
inductive Step : State Name Host → State Name Host → Prop
  | register (s : State Name Host) (h : Host) :
      Step s { s with
        seen := s.seen ++ [signed .server (pair (.name (hostId h)) (verifyKey (.host h)))] }
  | registerOther (s : State Name Host) (id : Name) (pk : Bytes Name Host) :
      (∀ h, hostId h ≠ id) → Derives Own s.seen pk →
      Step s { s with seen := s.seen ++ [signed .server (pair (.name id) pk)] }
  | connect (s : State Name Host) (peerId : Name) (signedIdPk rsPk : Option (Bytes Name Host)) :
      (∀ t ∈ signedIdPk, Derives Own s.seen t) → (∀ t ∈ rsPk, t = verifyKey .server) →
      Step s (State.send
        { s with
          clients := s.clients ++ [⟨peerId, (secureStart peerId signedIdPk rsPk).1⟩] }
        (secureStart peerId signedIdPk rsPk).2)
  | answerClient (s : State Name Host) (n : ℕ) (c : ClientSide Name Host)
      (signPk : Bytes Name Host) (packet : Option (Packet Name Host)) :
      s.clients[n]? = some c → c.phase = .waiting signPk → (∀ p ∈ packet, s.CanSend p) →
      Step s (State.send
        { s with
          clients := s.clients.set n
            ⟨c.peerId, (secureAnswer c.peerId (.client c.peerId n) signPk packet).1⟩ }
        (secureAnswer c.peerId (.client c.peerId n) signPk packet).2)
  | accept (s : State Name Host) (h : Host) (secure : Bool) :
      Step s (State.send
        { s with
          sessions := s.sessions ++
            [⟨h, (sessionStart (hostId h) h s.sessions.length secure).1⟩] }
        (sessionStart (hostId h) h s.sessions.length secure).2)
  | answerSession (s : State Name Host) (n : ℕ) (c : HostSide Name Host)
      (packet : Option (Packet Name Host)) :
      s.sessions[n]? = some c → c.phase = .waiting → (∀ p ∈ packet, s.CanSend p) →
      Step s { s with
        sessions := s.sessions.set n ⟨c.host, sessionAnswer c.host n packet⟩ }

/-- The states the parties and the attacker reach. -/
inductive Reachable : State Name Host → Prop
  | init : Reachable {}
  | step {s t : State Name Host} : Reachable s → Step hostId s t → Reachable t

end

end RdWeb.Client.SecureConnection
