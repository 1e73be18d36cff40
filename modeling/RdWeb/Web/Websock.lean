import RdWeb.Lib.LittleEndian
import RdWeb.Lib.Machine
import RdWeb.Lib.Numbering
import RdWeb.Web.Handshake

/-!
# The encrypted stream of the web client

`Websock` of `websock.ts` from `setSecretKey` on, with the nonces of `crypto_sodium.js`.
The two directions of the stream have one key and a counter each. The peer is a stream of
the native code, which is not part of the sources: it numbers the messages of each
direction from one, as the client does. A web socket delivers in order, so the messages
under way are a queue.
-/

namespace RdWeb.Web

/-- The number after which a `number` of JavaScript skips integers. -/
def MAX_EXACT : ℕ := 2 ^ 53

/-- `k += 1` of a count. From `2 ^ 53` on the sum is rounded back to the count. -/
def increment (k : ℕ) : ℕ := if k < MAX_EXACT then k + 1 else k

/-- The loop of `makeOnce` over the bytes that are left. -/
def makeOnceFrom : ℕ → ℕ → Bytes
  | 0, _ => []
  | bytes + 1, value =>
    if value > 0 then
      let byte := value % 256
      UInt8.ofNat byte :: makeOnceFrom bytes ((value - byte) / 256)
    else
      List.replicate (bytes + 1) 0

/-- `makeOnce` of `crypto_sodium.js`: the nonce of a message number. -/
def makeOnce (value : ℕ) : Bytes := makeOnceFrom 24 value

/-- The functions of libsodium, the generated protobuf decoder and the ingress handler:
whether it consumes a message. -/
structure StreamLibs (Message : Type*) where
  cryptoSecretboxEasy : Bytes → Bytes → Bytes → Bytes
  cryptoSecretboxOpenEasy : Bytes → Bytes → Bytes → Option Bytes
  decode : Bytes → Option Message
  consumes : Message → Bool

/-- One frame of the web socket. `sealedWith` records the key and the nonce that encrypted
it. -/
structure Frame where
  data : Bytes
  sealedWith : Option (Bytes × Bytes)
  deriving DecidableEq

/-- `Websock`: the key with the numbers of messages sent and received, and the messages that
`next` has not taken. -/
structure Websock (Message : Type*) where
  buf : List Message
  secretKey : Option (Bytes × ℕ × ℕ)

namespace Websock

variable {Message : Type*} (libs : StreamLibs Message)

/-- From now on what is sent and received is encrypted, each way with its own counter. -/
def setSecretKey (ws : Websock Message) (key : Bytes) : Websock Message :=
  { ws with secretKey := some (key, 0, 0) }

/-- `sendMessage` of an encoded message. -/
def sendMessage (ws : Websock Message) (data : Bytes) : Websock Message × Frame :=
  match ws.secretKey with
  | some (key, sent, received) =>
    let nonce := makeOnce (increment sent)
    ({ ws with secretKey := some (key, increment sent, received) },
      ⟨libs.cryptoSecretboxEasy data nonce key, some (key, nonce)⟩)
  | none => (ws, ⟨data, none⟩)

/-- What `_recv_message` does with the decrypted bytes: a message that does not decode is
thrown away, and one the ingress handler consumes is not queued. -/
def ingress (ws : Websock Message) (bytes : Bytes) : Websock Message :=
  match libs.decode bytes with
  | some m => if libs.consumes m then ws else { ws with buf := ws.buf ++ [m] }
  | none => ws

/-- `_recv_message`, with the key and the nonce of the decryption. The number is counted
before `decrypt`, which throws where the message was not encrypted like this. -/
def recvMessage (ws : Websock Message) (data : Bytes) :
    Websock Message × Option (Bytes × Bytes) :=
  match ws.secretKey with
  | some (key, sent, received) =>
    let nonce := makeOnce (increment received)
    let counted := { ws with secretKey := some (key, sent, increment received) }
    match libs.cryptoSecretboxOpenEasy data nonce key with
    | some bytes => (counted.ingress libs bytes, some (key, nonce))
    | none => (counted, some (key, nonce))
  | none => (ws.ingress libs data, none)

end Websock

/-- The stream of the peer. -/
structure PeerStream where
  key : Bytes
  sent : ℕ
  received : ℕ

namespace PeerStream

variable {Message : Type*} (libs : StreamLibs Message)

/-- The nonce of a message number: its little-endian bytes. -/
def nonce (n : ℕ) : Bytes := LittleEndian.toBytes 24 n

/-- The peer encrypts with the number of its message. -/
def sendMessage (peer : PeerStream) (data : Bytes) : PeerStream × Frame :=
  let nonce := nonce (peer.sent + 1)
  ({ peer with sent := peer.sent + 1 },
    ⟨libs.cryptoSecretboxEasy data nonce peer.key, some (peer.key, nonce)⟩)

/-- The key and the nonce the next message of the client is decrypted with. -/
def recvMessage (peer : PeerStream) : PeerStream × (Bytes × Bytes) :=
  ({ peer with received := peer.received + 1 }, (peer.key, nonce (peer.received + 1)))

end PeerStream

/-- The two directions of the connection. -/
inductive Direction
  | toPeer
  | toClient
  deriving DecidableEq

/-- One decryption: the pair it used and the pair its message was encrypted with. -/
structure Opening where
  used : Option (Bytes × Bytes)
  sealedWith : Option (Bytes × Bytes)
  deriving DecidableEq

/-- Both ends, the messages under way, and what was encrypted and decrypted so far. -/
structure Duplex (Message : Type*) where
  client : Websock Message
  peer : PeerStream
  wire : Direction → List Frame
  encrypted : Direction → List (Option (Bytes × Bytes))
  decrypted : Direction → List Opening

/-- What happens on the connection. -/
inductive StreamEvent
  | clientSends (data : Bytes)
  | peerReceives
  | peerSends (data : Bytes)
  | clientReceives

namespace Duplex

variable {Message : Type*} (libs : StreamLibs Message)

/-- The stream when both ends have the key. -/
def start (ws : Websock Message) (key : Bytes) : Duplex Message :=
  { client := ws.setSecretKey key
    peer := ⟨key, 0, 0⟩
    wire := fun _ => []
    encrypted := fun _ => []
    decrypted := fun _ => [] }

/-- A frame goes out. -/
def push (s : Duplex Message) (d : Direction) (frame : Frame) : Duplex Message :=
  { s with
    wire := Function.update s.wire d (s.wire d ++ [frame])
    encrypted := Function.update s.encrypted d (s.encrypted d ++ [frame.sealedWith]) }

/-- The first frame of the wire arrives and is decrypted with `used`. -/
def pull (s : Duplex Message) (d : Direction) (rest : List Frame) (frame : Frame)
    (used : Option (Bytes × Bytes)) : Duplex Message :=
  { s with
    wire := Function.update s.wire d rest
    decrypted := Function.update s.decrypted d (s.decrypted d ++ [⟨used, frame.sealedWith⟩]) }

/-- One step of either end. -/
def step (s : Duplex Message) : StreamEvent → Option (Duplex Message)
  | .clientSends data =>
    let (client, frame) := s.client.sendMessage libs data
    some ({ s with client := client }.push .toPeer frame)
  | .peerReceives =>
    match s.wire .toPeer with
    | [] => none
    | frame :: rest =>
      let (peer, used) := s.peer.recvMessage
      some ({ s with peer := peer }.pull .toPeer rest frame (some used))
  | .peerSends data =>
    let (peer, frame) := s.peer.sendMessage libs data
    some ({ s with peer := peer }.push .toClient frame)
  | .clientReceives =>
    match s.wire .toClient with
    | [] => none
    | frame :: rest =>
      let (client, used) := s.client.recvMessage libs frame.data
      some ({ s with client := client }.pull .toClient rest frame used)

/-- The connection, from the moment at which the key is set. -/
def machine (ws : Websock Message) (key : Bytes) : Machine (Duplex Message) StreamEvent :=
  ⟨start ws key, step libs⟩

end Duplex

/-! ### The nonce of a message number -/

/-- The bytes of a nonce are those of its number. -/
theorem makeOnceFrom_eq (bytes value : ℕ) :
    makeOnceFrom bytes value = LittleEndian.toBytes bytes value := by
  induction bytes generalizing value with
  | zero => rfl
  | succ bytes ih =>
    rw [makeOnceFrom, LittleEndian.toBytes]
    split_ifs with hpos
    · have hrest : (value - value % 256) / 256 = value / 256 := by omega
      have hbyte : UInt8.ofNat (value % 256) = UInt8.ofNat value := by
        simp [← UInt8.toNat_inj]
      simp only [hrest, hbyte, ih]
    · obtain rfl : value = 0 := by omega
      rw [List.replicate_succ, ← ih (0 / 256)]
      cases bytes <;> rfl

/-- Both ends write a number into the nonce in the same way. -/
theorem makeOnce_eq (value : ℕ) : makeOnce value = PeerStream.nonce value :=
  makeOnceFrom_eq 24 value

/-- Different numbers make different nonces. -/
theorem nonce_injective {m n : ℕ} (hm : m ≤ MAX_EXACT) (hn : n ≤ MAX_EXACT)
    (heq : PeerStream.nonce m = PeerStream.nonce n) : m = n := by
  have hbound : MAX_EXACT < 256 ^ 24 := by decide
  have hvalue := congrArg LittleEndian.ofBytes heq
  rw [PeerStream.nonce, PeerStream.nonce, LittleEndian.ofBytes_toBytes_of_lt (by omega),
    LittleEndian.ofBytes_toBytes_of_lt (by omega)] at hvalue
  exact hvalue

/-- A count that is increased once for each message stops at `2 ^ 53`. -/
theorem increment_min (n : ℕ) : increment (min n MAX_EXACT) = min (n + 1) MAX_EXACT := by
  rw [increment]
  split_ifs with h <;> omega

/-! ### The invariant of the stream -/

namespace Duplex

variable {Message : Type*} (libs : StreamLibs Message)

/-- The pair of message number `n` of the peer. -/
def peerPair (key : Bytes) (n : ℕ) : Option (Bytes × Bytes) := some (key, PeerStream.nonce n)

/-- The pair of message number `n` of the client. -/
def clientPair (key : Bytes) (n : ℕ) : Option (Bytes × Bytes) := peerPair key (min n MAX_EXACT)

/-- Both ends count what they sent and received, every pair is that of its number, and the
messages decrypted and under way are those encrypted, in order. -/
structure Counted (key : Bytes) (s : Duplex Message) : Prop where
  client : s.client.secretKey = some (key, min (s.encrypted .toPeer).length MAX_EXACT,
    min (s.decrypted .toClient).length MAX_EXACT)
  peerKey : s.peer.key = key
  peerSent : s.peer.sent = (s.encrypted .toClient).length
  peerReceived : s.peer.received = (s.decrypted .toPeer).length
  clientEncrypts : Numbered (clientPair key) (s.encrypted .toPeer)
  peerEncrypts : Numbered (peerPair key) (s.encrypted .toClient)
  peerDecrypts : Numbered (peerPair key) ((s.decrypted .toPeer).map Opening.used)
  clientDecrypts : Numbered (clientPair key) ((s.decrypted .toClient).map Opening.used)
  inOrder : ∀ d, (s.decrypted d).map Opening.sealedWith ++ (s.wire d).map Frame.sealedWith =
    s.encrypted d

variable {key : Bytes} {ws : Websock Message} {s t : Duplex Message}

/-- At the start both ends have counted nothing. -/
theorem counted_start : Counted key (start ws key) where
  client := rfl
  peerKey := rfl
  peerSent := rfl
  peerReceived := rfl
  clientEncrypts := .nil
  peerEncrypts := .nil
  peerDecrypts := .nil
  clientDecrypts := .nil
  inOrder _ := rfl

/-- A frame that goes out keeps the order. -/
theorem inOrder_push (h : ∀ d, (s.decrypted d).map Opening.sealedWith ++
      (s.wire d).map Frame.sealedWith = s.encrypted d) (d' : Direction) (frame : Frame)
    (d : Direction) :
    ((s.push d' frame).decrypted d).map Opening.sealedWith ++
      ((s.push d' frame).wire d).map Frame.sealedWith = (s.push d' frame).encrypted d := by
  by_cases hd : d = d'
  · subst hd
    simp [push, ← h d]
  · simpa [push, hd] using h d

/-- A frame that arrives keeps the order. -/
theorem inOrder_pull (h : ∀ d, (s.decrypted d).map Opening.sealedWith ++
      (s.wire d).map Frame.sealedWith = s.encrypted d) {d' : Direction} {frame : Frame}
    {rest : List Frame} (hwire : s.wire d' = frame :: rest) (used : Option (Bytes × Bytes))
    (d : Direction) :
    ((s.pull d' rest frame used).decrypted d).map Opening.sealedWith ++
      ((s.pull d' rest frame used).wire d).map Frame.sealedWith =
        (s.pull d' rest frame used).encrypted d := by
  by_cases hd : d = d'
  · subst hd
    simp [pull, ← h d, hwire]
  · simpa [pull, hd] using h d

/-- A message of the client is counted by its sender. -/
theorem Counted.clientSends (h : Counted key s) (data : Bytes) :
    Counted key ({ s with client := (s.client.sendMessage libs data).1 }.push .toPeer
      (s.client.sendMessage libs data).2) := by
  have hnumber := increment_min (s.encrypted .toPeer).length
  have hnext := h.clientEncrypts.concat
  rw [clientPair, peerPair, ← makeOnce_eq] at hnext
  rw [Websock.sendMessage, h.client]
  exact
    { client := by simp [push, hnumber]
      peerKey := h.peerKey
      peerSent := h.peerSent
      peerReceived := h.peerReceived
      clientEncrypts := by simpa [push, hnumber] using hnext
      peerEncrypts := h.peerEncrypts
      peerDecrypts := h.peerDecrypts
      clientDecrypts := h.clientDecrypts
      inOrder := inOrder_push h.inOrder _ _ }

/-- A message of the peer is counted by its sender. -/
theorem Counted.peerSends (h : Counted key s) (data : Bytes) :
    Counted key ({ s with peer := (s.peer.sendMessage libs data).1 }.push .toClient
      (s.peer.sendMessage libs data).2) := by
  have hnext := h.peerEncrypts.concat
  rw [peerPair] at hnext
  exact
    { client := h.client
      peerKey := h.peerKey
      peerSent := by simp [push, PeerStream.sendMessage, h.peerSent]
      peerReceived := h.peerReceived
      clientEncrypts := h.clientEncrypts
      peerEncrypts := by simpa [push, PeerStream.sendMessage, h.peerKey, h.peerSent] using hnext
      peerDecrypts := h.peerDecrypts
      clientDecrypts := h.clientDecrypts
      inOrder := inOrder_push h.inOrder _ _ }

/-- A message that reaches the peer is counted by its receiver. -/
theorem Counted.peerReceives (h : Counted key s) {frame : Frame} {rest : List Frame}
    (hwire : s.wire .toPeer = frame :: rest) :
    Counted key ({ s with peer := s.peer.recvMessage.1 }.pull .toPeer rest frame
      (some s.peer.recvMessage.2)) := by
  have hnext := h.peerDecrypts.concat
  rw [peerPair, List.length_map] at hnext
  exact
    { client := h.client
      peerKey := h.peerKey
      peerSent := h.peerSent
      peerReceived := by simp [pull, PeerStream.recvMessage, h.peerReceived]
      clientEncrypts := h.clientEncrypts
      peerEncrypts := h.peerEncrypts
      peerDecrypts := by
        simpa [pull, PeerStream.recvMessage, h.peerKey, h.peerReceived] using hnext
      clientDecrypts := h.clientDecrypts
      inOrder := inOrder_pull (s := { s with peer := s.peer.recvMessage.1 }) h.inOrder hwire _ }

/-- The client counts a message whether or not it decrypts and decodes. -/
theorem recvMessage_spec {client : Websock Message} {sent received : ℕ}
    (hkey : client.secretKey = some (key, sent, received)) (data : Bytes) :
    (client.recvMessage libs data).1.secretKey = some (key, sent, increment received) ∧
      (client.recvMessage libs data).2 = some (key, makeOnce (increment received)) := by
  have hingress (counted : Websock Message) (bytes : Bytes) :
      (counted.ingress libs bytes).secretKey = counted.secretKey := by
    rw [Websock.ingress]
    split
    · split_ifs <;> rfl
    · rfl
  rw [Websock.recvMessage, hkey]
  dsimp only
  split
  · exact ⟨hingress _ _, rfl⟩
  · exact ⟨rfl, rfl⟩

/-- A message that reaches the client is counted by its receiver. -/
theorem Counted.clientReceives (h : Counted key s) {frame : Frame} {rest : List Frame}
    (hwire : s.wire .toClient = frame :: rest) :
    Counted key ({ s with client := (s.client.recvMessage libs frame.data).1 }.pull .toClient rest
      frame (s.client.recvMessage libs frame.data).2) := by
  obtain ⟨hkey, hused⟩ := recvMessage_spec libs h.client frame.data
  have hnumber := increment_min (s.decrypted .toClient).length
  have hnext := h.clientDecrypts.concat
  rw [clientPair, peerPair, ← makeOnce_eq, List.length_map] at hnext
  exact
    { client := by simp [pull, hkey, hnumber]
      peerKey := h.peerKey
      peerSent := h.peerSent
      peerReceived := h.peerReceived
      clientEncrypts := h.clientEncrypts
      peerEncrypts := h.peerEncrypts
      peerDecrypts := h.peerDecrypts
      clientDecrypts := by simpa [pull, hused, hnumber] using hnext
      inOrder := inOrder_pull (s := { s with client := (s.client.recvMessage libs frame.data).1 })
        h.inOrder hwire _ }

/-- Every step keeps the invariant. -/
theorem counted_step {e : StreamEvent} (hstep : step libs s e = some t) (h : Counted key s) :
    Counted key t := by
  cases e with
  | clientSends data =>
    obtain rfl := Option.some.inj hstep
    exact h.clientSends libs data
  | peerSends data =>
    obtain rfl := Option.some.inj hstep
    exact h.peerSends libs data
  | peerReceives =>
    rw [step] at hstep
    split at hstep
    · cases hstep
    · obtain rfl := Option.some.inj hstep
      exact h.peerReceives ‹_›
  | clientReceives =>
    rw [step] at hstep
    split at hstep
    · cases hstep
    · obtain rfl := Option.some.inj hstep
      exact h.clientReceives libs ‹_›

/-- So every reachable state is counted. -/
theorem counted_of_reachable (h : (machine libs ws key).Reachable s) : Counted key s :=
  h.invariant (P := Counted key) counted_start fun _ _ _ hstep => counted_step libs hstep

/-- The two ends agree on a message number that the client counts exactly. -/
theorem clientPair_eq {n : ℕ} (hn : n ≤ MAX_EXACT) : clientPair key n = peerPair key n := by
  rw [clientPair, min_eq_left hn]

/-- Two numbers that are exact give two nonces. -/
theorem peerPair_injective {m n : ℕ} (hm : m ≤ MAX_EXACT) (hn : n ≤ MAX_EXACT)
    (heq : peerPair key m = peerPair key n) : m = n := by
  obtain ⟨-, hnonce⟩ := Prod.mk.inj (Option.some.inj heq)
  exact nonce_injective hm hn hnonce

/-- What was encrypted, in the numbering both ends share. -/
theorem Counted.encrypted_numbered (h : Counted key s)
    (hle : ∀ d, (s.encrypted d).length ≤ MAX_EXACT) (d : Direction) :
    Numbered (peerPair key) (s.encrypted d) := by
  cases d with
  | toPeer => exact h.clientEncrypts.congr fun n hn => clientPair_eq (hn.trans (hle .toPeer))
  | toClient => exact h.peerEncrypts

/-- The messages decrypted are the first ones encrypted. -/
theorem Counted.decrypted_initial (h : Counted key s) (d : Direction) :
    (s.decrypted d).map Opening.sealedWith <+: s.encrypted d :=
  ⟨_, h.inOrder d⟩

/-- What was used to decrypt, in the numbering both ends share. -/
theorem Counted.used_numbered (h : Counted key s)
    (hle : ∀ d, (s.encrypted d).length ≤ MAX_EXACT) (d : Direction) :
    Numbered (peerPair key) ((s.decrypted d).map Opening.used) := by
  cases d with
  | toPeer => exact h.peerDecrypts
  | toClient =>
    have hcount := (h.decrypted_initial .toClient).length_le
    rw [List.length_map] at hcount
    refine h.clientDecrypts.congr fun n hn => clientPair_eq ?_
    rw [List.length_map] at hn
    exact hn.trans (hcount.trans (hle .toClient))

/-- Every message is decrypted with the pair it was encrypted with. -/
theorem Counted.used_eq_sealedWith (h : Counted key s)
    (hle : ∀ d, (s.encrypted d).length ≤ MAX_EXACT) {d : Direction} {opening : Opening}
    (hmem : opening ∈ s.decrypted d) : opening.used = opening.sealedWith := by
  have hsealed := (h.encrypted_numbered hle d).initial (h.decrypted_initial d)
  have heq := (h.used_numbered hle d).eq_of_length hsealed (by simp)
  exact List.map_inj_left.mp heq opening hmem

/-- **Nonces of the encrypted stream.** For any interleaving of at most `2 ^ 53` messages in
each direction, no direction uses a nonce twice, a nonce of one direction is used in the other
by the message of the same number and by no other, and every message is decrypted with the
nonce it was encrypted with, in the order of encryption. -/
theorem nonces_of_le (h : (machine libs ws key).Reachable s)
    (hle : ∀ d, (s.encrypted d).length ≤ MAX_EXACT) :
    (∀ d, (s.encrypted d).Nodup) ∧
      (∀ i < (s.encrypted .toPeer).length, ∀ j < (s.encrypted .toClient).length,
        (s.encrypted .toPeer)[i]? = (s.encrypted .toClient)[j]? ↔ i = j) ∧
      ∀ d, (s.decrypted d).map Opening.sealedWith <+: s.encrypted d ∧
        ∀ opening ∈ s.decrypted d, opening.used = opening.sealedWith := by
  have hcounted := counted_of_reachable libs h
  have hinj (m : ℕ) (hm : m ≤ MAX_EXACT) (n : ℕ) (hn : n ≤ MAX_EXACT) :
      peerPair key m = peerPair key n → m = n := peerPair_injective hm hn
  have hnumbered := hcounted.encrypted_numbered hle
  refine ⟨fun d => (hnumbered d).nodup (hle d) hinj, fun i hi j hj => ?_, fun d => ?_⟩
  · exact (hnumbered .toPeer).position_eq (hnumbered .toClient) (hle _) (hle _) hinj hi hj
  · exact ⟨hcounted.decrypted_initial d, fun _ hmem => hcounted.used_eq_sealedWith hle hmem⟩

/-- A box that puts the key and the nonce in front of the message. -/
def plainLibs : StreamLibs Bytes where
  cryptoSecretboxEasy data nonce key := key ++ nonce ++ data
  cryptoSecretboxOpenEasy data nonce key :=
    if key ++ nonce <+: data then some (data.drop (key ++ nonce).length) else none
  decode := some
  consumes _ := false

/-- A client without messages. -/
def newSocket : Websock Bytes := ⟨[], none⟩

/-- Two messages of the client and one of the peer, and all of them arrive. -/
def exchange : List StreamEvent :=
  [.clientSends [1], .peerSends [2], .peerReceives, .clientSends [3], .clientReceives,
    .peerReceives]

/-- The state after the exchange. -/
def exchanged : Duplex Bytes :=
  ((machine plainLibs newSocket [7]).replay (start newSocket [7]) exchange).getD
    (start newSocket [7])

/-- An exchange of messages can be reached. -/
theorem exchanged_reachable : (machine plainLibs newSocket [7]).Reachable exchanged :=
  ⟨exchange, Machine.run_of_replay rfl⟩

/-- Three messages, all decrypted. -/
theorem nonces_of_le_exchange :
    (∀ d, (exchanged.encrypted d).Nodup) ∧
      (∀ i < (exchanged.encrypted .toPeer).length, ∀ j < (exchanged.encrypted .toClient).length,
        (exchanged.encrypted .toPeer)[i]? = (exchanged.encrypted .toClient)[j]? ↔ i = j) ∧
      ∀ d, (exchanged.decrypted d).map Opening.sealedWith <+: exchanged.encrypted d ∧
        ∀ opening ∈ exchanged.decrypted d, opening.used = opening.sealedWith :=
  nonces_of_le plainLibs exchanged_reachable (by intro d; cases d <;> decide)

/-- The first message of the client and the first one of the peer are encrypted with one key
and one nonce: message number one of each direction. -/
theorem not_nonces_distinct :
    ¬ ∀ s, (machine plainLibs newSocket [7]).Reachable s →
      (s.encrypted .toPeer ++ (s.decrypted .toClient).map Opening.used).Nodup := by
  intro hall
  have hnodup := hall exchanged exchanged_reachable
  revert hnodup
  decide

end Duplex

end RdWeb.Web
