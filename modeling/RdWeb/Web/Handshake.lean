import Mathlib.Data.List.Basic

/-!
# The secure handshake of the web client

`secureHandshake` of `session_connect.ts`. The rendezvous server signs the identity
and the signing key of the peer, and the peer signs its box key. A call of a library
that throws is `none`.
-/

namespace RdWeb.Web

/-- Strings of bytes. -/
abbrev Bytes : Type := List UInt8

/-- The message `IdPk`. A field that is missing is empty. -/
structure IdPk where
  id : String
  pk : Bytes
  deriving DecidableEq

/-- The functions of libsodium and of the generated protobuf code. -/
structure HandshakeLibs where
  fromBase64 : String → Option Bytes
  cryptoSignOpen : Bytes → Bytes → Option Bytes
  cryptoBoxEasy : Bytes → Bytes → Bytes → Bytes → Bytes
  decodeIdPk : Bytes → Option IdPk

/-- What `genBoxKeyPair` and `genSecretKey` generate. -/
structure FreshKeys where
  publicKey : Bytes
  privateKey : Bytes
  secretKey : Bytes

/-- The message `PublicKey`. -/
structure PublicKey where
  asymmetricValue : Bytes
  symmetricValue : Bytes
  deriving DecidableEq

/-- A message of the peer: the signed identity, if it has one. -/
structure PeerAnswer where
  signedId : Option Bytes

/-- The socket: what was sent, the key of the stream, and what `next` resolves to. -/
structure HandshakeSocket where
  sent : List PublicKey
  secretKey : Option Bytes
  next : Option PeerAnswer

/-- How the call ends. -/
inductive HandshakeResult
  | returned (secure : Option Bool)
  | thrown
  deriving DecidableEq

/-- The public key of the rendezvous server. -/
def RS_PK : String := "1+osBpZv1anmzl0VBLmVJXYvwDp3TN3nX+DS9YOcuXc="

namespace HandshakeLibs

/-- `verify` of `crypto_sodium.js` for a key in base64. -/
def verifyBase64 (libs : HandshakeLibs) (signed : Bytes) (pk : String) : Option Bytes :=
  (libs.fromBase64 pk).bind fun pk => libs.cryptoSignOpen signed pk

/-- `seal` of `crypto_sodium.js`, with a nonce of zeros. -/
def sealBox (libs : HandshakeLibs) (unsigned theirPk ourSk : Bytes) : Bytes :=
  libs.cryptoBoxEasy unsigned (List.replicate 24 0) theirPk ourSk

end HandshakeLibs

namespace HandshakeSocket

/-- A message is sent before the channel is encrypted. -/
def sendMessage (ws : HandshakeSocket) (m : PublicKey) : HandshakeSocket :=
  { ws with sent := ws.sent ++ [m] }

/-- The message that goes on without encryption. -/
def sendEmpty (ws : HandshakeSocket) : HandshakeSocket := ws.sendMessage ⟨[], []⟩

/-- The channel is encrypted from now on. -/
def setSecretKey (ws : HandshakeSocket) (key : Bytes) : HandshakeSocket :=
  { ws with secretKey := some key }

end HandshakeSocket

/-- The key of the server: `getEffectiveOption("key") || RS_PK`. -/
def serverKey (key : Option String) : String :=
  match key with
  | some key => if key ≠ "" then key else RS_PK
  | none => RS_PK

/-- The first part: the signing key that is taken for the one of the peer. -/
def signingKey (libs : HandshakeLibs) (key : Option String) (peerId : String)
    (pkIn : Option Bytes) : Option Bytes :=
  pkIn.bind fun signed =>
    (libs.verifyBase64 signed (serverKey key)).bind fun payload =>
      (libs.decodeIdPk payload).bind fun idpk =>
        let pk := if idpk.id = peerId then idpk.pk else payload
        if pk.length ≠ 32 then none else some pk

/-- The last part: the symmetric key is sealed for the peer. -/
def sealForPeer (libs : HandshakeLibs) (keys : FreshKeys) (ws : HandshakeSocket)
    (theirPk : Bytes) : HandshakeResult × HandshakeSocket :=
  let symmetricValue := libs.sealBox keys.secretKey theirPk keys.privateKey
  (.returned (some true),
    (ws.sendMessage ⟨keys.publicKey, symmetricValue⟩).setSecretKey keys.secretKey)

/-- The handshake of a connection. -/
def secureHandshake (libs : HandshakeLibs) (keys : FreshKeys) (key : Option String)
    (ws : HandshakeSocket) (peerId : String) (pkIn : Option Bytes) :
    HandshakeResult × HandshakeSocket :=
  match signingKey libs key peerId pkIn with
  | none => (.returned none, ws.sendEmpty)
  | some pk =>
    match ws.next with
    | none => (.thrown, ws)
    | some answer =>
      match answer.signedId with
      | none => (.returned none, ws.sendEmpty)
      | some signedId =>
        match libs.cryptoSignOpen signedId pk with
        | none => (.returned none, ws.sendEmpty)
        | some opened =>
          -- this decoding is not guarded
          match libs.decodeIdPk opened with
          | none => (.thrown, ws)
          | some idpk =>
            if idpk.id ≠ peerId then (.returned none, ws.sendEmpty)
            else if idpk.pk.length ≠ 32 then (.returned none, ws.sendEmpty)
            else sealForPeer libs keys ws idpk.pk

/-! ## Who is at the other end -/

section

variable (libs : HandshakeLibs) (keys : FreshKeys) (key : Option String) (ws : HandshakeSocket)
  (peerId : String) (pkIn : Option Bytes)

/-- The server key signed this identity and key. -/
def ServerSigned (payload : Bytes) (idpk : IdPk) : Prop :=
  ∃ signed, pkIn = some signed ∧ libs.verifyBase64 signed (serverKey key) = some payload ∧
    libs.decodeIdPk payload = some idpk

/-- The answer of the peer carries an identity and a box key signed under a key. -/
def PeerSigned (pk : Bytes) (idpk : IdPk) : Prop :=
  ∃ answer signedId opened, ws.next = some answer ∧ answer.signedId = some signedId ∧
    libs.cryptoSignOpen signedId pk = some opened ∧ libs.decodeIdPk opened = some idpk

/-- The peer that answers is the one the server signed for the requested id. -/
def PeerAuthenticated : Prop :=
  ∃ payload server peer, ServerSigned libs key pkIn payload server ∧ server.id = peerId ∧
    PeerSigned libs ws server.pk peer ∧ peer.id = peerId

/-- The payload of another id is 32 bytes long and the answer is signed under these bytes. -/
def SignedUnderPayload : Prop :=
  ∃ payload server peer, ServerSigned libs key pkIn payload server ∧ server.id ≠ peerId ∧
    payload.length = 32 ∧ PeerSigned libs ws payload peer ∧ peer.id = peerId ∧
    peer.pk.length = 32

variable {libs keys key ws peerId pkIn}

/-- A server signs one identity for one payload. -/
theorem ServerSigned.unique {payload payload' : Bytes} {idpk idpk' : IdPk}
    (h : ServerSigned libs key pkIn payload idpk)
    (h' : ServerSigned libs key pkIn payload' idpk') : payload = payload' ∧ idpk = idpk' := by
  obtain ⟨signed, rfl, hpayload, hidpk⟩ := h
  obtain ⟨signed', hsame, hpayload', hidpk'⟩ := h'
  obtain rfl := Option.some.inj hsame
  obtain rfl := Option.some.inj (hpayload.symm.trans hpayload')
  exact ⟨rfl, Option.some.inj (hidpk.symm.trans hidpk')⟩

/-- Where the signing key comes from. -/
theorem signingKey_eq_some_iff {pk : Bytes} :
    signingKey libs key peerId pkIn = some pk ↔
      ∃ payload server, ServerSigned libs key pkIn payload server ∧ pk.length = 32 ∧
        (server.id = peerId ∧ pk = server.pk ∨ server.id ≠ peerId ∧ pk = payload) := by
  constructor
  · intro h
    obtain ⟨signed, hsigned, h⟩ := Option.bind_eq_some_iff.mp h
    obtain ⟨payload, hpayload, h⟩ := Option.bind_eq_some_iff.mp h
    obtain ⟨server, hserver, h⟩ := Option.bind_eq_some_iff.mp h
    refine ⟨payload, server, ⟨signed, hsigned, hpayload, hserver⟩, ?_⟩
    by_cases hid : server.id = peerId
    · obtain ⟨hlength, rfl⟩ := by simpa [hid] using h
      exact ⟨hlength, .inl ⟨hid, rfl⟩⟩
    · obtain ⟨hlength, rfl⟩ := by simpa [hid] using h
      exact ⟨hlength, .inr ⟨hid, rfl⟩⟩
  · rintro ⟨payload, server, ⟨signed, rfl, hpayload, hserver⟩, hlength, hpk⟩
    rcases hpk with ⟨hid, rfl⟩ | ⟨hid, rfl⟩
    · simp [signingKey, hpayload, hserver, hid, hlength]
    · simp [signingKey, hpayload, hserver, hid, hlength]

/-- **The handshake succeeds** exactly on an answer for the requested id that is signed under
the signing key, and then the stream is encrypted. -/
theorem secureHandshake_eq_true_iff :
    (secureHandshake libs keys key ws peerId pkIn).1 = .returned (some true) ↔
      ∃ pk peer, signingKey libs key peerId pkIn = some pk ∧ PeerSigned libs ws pk peer ∧
        peer.id = peerId ∧ peer.pk.length = 32 := by
  constructor
  · intro h
    unfold secureHandshake at h
    split at h
    · simp at h
    · next pk hpk =>
      split at h
      · simp at h
      · next answer hanswer =>
        split at h
        · simp at h
        · next signedId hsigned =>
          split at h
          · simp at h
          · next opened hopened =>
            split at h
            · simp at h
            · next peer hpeer =>
              split_ifs at h with hid hlength
              · simp at h
              · simp at h
              · exact ⟨pk, peer, hpk, ⟨answer, signedId, opened, hanswer, hsigned, hopened, hpeer⟩,
                  not_not.mp hid, not_not.mp hlength⟩
  · rintro ⟨pk, peer, hpk, ⟨answer, signedId, opened, hanswer, hsigned, hopened, hpeer⟩, hid,
      hlength⟩
    simp [secureHandshake, hpk, hanswer, hsigned, hopened, hpeer, hid, hlength, sealForPeer]

/-- The stream of a handshake that succeeds is encrypted. -/
theorem encrypted_of_true
    (h : (secureHandshake libs keys key ws peerId pkIn).1 = .returned (some true)) :
    (secureHandshake libs keys key ws peerId pkIn).2.secretKey.isSome := by
  obtain ⟨pk, peer, hpk, ⟨answer, signedId, opened, hanswer, hsigned, hopened, hpeer⟩, hid,
    hlength⟩ := secureHandshake_eq_true_iff.mp h
  simp [secureHandshake, hpk, hanswer, hsigned, hopened, hpeer, hid, hlength, sealForPeer,
    HandshakeSocket.setSecretKey]

/-- **Peer authentication.** A handshake that succeeds authenticates the peer unless the answer
is signed under the payload itself, taken for a key. -/
theorem peerAuthenticated_iff (libs : HandshakeLibs) (keys : FreshKeys) (key : Option String)
    (ws : HandshakeSocket) (peerId : String) (pkIn : Option Bytes) :
    ((secureHandshake libs keys key ws peerId pkIn).1 = .returned (some true) ∧
        (secureHandshake libs keys key ws peerId pkIn).2.secretKey.isSome →
      PeerAuthenticated libs key ws peerId pkIn) ↔
      ¬ SignedUnderPayload libs key ws peerId pkIn := by
  rw [secureHandshake_eq_true_iff]
  constructor
  · rintro hauth ⟨payload, server, peer, hserver, hid, hlength, hpeer, hpeerId, hbox⟩
    have hkey : signingKey libs key peerId pkIn = some payload :=
      signingKey_eq_some_iff.mpr ⟨payload, server, hserver, hlength, .inr ⟨hid, rfl⟩⟩
    obtain ⟨payload', server', -, hserver', hid', -⟩ :=
      hauth ⟨⟨payload, peer, hkey, hpeer, hpeerId, hbox⟩, encrypted_of_true
        (secureHandshake_eq_true_iff.mpr ⟨payload, peer, hkey, hpeer, hpeerId, hbox⟩)⟩
    exact hid ((hserver.unique hserver').2 ▸ hid')
  · rintro hnot ⟨⟨pk, peer, hkey, hpeer, hpeerId, hbox⟩, -⟩
    obtain ⟨payload, server, hserver, hlength, ⟨hid, rfl⟩ | ⟨hid, rfl⟩⟩ :=
      signingKey_eq_some_iff.mp hkey
    · exact ⟨payload, server, peer, hserver, hid, hpeer, hpeerId⟩
    · exact absurd ⟨pk, server, peer, hserver, hid, hlength, hpeer, hpeerId, hbox⟩ hnot

end

/-! ## A payload taken for a key -/

/-- The protobuf fields of a short `IdPk`: its tags and lengths take one byte each. -/
def demoDecode : ℕ → Bytes → IdPk → Option IdPk
  | _, [], idpk => some idpk
  | fuel + 1, 0x0a :: n :: rest, idpk =>
    demoDecode fuel (rest.drop n.toNat)
      { idpk with id := .ofList ((rest.take n.toNat).map fun b => Char.ofNat b.toNat) }
  | fuel + 1, 0x12 :: n :: rest, idpk =>
    demoDecode fuel (rest.drop n.toNat) { idpk with pk := rest.take n.toNat }
  | _, _, _ => none

/-- A signature is the 32 bytes of the key it opens under. -/
def demoLibs : HandshakeLibs where
  fromBase64 key := if key = RS_PK then some (List.replicate 32 1) else none
  cryptoSignOpen signed pk :=
    if pk.length = 32 ∧ signed.take 32 = pk then some (signed.drop 32) else none
  cryptoBoxEasy unsigned _ _ _ := unsigned
  decodeIdPk bytes := demoDecode 2 bytes ⟨"", []⟩

/-- The random numbers of the demo. -/
def demoKeys : FreshKeys := ⟨List.replicate 32 2, List.replicate 32 3, List.replicate 32 4⟩

/-- The identity "ab" with a key of 32 bytes. -/
def demoIdentity (b : UInt8) : Bytes := [0x0a, 2, 97, 98, 0x12, 32] ++ List.replicate 32 b

/-- A socket on which the peer answers with the identity "ab" signed under a key. -/
def demoSocket (signingKey : Bytes) : HandshakeSocket :=
  ⟨[], none, some ⟨some (signingKey ++ demoIdentity 6)⟩⟩

/-- The payload that is signed for another id: 32 bytes, with the id left out. -/
def demoPayload : Bytes := [0x12, 30] ++ List.replicate 30 7

/-- The demo peer is authenticated. -/
theorem peerAuthenticated_demo :
    PeerAuthenticated demoLibs none (demoSocket (List.replicate 32 5)) "ab"
      (some (List.replicate 32 1 ++ demoIdentity 5)) := by
  refine (peerAuthenticated_iff demoLibs demoKeys none _ "ab" _).mpr ?_ ⟨by decide, by decide⟩
  rintro ⟨payload, server, peer, ⟨signed, hsigned, hpayload, hserver⟩, hid, -⟩
  obtain rfl := Option.some.inj hsigned
  have hopened : demoLibs.verifyBase64 (List.replicate 32 1 ++ demoIdentity 5) (serverKey none) =
      some (demoIdentity 5) := by decide
  obtain rfl := Option.some.inj (hopened.symm.trans hpayload)
  have hdecoded : demoLibs.decodeIdPk (demoIdentity 5) = some ⟨"ab", List.replicate 32 5⟩ := by
    decide
  obtain rfl := Option.some.inj (hdecoded.symm.trans hserver)
  exact hid rfl

/-- The server signed the payload for another id, and the handshake succeeds with the payload as
the signing key of "ab". -/
theorem not_peerAuthenticated_payload :
    (secureHandshake demoLibs demoKeys none (demoSocket demoPayload) "ab"
        (some (List.replicate 32 1 ++ demoPayload))).1 = .returned (some true) ∧
      (secureHandshake demoLibs demoKeys none (demoSocket demoPayload) "ab"
        (some (List.replicate 32 1 ++ demoPayload))).2.secretKey.isSome ∧
      ¬ PeerAuthenticated demoLibs none (demoSocket demoPayload) "ab"
        (some (List.replicate 32 1 ++ demoPayload)) := by
  refine ⟨by decide, by decide, ?_⟩
  rintro ⟨payload, server, peer, ⟨signed, hsigned, hpayload, hserver⟩, hid, -⟩
  obtain rfl := Option.some.inj hsigned
  have hopened : demoLibs.verifyBase64 (List.replicate 32 1 ++ demoPayload) (serverKey none) =
      some demoPayload := by decide
  obtain rfl := Option.some.inj (hopened.symm.trans hpayload)
  have hdecoded : demoLibs.decodeIdPk demoPayload = some ⟨"", List.replicate 30 7⟩ := by decide
  obtain rfl := Option.some.inj (hdecoded.symm.trans hserver)
  exact absurd hid (by decide)

end RdWeb.Web
