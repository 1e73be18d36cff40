import RdWeb.Client.SecureConnection

/-!
# What the handshake guarantees

A key that a client sets for an honest host is its own, unknown to the attacker, and sealed for
one session of that host; no other session can hold it. Only the answers of the host can make the
client trust a key, and undisturbed they do.
-/

namespace RdWeb.Client.SecureConnection

open DolevYao DolevYao.Term

variable {Name Host : Type*}

/-! ### What the packets are made of -/

/-- The key that is read is the one that was sent. -/
theorem getPk_eq_some {pk key : Bytes Name Host} (h : getPk pk = some key) : key = pk := by
  cases pk <;> simp_all [getPk]

section
variable [DecidableEq Name] [DecidableEq Host]

/-- What verifies was signed with the key. -/
theorem decodeIdPk_eq_some {signature key pk : Bytes Name Host} {id : Name}
    (h : decodeIdPk signature key = some (id, pk)) :
    ∃ k, key = verifyKey k ∧ signature = signed k (pair (.name id) pk) := by
  unfold decodeIdPk at h
  split at h
  · rename_i k id' pk' verifier
    split_ifs at h with hk
    obtain ⟨got, hgot, heq⟩ := Option.map_eq_some_iff.mp h
    obtain ⟨rfl, rfl⟩ := Prod.mk.inj heq
    exact ⟨k, by rw [hk], by rw [getPk_eq_some hgot]⟩
  · simp at h

/-- What opens was sealed with one of the two keys for the other. -/
theorem decode_eq_some {data theirPk key : Bytes Name Host} {ours : Owner Name Host}
    (h : decode data theirPk ours = some key) :
    ∃ k theirs, data = boxed k theirs key ∧ (k = ours ∨ theirs = boxPublic ours) := by
  unfold decode at h
  split at h
  · rename_i k theirs content
    split_ifs at h with hopens
    rw [getPk_eq_some h]
    exact ⟨k, theirs, rfl, hopens.imp And.left And.right⟩
  · simp at h

/-- The client waits for the host only with a key the server signed for the peer. -/
theorem secureStart_cases (peerId : Name) (signedIdPk rsPk : Option (Bytes Name Host)) :
    (secureStart peerId signedIdPk rsPk).2.flatMap Packet.terms = [] ∧
    ((secureStart peerId signedIdPk rsPk).1 = .done none none ∨
      ∃ signature ∈ signedIdPk, ∃ rs ∈ rsPk, ∃ pk, decodeIdPk signature rs = some (peerId, pk) ∧
        (secureStart peerId signedIdPk rsPk).1 = .waiting pk) := by
  unfold secureStart
  dsimp only
  split
  · rename_i pk hpk
    refine ⟨rfl, .inr ?_⟩
    simp only [Option.bind_eq_bind, Option.bind_eq_some_iff] at hpk
    obtain ⟨signature, hsig, rs, hrs, ⟨id, found⟩, hdec, hid⟩ := hpk
    dsimp only at hid
    split_ifs at hid with hpeer
    obtain rfl := Option.some.inj hid
    exact ⟨signature, hsig, rs, hrs, found, hpeer ▸ hdec, rfl⟩
  · exact ⟨rfl, .inl rfl⟩

/-- The client sets a key only on an id and a box key signed with the verified key. -/
theorem secureAnswer_cases (peerId : Name) (own : Owner Name Host) (signPk : Bytes Name Host)
    (packet : Option (Packet Name Host)) :
    ((∃ optionPk, (secureAnswer peerId own signPk packet).1 = .done none optionPk ∧
        optionPk = some signPk) ∨ (secureAnswer peerId own signPk packet).1 = .failed) ∧
      (secureAnswer peerId own signPk packet).2.flatMap Packet.terms = [] ∨
    ∃ si theirPk, packet = some (.signedId si) ∧ decodeIdPk si signPk = some (peerId, theirPk) ∧
      (secureAnswer peerId own signPk packet).1 = .done (some (symmetric own)) (some signPk) ∧
      (secureAnswer peerId own signPk packet).2.flatMap Packet.terms =
        [boxPublic own, boxed own theirPk (symmetric own)] := by
  match packet with
  | none => exact .inl ⟨.inr rfl, rfl⟩
  | some .unparsable | some .other | some (.publicKey ..) =>
    exact .inl ⟨.inl ⟨_, rfl, rfl⟩, rfl⟩
  | some (.signedId si) =>
    unfold secureAnswer
    dsimp only
    split
    · rename_i id theirPk hdec
      split_ifs with hid
      · subst hid
        exact .inr ⟨si, theirPk, rfl, hdec, rfl, rfl⟩
      · exact .inl ⟨.inl ⟨_, rfl, rfl⟩, rfl⟩
    · exact .inl ⟨.inl ⟨_, rfl, rfl⟩, rfl⟩

/-- The host sets a key only if it opens with the box key of the session. -/
theorem sessionAnswer_done {h : Host} {n : ℕ} {packet : Option (Packet Name Host)}
    {key : Bytes Name Host} {confirmed : Bool}
    (hdone : sessionAnswer h n packet = .done (some key) confirmed) :
    ∃ asymmetricValue k theirs,
      packet = some (.publicKey (some asymmetricValue) (some (boxed k theirs key))) ∧
      (k = .session h n ∨ theirs = boxPublic (.session h n)) := by
  unfold sessionAnswer at hdone
  split at hdone <;> try simp at hdone
  rename_i asymmetricValue symmetricValue
  split at hdone <;> try simp at hdone
  split at hdone <;> try simp at hdone
  rename_i theirPk hpk found hfound
  obtain ⟨data, hdata, hopen⟩ := Option.bind_eq_some_iff.mp hfound
  obtain ⟨k, theirs, rfl, hopens⟩ := decode_eq_some hopen
  rw [← hdone.1]
  exact ⟨asymmetricValue, k, theirs, by rw [hdata], hopens⟩

end

/-! ### The policy -/

variable (hostId : Host → Name)

/-- The attacker's keys, and those of the clients of nobody honest. -/
def Lost : Owner Name Host → Prop
  | .attacker _ => True
  | .client peerId _ => ∀ h, hostId h ≠ peerId
  | _ => False

/-- What the server and the hosts sign, given the hosts of the sessions. -/
def Signs (hosts : ℕ → Option Host) : Owner Name Host → Bytes Name Host → Prop
  | .server, pair (.name id) pk => ∀ h, hostId h = id → pk = verifyKey (.host h)
  | .host h, pair (.name id) pk =>
    id = hostId h ∧ ∃ m, hosts m = some h ∧ pk = boxPublic (.session h m)
  | _, _ => False

/-- A client seals its own symmetric key, for one session of the host it connects to. -/
def Seals (hosts : ℕ → Option Host) (sealedFor : ℕ → Option ℕ) (k : Owner Name Host)
    (theirs content : Bytes Name Host) : Prop :=
  ∃ n h m, k = .client (hostId h) n ∧ sealedFor n = some m ∧ hosts m = some h ∧
    theirs = boxPublic (.session h m) ∧ content = symmetric k

/-- The policy of honest parties. -/
def policy (hosts : ℕ → Option Host) (sealedFor : ℕ → Option ℕ) :
    Policy Name (Owner Name Host) where
  lost := Lost hostId
  signs := Signs hostId hosts
  seals := Seals hostId hosts sealedFor
  seals_safe := by
    rintro k theirs content ⟨n, h, m, rfl, -, -, rfl, -⟩
    refine ⟨fun hlost => hlost h rfl, ?_⟩
    rintro other hother
    obtain rfl := (boxPublic.inj hother).symm
    exact id

/-- More sessions and more sealed keys allow more. -/
theorem public_mono {hosts hosts' : ℕ → Option Host} {sealedFor sealedFor' : ℕ → Option ℕ}
    (hhosts : ∀ m h, hosts m = some h → hosts' m = some h)
    (hsealed : ∀ n m, sealedFor n = some m → sealedFor' n = some m) {t : Bytes Name Host}
    (h : Public (policy hostId hosts sealedFor) t) :
    Public (policy hostId hosts' sealedFor') t := by
  refine Public.mono (p := policy hostId hosts sealedFor) (q := policy hostId hosts' sealedFor')
    (fun k hlost => hlost) (fun k content hsigns => ?_) ?_ h
  · cases k with
    | server => cases content with
      | pair a b => cases a <;> exact hsigns
      | _ => exact hsigns
    | host h => cases content with
      | pair a b => cases a with
        | name id =>
          obtain ⟨hid, m, hm, hpk⟩ := hsigns
          exact ⟨hid, m, hhosts m h hm, hpk⟩
        | _ => exact hsigns
      | _ => exact hsigns
    | _ => exact hsigns
  · rintro k theirs content ⟨n, h, m, hk, hn, hm, htheirs, hcontent⟩
    exact ⟨n, h, m, hk, hsealed n m hn, hhosts m h hm, htheirs, hcontent⟩

/-! ### The invariant -/

/-- The host of each session. -/
def State.hosts (s : State Name Host) (m : ℕ) : Option Host := s.sessions[m]?.map HostSide.host

/-- How far connection `n` to the honest host `h` can be, given the session its key is sealed for. -/
def PhaseOk (hosts : ℕ → Option Host) (sealedFor : ℕ → Option ℕ) (seen : List (Bytes Name Host))
    (n : ℕ) (h : Host) : ClientPhase Name Host → Prop
  | .waiting signPk => sealedFor n = none ∧ signPk = verifyKey (.host h)
  | .done none optionPk => ∀ pk ∈ optionPk, pk = verifyKey (.host h)
  | .done (some key) optionPk =>
    key = symmetric (.client (hostId h) n) ∧ optionPk = some (verifyKey (.host h)) ∧
    ∃ m, sealedFor n = some m ∧ hosts m = some h ∧
      boxed (.client (hostId h) n) (boxPublic (.session h m)) key ∈ seen
  | .failed => True

/-- A session that holds the key of a connection is the one the key was sealed for. -/
def SessionOk (sealedFor : ℕ → Option ℕ) (m : ℕ) (c : HostSide Name Host) : Prop :=
  ∀ n h confirmed, c.phase = .done (some (symmetric (.client (hostId h) n))) confirmed →
    sealedFor n = some m ∧ c.host = h

/-- The invariant, with the session each connection has sealed its key for. -/
structure Secure (s : State Name Host) (sealedFor : ℕ → Option ℕ) : Prop where
  isPublic : ∀ t ∈ s.seen, Public (policy hostId s.hosts sealedFor) t
  unused : ∀ n, s.clients.length ≤ n → sealedFor n = none
  clients : ∀ n c h, s.clients[n]? = some c → c.peerId = hostId h →
    PhaseOk hostId s.hosts sealedFor s.seen n h c.phase
  sessions : ∀ m c, s.sessions[m]? = some c → SessionOk hostId sealedFor m c

variable {hostId} {hosts hosts' : ℕ → Option Host} {sealedFor sealedFor' : ℕ → Option ℕ}
  {seen : List (Bytes Name Host)} {s t : State Name Host}

/-- A new entry of a list comes last. -/
theorem getElem?_concat {α : Type*} {xs : List α} {x y : α} {n : ℕ}
    (h : (xs ++ [x])[n]? = some y) : xs[n]? = some y ∨ n = xs.length ∧ x = y := by
  rcases Nat.lt_trichotomy n xs.length with hlt | rfl | hgt
  · exact .inl (List.getElem?_append_left hlt ▸ h)
  · exact .inr ⟨rfl, by simpa using h⟩
  · rw [List.getElem?_eq_none (by simp only [List.length_append, List.length_singleton]; omega)] at h
    simp at h

/-- What a connection knows stays true as more happens elsewhere. -/
theorem PhaseOk.mono {n : ℕ} {h : Host} {phase : ClientPhase Name Host}
    (hphase : PhaseOk hostId hosts sealedFor seen n h phase) (more : List (Bytes Name Host))
    (hhosts : ∀ m h, hosts m = some h → hosts' m = some h)
    (hsealed : sealedFor' n = sealedFor n) :
    PhaseOk hostId hosts' sealedFor' (seen ++ more) n h phase := by
  match phase, hphase with
  | .waiting _, hwaiting => exact ⟨hsealed ▸ hwaiting.1, hwaiting.2⟩
  | .done none _, hpk => exact hpk
  | .done (some key) _, ⟨hkey, hpk, m, hm, hhost, hseen⟩ =>
    exact ⟨hkey, hpk, m, hsealed ▸ hm, hhosts m h hhost, List.mem_append_left _ hseen⟩
  | .failed, _ => trivial

/-- What the attacker derives is public. -/
theorem Secure.derives (h : Secure hostId s sealedFor) {t : Bytes Name Host}
    (ht : Derives Own s.seen t) : Public (policy hostId s.hosts sealedFor) t := by
  refine ht.isPublic (fun k hk => ?_) h.isPublic
  cases k with
  | attacker n => trivial
  | _ => exact hk.elim

/-- More public terms change nothing. -/
theorem Secure.see (h : Secure hostId s sealedFor) {terms : List (Bytes Name Host)}
    (hterms : ∀ t ∈ terms, Public (policy hostId s.hosts sealedFor) t) :
    Secure hostId { s with seen := s.seen ++ terms } sealedFor where
  isPublic t ht := (List.mem_append.mp ht).elim (h.isPublic t) (hterms t)
  unused := h.unused
  clients n c host hc hpeer := (h.clients n c host hc hpeer).mono terms (fun _ _ => id) rfl
  sessions := h.sessions

/-- A key that is verified for the id of a host is that host's. -/
theorem Secure.signPk_eq (h : Secure hostId s sealedFor) {signature pk : Bytes Name Host}
    {host : Host} (hder : Derives Own s.seen signature) [DecidableEq Name] [DecidableEq Host]
    (hdec : decodeIdPk signature (verifyKey .server) = some (hostId host, pk)) :
    pk = verifyKey (.host host) := by
  obtain ⟨k, hk, rfl⟩ := decodeIdPk_eq_some hdec
  obtain rfl := verifyKey.inj hk
  exact (h.derives hder).2.elim False.elim fun hsigns => hsigns host rfl

/-- A box key that verifies under the key of a host is that of one of its sessions. -/
theorem Secure.boxPk_eq (h : Secure hostId s sealedFor) {signature pk : Bytes Name Host}
    {id : Name} {host : Host} (hder : Derives Own s.seen signature) [DecidableEq Name]
    [DecidableEq Host] (hdec : decodeIdPk signature (verifyKey (.host host)) = some (id, pk)) :
    ∃ m, s.hosts m = some host ∧ pk = boxPublic (.session host m) := by
  obtain ⟨k, hk, rfl⟩ := decodeIdPk_eq_some hdec
  obtain rfl := verifyKey.inj hk
  exact (h.derives hder).2.elim False.elim fun hsigns => hsigns.2

/-- A new session of a host. -/
theorem Secure.accept (h : Secure hostId s sealedFor) (host : Host) (secure : Bool) :
    Secure hostId { s with sessions := s.sessions ++
      [⟨host, (sessionStart (hostId host) host s.sessions.length secure).1⟩] } sealedFor := by
  have hhosts : ∀ m h', s.hosts m = some h' → State.hosts { s with sessions := s.sessions ++
      [⟨host, (sessionStart (hostId host) host s.sessions.length secure).1⟩] } m = some h' := by
    intro m h' hm
    obtain ⟨c, hc, rfl⟩ := Option.map_eq_some_iff.mp hm
    have hlt := (List.getElem?_eq_some_iff.mp hc).1
    simp only [State.hosts, List.getElem?_append_left hlt, hc, Option.map_some]
  refine ⟨fun t ht => public_mono hostId hhosts (fun _ _ => id) (h.isPublic t ht), h.unused,
    fun n c h' hc hpeer => ?_, fun m c hc => ?_⟩
  · have hphase := (h.clients n c h' hc hpeer).mono [] hhosts rfl
    rwa [List.append_nil s.seen] at hphase
  · rcases getElem?_concat hc with hc | ⟨rfl, rfl⟩
    · exact h.sessions m c hc
    · intro n h' confirmed hphase
      unfold sessionStart at hphase
      split_ifs at hphase
      simp at hphase

/-- A connection gets on, with what it sends and maybe a key it seals. -/
theorem Secure.setClient (h : Secure hostId s sealedFor) {n : ℕ} {c : ClientSide Name Host}
    (hc : s.clients[n]? = some c) {phase : ClientPhase Name Host} {terms : List (Bytes Name Host)}
    (hother : ∀ k, k ≠ n → sealedFor' k = sealedFor k)
    (hsealed : ∀ k m, sealedFor k = some m → sealedFor' k = some m)
    (hphase : ∀ host, c.peerId = hostId host →
      PhaseOk hostId s.hosts sealedFor' (s.seen ++ terms) n host phase)
    (hterms : ∀ t ∈ terms, Public (policy hostId s.hosts sealedFor') t) :
    Secure hostId { s with
      clients := s.clients.set n ⟨c.peerId, phase⟩, seen := s.seen ++ terms } sealedFor' := by
  have hlt := (List.getElem?_eq_some_iff.mp hc).1
  refine ⟨fun t ht => ?_, fun k hk => ?_, fun k c' host hc' hpeer => ?_, fun m c' hc' => ?_⟩
  · rcases List.mem_append.mp ht with ht | ht
    · exact public_mono hostId (fun _ _ => id) hsealed (h.isPublic t ht)
    · exact hterms t ht
  · simp only [List.length_set] at hk
    rw [hother k (by omega)]
    exact h.unused k hk
  · by_cases hk : k = n
    · subst hk
      rw [List.getElem?_set_self hlt] at hc'
      obtain rfl := Option.some.inj hc'
      exact hphase host hpeer
    · rw [List.getElem?_set_ne (Ne.symm hk)] at hc'
      exact (h.clients k c' host hc' hpeer).mono terms (fun _ _ => id) (hother k hk)
  · intro k host confirmed hdone
    have hok := h.sessions m c' hc' k host confirmed hdone
    exact ⟨hsealed k m hok.1, hok.2⟩

section
variable [DecidableEq Name] [DecidableEq Host]

/-- A new connection. -/
theorem Secure.connect (h : Secure hostId s sealedFor) {peerId : Name}
    {signedIdPk rsPk : Option (Bytes Name Host)}
    (hder : ∀ t ∈ signedIdPk, Derives Own s.seen t) (hrs : ∀ t ∈ rsPk, t = verifyKey .server) :
    Secure hostId { s with
      clients := s.clients ++ [⟨peerId, (secureStart peerId signedIdPk rsPk).1⟩] } sealedFor where
  isPublic := h.isPublic
  unused n hn := h.unused n (by simp only [List.length_append] at hn; omega)
  clients n c host hc hpeer := by
    rcases getElem?_concat hc with hc | ⟨rfl, rfl⟩
    · exact h.clients n c host hc hpeer
    · obtain rfl : peerId = hostId host := hpeer
      rcases (secureStart_cases _ signedIdPk rsPk).2 with
        hphase | ⟨signature, hsig, rs, hrs', pk, hdec, hphase⟩
      · rw [hphase]
        exact fun pk hpk => (Option.not_mem_none pk hpk).elim
      · rw [hphase]
        rw [hrs rs hrs'] at hdec
        exact ⟨h.unused _ Nat.le.refl, h.signPk_eq (hder signature hsig) hdec⟩
  sessions := h.sessions

/-- The client takes the answer of the host. -/
theorem Secure.answerClient (h : Secure hostId s sealedFor) {n : ℕ} {c : ClientSide Name Host}
    {signPk : Bytes Name Host} {packet : Option (Packet Name Host)}
    (hc : s.clients[n]? = some c) (hwaiting : c.phase = .waiting signPk)
    (hder : ∀ p ∈ packet, s.CanSend p) :
    ∃ sealedFor', Secure hostId { s with
      clients := s.clients.set n
        ⟨c.peerId, (secureAnswer c.peerId (.client c.peerId n) signPk packet).1⟩
      seen := s.seen ++
        (secureAnswer c.peerId (.client c.peerId n) signPk packet).2.flatMap Packet.terms }
      sealedFor' := by
  have hpk : ∀ host, c.peerId = hostId host →
      sealedFor n = none ∧ signPk = verifyKey (.host host) := by
    intro host hpeer
    have hphase := h.clients n c host hc hpeer
    rwa [hwaiting] at hphase
  rcases secureAnswer_cases c.peerId (.client c.peerId n) signPk packet with
    ⟨hphase, hterms⟩ | ⟨si, theirPk, rfl, hdec, hphase, hterms⟩
  · rw [hterms]
    refine ⟨sealedFor, h.setClient hc (fun _ _ => rfl) (fun _ _ => id) (fun host hpeer => ?_)
      (by simp)⟩
    rcases hphase with ⟨optionPk, hphase, rfl⟩ | hphase
    · rw [hphase]
      intro pk hmem
      obtain rfl := Option.some.inj hmem
      exact (hpk host hpeer).2
    · rw [hphase]
      trivial
  · rw [hterms, hphase]
    have hsi : Derives Own s.seen si := hder _ rfl si (List.mem_singleton_self si)
    by_cases hhonest : ∃ host, c.peerId = hostId host
    · obtain ⟨host, hpeer⟩ := hhonest
      obtain ⟨hnone, rfl⟩ := hpk host hpeer
      obtain ⟨m, hm, rfl⟩ := h.boxPk_eq hsi hdec
      have hsealed : ∀ k j, sealedFor k = some j → Function.update sealedFor n (some m) k = some j := by
        intro k j hk
        rwa [Function.update_of_ne (by rintro rfl; simp [hnone] at hk)]
      refine ⟨Function.update sealedFor n (some m), h.setClient hc
        (fun k hk => Function.update_of_ne hk ..) hsealed (fun host' hpeer' => ?_) ?_⟩
      · have hkey := (hpk host' hpeer').2
        obtain rfl := Owner.host.inj (verifyKey.inj hkey)
        rw [hpeer]
        exact ⟨rfl, rfl, m, Function.update_self .., hm,
          List.mem_append_right _ (List.mem_cons_of_mem _ (List.mem_singleton_self _))⟩
      · intro t ht
        rcases List.mem_cons.mp ht with rfl | ht
        · trivial
        · obtain rfl := List.mem_singleton.mp ht
          exact .inr ⟨n, host, m, by rw [hpeer], Function.update_self .., hm, rfl, rfl⟩
    · refine ⟨sealedFor, h.setClient hc (fun _ _ => rfl) (fun _ _ => id)
        (fun host hpeer => absurd ⟨host, hpeer⟩ hhonest) ?_⟩
      intro t ht
      rcases List.mem_cons.mp ht with rfl | ht
      · trivial
      · obtain rfl := List.mem_singleton.mp ht
        exact .inl fun host hpeer => hhonest ⟨host, hpeer.symm⟩

/-- The host takes the answer of the client. -/
theorem Secure.answerSession (h : Secure hostId s sealedFor) (hinj : Function.Injective hostId)
    {m : ℕ} {c : HostSide Name Host} {packet : Option (Packet Name Host)}
    (hc : s.sessions[m]? = some c) (hder : ∀ p ∈ packet, s.CanSend p) :
    Secure hostId { s with
      sessions := s.sessions.set m ⟨c.host, sessionAnswer c.host m packet⟩ } sealedFor := by
  have hlt := (List.getElem?_eq_some_iff.mp hc).1
  have hhosts : State.hosts { s with
      sessions := s.sessions.set m ⟨c.host, sessionAnswer c.host m packet⟩ } = s.hosts := by
    funext k
    by_cases hk : k = m
    · subst hk
      simp only [State.hosts, List.getElem?_set_self hlt, hc, Option.map_some]
    · simp only [State.hosts, List.getElem?_set_ne (Ne.symm hk)]
  refine ⟨?_, h.unused, ?_, fun k c' hc' => ?_⟩
  · rw [hhosts]
    exact h.isPublic
  · rw [hhosts]
    exact h.clients
  · by_cases hk : k = m
    · subst hk
      rw [List.getElem?_set_self hlt] at hc'
      obtain rfl := Option.some.inj hc'
      intro n host confirmed hdone
      obtain ⟨asymmetricValue, owner, theirs, rfl, hopens⟩ := sessionAnswer_done hdone
      have hbox : Derives Own s.seen (boxed owner theirs (symmetric (.client (hostId host) n))) :=
        hder _ rfl _ (by simp [Packet.terms])
      rcases h.derives hbox with hlost | ⟨n', h', m', howner, hsealed, hm', htheirs, hcontent⟩
      · exact absurd rfl (hlost host)
      · obtain ⟨hid, rfl⟩ := Owner.client.inj (symmetric.inj (hcontent.trans (by rw [howner])))
        obtain rfl := hinj hid
        rcases hopens with hopens | hopens
        · rw [howner] at hopens
          cases hopens
        · obtain ⟨hhost, rfl⟩ := Owner.session.inj (boxPublic.inj (htheirs.symm.trans hopens))
          exact ⟨hsealed, hhost.symm⟩
    · rw [List.getElem?_set_ne (Ne.symm hk)] at hc'
      exact h.sessions k c' hc'

/-- One step of a party keeps the invariant. -/
theorem Secure.step (hinj : Function.Injective hostId) (h : Secure hostId s sealedFor)
    (hstep : Step hostId s t) : ∃ sealedFor', Secure hostId t sealedFor' := by
  cases hstep with
  | register host =>
    refine ⟨sealedFor, h.see fun t ht => ?_⟩
    obtain rfl := List.mem_singleton.mp ht
    exact ⟨⟨trivial, trivial⟩, .inr fun h' hid => by rw [hinj hid]⟩
  | registerOther id pk hother hpk =>
    refine ⟨sealedFor, h.see fun t ht => ?_⟩
    obtain rfl := List.mem_singleton.mp ht
    exact ⟨⟨trivial, h.derives hpk⟩, .inr fun h' hid => absurd hid (hother h')⟩
  | connect peerId signedIdPk rsPk hder hrs =>
    refine ⟨sealedFor, (h.connect hder hrs).see fun t ht => ?_⟩
    rw [(secureStart_cases peerId signedIdPk rsPk).1] at ht
    exact absurd ht (List.not_mem_nil)
  | answerClient n c signPk packet hc hwaiting hder => exact h.answerClient hc hwaiting hder
  | accept host secure =>
    refine ⟨sealedFor, (h.accept host secure).see fun t ht => ?_⟩
    cases secure with
    | false => simp [sessionStart] at ht
    | true =>
      obtain rfl : t = signedIdPk (hostId host) host s.sessions.length := by
        simpa [sessionStart, Packet.terms] using ht
      exact ⟨⟨trivial, trivial⟩, .inr ⟨rfl, s.sessions.length, by simp [State.hosts], rfl⟩⟩
  | answerSession n c packet hc hwaiting hder => exact ⟨sealedFor, h.answerSession hinj hc hder⟩

/-- The invariant holds of every state that is reached. -/
theorem Reachable.secure (hinj : Function.Injective hostId) (h : Reachable hostId s) :
    ∃ sealedFor, Secure hostId s sealedFor := by
  induction h with
  | init => exact ⟨fun _ => none, by simp, by simp, by simp, by simp⟩
  | step _ hstep ih => exact ih.elim fun _ hsecure => hsecure.step hinj hstep

/-! ### The handshake -/

/-- Undisturbed, a client and a host end up with the same key, whatever went on before. -/
theorem Reachable.handshake (hs : Reachable hostId s) (host : Host) :
    ∃ t, Reachable hostId t ∧
      t.clients[s.clients.length]? = some ⟨hostId host,
        .done (some (symmetric (.client (hostId host) s.clients.length)))
          (some (verifyKey (.host host)))⟩ ∧
      t.sessions[s.sessions.length]? = some ⟨host,
        .done (some (symmetric (.client (hostId host) s.clients.length))) true⟩ := by
  have h1 := hs.step (.register s host)
  have h2 := h1.step (.accept _ host true)
  have h3 := h2.step (.connect _ (hostId host)
    (some (signed .server (pair (.name (hostId host)) (verifyKey (.host host)))))
    (some (verifyKey .server)) (by
      rintro t ⟨⟩
      exact .seen (by simp [State.send])) (by
      rintro t ⟨⟩
      rfl))
  have h4 := h3.step (.answerClient _ s.clients.length
    ⟨hostId host, .waiting (verifyKey (.host host))⟩
    (verifyKey (.host host))
    (some (.signedId (signedIdPk (hostId host) host s.sessions.length)))
    (by simp [State.send, secureStart, decodeIdPk, getPk]) rfl (by
      rintro p ⟨⟩ t ht
      obtain rfl := List.mem_singleton.mp ht
      exact .seen (by simp [State.send, sessionStart, Packet.terms])))
  have h5 := h4.step (.answerSession _ s.sessions.length ⟨host, .waiting⟩
    (some (.publicKey (some (boxPublic (.client (hostId host) s.clients.length)))
      (some (boxed (.client (hostId host) s.clients.length)
        (boxPublic (.session host s.sessions.length))
        (symmetric (.client (hostId host) s.clients.length))))))
    (by simp [State.send, sessionStart]) rfl (by
      rintro p ⟨⟩ t ht
      refine .seen (List.mem_append_right _ ?_)
      simpa [secureAnswer, signedIdPk, decodeIdPk, getPk, createSymmetricKeyMsg, Packet.terms]
        using ht))
  refine ⟨_, h5, ?_, ?_⟩
  · simp [State.send, secureStart, secureAnswer, signedIdPk, decodeIdPk, getPk,
      createSymmetricKeyMsg]
  · simp [State.send, sessionAnswer, decode, getPk]

/-- A key that a client has set for an honest host is its own and no attacker can make it; the
public key that is returned is that host's; and the key is sealed for one session of that host,
the only one that can hold it. -/
theorem secret_and_agreed (hinj : Function.Injective hostId) (hs : Reachable hostId s) {n : ℕ}
    {c : ClientSide Name Host} {key : Bytes Name Host} {optionPk : Option (Bytes Name Host)}
    {host : Host} (hc : s.clients[n]? = some c) (hphase : c.phase = .done (some key) optionPk)
    (hpeer : c.peerId = hostId host) :
    key = symmetric (.client c.peerId n) ∧ ¬ Derives Own s.seen key ∧
    optionPk = some (verifyKey (.host host)) ∧
    ∃ m, (∃ session, s.sessions[m]? = some session ∧ session.host = host) ∧
      boxed (.client c.peerId n) (boxPublic (.session host m)) key ∈ s.seen ∧
      ∀ m' session confirmed, s.sessions[m']? = some session →
        session.phase = .done (some key) confirmed → m' = m := by
  obtain ⟨sealedFor, hsecure⟩ := hs.secure hinj
  have hok := hsecure.clients n c host hc hpeer
  rw [hphase] at hok
  obtain ⟨rfl, hpk, m, hm, hhost, hseen⟩ := hok
  rw [hpeer]
  refine ⟨rfl, fun hder => hsecure.derives hder host rfl, hpk, m, ?_, hseen, ?_⟩
  · exact Option.map_eq_some_iff.mp hhost
  · intro m' session confirmed hsession hdone
    have hsealed := (hsecure.sessions m' session hsession n host confirmed hdone).1
    exact Option.some.inj (hsealed.symm.trans hm)

/-- The first handshake of host 7 with nobody in between. -/
theorem first_secret_and_agreed : ∃ s : State ℕ ℕ, Reachable id s ∧
    s.clients[0]? = some ⟨7, .done (some (symmetric (.client 7 0))) (some (verifyKey (.host 7)))⟩ ∧
    s.sessions[0]? = some ⟨7, .done (some (symmetric (.client 7 0))) true⟩ ∧
    ¬ Derives Own s.seen (symmetric (.client 7 0)) := by
  obtain ⟨s, hs, hclient, hsession⟩ := (Reachable.init : Reachable (id : ℕ → ℕ) {}).handshake 7
  exact ⟨s, hs, hclient, hsession,
    (secret_and_agreed Function.injective_id hs hclient rfl rfl).2.1⟩

end

end RdWeb.Client.SecureConnection
