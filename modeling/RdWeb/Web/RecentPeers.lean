import RdWeb.Lib.Utf16
import RdWeb.Lib.WordOrder
import RdWeb.Web.PeerOptions

/-!
# The list of recent peers

`getRecentPeers` of `peers.js` lists the peers whose options are stored, the last used one
first. It reads the connection information of every entry, and it sorts triples by the default
order of the language, which compares them as texts. The entries are written by the connections
and by the handlers of the bridge, the information only after the login.
-/

namespace RdWeb.Web

/-- A value of the stored object. -/
inductive Json
  | null
  | bool (b : Bool)
  | integer (n : ℤ)
  /-- A number that is not written as an integer, by its text. -/
  | decimal (text : String)
  | string (s : String)
  | array (items : List Json)
  | object (fields : List (String × Json))

namespace Json

/-- Whether the value counts as true. -/
def truthy : Json → Bool
  | .null => false
  | .bool b => b
  | .integer n => n ≠ 0
  | .decimal _ => true
  | .string s => s ≠ ""
  | .array _ => true
  | .object _ => true

/-- A property of a value that is not `null`. -/
def property? : Json → String → Option Json
  | .object fields, name => fields.lookup name
  | _, _ => none

/-- `value || ""`. -/
def orEmpty : Option Json → Json
  | some value => if value.truthy then value else .string ""
  | none => .string ""

mutual

/-- The text of a value. -/
def toText : Json → String
  | .null => "null"
  | .bool b => toString b
  | .integer n => toString n
  | .decimal text => text
  | .string s => s
  | .array items => String.intercalate "," (itemTexts items)
  | .object _ => "[object Object]"

/-- The texts of the items of an array, where `null` is left out. -/
def itemTexts : List Json → List String
  | [] => []
  | .null :: rest => "" :: itemTexts rest
  | item :: rest => item.toText :: itemTexts rest

end

/-- A time stamp as it is stored. -/
def ofTime (now : ℕ) : Json := .integer now

end Json

/-- What is shown of a peer. -/
structure CardInfo where
  id : String
  username : Json
  hostname : Json
  platform : Json
  «alias» : Json

/-- The triple `[tm, id, cardInfo]`. -/
structure RecentPeer where
  tm : Json
  id : String
  cardInfo : CardInfo

namespace RecentPeer

/-- The text by which the default order compares the triple, in UTF-16 code units. -/
def sortText (peer : RecentPeer) : List ℕ :=
  Utf16.encode (peer.tm.toText.toList ++
    ',' :: (peer.id.toList ++ ",[object Object]".toList))

end RecentPeer

namespace RecentPeers

/-- The card of an entry; to read a property of `undefined` or of `null` throws. -/
def cardInfo? (id : String) (value : PeerOptions Json) : Option CardInfo :=
  match value.get? "info" with
  | none | some .null => none
  | some info =>
    some { id := id
           username := Json.orEmpty (info.property? "username")
           hostname := Json.orEmpty (info.property? "hostname")
           platform := Json.orEmpty (info.property? "platform")
           «alias» := Json.orEmpty (value.get? "alias") }

/-- `if (!tm || !cardInfo) continue; peers.push([tm, id, cardInfo])`. -/
def push (id : String) (value : PeerOptions Json) (cardInfo : CardInfo)
    (peers : List RecentPeer) : List RecentPeer :=
  match value.get? "tm" with
  | some tm => if tm.truthy then ⟨tm, id, cardInfo⟩ :: peers else peers
  | none => peers

/-- The loop over the entries, `none` where it throws. -/
def collect : List (String × PeerOptions Json) → Option (List RecentPeer)
  | [] => some []
  | (id, value) :: rest =>
    if id = "" then collect rest
    else (cardInfo? id value).bind fun cardInfo => (collect rest).map (push id value cardInfo)

/-- The texts of two peers differ, so the order in which the entries are visited leaves no trace
in the list. -/
def getRecentPeers (peers : Peers Json) : Option (List CardInfo) :=
  (collect peers.entries).map fun found =>
    (WordOrder.sortDown RecentPeer.sortText found).map RecentPeer.cardInfo

/-- Whether there is connection information in the options of a peer. -/
def hasInfo (value : PeerOptions Json) : Bool :=
  match value.get? "info" with
  | none | some .null => false
  | some _ => true

/-- The time stamp in the options of a peer. -/
def timeOf (value : PeerOptions Json) : ℕ :=
  match value.get? "tm" with
  | some (.integer n) => n.toNat
  | _ => 0

/-- When a peer was last used. -/
def lastUsed (peers : Peers Json) (id : String) : ℕ := ((peers.get? id).map timeOf).getD 0

/-- The list is there, and it has exactly the peers with connection information, each once, from
the most recently used one to the least. -/
def ListsRecent (peers : Peers Json) : Prop :=
  ∃ cards, getRecentPeers peers = some cards ∧ (cards.map CardInfo.id).Nodup ∧
    (∀ id, id ∈ cards.map CardInfo.id ↔ ∃ value, peers.get? id = some value ∧ hasInfo value) ∧
    cards.Pairwise fun a b => lastUsed peers b.id ≤ lastUsed peers a.id

/-! ### The loop -/

/-- A peer has a card if it has the information for it. -/
theorem cardInfo?_isSome (id : String) (value : PeerOptions Json) :
    (cardInfo? id value).isSome = hasInfo value := by
  rw [cardInfo?, hasInfo]
  split <;> rfl

/-- A card bears the id of its peer. -/
theorem id_of_cardInfo? {id : String} {value : PeerOptions Json} {card : CardInfo}
    (h : cardInfo? id value = some card) : card.id = id := by
  rw [cardInfo?] at h
  split at h
  · cases h
  · cases h
  · obtain rfl := Option.some.inj h
    rfl

/-- A peer with a time is listed, and no other is added. -/
theorem mem_push {id : String} {value : PeerOptions Json} {card : CardInfo}
    {peers : List RecentPeer} {peer : RecentPeer} :
    peer ∈ push id value card peers ↔
      (∃ tm, value.get? "tm" = some tm ∧ tm.truthy ∧ peer = ⟨tm, id, card⟩) ∨ peer ∈ peers := by
  rw [push]
  split <;> rename_i htm
  · split_ifs with htrue <;> simp [htm, htrue]
  · simp [htm]

/-- The loop goes through exactly if every peer has connection information. -/
theorem collect_isSome_iff (entries : List (String × PeerOptions Json)) :
    (collect entries).isSome ↔ ∀ e ∈ entries, e.1 ≠ "" → hasInfo e.2 := by
  induction entries with
  | nil => simp [collect]
  | cons e rest ih =>
    obtain ⟨id, value⟩ := e
    rw [List.forall_mem_cons, collect]
    split_ifs with hid
    · simp [hid, ih]
    · rw [← ih, ← cardInfo?_isSome id value]
      cases hcard : cardInfo? id value <;> simp [hid]

/-- What the loop collects. -/
theorem mem_collect {entries : List (String × PeerOptions Json)} {found : List RecentPeer}
    (h : collect entries = some found) (peer : RecentPeer) :
    peer ∈ found ↔ ∃ e ∈ entries, e.1 ≠ "" ∧ ∃ tm, e.2.get? "tm" = some tm ∧ tm.truthy ∧
      ∃ card, cardInfo? e.1 e.2 = some card ∧ peer = ⟨tm, e.1, card⟩ := by
  induction entries generalizing found with
  | nil =>
    obtain rfl := Option.some.inj h
    simp
  | cons e rest ih =>
    obtain ⟨id, value⟩ := e
    rw [collect] at h
    split_ifs at h with hid
    · rw [ih h, List.exists_mem_cons_iff]
      simp [hid]
    · obtain ⟨card, hcard, h⟩ := Option.bind_eq_some_iff.mp h
      obtain ⟨others, hothers, rfl⟩ := Option.map_eq_some_iff.mp h
      rw [mem_push, ih hothers, List.exists_mem_cons_iff]
      simp [hid, hcard]

/-- The loop keeps the ids apart. -/
theorem collect_ids {entries : List (String × PeerOptions Json)} {found : List RecentPeer}
    (h : collect entries = some found) :
    (found.map RecentPeer.id).Sublist (entries.map Prod.fst) := by
  induction entries generalizing found with
  | nil =>
    obtain rfl := Option.some.inj h
    simp
  | cons e rest ih =>
    obtain ⟨id, value⟩ := e
    rw [collect] at h
    split_ifs at h with hid
    · exact (ih h).cons _
    · obtain ⟨card, -, h⟩ := Option.bind_eq_some_iff.mp h
      obtain ⟨others, hothers, rfl⟩ := Option.map_eq_some_iff.mp h
      rw [push]
      split
      · split_ifs
        · exact (ih hothers).cons_cons _
        · exact (ih hothers).cons _
      · exact (ih hothers).cons _

/-! ### The texts of the triples -/

/-- The text of a time stamp, in UTF-16 code units. -/
def digits (now : ℕ) : List ℕ := Utf16.encode (Nat.toDigits 10 now)

/-- A digit comes after a comma. -/
theorem comma_lt_of_mem_digits {now u : ℕ} (h : u ∈ digits now) : 44 < u := by
  obtain ⟨c, hc, hu⟩ := List.mem_flatMap.mp h
  have hdigit := Nat.isDigit_of_mem_toDigits (by decide) (by decide) hc
  have hrange : 48 ≤ c.toNat ∧ c.toNat ≤ 57 := Char.isDigit_iff_toNat.mp hdigit
  have hunits : Utf16.units c = [c.toNat] := by
    rw [Utf16.units, if_pos (by omega)]
  rw [hunits, List.mem_singleton] at hu
  omega

/-- The text by which a listed peer is sorted: its time, and then its id. -/
theorem sortText_ofTime (now : ℕ) (id : String) (card : CardInfo) :
    RecentPeer.sortText ⟨Json.ofTime now, id, card⟩ =
      digits now ++ 44 :: Utf16.encode (id.toList ++ ",[object Object]".toList) := by
  have htext : (Json.ofTime now).toText.toList = Nat.toDigits 10 now := by
    rw [Json.ofTime, Json.toText]
    exact Nat.toList_repr
  rw [RecentPeer.sortText, htext, Utf16.encode, List.flatMap_append, List.flatMap_cons]
  rfl

/-- Times with the same digits are the same. -/
theorem digits_injective {now now' : ℕ} (h : digits now = digits now') : now = now' := by
  have hdecode := congrArg Utf16.decode h
  simp only [digits, Utf16.decode_encode, Option.some.injEq] at hdecode
  have hread : Nat.ofDigitChars 10 (Nat.toDigits 10 now) 0 =
      Nat.ofDigitChars 10 (Nat.toDigits 10 now') 0 := by rw [hdecode]
  simpa using hread

/-- Triples of different times are in the order of their time stamps as texts. -/
theorem sortText_lt_iff {now now' : ℕ} {id id' : String} {card card' : CardInfo}
    (hne : now ≠ now') :
    RecentPeer.sortText ⟨Json.ofTime now, id, card⟩ <
        RecentPeer.sortText ⟨Json.ofTime now', id', card'⟩ ↔ digits now < digits now' := by
  rw [sortText_ofTime, sortText_ofTime,
    WordOrder.append_separator_lt (fun u => comma_lt_of_mem_digits)
      fun u => comma_lt_of_mem_digits]
  exact or_iff_left fun h => hne (digits_injective h.1)

/-- The text of a triple tells its id. -/
theorem id_eq_of_sortText_eq {now now' : ℕ} {id id' : String} {card card' : CardInfo}
    (h : RecentPeer.sortText ⟨Json.ofTime now, id, card⟩ =
      RecentPeer.sortText ⟨Json.ofTime now', id', card'⟩) : id = id' := by
  rw [sortText_ofTime, sortText_ofTime] at h
  have hrest := WordOrder.eq_of_append_separator_eq (fun u => comma_lt_of_mem_digits)
    (fun u => comma_lt_of_mem_digits) h
  have hdecode := congrArg Utf16.decode hrest.2
  rw [Utf16.decode_encode, Utf16.decode_encode, Option.some.injEq] at hdecode
  exact String.toList_injective (List.append_cancel_right hdecode)

/-! ### The list of a stored object -/

/-- Every entry has the time at which it was written. -/
def Stamped (peers : Peers Json) : Prop :=
  ∀ id value, peers.get? id = some value → value.get? "tm" = some (Json.ofTime (timeOf value))

/-- Exactly the entries of peers have connection information, these were not written at time
zero, and the times are in the same order as numbers and as texts. -/
structure Orderly (peers : Peers Json) : Prop where
  listed : ∀ id value, peers.get? id = some value →
    if id = "" then hasInfo value = false else hasInfo value ∧ timeOf value ≠ 0
  inOrder : ∀ id id' value value', id ≠ "" → id' ≠ "" →
    peers.get? id = some value → peers.get? id' = some value' →
    timeOf value < timeOf value' → digits (timeOf value) < digits (timeOf value')

variable {peers : Peers Json} {found : List RecentPeer}

/-- Every time but zero is listed. -/
theorem truthy_ofTime (now : ℕ) : (Json.ofTime now).truthy ↔ now ≠ 0 := by
  simp [Json.ofTime, Json.truthy]

/-- The triples of a stamped object. -/
theorem mem_found (hstamped : Stamped peers) (h : collect peers.entries = some found)
    (peer : RecentPeer) :
    peer ∈ found ↔ ∃ id value card, peers.get? id = some value ∧ id ≠ "" ∧
      timeOf value ≠ 0 ∧ cardInfo? id value = some card ∧
      peer = ⟨Json.ofTime (timeOf value), id, card⟩ := by
  rw [mem_collect h]
  constructor
  · rintro ⟨⟨id, value⟩, he, hid, tm, htm, htrue, card, hcard, rfl⟩
    have hget := OrderedMap.get?_of_mem_entries he
    obtain rfl : Json.ofTime (timeOf value) = tm :=
      Option.some.inj ((hstamped id value hget).symm.trans htm)
    exact ⟨id, value, card, hget, hid, (truthy_ofTime _).mp htrue, hcard, rfl⟩
  · rintro ⟨id, value, card, hget, hid, htime, hcard, rfl⟩
    exact ⟨(id, value), OrderedMap.mem_entries_of_get? hget, hid, _, hstamped id value hget,
      (truthy_ofTime _).mpr htime, card, hcard, rfl⟩

/-- The ids of the triples. -/
theorem mem_found_ids (hstamped : Stamped peers) (h : collect peers.entries = some found)
    (id : String) :
    id ∈ found.map RecentPeer.id ↔
      ∃ value, peers.get? id = some value ∧ id ≠ "" ∧ timeOf value ≠ 0 ∧ hasInfo value := by
  rw [List.mem_map]
  constructor
  · rintro ⟨peer, hpeer, rfl⟩
    obtain ⟨id, value, card, hget, hid, htime, hcard, rfl⟩ := (mem_found hstamped h peer).mp hpeer
    refine ⟨value, hget, hid, htime, ?_⟩
    rw [← cardInfo?_isSome id value, hcard]
    rfl
  · rintro ⟨value, hget, hid, htime, hinfo⟩
    rw [← cardInfo?_isSome id value] at hinfo
    obtain ⟨card, hcard⟩ := Option.isSome_iff_exists.mp hinfo
    exact ⟨_, (mem_found hstamped h _).mpr ⟨id, value, card, hget, hid, htime, hcard, rfl⟩, rfl⟩

/-- The card of a triple has its id. -/
theorem cardInfo_id (hstamped : Stamped peers) (h : collect peers.entries = some found)
    {peer : RecentPeer} (hpeer : peer ∈ found) : peer.cardInfo.id = peer.id := by
  obtain ⟨id, value, card, -, -, -, hcard, rfl⟩ := (mem_found hstamped h peer).mp hpeer
  exact id_of_cardInfo? hcard

/-- No two triples have the same text. -/
theorem sortText_injOn (hstamped : Stamped peers) (h : collect peers.entries = some found) :
    ∀ a ∈ found, ∀ b ∈ found, a.sortText = b.sortText → a = b := by
  intro a ha b hb htext
  obtain ⟨id, value, card, hget, -, -, hcard, rfl⟩ := (mem_found hstamped h a).mp ha
  obtain ⟨id', value', card', hget', -, -, hcard', rfl⟩ := (mem_found hstamped h b).mp hb
  obtain rfl := id_eq_of_sortText_eq htext
  obtain rfl := Option.some.inj (hget.symm.trans hget')
  obtain rfl := Option.some.inj (hcard.symm.trans hcard')
  rfl

/-- The list is in the order of the times exactly if the times are in the same order as numbers
and as texts. -/
theorem pairwise_found_iff (hstamped : Stamped peers) (h : collect peers.entries = some found) :
    (WordOrder.sortDown RecentPeer.sortText found).Pairwise
        (fun a b => lastUsed peers b.cardInfo.id ≤ lastUsed peers a.cardInfo.id) ↔
      ∀ id id' value value', id ≠ "" → id' ≠ "" → peers.get? id = some value →
        peers.get? id' = some value' → timeOf value ≠ 0 → hasInfo value → hasInfo value' →
        timeOf value < timeOf value' → digits (timeOf value) < digits (timeOf value') := by
  rw [WordOrder.pairwise_sortDown_iff (fun peer => lastUsed peers peer.cardInfo.id)
    (sortText_injOn hstamped h)]
  constructor
  · intro hall id id' value value' hid hid' hget hget' htime hinfo hinfo' hlt
    rw [← cardInfo?_isSome id value] at hinfo
    rw [← cardInfo?_isSome id' value'] at hinfo'
    obtain ⟨card, hcard⟩ := Option.isSome_iff_exists.mp hinfo
    obtain ⟨card', hcard'⟩ := Option.isSome_iff_exists.mp hinfo'
    have hmem := (mem_found hstamped h _).mpr ⟨id, value, card, hget, hid, htime, hcard, rfl⟩
    have hmem' := (mem_found hstamped h _).mpr
      ⟨id', value', card', hget', hid', by omega, hcard', rfl⟩
    have htext := hall _ hmem _ hmem' (by
      simpa [lastUsed, id_of_cardInfo? hcard, id_of_cardInfo? hcard', hget, hget'] using hlt)
    exact (sortText_lt_iff hlt.ne).mp htext
  · intro hall a ha b hb hlt
    obtain ⟨id, value, card, hget, hid, htime, hcard, rfl⟩ := (mem_found hstamped h a).mp ha
    obtain ⟨id', value', card', hget', hid', -, hcard', rfl⟩ := (mem_found hstamped h b).mp hb
    have hlt' : timeOf value < timeOf value' := by
      simpa [lastUsed, id_of_cardInfo? hcard, id_of_cardInfo? hcard', hget, hget'] using hlt
    refine (sortText_lt_iff hlt'.ne).mpr (hall id id' value value' hid hid' hget hget' htime
      ?_ ?_ hlt')
    · rw [← cardInfo?_isSome id value, hcard]
      rfl
    · rw [← cardInfo?_isSome id' value', hcard']
      rfl

/-- The ids of the cards are those of the triples. -/
theorem card_ids_perm (hstamped : Stamped peers) (h : collect peers.entries = some found) :
    (((WordOrder.sortDown RecentPeer.sortText found).map RecentPeer.cardInfo).map
      CardInfo.id).Perm (found.map RecentPeer.id) := by
  have hperm := WordOrder.sortDown_perm RecentPeer.sortText found
  rw [List.map_map]
  refine (hperm.map _).trans (List.Perm.of_eq (List.map_congr_left fun peer hpeer => ?_))
  exact cardInfo_id hstamped h hpeer

/-- The list is complete exactly if the entries with connection information are those of peers,
and were not written at time zero. -/
theorem complete_iff (hstamped : Stamped peers) (h : collect peers.entries = some found) :
    (∀ id, id ∈ found.map RecentPeer.id ↔
        ∃ value, peers.get? id = some value ∧ hasInfo value) ↔
      ∀ id value, peers.get? id = some value →
        if id = "" then hasInfo value = false else hasInfo value ∧ timeOf value ≠ 0 := by
  have hinfo := (collect_isSome_iff peers.entries).mp (by rw [h]; rfl)
  have hentry (id : String) (value : PeerOptions Json) (hget : peers.get? id = some value) :
      id ≠ "" → hasInfo value :=
    hinfo _ (OrderedMap.mem_entries_of_get? hget)
  refine forall_congr' fun id => ?_
  rw [mem_found_ids hstamped h id]
  cases hget : peers.get? id with
  | none => simp
  | some value =>
    have hknown := hentry id value hget
    by_cases hid : id = ""
    · simp [hid]
    · simp [hid, hknown hid]

/-- **Recent peers.** The list of a stamped object is there, complete and in order if and only if
the object is orderly. -/
theorem listsRecent_iff_orderly (hstamped : Stamped peers) :
    ListsRecent peers ↔ Orderly peers := by
  constructor
  · rintro ⟨cards, hcards, -, hids, hpairwise⟩
    obtain ⟨found, hfound, rfl⟩ := Option.map_eq_some_iff.mp hcards
    have hlisted := (complete_iff hstamped hfound).mp fun id =>
      (card_ids_perm hstamped hfound).mem_iff.symm.trans (hids id)
    rw [List.pairwise_map, pairwise_found_iff hstamped hfound] at hpairwise
    refine ⟨hlisted, fun id id' value value' hid hid' hget hget' hlt => ?_⟩
    have hentry := hlisted id value hget
    have hentry' := hlisted id' value' hget'
    rw [if_neg hid] at hentry
    rw [if_neg hid'] at hentry'
    exact hpairwise id id' value value' hid hid' hget hget' hentry.2 hentry.1 hentry'.1 hlt
  · intro horderly
    have hthrough : (collect peers.entries).isSome := by
      refine (collect_isSome_iff peers.entries).mpr fun e he hid => ?_
      have hentry := horderly.listed e.1 e.2 (OrderedMap.get?_of_mem_entries he)
      rw [if_neg hid] at hentry
      exact hentry.1
    obtain ⟨found, hfound⟩ := Option.isSome_iff_exists.mp hthrough
    have hperm := card_ids_perm hstamped hfound
    refine ⟨_, by rw [getRecentPeers, hfound]; rfl, ?_, fun id => ?_, ?_⟩
    · exact hperm.nodup_iff.mpr (peers.nodup_keys.sublist (collect_ids hfound))
    · exact hperm.mem_iff.trans ((complete_iff hstamped hfound).mpr horderly.listed id)
    · rw [List.pairwise_map, pairwise_found_iff hstamped hfound]
      intro id id' value value' hid hid' hget hget' _ _ _ hlt
      exact horderly.inOrder id id' value value' hid hid' hget hget' hlt

end RecentPeers

/-- The stored peers and the connections of the page. -/
structure PeersPage where
  peers : Peers Json
  conns : ℕ → OptionsCopy Json

/-- A connection starts, a connection sets an option (to remember the peer, the password or the
connection information among them), the bridge sets one, or the peer is removed. -/
inductive PeersEvent
  | start (conn : ℕ) (id : String)
  | setOption (conn : ℕ) (name : String) (value : Option Json) (now : ℕ)
  | setPeerField (id name : String) (value : Option Json) (now : ℕ)
  | removePeer (id : String)

namespace PeersPage

open RecentPeers

/-- `removePeer`. -/
def removePeer (peers : Peers Json) (id : String) : Peers Json := peers.delete id

/-- One step of a page with its peers. -/
def step (s : PeersPage) : PeersEvent → Option PeersPage
  | .start c id =>
    some { s with conns := Function.update s.conns c (OptionsCopy.prepareConnect s.peers id) }
  | .setOption c name value now =>
    let (conn, peers) := (s.conns c).setOption Json.ofTime s.peers name value now
    some ⟨peers, Function.update s.conns c conn⟩
  | .setPeerField id name value now =>
    some { s with peers := PeerStore.setPeerField Json.ofTime s.peers id name value now }
  | .removePeer id => some { s with peers := removePeer s.peers id }

/-- A page on which nothing was stored yet. -/
def machine : Machine PeersPage PeersEvent :=
  ⟨⟨OrderedMap.empty, fun _ => ⟨"", OrderedMap.empty⟩⟩, step⟩

/-- What may be written for a peer: options with connection information, not at time zero, and
at a time that is in the same order with the times of the other peers as number and as text.
Without an id, options without connection information. -/
def Writable (peers : Peers Json) (id : String) (options : PeerOptions Json) (now : ℕ) : Prop :=
  if id = "" then hasInfo options = false
  else hasInfo options ∧ now ≠ 0 ∧ ∀ id' value, id' ≠ id → id' ≠ "" →
    peers.get? id' = some value →
    (timeOf value < now → digits (timeOf value) < digits now) ∧
      (now < timeOf value → digits now < digits (timeOf value))

/-- A write is fit for the list by what it stores, its time and the times of the other peers. -/
theorem writable_iff {peers : Peers Json} {id : String} {options : PeerOptions Json} {now : ℕ} :
    Writable peers id options now ↔
      if id = "" then hasInfo options = false
      else hasInfo options ∧ now ≠ 0 ∧ ∀ peer ∈ peers.entries, peer.1 ≠ id → peer.1 ≠ "" →
        (timeOf peer.2 < now → digits (timeOf peer.2) < digits now) ∧
          (now < timeOf peer.2 → digits now < digits (timeOf peer.2)) := by
  unfold Writable
  split_ifs
  · rfl
  · simp only [Prod.forall, OrderedMap.mem_entries_iff]
    refine and_congr_right fun _ => and_congr_right fun _ => ?_
    exact ⟨fun h id' value hget hne hnamed => h id' value hne hnamed hget,
      fun h id' value hne hnamed hget => h id' value hget hne hnamed⟩

/-- Whether a write is fit for the list is decided by the stored peers. -/
instance (peers : Peers Json) (id : String) (options : PeerOptions Json) (now : ℕ) :
    Decidable (Writable peers id options now) := decidable_of_iff' _ writable_iff

/-- What the step writes is what may be written. -/
def WritesRecent (s : PeersPage) : PeersEvent → Prop
  | .start _ _ => True
  | .setOption c name value now =>
    Writable s.peers (s.conns c).id (PeerStore.setField (s.conns c).options name value) now
  | .setPeerField id name value now =>
    Writable s.peers id
      (PeerStore.setField (PeerStore.loadPeerOptions s.peers id) name value) now
  | .removePeer _ => True

/-- Whether a step writes for the list is decided by its write. -/
instance (s : PeersPage) : ∀ e, Decidable (WritesRecent s e)
  | .start _ _ | .removePeer _ => isTrue trivial
  | .setOption .. | .setPeerField .. => inferInstanceAs (Decidable (Writable ..))

/-! ### What a write leaves -/

/-- The time is no information for the card. -/
@[simp] theorem hasInfo_stamp (options : PeerOptions Json) (now : ℕ) :
    hasInfo (PeerStore.stamp Json.ofTime options now) = hasInfo options := by
  rw [hasInfo, hasInfo, OptionsPage.get?_stamp, if_neg (by decide)]

/-- Stored options have their time. -/
@[simp] theorem timeOf_stamp (options : PeerOptions Json) (now : ℕ) :
    timeOf (PeerStore.stamp Json.ofTime options now) = now := by
  rw [timeOf, OptionsPage.get?_stamp, if_pos rfl]
  exact Int.toNat_natCast now

variable {peers : Peers Json}

/-- Storing keeps every peer stamped. -/
theorem stamped_save (hstamped : Stamped peers) (id : String) (options : PeerOptions Json)
    (now : ℕ) : Stamped (PeerStore.savePeerOptions Json.ofTime peers id options now) := by
  intro id' value hget
  rw [PeerStore.savePeerOptions, OrderedMap.get?_set] at hget
  split_ifs at hget with hid
  · obtain rfl := Option.some.inj hget
    rw [timeOf_stamp, OptionsPage.get?_stamp, if_pos rfl]
  · exact hstamped id' value hget

/-- A write keeps the object orderly exactly if it is a write that may be made. -/
theorem orderly_save_iff (horderly : Orderly peers) (id : String) (options : PeerOptions Json)
    (now : ℕ) :
    Orderly (PeerStore.savePeerOptions Json.ofTime peers id options now) ↔
      Writable peers id options now := by
  have hself : (PeerStore.savePeerOptions Json.ofTime peers id options now).get? id =
      some (PeerStore.stamp Json.ofTime options now) := by
    rw [PeerStore.savePeerOptions, OrderedMap.get?_set, if_pos rfl]
  have hother {id' : String} (hid : id' ≠ id) :
      (PeerStore.savePeerOptions Json.ofTime peers id options now).get? id' = peers.get? id' := by
    rw [PeerStore.savePeerOptions, OrderedMap.get?_set, if_neg hid]
  rw [Writable]
  constructor
  · intro hafter
    have hentry := hafter.listed id _ hself
    rw [hasInfo_stamp, timeOf_stamp] at hentry
    split_ifs at hentry ⊢ with hid
    · exact hentry
    · refine ⟨hentry.1, hentry.2, fun id' value hne hid' hget => ?_⟩
      have hget' := (hother hne).trans hget
      have hbefore := hafter.inOrder id' id value _ hid' hid hget' hself
      have hbehind := hafter.inOrder id id' _ value hid hid' hself hget'
      rw [timeOf_stamp] at hbefore hbehind
      exact ⟨hbefore, hbehind⟩
  · intro hwrite
    refine ⟨fun id' value hget => ?_, fun id₁ id₂ value₁ value₂ h₁ h₂ hget₁ hget₂ hlt => ?_⟩
    · by_cases hid' : id' = id
      · subst hid'
        obtain rfl := Option.some.inj (hself.symm.trans hget)
        rw [hasInfo_stamp, timeOf_stamp]
        split_ifs at hwrite ⊢ with hid
        · exact hwrite
        · exact ⟨hwrite.1, hwrite.2.1⟩
      · exact horderly.listed id' value ((hother hid').symm.trans hget)
    · by_cases hid₁ : id₁ = id
      · subst hid₁
        obtain rfl := Option.some.inj (hself.symm.trans hget₁)
        by_cases hid₂ : id₂ = id₁
        · subst hid₂
          obtain rfl := Option.some.inj (hself.symm.trans hget₂)
          exact absurd hlt (lt_irrefl _)
        · rw [if_neg h₁] at hwrite
          rw [timeOf_stamp] at hlt ⊢
          exact (hwrite.2.2 id₂ value₂ hid₂ h₂ ((hother hid₂).symm.trans hget₂)).2 hlt
      · have hbefore := (hother hid₁).symm.trans hget₁
        by_cases hid₂ : id₂ = id
        · subst hid₂
          obtain rfl := Option.some.inj (hself.symm.trans hget₂)
          rw [if_neg h₂] at hwrite
          rw [timeOf_stamp] at hlt ⊢
          exact (hwrite.2.2 id₁ value₁ hid₁ h₁ hbefore).1 hlt
        · exact horderly.inOrder id₁ id₂ value₁ value₂ h₁ h₂ hbefore
            ((hother hid₂).symm.trans hget₂) hlt

/-- Removing keeps every peer stamped. -/
theorem stamped_removePeer (hstamped : Stamped peers) (id : String) :
    Stamped (removePeer peers id) := by
  intro id' value hget
  rw [removePeer, OrderedMap.get?_delete] at hget
  split_ifs at hget
  exact hstamped id' value hget

/-- Removing keeps the times in order. -/
theorem orderly_removePeer (horderly : Orderly peers) (id : String) :
    Orderly (removePeer peers id) := by
  have hbefore {id' : String} {value : PeerOptions Json}
      (hget : (removePeer peers id).get? id' = some value) : peers.get? id' = some value := by
    rw [removePeer, OrderedMap.get?_delete] at hget
    split_ifs at hget
    exact hget
  exact ⟨fun id' value hget => horderly.listed id' value (hbefore hget),
    fun id₁ id₂ value₁ value₂ h₁ h₂ hget₁ hget₂ =>
      horderly.inOrder id₁ id₂ value₁ value₂ h₁ h₂ (hbefore hget₁) (hbefore hget₂)⟩

/-! ### Runs -/

variable {s t : PeersPage}

/-- The object after a call of `setOption`. -/
theorem peers_setOption {c : ℕ} {name : String} {value : Option Json} {now : ℕ}
    (hstep : step s (.setOption c name value now) = some t) :
    t.peers = PeerStore.savePeerOptions Json.ofTime s.peers (s.conns c).id
      (PeerStore.stamp Json.ofTime (PeerStore.setField (s.conns c).options name value) now)
      now := by
  obtain rfl := Option.some.inj hstep
  rfl

/-- **One step** keeps every peer stamped. -/
theorem stamped_step {e : PeersEvent} (hstep : step s e = some t) (hs : Stamped s.peers) :
    Stamped t.peers := by
  cases e with
  | start c id =>
    obtain rfl := Option.some.inj hstep
    exact hs
  | setOption c name value now =>
    rw [peers_setOption hstep]
    exact stamped_save hs _ _ _
  | setPeerField id name value now =>
    obtain rfl := Option.some.inj hstep
    exact stamped_save hs _ _ _
  | removePeer id =>
    obtain rfl := Option.some.inj hstep
    exact stamped_removePeer hs id

/-- One step keeps the list right exactly if it writes what may be written. -/
theorem listsRecent_step_iff {e : PeersEvent} (hstep : step s e = some t)
    (hstamped : Stamped s.peers) (hs : ListsRecent s.peers) :
    ListsRecent t.peers ↔ WritesRecent s e := by
  have horderly := (listsRecent_iff_orderly hstamped).mp hs
  rw [listsRecent_iff_orderly (stamped_step hstep hstamped)]
  cases e with
  | start c id =>
    obtain rfl := Option.some.inj hstep
    exact iff_of_true horderly trivial
  | setOption c name value now =>
    rw [peers_setOption hstep, orderly_save_iff horderly, WritesRecent, Writable, Writable,
      hasInfo_stamp]
  | setPeerField id name value now =>
    obtain rfl := Option.some.inj hstep
    exact orderly_save_iff horderly _ _ _
  | removePeer id =>
    obtain rfl := Option.some.inj hstep
    exact iff_of_true (orderly_removePeer horderly id) trivial

/-- Nothing is listed of an empty object. -/
theorem listsRecent_empty : ListsRecent OrderedMap.empty := by
  refine ⟨[], rfl, by simp, by simp, by simp⟩

/-- No peer is stored at first. -/
theorem stamped_empty : Stamped OrderedMap.empty := by
  intro id value hget
  cases hget

/-- **Recent peers.** In a run of connections and handlers on a page that starts without stored
peers, the list is there, complete and in order after every prefix if and only if every step
writes what may be written. -/
theorem listsRecent_iff_writesRecent {events : List PeersEvent}
    (hrun : machine.Run machine.init events s) :
    (∀ first u, first <+: events → machine.Run machine.init first u → ListsRecent u.peers) ↔
      machine.RunWhere WritesRecent machine.init events s :=
  Machine.runWhere_iff_beside (I := fun s => Stamped s.peers)
    (P := fun s => ListsRecent s.peers) (fun _ _ _ hstep => stamped_step hstep)
    (fun _ _ _ hstep => listsRecent_step_iff hstep) stamped_empty listsRecent_empty hrun

/-- Two peers whose connection information is stored first, the second one used later. -/
def infoFirst : List PeersEvent :=
  [.start 0 "123456789", .setOption 0 "info" (some (.object [("username", .string "ann")])) 5,
    .setOption 0 "remember" (some (.bool true)) 6, .start 1 "22",
    .setOption 1 "info" (some (.object [("platform", .string "Linux")])) 7]

/-- The page after these calls. -/
def afterInfoFirst : PeersPage := (machine.replay machine.init infoFirst).getD machine.init

/-- A run in which the information arrives first, and the peers stay listed. -/
theorem listsRecent_iff_writesRecent_infoFirst :
    machine.Run machine.init infoFirst afterInfoFirst ∧
      ∀ first u, first <+: infoFirst → machine.Run machine.init first u →
        ListsRecent u.peers := by
  have hwhere : machine.RunWhere WritesRecent machine.init infoFirst afterInfoFirst :=
    Machine.runWhere_of_replayWhere rfl
  exact ⟨hwhere.run, (listsRecent_iff_writesRecent hwhere.run).mpr hwhere⟩

/-- A first login to a peer: the dialog says whether to remember the peer before any connection
information has arrived. -/
def rememberFirst : List PeersEvent :=
  [.start 0 "123456789", .setOption 0 "remember" (some (.bool true)) 5]

/-- The page after these calls. -/
def afterRememberFirst : PeersPage := (machine.replay machine.init rememberFirst).getD machine.init

/-- The list is not there. -/
theorem not_listsRecent_rememberFirst :
    ¬ ∀ events s, machine.Run machine.init events s → ListsRecent s.peers := by
  intro hall
  have hlists := hall rememberFirst afterRememberFirst (Machine.run_of_replay rfl)
  obtain ⟨cards, hcards, -⟩ := hlists
  have hthrows : getRecentPeers afterRememberFirst.peers = none := rfl
  rw [hthrows] at hcards
  cases hcards

end PeersPage

end RdWeb.Web
