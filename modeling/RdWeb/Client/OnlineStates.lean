import Mathlib.Data.List.Basic
import Mathlib.Data.Nat.Bitwise
import Mathlib.Tactic.IntervalCases
import Mathlib.Tactic.SplitIfs

/-!
# The query for online peers

`peer_online::query_online_states_` of `client.rs` asks the rendezvous server which peers are
online. The reply has one bit for each peer, from the left; the byte of a bit is taken from the
reply without a check of its length.
-/

namespace RdWeb.Client

/-- What a message of the rendezvous server is to the query. -/
inductive RendezvousUnion where
  | keyExchange
  | onlineResponse (states : List UInt8)
  | other

namespace PeerOnline

/-- How one `next_timeout` ends: a message, or nothing that can be read in time. -/
abbrev Received := Option RendezvousUnion

/-- `get_next_nonkeyexchange_msg` with the attempts that are left, and what comes after it. -/
def getNextNonKeyExchangeMsg : ℕ → List Received → Option RendezvousUnion × List Received
  | attempts + 1, some .keyExchange :: received => getNextNonKeyExchangeMsg attempts received
  | _ + 1, some msgIn :: received => (some msgIn, received)
  | _ + 1, none :: received => (none, received)
  | _, received => (none, received)

/-- The states of the response that the query waits for, with the attempts that are left. -/
def awaitResponse : ℕ → List Received → Except String (List UInt8)
  | attempts + 1, received =>
    match getNextNonKeyExchangeMsg 2 received with
    | (some (.onlineResponse states), _) => .ok states
    | (some _, rest) => awaitResponse attempts rest
    | (none, _) => .error "Online stream receives None"
  | 0, _ => .error "Failed to query online states, no online response"

/-- The body of the loop over the ids; `none` where the byte is not there. -/
def decodeState (states : List UInt8) (decoded : List String × List String) (i : ℕ)
    (id : String) : Option (List String × List String) :=
  let bitValue : UInt8 := 1 <<< UInt8.ofNat (7 - i % 8)
  (states[i / 8]?).map fun state =>
    if state &&& bitValue = bitValue then (decoded.1 ++ [id], decoded.2)
    else (decoded.1, decoded.2 ++ [id])

/-- The loop over the ids. -/
def decodeStates (ids : List String) (states : List UInt8) : Option (List String × List String) :=
  ids.zipIdx.foldlM (fun decoded p => decodeState states decoded p.2 p.1) ([], [])

/-- What the connection to the server does during a query. -/
structure Exchange where
  /-- `create_online_stream` gives a stream -/
  connected : Bool
  /-- the request is sent -/
  sent : Bool
  received : List Received

/-- `query_online_states_`; `none` is a panic. -/
def queryOnlineStates (ids : List String) (x : Exchange) :
    Option (Except String (List String × List String)) :=
  if !x.connected then some (.ok ([], ids))
  else if !x.sent then some (.ok ([], ids))
  else
    match awaitResponse 2 x.received with
    | .error message => some (.error message)
    | .ok states => (decodeStates ids states).map .ok

/-! ## What a reply means -/

/-- A bit of a reply, from the left. There is none after the last byte. -/
def isOnline (states : List UInt8) (i : ℕ) : Bool :=
  (states[i / 8]?).any fun state => state.toNat.testBit (7 - i % 8)

/-- The ids whose number has a property, in their order, with the number of the first one. -/
def idsWhere (p : ℕ → Bool) (first : ℕ) (ids : List String) : List String :=
  ((ids.zipIdx first).filter fun q => p q.2).map Prod.fst

/-- However a response comes, the query gives the ids that it says are online, and the others. -/
def Decodes (ids : List String) (states : List UInt8) : Prop :=
  ∀ received, awaitResponse 2 received = .ok states →
    queryOnlineStates ids ⟨true, true, received⟩ =
      some (.ok (idsWhere (isOnline states) 0 ids, idsWhere (fun i => !isOnline states i) 0 ids))

/-! ## The loop -/

/-- The test of a bit with a mask. -/
theorem and_mask_eq_iff (state : UInt8) {k : ℕ} (hk : k < 8) :
    state &&& 1 <<< UInt8.ofNat k = 1 <<< UInt8.ofNat k ↔ state.toNat.testBit k = true := by
  have hmask : (1 <<< UInt8.ofNat k : UInt8).toNat = 2 ^ k := by
    interval_cases k <;> rfl
  rw [← UInt8.toNat_inj, UInt8.toNat_and, hmask, Nat.and_two_pow]
  have hpos : 0 < 2 ^ k := Nat.two_pow_pos k
  cases state.toNat.testBit k with
  | true => simp
  | false =>
    simp only [Bool.toNat_false, Nat.zero_mul, Bool.false_eq_true, iff_false]
    exact hpos.ne

/-- A bit that the answer holds puts the peer into one of the two lists. -/
theorem decodeState_of_some {states : List UInt8} {i : ℕ} {state : UInt8}
    (hstate : states[i / 8]? = some state) (decoded : List String × List String) (id : String) :
    decodeState states decoded i id =
      some (if isOnline states i then (decoded.1 ++ [id], decoded.2)
        else (decoded.1, decoded.2 ++ [id])) := by
  have hbit := and_mask_eq_iff state (show 7 - i % 8 < 8 by omega)
  rw [decodeState, isOnline, hstate]
  simp only [Option.map_some, Option.any_some, hbit]

/-- A bit that the answer lacks ends the decoding. -/
theorem decodeState_of_none {states : List UInt8} {i : ℕ} (hstate : states[i / 8]? = none)
    (decoded : List String × List String) (id : String) :
    decodeState states decoded i id = none := by
  rw [decodeState, hstate]
  rfl

/-- The peers that a predicate on places picks, one at a time. -/
theorem idsWhere_cons (p : ℕ → Bool) (first : ℕ) (id : String) (ids : List String) :
    idsWhere p first (id :: ids) =
      (if p first then [id] else []) ++ idsWhere p (first + 1) ids := by
  rw [idsWhere, List.zipIdx_cons, List.filter_cons]
  split_ifs <;> rfl

/-- Where every id has its byte, the loop takes the ids apart. -/
theorem foldlM_decodeState (states : List UInt8) (ids : List String) :
    ∀ (first : ℕ) (decoded : List String × List String),
      first + ids.length ≤ 8 * states.length →
      (ids.zipIdx first).foldlM (fun decoded p => decodeState states decoded p.2 p.1) decoded =
        some (decoded.1 ++ idsWhere (isOnline states) first ids,
          decoded.2 ++ idsWhere (fun i => !isOnline states i) first ids) := by
  induction ids with
  | nil =>
    intro first decoded _
    simp [idsWhere]
  | cons id ids ih =>
    intro first decoded hlength
    rw [List.length_cons] at hlength
    have hbyte : first / 8 < states.length := by omega
    have hstep := decodeState_of_some (List.getElem?_eq_getElem hbyte) decoded id
    rw [idsWhere_cons, idsWhere_cons, List.zipIdx_cons, List.foldlM_cons, hstep]
    refine (ih (first + 1) _ (by omega)).trans ?_
    cases isOnline states first with
    | true => simp
    | false => simp

/-- The first id without a byte stops the loop. -/
theorem foldlM_decodeState_of_lt (states : List UInt8) (ids : List String) :
    ∀ (first : ℕ) (decoded : List String × List String), ids ≠ [] →
      8 * states.length < first + ids.length →
      (ids.zipIdx first).foldlM (fun decoded p => decodeState states decoded p.2 p.1) decoded =
        none := by
  induction ids with
  | nil => exact fun _ _ hne => absurd rfl hne
  | cons id ids ih =>
    intro first decoded _ hlength
    rw [List.zipIdx_cons, List.foldlM_cons]
    rw [List.length_cons] at hlength
    by_cases hbyte : first / 8 < states.length
    · have hne : ids ≠ [] := by
        rintro rfl
        rw [List.length_nil] at hlength
        omega
      rw [decodeState_of_some (List.getElem?_eq_getElem hbyte)]
      exact ih (first + 1) _ hne (by omega)
    · rw [decodeState_of_none (List.getElem?_eq_none (by omega))]
      rfl

/-- The loop ends exactly if there is a byte for every id. -/
theorem decodeStates_eq_some_iff (ids : List String) (states : List UInt8) :
    decodeStates ids states =
        some (idsWhere (isOnline states) 0 ids, idsWhere (fun i => !isOnline states i) 0 ids) ↔
      ids.length ≤ 8 * states.length := by
  constructor
  · intro hsome
    by_contra hlength
    have hne : ids ≠ [] := by
      rintro rfl
      exact hlength (Nat.zero_le _)
    rw [decodeStates, foldlM_decodeState_of_lt states ids 0 _ hne (by omega)] at hsome
    cases hsome
  · intro hlength
    exact foldlM_decodeState states ids 0 ([], []) (by omega)

/-- A good answer is decoded. -/
theorem queryOnlineStates_of_response {received : List Received} {states : List UInt8}
    (h : awaitResponse 2 received = .ok states) (ids : List String) :
    queryOnlineStates ids ⟨true, true, received⟩ = (decodeStates ids states).map .ok := by
  simp only [queryOnlineStates, h, Bool.not_true, Bool.false_eq_true, if_false]

/-- **Every reply is decoded** exactly if it has a byte for every id. -/
theorem decodes_iff (ids : List String) (states : List UInt8) :
    Decodes ids states ↔ ids.length ≤ 8 * states.length := by
  rw [← decodeStates_eq_some_iff]
  constructor
  · intro h
    have hquery := h [some (.onlineResponse states)] rfl
    rw [queryOnlineStates_of_response rfl] at hquery
    cases hdecoded : decodeStates ids states with
    | none =>
      rw [hdecoded] at hquery
      cases hquery
    | some decoded =>
      rw [hdecoded] at hquery
      exact congrArg some (Except.ok.inj (Option.some.inj hquery))
  · intro h received hreceived
    rw [queryOnlineStates_of_response hreceived, h]
    rfl

/-- The reply to a query for one peer has no byte. -/
theorem not_decodes_empty : ¬ ∀ ids states, Decodes ids states := by
  intro hall
  have hquery := hall ["152183996"] [] [some (.onlineResponse [])] rfl
  cases hquery

end PeerOnline

end RdWeb.Client
