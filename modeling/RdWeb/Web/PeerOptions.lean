import Mathlib.Data.Finset.Basic
import RdWeb.Lib.Machine
import RdWeb.Lib.OrderedMap

/-!
# The stored options of the peers

`peer_store.js` keeps the options of every peer as one object under the key `peers` of the
local storage. A connection of `session_base.ts` loads the options of its peer once, keeps
the copy, and writes the whole copy back at every `setOption`; the handlers of the bridge
read the stored object and change one field of it.
-/

namespace RdWeb.Web

/-- The options object of one peer. -/
abbrev PeerOptions (Value : Type*) := OrderedMap String Value

/-- The object stored under `peers`. -/
abbrev Peers (Value : Type*) := OrderedMap String (PeerOptions Value)

namespace PeerStore

variable {Value : Type*} (fromTime : ℕ → Value)

/-- The stored options of a peer, and none for an empty id. -/
def loadPeerOptions (peers : Peers Value) (peerId : String) : PeerOptions Value :=
  if peerId = "" then OrderedMap.empty else (peers.get? peerId).getD OrderedMap.empty

/-- `options["tm"] = new Date().getTime()`. -/
def stamp (options : PeerOptions Value) (now : ℕ) : PeerOptions Value :=
  options.set "tm" (fromTime now)

/-- Options are stored with the time. -/
def savePeerOptions (peers : Peers Value) (peerId : String) (options : PeerOptions Value)
    (now : ℕ) : Peers Value :=
  peers.set peerId (stamp fromTime options now)

/-- The field is deleted if the value is `undefined` or `null`, and else set. -/
def setField (options : PeerOptions Value) (name : String) (value : Option Value) :
    PeerOptions Value :=
  match value with
  | none => options.delete name
  | some value => options.set name value

/-- A single field is stored. -/
def setPeerField (peers : Peers Value) (peerId name : String) (value : Option Value)
    (now : ℕ) : Peers Value :=
  savePeerOptions fromTime peers peerId (setField (loadPeerOptions peers peerId) name value) now

end PeerStore

/-- What `setOption` uses of a connection. -/
structure OptionsCopy (Value : Type*) where
  id : String
  options : PeerOptions Value

namespace OptionsCopy

variable {Value : Type*} (fromTime : ℕ → Value)

/-- `prepareConnect`: the options of the peer are loaded. -/
def prepareConnect (peers : Peers Value) (id : String) : OptionsCopy Value :=
  ⟨id, PeerStore.loadPeerOptions peers id⟩

/-- `setOption`: the field is changed in the copy, and the copy is stored. -/
def setOption (conn : OptionsCopy Value) (peers : Peers Value) (name : String)
    (value : Option Value) (now : ℕ) : OptionsCopy Value × Peers Value :=
  let options := PeerStore.stamp fromTime (PeerStore.setField conn.options name value) now
  ({ conn with options := options },
    PeerStore.savePeerOptions fromTime peers conn.id options now)

end OptionsCopy

/-- The stored peers, the connections that were started, and the value each option of each
peer was last set to. -/
structure OptionsPage (Value : Type*) where
  peers : Peers Value
  conns : ℕ → Option (OptionsCopy Value)
  written : String → String → Option (Option Value)

/-- A connection starts, a connection sets an option, or the bridge does. -/
inductive OptionEvent (Value : Type*)
  | start (conn : ℕ) (id : String)
  | setOption (conn : ℕ) (name : String) (value : Option Value) (now : ℕ)
  | setPeerField (id name : String) (value : Option Value) (now : ℕ)

namespace OptionsPage

variable {Value : Type*} (fromTime : ℕ → Value)

/-- Record that an option was set. -/
def record (written : String → String → Option (Option Value)) (id name : String)
    (value : Option Value) : String → String → Option (Option Value) :=
  fun id' name' => if id' = id ∧ name' = name then some value else written id' name'

/-- One step of a page with its connections. -/
def step (s : OptionsPage Value) : OptionEvent Value → Option (OptionsPage Value)
  | .start c id =>
    match s.conns c with
    | none =>
      let conn := OptionsCopy.prepareConnect s.peers id
      some { s with conns := Function.update s.conns c (some conn) }
    | some _ => none
  | .setOption c name value now =>
    match s.conns c with
    | none => none
    | some conn =>
      let (conn', peers) := conn.setOption fromTime s.peers name value now
      some { peers := peers
             conns := Function.update s.conns c (some conn')
             written := record s.written conn.id name value }
  | .setPeerField id name value now =>
    some { s with
      peers := PeerStore.setPeerField fromTime s.peers id name value now
      written := record s.written id name value }

/-- A page that loads with the peers stored so far. -/
def machine (peers : Peers Value) : Machine (OptionsPage Value) (OptionEvent Value) :=
  ⟨⟨peers, fun _ => none, fun _ _ => none⟩, step fromTime⟩

/-- The value of an option of a peer in the store. -/
def stored (s : OptionsPage Value) (id name : String) : Option Value :=
  (PeerStore.loadPeerOptions s.peers id).get? name

/-- Every option that was set has the value it was last set to. -/
def LastWins (s : OptionsPage Value) : Prop :=
  ∀ id name value, s.written id name = some value → s.stored id name = value

/-! ### What a write leaves in the store -/

variable {fromTime} {s t : OptionsPage Value}

/-- The fields after one was set. -/
theorem get?_setField (options : PeerOptions Value) (name m : String) (value : Option Value) :
    (PeerStore.setField options name value).get? m =
      if m = name then value else options.get? m := by
  cases value <;> simp [PeerStore.setField]

/-- The fields after the time was set. -/
theorem get?_stamp (options : PeerOptions Value) (now : ℕ) (m : String) :
    (PeerStore.stamp fromTime options now).get? m =
      if m = "tm" then some (fromTime now) else options.get? m := by
  simp [PeerStore.stamp]

/-- Nothing is ever read under the empty id. -/
theorem get?_loadPeerOptions_save (peers : Peers Value) (id id' m : String)
    (options : PeerOptions Value) (now : ℕ) :
    (PeerStore.loadPeerOptions (PeerStore.savePeerOptions fromTime peers id options now)
        id').get? m =
      if id' ≠ id then (PeerStore.loadPeerOptions peers id').get? m
      else if id = "" then none
      else (PeerStore.stamp fromTime options now).get? m := by
  simp only [PeerStore.loadPeerOptions, PeerStore.savePeerOptions, OrderedMap.get?_set]
  split_ifs <;> simp_all

/-- The store after `options`, changed in one field, are stored for a peer. -/
def Writes (fromTime : ℕ → Value) (s t : OptionsPage Value) (options : PeerOptions Value)
    (id name : String) (value : Option Value) (now : ℕ) : Prop :=
  t.written = record s.written id name value ∧
    ∀ id' m, t.stored id' m =
      if id' ≠ id then s.stored id' m
      else if id = "" then none
      else if m = "tm" then some (fromTime now)
      else if m = name then value
      else options.get? m

/-- A write starts from options that agree with the store on every other option that was set;
it does not set the time stamp to anything but the time, and nothing for the empty id. -/
def Current (fromTime : ℕ → Value) (s : OptionsPage Value) (options : PeerOptions Value)
    (id name : String) (value : Option Value) (now : ℕ) : Prop :=
  if id = "" then value = none
  else (name = "tm" → value = some (fromTime now)) ∧
    ∀ m, m ≠ name → s.written id m ≠ none →
      (PeerStore.stamp fromTime options now).get? m = s.stored id m

/-- A write keeps the last values exactly if it starts from current options. -/
theorem Writes.lastWins_iff {options : PeerOptions Value} {id name : String}
    {value : Option Value} {now : ℕ} (h : Writes fromTime s t options id name value now)
    (hs : s.LastWins) : t.LastWins ↔ Current fromTime s options id name value now := by
  obtain ⟨hwritten, hstored⟩ := h
  have hself : t.written id name = some value := by simp [hwritten, record]
  have hother {m : String} (hm : m ≠ name) : t.written id m = s.written id m := by
    simp [hwritten, record, hm]
  constructor
  · intro ht
    rw [Current]
    split_ifs with hid
    · have hvalue := ht id name value hself
      simpa [hstored, hid] using hvalue.symm
    · refine ⟨fun htm => ?_, fun m hm hset => ?_⟩
      · have hvalue := ht id name value hself
        simpa [hstored, hid, htm] using hvalue.symm
      · obtain ⟨old, hold⟩ := Option.ne_none_iff_exists'.mp hset
        have hread := ht id m old (by rw [hother hm, hold])
        rw [hs id m old hold, ← hread, hstored, get?_stamp]
        simp [hid, hm]
  · intro hcurrent id' m old hold
    by_cases hid' : id' = id
    · subst hid'
      by_cases hm : m = name
      · subst hm
        obtain rfl := Option.some.inj (hself.symm.trans hold)
        rw [Current] at hcurrent
        split_ifs at hcurrent with hid
        · simp [hstored, hid, hcurrent]
        · by_cases htm : m = "tm"
          · simp [hstored, hid, htm, hcurrent.1 htm]
          · simp [hstored, hid, htm]
      · rw [hother hm] at hold
        have hread := hs id' m old hold
        rw [Current] at hcurrent
        split_ifs at hcurrent with hid
        · simpa [hstored, hid, stored, PeerStore.loadPeerOptions] using hread
        · have hkept := hcurrent.2 m hm (by simp [hold])
          rw [get?_stamp] at hkept
          rw [← hread, ← hkept, hstored]
          simp [hid, hm]
    · have hold' : s.written id' m = some old := by
        simpa [hwritten, record, hid'] using hold
      rw [hstored, if_pos hid']
      exact hs id' m old hold'

/-- The bridge writes over what is stored. -/
theorem writes_setPeerField (s : OptionsPage Value) (id name : String) (value : Option Value)
    (now : ℕ) (hstep : step fromTime s (.setPeerField id name value now) = some t) :
    Writes fromTime s t (PeerStore.loadPeerOptions s.peers id) id name value now := by
  obtain rfl := Option.some.inj hstep
  refine ⟨rfl, fun id' m => ?_⟩
  rw [stored, PeerStore.setPeerField, get?_loadPeerOptions_save, get?_stamp, get?_setField]
  rfl

/-- A connection writes over its copy. -/
theorem writes_setOption {c : ℕ} {conn : OptionsCopy Value} {name : String}
    {value : Option Value} {now : ℕ} (hconn : s.conns c = some conn)
    (hstep : step fromTime s (.setOption c name value now) = some t) :
    Writes fromTime s t conn.options conn.id name value now := by
  simp only [step, hconn, OptionsCopy.setOption] at hstep
  obtain rfl := Option.some.inj hstep
  refine ⟨rfl, fun id' m => ?_⟩
  rw [stored, get?_loadPeerOptions_save, get?_stamp, get?_stamp, get?_setField]
  by_cases htm : m = "tm" <;> simp [htm, stored]

/-- The write of the step starts from current options. -/
def UpToDate (fromTime : ℕ → Value) (s : OptionsPage Value) : OptionEvent Value → Prop
  | .start _ _ => True
  | .setOption c name value now => ∀ conn, s.conns c = some conn →
      Current fromTime s conn.options conn.id name value now
  | .setPeerField id name value now =>
    Current fromTime s (PeerStore.loadPeerOptions s.peers id) id name value now

/-- One step keeps the last values exactly if its write starts from current options. -/
theorem lastWins_step_iff {e : OptionEvent Value} (hstep : step fromTime s e = some t)
    (hs : s.LastWins) : t.LastWins ↔ UpToDate fromTime s e := by
  cases e with
  | start c id =>
    have hsame : t.written = s.written ∧ t.peers = s.peers := by
      rw [step] at hstep
      split at hstep
      · obtain rfl := Option.some.inj hstep
        exact ⟨rfl, rfl⟩
      · cases hstep
    refine iff_of_true ?_ trivial
    rw [LastWins]
    simp only [stored, hsame]
    exact hs
  | setOption c name value now =>
    cases hconn : s.conns c with
    | none => simp [step, hconn] at hstep
    | some conn =>
      rw [(writes_setOption hconn hstep).lastWins_iff hs]
      simp [UpToDate, hconn]
  | setPeerField id name value now =>
    exact (writes_setPeerField s id name value now hstep).lastWins_iff hs

/-- A handler of the bridge starts from what is stored, so it is up to date unless the peer id
is empty or the time stamp is used as an option. -/
theorem current_loadPeerOptions {id name : String} (hid : id ≠ "") (hname : name ≠ "tm")
    (htm : s.written id "tm" = none) (value : Option Value) (now : ℕ) :
    Current fromTime s (PeerStore.loadPeerOptions s.peers id) id name value now := by
  rw [Current, if_neg hid]
  refine ⟨fun h => absurd h hname, fun m _ hset => ?_⟩
  have hm : m ≠ "tm" := by
    rintro rfl
    exact hset htm
  rw [get?_stamp, if_neg hm, stored]

/-- **Options of a peer.** In a run of connections and bridge handlers, after every prefix each
option has the value it was last set to, if and only if every write starts from current
options. -/
theorem lastWins_iff_upToDate (peers : Peers Value) {events : List (OptionEvent Value)}
    (hrun : (machine fromTime peers).Run (machine fromTime peers).init events s) :
    (∀ first u, first <+: events →
      (machine fromTime peers).Run (machine fromTime peers).init first u → u.LastWins) ↔
      (machine fromTime peers).RunWhere (UpToDate fromTime) (machine fromTime peers).init
        events s := by
  refine Machine.runWhere_iff_invariant (fun _ _ _ hstep => lastWins_step_iff hstep) ?_ hrun
  intro id name value hnone
  cases hnone

/-- The page of the examples: nothing is stored, and values are texts. -/
def demoMachine : Machine (OptionsPage String) (OptionEvent String) :=
  machine toString OrderedMap.empty

/-- The bridge sets an option, then a connection starts and sets another one. -/
def inTurn : List (OptionEvent String) :=
  [.setPeerField "a" "x" (some "1") 5, .start 0 "a", .setOption 0 "y" (some "2") 6]

/-- The page after these calls. -/
def afterInTurn : OptionsPage String :=
  (demoMachine.replay demoMachine.init inTurn).getD demoMachine.init

/-- The equivalence on a run of calls that come one after the other. -/
theorem lastWins_iff_upToDate_inTurn :
    (∀ first u, first <+: inTurn → demoMachine.Run demoMachine.init first u → u.LastWins) ↔
      demoMachine.RunWhere (UpToDate toString) demoMachine.init inTurn afterInTurn :=
  lastWins_iff_upToDate OrderedMap.empty (Machine.run_of_replay rfl)

/-- Two connections to one peer: the second one loaded the options before the first one set
the image quality, and removes it again when it sets another option. -/
def overlapping : List (OptionEvent String) :=
  [.start 0 "a", .start 1 "a", .setOption 0 "image-quality" (some "low") 5,
    .setOption 1 "remember" (some "true") 6]

/-- The page after these calls. -/
def afterOverlapping : OptionsPage String :=
  (demoMachine.replay demoMachine.init overlapping).getD demoMachine.init

/-- Two connections of one peer, the second of which writes an old copy back. -/
theorem not_lastWins_overlapping :
    ¬ ∀ events s, demoMachine.Run demoMachine.init events s → s.LastWins := by
  intro hall
  have hlast := hall overlapping afterOverlapping (Machine.run_of_replay rfl)
  have hread := hlast "a" "image-quality" (some "low") (by decide)
  revert hread
  decide

end OptionsPage

end RdWeb.Web
