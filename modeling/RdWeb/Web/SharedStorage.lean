import RdWeb.Lib.Machine
import RdWeb.Web.CustomConfig
import RdWeb.Web.ViewerSafety

/-!
# Viewers that share a storage

All viewers of one origin read and write one `localStorage`. A hand-over leaves the server and the
key of its session there, each page loads the configuration it carries, and the user interface sets
options. What a viewer reads can therefore be what another one has written.
-/

namespace RdWeb.Web

variable {PrivateKey PublicKey AesKey : Type}

/-- What a hand-over leaves in the storage. -/
def MessageData.store (data : MessageData) (storage : LocalStorage) : LocalStorage :=
  (storage.setItem "override:custom-rendezvous-server" data.server).setItem "override:key" data.key

/-- The viewers of an origin, their storage, and the sessions they have taken, in order. -/
structure Browser (PrivateKey PublicKey : Type) where
  viewers : List (Viewer PrivateKey PublicKey)
  storage : LocalStorage
  accepted : List (ℕ × MessageEvent)

/-- What happens in the browser. -/
inductive BrowserEvent (PrivateKey PublicKey : Type)
  | opened (opener parent : Option WindowId) (parentOrigin : Option String)
  | viewer (i : ℕ) (e : ViewerEvent PrivateKey PublicKey)
  /-- `loadCustomConfig` of some page. -/
  | configLoaded (text : List Char)
  /-- The bridge sets an option. -/
  | optionSet (key value : String)

namespace Browser

variable (page : ViewerPage PrivateKey PublicKey AesKey)

/-- A step of one of its viewers, which may store what it was handed. -/
def viewerStep (s : Browser PrivateKey PublicKey) (i : ℕ) (v : Viewer PrivateKey PublicKey)
    (e : ViewerEvent PrivateKey PublicKey) : Option (Browser PrivateKey PublicKey) :=
  (v.step page e).map fun t =>
    let viewers := s.viewers.set i t
    match v.accepts e with
    | some m => ⟨viewers, m.data.store s.storage, s.accepted ++ [(i, m)]⟩
    | none => { s with viewers := viewers }

/-- One step of the browser. -/
def step (s : Browser PrivateKey PublicKey) :
    BrowserEvent PrivateKey PublicKey → Option (Browser PrivateKey PublicKey)
  | .opened opener parent parentOrigin =>
    some { s with viewers := s.viewers ++ [.opened opener parent parentOrigin] }
  | .viewer i e => s.viewers[i]?.bind fun v => s.viewerStep page i v e
  | .configLoaded text => some { s with storage := loadCustomConfig text s.storage }
  | .optionSet key value => some { s with storage := s.storage.setItem key value }

end Browser

/-- The browser without any page. -/
def browserMachine (page : ViewerPage PrivateKey PublicKey AesKey) :
    Machine (Browser PrivateKey PublicKey) (BrowserEvent PrivateKey PublicKey) where
  init := ⟨[], fun _ => none, []⟩
  step := Browser.step page

namespace Browser

/-! ### Two viewers of one page -/

/-- The browser of the sample token. An exported key is its tag and its byte. -/
def samplePage : ViewerPage UInt8 UInt8 UInt8 where
  toViewerCrypto := SampleToken.crypto
  exportSpki publicKey := .ok [0x30, publicKey]

/-- A session that the window `i` hands to the viewer it opened. -/
def offer (i : ℕ) (key : String) : MessageEvent where
  data :=
    { type := "REMOTE_SESSION_READY", remoteSessionId := "r", clientId := "c"
      encryptedToken := "e30=", server := "relay", key := key }
  origin := "https://host"
  source := i

/-- The viewer `i` is opened, makes its key, tells it and takes the session. -/
def handsOver (i : ℕ) (key : String) : List (BrowserEvent UInt8 UInt8) :=
  [.opened (some i) none (some "https://host"), .viewer i (.keyGenerated (2, 9)),
    .viewer i .keyExported, .viewer i (.message (offer i key))]

/-- Two viewers, each with a session of its own. -/
def twoSessions : List (BrowserEvent UInt8 UInt8) := handsOver 0 "first" ++ handsOver 1 "second"

/-- The browser after some events. -/
def afterEvents (events : List (BrowserEvent UInt8 UInt8)) : Browser UInt8 UInt8 :=
  ((browserMachine samplePage).replay (browserMachine samplePage).init events).getD
    (browserMachine samplePage).init

/-- The browser after two sessions. -/
def afterTwo : Browser UInt8 UInt8 := afterEvents twoSessions

variable {page : ViewerPage PrivateKey PublicKey AesKey} {s t : Browser PrivateKey PublicKey}

/-! ### Every viewer by itself -/

/-- It writes neither the key nor the server that a hand-over leaves. -/
def LeavesHandOver : BrowserEvent PrivateKey PublicKey → Prop
  | .configLoaded text =>
    settingOf (customConfig text) "override-settings" "key" = none ∧
      settingOf (customConfig text) "override-settings" "custom-rendezvous-server" = none
  | .optionSet key _ => key ≠ "override:key" ∧ key ≠ "override:custom-rendezvous-server"
  | _ => True

/-- What the storage has of the last session that was taken. -/
structure Holds (storage : LocalStorage) (data : MessageData) : Prop where
  key : storage "override:key" = some data.key
  server : storage "override:custom-rendezvous-server" = some data.server

/-- What was just stored is held. -/
theorem holds_store (data : MessageData) (storage : LocalStorage) :
    Holds (data.store storage) data where
  key := by simp [MessageData.store, LocalStorage.setItem]
  server := by simp [MessageData.store, LocalStorage.setItem]

/-- Loading a configuration keeps what is held if it sets neither item. -/
theorem Holds.load {storage : LocalStorage} {data : MessageData} (h : Holds storage data)
    {text : List Char}
    (hkey : settingOf (customConfig text) "override-settings" "key" = none)
    (hserver : settingOf (customConfig text) "override-settings" "custom-rendezvous-server" =
      none) : Holds (loadCustomConfig text storage) data where
  key := by
    have hload := loadCustomConfig_override text storage "key"
    rw [hkey, Option.none_or] at hload
    exact hload.trans h.key
  server := by
    have hload := loadCustomConfig_override text storage "custom-rendezvous-server"
    rw [hserver, Option.none_or] at hload
    exact hload.trans h.server

/-- The storage has the last session that was taken. -/
def Held (s : Browser PrivateKey PublicKey) : Prop :=
  ∀ p ∈ s.accepted.getLast?, Holds s.storage p.2.data

/-- At first no session has begun. -/
theorem held_init : (browserMachine page).init.Held := by simp [Held, browserMachine]

/-- A session that is taken is stored, and nothing else overwrites it. -/
theorem Held.step {e : BrowserEvent PrivateKey PublicKey} (hok : LeavesHandOver e)
    (hstep : s.step page e = some t) (h : s.Held) : t.Held := by
  cases e with
  | opened opener parent parentOrigin =>
    rw [← Option.some.inj hstep]
    exact h
  | viewer i e =>
    obtain ⟨v, -, hviewer⟩ := Option.bind_eq_some_iff.mp hstep
    obtain ⟨v', -, rfl⟩ := Option.map_eq_some_iff.mp hviewer
    cases haccepts : v.accepts e with
    | none => exact h
    | some m =>
      simp only [Held, List.getLast?_concat, Option.mem_some_iff, forall_eq']
      exact holds_store m.data s.storage
  | configLoaded text =>
    rw [← Option.some.inj hstep]
    exact fun p hp => (h p hp).load hok.1 hok.2
  | optionSet key value =>
    rw [← Option.some.inj hstep]
    intro p hp
    constructor
    · simpa [LocalStorage.setItem, Ne.symm hok.1] using (h p hp).key
    · simpa [LocalStorage.setItem, Ne.symm hok.2] using (h p hp).server

/-- Along a run that leaves the items alone every session holds its own. -/
theorem held_of_run {events : List (BrowserEvent PrivateKey PublicKey)}
    (hrun : (browserMachine page).RunWhere (fun _ => LeavesHandOver) (browserMachine page).init
      events s) : s.Held :=
  hrun.invariant (fun _ _ _ hok hstep h => h.step hok hstep) held_init

/-- The options of a session are those it was handed. -/
theorem getEffectiveOption_of_holds {storage : LocalStorage} {data : MessageData}
    (h : Holds storage data) :
    getEffectiveOption storage "key" = data.key ∧
      getEffectiveOption storage "custom-rendezvous-server" = data.server := by
  have hkey : storage ("override:" ++ "key") = some data.key := h.key
  have hserver : storage ("override:" ++ "custom-rendezvous-server") = some data.server := h.server
  exact ⟨by rw [getEffectiveOption, hkey], by rw [getEffectiveOption, hserver]⟩

/-- **Shared storage.** The session that a viewer took reads the key and the server of its own
hand-over exactly as long as the last viewer that took a session was given the same two. -/
theorem reads_own_iff {events : List (BrowserEvent PrivateKey PublicKey)}
    (hrun : (browserMachine page).RunWhere (fun _ => LeavesHandOver) (browserMachine page).init
      events s) {i : ℕ} {m : MessageEvent} (hm : (i, m) ∈ s.accepted) :
    (getEffectiveOption s.storage "key" = m.data.key ∧
        getEffectiveOption s.storage "custom-rendezvous-server" = m.data.server) ↔
      ∃ j last, s.accepted.getLast? = some (j, last) ∧ last.data.key = m.data.key ∧
        last.data.server = m.data.server := by
  obtain ⟨⟨j, last⟩, hlast⟩ := Option.isSome_iff_exists.mp
    (List.getLast?_isSome.mpr (List.ne_nil_of_mem hm))
  obtain ⟨hkey, hserver⟩ := getEffectiveOption_of_holds (held_of_run hrun _ hlast)
  rw [hkey, hserver]
  constructor
  · exact fun h => ⟨j, last, hlast, h⟩
  · rintro ⟨j', last', hlast', h⟩
    obtain ⟨-, rfl⟩ := Prod.mk.inj (Option.some.inj (hlast.symm.trans hlast'))
    exact h

/-- The first viewer does not read its own key any more. -/
theorem reads_own_iff_twoSessions :
    ¬(getEffectiveOption afterTwo.storage "key" = "first" ∧
      getEffectiveOption afterTwo.storage "custom-rendezvous-server" = "relay") := by
  have hrun : (browserMachine samplePage).RunWhere (fun _ => LeavesHandOver)
      (browserMachine samplePage).init twoSessions afterTwo :=
    .cons trivial rfl (.cons trivial rfl (.cons trivial rfl (.cons trivial rfl
      (.cons trivial rfl (.cons trivial rfl (.cons trivial rfl (.cons trivial rfl (.nil _))))))))
  have hfirst : (0, offer 0 "first") ∈ afterTwo.accepted := List.mem_of_getElem? (i := 0) rfl
  intro hreads
  obtain ⟨j, last, hlast, hkey, -⟩ := (reads_own_iff hrun hfirst).mp hreads
  have hsecond : afterTwo.accepted.getLast? = some (1, offer 1 "second") := rfl
  obtain ⟨-, rfl⟩ := Prod.mk.inj (Option.some.inj (hsecond.symm.trans hlast))
  exact absurd hkey (by decide)

end Browser

end RdWeb.Web
