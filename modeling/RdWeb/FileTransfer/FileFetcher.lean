import RdWeb.FileTransfer.SortedListing
import RdWeb.Lib.Machine

/-!
# Pending directory fetches

`FileFetcher` of `file_model.dart` keeps the completers of the fetches under way in three maps.
Beside each completer a timer is made; it is never cancelled, and what it removes is whatever the
map holds under the key by then.
-/

namespace RdWeb.FileTransfer

open SortedListing (Entry)

/-- What a listing answers with: `id` is the job of a recursive read, 0 for a plain one. -/
structure FileDirectory where
  entries : List Entry
  id : ℤ
  path : String

/-- The answer to a read of the empty directories. -/
structure EmptyDirs where
  path : String
  emptyDirs : List FileDirectory

/-- The key of a fetch: one of the three maps, and a key of that map. -/
inductive TaskKey
  | emptyDirs (path : String)
  | read (path : String)
  | readRecursive (actID : ℤ)
  deriving DecidableEq

/-- The value of a completed future. -/
inductive FetchResult
  | directory (fd : FileDirectory)
  | directories (fds : List FileDirectory)
  | error (message : String)

/-- A completer, with the key and the timer of its fetch. All calls that complete it are kept;
a second one would throw. -/
structure Completer where
  key : TaskKey
  results : List FetchResult
  timerFired : Bool

namespace Completer

/-- A completer completes with its first result. -/
def isCompleted (c : Completer) : Bool := !c.results.isEmpty

/-- A completer gets a result. -/
def complete (result : FetchResult) (c : Completer) : Completer :=
  { c with results := c.results ++ [result] }

/-- What the timer does to its own completer. -/
def timeout (message : String) (c : Completer) : Completer :=
  if c.isCompleted then { c with timerFired := true }
  else { c.complete (.error message) with timerFired := true }

/-- Neither answered nor timed out. -/
def Pending (c : Completer) : Prop := c.results = [] ∧ c.timerFired = false

/-- Completed at most once, and completed when the timer has fired. -/
def Once (c : Completer) : Prop :=
  c.results.length ≤ 1 ∧ (c.timerFired = true → c.results.length = 1)

/-- A pending completer has at most one result. -/
theorem Pending.once {c : Completer} (h : c.Pending) : c.Once := by
  simp [Once, h.1, h.2]

/-- A pending completer is completed by an answer. -/
theorem Pending.results_complete {c : Completer} (h : c.Pending) (result : FetchResult) :
    (c.complete result).results = [result] := by
  simp [complete, h.1]

/-- A pending completer may get a result. -/
theorem Pending.once_complete {c : Completer} (h : c.Pending) (result : FetchResult) :
    (c.complete result).Once := by
  simp [Once, h.results_complete]

/-- The timer leaves its own completer completed once. -/
theorem Once.timeout {c : Completer} (h : c.Once) (message : String) :
    (c.timeout message).Once ∧ (c.timeout message).timerFired = true := by
  obtain ⟨key, results, fired⟩ := c
  have hle : results.length ≤ 1 := h.1
  cases results with
  | nil => simp [Completer.timeout, isCompleted, complete, Once]
  | cons result rest =>
    have hrest : rest = [] := by simpa using hle
    simp [Completer.timeout, isCompleted, Once, hrest]

end Completer

/-- The maps hold numbers of completers; `completers` are all that were ever made. -/
structure FileFetcher where
  remoteTasks : OrderedMap String ℕ
  remoteEmptyDirsTasks : OrderedMap String ℕ
  readRecursiveTasks : OrderedMap ℤ ℕ
  completers : List Completer

namespace FileFetcher

/-- No fetch was ever registered. -/
def empty : FileFetcher := ⟨.empty, .empty, .empty, []⟩

/-- The completer that the map of the key holds. -/
def task? (f : FileFetcher) : TaskKey → Option ℕ
  | .emptyDirs path => f.remoteEmptyDirsTasks.get? path
  | .read path => f.remoteTasks.get? path
  | .readRecursive actID => f.readRecursiveTasks.get? actID

/-- `tasks[key] = c`. -/
def setTask (f : FileFetcher) (n : ℕ) : TaskKey → FileFetcher
  | .emptyDirs path => { f with remoteEmptyDirsTasks := f.remoteEmptyDirsTasks.set path n }
  | .read path => { f with remoteTasks := f.remoteTasks.set path n }
  | .readRecursive actID => { f with readRecursiveTasks := f.readRecursiveTasks.set actID n }

/-- `tasks.remove(key)`. -/
def removeTask (f : FileFetcher) : TaskKey → FileFetcher
  | .emptyDirs path => { f with remoteEmptyDirsTasks := f.remoteEmptyDirsTasks.delete path }
  | .read path => { f with remoteTasks := f.remoteTasks.delete path }
  | .readRecursive actID => { f with readRecursiveTasks := f.readRecursiveTasks.delete actID }

/-- A change of one completer. -/
def change (f : FileFetcher) (n : ℕ) (g : Completer → Completer) : FileFetcher :=
  { f with completers := f.completers.modify n g }

/-- What the three `register` functions share; `Except.error` is a `throw`. -/
def register (f : FileFetcher) (key : TaskKey) (message : String) :
    Except String (FileFetcher × ℕ) :=
  match f.task? key with
  | some _ => .error message
  | none =>
    let n := f.completers.length
    .ok ({ f with completers := f.completers ++ [Completer.mk key [] false] }.setTask n key, n)

/-- A read of all empty directories is registered under its path. -/
def registerReadEmptyDirsTask (f : FileFetcher) (_isLocal : Bool) (path : String) :
    Except String (FileFetcher × ℕ) :=
  f.register (.emptyDirs path)
    "Failed to registerReadEmptyDirsTask, already have same read job"

/-- A read of a directory is registered under its path. -/
def registerReadTask (f : FileFetcher) (_isLocal : Bool) (path : String) :
    Except String (FileFetcher × ℕ) :=
  f.register (.read path) "Failed to registerReadTask, already have same read job"

/-- A recursive read is registered under its id. -/
def registerReadRecursiveTask (f : FileFetcher) (actID : ℤ) : Except String (FileFetcher × ℕ) :=
  f.register (.readRecursive actID)
    "Failed to registerRemoveTask, already have same ReadRecursive job"

/-- The error of a timer. -/
def timeoutMessage : TaskKey → String
  | .emptyDirs _ => "Failed to read empty dirs, timeout"
  | .read _ | .readRecursive _ => "Failed to read dir, timeout"

/-- The timer of completer `n`: it removes by key, whichever completer the map holds. -/
def expire (f : FileFetcher) (n : ℕ) (c : Completer) : FileFetcher :=
  (f.removeTask c.key).change n (.timeout (timeoutMessage c.key))

/-- `tasks.remove(key)?.complete(result)`. -/
def answer (f : FileFetcher) (key : TaskKey) (result : FetchResult) : FileFetcher :=
  match f.task? key with
  | none => f
  | some n => (f.removeTask key).change n (.complete result)

/-- `tryCompleteEmptyDirsTask`; `none` is a message that is missing or does not parse. -/
def tryCompleteEmptyDirsTask (f : FileFetcher) : Option EmptyDirs → FileFetcher
  | none => f
  | some dirs => f.answer (.emptyDirs dirs.path) (.directories dirs.emptyDirs)

/-- `tryCompleteTask`; `none` is a message that is missing or does not parse. -/
def tryCompleteTask (f : FileFetcher) : Option FileDirectory → FileFetcher
  | none => f
  | some fd =>
    if 0 < fd.id then f.answer (.readRecursive fd.id) (.directory fd)
    else if fd.path ≠ "" then f.answer (.read fd.path) (.directory fd)
    else f

/-- The calls of a fetcher, and its timers. -/
inductive Event
  | registerReadEmptyDirsTask (isLocal : Bool) (path : String)
  | registerReadTask (isLocal : Bool) (path : String)
  | registerReadRecursiveTask (actID : ℤ)
  | tryCompleteEmptyDirsTask (msg : Option EmptyDirs)
  | tryCompleteTask (msg : Option FileDirectory)
  /-- the timer made beside completer `n` -/
  | timer (n : ℕ)

/-- A call that throws changes nothing. -/
def registered (f : FileFetcher) : Except String (FileFetcher × ℕ) → FileFetcher
  | .ok (f', _) => f'
  | .error _ => f

/-- A timer fires once. -/
def step (f : FileFetcher) : Event → Option FileFetcher
  | .registerReadEmptyDirsTask isLocal path =>
    some (f.registered (f.registerReadEmptyDirsTask isLocal path))
  | .registerReadTask isLocal path => some (f.registered (f.registerReadTask isLocal path))
  | .registerReadRecursiveTask actID => some (f.registered (f.registerReadRecursiveTask actID))
  | .tryCompleteEmptyDirsTask msg => some (f.tryCompleteEmptyDirsTask msg)
  | .tryCompleteTask msg => some (f.tryCompleteTask msg)
  | .timer n =>
    match f.completers[n]? with
    | some c => if c.timerFired then none else some (f.expire n c)
    | none => none

/-- Any calls in any order, the timers whenever they may. -/
def machine : Machine FileFetcher Event := ⟨empty, step⟩

/-- The fetch an event answers, and with what. -/
def Event.answer? : Event → Option (TaskKey × FetchResult)
  | .tryCompleteEmptyDirsTask (some dirs) =>
    some (.emptyDirs dirs.path, .directories dirs.emptyDirs)
  | .tryCompleteTask (some fd) =>
    some (if 0 < fd.id then .readRecursive fd.id else .read fd.path, .directory fd)
  | _ => none

/-- A fetch ends by its own answer or its own timeout: what one step may do. -/
structure Fair (f : FileFetcher) (e : Event) (f' : FileFetcher) : Prop where
  removed : ∀ key n, f.task? key = some n → f'.task? key ≠ some n →
    (∃ result, e.answer? = some (key, result)) ∨ e = .timer n
  answered : ∀ (n : ℕ) (c : Completer) result, f.completers[n]? = some c → c.Pending →
    e.answer? = some (c.key, result) →
    ∃ c' : Completer, f'.completers[n]? = some c' ∧ c'.results = [result]
  once : ∀ (n : ℕ) (c : Completer), f'.completers[n]? = some c → c.Once

/-- A timer does not fire while its key is registered anew, and no answer without a job and a
path arrives while the path `""` is registered. -/
def Careful (f : FileFetcher) : Event → Prop
  | .timer n => ∀ (c : Completer) m, f.completers[n]? = some c → f.task? c.key = some m → m = n
  | .tryCompleteTask (some fd) => fd.id ≤ 0 → fd.path = "" → f.task? (.read "") = none
  | _ => True

/-- Whether an event is careful is decided by the tasks. -/
instance (f : FileFetcher) (e : Event) : Decidable (Careful f e) :=
  match e with
  | .timer n =>
    decidable_of_iff (∀ c ∈ f.completers[n]?, ∀ m ∈ f.task? c.key, m = n)
      ⟨fun h c m hget => h c hget m, fun h c hget m => h c m hget⟩
  | .tryCompleteTask (some fd) =>
    inferInstanceAs (Decidable (fd.id ≤ 0 → fd.path = "" → f.task? (.read "") = none))
  | .tryCompleteTask none | .registerReadEmptyDirsTask _ _ | .registerReadTask _ _
  | .registerReadRecursiveTask _ | .tryCompleteEmptyDirsTask _ => isTrue trivial

section Maps

variable (f : FileFetcher) (n : ℕ) (key : TaskKey)

/-- Setting a task keeps the completers. -/
@[simp] theorem completers_setTask : (f.setTask n key).completers = f.completers := by
  cases key <;> rfl

/-- Removing a task keeps the completers. -/
@[simp] theorem completers_removeTask : (f.removeTask key).completers = f.completers := by
  cases key <;> rfl

/-- The tasks after one was set. -/
theorem task?_setTask (key' : TaskKey) :
    (f.setTask n key).task? key' = if key' = key then some n else f.task? key' := by
  cases key <;> cases key' <;> simp [setTask, task?]

/-- The tasks after one was removed. -/
theorem task?_removeTask (key' : TaskKey) :
    (f.removeTask key).task? key' = if key' = key then none else f.task? key' := by
  cases key <;> cases key' <;> simp [removeTask, task?]

/-- Changing a completer keeps the tasks. -/
@[simp] theorem task?_change (g : Completer → Completer) :
    (f.change n g).task? key = f.task? key := by
  cases key <;> rfl

/-- The completers after a fetch was taken out of its map and one completer changed. -/
theorem getElem?_change_removeTask (g : Completer → Completer) (m : ℕ) :
    ((f.removeTask key).change n g).completers[m]? =
      if n = m then f.completers[m]?.map g else f.completers[m]? := by
  rw [change, completers_removeTask, List.getElem?_modify]
  split <;> simp

end Maps

/-- The state after a fetch was registered. -/
def fetching (f : FileFetcher) (key : TaskKey) : FileFetcher :=
  { f with completers := f.completers ++ [Completer.mk key [] false] }.setTask
    f.completers.length key

/-- The tasks after a fetch. -/
theorem task?_fetching (f : FileFetcher) (key key' : TaskKey) :
    (f.fetching key).task? key' =
      if key' = key then some f.completers.length else f.task? key' := by
  rw [fetching, task?_setTask]
  cases key' <;> rfl

/-- A fetch has one completer more. -/
theorem completers_fetching (f : FileFetcher) (key : TaskKey) :
    (f.fetching key).completers = f.completers ++ [⟨key, [], false⟩] := by
  rw [fetching, completers_setTask]

/-- What an event can do. -/
inductive Effect (f : FileFetcher) (e : Event) : FileFetcher → Prop
  /-- nothing, and then an answer finds no fetch, or it is one that the condition excludes -/
  | same (hanswer : Careful f e ↔ ∀ key result, e.answer? = some (key, result) →
      f.task? key = none) (htimer : ∀ n, e ≠ .timer n) : Effect f e f
  | register (key : TaskKey) (hanswer : e.answer? = none) (htimer : ∀ n, e ≠ .timer n)
      (hcareful : Careful f e) (hkey : f.task? key = none) : Effect f e (f.fetching key)
  | answer (key : TaskKey) (result : FetchResult) (n : ℕ) (hanswer : e.answer? = some (key, result))
      (hcareful : Careful f e) (htask : f.task? key = some n) :
      Effect f e ((f.removeTask key).change n (.complete result))
  | timer (n : ℕ) (c : Completer) (hevent : e = .timer n) (hget : f.completers[n]? = some c)
      (hfired : c.timerFired = false) : Effect f e (f.expire n c)

/-- The `register` functions throw and change nothing, or make a completer. -/
theorem effect_register {f : FileFetcher} {e : Event} (key : TaskKey) (message : String)
    (hanswer : e.answer? = none) (htimer : ∀ n, e ≠ .timer n) (hcareful : Careful f e) :
    Effect f e (f.registered (f.register key message)) := by
  cases htask : f.task? key with
  | some n =>
    simp only [register, htask, registered]
    exact .same (iff_of_true hcareful (by simp [hanswer])) htimer
  | none =>
    simp only [register, htask, registered]
    exact .register key hanswer htimer hcareful htask

/-- An answer takes out what the map holds under its key. -/
theorem effect_answer {f : FileFetcher} {e : Event} {key : TaskKey} {result : FetchResult}
    (hanswer : e.answer? = some (key, result)) (htimer : ∀ n, e ≠ .timer n)
    (hcareful : Careful f e) : Effect f e (f.answer key result) := by
  unfold FileFetcher.answer
  cases htask : f.task? key with
  | some n => exact .answer key result n hanswer hcareful htask
  | none =>
    refine .same (iff_of_true hcareful ?_) htimer
    rintro key' result' hanswer'
    obtain ⟨rfl, rfl⟩ : key = key' ∧ result = result' := by simpa [hanswer] using hanswer'
    exact htask

/-- Every step has one of these effects. -/
theorem effect_of_step {f f' : FileFetcher} {e : Event} (h : step f e = some f') :
    Effect f e f' := by
  cases e with
  | registerReadEmptyDirsTask isLocal path =>
    obtain rfl := Option.some.inj h
    exact effect_register _ _ rfl (by simp) trivial
  | registerReadTask isLocal path =>
    obtain rfl := Option.some.inj h
    exact effect_register _ _ rfl (by simp) trivial
  | registerReadRecursiveTask actID =>
    obtain rfl := Option.some.inj h
    exact effect_register _ _ rfl (by simp) trivial
  | tryCompleteEmptyDirsTask msg =>
    obtain rfl := Option.some.inj h
    cases msg with
    | none => exact .same (iff_of_true trivial (by simp [Event.answer?])) (by simp)
    | some dirs => exact effect_answer rfl (by simp) trivial
  | tryCompleteTask msg =>
    obtain rfl := Option.some.inj h
    cases msg with
    | none => exact .same (iff_of_true trivial (by simp [Event.answer?])) (by simp)
    | some fd =>
      by_cases hid : 0 < fd.id
      · rw [tryCompleteTask, if_pos hid]
        exact effect_answer (by simp [Event.answer?, hid]) (by simp)
          fun hid' _ => absurd hid (by omega)
      by_cases hpath : fd.path = ""
      · rw [tryCompleteTask, if_neg hid, if_neg (by simpa using hpath)]
        exact .same (by simp [Careful, Event.answer?, hid, hpath, Int.not_lt.mp hid]) (by simp)
      · rw [tryCompleteTask, if_neg hid, if_pos hpath]
        exact effect_answer (by simp [Event.answer?, hid]) (by simp) fun _ h => absurd h hpath
  | timer n =>
    simp only [step] at h
    split at h
    · rename_i c hget
      split_ifs at h with hfired
      obtain rfl := Option.some.inj h
      exact .timer n c rfl hget (by simpa using hfired)
    · cases h

/-- What every run keeps: the maps hold pending completers under their own keys, and no completer
is completed twice. -/
structure Linked (f : FileFetcher) : Prop where
  pending : ∀ key n, f.task? key = some n →
    ∃ c : Completer, f.completers[n]? = some c ∧ c.key = key ∧ c.Pending
  once : ∀ (n : ℕ) (c : Completer), f.completers[n]? = some c → c.Once

/-- An empty fetcher is linked. -/
theorem linked_empty : Linked empty :=
  ⟨fun key n h => by cases key <;> simp [empty, task?] at h, fun n c h => by simp [empty] at h⟩

/-- The registered fetch is the last completer. -/
theorem getElem?_fetching {f : FileFetcher} {key : TaskKey} {n : ℕ} {c : Completer}
    (h : (f.fetching key).completers[n]? = some c) :
    f.completers[n]? = some c ∨ n = f.completers.length ∧ c = ⟨key, [], false⟩ := by
  rw [completers_fetching] at h
  rcases Nat.lt_or_ge n f.completers.length with hn | hn
  · exact .inl (by rwa [List.getElem?_append_left hn] at h)
  · rw [List.getElem?_append_right hn] at h
    have hzero : n - f.completers.length = 0 := by
      have hlt := (List.getElem?_eq_some_iff.mp h).1
      simpa using hlt
    refine .inr ⟨by omega, ?_⟩
    simpa [hzero] using h.symm

/-- A completer stays where it is when another one is made. -/
theorem getElem?_fetching_of_some {f : FileFetcher} (key : TaskKey) {n : ℕ} {c : Completer}
    (h : f.completers[n]? = some c) : (f.fetching key).completers[n]? = some c := by
  have hn := (List.getElem?_eq_some_iff.mp h).1
  rw [completers_fetching, List.getElem?_append_left hn]
  exact h

/-- The completers after one of them left its map: the changed one, and the others. -/
theorem getElem?_changed {f : FileFetcher} {key : TaskKey} {n m : ℕ} {g : Completer → Completer}
    {c : Completer} (h : ((f.removeTask key).change n g).completers[m]? = some c) :
    (n = m ∧ ∃ c₀, f.completers[m]? = some c₀ ∧ c = g c₀) ∨
      (n ≠ m ∧ f.completers[m]? = some c) := by
  rw [getElem?_change_removeTask] at h
  split_ifs at h with hnm
  · obtain ⟨c₀, hget, rfl⟩ := Option.map_eq_some_iff.mp h
    exact .inl ⟨hnm, c₀, hget, rfl⟩
  · exact .inr ⟨hnm, h⟩

/-- The other fetches stay linked when the one under a key is taken out. -/
theorem Linked.pending_changed {f : FileFetcher} (h : Linked f) {key : TaskKey} {n : ℕ}
    {c : Completer} (g : Completer → Completer) (hget : f.completers[n]? = some c)
    (hkey : c.key = key) {key' : TaskKey} {m : ℕ}
    (htask : ((f.removeTask key).change n g).task? key' = some m) :
    ∃ c : Completer, ((f.removeTask key).change n g).completers[m]? = some c ∧
      c.key = key' ∧ c.Pending := by
  rw [task?_change, task?_removeTask] at htask
  split_ifs at htask with hne
  obtain ⟨c', hget', hkey', hpending⟩ := h.pending key' m htask
  have hnm : n ≠ m := by
    rintro rfl
    obtain rfl : c = c' := Option.some.inj (hget.symm.trans hget')
    exact hne (hkey'.symm.trans hkey)
  refine ⟨c', ?_, hkey', hpending⟩
  rw [getElem?_change_removeTask, if_neg hnm]
  exact hget'

/-- Every step keeps the links. -/
theorem linked_of_step {f f' : FileFetcher} {e : Event} (hstep : step f e = some f')
    (h : Linked f) : Linked f' := by
  cases effect_of_step hstep with
  | same => exact h
  | register key _ _ _ hkey =>
    constructor
    · intro key' n htask
      rw [task?_fetching] at htask
      split_ifs at htask with heq
      · obtain rfl := Option.some.inj htask
        exact ⟨⟨key, [], false⟩, by simp [completers_fetching], heq.symm, rfl, rfl⟩
      · obtain ⟨c, hget, hc⟩ := h.pending key' n htask
        exact ⟨c, getElem?_fetching_of_some key hget, hc⟩
    · intro n c hget
      rcases getElem?_fetching hget with hget | ⟨-, rfl⟩
      · exact h.once n c hget
      · exact Completer.Pending.once ⟨rfl, rfl⟩
  | answer key result n _ _ htask =>
    obtain ⟨c, hget, hkey, hpending⟩ := h.pending key n htask
    constructor
    · exact fun key' m htask' => h.pending_changed _ hget hkey htask'
    · intro m c' hget'
      rcases getElem?_changed hget' with ⟨rfl, c₀, hget₀, rfl⟩ | ⟨-, hget'⟩
      · obtain rfl : c = c₀ := Option.some.inj (hget.symm.trans hget₀)
        exact hpending.once_complete result
      · exact h.once m c' hget'
  | timer n c _ hget _ =>
    constructor
    · exact fun key' m htask' => h.pending_changed _ hget rfl htask'
    · intro m c' hget'
      rcases getElem?_changed hget' with ⟨rfl, c₀, hget₀, rfl⟩ | ⟨-, hget'⟩
      · exact ((h.once _ c₀ hget₀).timeout _).1
      · exact h.once m c' hget'

/-- Every pending fetch is in its map. -/
def Faithful (f : FileFetcher) : Prop :=
  ∀ (n : ℕ) (c : Completer), f.completers[n]? = some c → c.Pending → f.task? c.key = some n

/-- An empty fetcher is faithful. -/
theorem faithful_empty : Faithful empty := fun n c h => by simp [empty] at h

/-- A fetch that was taken out of its map is no longer pending. -/
theorem Faithful.changed {f : FileFetcher} (h : Faithful f) {key : TaskKey} {n : ℕ}
    {g : Completer → Completer} (hmap : ∀ m, f.task? key = some m → m = n)
    (hg : ∀ c, f.completers[n]? = some c → ¬ (g c).Pending) :
    Faithful ((f.removeTask key).change n g) := by
  intro m c hget hpending
  rcases getElem?_changed hget with ⟨rfl, c₀, hget₀, rfl⟩ | ⟨hnm, hget⟩
  · exact absurd hpending (hg c₀ hget₀)
  · have htask := h m c hget hpending
    rw [task?_change, task?_removeTask, if_neg ?_]
    · exact htask
    · rintro rfl
      exact hnm (hmap m htask).symm

/-- A careful step leaves every pending fetch in its map. -/
theorem faithful_of_careful {f f' : FileFetcher} {e : Event} (hcareful : Careful f e)
    (hstep : step f e = some f') (hlinked : Linked f) (h : Faithful f) : Faithful f' := by
  cases effect_of_step hstep with
  | same => exact h
  | register key _ _ _ hkey =>
    intro n c hget hpending
    rw [task?_fetching]
    rcases getElem?_fetching hget with hget | ⟨rfl, rfl⟩
    · have htask := h n c hget hpending
      rw [if_neg ?_]
      · exact htask
      · rintro rfl
        simp [hkey] at htask
    · exact if_pos rfl
  | answer key result n _ _ htask =>
    refine h.changed (fun m hm => Option.some.inj (hm.symm.trans htask)) ?_
    intro c _ hpending
    have hempty : c.results ++ [result] = [] := hpending.1
    simp at hempty
  | timer n c hevent hget _ =>
    subst hevent
    refine h.changed (fun m hm => hcareful c m hget hm) ?_
    intro c₀ hget₀ hpending
    have hfired := ((hlinked.once n c₀ hget₀).timeout (timeoutMessage c.key)).2
    simp [hpending.2] at hfired

/-- Where every pending fetch is in its map, a careful step is fair. -/
theorem fair_of_careful {f f' : FileFetcher} {e : Event} (hcareful : Careful f e)
    (hstep : step f e = some f') (hlinked : Linked f) (hfaithful : Faithful f) : Fair f e f' := by
  have honce := (linked_of_step hstep hlinked).once
  cases effect_of_step hstep with
  | same hanswer htimer =>
    refine ⟨fun key n h h' => absurd h h', ?_, honce⟩
    intro n c result hget hpending hevent
    have hnone := hanswer.mp hcareful c.key result hevent
    rw [hfaithful n c hget hpending] at hnone
    cases hnone
  | register key hanswer _ _ hkey =>
    refine ⟨?_, fun n c result _ _ hevent => by simp [hanswer] at hevent, honce⟩
    intro key' n htask hgone
    rw [task?_fetching] at hgone
    split_ifs at hgone with heq
    · simp [heq, hkey] at htask
    · exact absurd htask hgone
  | answer key result n hanswer _ htask =>
    refine ⟨?_, ?_, honce⟩
    · intro key' m htask' hgone
      rw [task?_change, task?_removeTask] at hgone
      split_ifs at hgone with heq
      · exact .inl ⟨result, by rw [heq, hanswer]⟩
      · exact absurd htask' hgone
    · intro m c result' hget hpending hevent
      obtain ⟨rfl, rfl⟩ : key = c.key ∧ result = result' := by simpa [hanswer] using hevent
      have hn := hfaithful m c hget hpending
      obtain rfl : n = m := Option.some.inj (htask.symm.trans hn)
      refine ⟨c.complete result, ?_, hpending.results_complete result⟩
      rw [getElem?_change_removeTask, if_pos rfl, hget]
      rfl
  | timer n c hevent hget _ =>
    subst hevent
    refine ⟨?_, fun m c' result _ _ hevent => by simp [Event.answer?] at hevent, honce⟩
    intro key m htask hgone
    rw [expire, task?_change, task?_removeTask] at hgone
    split_ifs at hgone with heq
    · exact .inr (by rw [hcareful c m hget (by rw [← heq, htask])])
    · exact absurd htask hgone

/-- A fair step is careful: a timer that removes another fetch, or an answer that is dropped, shows
in the maps. -/
theorem careful_of_fair {f f' : FileFetcher} {e : Event} (hstep : step f e = some f')
    (hlinked : Linked f) (hfair : Fair f e f') : Careful f e := by
  cases effect_of_step hstep with
  | same hanswer _ =>
    refine hanswer.mpr fun key result hevent => ?_
    by_contra htask
    obtain ⟨n, htask⟩ := Option.ne_none_iff_exists'.mp htask
    obtain ⟨c, hget, rfl, hpending⟩ := hlinked.pending key n htask
    obtain ⟨c', hget', hresults⟩ := hfair.answered n c result hget hpending hevent
    obtain rfl : c = c' := Option.some.inj (hget.symm.trans hget')
    simp [hpending.1] at hresults
  | register _ _ _ hcareful => exact hcareful
  | answer _ _ _ _ hcareful => exact hcareful
  | timer n c hevent hget _ =>
    subst hevent
    intro c' m hget' htask
    obtain rfl : c = c' := Option.some.inj (hget.symm.trans hget')
    have hgone : (f.expire n c).task? c.key ≠ some m := by
      simp [expire, task?_removeTask]
    rcases hfair.removed c.key m htask hgone with ⟨result, hanswer⟩ | hevent
    · simp [Event.answer?] at hanswer
    · injection hevent with hnm
      exact hnm.symm

/-- **Every fetch of a run ends by its own answer or its own timeout, and is completed exactly
once, if and only if** no timer fires while its key is registered anew and no answer without a job
and a path meets a fetch of the path `""`. -/
theorem fair_iff_careful {f : FileFetcher} {events : List Event}
    (hrun : machine.Run empty events f) :
    (∀ first e u v, first ++ [e] <+: events → machine.Run empty first u → step u e = some v →
      Fair u e v) ↔ machine.RunWhere Careful empty events f := by
  refine Machine.runWhere_iff_steps_where (M := machine) (I := fun f => Linked f ∧ Faithful f)
    ?_ ?_ ⟨linked_empty, faithful_empty⟩ hrun
  · rintro f e f' hcareful hstep ⟨hlinked, hfaithful⟩
    exact ⟨linked_of_step hstep hlinked, faithful_of_careful hcareful hstep hlinked hfaithful⟩
  · rintro f e f' hstep ⟨hlinked, hfaithful⟩
    exact ⟨careful_of_fair hstep hlinked,
      fun hcareful => fair_of_careful hcareful hstep hlinked hfaithful⟩

/-- The answer for the path `/srv`. -/
def srv : FileDirectory := ⟨[], 0, "/srv"⟩

/-- The path was fetched and answered, and is fetched again before the first timer fires. -/
def srvAgain : FileFetcher :=
  { empty with
    remoteTasks := .set .empty "/srv" 1
    completers := [⟨.read "/srv", [.directory srv], false⟩, ⟨.read "/srv", [], false⟩] }

/-- The second fetch is answered before the first timer fires. -/
def srvAnswered : List Event :=
  [.registerReadTask false "/srv", .tryCompleteTask (some srv), .registerReadTask false "/srv",
    .tryCompleteTask (some srv), .timer 0, .timer 1]

/-- The equivalence on a run in which one directory is read. -/
theorem fair_iff_careful_srvAnswered :
    ∃ f, machine.Run empty srvAnswered f ∧
      ∀ first e u v, first ++ [e] <+: srvAnswered → machine.Run empty first u →
        step u e = some v → Fair u e v := by
  have hwhere : machine.RunWhere Careful empty srvAnswered
      { empty with
        completers := [⟨.read "/srv", [.directory srv], true⟩,
          ⟨.read "/srv", [.directory srv], true⟩] } :=
    Machine.runWhere_of_replayWhere rfl
  exact ⟨_, hwhere.run, (fair_iff_careful hwhere.run).mpr hwhere⟩

/-- The first timer takes the second fetch out of the map, and the answer to it is dropped. -/
theorem not_fair_srvAgain :
    machine.Run empty [.registerReadTask false "/srv", .tryCompleteTask (some srv),
      .registerReadTask false "/srv"] srvAgain ∧
    ∃ f, step srvAgain (.timer 0) = some f ∧ ¬ Fair srvAgain (.timer 0) f ∧
      step f (.tryCompleteTask (some srv)) = some f ∧
      ¬ Fair f (.tryCompleteTask (some srv)) f := by
  refine ⟨Machine.run_of_replay rfl, _, rfl, ?_, rfl, ?_⟩
  · intro hfair
    rcases hfair.removed (.read "/srv") 1 rfl (by decide) with ⟨result, hanswer⟩ | hevent
    · cases hanswer
    · cases hevent
  · intro hfair
    obtain ⟨c, hget, hresults⟩ := hfair.answered 1 ⟨.read "/srv", [], false⟩ (.directory srv) rfl
      ⟨rfl, rfl⟩ rfl
    cases hget
    cases hresults

end FileFetcher

end RdWeb.FileTransfer
