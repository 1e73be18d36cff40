import RdWeb.Lib.Machine

/-!
# Display changes that are ignored for a while

`SyncDisplaysInfo` of `display_service.rs` remembers the displays and whether its subscribers have
them. While privacy mode switches the displays, a change replaces the list but is not noted; what
closes such a window notes that there may have been one. Its two writes are separate steps.
-/

namespace RdWeb.Host

/-- `SyncDisplaysInfo`. -/
structure SyncDisplaysInfo (D : Type*) where
  displays : List D := []
  isSynced : Bool := false

namespace SyncDisplaysInfo

variable {D : Type*}

/-- The comparison of `check_changed`. -/
def differs [BEq D] (info : SyncDisplaysInfo D) (displays : List D) : Bool :=
  info.displays.length != displays.length || (displays.zip info.displays).any fun p => p.1 != p.2

/-- `check_changed`, with what `TEMP_IGNORE_DISPLAYS_CHANGED` is. -/
def checkChanged [BEq D] (info : SyncDisplaysInfo D) (ignored : Bool)
    (displays : List D) : SyncDisplaysInfo D :=
  if info.differs displays then
    { displays := displays, isSynced := if ignored then info.isSynced else false }
  else info

/-- The list, or one that the comparison of `check_changed` does not tell from it. -/
def Shows [BEq D] (info : SyncDisplaysInfo D) (displays : List D) : Prop :=
  info.displays = displays ∨ info.differs displays = false

/-- `get_update_sync_displays`. -/
def getUpdateSyncDisplays (info : SyncDisplaysInfo D) : SyncDisplaysInfo D × Option (List D) :=
  if info.isSynced then (info, none) else ({ info with isSynced := true }, some info.displays)

/-- Lists of one length that agree display by display are the same list. -/
theorem eq_of_zip_beq [BEq D] [LawfulBEq D] {old new : List D} (hlength : old.length = new.length)
    (hsame : ∀ p ∈ new.zip old, (p.1 == p.2) = true) : old = new := by
  refine List.ext_getElem hlength fun i hold hnew => ?_
  have hmem : (new[i], old[i]) ∈ new.zip old := List.mem_iff_getElem.mpr
    ⟨i, by rw [List.length_zip]; omega, List.getElem_zip⟩
  exact (eq_of_beq (hsame _ hmem)).symm

/-- Where equal displays are the same, so are the lists. -/
theorem Shows.eq [BEq D] [LawfulBEq D] {info : SyncDisplaysInfo D} {displays : List D}
    (h : info.Shows displays) : info.displays = displays := by
  rcases h with heq | hsame
  · exact heq
  · rw [differs, Bool.or_eq_false_iff] at hsame
    refine eq_of_zip_beq (by simpa using hsame.1) fun p hp => ?_
    have hany := List.any_eq_false.mp hsame.2 p hp
    simpa using hany

end SyncDisplaysInfo

/-- The statics of the service and its threads. `opened` counts the windows whose holders have not
stored `false` yet, `closing` those whose holders have, but have not asked for an update. -/
structure DisplayService (D : Type*) where
  sync : SyncDisplaysInfo D := {}
  tempIgnoreDisplaysChanged : Bool := false
  opened : ℕ := 0
  closing : ℕ := 0
  /-- the loop has seen a new subscriber and is about to ask for an update -/
  resending : Bool := false
  /-- the last list that was taken -/
  taken : Option (List D) := none

/-- The calls that read or change the displays. -/
inductive DisplayServiceEvent (D : Type*) where
  /-- `check_update_displays` of the loop, a login or the video service -/
  | checkChanged (displays : List D)
  | getUpdateSyncDisplays
  | tempIgnoreDisplaysChanged
  /-- the first write when a holder of a window is dropped -/
  | storesFalse
  /-- the second one -/
  | asksForUpdate
  /-- the snapshot of the loop finds a new subscriber -/
  | newSubscriber
  /-- the write after that -/
  | resends

/-- The list that an event hands to `check_changed`. -/
def DisplayServiceEvent.handed? {D : Type*} : DisplayServiceEvent D → Option (List D)
  | .checkChanged displays => some displays
  | _ => none

namespace DisplayService

variable {D : Type*} {s t : DisplayService D} {e : DisplayServiceEvent D}

/-- The last list that was handed to `check_changed`, or the empty one of the start. -/
def handed (events : List (DisplayServiceEvent D)) : List D :=
  (events.filterMap (·.handed?)).getLast?.getD []

/-- One call. -/
def step [BEq D] (s : DisplayService D) : DisplayServiceEvent D → Option (DisplayService D)
  | .checkChanged displays =>
    some { s with sync := s.sync.checkChanged s.tempIgnoreDisplaysChanged displays }
  | .getUpdateSyncDisplays =>
    let got := s.sync.getUpdateSyncDisplays
    some { s with sync := got.1, taken := got.2.or s.taken }
  | .tempIgnoreDisplaysChanged =>
    some { s with tempIgnoreDisplaysChanged := true, opened := s.opened + 1 }
  | .storesFalse =>
    if 0 < s.opened then
      some { s with
        tempIgnoreDisplaysChanged := false
        opened := s.opened - 1
        closing := s.closing + 1 }
    else none
  | .asksForUpdate =>
    if 0 < s.closing then
      some { s with sync := { s.sync with isSynced := false }, closing := s.closing - 1 }
    else none
  | .newSubscriber =>
    if s.tempIgnoreDisplaysChanged then none else some { s with resending := true }
  | .resends =>
    if s.resending then
      some { s with sync := { s.sync with isSynced := false }, resending := false }
    else none

/-- The service of the displays, before its first list. -/
def machine (D : Type*) [BEq D] : Machine (DisplayService D) (DisplayServiceEvent D) where
  init := {}
  step := step

/-- No window is open or closing. -/
def Quiet (s : DisplayService D) : Prop := s.opened = 0 ∧ s.closing = 0

/-- The current list is the last one handed over, and the last list taken is the current one, or
the next call gives the current one. -/
structure Reports [BEq D] (s : DisplayService D) (displays : List D) : Prop where
  current : s.sync.Shows displays
  /-- A display is equal to nothing but itself, unless a scale is no number. -/
  current_of_lawful : LawfulBEq D → s.sync.displays = displays
  last : s.sync.isSynced = true → ∀ displays, s.taken = some displays → displays = s.sync.displays
  next : s.taken = some s.sync.displays ∨
    s.sync.getUpdateSyncDisplays.2 = some s.sync.displays

/-! ## What is kept -/

/-- Changes are ignored only while a window is open, and only while a window is open or closing the
list may have changed unnoticed. -/
structure Kept (s : DisplayService D) : Prop where
  opened : s.tempIgnoreDisplaysChanged = true → 0 < s.opened
  synced : s.sync.isSynced = true → s.taken = some s.sync.displays ∨ 0 < s.opened + s.closing

/-- A state in which an update is asked for. -/
theorem Kept.of_notSynced (hopened : s.tempIgnoreDisplaysChanged = true → 0 < s.opened)
    (hsynced : s.sync.isSynced = false) : s.Kept :=
  ⟨hopened, fun h => absurd h (by rw [hsynced]; exact Bool.false_ne_true)⟩

/-- A list that is handed over keeps the service. -/
theorem Kept.checkChanged [BEq D] (h : s.Kept) (displays : List D) :
    Kept { s with sync := s.sync.checkChanged s.tempIgnoreDisplaysChanged displays } := by
  unfold SyncDisplaysInfo.checkChanged
  split_ifs with hdiffers hignored
  · refine ⟨h.opened, fun _ => .inr ?_⟩
    have hopened := h.opened hignored
    show 0 < s.opened + s.closing
    omega
  · exact Kept.of_notSynced h.opened rfl
  · exact h

/-- Taking the displays keeps the service. -/
theorem Kept.getUpdateSyncDisplays (h : s.Kept) :
    Kept { s with
      sync := s.sync.getUpdateSyncDisplays.1
      taken := s.sync.getUpdateSyncDisplays.2.or s.taken } := by
  unfold SyncDisplaysInfo.getUpdateSyncDisplays
  split_ifs with hsynced
  · exact h
  · exact ⟨h.opened, fun _ => .inl rfl⟩

/-- **One call** keeps the service. -/
theorem Kept.step [BEq D] (h : s.Kept) (hstep : s.step e = some t) : t.Kept := by
  cases e with
  | checkChanged displays =>
    cases hstep
    exact h.checkChanged displays
  | getUpdateSyncDisplays =>
    cases hstep
    exact h.getUpdateSyncDisplays
  | tempIgnoreDisplaysChanged =>
    cases hstep
    refine ⟨fun _ => Nat.succ_pos s.opened, fun _ => .inr ?_⟩
    show 0 < s.opened + 1 + s.closing
    omega
  | storesFalse =>
    rw [DisplayService.step, Option.ite_none_right_eq_some] at hstep
    obtain ⟨hopened, hstep⟩ := hstep
    cases hstep
    refine ⟨fun hfalse => absurd hfalse Bool.false_ne_true, fun _ => .inr ?_⟩
    show 0 < s.opened - 1 + (s.closing + 1)
    omega
  | asksForUpdate =>
    rw [DisplayService.step, Option.ite_none_right_eq_some] at hstep
    obtain ⟨-, hstep⟩ := hstep
    cases hstep
    exact Kept.of_notSynced h.opened rfl
  | newSubscriber =>
    rw [DisplayService.step, Option.ite_none_left_eq_some] at hstep
    obtain ⟨-, hstep⟩ := hstep
    cases hstep
    exact ⟨h.opened, h.synced⟩
  | resends =>
    rw [DisplayService.step, Option.ite_none_right_eq_some] at hstep
    obtain ⟨-, hstep⟩ := hstep
    cases hstep
    exact Kept.of_notSynced h.opened rfl

/-- Without a window nothing has changed unnoticed. -/
theorem Kept.reports [BEq D] (h : s.Kept) (hquiet : s.Quiet) {displays : List D}
    (hshows : s.sync.Shows displays) : s.Reports displays := by
  have hnone : ¬ 0 < s.opened + s.closing := by
    rw [hquiet.1, hquiet.2]
    exact Nat.lt_irrefl 0
  have htaken (hsynced : s.sync.isSynced = true) : s.taken = some s.sync.displays :=
    (h.synced hsynced).resolve_right hnone
  refine ⟨hshows, fun _ => hshows.eq, fun hsynced displays hdisplays => ?_, ?_⟩
  · exact Option.some.inj (hdisplays.symm.trans (htaken hsynced))
  · cases hsynced : s.sync.isSynced with
    | true => exact .inl (htaken hsynced)
    | false =>
      refine .inr ?_
      rw [SyncDisplaysInfo.getUpdateSyncDisplays, hsynced]
      rfl

/-- Two windows overlap, and the displays change in the second one. -/
def overlapping : List (DisplayServiceEvent ℕ) :=
  [.checkChanged [1], .getUpdateSyncDisplays, .tempIgnoreDisplaysChanged,
    .tempIgnoreDisplaysChanged, .storesFalse, .tempIgnoreDisplaysChanged, .checkChanged [1, 2],
    .asksForUpdate, .storesFalse, .getUpdateSyncDisplays, .checkChanged [2], .storesFalse,
    .asksForUpdate, .asksForUpdate]

/-- The service after two calls that overlap. -/
def afterOverlapping : DisplayService ℕ :=
  ((machine ℕ).replay (machine ℕ).init overlapping).getD {}

end DisplayService

end RdWeb.Host
