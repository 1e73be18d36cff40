import RdWeb.Lib.Machine
import RdWeb.Lib.OrderedMap

/-!
# Handing frames to the windows

With the soft renderer of `flutter.rs` a frame is kept in one buffer a display, which all windows of
a peer session share. Its flag `valid` is to say that a window has yet to read it: the next
frame is given up until then. A call of `on_rgba_soft_render` takes the locks four times, and any
other call may come between.
-/

namespace RdWeb.Client

/-- A buffer is known by its allocation. -/
structure RgbaData where
  data : ℕ
  valid : Bool

/-- `SessionHandler` as far as the soft renderer reads it. -/
structure RgbaWindow where
  displays : List ℕ
  eventStream : Bool

/-- Where a call of `on_rgba_soft_render` is: the buffer is set, `is_multi_sessions` is read, or the
windows are notified with this `is_sent`. -/
inductive RenderStage where
  | rendered
  | counted (isMultiSessions : Bool)
  | notified (isSent : Bool)
deriving DecidableEq

/-- The handler of a peer session, the calls in progress, the events no window has fetched yet, and
the buffers between `get_rgba` and `next_rgba`. -/
structure SoftRender (SessionId : Type*) where
  displayRgbas : OrderedMap ℕ RgbaData
  sessionHandlers : OrderedMap SessionId RgbaWindow
  calls : List (ℕ × RenderStage)
  events : List (SessionId × ℕ)
  fetched : List (SessionId × ℕ × Option ℕ)

/-- The parts of `on_rgba_soft_render` for a display, the calls of a window for an event, and what
happens to the windows and the mode. -/
inductive RenderEvent (SessionId : Type*)
  | render (display raw : ℕ)
  | countSessions (display : ℕ)
  | notify (display : ℕ) (isMultiSessions : Bool)
  | finish (display : ℕ) (isSent : Bool)
  | getRgba (id : SessionId) (display : ℕ)
  | nextRgba (id : SessionId) (display : ℕ) (pointer : Option ℕ)
  | insertWindow (id : SessionId) (displays : List ℕ)
  | startWindow (id : SessionId)
  | removeWindow (id : SessionId)
  | updateUseTextureRender

namespace SoftRender

variable {SessionId : Type*} [DecidableEq SessionId]

/-- The buffer is set while the display is not valid; the former one goes back to the video
handler for reuse. -/
def render (s : SoftRender SessionId) (display raw : ℕ) : SoftRender SessionId :=
  let swapped := { s with
    displayRgbas := s.displayRgbas.set display ⟨raw, true⟩
    calls := s.calls ++ [(display, .rendered)] }
  match s.displayRgbas.get? display with
  | some rgbaData => if rgbaData.valid then s else swapped
  | none => swapped

/-- More than one window shows the session. -/
def isMultiUiSession (s : SoftRender SessionId) : Bool :=
  decide (1 < s.sessionHandlers.entries.length)

/-- Whether the loop of `on_rgba_soft_render` sends the event to a window. -/
def Receives (isMultiSessions : Bool) (display : ℕ) (h : RgbaWindow) : Prop :=
  ¬ 1 < h.displays.length ∧ (isMultiSessions = true → display ∈ h.displays) ∧
    h.eventStream = true

/-- Whether a window gets a display is decided by its displays. -/
instance (isMultiSessions : Bool) (display : ℕ) (h : RgbaWindow) :
    Decidable (Receives isMultiSessions display h) :=
  inferInstanceAs (Decidable (_ ∧ _ ∧ _))

/-- The windows the event is sent to. -/
def receivers (s : SoftRender SessionId) (isMultiSessions : Bool) (display : ℕ) :
    List SessionId :=
  (s.sessionHandlers.entries.filter fun h => Receives isMultiSessions display h.2).map Prod.fst

/-- The flag of a display is cleared, if the display is there. -/
def clearValid (s : SoftRender SessionId) (display : ℕ) : SoftRender SessionId :=
  match s.displayRgbas.get? display with
  | some rgbaData =>
    { s with displayRgbas := s.displayRgbas.set display { rgbaData with valid := false } }
  | none => s

/-- A call goes on to its next stage. -/
def goOn (s : SoftRender SessionId) (display : ℕ) (stage next : RenderStage) :
    SoftRender SessionId :=
  { s with calls := s.calls.erase (display, stage) ++ [(display, next)] }

/-- The pointer `get_rgba` returns to a window, which is null for a window that is gone. -/
def getRgba (s : SoftRender SessionId) (id : SessionId) (display : ℕ) : Option ℕ :=
  if s.sessionHandlers.has id then
    (s.displayRgbas.get? display).bind fun rgbaData =>
      if rgbaData.valid then some rgbaData.data else none
  else none

/-- A window has read its frame. -/
def nextRgba (s : SoftRender SessionId) (id : SessionId) (display : ℕ) : SoftRender SessionId :=
  if s.sessionHandlers.has id then s.clearValid display else s

/-- One step of the renderer. -/
def step (s : SoftRender SessionId) : RenderEvent SessionId → Option (SoftRender SessionId)
  | .render display raw =>
    -- The video handler owns the buffer it passes: it is not one of those kept here.
    if ∀ rgbaData ∈ s.displayRgbas.values, rgbaData.data ≠ raw then some (s.render display raw)
    else none
  | .countSessions display =>
    if (display, .rendered) ∈ s.calls then
      some (s.goOn display .rendered (.counted s.isMultiUiSession))
    else none
  | .notify display isMultiSessions =>
    if (display, .counted isMultiSessions) ∈ s.calls then
      let receivers := s.receivers isMultiSessions display
      some { s.goOn display (.counted isMultiSessions) (.notified (receivers ≠ [])) with
        events := s.events ++ receivers.map fun id => (id, display) }
    else none
  | .finish display isSent =>
    if (display, .notified isSent) ∈ s.calls then
      let s := { s with calls := s.calls.erase (display, .notified isSent) }
      some (if isSent then s else s.clearValid display)
    else none
  | .getRgba id display =>
    if (id, display) ∈ s.events then
      some { s with
        events := s.events.erase (id, display)
        fetched := s.fetched ++ [(id, display, s.getRgba id display)] }
    else none
  | .nextRgba id display pointer =>
    if (id, display, pointer) ∈ s.fetched then
      some ({ s with fetched := s.fetched.erase (id, display, pointer) }.nextRgba id display)
    else none
  | .insertWindow id displays =>
    some { s with sessionHandlers := s.sessionHandlers.set id ⟨displays, false⟩ }
  | .startWindow id =>
    (s.sessionHandlers.get? id).map fun h =>
      { s with sessionHandlers := s.sessionHandlers.set id { h with eventStream := true } }
  | .removeWindow id => some { s with sessionHandlers := s.sessionHandlers.delete id }
  | .updateUseTextureRender => some { s with displayRgbas := .empty }

/-- A peer session before its first window. -/
def machine : Machine (SoftRender SessionId) (RenderEvent SessionId) :=
  ⟨⟨.empty, .empty, [], [], []⟩, step⟩

/-- The buffer behind a pointer a window holds is neither swapped out nor freed. -/
def PointersKept (s : SoftRender SessionId) : Prop :=
  ∀ id display data, (id, display, some data) ∈ s.fetched →
    ∃ rgbaData, s.displayRgbas.get? display = some rgbaData ∧ rgbaData.data = data

/-- An event for the display is outstanding at the window. -/
def OutstandingAt (s : SoftRender SessionId) (display : ℕ) (id : SessionId) : Prop :=
  (id, display) ∈ s.events ∨ ∃ pointer, (id, display, pointer) ∈ s.fetched

/-- The frame of a display may be read. -/
def Valid (s : SoftRender SessionId) (display : ℕ) : Prop :=
  ∃ rgbaData, s.displayRgbas.get? display = some rgbaData ∧ rgbaData.valid = true

/-- When no call is in progress, an event is outstanding for each valid display. -/
def NoStall (s : SoftRender SessionId) : Prop :=
  s.calls = [] → ∀ display, s.Valid display →
    ∃ id, s.sessionHandlers.has id = true ∧ s.OutstandingAt display id

/-- A call for the display has yet to notify the windows or to clear the flag. -/
def Resolving (s : SoftRender SessionId) (display : ℕ) : Prop :=
  ∃ stage, (display, stage) ∈ s.calls ∧ stage ≠ .notified true

/-- A valid display is resolved by a call in progress, or an event for it is outstanding. -/
def Awaited (s : SoftRender SessionId) : Prop :=
  ∀ display, s.Valid display → s.Resolving display ∨
    ∃ id, s.sessionHandlers.has id = true ∧ s.OutstandingAt display id

/-- A step comes in its turn: a frame is not swapped in and the buffers are not dropped while a
window holds a pointer to what goes, and a window is removed while another one or a call
in progress sees to every valid display. -/
def InTurn (s : SoftRender SessionId) : RenderEvent SessionId → Prop
  | .render display _ => ∀ rgbaData, s.displayRgbas.get? display = some rgbaData →
      rgbaData.valid = false → ∀ id, (id, display, some rgbaData.data) ∉ s.fetched
  | .updateUseTextureRender => ∀ id display data, (id, display, some data) ∉ s.fetched
  | .removeWindow id => ∀ display, s.Valid display → s.Resolving display ∨
      ∃ other, other ≠ id ∧ s.sessionHandlers.has other = true ∧ s.OutstandingAt display other
  | _ => True

variable {s t : SoftRender SessionId} {display : ℕ}

omit [DecidableEq SessionId] in
/-- Clearing the flag touches the flag only. -/
theorem clearValid_same : (s.clearValid display).calls = s.calls ∧
    (s.clearValid display).events = s.events ∧ (s.clearValid display).fetched = s.fetched ∧
    (s.clearValid display).sessionHandlers = s.sessionHandlers := by
  unfold clearValid
  split <;> exact ⟨rfl, rfl, rfl, rfl⟩

omit [DecidableEq SessionId] in
/-- Clearing a flag leaves the buffers in place. -/
theorem data_clearValid {other : ℕ} {rgbaData : RgbaData}
    (h : s.displayRgbas.get? other = some rgbaData) :
    ∃ rgbaData', (s.clearValid display).displayRgbas.get? other = some rgbaData' ∧
      rgbaData'.data = rgbaData.data := by
  unfold clearValid
  cases hget : s.displayRgbas.get? display with
  | none => exact ⟨rgbaData, h, rfl⟩
  | some cleared =>
    by_cases hother : other = display
    · subst hother
      obtain rfl : rgbaData = cleared := Option.some.inj (h.symm.trans hget)
      exact ⟨{ rgbaData with valid := false }, by simp, rfl⟩
    · exact ⟨rgbaData, by simp [hother, h], rfl⟩

omit [DecidableEq SessionId] in
/-- A flag that is still set is that of another display. -/
theorem valid_of_clearValid {other : ℕ} (h : (s.clearValid display).Valid other) :
    other ≠ display ∧ s.Valid other := by
  obtain ⟨rgbaData, hget, hvalid⟩ := h
  unfold clearValid at hget
  cases hdisplay : s.displayRgbas.get? display with
  | none =>
    rw [hdisplay] at hget
    refine ⟨?_, rgbaData, hget, hvalid⟩
    rintro rfl
    exact absurd (hdisplay.symm.trans hget) (by simp)
  | some cleared =>
    rw [hdisplay] at hget
    simp only [OrderedMap.get?_set] at hget
    split_ifs at hget with hother
    · cases hget
      cases hvalid
    · exact ⟨hother, rgbaData, hget, hvalid⟩

omit [DecidableEq SessionId] in
/-- Clearing the flag moves no buffer. -/
theorem PointersKept.clearValid (h : s.PointersKept) : (s.clearValid display).PointersKept := by
  intro id other data hfetched
  rw [clearValid_same.2.2.1] at hfetched
  obtain ⟨rgbaData, hget, rfl⟩ := h id other data hfetched
  exact data_clearValid hget

/-- A display is attended while nothing about it or about the windows goes away. -/
theorem attended_mono {other : ℕ}
    (h : s.Resolving other ∨ ∃ id, s.sessionHandlers.has id = true ∧ s.OutstandingAt other id)
    (hcalls : ∀ stage, (other, stage) ∈ s.calls → stage ≠ .notified true → t.Resolving other)
    (hout : ∀ id, s.sessionHandlers.has id = true → s.OutstandingAt other id →
      t.sessionHandlers.has id = true ∧ t.OutstandingAt other id) :
    t.Resolving other ∨ ∃ id, t.sessionHandlers.has id = true ∧ t.OutstandingAt other id := by
  rcases h with ⟨stage, hmem, hstage⟩ | ⟨id, hid, houtstanding⟩
  · exact Or.inl (hcalls stage hmem hstage)
  · exact Or.inr ⟨id, hout id hid houtstanding⟩

/-- Clearing the flag leaves every other display awaited. -/
theorem Awaited.clearValid (h : ∀ other, other ≠ display → s.Valid other → s.Resolving other ∨
      ∃ id, s.sessionHandlers.has id = true ∧ s.OutstandingAt other id) :
    (s.clearValid display).Awaited := by
  intro other hvalid
  obtain ⟨hother, hvalid⟩ := valid_of_clearValid hvalid
  obtain ⟨hcalls, hevents, hfetched, hhandlers⟩ :
      (s.clearValid display).calls = s.calls ∧ _ ∧ _ ∧ _ := clearValid_same
  refine attended_mono (h other hother hvalid) (fun stage hmem hstage => ?_) fun id hid hout => ?_
  · exact ⟨stage, hcalls ▸ hmem, hstage⟩
  · unfold OutstandingAt
    rw [hhandlers, hevents, hfetched]
    exact ⟨hid, hout⟩

omit [DecidableEq SessionId] in
/-- A call that goes on is still there, in its next stage. -/
theorem mem_goOn (display : ℕ) {stage next : RenderStage} {call : ℕ × RenderStage}
    (h : call ∈ s.calls) :
    call ∈ (s.goOn display stage next).calls ∨ call = (display, stage) := by
  by_cases hcall : call = (display, stage)
  · exact Or.inr hcall
  · exact Or.inl (List.mem_append_left _ ((List.mem_erase_of_ne hcall).mpr h))

/-- The state in which a buffer was set for a display. -/
def swapIn (s : SoftRender SessionId) (display raw : ℕ) : SoftRender SessionId :=
  { s with
    displayRgbas := s.displayRgbas.set display ⟨raw, true⟩
    calls := s.calls ++ [(display, .rendered)] }

/-- The frame that is rendered is resolved by its call. -/
theorem awaited_swapIn (hawaited : s.Awaited) (raw : ℕ) : (s.swapIn display raw).Awaited := by
  intro other hvalid
  by_cases hother : other = display
  · subst hother
    exact Or.inl ⟨.rendered, by simp [swapIn], by simp⟩
  · obtain ⟨rgbaData, hget, hdata⟩ := hvalid
    have hget' : s.displayRgbas.get? other = some rgbaData := by
      simpa [swapIn, hother] using hget
    refine attended_mono (hawaited other ⟨rgbaData, hget', hdata⟩) (fun stage hmem hstage => ?_)
      fun id hid hout => ⟨hid, hout⟩
    exact ⟨stage, List.mem_append_left _ hmem, hstage⟩

omit [DecidableEq SessionId] in
/-- A new buffer leaves the pointers good exactly if nobody has one to the display. -/
theorem pointersKept_swapIn_iff (hkept : s.PointersKept) {raw : ℕ}
    (hraw : ∀ rgbaData ∈ s.displayRgbas.values, rgbaData.data ≠ raw) :
    (s.swapIn display raw).PointersKept ↔ ∀ id data, (id, display, some data) ∉ s.fetched := by
  constructor
  · intro hafter id data hfetched
    obtain ⟨old, hold, rfl⟩ := hkept id display data hfetched
    obtain ⟨new, hnew, hdata⟩ := hafter id display old.data hfetched
    obtain rfl : new = ⟨raw, true⟩ := by simpa [swapIn] using hnew.symm
    exact hraw old (OrderedMap.mem_values_iff.mpr ⟨display, hold⟩) hdata.symm
  · intro hfree id other data hfetched
    have hother : other ≠ display := by
      rintro rfl
      exact hfree id data hfetched
    simpa [swapIn, hother] using hkept id other data hfetched

/-- A frame is handed over if and only if it comes in turn. -/
theorem handedOver_render_iff (hkept : s.PointersKept) (hawaited : s.Awaited) {raw : ℕ}
    (hraw : ∀ rgbaData ∈ s.displayRgbas.values, rgbaData.data ≠ raw) :
    ((s.render display raw).PointersKept ∧ (s.render display raw).Awaited) ↔
      s.InTurn (.render display raw) := by
  have hswapped : ((s.swapIn display raw).PointersKept ∧ (s.swapIn display raw).Awaited) ↔
      ∀ id data, (id, display, some data) ∉ s.fetched := by
    rw [and_iff_left (awaited_swapIn hawaited raw), pointersKept_swapIn_iff hkept hraw]
  unfold render
  cases hget : s.displayRgbas.get? display with
  | none =>
    refine iff_of_true (hswapped.mpr fun id data hfetched => ?_) ?_
    · obtain ⟨rgbaData, hsome, -⟩ := hkept id display data hfetched
      simp [hget] at hsome
    · intro rgbaData hsome
      simp [hget] at hsome
  | some rgbaData =>
    simp only
    split_ifs with hvalid
    · refine iff_of_true ⟨hkept, hawaited⟩ fun rgbaData' hsome hinvalid => ?_
      obtain rfl : rgbaData = rgbaData' := Option.some.inj (hget.symm.trans hsome)
      simp [hvalid] at hinvalid
    · refine hswapped.trans ⟨fun hfree rgbaData' _ _ id => hfree id _, fun hturn => ?_⟩
      intro id data hfetched
      obtain ⟨rgbaData', hsome, rfl⟩ := hkept id display data hfetched
      obtain rfl : rgbaData = rgbaData' := Option.some.inj (hget.symm.trans hsome)
      exact hturn rgbaData hget (by simpa using hvalid) id hfetched

/-- Once the windows are notified, either an event is outstanding or the flag is to be cleared. -/
theorem awaited_notify (hawaited : s.Awaited) {isMultiSessions : Bool} :
    Awaited { s.goOn display (.counted isMultiSessions)
        (.notified (s.receivers isMultiSessions display ≠ [])) with
      events := s.events ++
        (s.receivers isMultiSessions display).map fun id => (id, display) } := by
  intro other hvalid
  by_cases hother : other = display
  · subst hother
    cases hreceivers : s.receivers isMultiSessions other with
    | nil =>
      refine Or.inl ⟨.notified false, ?_, by simp⟩
      simp [goOn]
    | cons id rest =>
      have hid : id ∈ s.receivers isMultiSessions other := by simp [hreceivers]
      obtain ⟨⟨id', h⟩, hmem, rfl⟩ := List.mem_map.mp hid
      have hget := OrderedMap.get?_of_mem_entries (List.mem_of_mem_filter hmem)
      refine Or.inr ⟨id', OrderedMap.has_iff.mpr ⟨h, hget⟩, Or.inl ?_⟩
      simp
  · refine attended_mono (hawaited other hvalid) (fun stage hmem hstage => ?_) fun id hid hout => ?_
    · rcases mem_goOn display hmem with hmem | heq
      · exact ⟨stage, hmem, hstage⟩
      · exact absurd (congrArg Prod.fst heq) hother
    · exact ⟨hid, hout.imp_left fun hevent => List.mem_append_left _ hevent⟩

/-- Counting the sessions loses no display. -/
theorem awaited_countSessions (hawaited : s.Awaited) {isMultiSessions : Bool} :
    (s.goOn display .rendered (.counted isMultiSessions)).Awaited := by
  intro other hvalid
  refine attended_mono (hawaited other hvalid) (fun stage hmem hstage => ?_) fun id hid hout =>
    ⟨hid, hout⟩
  rcases mem_goOn display hmem with hmem | heq
  · exact ⟨stage, hmem, hstage⟩
  · obtain ⟨rfl, -⟩ := Prod.mk.inj heq
    exact ⟨.counted isMultiSessions, by simp [goOn], by simp⟩

/-- A call that has notified a window ends, or one that has not clears the flag. -/
theorem awaited_finish (hawaited : s.Awaited) (isSent : Bool) :
    Awaited (if isSent then { s with calls := s.calls.erase (display, .notified isSent) }
      else { s with calls := s.calls.erase (display, .notified isSent) }.clearValid display) := by
  have hcalls {other : ℕ} {stage : RenderStage} (hmem : (other, stage) ∈ s.calls)
      (hne : (other, stage) ≠ (display, .notified isSent)) :
      (other, stage) ∈ s.calls.erase (display, .notified isSent) :=
    (List.mem_erase_of_ne hne).mpr hmem
  cases isSent with
  | true =>
    intro other hvalid
    refine attended_mono (hawaited other hvalid) (fun stage hmem hstage => ?_) fun id hid hout =>
      ⟨hid, hout⟩
    exact ⟨stage, hcalls hmem fun heq => hstage (congrArg Prod.snd heq), hstage⟩
  | false =>
    refine Awaited.clearValid fun other hother hvalid => ?_
    refine attended_mono (hawaited other hvalid) (fun stage hmem hstage => ?_) fun id hid hout =>
      ⟨hid, hout⟩
    exact ⟨stage, hcalls hmem fun heq => hother (congrArg Prod.fst heq), hstage⟩

/-- A fetched pointer is that of the valid buffer. -/
theorem data_of_getRgba {id : SessionId} {data : ℕ} (h : s.getRgba id display = some data) :
    ∃ rgbaData, s.displayRgbas.get? display = some rgbaData ∧ rgbaData.data = data := by
  unfold getRgba at h
  split_ifs at h
  obtain ⟨rgbaData, hget, hdata⟩ := Option.bind_eq_some_iff.mp h
  split_ifs at hdata
  exact ⟨rgbaData, hget, Option.some.inj hdata⟩

/-- Fetching a pointer keeps the buffers and the waits. -/
theorem handedOver_getRgba (hkept : s.PointersKept) (hawaited : s.Awaited) (id : SessionId) :
    PointersKept { s with
        events := s.events.erase (id, display)
        fetched := s.fetched ++ [(id, display, s.getRgba id display)] } ∧
      Awaited { s with
        events := s.events.erase (id, display)
        fetched := s.fetched ++ [(id, display, s.getRgba id display)] } := by
  constructor
  · intro id' other data hfetched
    rcases List.mem_append.mp hfetched with hold | hnew
    · exact hkept id' other data hold
    · obtain ⟨-, rfl, hdata⟩ : id' = id ∧ other = display ∧ some data = s.getRgba id display := by
        simpa using hnew
      exact data_of_getRgba hdata.symm
  · intro other hvalid
    refine attended_mono (hawaited other hvalid) (fun stage hmem hstage => ⟨stage, hmem, hstage⟩)
      fun id' hid hout => ⟨hid, ?_⟩
    rcases hout with hevent | ⟨pointer, hfetched⟩
    · by_cases heq : (id', other) = (id, display)
      · obtain ⟨rfl, rfl⟩ := Prod.mk.inj heq
        exact Or.inr ⟨s.getRgba id' other, by simp⟩
      · exact Or.inl ((List.mem_erase_of_ne heq).mpr hevent)
    · exact Or.inr ⟨pointer, List.mem_append_left _ hfetched⟩

/-- A window that asks for the next frame clears the flag of the display it has read. -/
theorem handedOver_nextRgba (hkept : s.PointersKept) (hawaited : s.Awaited) (id : SessionId)
    (pointer : Option ℕ) :
    PointersKept
        ({ s with fetched := s.fetched.erase (id, display, pointer) }.nextRgba id display) ∧
      Awaited
        ({ s with fetched := s.fetched.erase (id, display, pointer) }.nextRgba id display) := by
  have hfewer : PointersKept { s with fetched := s.fetched.erase (id, display, pointer) } :=
    fun id' other data hfetched => hkept id' other data (List.mem_of_mem_erase hfetched)
  have hothers {other : ℕ} (hvalid : s.Valid other)
      (hne : ∀ id', s.sessionHandlers.has id' = true → (id', other) ≠ (id, display)) :=
    attended_mono (t := { s with fetched := s.fetched.erase (id, display, pointer) })
      (hawaited other hvalid) (fun stage hmem hstage => ⟨stage, hmem, hstage⟩)
      fun id' hid hout => ⟨hid, hout.imp_right fun ⟨p, hfetched⟩ => by
        refine ⟨p, (List.mem_erase_of_ne fun heq => ?_).mpr hfetched⟩
        obtain ⟨rfl, rfl, -⟩ : id' = id ∧ other = display ∧ p = pointer := by simpa using heq
        exact hne id' hid rfl⟩
  unfold nextRgba
  split_ifs with hid
  · refine ⟨hfewer.clearValid, Awaited.clearValid fun other hother hvalid => ?_⟩
    exact hothers hvalid fun id' _ heq => hother (congrArg Prod.snd heq)
  · refine ⟨hfewer, fun other hvalid => hothers hvalid fun id' hid' heq => ?_⟩
    obtain ⟨rfl, -⟩ := Prod.mk.inj heq
    exact hid hid'

/-- Windows that are kept or joined still have their outstanding events. -/
theorem Awaited.ofWindows (hawaited : s.Awaited) {windows : OrderedMap SessionId RgbaWindow}
    (hwindows : ∀ id, s.sessionHandlers.has id = true → windows.has id = true) :
    Awaited { s with sessionHandlers := windows } := fun other hvalid =>
  attended_mono (hawaited other hvalid) (fun stage hmem hstage => ⟨stage, hmem, hstage⟩)
    fun id hid hout => ⟨hwindows id hid, hout⟩

/-- A window that was there is there after a change of windows. -/
theorem has_set (windows : OrderedMap SessionId RgbaWindow) (id : SessionId) (h : RgbaWindow) :
    ∀ other, windows.has other = true → (windows.set id h).has other = true := by
  intro other hother
  obtain ⟨h', hget⟩ := OrderedMap.has_iff.mp hother
  rw [OrderedMap.has, OrderedMap.get?_set]
  split_ifs
  · rfl
  · rw [hget]
    rfl

/-- A step hands over the frames exactly if it comes in its turn. -/
theorem step_iff {e : RenderEvent SessionId} (hstep : s.step e = some t)
    (h : s.PointersKept ∧ s.Awaited) : (t.PointersKept ∧ t.Awaited) ↔ s.InTurn e := by
  obtain ⟨hkept, hawaited⟩ := h
  cases e with
  | render display raw =>
    simp only [step] at hstep
    split_ifs at hstep with hraw
    obtain rfl := Option.some.inj hstep
    exact handedOver_render_iff hkept hawaited hraw
  | countSessions display =>
    simp only [step] at hstep
    split_ifs at hstep
    obtain rfl := Option.some.inj hstep
    exact iff_of_true ⟨hkept, awaited_countSessions hawaited⟩ trivial
  | notify display isMultiSessions =>
    simp only [step] at hstep
    split_ifs at hstep
    obtain rfl := Option.some.inj hstep
    exact iff_of_true ⟨hkept, awaited_notify hawaited⟩ trivial
  | finish display isSent =>
    simp only [step] at hstep
    split_ifs at hstep with _ hsent
    · obtain rfl := Option.some.inj hstep
      subst hsent
      exact iff_of_true ⟨hkept, awaited_finish hawaited true⟩ trivial
    · obtain rfl := Option.some.inj hstep
      obtain rfl : isSent = false := by simpa using hsent
      have hkept' : PointersKept
          { s with calls := s.calls.erase (display, .notified false) } := hkept
      exact iff_of_true ⟨hkept'.clearValid, awaited_finish hawaited false⟩ trivial
  | getRgba id display =>
    simp only [step] at hstep
    split_ifs at hstep
    obtain rfl := Option.some.inj hstep
    exact iff_of_true (handedOver_getRgba hkept hawaited id) trivial
  | nextRgba id display pointer =>
    simp only [step] at hstep
    split_ifs at hstep
    obtain rfl := Option.some.inj hstep
    exact iff_of_true (handedOver_nextRgba hkept hawaited id pointer) trivial
  | insertWindow id displays =>
    obtain rfl := Option.some.inj hstep
    exact iff_of_true ⟨hkept, hawaited.ofWindows (has_set _ _ _)⟩ trivial
  | startWindow id =>
    obtain ⟨h, -, rfl⟩ := Option.map_eq_some_iff.mp hstep
    exact iff_of_true ⟨hkept, hawaited.ofWindows (has_set _ _ _)⟩ trivial
  | removeWindow id =>
    obtain rfl := Option.some.inj hstep
    have hgone (other : SessionId) : (s.sessionHandlers.delete id).has other = true ↔
        other ≠ id ∧ s.sessionHandlers.has other = true := by
      rw [OrderedMap.has, OrderedMap.get?_delete]
      split_ifs with hother
      · simp [hother]
      · simp [hother, OrderedMap.has]
    have hkept' : PointersKept { s with sessionHandlers := s.sessionHandlers.delete id } := hkept
    rw [and_iff_right hkept']
    refine forall_congr' fun other => forall_congr' fun _ => or_congr_right ?_
    exact exists_congr fun other => by rw [hgone, and_assoc]; rfl
  | updateUseTextureRender =>
    obtain rfl := Option.some.inj hstep
    have hnone : Awaited { s with displayRgbas := .empty } := by
      rintro other ⟨rgbaData, hget, -⟩
      cases hget
    rw [and_iff_left hnone]
    refine forall_congr' fun id => forall_congr' fun other => forall_congr' fun data => ?_
    refine forall_congr' fun _ => iff_of_false ?_ not_false
    rintro ⟨rgbaData, hget, -⟩
    cases hget

/-- Without a call in progress, what is awaited is outstanding. -/
theorem Awaited.noStall (h : s.Awaited) : s.NoStall := by
  intro hcalls other hvalid
  rcases h other hvalid with ⟨stage, hmem, -⟩ | hout
  · rw [hcalls] at hmem
    cases hmem
  · exact hout

/-- **Frames are handed over.** In every run whose steps come in their turn, no buffer a window
holds a pointer to is swapped out or freed, and no display stalls. The condition is exact for
the first property and for a display being awaited, which implies the second. -/
theorem handedOver_of_inTurn {events : List (RenderEvent SessionId)}
    (hrun : machine.Run machine.init events s) :
    (machine.RunWhere InTurn machine.init events s →
      ∀ first u, first <+: events → machine.Run machine.init first u →
        u.PointersKept ∧ u.NoStall) ∧
    ((∀ first u, first <+: events → machine.Run machine.init first u →
        u.PointersKept ∧ u.Awaited) ↔
      machine.RunWhere InTurn machine.init events s) := by
  have hinit : (machine : Machine (SoftRender SessionId) _).init.PointersKept ∧
      (machine : Machine (SoftRender SessionId) _).init.Awaited := by
    constructor
    · rintro id display data hmem
      cases hmem
    · rintro display ⟨rgbaData, hget, -⟩
      cases hget
  have hiff := Machine.runWhere_iff_invariant (M := machine)
    (P := fun u : SoftRender SessionId => u.PointersKept ∧ u.Awaited)
    (fun _ _ _ hstep h => step_iff hstep h) hinit hrun
  refine ⟨fun hwhere first u hfirst hu => ?_, hiff⟩
  obtain ⟨hkept, hawaited⟩ := hiff.mpr hwhere first u hfirst hu
  exact ⟨hkept, hawaited.noStall⟩

/-- Two windows, one for each of two displays or both for display 0. -/
def openWindows (second : ℕ) : List (RenderEvent ℕ) :=
  [.insertWindow 1 [0], .startWindow 1, .insertWindow 2 [second], .startWindow 2]

/-- A frame of display 0, of which the windows are notified. -/
def renderFrame (raw : ℕ) : List (RenderEvent ℕ) :=
  [.render 0 raw, .countSessions 0, .notify 0 true, .finish 0 true]

/-- The handler after these steps. -/
def after (events : List (RenderEvent ℕ)) : SoftRender ℕ :=
  (machine.replay machine.init events).getD machine.init

/-- The window reads each frame before the next one, and is then removed. -/
def readInTurn : List (RenderEvent ℕ) :=
  openWindows 1 ++ renderFrame 7 ++ [.getRgba 1 0, .nextRgba 1 0 (some 7)] ++ renderFrame 8 ++
    [.removeWindow 2, .getRgba 1 0, .nextRgba 1 0 (some 8), .updateUseTextureRender]

/-- The equivalence on a run in which each frame is read in turn. -/
theorem handedOver_of_inTurn_readInTurn :
    (machine.RunWhere InTurn machine.init readInTurn (after readInTurn) →
      ∀ first u, first <+: readInTurn → machine.Run machine.init first u →
        u.PointersKept ∧ u.NoStall) ∧
    ((∀ first u, first <+: readInTurn → machine.Run machine.init first u →
        u.PointersKept ∧ u.Awaited) ↔
      machine.RunWhere InTurn machine.init readInTurn (after readInTurn)) :=
  handedOver_of_inTurn (Machine.run_of_replay rfl)

/-- Two windows read the same frame, and the next one is swapped in when the first has read it. -/
def readTogether : List (RenderEvent ℕ) :=
  openWindows 0 ++ renderFrame 7 ++ [.getRgba 1 0, .getRgba 2 0, .nextRgba 1 0 (some 7)] ++
    [.render 0 8]

/-- A window is removed before it reads the frame it was notified of. -/
def removedBeforeReading : List (RenderEvent ℕ) :=
  openWindows 1 ++ renderFrame 7 ++ [.removeWindow 1]

/-- Two windows on one display can break both parts. -/
theorem not_handedOver :
    (¬ ∀ events (s : SoftRender ℕ), machine.Run machine.init events s → s.PointersKept) ∧
    ¬ ∀ events (s : SoftRender ℕ), machine.Run machine.init events s → s.NoStall := by
  constructor
  · intro hall
    have hkept := hall readTogether (after readTogether) (Machine.run_of_replay rfl)
    obtain ⟨rgbaData, hget, hdata⟩ := hkept 2 0 7 (by decide)
    obtain rfl : ⟨8, true⟩ = rgbaData := Option.some.inj hget
    simp at hdata
  · intro hall
    have hstall := hall removedBeforeReading (after removedBeforeReading)
      (Machine.run_of_replay rfl)
    obtain ⟨id, hid, hevent | ⟨pointer, hfetched⟩⟩ := hstall rfl 0 ⟨⟨7, true⟩, rfl, rfl⟩
    · obtain ⟨rfl, -⟩ : id = 1 ∧ _ := Prod.mk.inj (List.mem_singleton.mp hevent)
      revert hid
      decide
    · cases hfetched

end SoftRender

end RdWeb.Client
