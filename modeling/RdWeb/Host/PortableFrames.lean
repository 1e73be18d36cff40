import RdWeb.Host.PortableMemory

/-!
# Frames are whole and never lost, in turn

The counters only tell the service that the last frame has been taken out, not that it is no
longer in use, and the first frame of a capturer does not wait for them. So the hand-over is
right exactly while the processes take turns: the service writes pixels when nobody holds a
frame any more, and nobody takes a frame out of a half-written memory.
-/

namespace RdWeb.PortableService

namespace HandOver

variable {s t : HandOver}

/-- The captured frame `k` can still be returned: it is being written, or it lies in the memory
and the reader has not seen it. -/
def OnItsWay (s : HandOver) (k : ℕ) : Prop :=
  k + 1 = s.captured.length ∧
    match s.capture.phase with
    | .setFrameInfo _ => True
    | .writeFrame _ => s.memory.infoOf = some k
    | .writeWouldblock | .increaseCounter =>
      s.memory.infoOf = some k ∧ s.memory.frameOf = some k
    | _ => s.memory.infoOf = some k ∧ s.memory.frameOf = some k ∧
      s.memory.frameCounter.write ≠ s.memory.frameCounter.read

/-- A returned frame has info and pixels of one captured frame, as they are in the memory. -/
def Whole (s : HandOver) (buffer : PixelBuffer) : Prop :=
  ∃ k f, buffer.infoOf = some k ∧ s.memory.frameOf = some k ∧ s.captured[k]? = some f ∧
    (⟨buffer.length, buffer.width, buffer.height⟩ : FrameInfo) = f.info ∧
    s.memory.slice buffer.length = f.data

/-- The frames in use are whole, and each captured frame is returned or superseded, unless it
is still on its way. -/
structure HandedOver (s : HandOver) : Prop where
  whole : ∀ n buffer, s.held n = some buffer → s.Whole buffer
  notLost : ∀ k < s.captured.length, k ∈ s.returned ∨ k < s.superseded ∨ s.OnItsWay k

/-- The frame captured last is neither returned nor superseded. -/
def Undelivered (s : HandOver) : Prop :=
  ∃ k, k + 1 = s.captured.length ∧ k ∉ s.returned ∧ s.superseded ≤ k

/-- The service writes pixels when no frame is held, a new frame never brings the counters
together before it is delivered, a capturer is made while no other one holds a frame, and a call
of `frame` that finds something new finds no frame with info and without pixels, and no
undelivered one that it cannot return. -/
def InTurn (s : HandOver) : PortableEvent → Prop
  | .writeFrame => ∀ n, s.held n = none
  | .increaseCounter =>
    s.Undelivered → Counter.next s.memory.frameCounter.write ≠ s.memory.frameCounter.read
  | .newCapturer n _ _ => ∀ n', n' ≠ n → s.held n' = none
  | .frame n _ => ∀ c, s.capturers n = some c →
    s.memory.frameCounter.write ≠ s.memory.frameCounter.read →
      if c.Fits s.memory ∧ c.height ≠ 0 then ∀ data, s.capture.phase ≠ .writeFrame data
      else s.capture.phase.writing = false → ¬ s.Undelivered
  | _ => True

/-- Outside a write, a frame on its way lies in the memory unseen. -/
theorem onItsWay_iff (hwriting : s.capture.phase.writing = false) (k : ℕ) :
    s.OnItsWay k ↔ k + 1 = s.captured.length ∧ s.memory.infoOf = some k ∧
      s.memory.frameOf = some k ∧
      s.memory.frameCounter.write ≠ s.memory.frameCounter.read := by
  rw [OnItsWay]
  cases hphase : s.capture.phase <;> simp [hphase, CapturePhase.writing] at hwriting ⊢

/-- Whether a frame is whole depends on the pixels in the memory only. -/
theorem Whole.of_memory {buffer : PixelBuffer} (h : s.Whole buffer)
    (hframeOf : t.memory.frameOf = s.memory.frameOf) (hframe : t.memory.frame = s.memory.frame)
    (hcaptured : s.captured <+: t.captured) : t.Whole buffer := by
  obtain ⟨k, f, hinfoOf, hof, hf, hinfo, hslice⟩ := h
  obtain ⟨more, hmore⟩ := hcaptured
  obtain ⟨hk, -⟩ := List.getElem?_eq_some_iff.mp hf
  refine ⟨k, f, hinfoOf, hframeOf.trans hof, ?_, hinfo, ?_⟩
  · rw [← hmore, List.getElem?_append_left hk, hf]
  · rw [← hslice, SharedMemory.slice, SharedMemory.slice, hframe]

/-- A step that captures and returns nothing keeps the hand-over if the frames in use stay
whole and what is on its way stays so. -/
theorem HandedOver.of_onItsWay (h : s.HandedOver)
    (hwhole : ∀ n buffer, t.held n = some buffer → t.Whole buffer)
    (hcaptured : t.captured = s.captured) (hreturned : t.returned = s.returned)
    (hsuperseded : t.superseded = s.superseded) (hway : ∀ k, s.OnItsWay k → t.OnItsWay k) :
    t.HandedOver := by
  refine ⟨hwhole, fun k hk => ?_⟩
  rw [hcaptured] at hk
  rw [hreturned, hsuperseded]
  exact (h.notLost k hk).imp_right (Or.imp_right (hway k))

/-- A step that touches no frame leaves every frame handed over. -/
theorem Idle.handedOver (h : s.Idle t) (hs : s.HandedOver) : t.HandedOver where
  whole n buffer hheld := by
    rw [h.held] at hheld
    exact (hs.whole n buffer hheld).of_memory h.memory.frameOf h.memory.frame
      (h.captured ▸ List.prefix_rfl)
  notLost k hk := by
    rw [h.captured] at hk
    rw [h.returned]
    rcases hs.notLost k hk with hreturned | hsuperseded | hway
    · exact .inl hreturned
    · refine .inr (.inl ?_)
      rcases h.superseded with ⟨heq, -⟩ | heq <;> omega
    · refine .inr (.inr ?_)
      rw [onItsWay_iff h.writing', h.captured, h.memory.infoOf, h.memory.frameOf, h.counter]
      exact (onItsWay_iff h.writing k).mp hway

/-- No frame is held after pixels are written over it. -/
theorem handedOver_writeFrame_iff (hs : s.Traced) (h : s.HandedOver) {data : List UInt8}
    (hphase : s.capture.phase = .writeFrame data) :
    (s.writeFrame data).HandedOver ↔ ∀ n, s.held n = none := by
  constructor
  · intro ht n
    by_contra hheld
    obtain ⟨buffer, hbuffer⟩ := Option.ne_none_iff_exists'.mp hheld
    obtain ⟨k, f, hk, hof, -⟩ := h.whole n buffer hbuffer
    obtain ⟨k', f', hk', hof', -⟩ := ht.whole n buffer hbuffer
    -- the frame that is written now would be the one that lies in the memory already
    obtain rfl : k = k' := Option.some.inj (hk.symm.trans hk')
    obtain rfl : s.last = k := Option.some.inj hof'
    exact (hs.current data (.inr hphase)).2 hof
  · intro hnone
    refine h.of_onItsWay (fun n buffer hheld => ?_) rfl rfl rfl fun k hway => ?_
    · have hheld : s.held n = some buffer := hheld
      rw [hnone n] at hheld
      cases hheld
    · obtain ⟨hlast, hinfo⟩ := hway
      simp only [hphase] at hinfo
      obtain rfl := hs.half data hphase k hinfo
      exact ⟨hlast, hinfo, rfl⟩

/-- A captured frame is not yet to be handed over. -/
theorem handedOver_captured (hs : s.Traced) (h : s.HandedOver)
    (hphase : s.capture.phase = .captureFrame) (data : List UInt8) :
    (s.captureFrame (.pixelBuffer data)).HandedOver := by
  refine ⟨fun n buffer hheld => ?_, fun k hk => ?_⟩
  · exact (h.whole n buffer hheld).of_memory rfl rfl (List.prefix_append _ _)
  · have hwriting : s.capture.phase.writing = false := by rw [hphase]; rfl
    have hlength : (s.captureFrame (.pixelBuffer data)).captured.length =
        s.captured.length + 1 := by simp [captureFrame]
    rw [hlength] at hk
    rcases Nat.lt_succ_iff_lt_or_eq.mp hk with hk | rfl
    · rcases h.notLost k hk with hreturned | hsuperseded | hway
      · exact .inl hreturned
      · exact .inr (.inl hsuperseded)
      · -- a frame that still waits was captured before the capturer was created
        obtain ⟨hlast, -, -, hne⟩ := (onItsWay_iff hwriting k).mp hway
        cases hfirst : s.capture.firstFrameCaptured with
        | true => exact absurd (hs.waited hfirst (.inl hphase)) hne
        | false =>
          have hle := hs.first hfirst hwriting
          exact .inr (.inl (by show k < s.superseded; omega))
    · exact .inr (.inr ⟨hlength.symm, trivial⟩)

/-- Its size is not yet to be handed over. -/
theorem handedOver_setFrameInfo (h : s.HandedOver) (data : List UInt8) :
    (s.setFrameInfo data).HandedOver := by
  refine h.of_onItsWay (fun n buffer hheld => ?_) rfl rfl rfl fun k hway => ?_
  · exact (h.whole n buffer hheld).of_memory rfl rfl List.prefix_rfl
  · have hlast : s.last = k := by
      have hlength := hway.1
      rw [last]
      omega
    exact ⟨hway.1, by rw [← hlast]; rfl⟩

/-- The flag for no frame does not matter here. -/
theorem handedOver_writeWouldblock (h : s.HandedOver)
    (hphase : s.capture.phase = .writeWouldblock) : s.writeWouldblock.HandedOver := by
  refine h.of_onItsWay (fun n buffer hheld => ?_) rfl rfl rfl fun k hway => ?_
  · exact (h.whole n buffer hheld).of_memory rfl rfl List.prefix_rfl
  · obtain ⟨hlast, hboth⟩ := hway
    simp only [hphase] at hboth
    exact ⟨hlast, hboth⟩

/-- The last frame is the only one that can still be on its way. -/
theorem not_undelivered_iff (h : s.HandedOver) :
    ¬ s.Undelivered ↔ ∀ k < s.captured.length, k ∈ s.returned ∨ k < s.superseded := by
  constructor
  · intro hnone k hk
    rcases h.notLost k hk with hreturned | hsuperseded | hway
    · exact .inl hreturned
    · exact .inr hsuperseded
    · by_contra hneither
      obtain ⟨hreturned, hsuperseded⟩ := not_or.mp hneither
      exact hnone ⟨k, hway.1, hreturned, not_lt.mp hsuperseded⟩
  · rintro hall ⟨k, hlast, hreturned, hsuperseded⟩
    rcases hall k (by omega) with hmem | hlt
    · exact hreturned hmem
    · omega

/-- Where nothing can be on its way any more, everything must have been delivered. -/
theorem handedOver_iff_of_settled (h : s.HandedOver)
    (hwhole : ∀ n buffer, t.held n = some buffer → t.Whole buffer)
    (hcaptured : t.captured = s.captured) (hreturned : t.returned = s.returned)
    (hsuperseded : t.superseded = s.superseded) (hsettled : ∀ k, ¬ t.OnItsWay k) :
    t.HandedOver ↔ ¬ s.Undelivered := by
  rw [not_undelivered_iff h]
  constructor
  · intro ht k hk
    rw [← hcaptured] at hk
    rcases ht.notLost k hk with hmem | hlt | hway
    · exact .inl (hreturned ▸ hmem)
    · exact .inr (hsuperseded ▸ hlt)
    · exact absurd hway (hsettled k)
  · intro hall
    refine ⟨hwhole, fun k hk => ?_⟩
    rw [hcaptured] at hk
    rw [hreturned, hsuperseded]
    rcases hall k hk with hmem | hlt
    · exact .inl hmem
    · exact .inr (.inl hlt)

/-- A frame is handed over by the counter, unless the counter comes around to the reader. -/
theorem handedOver_increaseCounter_iff (h : s.HandedOver)
    (hphase : s.capture.phase = .increaseCounter) :
    s.increaseCounter.HandedOver ↔
      (s.Undelivered → Counter.next s.memory.frameCounter.write ≠ s.memory.frameCounter.read) := by
  have hwhole (n : ℕ) (buffer : PixelBuffer) (hheld : s.increaseCounter.held n = some buffer) :
      s.increaseCounter.Whole buffer :=
    (h.whole n buffer hheld).of_memory rfl rfl List.prefix_rfl
  have hway (k : ℕ) : s.increaseCounter.OnItsWay k ↔ s.OnItsWay k ∧
      Counter.next s.memory.frameCounter.write ≠ s.memory.frameCounter.read := by
    rw [onItsWay_iff rfl, OnItsWay, hphase, increaseCounter]
    simp only [Counter.increase_eq]
    tauto
  by_cases hne : Counter.next s.memory.frameCounter.write ≠ s.memory.frameCounter.read
  · refine iff_of_true (h.of_onItsWay hwhole rfl rfl rfl fun k hk => ?_) fun _ => hne
    exact (hway k).mpr ⟨hk, hne⟩
  · rw [handedOver_iff_of_settled h hwhole rfl rfl rfl fun k hk => hne ((hway k).mp hk).2]
    exact ⟨fun hnone hund => absurd hund hnone, fun himp hund => hne (himp hund)⟩

/-- A new capturer hands over what was held unless another one holds a frame. -/
theorem handedOver_newCapturer_iff (s : HandOver) (n currentDisplay : ℕ)
    (displays : Option (List Display)) :
    (s.newCapturer n currentDisplay displays).HandedOver ↔
      ∀ n', n' ≠ n → s.held n' = none := by
  obtain ⟨hsame, -⟩ := newCapturer_memory s n currentDisplay displays
  constructor
  · intro ht n' hn'
    by_contra hheld
    obtain ⟨buffer, hbuffer⟩ := Option.ne_none_iff_exists'.mp hheld
    have hbuffer' : (s.newCapturer n currentDisplay displays).held n' = some buffer := by
      rw [← hbuffer]
      exact Function.update_of_ne hn' _ _
    obtain ⟨k, f, -, hof, -⟩ := ht.whole n' buffer hbuffer'
    rw [hsame.frameOf] at hof
    cases hof
  · intro hnone
    refine ⟨fun n' buffer hheld => ?_, fun k hk => .inr (.inl hk)⟩
    have hheld : Function.update s.held n none n' = some buffer := hheld
    rw [Function.update_apply] at hheld
    split_ifs at hheld with hn'
    rw [hnone n' hn'] at hheld
    cases hheld

/-- A call of `frame` that returns no frame. -/
theorem callFrame_none {n timeout : ℕ} {c : CapturerPortable}
    (hresult : ∀ buffer, (c.frame timeout s.memory).1 ≠ .ok buffer) :
    (s.callFrame n c timeout).held = Function.update s.held n none ∧
      (s.callFrame n c timeout).returned = s.returned := by
  rw [callFrame]
  generalize c.frame timeout s.memory = p at hresult
  obtain ⟨result, memory⟩ := p
  cases result with
  | ok buffer => exact absurd rfl (hresult buffer)
  | error => exact ⟨rfl, rfl⟩
  | panic => exact ⟨rfl, rfl⟩

/-- A frame that was fetched is held by its capturer. -/
theorem callFrame_ok {n timeout : ℕ} {c : CapturerPortable} {buffer : PixelBuffer}
    (hresult : (c.frame timeout s.memory).1 = .ok buffer) :
    (s.callFrame n c timeout).held = Function.update s.held n (some buffer) ∧
      (s.callFrame n c timeout).returned = buffer.infoOf.toList ++ s.returned := by
  rw [callFrame]
  generalize c.frame timeout s.memory = p at hresult
  obtain ⟨result, memory⟩ := p
  obtain rfl : result = .ok buffer := hresult
  exact ⟨rfl, rfl⟩

/-- While a frame is written, taking one out does not take the new one away. -/
theorem onItsWay_of_writing {k : ℕ} (hwriting : s.capture.phase.writing = true)
    (hmemory : s.memory.SameFrames t.memory) (hcapture : t.capture = s.capture)
    (hcaptured : t.captured = s.captured) (hway : s.OnItsWay k) : t.OnItsWay k := by
  obtain ⟨hlast, hway⟩ := hway
  refine ⟨by rw [hcaptured, hlast], ?_⟩
  rw [hcapture]
  cases hphase : s.capture.phase <;>
    simp_all [CapturePhase.writing, hmemory.infoOf, hmemory.frameOf]

/-- What `frame` returns outside the writing of pixels is whole. -/
theorem whole_of_fits (hs : s.Traced) (hne : ∀ data, s.capture.phase ≠ .writeFrame data)
    {c : CapturerPortable} (hfits : c.Fits s.memory) (hheight : c.height ≠ 0) (stride : ℕ) :
    s.Whole ⟨s.memory.frameInfo.length, c.width, c.height, stride, s.memory.infoOf⟩ := by
  have hinfoOf : s.memory.infoOf ≠ none := by
    intro hnone
    exact hheight (hfits.2.symm.trans (hs.memory.cleared hnone))
  obtain ⟨k, hk⟩ := Option.ne_none_iff_exists'.mp hinfoOf
  have hof := hs.together hne k hk
  obtain ⟨f, hf, hinfo⟩ := hs.memory.info k hk
  obtain ⟨g, hg, hslice⟩ := hs.memory.pixels k hof
  obtain rfl : f = g := Option.some.inj (hf.symm.trans hg)
  refine ⟨k, f, hk, hof, hf, ?_, ?_⟩
  · rw [← hinfo, ← hfits.1, ← hfits.2]
  · rw [hinfo]
    exact hslice

/-- The frames in use after a call of `frame` are whole if the one it returns is. -/
theorem whole_callFrame (h : s.HandedOver) {n timeout : ℕ} {c : CapturerPortable}
    {new : Option PixelBuffer}
    (hheld : (s.callFrame n c timeout).held = Function.update s.held n new)
    (hnew : ∀ buffer, new = some buffer → s.Whole buffer) (n' : ℕ) (buffer : PixelBuffer)
    (hbuffer : (s.callFrame n c timeout).held n' = some buffer) :
    (s.callFrame n c timeout).Whole buffer := by
  obtain ⟨hmemory, -, hcaptured, -⟩ := callFrame_frame s n c timeout
  obtain ⟨hsame, -⟩ := frame_cases c timeout s.memory
  rw [← hmemory] at hsame
  have hkept (hwhole : s.Whole buffer) : (s.callFrame n c timeout).Whole buffer :=
    hwhole.of_memory hsame.frameOf hsame.frame (hcaptured ▸ List.prefix_rfl)
  rw [hheld, Function.update_apply] at hbuffer
  split_ifs at hbuffer
  · exact hkept (hnew buffer hbuffer)
  · exact hkept (h.whole n' buffer hbuffer)

/-- Nothing new is there. -/
theorem handedOver_callFrame_of_equal (h : s.HandedOver) {n timeout : ℕ} {c : CapturerPortable}
    (hresult : ∀ buffer, (c.frame timeout s.memory).1 ≠ .ok buffer)
    (hcounter : (s.callFrame n c timeout).memory.frameCounter = s.memory.frameCounter) :
    (s.callFrame n c timeout).HandedOver := by
  obtain ⟨hmemory, hcapture, hcaptured, hsuperseded⟩ := callFrame_frame s n c timeout
  obtain ⟨hsame, -⟩ := frame_cases c timeout s.memory
  rw [← hmemory] at hsame
  obtain ⟨hheld, hreturned⟩ := callFrame_none (n := n) hresult
  refine h.of_onItsWay (whole_callFrame h hheld (by simp)) hcaptured hreturned hsuperseded
    fun k hway => ?_
  rw [OnItsWay, hcapture, hcaptured, hsame.infoOf, hsame.frameOf, hcounter]
  exact hway

/-- Something new is taken out and not returned. -/
theorem handedOver_callFrame_of_skipped (h : s.HandedOver) {n timeout : ℕ}
    {c : CapturerPortable} (hresult : ∀ buffer, (c.frame timeout s.memory).1 ≠ .ok buffer)
    (hcounter : (s.callFrame n c timeout).memory.frameCounter.write =
      (s.callFrame n c timeout).memory.frameCounter.read) :
    (s.callFrame n c timeout).HandedOver ↔
      (s.capture.phase.writing = false → ¬ s.Undelivered) := by
  obtain ⟨hmemory, hcapture, hcaptured, hsuperseded⟩ := callFrame_frame s n c timeout
  obtain ⟨hsame, -⟩ := frame_cases c timeout s.memory
  rw [← hmemory] at hsame
  obtain ⟨hheld, hreturned⟩ := callFrame_none (n := n) hresult
  have hwhole := whole_callFrame h hheld (by simp)
  cases hwriting : s.capture.phase.writing with
  | true =>
    refine iff_of_true (h.of_onItsWay hwhole hcaptured hreturned hsuperseded fun k hway => ?_)
      fun hfalse => by cases hfalse
    exact onItsWay_of_writing hwriting hsame hcapture hcaptured hway
  | false =>
    rw [handedOver_iff_of_settled h hwhole hcaptured hreturned hsuperseded fun k hway => ?_]
    · exact ⟨fun hnone _ => hnone, fun hnone => hnone rfl⟩
    · rw [onItsWay_iff (by rw [hcapture, hwriting])] at hway
      exact hway.2.2.2 hcounter

/-- Something new is returned. -/
theorem handedOver_callFrame_of_returned (hs : s.Traced) (h : s.HandedOver) {n timeout : ℕ}
    {c : CapturerPortable} (hfits : c.Fits s.memory) (hheight : c.height ≠ 0) {stride : ℕ}
    (hresult : (c.frame timeout s.memory).1 =
      .ok ⟨s.memory.frameInfo.length, c.width, c.height, stride, s.memory.infoOf⟩) :
    (s.callFrame n c timeout).HandedOver ↔ ∀ data, s.capture.phase ≠ .writeFrame data := by
  obtain ⟨hmemory, hcapture, hcaptured, hsuperseded⟩ := callFrame_frame s n c timeout
  obtain ⟨hsame, -⟩ := frame_cases c timeout s.memory
  rw [← hmemory] at hsame
  obtain ⟨hheld, hreturned⟩ := callFrame_ok (n := n) hresult
  constructor
  · intro ht data hphase
    have hbuffer : (s.callFrame n c timeout).held n = some
        ⟨s.memory.frameInfo.length, c.width, c.height, stride, s.memory.infoOf⟩ := by
      rw [hheld, Function.update_self]
    obtain ⟨k, f, hinfoOf, hof, -⟩ := ht.whole n _ hbuffer
    rw [hsame.frameOf] at hof
    obtain rfl := hs.half data hphase k hinfoOf
    exact (hs.current data (.inr hphase)).2 hof
  · intro hne
    refine ⟨whole_callFrame h hheld fun buffer hbuffer => ?_, fun k hk => ?_⟩
    · obtain rfl := Option.some.inj hbuffer
      exact whole_of_fits hs hne hfits hheight stride
    · rw [hcaptured] at hk
      rw [hreturned, hsuperseded]
      rcases h.notLost k hk with hmem | hlt | hway
      · exact .inl (List.mem_append_right _ hmem)
      · exact .inr (.inl hlt)
      · cases hwriting : s.capture.phase.writing with
        | true =>
          exact .inr (.inr (onItsWay_of_writing hwriting hsame hcapture hcaptured hway))
        | false =>
          obtain ⟨-, hinfoOf, -⟩ := (onItsWay_iff hwriting k).mp hway
          refine .inl (List.mem_append_left _ ?_)
          rw [hinfoOf]
          exact List.mem_singleton_self k

/-- A frame that waits is returned by the next call that asks for its size. -/
theorem ok_of_onItsWay (hs : s.Traced) (hwriting : s.capture.phase.writing = false) {k : ℕ}
    (hway : s.OnItsWay k) {c : CapturerPortable} (hfits : c.Fits s.memory)
    (hheight : c.height ≠ 0) (timeout : ℕ) :
    ∃ buffer, (c.frame timeout s.memory).1 = .ok buffer ∧ buffer.infoOf = some k ∧
      s.Whole buffer := by
  obtain ⟨-, hinfoOf, -, hne⟩ := (onItsWay_iff hwriting k).mp hway
  obtain ⟨-, ⟨hequal, -⟩ | ⟨-, -, hresult⟩⟩ := frame_cases c timeout s.memory
  · exact absurd hequal hne
  · rcases hresult with ⟨hnot, -⟩ | ⟨-, hzero, -⟩ | ⟨-, -, stride, hresult⟩
    · exact absurd hfits hnot
    · exact absurd hzero hheight
    · exact ⟨_, hresult, hinfoOf, whole_of_fits hs (ne_writeFrame hwriting) hfits hheight stride⟩

/-- A fetch hands the frame over if and only if it fits. -/
theorem handedOver_callFrame_iff (hs : s.Traced) (h : s.HandedOver) (n timeout : ℕ)
    (c : CapturerPortable) :
    (s.callFrame n c timeout).HandedOver ↔
      (s.memory.frameCounter.write ≠ s.memory.frameCounter.read →
        if c.Fits s.memory ∧ c.height ≠ 0 then ∀ data, s.capture.phase ≠ .writeFrame data
        else s.capture.phase.writing = false → ¬ s.Undelivered) := by
  obtain ⟨hmemory, -⟩ := callFrame_frame s n c timeout
  obtain ⟨-, hcases⟩ := frame_cases c timeout s.memory
  rw [← hmemory] at hcases
  rcases hcases with ⟨hequal, hcounter, kind, message, hresult⟩ | ⟨hne, hcounter, hresult⟩
  · exact iff_of_true (handedOver_callFrame_of_equal h (by simp [hresult]) hcounter)
      fun hne => absurd hequal hne
  · have hequal : (s.callFrame n c timeout).memory.frameCounter.write =
        (s.callFrame n c timeout).memory.frameCounter.read := by rw [hcounter]
    rcases hresult with ⟨hfits, hresult⟩ | ⟨hfits, hheight, hresult⟩ |
      ⟨hfits, hheight, stride, hresult⟩
    · rw [handedOver_callFrame_of_skipped h (by simp [hresult]) hequal]
      simp [hne, hfits]
    · rw [handedOver_callFrame_of_skipped h (by simp [hresult]) hequal]
      simp [hne, hheight]
    · rw [handedOver_callFrame_of_returned hs h hfits hheight hresult]
      simp [hne, hfits, hheight]

/-- **One step** hands every frame over if and only if it comes in turn. -/
theorem handedOver_step_iff {e : PortableEvent} (hstep : step s e = some t) (hs : s.Traced)
    (h : s.HandedOver) : t.HandedOver ↔ s.InTurn e := by
  cases Step.of_step hstep with
  | setExit =>
    refine iff_of_true (h.of_onItsWay (fun n buffer hheld => ?_) rfl rfl rfl fun _ => id) trivial
    exact (h.whole n buffer hheld).of_memory rfl rfl List.prefix_rfl
  | loopStart displays created hphase =>
    exact iff_of_true ((idle_loopStart hphase displays created).handedOver h) trivial
  | waitEqual hphase => exact iff_of_true ((idle_waitEqual hphase).handedOver h) trivial
  | captureFrame result hphase =>
    refine iff_of_true ?_ trivial
    cases result with
    | pixelBuffer data => exact handedOver_captured hs h hphase data
    | texture => exact (idle_captureFrame hphase (by simp)).handedOver h
    | error => exact (idle_captureFrame hphase (by simp)).handedOver h
  | setFrameInfo data hphase => exact iff_of_true (handedOver_setFrameInfo h data) trivial
  | writeFrame data hphase => exact handedOver_writeFrame_iff hs h hphase
  | writeWouldblock hphase => exact iff_of_true (handedOver_writeWouldblock h hphase) trivial
  | increaseCounter hphase => exact handedOver_increaseCounter_iff h hphase
  | newCapturer n currentDisplay displays =>
    exact handedOver_newCapturer_iff s n currentDisplay displays
  | frame n timeout c hc =>
    rw [handedOver_callFrame_iff hs h]
    refine ⟨fun himp c' hc' => ?_, fun hturn => hturn c hc⟩
    obtain rfl : c = c' := Option.some.inj (hc.symm.trans hc')
    exact himp

/-- **Frames of the portable service.** In every order of the steps, the frames that are returned
stay whole and none is lost, if and only if the two processes take turns. -/
theorem handedOver_iff_inTurn {events : List PortableEvent}
    (hrun : machine.Run machine.init events s) :
    (∀ first u, first <+: events → machine.Run machine.init first u → u.HandedOver) ↔
      machine.RunWhere InTurn machine.init events s := by
  have htraced : machine.init.Traced := by
    refine ⟨SharedMemory.traced_zeroed, fun data hphase => ?_, fun data hphase => ?_,
      fun _ k hk => ?_, fun hfirst => ?_, fun _ _ => le_rfl⟩
    · rcases hphase with hphase | hphase <;> cases hphase
    · cases hphase
    · cases hk
    · cases hfirst
  have hinit : machine.init.HandedOver := by
    refine ⟨fun n buffer hheld => ?_, fun k hk => ?_⟩
    · cases hheld
    · cases hk
  exact Machine.runWhere_iff_beside (fun _ _ _ hstep hs => traced_step hstep hs)
    (fun _ _ _ hstep hs h => handedOver_step_iff hstep hs h) htraced hinit hrun

/-- The steps of the service for one frame, from the wait on. -/
def captureSteps (data : List UInt8) : List PortableEvent :=
  [.waitEqual, .captureFrame (.pixelBuffer data), .setFrameInfo, .writeFrame, .writeWouldblock,
    .increaseCounter]

/-- The first frame is captured and returned. -/
def firstFrame : List PortableEvent :=
  [.newCapturer 0 0 (some [⟨1, 1⟩]), .loopStart (some [⟨1, 1⟩]) true] ++ captureSteps [1] ++
    [.frame 0 33]

/-- While the first frame is in use, the second one is captured. -/
def secondFrame : List PortableEvent := firstFrame ++ .loopStart none false :: captureSteps [2]

/-- The state after some events. -/
def after (events : List PortableEvent) : HandOver :=
  (machine.replay machine.init events).getD machine.init

/-- The equivalence on a run that fetches its first frame. -/
theorem handedOver_iff_inTurn_firstFrame :
    (∀ first u, first <+: firstFrame → machine.Run machine.init first u → u.HandedOver) ↔
      machine.RunWhere InTurn machine.init firstFrame (after firstFrame) :=
  handedOver_iff_inTurn (Machine.run_of_replay rfl)

/-- The frame that was returned has the pixels of the next one. -/
theorem not_handedOver_secondFrame :
    ¬ ∀ events s, machine.Run machine.init events s → s.HandedOver := by
  intro hall
  have hs := hall secondFrame (after secondFrame) (Machine.run_of_replay rfl)
  obtain ⟨k, f, hinfoOf, -, hf, -, hslice⟩ := hs.whole 0 ⟨1, 1, 1, 1, some 0⟩ rfl
  obtain rfl : 0 = k := Option.some.inj hinfoOf
  obtain rfl : ⟨[1], 1, 1⟩ = f := Option.some.inj hf
  have hbytes : (after secondFrame).memory.slice 1 = [2] := rfl
  rw [hbytes] at hslice
  cases hslice

end HandOver

end RdWeb.PortableService
