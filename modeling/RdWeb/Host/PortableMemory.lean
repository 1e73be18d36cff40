import RdWeb.Host.PortableService

/-!
# What lies in the shared memory

Which captured frame the info and the pixels in the memory belong to, at every step of the two
processes. Outside the writes of the service both belong to the same frame, and after the wait
the counters are equal.
-/

namespace RdWeb.PortableService

open CapturerPortable

/-- Two memories with the same frame: they may differ in the parameters, the would-block flag
and the counter. -/
structure SharedMemory.SameFrames (m m' : SharedMemory) : Prop where
  frameInfo : m'.frameInfo = m.frameInfo
  frame : m'.frame = m.frame
  infoOf : m'.infoOf = m.infoOf
  frameOf : m'.frameOf = m.frameOf

/-- Nothing changed in the frames. -/
theorem SharedMemory.sameFrames_refl (m : SharedMemory) : m.SameFrames m := ⟨rfl, rfl, rfl, rfl⟩

/-- What `infoOf` and `frameOf` say about the memory. -/
structure SharedMemory.Traced (m : SharedMemory) (captured : List CapturedFrame) : Prop where
  info : ∀ k, m.infoOf = some k → ∃ f, captured[k]? = some f ∧ m.frameInfo = f.info
  cleared : m.infoOf = none → m.frameInfo.height = 0
  pixels : ∀ k, m.frameOf = some k → ∃ f, captured[k]? = some f ∧ m.slice f.data.length = f.data

namespace SharedMemory

variable {m m' : SharedMemory} {captured : List CapturedFrame}

/-- The same frames have the same slice. -/
theorem SameFrames.slice (h : m.SameFrames m') : m'.slice = m.slice := by
  funext length
  rw [SharedMemory.slice, SharedMemory.slice, h.frame]

/-- The same frames are traced alike. -/
theorem SameFrames.traced (h : m.SameFrames m') (hm : m.Traced captured) : m'.Traced captured := by
  refine ⟨fun k hk => ?_, fun hnone => ?_, fun k hk => ?_⟩
  · rw [h.frameInfo]
    exact hm.info k (h.infoOf ▸ hk)
  · rw [h.frameInfo]
    exact hm.cleared (h.infoOf ▸ hnone)
  · rw [h.slice]
    exact hm.pixels k (h.frameOf ▸ hk)

/-- A captured frame keeps its number. -/
theorem getElem?_append_of_some {k : ℕ} {g : CapturedFrame} (hg : captured[k]? = some g)
    (f : CapturedFrame) : (captured ++ [f])[k]? = some g := by
  obtain ⟨hk, -⟩ := List.getElem?_eq_some_iff.mp hg
  rw [List.getElem?_append_left hk, hg]

/-- Capturing more changes nothing about the frames before. -/
theorem Traced.append (hm : m.Traced captured) (f : CapturedFrame) :
    m.Traced (captured ++ [f]) := by
  refine ⟨fun k hk => ?_, hm.cleared, fun k hk => ?_⟩
  · obtain ⟨g, hg, hinfo⟩ := hm.info k hk
    exact ⟨g, getElem?_append_of_some hg f, hinfo⟩
  · obtain ⟨g, hg, hslice⟩ := hm.pixels k hk
    exact ⟨g, getElem?_append_of_some hg f, hslice⟩

/-- The size of a captured frame may be written. -/
theorem Traced.setFrameInfo (hm : m.Traced captured) {k : ℕ} {f : CapturedFrame}
    (hf : captured[k]? = some f) : (m.setFrameInfo k f.info).Traced captured := by
  refine ⟨fun j hj => ?_, fun hnone => (Option.some_ne_none k hnone).elim, hm.pixels⟩
  obtain rfl : k = j := Option.some.inj hj
  exact ⟨f, hf, rfl⟩

/-- The data of a captured frame may be written. -/
theorem Traced.writeFrame (hm : m.Traced captured) {k : ℕ} {f : CapturedFrame}
    (hf : captured[k]? = some f) : (m.writeFrame k f.data).Traced captured := by
  refine ⟨hm.info, hm.cleared, fun j hj => ?_⟩
  obtain rfl : k = j := Option.some.inj hj
  exact ⟨f, hf, slice_writeFrame m k f.data⟩

/-- Memory that was cleared is traced. -/
theorem traced_zeroed : zeroed.Traced captured :=
  ⟨fun _ h => (Option.some_ne_none _ h.symm).elim, fun _ => rfl,
    fun _ h => (Option.some_ne_none _ h.symm).elim⟩

end SharedMemory

/-- Passing the time does not touch the frames. -/
theorem sameFrames_passTimeout (timeout : ℕ) (m : SharedMemory) :
    m.SameFrames (passTimeout timeout m) ∧
      (passTimeout timeout m).frameCounter = m.frameCounter := by
  rw [passTimeout]
  split_ifs
  · exact ⟨⟨rfl, rfl, rfl, rfl⟩, rfl⟩
  · exact ⟨m.sameFrames_refl, rfl⟩

/-- All that a call of `frame` can do. -/
theorem frame_cases (c : CapturerPortable) (timeout : ℕ) (m : SharedMemory) :
    m.SameFrames (c.frame timeout m).2 ∧
    ((m.frameCounter.write = m.frameCounter.read ∧
      (c.frame timeout m).2.frameCounter = m.frameCounter ∧
      ∃ kind message, (c.frame timeout m).1 = .error kind message) ∨
    (m.frameCounter.write ≠ m.frameCounter.read ∧
      (c.frame timeout m).2.frameCounter = ⟨m.frameCounter.write, m.frameCounter.write⟩ ∧
      ((¬ c.Fits m ∧ (c.frame timeout m).1 = .error .wouldBlock "wouldblock error") ∨
        (c.Fits m ∧ c.height = 0 ∧ (c.frame timeout m).1 = .panic) ∨
        (c.Fits m ∧ c.height ≠ 0 ∧ ∃ stride, (c.frame timeout m).1 =
          .ok ⟨m.frameInfo.length, c.width, c.height, stride, m.infoOf⟩)))) := by
  obtain ⟨hsame, hcounter⟩ := sameFrames_passTimeout timeout m
  rw [frame]
  dsimp only
  generalize passTimeout timeout m = p at hsame hcounter
  have hfits : c.Fits p ↔ c.Fits m := by rw [Fits, Fits, hsame.frameInfo]
  have hsame' (counter : Counter) : m.SameFrames { p with frameCounter := counter } :=
    ⟨hsame.frameInfo, hsame.frame, hsame.infoOf, hsame.frameOf⟩
  by_cases hequal : m.frameCounter.write = m.frameCounter.read
  · have hready : p.frameCounter.ready = (false, m.frameCounter) := by
      rw [hcounter]
      exact if_neg (not_not.mpr hequal.symm)
    simp only [hready]
    split_ifs
    · exact ⟨hsame' _, .inl ⟨hequal, rfl, _, _, rfl⟩⟩
    · exact ⟨hsame' _, .inl ⟨hequal, rfl, _, _, rfl⟩⟩
  · have hready : p.frameCounter.ready =
        (true, ⟨m.frameCounter.write, m.frameCounter.write⟩) := by
      rw [hcounter]
      exact if_pos (Ne.symm hequal)
    simp only [hready]
    split_ifs with hfit
    · have hfit : c.Fits m := hfits.mp hfit
      by_cases hheight : c.height = 0
      · have hnew : PixelBuffer.new p.frameInfo.length c.width c.height p.infoOf = none :=
          if_pos hheight
        simp only [hnew]
        exact ⟨hsame' _, .inr ⟨hequal, trivial, .inr (.inl ⟨hfit, hheight, trivial⟩)⟩⟩
      · have hnew : PixelBuffer.new p.frameInfo.length c.width c.height p.infoOf =
          some ⟨p.frameInfo.length, c.width, c.height, p.frameInfo.length / c.height, p.infoOf⟩ :=
            if_neg hheight
        simp only [hnew]
        refine ⟨hsame' _, .inr ⟨hequal, trivial, .inr (.inr ⟨hfit, hheight, ?_⟩)⟩⟩
        exact ⟨_, by rw [hsame.frameInfo, hsame.infoOf]⟩
    · have hfit : ¬ c.Fits m := fun h => hfit (hfits.mpr h)
      exact ⟨hsame' _, .inr ⟨hequal, rfl, .inl ⟨hfit, rfl⟩⟩⟩

namespace HandOver

variable {s t : HandOver}

/-- What the phase says about the memory, and what `first_frame_captured` says about the
counters. -/
structure Traced (s : HandOver) : Prop where
  memory : s.memory.Traced s.captured
  current : ∀ data, s.capture.phase = .setFrameInfo data ∨ s.capture.phase = .writeFrame data →
    s.captured[s.last]? = some ⟨data, s.capture.displayWidth, s.capture.displayHeight⟩ ∧
      s.memory.frameOf ≠ some s.last
  half : ∀ data, s.capture.phase = .writeFrame data →
    ∀ k, s.memory.infoOf = some k → k = s.last
  together : (∀ data, s.capture.phase ≠ .writeFrame data) →
    ∀ k, s.memory.infoOf = some k → s.memory.frameOf = some k
  waited : s.capture.firstFrameCaptured = true →
    s.capture.phase = .captureFrame ∨ s.capture.phase.writing = true →
      s.memory.frameCounter.write = s.memory.frameCounter.read
  first : s.capture.firstFrameCaptured = false → s.capture.phase.writing = false →
    s.captured.length ≤ s.superseded

/-- The steps, with the phase each of them is taken in. -/
inductive Step (s : HandOver) : PortableEvent → HandOver → Prop
  | setExit : Step s .setExit { s with exit := true }
  | loopStart (displays : Option (List Display)) (created : Bool)
      (hphase : s.capture.phase = .loopStart) :
      Step s (.loopStart displays created) (s.loopStart displays created)
  | waitEqual (hphase : s.capture.phase = .waitEqual) : Step s .waitEqual s.waitEqual
  | captureFrame (result : CaptureResult) (hphase : s.capture.phase = .captureFrame) :
      Step s (.captureFrame result) (s.captureFrame result)
  | setFrameInfo (data : List UInt8) (hphase : s.capture.phase = .setFrameInfo data) :
      Step s .setFrameInfo (s.setFrameInfo data)
  | writeFrame (data : List UInt8) (hphase : s.capture.phase = .writeFrame data) :
      Step s .writeFrame (s.writeFrame data)
  | writeWouldblock (hphase : s.capture.phase = .writeWouldblock) :
      Step s .writeWouldblock s.writeWouldblock
  | increaseCounter (hphase : s.capture.phase = .increaseCounter) :
      Step s .increaseCounter s.increaseCounter
  | newCapturer (n currentDisplay : ℕ) (displays : Option (List Display)) :
      Step s (.newCapturer n currentDisplay displays) (s.newCapturer n currentDisplay displays)
  | frame (n timeout : ℕ) (c : CapturerPortable) (hc : s.capturers n = some c) :
      Step s (.frame n timeout) (s.callFrame n c timeout)

/-- A step is one of the kinds of steps. -/
theorem Step.of_step {e : PortableEvent} (hstep : step s e = some t) : Step s e t := by
  cases e with
  | setExit =>
    obtain rfl := Option.some.inj hstep
    exact .setExit
  | loopStart displays created =>
    cases hphase : s.capture.phase <;> simp only [step, hphase, reduceCtorEq] at hstep
    obtain rfl := Option.some.inj hstep
    exact .loopStart displays created hphase
  | waitEqual =>
    cases hphase : s.capture.phase <;> simp only [step, hphase, reduceCtorEq] at hstep
    obtain rfl := Option.some.inj hstep
    exact .waitEqual hphase
  | captureFrame result =>
    cases hphase : s.capture.phase <;> simp only [step, hphase, reduceCtorEq] at hstep
    obtain rfl := Option.some.inj hstep
    exact .captureFrame result hphase
  | setFrameInfo =>
    cases hphase : s.capture.phase <;> simp only [step, hphase, reduceCtorEq] at hstep
    obtain rfl := Option.some.inj hstep
    exact .setFrameInfo _ hphase
  | writeFrame =>
    cases hphase : s.capture.phase <;> simp only [step, hphase, reduceCtorEq] at hstep
    obtain rfl := Option.some.inj hstep
    exact .writeFrame _ hphase
  | writeWouldblock =>
    cases hphase : s.capture.phase <;> simp only [step, hphase, reduceCtorEq] at hstep
    obtain rfl := Option.some.inj hstep
    exact .writeWouldblock hphase
  | increaseCounter =>
    cases hphase : s.capture.phase <;> simp only [step, hphase, reduceCtorEq] at hstep
    obtain rfl := Option.some.inj hstep
    exact .increaseCounter hphase
  | newCapturer n currentDisplay displays =>
    rw [step] at hstep
    split_ifs at hstep
    obtain rfl := Option.some.inj hstep
    exact .newCapturer n currentDisplay displays
  | frame n timeout =>
    rw [step] at hstep
    split_ifs at hstep
    obtain ⟨c, hc, rfl⟩ := Option.map_eq_some_iff.mp hstep
    exact .frame n timeout c hc

/-- A step in which the service writes no frame: it moves on outside a write, and where it
creates a capturer, the frames before are superseded. -/
structure Idle (s t : HandOver) : Prop where
  memory : s.memory.SameFrames t.memory
  counter : t.memory.frameCounter = s.memory.frameCounter
  captured : t.captured = s.captured
  returned : t.returned = s.returned
  held : t.held = s.held
  writing : s.capture.phase.writing = false
  writing' : t.capture.phase.writing = false
  superseded : (t.superseded = s.superseded ∧
      t.capture.firstFrameCaptured = s.capture.firstFrameCaptured) ∨
    t.superseded = s.captured.length
  waited : t.capture.firstFrameCaptured = true → t.capture.phase = .captureFrame →
    s.memory.frameCounter.write = s.memory.frameCounter.read

/-- A phase that does not write is idle. -/
theorem Idle.of_phase {phase : CapturePhase} (hwriting : s.capture.phase.writing = false)
    (hphase : phase.writing = false) (hcapture : phase ≠ .captureFrame) :
    s.Idle (s.setPhase phase) :=
  ⟨s.memory.sameFrames_refl, rfl, rfl, rfl, rfl, hwriting, hphase, .inl ⟨rfl, rfl⟩,
    fun _ h => absurd h hcapture⟩

/-- Creating the capturer is idle. -/
theorem idle_createCapturer (hphase : s.capture.phase = .loopStart)
    (displays : Option (List Display)) (created : Bool) :
    s.Idle (s.createCapturer displays created) := by
  have hwriting : s.capture.phase.writing = false := by rw [hphase]; rfl
  have hgiveUp : s.Idle s.giveUp :=
    ⟨s.memory.sameFrames_refl, rfl, rfl, rfl, rfl, hwriting, rfl, .inl ⟨rfl, rfl⟩,
      fun _ h => by cases h⟩
  rw [createCapturer.eq_def]
  split
  · exact hgiveUp
  · split
    · exact hgiveUp
    · cases created with
      | true =>
        exact ⟨⟨rfl, rfl, rfl, rfl⟩, rfl, rfl, rfl, rfl, hwriting, rfl, .inr rfl,
          fun _ h => by cases h⟩
      | false =>
        refine ⟨s.memory.sameFrames_refl, rfl, rfl, rfl, rfl, hwriting, hwriting, .inl ⟨rfl, rfl⟩,
          fun _ h => ?_⟩
        have hne : s.capture.phase ≠ .captureFrame := by rw [hphase]; simp
        exact absurd h hne

/-- Dropping the capturer is idle. -/
theorem idle_dropCapturer (hwriting : s.capture.phase.writing = false) : s.Idle s.dropCapturer :=
  ⟨s.memory.sameFrames_refl, rfl, rfl, rfl, rfl, hwriting, rfl, .inl ⟨rfl, rfl⟩,
    fun _ h => by cases h⟩

/-- The start of the loop is idle. -/
theorem idle_loopStart (hphase : s.capture.phase = .loopStart) (displays : Option (List Display))
    (created : Bool) : s.Idle (s.loopStart displays created) := by
  have hwriting : s.capture.phase.writing = false := by rw [hphase]; rfl
  rw [loopStart]
  dsimp only
  split_ifs with hexit hc hpara htimeout
  · exact .of_phase hwriting rfl (by simp)
  · exact idle_createCapturer hphase displays created
  · exact idle_dropCapturer hwriting
  · exact ⟨s.memory.sameFrames_refl, rfl, rfl, rfl, rfl, hwriting, rfl, .inl ⟨rfl, rfl⟩,
      fun _ h => by cases h⟩
  · exact .of_phase hwriting rfl (by simp)

/-- Waiting for the reader is idle. -/
theorem idle_waitEqual (hphase : s.capture.phase = .waitEqual) : s.Idle s.waitEqual := by
  have hwriting : s.capture.phase.writing = false := by rw [hphase]; rfl
  rw [waitEqual]
  split_ifs with hwait
  · exact ⟨s.memory.sameFrames_refl, rfl, rfl, rfl, rfl, hwriting, rfl, .inl ⟨rfl, rfl⟩,
      fun _ h => by cases h⟩
  · refine ⟨s.memory.sameFrames_refl, rfl, rfl, rfl, rfl, hwriting, rfl, .inl ⟨rfl, rfl⟩,
      fun hfirst _ => ?_⟩
    have hequal : ¬ s.memory.frameCounter.equal = false := fun h => hwait ⟨hfirst, h⟩
    exact (Counter.equal_iff _).mp (by simpa using hequal)

/-- The would-block flag is no part of a frame. -/
theorem Idle.setWouldblock (h : s.Idle t) (wouldblock : BitVec 32) :
    s.Idle (t.setMemory { s.memory with wouldblock := wouldblock }) :=
  ⟨⟨rfl, rfl, rfl, rfl⟩, rfl, h.captured, h.returned, h.held, h.writing, h.writing',
    h.superseded, h.waited⟩

/-- A capture that gives no pixels. -/
theorem idle_captureFrame (hphase : s.capture.phase = .captureFrame) {result : CaptureResult}
    (hresult : ∀ data, result ≠ .pixelBuffer data) : s.Idle (s.captureFrame result) := by
  have hwriting : s.capture.phase.writing = false := by rw [hphase]; rfl
  have hloop : s.Idle (s.setPhase .loopStart) := .of_phase hwriting rfl (by simp)
  cases result with
  | pixelBuffer data => exact absurd rfl (hresult data)
  | texture => exact hloop
  | error desktopChanged wouldBlock isGdi =>
    rw [captureFrame]
    dsimp only
    generalize (if isGdi then s.capture.dxgiFailedTimes else s.capture.dxgiFailedTimes + 1) = times
    have hfailed : s.Idle { s with
        capture := { s.capture with dxgiFailedTimes := times, phase := .loopStart } } :=
      ⟨s.memory.sameFrames_refl, rfl, rfl, rfl, rfl, hwriting, rfl, .inl ⟨rfl, rfl⟩,
        fun _ h => by cases h⟩
    split_ifs
    · exact idle_dropCapturer hwriting
    · exact hloop.setWouldblock TRUE
    · exact ⟨⟨rfl, rfl, rfl, rfl⟩, rfl, rfl, rfl, rfl, hwriting, rfl, .inl ⟨rfl, rfl⟩,
        fun _ h => by cases h⟩
    · exact hfailed

/-- A phase that does not write does not write a frame. -/
theorem ne_writeFrame (hwriting : s.capture.phase.writing = false) (data : List UInt8) :
    s.capture.phase ≠ .writeFrame data := by
  intro hphase
  rw [hphase] at hwriting
  cases hwriting

/-- Nor is a frame current then. -/
theorem ne_current (hwriting : s.capture.phase.writing = false) {data : List UInt8} :
    ¬ (s.capture.phase = .setFrameInfo data ∨ s.capture.phase = .writeFrame data) := by
  rintro (hphase | hphase) <;> (rw [hphase] at hwriting; cases hwriting)

/-- An idle step leaves the memory traced. -/
theorem Idle.traced (h : s.Idle t) (hs : s.Traced) : t.Traced where
  memory := by
    rw [h.captured]
    exact h.memory.traced hs.memory
  current data hphase := absurd hphase (ne_current h.writing')
  half data hphase := absurd hphase (ne_writeFrame h.writing' data)
  together _ k hk := by
    rw [h.memory.infoOf] at hk
    rw [h.memory.frameOf]
    exact hs.together (ne_writeFrame h.writing) k hk
  waited hfirst hphase := by
    rw [h.counter]
    rcases hphase with hphase | hphase
    · exact h.waited hfirst hphase
    · rw [h.writing'] at hphase
      cases hphase
  first hfirst _ := by
    rw [h.captured]
    rcases h.superseded with ⟨hsuperseded, hkept⟩ | hsuperseded
    · rw [hsuperseded]
      exact hs.first (hkept ▸ hfirst) h.writing
    · exact hsuperseded.ge

/-- A call of the main process leaves the service where it is. -/
theorem Traced.of_memory (hs : s.Traced) (hmemory : s.memory.SameFrames t.memory)
    (hcapture : t.capture = s.capture) (hcaptured : t.captured = s.captured)
    (hsuperseded : t.superseded = s.superseded)
    (hcounter : s.memory.frameCounter.write = s.memory.frameCounter.read →
      t.memory.frameCounter.write = t.memory.frameCounter.read) : t.Traced where
  memory := by
    rw [hcaptured]
    exact hmemory.traced hs.memory
  current data := by
    rw [last, hcapture, hcaptured, hmemory.frameOf]
    exact hs.current data
  half data := by
    rw [last, hcapture, hcaptured, hmemory.infoOf]
    exact hs.half data
  together := by
    rw [hcapture, hmemory.infoOf, hmemory.frameOf]
    exact hs.together
  waited hfirst hphase := by
    rw [hcapture] at hfirst hphase
    exact hcounter (hs.waited hfirst hphase)
  first := by
    rw [hcapture, hcaptured, hsuperseded]
    exact hs.first

/-- The memory and the service after a call of `frame`. -/
theorem callFrame_frame (s : HandOver) (n : ℕ) (c : CapturerPortable) (timeout : ℕ) :
    (s.callFrame n c timeout).memory = (c.frame timeout s.memory).2 ∧
      (s.callFrame n c timeout).capture = s.capture ∧
      (s.callFrame n c timeout).captured = s.captured ∧
      (s.callFrame n c timeout).superseded = s.superseded := by
  rw [callFrame]
  obtain ⟨result, memory⟩ := c.frame timeout s.memory
  cases result <;> exact ⟨rfl, rfl, rfl, rfl⟩

/-- A fetch leaves the memory traced. -/
theorem traced_callFrame (hs : s.Traced) (n : ℕ) (c : CapturerPortable) (timeout : ℕ) :
    (s.callFrame n c timeout).Traced := by
  obtain ⟨hmemory, hcapture, hcaptured, hsuperseded⟩ := callFrame_frame s n c timeout
  obtain ⟨hsame, hcases⟩ := frame_cases c timeout s.memory
  rw [← hmemory] at hsame hcases
  refine hs.of_memory hsame hcapture hcaptured hsuperseded fun hequal => ?_
  rcases hcases with ⟨-, hcounter, -⟩ | ⟨hne, -⟩
  · rw [hcounter]
    exact hequal
  · exact absurd hequal hne

/-- A capture leaves the memory traced. -/
theorem traced_captured (hs : s.Traced) (hphase : s.capture.phase = .captureFrame)
    (data : List UInt8) : (s.captureFrame (.pixelBuffer data)).Traced where
  memory := hs.memory.append _
  current data' hphase' := by
    obtain rfl : data = data' := by simpa [captureFrame, setPhase] using hphase'
    refine ⟨by simp [captureFrame, last, setPhase], fun hframe => ?_⟩
    obtain ⟨f, hf, -⟩ := hs.memory.pixels _ hframe
    obtain ⟨hlt, -⟩ := List.getElem?_eq_some_iff.mp hf
    simp [captureFrame, last] at hlt
  half data' hphase' := by cases hphase'
  together _ := hs.together (by simp [hphase])
  waited hfirst _ := hs.waited hfirst (.inl hphase)
  first _ hwriting := by cases hwriting

/-- Writing the size leaves the memory traced. -/
theorem traced_setFrameInfo (hs : s.Traced) {data : List UInt8}
    (hphase : s.capture.phase = .setFrameInfo data) : (s.setFrameInfo data).Traced where
  memory := hs.memory.setFrameInfo (hs.current data (.inl hphase)).1
  current data' hphase' := by
    obtain rfl : data = data' := by simpa [setFrameInfo, setMemory, setPhase] using hphase'
    exact hs.current data (.inl hphase)
  half _ _ _ hk := (Option.some.inj hk).symm
  together hne := absurd rfl (hne data)
  waited hfirst _ := hs.waited hfirst (.inr (by rw [hphase]; rfl))
  first _ hwriting := by cases hwriting

/-- Writing the data leaves the memory traced. -/
theorem traced_writeFrame (hs : s.Traced) {data : List UInt8}
    (hphase : s.capture.phase = .writeFrame data) : (s.writeFrame data).Traced where
  memory := hs.memory.writeFrame (hs.current data (.inr hphase)).1
  current data' hphase' := by rcases hphase' with hphase' | hphase' <;> cases hphase'
  half _ hphase' := by cases hphase'
  together _ k hk := by
    obtain rfl := hs.half data hphase k hk
    rfl
  waited hfirst _ := hs.waited hfirst (.inr (by rw [hphase]; rfl))
  first _ hwriting := by cases hwriting

/-- Writing the flag leaves the memory traced. -/
theorem traced_writeWouldblock (hs : s.Traced) (hphase : s.capture.phase = .writeWouldblock) :
    s.writeWouldblock.Traced where
  memory := by
    have hsame : s.memory.SameFrames s.writeWouldblock.memory := ⟨rfl, rfl, rfl, rfl⟩
    exact hsame.traced hs.memory
  current data' hphase' := by rcases hphase' with hphase' | hphase' <;> cases hphase'
  half _ hphase' := by cases hphase'
  together _ := hs.together (by simp [hphase])
  waited hfirst _ := hs.waited hfirst (.inr (by rw [hphase]; rfl))
  first _ hwriting := by cases hwriting

/-- Counting on leaves the memory traced. -/
theorem traced_increaseCounter (hs : s.Traced) (hphase : s.capture.phase = .increaseCounter) :
    s.increaseCounter.Traced where
  memory := by
    have hsame : s.memory.SameFrames s.increaseCounter.memory := ⟨rfl, rfl, rfl, rfl⟩
    exact hsame.traced hs.memory
  current data' hphase' := by rcases hphase' with hphase' | hphase' <;> cases hphase'
  half _ hphase' := by cases hphase'
  together _ := hs.together (by simp [hphase])
  waited _ hphase' := by rcases hphase' with hphase' | hphase' <;> cases hphase'
  first hfirst := by cases hfirst

/-- The memory after `CapturerPortable::new`. -/
theorem newCapturer_memory (s : HandOver) (n currentDisplay : ℕ)
    (displays : Option (List Display)) :
    SharedMemory.zeroed.SameFrames (s.newCapturer n currentDisplay displays).memory ∧
      (s.newCapturer n currentDisplay displays).memory.frameCounter = ⟨0, 0⟩ := by
  rw [newCapturer, CapturerPortable.new]
  dsimp only
  split <;> exact ⟨⟨rfl, rfl, rfl, rfl⟩, rfl⟩

/-- A new capturer leaves the memory traced. -/
theorem traced_newCapturer (hs : s.Traced) (n currentDisplay : ℕ)
    (displays : Option (List Display)) :
    (s.newCapturer n currentDisplay displays).Traced := by
  obtain ⟨hsame, hcounter⟩ := newCapturer_memory s n currentDisplay displays
  refine ⟨hsame.traced SharedMemory.traced_zeroed, fun data hphase => ?_, fun _ _ k hk => ?_,
    fun _ k hk => ?_, fun _ _ => ?_, fun _ _ => le_rfl⟩
  · rw [hsame.frameOf]
    exact ⟨(hs.current data hphase).1, by simp [SharedMemory.zeroed]⟩
  · rw [hsame.infoOf] at hk
    cases hk
  · rw [hsame.infoOf] at hk
    cases hk
  · rw [hcounter]

/-- **One step** leaves the memory traced. -/
theorem traced_step {e : PortableEvent} (hstep : step s e = some t) (hs : s.Traced) :
    t.Traced := by
  cases Step.of_step hstep with
  | setExit => exact hs.of_memory s.memory.sameFrames_refl rfl rfl rfl id
  | loopStart displays created hphase => exact (idle_loopStart hphase displays created).traced hs
  | waitEqual hphase => exact (idle_waitEqual hphase).traced hs
  | captureFrame result hphase =>
    cases result with
    | pixelBuffer data => exact traced_captured hs hphase data
    | texture => exact (idle_captureFrame hphase (by simp)).traced hs
    | error => exact (idle_captureFrame hphase (by simp)).traced hs
  | setFrameInfo data hphase => exact traced_setFrameInfo hs hphase
  | writeFrame data hphase => exact traced_writeFrame hs hphase
  | writeWouldblock hphase => exact traced_writeWouldblock hs hphase
  | increaseCounter hphase => exact traced_increaseCounter hs hphase
  | newCapturer n currentDisplay displays => exact traced_newCapturer hs n currentDisplay displays
  | frame n timeout c hc => exact traced_callFrame hs n c timeout

end HandOver

end RdWeb.PortableService
