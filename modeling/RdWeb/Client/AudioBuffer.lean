import RdWeb.Lib.Machine
import RdWeb.Lib.RingBuffer
import Mathlib.Data.List.MinMax
import Mathlib.Tactic.Ring

/-!
# The buffer of the audio output

`AudioBuffer` of `client.rs` holds the interleaved samples between the decoder and the output
callback. Samples are dropped when the ring buffer is full, when one write is larger than it, and
every twelve seconds by what a histogram of its filling says.
-/

namespace RdWeb.Client

/-- The length of the buffer, in milliseconds. -/
def audioBufferMs : ℕ := 3000

/-- A sample of an interleaved stream, with the channel it is for. -/
structure Sample (Value : Type*) where
  value : Value
  channel : ℕ
  deriving DecidableEq

variable {Value : Type*}

/-- A decoded buffer begins with channel 0. -/
def interleaved (channels : ℕ) (buffer : List Value) : List (Sample Value) :=
  buffer.zipIdx.map fun (value, i) => ⟨value, i % channels⟩

/-- The ring buffer, the samples of a second, and how often which tenth of a second was reached. -/
structure AudioBuffer (Value : Type*) where
  ring : RingBuffer (Sample Value)
  rate : ℕ
  counts : List ℕ

namespace AudioBuffer

/-- 48000hz, 2 channel. -/
def default : AudioBuffer Value :=
  ⟨.new (48000 * 2 * audioBufferMs / 1000), 48000 * 2, List.replicate 30 0⟩

/-- `HeapRb::new` panics where the capacity is 0. -/
def resize (b : AudioBuffer Value) (sampleRate channels : ℕ) : Option (AudioBuffer Value) :=
  let capacity := sampleRate * channels * audioBufferMs / 1000
  if capacity ≠ b.ring.capacity then
    if capacity = 0 then none
    else some { b with ring := .new capacity, rate := sampleRate * channels }
  else some b

/-- `counts[i]`. -/
def bin (counts : List ℕ) (i : ℕ) : ℕ := counts.getD i 0

/-- Count the tenth of a second that is reached. -/
def record (b : AudioBuffer Value) (having : ℕ) : AudioBuffer Value :=
  let i := having * 10 / b.rate
  let i := if 29 < i then 29 else i
  { b with counts := b.counts.modify i (· + 1) }

/-- `zero`, `max` and the bins in the loop of `try_shrink`. -/
structure Scan where
  zero : ℕ
  max : ℕ
  counts : List ℕ

/-- One round of the loop over the bins, for the bin `i`. -/
def Scan.next (s : Scan) (i : ℕ) : Scan :=
  let s := if bin s.counts i = 0 ∧ s.zero = i then { s with zero := s.zero + 1 } else s
  if bin s.counts s.max < bin s.counts i then { s with max := i, counts := s.counts.set s.max 0 }
  else { s with counts := s.counts.set i 0 }

/-- The loop over all bins. -/
def scan (counts : List ℕ) : Scan := (List.range 30).foldl Scan.next ⟨0, 0, counts⟩

/-- `(n + 1) & (!1)`. -/
def evenUp (n : ℕ) : ℕ := (n + 1) / 2 * 2

/-- `try_shrink` at the time `dt`, with the time `tms` of the last look at the histogram, which is
shared by all buffers; the new `tms` is returned. -/
def tryShrink (b : AudioBuffer Value) (having : ℕ) (tms dt : ℤ) : AudioBuffer Value × ℤ :=
  let b := b.record having
  if tms = 0 then (b, dt)
  else if dt < tms + 12000 then (b, tms)
  else
    let s := scan b.counts
    let safer := s.zero * 2 / 3
    let b := { b with counts := s.counts.set s.max 0 }
    if s.max < 6 then (b, dt)
    else
      let max := if safer * 4 < s.max then safer * 4 else s.max
      let skip := evenUp (b.ring.capacity * max / (30 * 4))
      if skip * 3 < b.ring.items.length ∧ 0 < skip then
        ({ b with ring := b.ring.skip skip }, dt)
      else (b, dt)

/-- `append_pcm2`, with the number of samples it returns. -/
def appendPcm2 (b : AudioBuffer Value) (buffer : List (Sample Value)) : AudioBuffer Value × ℕ :=
  let cap := b.ring.capacity
  if cap < buffer.length then ({ b with ring := b.ring.pushSliceOverwrite buffer }, cap)
  else
    let having := b.ring.items.length + buffer.length
    let ring := if cap < having then b.ring.skip (having - cap) else b.ring
    let ring := ring.pushSliceOverwrite buffer
    ({ b with ring := ring }, ring.items.length)

end AudioBuffer

/-- What an `AudioHandler` and its output stream share. -/
structure AudioPlayer (Value : Type*) where
  buffer : AudioBuffer Value
  /-- `device_channel` -/
  channels : ℕ
  /-- the `static` of `try_shrink` -/
  tms : ℤ
  /-- what `append_pcm2` returned, until `try_shrink` is called with it -/
  appended : Option ℕ

/-- The two halves of `append_pcm` take the lock of the ring buffer one after the other, so that
the output callback may come between them. -/
inductive AudioEvent (Value : Type*)
  | resize (sampleRate channels : ℕ)
  | appendPcm2 (buffer : List Value)
  | tryShrink (dt : ℤ)
  /-- the output callback, for `n` samples -/
  | callback (n : ℕ)
  /-- a buffer of another session writes `tms` -/
  | otherBuffer (dt : ℤ)

namespace AudioPlayer

open AudioBuffer

/-- No stream was built yet. -/
def new : AudioPlayer Value := ⟨.default, 2, 0, none⟩

/-- Buffers and callbacks come in whole frames. -/
def step (p : AudioPlayer Value) : AudioEvent Value → Option (AudioPlayer Value)
  | .resize sampleRate channels =>
    if p.appended = none ∧ 0 < channels then
      (p.buffer.resize sampleRate channels).map fun buffer =>
        { p with buffer := buffer, channels := channels }
    else none
  | .appendPcm2 buffer =>
    if p.appended = none ∧ p.channels ∣ buffer.length then
      let (buffer, having) := p.buffer.appendPcm2 (interleaved p.channels buffer)
      some { p with buffer := buffer, appended := some having }
    else none
  | .tryShrink dt =>
    p.appended.map fun having =>
      let (buffer, tms) := p.buffer.tryShrink having p.tms dt
      { p with buffer := buffer, tms := tms, appended := none }
  | .callback n =>
    if p.channels ∣ n then
      some { p with buffer := { p.buffer with ring := (p.buffer.ring.popSlice n).2 } }
    else none
  | .otherBuffer dt => some { p with tms := dt }

/-- Any calls, any callbacks and any times. -/
def machine : Machine (AudioPlayer Value) (AudioEvent Value) := ⟨new, step⟩

/-- The samples that wait for the output. -/
def samples (p : AudioPlayer Value) : List (Sample Value) := p.buffer.ring.items

/-- The law of a step: no more samples than the capacity, and whole frames, of which the first
begins with channel 0; `try_shrink` drops at most a third of the samples. -/
structure Aligned (p : AudioPlayer Value) (e : AudioEvent Value) (p' : AudioPlayer Value) :
    Prop where
  length_le : p'.samples.length ≤ p'.buffer.ring.capacity
  framed : Framed Sample.channel p'.channels p'.samples
  third : ∀ dt, e = .tryShrink dt → 3 * (p.samples.length - p'.samples.length) ≤ p.samples.length

/-! ## What the histogram says -/

end AudioPlayer

namespace AudioBuffer

/-- The bins before the first that was reached. -/
def quiet (counts : List ℕ) : ℕ := ((List.range 30).takeWhile fun i => bin counts i = 0).length

/-- The first of the bins that were reached most often, apart from bin 0; 0 where none was. -/
def peak (counts : List ℕ) : ℕ :=
  ((List.range' 1 29).argmax (bin counts)).elim 0 fun m => if bin counts m = 0 then 0 else m

/-- The number of samples to drop. -/
def surplus (capacity : ℕ) (counts : List ℕ) : ℕ :=
  evenUp (capacity * min (peak counts) (quiet counts * 2 / 3 * 4) / 120)

/-- A bin that is cleared is empty, and the others stay. -/
theorem bin_set (counts : List ℕ) (i j : ℕ) :
    bin (counts.set i 0) j = if i = j then 0 else bin counts j := by
  unfold bin
  rw [List.getD_eq_getElem?_getD, List.getElem?_set, List.getD_eq_getElem?_getD]
  split_ifs <;> simp

/-- The leading bins without a count, one bin later. -/
theorem length_takeWhile_range_succ (p : ℕ → Bool) (n : ℕ) :
    ((List.range (n + 1)).takeWhile p).length =
      if p n = true ∧ ((List.range n).takeWhile p).length = n then
        ((List.range n).takeWhile p).length + 1
      else ((List.range n).takeWhile p).length := by
  rw [List.range_succ, List.takeWhile_append, List.length_range]
  by_cases hall : ((List.range n).takeWhile p).length = n
  · cases hp : p n <;> simp [hall, hp]
  · simp [hall]

/-- What the loop knows after the bins up to `n`. -/
structure Scanned (counts : List ℕ) (n : ℕ) (s : Scan) : Prop where
  zero_eq : s.zero = ((List.range (n + 1)).takeWhile fun i => bin counts i = 0).length
  later : ∀ j, n < j → bin s.counts j = bin counts j
  max_eq : s.max = ((List.range' 1 n).argmax (bin counts)).elim 0 fun m =>
    if bin counts m = 0 then 0 else m
  top_eq : bin s.counts s.max = ((List.range' 1 n).argmax (bin counts)).elim 0 (bin counts)

/-- Bin 0 is cleared before it is compared with another one. -/
theorem scanned_first (counts : List ℕ) : Scanned counts 0 (Scan.next ⟨0, 0, counts⟩ 0) := by
  have hnext : Scan.next ⟨0, 0, counts⟩ 0 =
      ⟨if bin counts 0 = 0 then 1 else 0, 0, counts.set 0 0⟩ := by
    by_cases h : bin counts 0 = 0 <;> simp [Scan.next, h]
  rw [hnext]
  constructor
  · by_cases h : bin counts 0 = 0 <;> simp [List.range_succ, h]
  · intro j hj
    rw [bin_set, if_neg (by omega)]
  · rfl
  · simp [bin_set]

/-- One round of the loop, field by field. -/
theorem Scan.next_eq (s : Scan) (i : ℕ) :
    s.next i =
      { zero := if bin s.counts i = 0 ∧ s.zero = i then s.zero + 1 else s.zero
        max := if bin s.counts s.max < bin s.counts i then i else s.max
        counts := s.counts.set (if bin s.counts s.max < bin s.counts i then s.max else i) 0 } := by
  unfold Scan.next
  split_ifs <;> simp_all

/-- The bin that the loop holds is the fullest so far; it is 0 while all of them are empty. -/
theorem Scanned.cases_max {counts : List ℕ} {n : ℕ} {s : Scan} (h : Scanned counts n s) :
    ((List.range' 1 n).argmax (bin counts) = none ∧ s.max = 0 ∧ bin s.counts s.max = 0) ∨
      ∃ m, (List.range' 1 n).argmax (bin counts) = some m ∧ 1 ≤ m ∧ m ≤ n ∧
        s.max = (if bin counts m = 0 then 0 else m) ∧ bin s.counts s.max = bin counts m := by
  have hmax := h.max_eq
  have htop := h.top_eq
  cases hargmax : (List.range' 1 n).argmax (bin counts) with
  | none => exact .inl ⟨rfl, by simpa [hargmax] using hmax, by simpa [hargmax] using htop⟩
  | some m =>
    have hmem := List.mem_range'_1.mp (List.argmax_mem hargmax)
    refine .inr ⟨m, rfl, hmem.1, by omega, ?_, ?_⟩
    · simpa [hargmax] using hmax
    · simpa [hargmax] using htop

/-- The fullest bin seen so far is one of the bins seen. -/
theorem Scanned.max_le {counts : List ℕ} {n : ℕ} {s : Scan} (h : Scanned counts n s) :
    s.max ≤ n := by
  rcases h.cases_max with ⟨-, hmax, -⟩ | ⟨m, -, -, hmn, hmax, -⟩
  · omega
  · rw [hmax]
    split_ifs <;> omega

/-- One round of the loop keeps what `Scanned` says. -/
theorem Scanned.next {counts : List ℕ} {n : ℕ} {s : Scan} (h : Scanned counts n s) :
    Scanned counts (n + 1) (s.next (n + 1)) := by
  have hbin : bin s.counts (n + 1) = bin counts (n + 1) := h.later _ (by omega)
  have hrange : List.range' 1 (n + 1) = List.range' 1 n ++ [n + 1] := by
    rw [List.range'_1_concat, Nat.add_comm 1 n]
  have hle := h.max_le
  rw [Scan.next_eq, hbin]
  constructor
  · rw [length_takeWhile_range_succ, ← h.zero_eq]
    simp
  · intro j hj
    rw [bin_set, if_neg ?_]
    · exact h.later j (by omega)
    · split_ifs <;> omega
  · rw [hrange, List.argmax_concat]
    rcases h.cases_max with ⟨hargmax, hmax, htop⟩ | ⟨m, hargmax, -, -, hmax, htop⟩
    · rw [hmax] at htop
      simp only [hargmax, htop, hmax, Option.elim_some]
      split_ifs <;> omega
    · simp only [hargmax, htop]
      split_ifs with hlt
      · simp [show bin counts (n + 1) ≠ 0 by omega]
      · simpa using hmax
  · rw [hrange, List.argmax_concat]
    rcases h.cases_max with ⟨hargmax, hmax, htop⟩ | ⟨m, hargmax, -, -, hmax, htop⟩
    · rw [hmax] at htop
      simp only [hargmax, htop, hmax, Option.elim_some, bin_set]
      by_cases hpos : 0 < bin counts (n + 1)
      · simpa [hpos] using hbin
      · rw [if_neg hpos, if_neg hpos, if_neg (by omega)]
        omega
    · simp only [hargmax, htop]
      split_ifs with hlt
      · simp only [Option.elim_some, bin_set]
        rw [if_neg (by omega)]
        exact hbin
      · simp only [Option.elim_some, bin_set]
        rw [if_neg (by omega)]
        exact htop

/-- The loop finds the leading empty bins and the fullest bin. -/
theorem scanned_scan (counts : List ℕ) : Scanned counts 29 (scan counts) := by
  have hloop (n : ℕ) :
      Scanned counts n ((List.range' 1 n).foldl Scan.next (Scan.next ⟨0, 0, counts⟩ 0)) := by
    induction n with
    | zero => exact scanned_first counts
    | succ n ih =>
      rw [List.range'_1_concat, List.foldl_concat, Nat.add_comm 1 n]
      exact ih.next
  have hrange : List.range 30 = 0 :: List.range' 1 29 := rfl
  rw [scan, hrange, List.foldl_cons]
  exact hloop 29

/-- The loop counts the empty bins at the start. -/
theorem zero_scan (counts : List ℕ) : (scan counts).zero = quiet counts :=
  (scanned_scan counts).zero_eq

/-- The loop finds the fullest bin. -/
theorem max_scan (counts : List ℕ) : (scan counts).max = peak counts :=
  (scanned_scan counts).max_eq

/-! ## What the calls do to the samples -/

variable {b : AudioBuffer Value}

/-- A new ring buffer is empty and holds whole frames; an old one is kept only where it holds as
much. -/
theorem resize_eq {sampleRate channels : ℕ} {b' : AudioBuffer Value}
    (h : b.resize sampleRate channels = some b') :
    channels ∣ b'.ring.capacity ∧
      (sampleRate * channels * audioBufferMs / 1000 ≠ b.ring.capacity ∧ b'.ring.items = [] ∨
        sampleRate * channels * audioBufferMs / 1000 = b.ring.capacity ∧ b' = b) := by
  have hdvd : channels ∣ sampleRate * channels * audioBufferMs / 1000 := by
    have hcapacity :
        sampleRate * channels * audioBufferMs / 1000 = channels * (3 * sampleRate) := by
      rw [audioBufferMs]
      have hmul : sampleRate * channels * 3000 = channels * (3 * sampleRate) * 1000 := by ring
      rw [hmul, Nat.mul_div_cancel _ (by omega)]
    rw [hcapacity]
    exact Nat.dvd_mul_right _ _
  simp only [resize] at h
  split_ifs at h with hne hzero
  · obtain rfl := Option.some.inj h
    exact ⟨hdvd, .inl ⟨hne, rfl⟩⟩
  · obtain rfl := Option.some.inj h
    have heq := not_not.mp hne
    exact ⟨heq ▸ hdvd, .inr ⟨heq, rfl⟩⟩

/-- Whatever overflows, the newest samples stay. -/
theorem appendPcm2_eq (buffer : List (Sample Value)) :
    b.appendPcm2 buffer =
      ({ b with ring := b.ring.pushSliceOverwrite buffer },
        min (b.ring.items.length + buffer.length) b.ring.capacity) := by
  have hlength := RingBuffer.length_pushSliceOverwrite b.ring buffer
  unfold appendPcm2
  by_cases hlarge : b.ring.capacity < buffer.length
  · simp only [if_pos hlarge]
    rw [Nat.min_eq_right (by omega)]
  by_cases hover : b.ring.capacity < b.ring.items.length + buffer.length
  · simp only [if_neg hlarge, if_pos hover]
    rw [RingBuffer.pushSliceOverwrite_skip (by omega), hlength]
  · simp only [if_neg hlarge, if_neg hover]
    rw [hlength]

/-- What `try_shrink` drops from the front: nothing, or the surplus where it is less than a third of
what is there. -/
theorem tryShrink_eq (having : ℕ) (tms dt : ℤ) :
    (b.tryShrink having tms dt).1.ring =
      if tms ≠ 0 ∧ tms + 12000 ≤ dt ∧ 6 ≤ peak (b.record having).counts ∧
          3 * surplus b.ring.capacity (b.record having).counts < b.ring.items.length then
        b.ring.skip (surplus b.ring.capacity (b.record having).counts)
      else b.ring := by
  have hring : (b.record having).ring = b.ring := rfl
  have hmark : (if quiet (b.record having).counts * 2 / 3 * 4 < peak (b.record having).counts then
      quiet (b.record having).counts * 2 / 3 * 4 else peak (b.record having).counts) =
      min (peak (b.record having).counts) (quiet (b.record having).counts * 2 / 3 * 4) := by
    split_ifs <;> omega
  simp only [tryShrink, zero_scan, max_scan, hmark, hring]
  by_cases htms : tms = 0
  · simp [htms, hring]
  by_cases hdue : dt < tms + 12000
  · simp [htms, hdue, hring]
  by_cases hpeak : peak (b.record having).counts < 6
  · simp [htms, hdue, hpeak]
  have hsurplus : evenUp (b.ring.capacity *
      min (peak (b.record having).counts) (quiet (b.record having).counts * 2 / 3 * 4) / 120) =
      surplus b.ring.capacity (b.record having).counts := rfl
  rw [if_neg htms, if_neg hdue, if_neg hpeak, hsurplus, Nat.mul_comm 3]
  by_cases hsmall : surplus b.ring.capacity (b.record having).counts * 3 < b.ring.items.length
  · by_cases hpos : 0 < surplus b.ring.capacity (b.record having).counts
    · rw [if_pos ⟨hsmall, hpos⟩, if_pos ⟨htms, by omega, by omega, hsmall⟩]
    · rw [if_neg fun h => hpos h.2, if_pos ⟨htms, by omega, by omega, hsmall⟩,
        Nat.eq_zero_of_not_pos hpos, RingBuffer.skip_zero]
  · rw [if_neg fun h => hsmall h.1, if_neg fun h => hsmall h.2.2.2]

end AudioBuffer

namespace AudioPlayer

open AudioBuffer

/-- A decoded buffer consists of whole frames. -/
theorem framed_interleaved {channels : ℕ} {buffer : List Value} (h : channels ∣ buffer.length) :
    Framed Sample.channel channels (interleaved channels buffer) := by
  constructor
  · simpa [interleaved] using h
  · intro i x hget
    simp only [interleaved, List.getElem?_map, Option.map_eq_some_iff] at hget
    obtain ⟨⟨value, j⟩, hpair, rfl⟩ := hget
    obtain ⟨hlt, hj⟩ := List.getElem?_eq_some_iff.mp hpair
    rw [List.getElem_zipIdx, Nat.zero_add] at hj
    obtain rfl := congrArg Prod.snd hj
    rfl

/-- Twelve seconds have passed, the histogram speaks for a drop, and it is less than a third of the
samples. -/
def Drops (p : AudioPlayer Value) (having : ℕ) (dt : ℤ) : Prop :=
  p.tms ≠ 0 ∧ p.tms + 12000 ≤ dt ∧ 6 ≤ peak (p.buffer.record having).counts ∧
    3 * surplus p.buffer.ring.capacity (p.buffer.record having).counts < p.samples.length

/-- Whether a level is dropped is decided by its two tests. -/
instance (p : AudioPlayer Value) (having : ℕ) (dt : ℤ) : Decidable (p.Drops having dt) :=
  inferInstanceAs (Decidable (_ ∧ _))

/-- Waiting samples keep their number of channels, and what is dropped are whole frames. -/
def Careful (p : AudioPlayer Value) : AudioEvent Value → Prop
  | .resize sampleRate channels =>
    sampleRate * channels * audioBufferMs / 1000 = p.buffer.ring.capacity → p.samples ≠ [] →
      channels = p.channels
  | .tryShrink dt => ∀ having ∈ p.appended, p.Drops having dt →
      p.channels ∣ surplus p.buffer.ring.capacity (p.buffer.record having).counts
  | _ => True

/-- Whether an event is careful is decided by the player before it. -/
instance [DecidableEq Value] (p : AudioPlayer Value) (e : AudioEvent Value) :
    Decidable (Careful p e) :=
  match e with
  | .resize sampleRate channels => inferInstanceAs (Decidable (sampleRate * channels *
      audioBufferMs / 1000 = p.buffer.ring.capacity → p.samples ≠ [] → channels = p.channels))
  | .tryShrink dt => inferInstanceAs (Decidable (∀ having ∈ p.appended, p.Drops having dt →
      p.channels ∣ surplus p.buffer.ring.capacity (p.buffer.record having).counts))
  | .appendPcm2 _ | .callback _ | .otherBuffer _ => isTrue trivial

/-- What a run that drops whole frames keeps. -/
structure Sound (p : AudioPlayer Value) : Prop where
  channels_pos : 0 < p.channels
  dvd_capacity : p.channels ∣ p.buffer.ring.capacity
  framed : Framed Sample.channel p.channels p.samples

/-- The new player has an empty ring and empty bins. -/
theorem sound_new : Sound (new : AudioPlayer Value) := by
  refine ⟨Nat.zero_lt_two, ?_, .nil⟩
  have hcapacity : (new : AudioPlayer Value).buffer.ring.capacity = 288000 := rfl
  have hchannels : (new : AudioPlayer Value).channels = 2 := rfl
  rw [hcapacity, hchannels]
  exact Nat.dvd_of_mod_eq_zero rfl

/-- What an event does to the number of channels and to the samples. -/
inductive Effect (p : AudioPlayer Value) (e : AudioEvent Value) (p' : AudioPlayer Value) : Prop
  /-- a new ring buffer -/
  | empty (hcareful : Careful p e) (hshrink : ∀ dt, e ≠ .tryShrink dt)
      (hpos : 0 < p'.channels) (hdvd : p'.channels ∣ p'.buffer.ring.capacity)
      (hitems : p'.samples = [])
  /-- another number of channels for the same samples -/
  | rechannel (hshrink : ∀ dt, e ≠ .tryShrink dt)
      (hpos : 0 < p'.channels) (hdvd : p'.channels ∣ p'.buffer.ring.capacity)
      (hcareful : Careful p e ↔ (p.samples ≠ [] → p'.channels = p.channels))
      (hitems : p'.samples = p.samples)
  /-- samples at the end, those at the front dropped -/
  | push (buffer : List (Sample Value)) (hcareful : Careful p e)
      (hshrink : ∀ dt, e ≠ .tryShrink dt) (hchannels : p'.channels = p.channels)
      (hframed : Framed Sample.channel p.channels buffer)
      (hcapacity : p'.buffer.ring.capacity = p.buffer.ring.capacity)
      (hitems : p'.samples = (p.buffer.ring.pushSliceOverwrite buffer).items)
  /-- samples at the front played -/
  | play (n : ℕ) (hcareful : Careful p e)
      (hshrink : ∀ dt, e ≠ .tryShrink dt) (hchannels : p'.channels = p.channels)
      (hdvd : p.channels ∣ n) (hcapacity : p'.buffer.ring.capacity = p.buffer.ring.capacity)
      (hitems : p'.samples = p.samples.drop n)
  /-- samples at the front dropped, at most a third -/
  | shrink (n : ℕ) (hcareful : Careful p e ↔ p.channels ∣ n)
      (hthird : 3 * n ≤ p.samples.length) (hchannels : p'.channels = p.channels)
      (hcapacity : p'.buffer.ring.capacity = p.buffer.ring.capacity)
      (hitems : p'.samples = p.samples.drop n)

/-- What is there after `append_pcm2`. -/
theorem step_appendPcm2 {p : AudioPlayer Value} {buffer : List Value} {n : ℕ}
    (hlength : buffer.length = n) (happended : p.appended = none) (hdvd : p.channels ∣ n) :
    step p (.appendPcm2 buffer) = some
      { p with
        buffer := { p.buffer with
          ring := p.buffer.ring.pushSliceOverwrite (interleaved p.channels buffer) }
        appended := some (min (p.samples.length + n) p.buffer.ring.capacity) } := by
  have hinterleaved : (interleaved p.channels buffer).length = n := by
    rw [interleaved, List.length_map, List.length_zipIdx, hlength]
  simp only [step, hlength]
  rw [if_pos ⟨happended, hdvd⟩, appendPcm2_eq]
  simp only [hinterleaved, samples]

/-- What is left by `try_shrink`. -/
theorem samples_tryShrink {p p' : AudioPlayer Value} {having : ℕ} {dt : ℤ}
    (happended : p.appended = some having) (hstep : step p (.tryShrink dt) = some p') :
    p'.channels = p.channels ∧ p'.buffer.ring.capacity = p.buffer.ring.capacity ∧
      p'.samples =
        if p.Drops having dt then
          p.samples.drop (surplus p.buffer.ring.capacity (p.buffer.record having).counts)
        else p.samples := by
  simp only [step, happended, Option.map_some, Option.some.injEq] at hstep
  obtain rfl := hstep
  have hring : (p.buffer.tryShrink having p.tms dt).1.ring =
      if p.Drops having dt then
        p.buffer.ring.skip (surplus p.buffer.ring.capacity (p.buffer.record having).counts)
      else p.buffer.ring := tryShrink_eq having p.tms dt
  refine ⟨rfl, ?_, ?_⟩
  · simp only [hring]
    split_ifs <;> rfl
  · simp only [samples, hring]
    split_ifs <;> rfl

/-- Every step has one of these effects. -/
theorem effect_of_step {p p' : AudioPlayer Value} {e : AudioEvent Value}
    (hstep : step p e = some p') : Effect p e p' := by
  cases e with
  | resize sampleRate channels =>
    simp only [step] at hstep
    split_ifs at hstep with hguard
    obtain ⟨buffer, hresize, rfl⟩ := Option.map_eq_some_iff.mp hstep
    obtain ⟨hdvd, ⟨hne, hitems⟩ | ⟨heq, rfl⟩⟩ := resize_eq hresize
    · exact .empty (fun h => absurd h hne) (by simp) hguard.2 hdvd hitems
    · exact .rechannel (by simp) hguard.2 hdvd (by simp [Careful, heq]) rfl
  | appendPcm2 buffer =>
    have hguard : p.appended = none ∧ p.channels ∣ buffer.length := by
      by_contra hguard
      simp [step, hguard] at hstep
    rw [step_appendPcm2 rfl hguard.1 hguard.2] at hstep
    obtain rfl := Option.some.inj hstep
    exact .push _ trivial (by simp) rfl (framed_interleaved hguard.2) rfl rfl
  | tryShrink dt =>
    obtain ⟨having, happended, -⟩ := Option.map_eq_some_iff.mp hstep
    obtain ⟨hchannels, hcapacity, hsamples⟩ := samples_tryShrink happended hstep
    by_cases hdrops : p.Drops having dt
    · rw [if_pos hdrops] at hsamples
      exact .shrink _ (by simp [Careful, happended, hdrops]) hdrops.2.2.2.le hchannels hcapacity
        hsamples
    · rw [if_neg hdrops] at hsamples
      exact .shrink 0 (by simp [Careful, happended, hdrops]) (by omega) hchannels hcapacity
        hsamples
  | callback n =>
    simp only [step] at hstep
    split_ifs at hstep with hguard
    obtain rfl := Option.some.inj hstep
    exact .play n trivial (by simp) rfl hguard rfl rfl
  | otherBuffer dt =>
    obtain rfl := Option.some.inj hstep
    exact .play 0 trivial (by simp) rfl (Nat.dvd_zero _) rfl rfl

variable {p p' : AudioPlayer Value} {e : AudioEvent Value}

/-- A careful step keeps the frames. -/
theorem Sound.step (h : Sound p) (hcareful : Careful p e) (hstep : step p e = some p') :
    Sound p' := by
  cases effect_of_step hstep with
  | empty _ _ hpos hdvd hitems => exact ⟨hpos, hdvd, hitems ▸ .nil⟩
  | rechannel _ hpos hdvd hiff hitems =>
    refine ⟨hpos, hdvd, ?_⟩
    rw [hitems]
    by_cases hne : p.samples = []
    · rw [hne]
      exact .nil
    · rw [hiff.mp hcareful hne]
      exact h.framed
  | push buffer _ _ hchannels hframed hcapacity hitems =>
    refine ⟨hchannels ▸ h.channels_pos, ?_, ?_⟩
    · rw [hchannels, hcapacity]
      exact h.dvd_capacity
    · rw [hchannels, hitems]
      exact h.framed.pushSliceOverwrite hframed h.dvd_capacity
  | play n _ _ hchannels hdvd hcapacity hitems =>
    refine ⟨hchannels ▸ h.channels_pos, ?_, ?_⟩
    · rw [hchannels, hcapacity]
      exact h.dvd_capacity
    · rw [hchannels, hitems]
      exact h.framed.drop hdvd
  | shrink n hiff _ hchannels hcapacity hitems =>
    refine ⟨hchannels ▸ h.channels_pos, ?_, ?_⟩
    · rw [hchannels, hcapacity]
      exact h.dvd_capacity
    · rw [hchannels, hitems]
      exact h.framed.drop (hiff.mp hcareful)

/-- No step drops more than a third of the samples by the histogram. -/
theorem third_of_step {dt : ℤ} (hstep : step p (.tryShrink dt) = some p') :
    3 * (p.samples.length - p'.samples.length) ≤ p.samples.length := by
  cases effect_of_step hstep with
  | empty _ hshrink => exact absurd rfl (hshrink dt)
  | rechannel hshrink => exact absurd rfl (hshrink dt)
  | push _ _ hshrink => exact absurd rfl (hshrink dt)
  | play _ _ hshrink => exact absurd rfl (hshrink dt)
  | shrink n _ hthird _ _ hitems =>
    rw [hitems, List.length_drop]
    omega

/-- A careful step keeps the frames aligned. -/
theorem Sound.aligned (h : Sound p) (hcareful : Careful p e)
    (hstep : AudioPlayer.step p e = some p') :
    Aligned p e p' := by
  refine ⟨p'.buffer.ring.length_le, (h.step hcareful hstep).framed, ?_⟩
  rintro dt rfl
  exact third_of_step hstep

/-- A step that leaves whole frames dropped whole frames. -/
theorem Sound.careful (h : Sound p) (hstep : AudioPlayer.step p e = some p')
    (haligned : Aligned p e p') : Careful p e := by
  have hframed := haligned.framed
  cases effect_of_step hstep with
  | empty hcareful => exact hcareful
  | push _ hcareful => exact hcareful
  | play _ hcareful => exact hcareful
  | rechannel _ hpos _ hiff hitems =>
    rw [hitems] at hframed
    exact hiff.mpr fun hne => hframed.eq_of_ne_nil h.framed hpos h.channels_pos hne
  | shrink n hiff hthird hchannels _ hitems =>
    rw [hchannels, hitems] at hframed
    exact hiff.mpr (h.framed.dvd_of_drop (by omega) hframed)

/-- **The buffer holds whole frames that begin with channel 0 all along a run, if and only if** no
stream takes over samples with another number of channels, and the drops of `try_shrink` are
multiples of the number of channels. -/
theorem aligned_iff_careful {events : List (AudioEvent Value)} (hrun : machine.Run new events p) :
    (∀ first e u v, first ++ [e] <+: events → machine.Run new first u →
      AudioPlayer.step u e = some v → Aligned u e v) ↔ machine.RunWhere Careful new events p := by
  refine Machine.runWhere_iff_steps_where (M := machine) (I := Sound) ?_ ?_ sound_new hrun
  · exact fun u e v hcareful hstep h => h.step hcareful hstep
  · exact fun u e v hstep h =>
      ⟨h.careful hstep, fun hcareful => h.aligned hcareful hstep⟩

/-- With one or two channels every drop of `try_shrink` consists of whole frames. -/
theorem Sound.careful_tryShrink (h : Sound p) (hchannels : p.channels ≤ 2) (dt : ℤ) :
    Careful p (.tryShrink dt) := by
  intro having _ _
  have heven : 2 ∣ surplus p.buffer.ring.capacity (p.buffer.record having).counts :=
    Nat.dvd_mul_left _ _
  have hpos := h.channels_pos
  rcases (by omega : p.channels = 1 ∨ p.channels = 2) with hone | htwo
  · rw [hone]
    exact Nat.one_dvd _
  · rw [htwo]
    exact heven

/-- A stereo stream of which four samples are dropped after twelve seconds, and a mono stream. -/
def stereoThenMono : List (AudioEvent ℕ) :=
  [.resize 10 2, .appendPcm2 (List.replicate 14 0), .tryShrink 5, .callback 0, .appendPcm2 [],
    .tryShrink 12005, .callback 20, .resize 20 1, .appendPcm2 [1, 2, 3]]

/-- The equivalence on a run that goes from stereo to mono, which stays aligned. -/
theorem aligned_iff_careful_stereo :
    ∃ p, machine.Run new stereoThenMono p ∧
      ∀ first e u v, first ++ [e] <+: stereoThenMono → machine.Run new first u →
        AudioPlayer.step u e = some v → Aligned u e v := by
  have hreplay : (machine.replayWhere Careful new stereoThenMono).isSome = true := by
    decide +kernel
  obtain ⟨p, hp⟩ := Option.isSome_iff_exists.mp hreplay
  have hwhere := Machine.runWhere_of_replayWhere hp
  exact ⟨p, hwhere.run, (aligned_iff_careful hwhere.run).mpr hwhere⟩

/-- Six channels at 44100 Hz, of which seven tenths of a second wait; another session looked at its
histogram before. -/
def sixChannels : AudioPlayer ℕ where
  buffer :=
    { ring := (RingBuffer.new 793800).pushSliceOverwrite (interleaved 6 (.replicate 185220 0))
      rate := 264600
      counts := .replicate 30 0 }
  channels := 6
  tms := 1
  appended := some 185220

/-- What one packet leaves in a player of six channels. -/
theorem step_sixChannels :
    step ⟨⟨.new 793800, 264600, .replicate 30 0⟩, 6, 1, none⟩ (.appendPcm2 (.replicate 185220 0)) =
      some sixChannels := by
  have hhaving : min ((RingBuffer.new (α := Sample ℕ) 793800).items.length + 185220)
      (RingBuffer.new (α := Sample ℕ) 793800).capacity = 185220 := by
    simp [RingBuffer.new]
  rw [step_appendPcm2 List.length_replicate rfl (by decide)]
  simp only [samples, hhaving]
  rfl

/-- Twelve seconds later 46306 samples are dropped, which are not whole frames. -/
theorem not_aligned_sixChannels :
    machine.Run new [.resize 44100 6, .otherBuffer 1, .appendPcm2 (.replicate 185220 0)]
      sixChannels ∧
    ∃ p, step sixChannels (.tryShrink 12001) = some p ∧
      ¬ Aligned sixChannels (.tryShrink 12001) p := by
  have hlength : (interleaved 6 (List.replicate 185220 0)).length = 185220 := by
    rw [interleaved, List.length_map, List.length_zipIdx, List.length_replicate]
  have hsamples : sixChannels.samples.length = 185220 := by
    rw [samples, sixChannels, RingBuffer.length_pushSliceOverwrite, hlength]
    simp [RingBuffer.new]
  constructor
  · have hrun : machine.Run new [.resize 44100 6, .otherBuffer 1]
        (⟨⟨.new 793800, 264600, .replicate 30 0⟩, 6, 1, none⟩ : AudioPlayer ℕ) := by
      refine Machine.run_of_replay ?_
      simp [Machine.replay, machine, step, resize, new, AudioBuffer.default, audioBufferMs,
        RingBuffer.new]
    have hstep := step_sixChannels
    generalize List.replicate 185220 0 = buffer at hstep ⊢
    exact hrun.snoc trivial hstep
  · have hpeak : peak (sixChannels.buffer.record 185220).counts = 7 := by decide +kernel
    have hsurplus : surplus 793800 (sixChannels.buffer.record 185220).counts = 46306 := by
      decide +kernel
    have hcapacity : sixChannels.buffer.ring.capacity = 793800 := rfl
    have hdrops : sixChannels.Drops 185220 12001 := by
      refine ⟨by decide, by decide, by omega, ?_⟩
      rw [hsamples, hcapacity, hsurplus]
      omega
    have happended : sixChannels.appended = some 185220 := rfl
    obtain ⟨p, hstep⟩ : ∃ p, step sixChannels (.tryShrink 12001) = some p := ⟨_, rfl⟩
    refine ⟨p, hstep, fun haligned => ?_⟩
    obtain ⟨hchannels, -, hleft⟩ := samples_tryShrink happended hstep
    have hdvd := haligned.framed.dvd_length
    have hsix : sixChannels.channels = 6 := rfl
    rw [hchannels, hleft, if_pos hdrops, List.length_drop, hsamples, hcapacity, hsurplus,
      hsix] at hdvd
    omega

end AudioPlayer

end RdWeb.Client
