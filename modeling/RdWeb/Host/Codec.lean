import Mathlib.Data.Int.Notation
import RdWeb.Lib.Machine
import RdWeb.Lib.MostFrequent
import RdWeb.Lib.OrderedMap

/-!
# Negotiating the codec

`Encoder::update` of `scrap`: the peers declare which formats they decode and which one
they prefer, and the host picks the format it encodes. VP9 is the choice where nothing
else is, whether or not the peers declare it.
-/

namespace RdWeb.Host

/-- The codecs a peer may prefer. -/
inductive PreferCodec
  | auto
  | vp9
  | h264
  | h265
  | vp8
  | av1
  deriving DecidableEq

/-- The codecs the host encodes. -/
inductive CodecFormat
  | vp8
  | vp9
  | av1
  | h264
  | h265
  deriving DecidableEq

/-- What a peer declares. A preference that is not in the enumeration is `none`. -/
structure SupportedDecoding where
  abilityVp9 : ℤ
  abilityH264 : ℤ
  abilityH265 : ℤ
  prefer : Option PreferCodec
  abilityVp8 : ℤ
  abilityAv1 : ℤ
  deriving DecidableEq

/-- A peer that declares nothing. -/
def SupportedDecoding.default : SupportedDecoding := ⟨0, 0, 0, some .auto, 0, 0⟩

/-- The ability a peer declares for a format. -/
def SupportedDecoding.ability (s : SupportedDecoding) : CodecFormat → ℤ
  | .vp8 => s.abilityVp8
  | .vp9 => s.abilityVp9
  | .av1 => s.abilityAv1
  | .h264 => s.abilityH264
  | .h265 => s.abilityH265

/-- The changes of what the peers can decode. -/
inductive EncodingUpdate
  | update (id : ℤ) (decoding : SupportedDecoding)
  | remove (id : ℤ)
  | newOnlyVp9 (id : ℤ)
  | check
  deriving DecidableEq

/-- What the host reads of its hardware and its options at one update. -/
structure HostCodecs where
  /-- `enable_vram_option(true)`. -/
  enableVram : Bool
  vramH264 : Bool
  vramH265 : Bool
  enableHwcodec : Bool
  hwH264 : Option String
  hwH265 : Option String
  av1Test : Bool
  totalMemory : ℕ

/-- What the host can encode besides VP9. -/
structure SupportedEncoding where
  vp8 : Bool
  av1 : Bool
  h264 : Bool
  h265 : Bool
  deriving DecidableEq

/-- `PEER_DECODINGS`, `ENCODE_CODEC_FORMAT` and `USABLE_ENCODING`. -/
structure EncoderState where
  decodings : OrderedMap ℤ SupportedDecoding
  format : CodecFormat
  usable : Option SupportedEncoding

namespace Encoder

/-- Before any peer is there. -/
def initial : EncoderState := ⟨.empty, .vp9, none⟩

/-- The update of the table of peers. -/
def register (decodings : OrderedMap ℤ SupportedDecoding) :
    EncodingUpdate → OrderedMap ℤ SupportedDecoding
  | .update id decoding => decodings.set id decoding
  | .remove id => decodings.delete id
  | .newOnlyVp9 id => decodings.set id { SupportedDecoding.default with abilityVp9 := 1 }
  | .check => decodings

/-- There are peers, and all of them decode a format. -/
def allSupport (peers : List SupportedDecoding) (format : CodecFormat) : Bool :=
  !peers.isEmpty && peers.all fun s => 0 < s.ability format

/-- Whether the hardware encodes H264 or H265 for these peers. -/
def hardwareEncodes (host : HostCodecs) (peers : List SupportedDecoding) : CodecFormat → Bool
  | .h264 => host.enableVram && allSupport peers .h264 && host.vramH264 ||
      (if host.enableHwcodec && allSupport peers .h264 then host.hwH264 else none).isSome
  | .h265 => host.enableVram && allSupport peers .h265 && host.vramH265 ||
      (if host.enableHwcodec && allSupport peers .h265 then host.hwH265 else none).isSome
  | _ => false

/-- The usable formats, apart from VP9. -/
def usableEncoding (disableAv1 : Bool) (host : HostCodecs) (peers : List SupportedDecoding) :
    SupportedEncoding where
  vp8 := allSupport peers .vp8
  av1 := allSupport peers .av1 && !disableAv1
  h264 := allSupport peers .h264 && hardwareEncodes host peers .h264
  h265 := allSupport peers .h265 && hardwareEncodes host peers .h265

/-- Whether a preference counts. -/
def counts (usable : SupportedEncoding) : Option PreferCodec → Bool
  | some .vp9 => true
  | some .vp8 => usable.vp8
  | some .av1 => usable.av1
  | some .h264 => usable.h264
  | some .h265 => usable.h265
  | _ => false

/-- The most frequent preference that counts, in the order in which the table is iterated. -/
def preference (usable : SupportedEncoding) (order : List SupportedDecoding) : PreferCodec :=
  let preferences := (order.filter fun s => counts usable s.prefer).map SupportedDecoding.prefer
  (MostFrequent.mostFrequent (some .auto) preferences).getD .auto

/-- The choice without a preference. -/
def autoCodec (host : HostCodecs) (usable : SupportedEncoding) : CodecFormat :=
  let codec : CodecFormat := if usable.av1 && host.av1Test then .av1 else .vp9
  let codec := if usable.h264 then .h264 else codec
  let codec := if usable.h265 then .h265 else codec
  if codec = .vp9 ∨ codec = .av1 then
    if usable.vp8 ∧ host.totalMemory ≤ 4 * 1024 * 1024 * 1024 then .vp8 else codec
  else codec

/-- `Encoder::update`. The peers are iterated in some order of the table. -/
def update (disableAv1 : Bool) (s : EncoderState) (host : HostCodecs) (u : EncodingUpdate)
    (order : List SupportedDecoding) : EncoderState :=
  let decodings := register s.decodings u
  let peers := decodings.values
  let usable := usableEncoding disableAv1 host peers
  let auto := autoCodec host usable
  let format := match preference usable order with
    | .vp8 => .vp8
    | .vp9 => .vp9
    | .av1 => .av1
    | .h264 => if hardwareEncodes host peers .h264 then .h264 else auto
    | .h265 => if hardwareEncodes host peers .h265 then .h265 else auto
    | .auto => auto
  ⟨decodings, format, some usable⟩

end Encoder

/-- A call of `Encoder::update` and the order in which it meets the peers. -/
structure EncoderEvent where
  host : HostCodecs
  update : EncodingUpdate
  order : List SupportedDecoding

/-- The encoder on a platform that may disable AV1. -/
def encoderMachine (disableAv1 : Bool) : Machine EncoderState EncoderEvent where
  init := Encoder.initial
  step s e :=
    if e.order.Perm (Encoder.register s.decodings e.update).values then
      some (Encoder.update disableAv1 s e.host e.update e.order)
    else none

namespace Encoder

/-! ## What is decodable by everyone -/

/-- A software codec that is not disabled and that all peers decode. -/
def SoftwareSupported (disableAv1 : Bool) (peers : List SupportedDecoding) : Prop :=
  (∀ s ∈ peers, 0 < s.abilityVp8) ∨ (∀ s ∈ peers, 0 < s.abilityVp9) ∨
    disableAv1 = false ∧ ∀ s ∈ peers, 0 < s.abilityAv1

/-- The stored format is one that all peers decode, if there are peers with a common software
codec. -/
def Decodable (disableAv1 : Bool) (s : EncoderState) : Prop :=
  s.decodings.values ≠ [] → SoftwareSupported disableAv1 s.decodings.values →
    ∀ d ∈ s.decodings.values, 0 < d.ability s.format

/-- VP9 is picked: most peers with a usable preference want it, or nobody has one and nothing
else is picked without. -/
def PicksVp9 (host : HostCodecs) (usable : SupportedEncoding) (order : List SupportedDecoding) :
    Prop :=
  preference usable order = .vp9 ∨
    preference usable order = .auto ∧ usable.h264 = false ∧ usable.h265 = false ∧
      ¬ (usable.av1 = true ∧ host.av1Test = true) ∧
      ¬ (usable.vp8 = true ∧ host.totalMemory ≤ 4 * 1024 * 1024 * 1024)

/-- Where VP9 is picked, all peers decode it, or they have no software codec in common. -/
def Vp9Safe (disableAv1 : Bool) (s : EncoderState) (e : EncoderEvent) : Prop :=
  let peers := (register s.decodings e.update).values
  PicksVp9 e.host (usableEncoding disableAv1 e.host peers) e.order →
    (∀ d ∈ peers, 0 < d.abilityVp9) ∨ ¬ SoftwareSupported disableAv1 peers

variable {disableAv1 : Bool} {host : HostCodecs} {peers order : List SupportedDecoding}

/-- All support a codec if there are peers and each can decode it. -/
theorem allSupport_iff {format : CodecFormat} :
    allSupport peers format = true ↔ peers ≠ [] ∧ ∀ s ∈ peers, 0 < s.ability format := by
  simp [allSupport]

/-- A preference that is picked counts. -/
theorem counts_preference {usable : SupportedEncoding} (h : preference usable order ≠ .auto) :
    counts usable (some (preference usable order)) = true := by
  let preferences := (order.filter fun s => counts usable s.prefer).map SupportedDecoding.prefer
  have hpreference : preference usable order =
      (MostFrequent.mostFrequent (some .auto) preferences).getD .auto := rfl
  by_cases hnil : preferences = []
  · rw [hpreference, hnil] at h
    exact absurd rfl h
  · have hmem : MostFrequent.mostFrequent (some .auto) preferences ∈ preferences :=
      MostFrequent.mostFrequent_mem (some .auto) hnil
    obtain ⟨s, hs, hprefer⟩ := List.mem_map.mp hmem
    have hcounts : counts usable (MostFrequent.mostFrequent (some .auto) preferences) = true :=
      hprefer ▸ (List.mem_filter.mp hs).2
    rw [hpreference]
    cases hwinner : MostFrequent.mostFrequent (some .auto) preferences with
    | none =>
      rw [hwinner] at hcounts
      cases hcounts
    | some p =>
      rw [hwinner] at hcounts
      exact hcounts

/-- The choice without a preference: the hardware formats come first. -/
theorem autoCodec_eq (usable : SupportedEncoding) :
    autoCodec host usable =
      if usable.h265 then .h265
      else if usable.h264 then .h264
      else if usable.vp8 ∧ host.totalMemory ≤ 4 * 1024 * 1024 * 1024 then .vp8
      else if usable.av1 ∧ host.av1Test then .av1
      else .vp9 := by
  unfold autoCodec
  cases usable.h265 <;> cases usable.h264 <;> cases usable.av1 <;> cases host.av1Test <;> simp

/-- VP8 is usable only if all can decode it. -/
theorem supported_vp8 (h : (usableEncoding disableAv1 host peers).vp8 = true) :
    ∀ d ∈ peers, 0 < d.ability .vp8 := (allSupport_iff.mp h).2

/-- AV1 is usable only if all can decode it. -/
theorem supported_av1 (h : (usableEncoding disableAv1 host peers).av1 = true) :
    ∀ d ∈ peers, 0 < d.ability .av1 := (allSupport_iff.mp (Bool.and_eq_true_iff.mp h).1).2

/-- H.264 is usable only if all can decode it and the hardware can encode it. -/
theorem supported_h264 (h : (usableEncoding disableAv1 host peers).h264 = true) :
    (∀ d ∈ peers, 0 < d.ability .h264) ∧ hardwareEncodes host peers .h264 = true := by
  obtain ⟨hall, hhardware⟩ := Bool.and_eq_true_iff.mp h
  exact ⟨(allSupport_iff.mp hall).2, hhardware⟩

/-- H.265 is usable only if all can decode it and the hardware can encode it. -/
theorem supported_h265 (h : (usableEncoding disableAv1 host peers).h265 = true) :
    (∀ d ∈ peers, 0 < d.ability .h265) ∧ hardwareEncodes host peers .h265 = true := by
  obtain ⟨hall, hhardware⟩ := Bool.and_eq_true_iff.mp h
  exact ⟨(allSupport_iff.mp hall).2, hhardware⟩

/-- Where VP9 is picked it is the automatic codec. -/
theorem autoCodec_of_picks {usable : SupportedEncoding} (h : PicksVp9 host usable order)
    (hauto : preference usable order = .auto) : autoCodec host usable = .vp9 := by
  rcases h with hvp9 | ⟨-, h264, h265, hav1, hvp8⟩
  · simp [hauto] at hvp9
  · rw [autoCodec_eq, if_neg (by simp [h265]), if_neg (by simp [h264]), if_neg hvp8, if_neg hav1]

/-- Else all can decode the automatic codec. -/
theorem autoCodec_supported (h : ¬ PicksVp9 host (usableEncoding disableAv1 host peers) order)
    (hauto : preference (usableEncoding disableAv1 host peers) order = .auto) :
    ∀ d ∈ peers, 0 < d.ability (autoCodec host (usableEncoding disableAv1 host peers)) := by
  rw [autoCodec_eq]
  split_ifs with h265 h264 hvp8 hav1
  · exact (supported_h265 h265).1
  · exact (supported_h264 h264).1
  · exact supported_vp8 hvp8.1
  · exact supported_av1 hav1.1
  · refine absurd (.inr ⟨hauto, ?_, ?_, hav1, hvp8⟩) h
    · simpa using h264
    · simpa using h265

variable {s t : EncoderState} {e : EncoderEvent}

/-- **One update**, with VP9 picked: VP9 is stored. -/
theorem update_format_of_picks {u : EncodingUpdate}
    (h : PicksVp9 host (usableEncoding disableAv1 host (register s.decodings u).values) order) :
    (update disableAv1 s host u order).format = .vp9 := by
  unfold update
  dsimp only
  cases hpreference :
    preference (usableEncoding disableAv1 host (register s.decodings u).values) order with
  | vp9 => rfl
  | auto => exact autoCodec_of_picks h hpreference
  | _ => simp [PicksVp9, hpreference] at h

/-- **One update**, with VP9 not picked: all peers decode what is stored. -/
theorem update_supported {u : EncodingUpdate}
    (h : ¬ PicksVp9 host (usableEncoding disableAv1 host (register s.decodings u).values) order) :
    ∀ d ∈ (register s.decodings u).values,
      0 < d.ability (update disableAv1 s host u order).format := by
  have hcounts := @counts_preference order
    (usableEncoding disableAv1 host (register s.decodings u).values)
  unfold update
  dsimp only
  cases hpreference :
    preference (usableEncoding disableAv1 host (register s.decodings u).values) order with
  | auto => exact autoCodec_supported h hpreference
  | vp9 => exact absurd (.inl hpreference) h
  | vp8 =>
    rw [hpreference] at hcounts
    exact supported_vp8 (hcounts nofun)
  | av1 =>
    rw [hpreference] at hcounts
    exact supported_av1 (hcounts nofun)
  | h264 =>
    rw [hpreference] at hcounts
    obtain ⟨hall, hhardware⟩ := supported_h264 (hcounts nofun)
    simpa [hhardware] using hall
  | h265 =>
    rw [hpreference] at hcounts
    obtain ⟨hall, hhardware⟩ := supported_h265 (hcounts nofun)
    simpa [hhardware] using hall

/-- **One step.** The condition says exactly which updates leave a decodable format. -/
theorem step_decodable_iff (hstep : (encoderMachine disableAv1).step s e = some t) :
    Decodable disableAv1 t ↔ Vp9Safe disableAv1 s e := by
  obtain ⟨-, rfl⟩ := by simpa [encoderMachine] using hstep
  by_cases hpicks : PicksVp9 e.host
    (usableEncoding disableAv1 e.host (register s.decodings e.update).values) e.order
  · have hformat := update_format_of_picks hpicks
    constructor
    · intro hdecodable _
      by_contra hnot
      obtain ⟨hlack, hsoftware⟩ := not_or.mp hnot
      apply hlack
      intro d hd
      have hability := hdecodable (List.ne_nil_of_mem hd) (not_not.mp hsoftware) d hd
      rwa [hformat] at hability
    · intro hsafe _ hsoftware d hd
      rw [hformat]
      exact (hsafe hpicks).elim (fun hall => hall d hd) fun hnot => absurd hsoftware hnot
  · exact iff_of_true (fun _ _ => update_supported hpicks) fun h => absurd h hpicks

/-- **Negotiation.** All states of a run store a format that all peers decode if and only if VP9
is never picked against a peer that does not decode it. -/
theorem decodable_iff (disableAv1 : Bool) (s : EncoderState) (events : List EncoderEvent)
    (hrun : (encoderMachine disableAv1).Run initial events s) :
    (∀ first t, first <+: events → (encoderMachine disableAv1).Run initial first t →
        Decodable disableAv1 t) ↔
      (encoderMachine disableAv1).RunWhere (Vp9Safe disableAv1) initial events s := by
  refine Machine.runWhere_iff_invariant (fun _ _ _ hstep _ => step_decodable_iff hstep) ?_ hrun
  intro hpeers
  exact absurd rfl hpeers

/-! ## Two peers -/

/-- A host without hardware codecs, with 8 GB of memory. -/
def demoHost : HostCodecs := ⟨false, false, false, false, none, none, true, 8589934592⟩

/-- A peer on which VP9 failed and which marked it as unsupported. -/
def vp8Only : SupportedDecoding := { SupportedDecoding.default with abilityVp8 := 1 }

/-- A peer that decodes VP8 and VP9. -/
def vp8AndVp9 : SupportedDecoding :=
  { SupportedDecoding.default with abilityVp8 := 1, abilityVp9 := 1 }

/-- A peer that declares VP9 gets what it decodes. -/
theorem decodable_vp8_and_vp9 :
    ∃ s, (encoderMachine false).Run initial [⟨demoHost, .update 1 vp8AndVp9, [vp8AndVp9]⟩] s ∧
      ∀ first t, first <+: [⟨demoHost, .update 1 vp8AndVp9, [vp8AndVp9]⟩] →
        (encoderMachine false).Run initial first t → Decodable false t := by
  have hwhere : (encoderMachine false).RunWhere (Vp9Safe false) initial
      [⟨demoHost, .update 1 vp8AndVp9, [vp8AndVp9]⟩]
      (update false initial demoHost (.update 1 vp8AndVp9) [vp8AndVp9]) :=
    .single (fun _ => .inl (by decide)) rfl
  exact ⟨_, hwhere.run, (decodable_iff false _ _ hwhere.run).mpr hwhere⟩

/-- The peer decodes VP8 and gets VP9. -/
theorem not_decodable_vp8_only :
    ∃ t, (encoderMachine false).Run initial [⟨demoHost, .update 1 vp8Only, [vp8Only]⟩] t ∧
      t.format = .vp9 ∧ ¬ Decodable false t := by
  refine ⟨_, Machine.run_of_replay rfl, rfl, fun h => ?_⟩
  have hability := h (by decide) (.inl (by decide)) vp8Only (by decide)
  exact absurd hability (by decide)

end Encoder

end RdWeb.Host
