import RdWeb.Host.Codec
import Mathlib.Data.List.Enum

/-!
# The codec vote and the order of the peers

The peers are kept in a hash map, and a tie between their preferences goes to the one that the
iteration of the map meets first. So the format depends on the peers alone exactly where one
preference is the most frequent.
-/

namespace RdWeb.Host

namespace Encoder

/-- The preferences that count. -/
def countedPreferences (usable : SupportedEncoding) (order : List SupportedDecoding) :
    List (Option PreferCodec) :=
  (order.filter fun s => counts usable s.prefer).map SupportedDecoding.prefer

/-- Any two hosts of this kind whose peers declare this choose the same format. -/
def OrderFree (disableAv1 : Bool) (host : HostCodecs) (peers : List SupportedDecoding) : Prop :=
  ∀ (s t : EncoderState) (u v : EncodingUpdate) (order order' : List SupportedDecoding),
    (register s.decodings u).values.Perm peers → order.Perm peers →
    (register t.decodings v).values.Perm peers → order'.Perm peers →
    (update disableAv1 s host u order).format = (update disableAv1 t host v order').format

/-- At most one of the preferences that count is the most frequent. -/
def NoTie (disableAv1 : Bool) (host : HostCodecs) (peers : List SupportedDecoding) : Prop :=
  let preferences := countedPreferences (usableEncoding disableAv1 host peers) peers
  ∀ p ∈ preferences, ∀ q ∈ preferences,
    MostFrequent.Leads preferences p → MostFrequent.Leads preferences q → p = q

/-- The format a preference leads to. -/
def chosenFormat (disableAv1 : Bool) (host : HostCodecs) (peers : List SupportedDecoding)
    (preference : PreferCodec) : CodecFormat :=
  let auto := autoCodec host (usableEncoding disableAv1 host peers)
  match preference with
  | .vp8 => .vp8
  | .vp9 => .vp9
  | .av1 => .av1
  | .h264 => if hardwareEncodes host peers .h264 then .h264 else auto
  | .h265 => if hardwareEncodes host peers .h265 then .h265 else auto
  | .auto => auto

variable {disableAv1 : Bool} {host : HostCodecs} {peers peers' order : List SupportedDecoding}

/-- The format after an update, by the table after it. -/
theorem update_format (s : EncoderState) (u : EncodingUpdate) :
    (update disableAv1 s host u order).format =
      chosenFormat disableAv1 host (register s.decodings u).values
        (preference (usableEncoding disableAv1 host (register s.decodings u).values) order) :=
  rfl

/-- The preference is the most frequent one that counts. -/
theorem preference_eq (usable : SupportedEncoding) :
    preference usable order =
      (MostFrequent.mostFrequent (some .auto) (countedPreferences usable order)).getD .auto :=
  rfl

/-! ### The order of the peers -/

/-- Support does not depend on the order of the peers. -/
theorem allSupport_perm (h : peers.Perm peers') (format : CodecFormat) :
    allSupport peers format = allSupport peers' format := by
  rw [Bool.eq_iff_iff, allSupport_iff, allSupport_iff, ne_eq, ne_eq, ← List.length_eq_zero_iff,
    ← List.length_eq_zero_iff, h.length_eq]
  exact and_congr_right fun _ => forall_congr' fun s => by rw [h.mem_iff]

/-- Nor does the hardware. -/
theorem hardwareEncodes_perm (h : peers.Perm peers') (format : CodecFormat) :
    hardwareEncodes host peers format = hardwareEncodes host peers' format := by
  cases format with
  | h264 => simp only [hardwareEncodes, allSupport_perm h]
  | h265 => simp only [hardwareEncodes, allSupport_perm h]
  | _ => rfl

/-- Nor does what is usable. -/
theorem usableEncoding_perm (h : peers.Perm peers') :
    usableEncoding disableAv1 host peers = usableEncoding disableAv1 host peers' := by
  simp only [usableEncoding, allSupport_perm h, hardwareEncodes_perm h]

/-- Nor does the chosen format. -/
theorem chosenFormat_perm (h : peers.Perm peers') (p : PreferCodec) :
    chosenFormat disableAv1 host peers p = chosenFormat disableAv1 host peers' p := by
  simp only [chosenFormat, usableEncoding_perm h, hardwareEncodes_perm h]

/-- The preferences that count are the same in every order. -/
theorem countedPreferences_perm (usable : SupportedEncoding) (h : order.Perm peers) :
    (countedPreferences usable order).Perm (countedPreferences usable peers) :=
  (h.filter _).map _

/-- An update chooses by the peers, the order apart. -/
theorem update_format_of_perm {s : EncoderState} {u : EncodingUpdate}
    (h : (register s.decodings u).values.Perm peers) :
    (update disableAv1 s host u order).format =
      chosenFormat disableAv1 host peers
        (preference (usableEncoding disableAv1 host peers) order) := by
  rw [update_format, chosenFormat_perm h, usableEncoding_perm h]

/-! ### What a preference leads to -/

/-- The format of the same name. -/
def namesake : PreferCodec → CodecFormat
  | .vp8 => .vp8
  | .av1 => .av1
  | .h264 => .h264
  | .h265 => .h265
  | _ => .vp9

/-- A preference that counts is the format. -/
theorem chosenFormat_of_counts {p : PreferCodec}
    (h : counts (usableEncoding disableAv1 host peers) (some p) = true) :
    chosenFormat disableAv1 host peers p = namesake p := by
  cases p with
  | auto => cases h
  | vp8 => rfl
  | vp9 => rfl
  | av1 => rfl
  | h264 => exact if_pos (supported_h264 h).2
  | h265 => exact if_pos (supported_h265 h).2

/-- Preferences that count are known by their formats. -/
theorem namesake_inj {usable : SupportedEncoding} {p q : PreferCodec}
    (hp : counts usable (some p) = true) (hq : counts usable (some q) = true)
    (h : namesake p = namesake q) : p = q := by
  cases p <;> cases q <;> simp_all [namesake, counts]

/-- A preference that counts is that of some peer. -/
theorem mem_countedPreferences {usable : SupportedEncoding} {p : Option PreferCodec}
    (h : p ∈ countedPreferences usable order) :
    ∃ d ∈ order, d.prefer = p ∧ counts usable p = true := by
  obtain ⟨d, hd, rfl⟩ := List.mem_map.mp h
  obtain ⟨hmem, hcounts⟩ := List.mem_filter.mp hd
  exact ⟨d, hmem, rfl, hcounts⟩

/-- What counts is a preference for a codec. -/
theorem exists_of_counts {usable : SupportedEncoding} {p : Option PreferCodec}
    (h : counts usable p = true) : ∃ codec, p = some codec := by
  cases p with
  | none => cases h
  | some codec => exact ⟨codec, rfl⟩

/-! ### The vote -/

/-- A table with these peers. -/
def tableOf (peers : List SupportedDecoding) : OrderedMap ℤ SupportedDecoding where
  entries := peers.zipIdx.map fun x => ((x.2 : ℤ), x.1)
  nodup_keys := by
    rw [List.map_map]
    have hkeys : (peers.zipIdx.map (Prod.fst ∘ fun x => ((x.2 : ℤ), x.1))) =
        (List.range' 0 peers.length).map fun n : ℕ => (n : ℤ) := by
      rw [← List.zipIdx_map_snd 0 peers, List.map_map]
      rfl
    rw [hkeys]
    exact (List.nodup_range').map fun _ _ h => Int.ofNat.inj h

/-- The values of a table are the peers. -/
theorem values_tableOf (peers : List SupportedDecoding) : (tableOf peers).values = peers := by
  rw [OrderedMap.values, tableOf, List.map_map]
  exact List.zipIdx_map_fst 0 peers

/-- A most frequent preference wins in an order that starts with a peer who has it. -/
theorem exists_order_preference {usable : SupportedEncoding} {p : PreferCodec}
    (hmem : some p ∈ countedPreferences usable peers)
    (hlead : MostFrequent.Leads (countedPreferences usable peers) (some p)) :
    ∃ order : List SupportedDecoding, order.Perm peers ∧ preference usable order = p := by
  obtain ⟨d, hd, hprefer, hcounts⟩ := mem_countedPreferences hmem
  have hperm : (d :: peers.erase d).Perm peers := (List.perm_cons_erase hd).symm
  have hfirst : countedPreferences usable (d :: peers.erase d) =
      some p :: countedPreferences usable (peers.erase d) := by
    rw [countedPreferences, List.filter_cons_of_pos (by rw [hprefer, hcounts]), List.map_cons,
      hprefer]
    rfl
  have hlead' := (MostFrequent.leads_perm (countedPreferences_perm usable hperm)).mpr hlead
  rw [hfirst] at hlead'
  refine ⟨_, hperm, ?_⟩
  rw [preference_eq, hfirst, MostFrequent.mostFrequent_cons hlead']
  rfl

/-- Without a tie the order does not matter. -/
theorem preference_perm {usable : SupportedEncoding} (h : order.Perm peers)
    (hnoTie : ∀ p ∈ countedPreferences usable peers, ∀ q ∈ countedPreferences usable peers,
      MostFrequent.Leads (countedPreferences usable peers) p →
      MostFrequent.Leads (countedPreferences usable peers) q → p = q) :
    preference usable order = preference usable peers := by
  have hperm := countedPreferences_perm usable h
  rw [preference_eq, preference_eq]
  by_cases hnil : countedPreferences usable peers = []
  · rw [hnil] at hperm
    rw [hnil, List.perm_nil.mp hperm]
  · have hne : countedPreferences usable order ≠ [] := by
      intro heq
      exact hnil (List.perm_nil.mp (heq ▸ hperm).symm)
    obtain ⟨hmem, hlead⟩ := MostFrequent.mostFrequent_leads (some .auto) hne
    obtain ⟨hmem', hlead'⟩ := MostFrequent.mostFrequent_leads (some .auto) hnil
    rw [hnoTie _ (hperm.mem_iff.mp hmem) _ hmem' ((MostFrequent.leads_perm hperm).mp hlead) hlead']

/-- **The codec depends only on the peers** exactly where no two of the preferences that count are
the most frequent. -/
theorem orderFree_iff_noTie (disableAv1 : Bool) (host : HostCodecs)
    (peers : List SupportedDecoding) :
    OrderFree disableAv1 host peers ↔ NoTie disableAv1 host peers := by
  constructor
  · intro hfree p hp q hq hleadP hleadQ
    obtain ⟨-, -, -, hcountsP⟩ := mem_countedPreferences hp
    obtain ⟨-, -, -, hcountsQ⟩ := mem_countedPreferences hq
    obtain ⟨p, rfl⟩ := exists_of_counts hcountsP
    obtain ⟨q, rfl⟩ := exists_of_counts hcountsQ
    obtain ⟨first, hfirst, hpreferP⟩ := exists_order_preference hp hleadP
    obtain ⟨second, hsecond, hpreferQ⟩ := exists_order_preference hq hleadQ
    have htable : (register (tableOf peers) .check).values.Perm peers := by
      rw [register, values_tableOf]
    have hsame := hfree ⟨tableOf peers, .vp9, none⟩ ⟨tableOf peers, .vp9, none⟩ .check .check first
      second htable hfirst htable hsecond
    rw [update_format_of_perm htable, update_format_of_perm htable, hpreferP, hpreferQ,
      chosenFormat_of_counts hcountsP, chosenFormat_of_counts hcountsQ] at hsame
    rw [namesake_inj hcountsP hcountsQ hsame]
  · intro hnoTie s t u v order order' hs horder ht horder'
    rw [update_format_of_perm hs, update_format_of_perm ht, preference_perm horder hnoTie,
      preference_perm horder' hnoTie]

/-- Two peers that decode VP9 and AV1; each prefers another of them. -/
def vp9Fan : SupportedDecoding :=
  { SupportedDecoding.default with abilityVp9 := 1, abilityAv1 := 1, prefer := some .vp9 }

/-- A peer that prefers AV1. -/
def av1Fan : SupportedDecoding := { vp9Fan with prefer := some .av1 }

/-- The first one that the map meets decides. -/
theorem not_orderFree_fans : ¬ OrderFree false demoHost [vp9Fan, av1Fan] := by
  intro h
  have hsame := h ⟨tableOf [vp9Fan, av1Fan], .vp9, none⟩ ⟨tableOf [vp9Fan, av1Fan], .vp9, none⟩
    .check .check [vp9Fan, av1Fan] [av1Fan, vp9Fan] (by decide) (by decide) (by decide) (by decide)
  exact absurd hsame (by decide)

end Encoder

end RdWeb.Host
