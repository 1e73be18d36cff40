import RdWeb.Host.VideoQos
import Mathlib.Tactic.NormNum

/-!
# The quality controller respects its viewers

After every call that chooses a frame rate, the rate is within the caps of all connected users, and
no call panics at a clamp. A closed user leaves the records of the others as they are, and the next
update of the display data follows the remaining records.
-/

namespace RdWeb.Host

open VideoQoS

/-- A value is clamped between its bounds. -/
theorem clamp_eq_some {α : Type} [LinearOrder α] {v lo hi : α} (h : lo ≤ hi) :
    ∃ w, clamp v lo hi = some w ∧ lo ≤ w ∧ w ≤ hi ∧ w ≤ max lo v := by
  unfold clamp
  rw [if_pos h]
  refine ⟨_, rfl, ?_⟩
  split_ifs with hlo hhi
  · exact ⟨le_refl _, h, le_max_left _ _⟩
  · exact ⟨h, le_refl _, le_max_of_le_right hhi.le⟩
  · exact ⟨not_lt.mp hlo, not_lt.mp hhi, le_max_right _ _⟩

/-- A minimum depends on the members only. -/
theorem min?_congr {l l' : List ℕ} (h : ∀ a, a ∈ l ↔ a ∈ l') : l.min? = l'.min? := by
  cases hl : l.min? with
  | none =>
    have hnil : l = [] := List.min?_eq_none_iff.mp hl
    have hnil' : l' = [] := List.eq_nil_iff_forall_not_mem.mpr fun a ha => by
      simpa [hnil] using (h a).mpr ha
    rw [hnil', List.min?_nil]
  | some a =>
    obtain ⟨hmem, hle⟩ := List.min?_eq_some_iff.mp hl
    exact (List.min?_eq_some_iff.mpr ⟨(h a).mp hmem, fun b hb => hle b ((h b).mpr hb)⟩).symm

/-- A custom ratio is not below the least one. -/
def Quality.Tame (q : Quality) : Prop := brMin ≤ q.ratio

namespace UserData

/-- The most frames a user wants: its custom value, or its auto-adjusted one when that is less. -/
def cap (u : UserData) : ℕ :=
  match u.autoAdjustFps with
  | some autoAdjustFps => min (u.customFps.getD FPS) autoAdjustFps
  | none => u.customFps.getD FPS

/-- The values a user chose are in range. -/
structure Tame (u : UserData) : Prop where
  custom : ∀ fps, u.customFps = some fps → minFps ≤ fps ∧ fps ≤ maxFps
  auto : ∀ fps, u.autoAdjustFps = some fps → minFps ≤ fps ∧ fps ≤ maxFps
  quality : ∀ time q, u.quality = some (time, q) → q.Tame

variable {u : UserData}

/-- A new user is tame. -/
theorem Tame.empty : ({} : UserData).Tame where
  custom fps h := by cases h
  auto fps h := by cases h
  quality time q h := by cases h

/-- A delay keeps a user tame. -/
theorem Tame.withDelay (h : u.Tame) (d : UserDelay) : { u with delay := d }.Tame :=
  ⟨h.custom, h.auto, h.quality⟩

/-- The wish of a tame user is in range. -/
theorem Tame.custom_le (h : u.Tame) :
    minFps ≤ u.customFps.getD FPS ∧ u.customFps.getD FPS ≤ maxFps := by
  cases hcustom : u.customFps with
  | none => exact ⟨by decide, by decide⟩
  | some fps => exact h.custom fps hcustom

/-- So is its cap. -/
theorem Tame.cap_le (h : u.Tame) : minFps ≤ u.cap ∧ u.cap ≤ maxFps := by
  have hcustom := h.custom_le
  unfold cap
  cases hauto : u.autoAdjustFps with
  | none => exact hcustom
  | some fps =>
    have hrange := h.auto fps hauto
    exact ⟨le_min hcustom.1 hrange.1, (min_le_left _ _).trans hcustom.2⟩

/-- A tame user gets its cap. -/
theorem Tame.userFps_eq (h : u.Tame) : u.userFps = u.cap := by
  have hcustom := h.custom_le
  unfold userFps cap
  cases hauto : u.autoAdjustFps with
  | none => rfl
  | some fps =>
    have hpos : u.customFps.getD FPS ≠ 0 := by
      have : minFps = 1 := rfl
      omega
    simp only [hpos, false_or]
    split_ifs with hlt
    · exact (min_eq_right hlt.le).symm
    · exact (min_eq_left (not_lt.mp hlt)).symm

end UserData

/-- All records but that of one user are kept. -/
def SameOthers (users users' : OrderedMap ℤ UserData) (id : ℤ) : Prop :=
  ∀ other, other ≠ id → users'.get? other = users.get? other

/-- Nothing changed for the others. -/
theorem SameOthers.refl (users : OrderedMap ℤ UserData) (id : ℤ) : SameOthers users users id :=
  fun _ _ => rfl

/-- A change of one user leaves the others. -/
theorem sameOthers_set (users : OrderedMap ℤ UserData) (id : ℤ) (u : UserData) :
    SameOthers users (users.set id u) id := by
  intro other hne
  rw [OrderedMap.get?_set, if_neg hne]

/-- So does its end. -/
theorem sameOthers_delete (users : OrderedMap ℤ UserData) (id : ℤ) :
    SameOthers users (users.delete id) id := by
  intro other hne
  rw [OrderedMap.get?_delete, if_neg hne]

/-- The values of all users are in range. -/
def UsersTame (users : OrderedMap ℤ UserData) : Prop := ∀ id u, users.get? id = some u → u.Tame

namespace UsersTame

variable {users : OrderedMap ℤ UserData}

/-- Without users all are tame. -/
theorem empty : UsersTame .empty := by
  intro id u h
  cases h

/-- A tame user may come. -/
theorem set (h : UsersTame users) (id : ℤ) {u : UserData} (hu : u.Tame) :
    UsersTame (users.set id u) := by
  intro id' u' hget
  rw [OrderedMap.get?_set] at hget
  split_ifs at hget
  · cases hget
    exact hu
  · exact h id' u' hget

/-- A user may go. -/
theorem delete (h : UsersTame users) (id : ℤ) : UsersTame (users.delete id) := by
  intro id' u' hget
  rw [OrderedMap.get?_delete] at hget
  split_ifs at hget
  exact h id' u' hget

end UsersTame

namespace VideoQoS

variable {linux : Bool} {s t : VideoQoS} {m : Moment}

/-- The quality set last, or the balanced one where no user set any. -/
def IsLatest (s : VideoQoS) (q : Quality) : Prop :=
  (∃ id u time, s.users.get? id = some u ∧ u.quality = some (time, q) ∧
    ∀ id' u' time' q', s.users.get? id' = some u' → u'.quality = some (time', q') →
      time' ≤ time) ∨
  (∀ id u, s.users.get? id = some u → u.quality = none) ∧ q = .balanced

/-- The frame rate is within the caps of all users. -/
structure Respected (s : VideoQoS) : Prop where
  one_le : 1 ≤ s.fps
  le_cap : ∀ id u, s.users.get? id = some u → s.fps ≤ u.cap
  delayed : ∀ id u, s.users.get? id = some u → u.delay.responseDelayed = true → s.fps ≤ 2

/-- The latest of some qualities is one of them, and none is later. -/
theorem fold_latest (q : ℤ × Quality) (rest : List (ℤ × Quality)) :
    let r := rest.foldl (fun a b => if b.1 < a.1 then a else b) q
    r ∈ q :: rest ∧ ∀ p ∈ q :: rest, p.1 ≤ r.1 := by
  induction rest generalizing q with
  | nil => simp
  | cons b rest ih =>
    obtain ⟨hmem, hle⟩ := ih (if b.1 < q.1 then q else b)
    rw [List.foldl_cons]
    by_cases hlt : b.1 < q.1
    · rw [if_pos hlt] at hmem hle ⊢
      refine ⟨?_, fun p hp => ?_⟩
      · rcases List.mem_cons.mp hmem with hq | hrest
        · rw [hq]
          exact List.mem_cons_self
        · exact List.mem_cons_of_mem _ (List.mem_cons_of_mem _ hrest)
      · have hq := hle q List.mem_cons_self
        rcases List.mem_cons.mp hp with rfl | hp
        · exact hq
        · rcases List.mem_cons.mp hp with rfl | hp
          · exact hlt.le.trans hq
          · exact hle p (List.mem_cons_of_mem _ hp)
    · rw [if_neg hlt] at hmem hle ⊢
      refine ⟨List.mem_cons_of_mem _ hmem, fun p hp => ?_⟩
      rcases List.mem_cons.mp hp with rfl | hp
      · exact (not_lt.mp hlt).trans (hle b List.mem_cons_self)
      · exact hle p hp

/-- Who has a quality is found in the list that is iterated. -/
theorem mem_qualities_iff {p : ℤ × Quality} :
    p ∈ (m.order s.users.entries).filterMap (·.2.quality) ↔
      ∃ id u, s.users.get? id = some u ∧ u.quality = some p := by
  rw [List.mem_filterMap]
  constructor
  · rintro ⟨⟨id, u⟩, hmem, hq⟩
    exact ⟨id, u, OrderedMap.get?_of_mem_entries ((m.order_perm _).mem_iff.mp hmem), hq⟩
  · rintro ⟨id, u, hget, hq⟩
    exact ⟨(id, u), (m.order_perm _).mem_iff.mpr (OrderedMap.mem_entries_of_get? hget), hq⟩

/-- The quality that is taken is the latest. -/
theorem isLatest_latestQuality : s.IsLatest (s.latestQuality m) := by
  unfold latestQuality
  cases hlist : (m.order s.users.entries).filterMap (·.2.quality) with
  | nil =>
    refine Or.inr ⟨fun id u hget => ?_, rfl⟩
    by_contra hne
    obtain ⟨p, hp⟩ := Option.ne_none_iff_exists'.mp hne
    have hmem := mem_qualities_iff (m := m).mpr ⟨id, u, hget, hp⟩
    rw [hlist] at hmem
    cases hmem
  | cons q rest =>
    obtain ⟨hmem, hle⟩ := fold_latest q rest
    rw [← hlist] at hmem hle
    obtain ⟨id, u, hget, hq⟩ := mem_qualities_iff.mp hmem
    refine Or.inl ⟨id, u, _, hget, hq, fun id' u' time' q' hget' hq' => ?_⟩
    exact hle (time', q') (mem_qualities_iff.mpr ⟨id', u', hget', hq'⟩)

/-- The latest quality of tame users is tame. -/
theorem IsLatest.tame {q : Quality} (h : s.IsLatest q) (hs : UsersTame s.users) : q.Tame := by
  rcases h with ⟨id, u, time, hget, hq, -⟩ | ⟨-, rfl⟩
  · exact (hs id u hget).quality time q hq
  · unfold Quality.Tame Quality.ratio brMin brBalanced
    norm_num

/-- The greatest frame rate is the least cap. -/
theorem highestFps_spec (hs : UsersTame s.users) :
    ∃ h, s.highestFps = some h ∧ minFps ≤ h ∧ ∀ id u, s.users.get? id = some u → h ≤ u.cap := by
  set caps := (s.users.values.map (·.userFps)).filter (minFps ≤ ·) with hcaps
  obtain ⟨h, hclamp, hmin, -, hle⟩ :=
    clamp_eq_some (v := caps.min?.getD FPS) (show minFps ≤ maxFps by decide)
  refine ⟨h, hclamp, hmin, fun id u hget => ?_⟩
  have hcap := (hs id u hget).cap_le
  have hmem : u.cap ∈ caps := by
    rw [hcaps, List.mem_filter, List.mem_map]
    exact ⟨⟨u, OrderedMap.mem_values_iff.mpr ⟨id, hget⟩, (hs id u hget).userFps_eq⟩,
      by simpa using hcap.1⟩
  cases hleast : caps.min? with
  | none =>
    rw [List.min?_eq_none_iff.mp hleast] at hmem
    cases hmem
  | some least =>
    have hleast_le := (List.min?_eq_some_iff.mp hleast).2 _ hmem
    rw [hleast, Option.getD_some] at hle
    exact hle.trans (max_le hcap.1 hleast_le)

/-- With a delayed response no more than two frames are wanted. -/
theorem wantedFps_le_of_delayed {id : ℤ} {u : UserData} (hget : s.users.get? id = some u)
    (hdelayed : u.delay.responseDelayed = true) : s.wantedFps m ≤ 2 := by
  have hany : s.users.values.any (·.delay.responseDelayed) = true :=
    List.any_eq_true.mpr ⟨u, OrderedMap.mem_values_iff.mpr ⟨id, hget⟩, hdelayed⟩
  have hinit : initFps = 15 := rfl
  have hmin : minFps = 1 := rfl
  unfold wantedFps
  simp only [hany, true_and]
  split_ifs <;> omega

/-- The rate can be adjusted, and is respected then. -/
theorem adjustFps_spec (hs : UsersTame s.users) :
    ∃ fps, s.adjustFps m = some { s with fps } ∧ Respected { s with fps } := by
  obtain ⟨highest, hhighest, hmin, hcap⟩ := highestFps_spec hs
  obtain ⟨fps, hclamp, hlo, hhi, hle⟩ := clamp_eq_some (v := s.wantedFps m) hmin
  refine ⟨fps, ?_, ⟨hlo, fun id u hget => hhi.trans (hcap id u hget), ?_⟩⟩
  · simp [adjustFps, hhighest, hclamp]
  · intro id u hget hdelayed
    exact hle.trans (max_le (by decide) (wantedFps_le_of_delayed hget hdelayed))

/-- A lowered minimum is not above the minimum. -/
theorem lowered_le (minimum : ℚ) (ratio1mbps : Option ℚ) :
    lowered minimum ratio1mbps ≤ minimum := by
  unfold lowered
  cases ratio1mbps with
  | none => exact le_refl minimum
  | some ratio =>
    simp only
    split_ifs with hlt
    · exact hlt.le
    · exact le_refl minimum

/-- The minimum of the ratio is not above the ratio of the quality. -/
theorem minRatio_le {q : Quality} (hq : q.Tame) (ratio1mbps : Option ℚ) :
    minRatio q ratio1mbps ≤ q.ratio * maxBrMultiple ∧
      brMinHighResolution ≤ minRatio q ratio1mbps := by
  have hmin : brMinHighResolution ≤ brMin := by norm_num [brMinHighResolution, brMin]
  unfold minRatio maxBrMultiple
  rw [mul_one]
  cases q with
  | best =>
    have hbest : brBest / (5 / 2) ≤ brBest := by norm_num [brBest]
    have hlow : brMin ≤ brBest := by norm_num [brMin, brBest]
    exact ⟨max_le ((lowered_le _ _).trans hbest) hlow, hmin.trans (le_max_right _ _)⟩
  | balanced =>
    have hhalf : min (brBalanced / 2) (2 / 5) ≤ brBalanced :=
      (min_le_left _ _).trans (by norm_num [brBalanced])
    have hlow : brMinHighResolution ≤ brBalanced := by
      norm_num [brMinHighResolution, brBalanced]
    exact ⟨max_le ((lowered_le _ _).trans hhalf) hlow, le_max_right _ _⟩
  | low => exact ⟨by norm_num [Quality.ratio, brMinHighResolution, brSpeed], le_refl _⟩
  | custom v => exact ⟨hmin.trans hq, le_refl _⟩

/-- The clamp of `adjust_ratio` finds its bounds in order. -/
theorem clampRatio_spec (hs : UsersTame s.users) (v : ℚ) (ratio1mbps : Option ℚ) :
    ∃ ratio, clamp v (minRatio (s.latestQuality m) ratio1mbps)
        ((s.latestQuality m).ratio * maxBrMultiple) = some ratio ∧
      ∃ q, s.IsLatest q ∧ brMinHighResolution ≤ ratio ∧ ratio ≤ q.ratio := by
  have htarget := isLatest_latestQuality (s := s) (m := m)
  obtain ⟨hle, hlow⟩ := minRatio_le (htarget.tame hs) ratio1mbps
  obtain ⟨ratio, hclamp, hlo, hhi, -⟩ := clamp_eq_some (v := v) hle
  rw [maxBrMultiple, mul_one] at hhi
  exact ⟨ratio, hclamp, _, htarget, hlow.trans hlo, hhi⟩

/-- The ratio can be adjusted. -/
theorem adjustRatio_spec (hs : UsersTame s.users) (dynamicScreen : Bool) :
    ∃ ratio instant, s.adjustRatio m dynamicScreen =
        some { s with ratio, adjustRatioInstant := instant } ∧
      (s.inVbrState = true → s.users.entries ≠ [] → instant = m.now ∧
        ∃ q, s.IsLatest q ∧ brMinHighResolution ≤ ratio ∧ ratio ≤ q.ratio) := by
  unfold adjustRatio
  by_cases hvbr : s.inVbrState = false
  · rw [if_pos hvbr]
    exact ⟨s.ratio, s.adjustRatioInstant, rfl, fun h => by simp [hvbr] at h⟩
  rw [if_neg hvbr]
  cases hdelays : (s.users.values.map (·.delay.avgDelay)).max? with
  | none =>
    refine ⟨s.ratio, s.adjustRatioInstant, rfl, fun _ hne => ?_⟩
    have hnil := List.map_eq_nil_iff.mp (List.max?_eq_none_iff.mp hdelays)
    exact absurd (List.map_eq_nil_iff.mp hnil) hne
  | some maxDelay =>
    exact (clampRatio_spec hs _ _).imp fun ratio ⟨hclamp, hq⟩ =>
      ⟨m.now, congrArg (Option.map _) hclamp, fun _ _ => ⟨rfl, hq⟩⟩

/-- Every number a client sends is some quality in range. -/
theorem convert_spec (q : BitVec 32) : ∃ quality, Quality.convert q = some quality ∧
    quality.Tame := by
  have hrange : brMin ≤ brMax := by norm_num [brMin, brMax]
  obtain ⟨b, hclamp, hlo, -, -⟩ := clamp_eq_some
    (v := (((q.sshiftRight 8 &&& 0xFFF#32).toNat * 2 : ℕ) : ℚ) / 100) hrange
  unfold Quality.convert
  split_ifs
  · exact ⟨_, rfl, by norm_num [Quality.Tame, Quality.ratio, brMin, brBalanced]⟩
  · exact ⟨_, rfl, by norm_num [Quality.Tame, Quality.ratio, brMin, brSpeed]⟩
  · exact ⟨_, rfl, by norm_num [Quality.Tame, Quality.ratio, brMin, brBest]⟩
  · exact ⟨.custom b, by simp only [hclamp, Option.map_some], hlo⟩

/-- Respect depends on the rate and on the users. -/
theorem Respected.of_same (h : s.Respected) (hfps : t.fps = s.fps) (husers : t.users = s.users) :
    t.Respected where
  one_le := hfps ▸ h.one_le
  le_cap := hfps ▸ husers ▸ h.le_cap
  delayed := hfps ▸ husers ▸ h.delayed

/-- A change of one user that keeps it tame. -/
theorem updateUser_spec (hs : UsersTame s.users) (id : ℤ) {f : UserData → UserData}
    (hf : ∀ u, u.Tame → (f u).Tame) : UsersTame (s.updateUser id f).users ∧
      SameOthers s.users (s.updateUser id f).users id := by
  unfold updateUser
  cases hget : s.users.get? id with
  | none => exact ⟨hs, .refl _ _⟩
  | some u => exact ⟨hs.set id (hf u (hs id u hget)), sameOthers_set _ _ _⟩

/-- A wish for a rate. -/
theorem userCustomFps_spec (hs : UsersTame s.users) (id : ℤ) (fps : ℕ) :
    UsersTame (s.userCustomFps id fps).users ∧
      SameOthers s.users (s.userCustomFps id fps).users id := by
  unfold userCustomFps
  split_ifs with hrange
  · exact ⟨hs, .refl _ _⟩
  · obtain ⟨hlo, hhi⟩ := not_or.mp hrange
    refine updateUser_spec hs id fun u hu => ⟨fun fps' hfps' => ?_, hu.auto, hu.quality⟩
    cases hfps'
    exact ⟨not_lt.mp hlo, not_lt.mp hhi⟩

/-- A rate of the client. -/
theorem userAutoAdjustFps_spec (hs : UsersTame s.users) (id : ℤ) (fps : ℕ) :
    UsersTame (s.userAutoAdjustFps id fps).users ∧
      SameOthers s.users (s.userAutoAdjustFps id fps).users id := by
  unfold userAutoAdjustFps
  split_ifs with hrange
  · exact ⟨hs, .refl _ _⟩
  · obtain ⟨hlo, hhi⟩ := not_or.mp hrange
    refine updateUser_spec hs id fun u hu => ⟨hu.custom, fun fps' hfps' => ?_, hu.quality⟩
    cases hfps'
    exact ⟨not_lt.mp hlo, not_lt.mp hhi⟩

/-- Closing a user removes its record and no other one. -/
theorem onConnectionClose_spec (hs : UsersTame s.users) (id : ℤ) :
    UsersTame (s.onConnectionClose m id).users ∧
      SameOthers s.users (s.onConnectionClose m id).users id ∧
      (s.onConnectionClose m id).users.get? id = none := by
  unfold onConnectionClose
  simp only
  split_ifs with hnil
  · refine ⟨.empty, fun other hne => ?_, rfl⟩
    have hnone : (s.users.delete id).get? other = none := by
      rw [OrderedMap.get?, hnil, OrderedMap.lookupIn]
    rw [← sameOthers_delete s.users id other hne, hnone]
    rfl
  · exact ⟨hs.delete id, sameOthers_delete _ _, by simp⟩

/-- A wish for a quality. -/
theorem userImageQuality_spec (hs : UsersTame s.users) (id : ℤ) (q : BitVec 32) :
    ∃ t, s.userImageQuality m id q = some t ∧ UsersTame t.users ∧
      SameOthers s.users t.users id := by
  obtain ⟨quality, hconvert, hquality⟩ := convert_spec q
  unfold userImageQuality
  rw [hconvert, Option.map_some]
  refine ⟨_, rfl, ?_⟩
  cases hget : s.users.get? id with
  | none => exact ⟨hs, .refl _ _⟩
  | some u =>
    have hu := hs id u hget
    refine ⟨hs.set id ⟨hu.custom, hu.auto, fun time q hq => ?_⟩, sameOthers_set _ _ _⟩
    cases hq
    exact hquality

/-- A delay of the network. -/
theorem userNetworkDelay_spec (hs : UsersTame s.users) (id : ℤ) (delay : ℕ) :
    ∃ t, s.userNetworkDelay linux m id delay = some t ∧ UsersTame t.users ∧
      SameOthers s.users t.users id ∧ t.Respected := by
  obtain ⟨highest, hhighest, hmin, -⟩ := highestFps_spec hs
  have hclamped (v : ℕ) : ∃ w, clamp v minFps highest = some w :=
    (clamp_eq_some hmin).imp fun _ hw => hw.1
  choose chosen hchosen using hclamped
  unfold userNetworkDelay
  simp only [hhighest, Option.bind_eq_bind, Option.bind_some, hchosen]
  cases hget : s.users.get? id with
  | none =>
    obtain ⟨fps, hadjust, hrespected⟩ := adjustFps_spec (m := m) hs
    exact ⟨_, hadjust, hs, .refl _ _, hrespected⟩
  | some u =>
    simp only
    set users := s.users.set id _ with husers
    have htame : UsersTame users := hs.set id ((hs id u hget).withDelay _)
    have hothers : SameOthers s.users users id := sameOthers_set _ _ _
    obtain ⟨fps, hadjust, hrespected⟩ :=
      adjustFps_spec (s := { s with users := users }) (m := m) htame
    rw [hadjust, Option.bind_some]
    split_ifs
    · obtain ⟨ratio, instant, hratio, -⟩ :=
        adjustRatio_spec (s := { s with users := users, fps := fps }) (m := m) htame false
      exact ⟨_, hratio, htame, hothers, hrespected.of_same rfl rfl⟩
    · exact ⟨_, rfl, htame, hothers, hrespected⟩

/-- A response that takes long. -/
theorem userDelayResponseElapsed_spec (hs : UsersTame s.users) (id : ℤ) (elapsed : ℕ) :
    ∃ t, s.userDelayResponseElapsed m id elapsed = some t ∧ UsersTame t.users ∧
      SameOthers s.users t.users id ∧
      ((s.users.get? id).isSome → 2000 < elapsed → t.Respected) := by
  unfold userDelayResponseElapsed
  cases hget : s.users.get? id with
  | none => exact ⟨s, rfl, hs, .refl _ _, fun h => by cases h⟩
  | some u =>
    simp only
    split_ifs with hlong
    · have htame : UsersTame (s.users.set id _) :=
        hs.set id ((hs id u hget).withDelay
          ({ u.delay with responseDelayed := true }.addDelay (elapsed % 2 ^ 32)))
      obtain ⟨fps, hadjust, hrespected⟩ :=
        adjustFps_spec (s := { s with users := s.users.set id _ }) (m := m) htame
      exact ⟨_, hadjust, htame, sameOthers_set _ _ _, fun _ _ => hrespected⟩
    · exact ⟨_, rfl, hs.set id ((hs id u hget).withDelay _), sameOthers_set _ _ _,
        fun _ h => absurd h hlong⟩

/-- The records of the users and the last opening decide what frame rate is wanted. -/
theorem wantedFps_congr {s' : VideoQoS} (husers : ∀ id, s'.users.get? id = s.users.get? id)
    (hinstant : s'.newUserInstant = s.newUserInstant) : s'.wantedFps m = s.wantedFps m := by
  have hvalues (u : UserData) : u ∈ s'.users.values ↔ u ∈ s.users.values := by
    rw [OrderedMap.mem_values_iff, OrderedMap.mem_values_iff]
    simp only [husers]
  have hleast : (s'.users.values.map fun u => u.delay.fps.getD initFps).min? =
      (s.users.values.map fun u => u.delay.fps.getD initFps).min? :=
    min?_congr fun a => by simp only [List.mem_map, hvalues]
  have hdelayed : s'.users.values.any (·.delay.responseDelayed) =
      s.users.values.any (·.delay.responseDelayed) := by
    rw [Bool.eq_iff_iff, List.any_eq_true, List.any_eq_true]
    simp only [hvalues]
  unfold wantedFps
  rw [hleast, hdelayed, hinstant]

/-- The highest rate depends on the users only. -/
theorem highestFps_congr {s' : VideoQoS} (husers : ∀ id, s'.users.get? id = s.users.get? id) :
    s'.highestFps = s.highestFps := by
  have hcaps : ((s'.users.values.map (·.userFps)).filter (minFps ≤ ·)).min? =
      ((s.users.values.map (·.userFps)).filter (minFps ≤ ·)).min? := by
    refine min?_congr fun a => ?_
    simp only [List.mem_filter, List.mem_map, OrderedMap.mem_values_iff, husers]
  unfold highestFps
  rw [hcaps]

/-- Users with the same records get the same frame rate. -/
theorem adjustFps_congr {s' t' : VideoQoS} (husers : ∀ id, s'.users.get? id = s.users.get? id)
    (hinstant : s'.newUserInstant = s.newUserInstant) (h : s.adjustFps m = some t)
    (h' : s'.adjustFps m = some t') : t'.fps = t.fps := by
  unfold adjustFps at h h'
  rw [highestFps_congr husers, wantedFps_congr husers hinstant] at h'
  simp only [Option.bind_eq_bind, Option.bind_eq_some_iff, Option.pure_def, Option.some.injEq]
    at h h'
  obtain ⟨highest, hhighest, fps, hfps, rfl⟩ := h
  obtain ⟨highest', hhighest', fps', hfps', rfl⟩ := h'
  obtain rfl : highest = highest' := Option.some.inj (hhighest.symm.trans hhighest')
  exact Option.some.inj (hfps'.symm.trans hfps)

/-- The bits follow the network where the configuration and all displays allow it. -/
theorem inVbrState_iff : s.inVbrState = true ↔
    s.abrConfig = true ∧ ∀ i d, s.displays.get? i = some d → d.supportChangingQuality = true := by
  unfold inVbrState
  rw [Bool.and_eq_true, List.all_eq_true]
  simp only [OrderedMap.mem_values_iff]
  exact and_congr_right fun _ => ⟨fun h i d hd => h d ⟨i, hd⟩, fun h d ⟨i, hd⟩ => h i d hd⟩

/-- Counting sent frames does not change whether the bitrate may vary. -/
theorem inVbrState_updateDisplay {i : ℕ} {f : DisplayData → DisplayData}
    (hf : ∀ d, (f d).supportChangingQuality = d.supportChangingQuality) :
    (s.updateDisplay i f).inVbrState = s.inVbrState := by
  rw [Bool.eq_iff_iff, inVbrState_iff, inVbrState_iff]
  unfold updateDisplay
  cases hget : s.displays.get? i with
  | none => rfl
  | some d =>
    refine and_congr_right fun _ => ⟨fun h i' d' hget' => ?_, fun h i' d' hget' => ?_⟩
    · by_cases hi : i' = i
      · subst hi
        obtain rfl : d = d' := Option.some.inj (hget.symm.trans hget')
        rw [← hf d]
        exact h i' (f d) (by simp)
      · exact h i' d' (by simp [hi, hget'])
    · simp only [OrderedMap.get?_set] at hget'
      split_ifs at hget' with hi
      · cases hget'
        rw [hf d]
        exact h i d hget
      · exact h i' d' hget'

/-- What an update of the display data does to the ratio: without an adaptive bitrate it is that of
the latest quality; with it the ratio stays until an adjustment is due, and is then brought
within the bounds of the latest quality. -/
structure RatioFollows (s : VideoQoS) (m : Moment) (t : VideoQoS) : Prop where
  fixed : s.inVbrState = false → ∃ q, s.IsLatest q ∧ t.ratio = q.ratio
  early : s.inVbrState = true → (m.now - s.adjustRatioInstant) / 1000 < adjustRatioInterval →
    t.ratio = s.ratio
  due : s.inVbrState = true → adjustRatioInterval ≤ (m.now - s.adjustRatioInstant) / 1000 →
    s.users.entries ≠ [] →
      t.adjustRatioInstant = m.now ∧
        ∃ q, s.IsLatest q ∧ brMinHighResolution ≤ t.ratio ∧ t.ratio ≤ q.ratio

/-- A change of a display leaves the users. -/
theorem users_updateDisplay (i : ℕ) (f : DisplayData → DisplayData) :
    (s.updateDisplay i f).users = s.users := by
  unfold updateDisplay
  split <;> rfl

/-- A change of a display leaves the rate and the ratio. -/
theorem updateDisplay_same (i : ℕ) (f : DisplayData → DisplayData) :
    (s.updateDisplay i f).fps = s.fps ∧ (s.updateDisplay i f).ratio = s.ratio ∧
      (s.updateDisplay i f).newUserInstant = s.newUserInstant ∧
      (s.updateDisplay i f).adjustRatioInstant = s.adjustRatioInstant := by
  unfold updateDisplay
  split <;> exact ⟨rfl, rfl, rfl, rfl⟩

/-- An update of the display data chooses the frame rate anew and lets the ratio follow. -/
theorem updateDisplayData_spec (hs : UsersTame s.users) (i n : ℕ) :
    ∃ t, s.updateDisplayData m i n = some t ∧ t.users = s.users ∧ t.Respected ∧
      (∃ u, s.adjustFps m = some u ∧ t.fps = u.fps) ∧ RatioFollows s m t := by
  unfold updateDisplayData
  set counted := s.updateDisplay i fun display =>
    { display with sendCounter := (display.sendCounter + n) % 2 ^ 64 } with hcounted
  have husers : counted.users = s.users := users_updateDisplay ..
  obtain ⟨-, hratio, hnew, hinstant⟩ : _ ∧ counted.ratio = s.ratio ∧ _ ∧ _ :=
    updateDisplay_same ..
  have hvbr : counted.inVbrState = s.inVbrState := inVbrState_updateDisplay fun _ => rfl
  have htame : UsersTame counted.users := husers ▸ hs
  obtain ⟨fps, hadjust, hrespected⟩ := adjustFps_spec (s := counted) (m := m) htame
  obtain ⟨fps', hadjust', -⟩ := adjustFps_spec (s := s) (m := m) hs
  have hfps : ∃ u, s.adjustFps m = some u ∧ fps = u.fps :=
    ⟨_, hadjust', adjustFps_congr (fun id => by rw [husers]) hnew hadjust' hadjust⟩
  have hlatest {q : Quality} (hq : counted.IsLatest q) : s.IsLatest q := by
    unfold IsLatest at hq
    rwa [husers] at hq
  simp only [hadjust, Option.bind_eq_bind, Option.bind_some]
  by_cases hstate : s.inVbrState = true
  · have hstate' : VideoQoS.inVbrState { counted with fps } = true := hvbr.trans hstate
    rw [if_pos hstate']
    by_cases hdue : adjustRatioInterval ≤ (m.now - counted.adjustRatioInstant) / 1000
    · rw [if_pos hdue]
      obtain ⟨ratio, instant, hadjusted, hbounds⟩ := adjustRatio_spec (m := m)
        (s := { counted with fps, displays := counted.displays.mapValues fun display =>
          { display with sendCounter := 0 } }) htame
        (counted.displays.values.any fun display =>
          adjustRatioInterval * dynamicScreenThreshold ≤ display.sendCounter)
      refine ⟨_, hadjusted, husers, hrespected.of_same rfl rfl, hfps, ?_⟩
      refine ⟨fun h => by simp [hstate] at h, fun _ h => ?_, fun _ _ hne => ?_⟩
      · rw [hinstant] at hdue
        exact absurd h (Nat.not_lt.mpr hdue)
      · have hcleared : ({ counted with fps, displays := counted.displays.mapValues fun display =>
            { display with sendCounter := 0 } } : VideoQoS).inVbrState = true := by
          simpa [inVbrState, Function.comp_def] using hstate'
        obtain ⟨hnow, q, hq, hlow, hhigh⟩ := hbounds hcleared (by rwa [husers])
        exact ⟨hnow, q, hlatest hq, hlow, hhigh⟩
    · rw [if_neg hdue]
      refine ⟨_, rfl, husers, hrespected, hfps, fun h => by simp [hstate] at h,
        fun _ _ => hratio, ?_⟩
      intro _ h
      rw [hinstant] at hdue
      exact absurd h hdue
  · have hstate' : ¬ VideoQoS.inVbrState { counted with fps } = true :=
      fun h => hstate (hvbr.symm.trans h)
    rw [if_neg hstate']
    refine ⟨_, rfl, husers, hrespected.of_same rfl rfl, hfps, fun _ => ?_,
      fun h => absurd h hstate, fun h => absurd h hstate⟩
    exact ⟨_, hlatest isLatest_latestQuality, rfl⟩

end VideoQoS

namespace QosCall

/-- The call chooses a frame rate. -/
def AdjustsFps (s : VideoQoS) : QosCall → Prop
  | .userNetworkDelay .. => True
  | .userDelayResponseElapsed id elapsed => (s.users.get? id).isSome ∧ 2000 < elapsed
  | .updateDisplayData .. => True
  | _ => False

/-- The user a call is about. -/
def user : QosCall → Option ℤ
  | .onConnectionOpen id _ => some id
  | .onConnectionClose id => some id
  | .userCustomFps id _ => some id
  | .userAutoAdjustFps id _ => some id
  | .userImageQuality id _ => some id
  | .userNetworkDelay id _ => some id
  | .userDelayResponseElapsed id _ => some id
  | _ => none

end QosCall

namespace VideoQoS

variable {linux : Bool} {s t : VideoQoS} {m : Moment}

/-- No call panics, one that chooses a frame rate respects all users, and a call changes no record
but that of the user it is about. -/
theorem step_spec (hs : UsersTame s.users) (e : QosCall) :
    ∃ t, step linux s (m, e) = some t ∧ UsersTame t.users ∧ (e.AdjustsFps s → t.Respected) ∧
      ∀ other, e.user ≠ some other → t.users.get? other = s.users.get? other := by
  have hkept {users : OrderedMap ℤ UserData} {id : ℤ} (h : SameOthers s.users users id)
      (other : ℤ) (hne : some id ≠ some other) : users.get? other = s.users.get? other :=
    h other fun heq => hne (congrArg some heq.symm)
  cases e with
  | onConnectionOpen id enableAbr =>
    exact ⟨_, rfl, hs.set id .empty, False.elim, hkept (sameOthers_set s.users id {})⟩
  | onConnectionClose id =>
    obtain ⟨htame, hothers, -⟩ := onConnectionClose_spec (m := m) hs id
    exact ⟨_, rfl, htame, False.elim, hkept hothers⟩
  | userCustomFps id fps =>
    obtain ⟨htame, hothers⟩ := userCustomFps_spec hs id fps
    exact ⟨_, rfl, htame, False.elim, hkept hothers⟩
  | userAutoAdjustFps id fps =>
    obtain ⟨htame, hothers⟩ := userAutoAdjustFps_spec hs id fps
    exact ⟨_, rfl, htame, False.elim, hkept hothers⟩
  | userImageQuality id q =>
    obtain ⟨t, hstep, htame, hothers⟩ := userImageQuality_spec (m := m) hs id q
    exact ⟨t, hstep, htame, False.elim, hkept hothers⟩
  | userNetworkDelay id delay =>
    obtain ⟨t, hstep, htame, hothers, hrespected⟩ :
        ∃ t, s.userNetworkDelay linux m id delay = some t ∧ _ :=
      userNetworkDelay_spec hs id delay
    exact ⟨t, hstep, htame, fun _ => hrespected, hkept hothers⟩
  | userDelayResponseElapsed id elapsed =>
    obtain ⟨t, hstep, htame, hothers, hrespected⟩ :=
      userDelayResponseElapsed_spec (m := m) hs id elapsed
    exact ⟨t, hstep, htame, fun h => hrespected h.1 h.2, hkept hothers⟩
  | newDisplay i => exact ⟨_, rfl, hs, False.elim, fun _ _ => rfl⟩
  | removeDisplay i => exact ⟨_, rfl, hs, False.elim, fun _ _ => rfl⟩
  | setSupportChangingQuality i support =>
    have husers : (s.setSupportChangingQuality i support).users = s.users :=
      users_updateDisplay ..
    exact ⟨_, rfl, husers ▸ hs, False.elim, fun _ _ => by rw [husers]⟩
  | storeBitrate bitrate => exact ⟨_, rfl, hs, False.elim, fun _ _ => rfl⟩
  | updateDisplayData i n =>
    obtain ⟨t, hstep, husers, hrespected, -⟩ := updateDisplayData_spec (m := m) hs i n
    exact ⟨t, hstep, husers ▸ hs, fun _ => hrespected, fun _ _ => by rw [husers]⟩

/-- Every list of calls is a run, and the values of the users stay in range. -/
theorem exists_run (linux : Bool) (start : ℕ) (calls : List (Moment × QosCall)) :
    ∃ s, (machine linux start).Run (machine linux start).init calls s ∧ UsersTame s.users := by
  induction calls using List.reverseRecOn with
  | nil => exact ⟨_, .nil _, .empty⟩
  | append_singleton calls e ih =>
    obtain ⟨s, hrun, htame⟩ := ih
    obtain ⟨m, call⟩ := e
    obtain ⟨t, hstep, htame', -⟩ : ∃ t, step linux s (m, call) = some t ∧ _ :=
      step_spec htame call
    exact ⟨t, hrun.snoc trivial hstep, htame'⟩

/-- The effect of a user that is closed: its record is gone, and with the last record everything is
reset; the next update of the display data takes the frame rate from the records that are left and
the time of the last opening, and lets the ratio follow their latest quality. -/
structure Forgets (s : VideoQoS) : Prop where
  gone : ∀ m id, (s.onConnectionClose m id).users.get? id = none
  reset : ∀ m id, (∀ other, (s.onConnectionClose m id).users.get? other = none) →
    s.onConnectionClose m id = default m.now
  fps_follows : ∀ m i n t, s.updateDisplayData m i n = some t →
    ∀ (s' : VideoQoS) i' n' (t' : VideoQoS), (∀ id, s'.users.get? id = s.users.get? id) →
      s'.newUserInstant = s.newUserInstant → s'.updateDisplayData m i' n' = some t' →
        t'.fps = t.fps
  ratio_follows : ∀ m i n t, s.updateDisplayData m i n = some t → RatioFollows s m t

/-- When the last user leaves all is forgotten. -/
theorem forgets (hs : UsersTame s.users) : s.Forgets where
  gone m id := (onConnectionClose_spec hs id).2.2
  reset m id hnone := by
    have hnil (users : OrderedMap ℤ UserData) (h : ∀ other, users.get? other = none) :
        users.entries = [] := by
      refine List.eq_nil_iff_forall_not_mem.mpr fun e he => ?_
      have hget := OrderedMap.get?_of_mem_entries (k := e.1) (v := e.2) he
      simp [h] at hget
    unfold onConnectionClose at hnone ⊢
    by_cases hlast : (s.users.delete id).entries = []
    · rw [if_pos hlast]
    · simp only [if_neg hlast] at hnone
      exact absurd (hnil _ hnone) hlast
  fps_follows m i n t ht s' i' n' t' husers hinstant ht' := by
    have hs' : UsersTame s'.users := fun id u hget => hs id u (husers id ▸ hget)
    obtain ⟨_, hstep, -, -, ⟨u, hadjust, hfps⟩, -⟩ := updateDisplayData_spec (m := m) hs i n
    obtain ⟨_, hstep', -, -, ⟨u', hadjust', hfps'⟩, -⟩ :=
      updateDisplayData_spec (m := m) hs' i' n'
    obtain rfl := Option.some.inj (ht.symm.trans hstep)
    obtain rfl := Option.some.inj (ht'.symm.trans hstep')
    rw [hfps, hfps']
    exact adjustFps_congr husers hinstant hadjust hadjust'
  ratio_follows m i n t ht := by
    obtain ⟨_, hstep, -, -, -, hratio⟩ := updateDisplayData_spec (m := m) hs i n
    obtain rfl := Option.some.inj (ht.symm.trans hstep)
    exact hratio

/-- **The quality controller respects every viewer.** Any calls are a run. From the state it ends in
no call panics at a clamp, one that chooses a frame rate chooses it within the caps of all
users, and none changes the record of a user it is not about; and a user that is closed is
forgotten. -/
theorem respects_viewers (linux : Bool) (start : ℕ) (calls : List (Moment × QosCall)) :
    ∃ s, (machine linux start).Run (machine linux start).init calls s ∧
      (∀ m (e : QosCall), ∃ t, step linux s (m, e) = some t ∧
        (e.AdjustsFps s → t.Respected) ∧
        ∀ other, e.user ≠ some other → t.users.get? other = s.users.get? other) ∧
      s.Forgets := by
  obtain ⟨s, hrun, htame⟩ := exists_run linux start calls
  refine ⟨s, hrun, fun m e => ?_, forgets htame⟩
  obtain ⟨t, hstep, -, hrespected, hkept⟩ : ∃ t, step linux s (m, e) = some t ∧ _ :=
    step_spec htame e
  exact ⟨t, hstep, hrespected, hkept⟩

/-- At the update after its closing, a user has no effect on what is observed: it is as if the user
had never been there. -/
def EffectEnds {α : Type} (observe : VideoQoS → α) : Prop :=
  ∀ linux start calls m id i n s t,
    (machine linux start).Run (machine linux start).init
      (calls ++ [(m, .onConnectionClose id), (m, .updateDisplayData i n)]) s →
    (machine linux start).Run (machine linux start).init
      (calls.filter (fun c => c.2.user ≠ some id) ++ [(m, .updateDisplayData i n)]) t →
    observe s = observe t

/-- A moment at which the map is iterated in the order of insertion. -/
def inserted (now : ℕ) : Moment := ⟨now, now, id, List.Perm.refl⟩

/-- A user that leaves chose the best quality while the bitrate may vary. -/
def bestThenClosed : List (Moment × QosCall) :=
  [(inserted 0, .onConnectionOpen 1 true), (inserted 0, .onConnectionOpen 2 true),
    (inserted 0, .newDisplay 0), (inserted 0, .setSupportChangingQuality 0 true),
    (inserted 10, .userImageQuality 1 4)]

/-- A user that leaves had a cap of five frames when the delay of another one came in. -/
def slowThenClosed : List (Moment × QosCall) :=
  [(inserted 0, .onConnectionOpen 1 true), (inserted 0, .onConnectionOpen 2 true),
    (inserted 10, .userCustomFps 1 5), (inserted 20, .userNetworkDelay 2 20)]

/-- The controller after calls. -/
def after (calls : List (Moment × QosCall)) : VideoQoS :=
  ((machine false 0).replay (machine false 0).init calls).getD (machine false 0).init

/-- What can be replayed is a run. -/
theorem run_after {calls : List (Moment × QosCall)}
    (h : ((machine false 0).replay (machine false 0).init calls).isSome = true) :
    (machine false 0).Run (machine false 0).init calls (after calls) := by
  obtain ⟨s, hs⟩ := Option.isSome_iff_exists.mp h
  refine Machine.run_of_replay ?_
  rw [after, hs, Option.getD_some]

/-- The effect of a user does not end with the user. -/
theorem not_effectEnds : ¬ EffectEnds ratio ∧ ¬ EffectEnds fps := by
  constructor
  · intro hends
    have hratio := hends false 0 bestThenClosed (inserted 2000) 1 0 1 _ _
      (run_after (by decide +kernel)) (run_after (by decide +kernel))
    revert hratio
    decide +kernel
  · intro hends
    have hfps := hends false 0 slowThenClosed (inserted 2000) 1 0 1 _ _
      (run_after (by decide +kernel)) (run_after (by decide +kernel))
    revert hfps
    decide +kernel

end VideoQoS

end RdWeb.Host
