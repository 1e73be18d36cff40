import Mathlib.Data.Bool.AllAny
import RdWeb.Client.CustomServer

/-!
# When a file name is read

The offset found in the lower-cased name cuts the name itself, so the letters before the settings
decide whether the cut falls inside a character, among those letters or into the settings.
-/

namespace RdWeb.Client

open String (utf8Len)

/-- A slice of the text may start at this byte. -/
def IsCharBoundary (n : ℕ) (s : List Char) : Prop := ∃ u t, s = u ++ t ∧ utf8Len u = n

/-- Where the name has settings, the lower-cased part before them is as long as a part of the
name. -/
def SafeName (L : LowerCase) (s : List Char) : Prop :=
  ∀ q r, stripExe L s = some (q ++ r) → "host=".toList <+: r.map Char.toLower →
    ¬ "host=".toList <:+: q.map Char.toLower →
      IsCharBoundary (utf8Len (L.toLowercase q)) (q ++ r)

/-- The cut falls among the letters before the settings and leaves no text in front of a host,
or into the settings where every part it hits is of an empty value. -/
def CutsWell (L : LowerCase) (start : List Char) (keyword : Setting → List Char)
    (server : CustomServer) : Prop :=
  (∃ p₁ p₂, start = p₁ ++ p₂ ∧ utf8Len p₁ = utf8Len (L.toLowercase start) ∧
    (p₂ = [] ∨ p₂.getLast? = some ',' ∨ server.host = [])) ∨
  ∃ t₁ t₂, render keyword server settings = t₁ ++ t₂ ∧
    utf8Len start + utf8Len t₁ = utf8Len (L.toLowercase start) ∧
    ∀ before f after, settings = before ++ f :: after →
      utf8Len (render keyword server before) < utf8Len t₁ → server.get f = []

variable (L : LowerCase) (licences : LicenceDecoding)

/-! ### The extension -/

/-- The length of an ASCII text in bytes is its length. -/
theorem utf8Len_ascii {s : List Char} (h : ∀ c ∈ s, c.toNat < 128) : utf8Len s = s.length := by
  induction s with
  | nil => rfl
  | cons c s ih =>
    have hsize : c.utf8Size = 1 := by
      have hc := h c List.mem_cons_self
      unfold Char.utf8Size
      rw [if_pos]
      exact UInt32.le_iff_toNat_le.mpr (Nat.le_of_lt_succ hc)
    rw [String.utf8Len_cons, hsize, ih fun d hd => h d (List.mem_cons_of_mem _ hd),
      List.length_cons]

/-- Dropping the bytes of an ending leaves what comes before it. -/
theorem dropLastBytes_append (s x : List Char) :
    dropLastBytes (utf8Len x) (s ++ x) = some s := by
  unfold dropLastBytes
  rw [String.utf8Len_append, if_pos (Nat.le_add_left _ _), Nat.add_sub_cancel,
    LowerCase.splitAtByte_append]
  rfl

/-- A plain end of the lower-cased name is as long an end of the name. -/
theorem dropLastBytes_suffix {pat s : List Char} (hpat : ∀ d ∈ pat, LowerCase.Plain d)
    (h : pat <:+ L.toLowercase s) :
    ∃ q r, s = q ++ r ∧ r.map Char.toLower = pat ∧ dropLastBytes pat.length s = some q := by
  obtain ⟨first, hfirst⟩ := (L.suffix_lowerFrom hpat).mp h
  obtain ⟨q, r, rfl, -, hr⟩ := List.map_eq_append_iff.mp hfirst.symm
  have hlength : utf8Len r = pat.length := by
    rw [utf8Len_ascii (LowerCase.ascii_of_plain_map (hr ▸ hpat)), ← hr, List.length_map]
  exact ⟨q, r, rfl, hr, hlength ▸ dropLastBytes_append q r⟩

/-- The file extension is plain. -/
theorem plain_exe : ∀ d ∈ ".exe".toList, LowerCase.Plain d :=
  List.all_iff_forall_prop.mp (by decide)

/-- So is the doubled one. -/
theorem plain_exe_exe : ∀ d ∈ ".exe.exe".toList, LowerCase.Plain d :=
  List.all_iff_forall_prop.mp (by decide)

/-- So is the word that starts the settings. -/
theorem plain_host : ∀ d ∈ "host=".toList, LowerCase.Plain d :=
  List.all_iff_forall_prop.mp (by decide)

/-- That word does not overlap itself. -/
theorem unbordered_host : LowerCase.Unbordered "host=".toList := by decide

/-- Taking the extension away never panics. -/
theorem exists_stripExe (s : List Char) : ∃ t, stripExe L s = some t := by
  unfold stripExe
  split_ifs with hdouble hsingle
  · obtain ⟨q, r, -, -, hq⟩ := dropLastBytes_suffix L plain_exe_exe hdouble
    exact ⟨q, hq⟩
  · obtain ⟨q, r, -, -, hq⟩ := dropLastBytes_suffix L plain_exe hsingle
    exact ⟨q, hq⟩
  · exact ⟨s, rfl⟩

/-- The extension behind a comma is taken away. -/
theorem stripExe_append {s exe : List Char} (hexe : exe.map Char.toLower = ".exe".toList) :
    stripExe L (s ++ ',' :: exe) = some (s ++ [',']) := by
  have hmap : (s ++ ',' :: exe).map Char.toLower = s.map Char.toLower ++ ",.exe".toList := by
    rw [List.map_append, List.map_cons, hexe]
    rfl
  have hdouble : ¬ ".exe.exe".toList <:+ L.toLowercase (s ++ ',' :: exe) := by
    rw [LowerCase.toLowercase, L.suffix_lowerFrom plain_exe_exe, hmap]
    intro h
    have hend : "e.exe".toList <:+ ".exe.exe".toList := by decide
    have hcomma := List.suffix_of_suffix_length_le (hend.trans h)
      (List.suffix_append _ ",.exe".toList) (by decide)
    revert hcomma
    decide
  have hsingle : ".exe".toList <:+ L.toLowercase (s ++ ',' :: exe) := by
    rw [LowerCase.toLowercase, L.suffix_lowerFrom plain_exe, hmap]
    exact (List.suffix_cons ',' _).trans (List.suffix_append _ _)
  have hlength : utf8Len exe = 4 := by
    have hplain := LowerCase.ascii_of_plain_map (hexe ▸ plain_exe)
    rw [utf8Len_ascii hplain, ← List.length_map (f := Char.toLower), hexe]
    rfl
  unfold stripExe
  rw [if_neg hdouble, if_pos hsingle, ← hlength, ← dropLastBytes_append (s ++ [',']) exe,
    List.append_assoc]
  rfl

/-! ### The slice -/

variable {L licences}

/-- Without the word `host=` the name is read as a licence. -/
theorem getCustomServerFromString_of_none {s t : List Char} (hstrip : stripExe L s = some t)
    (hfind : LowerCase.find "host=".toList (L.toLowercase t) = none) :
    getCustomServerFromString L licences s =
      some ((findLicence licences t).elim (.error "Failed to parse") .ok) := by
  simp only [getCustomServerFromString, hstrip, hfind, Option.bind_eq_bind, Option.bind_some]

/-- With it the rest of the name is read as settings. -/
theorem getCustomServerFromString_of_some {s t : List Char} {n : ℕ}
    (hstrip : stripExe L s = some t)
    (hfind : LowerCase.find "host=".toList (L.toLowercase t) = some n) :
    getCustomServerFromString L licences s =
      (LowerCase.splitAtByte n t).map fun x => .ok (readSettings L x.2) := by
  simp only [getCustomServerFromString, hstrip, hfind, Option.bind_eq_bind, Option.bind_some]
  cases LowerCase.splitAtByte n t <;> rfl

/-- Where the settings start is found from the letters before them. -/
theorem find_host {q r : List Char} (hstart : "host=".toList <+: r.map Char.toLower)
    (hnone : ¬ "host=".toList <:+: q.map Char.toLower) :
    LowerCase.find "host=".toList (L.toLowercase (q ++ r)) = some (utf8Len (L.toLowercase q)) :=
  L.find_firstAt plain_host ((LowerCase.firstAt_iff (by decide) unbordered_host).mpr
    ⟨hstart, hnone⟩)

/-- The name is read, without a panic, exactly where the slice starts between characters. -/
theorem isSome_iff (s : List Char) :
    (getCustomServerFromString L licences s).isSome ↔ SafeName L s := by
  obtain ⟨t, hstrip⟩ := exists_stripExe L s
  cases hfind : LowerCase.find "host=".toList (L.toLowercase t) with
  | none =>
    rw [getCustomServerFromString_of_none hstrip hfind]
    refine iff_of_true rfl fun q r hqr hstart hnone => ?_
    obtain rfl := Option.some.inj (hstrip.symm.trans hqr)
    rw [find_host hstart hnone] at hfind
    cases hfind
  | some n =>
    rw [getCustomServerFromString_of_some hstrip hfind, Option.isSome_map]
    constructor
    · intro h q r hqr hstart hnone
      obtain rfl := Option.some.inj (hstrip.symm.trans hqr)
      obtain ⟨x, hx⟩ := Option.isSome_iff_exists.mp h
      rw [find_host hstart hnone] at hfind
      rw [← Option.some.inj hfind] at hx
      exact ⟨x.1, x.2, LowerCase.splitAtByte_eq_some_iff.mp hx⟩
    · intro hsafe
      obtain ⟨q, r, rfl, hfirst⟩ := L.exists_firstAt plain_host hfind
      obtain ⟨hstart, hnone⟩ := (LowerCase.firstAt_iff (by decide) unbordered_host).mp hfirst
      obtain ⟨u, t, hut, hlength⟩ := hsafe q r hstrip hstart hnone
      have hn := Option.some.inj ((find_host hstart hnone).symm.trans hfind)
      rw [← hn, LowerCase.splitAtByte_eq_some_iff.mpr ⟨hut, hlength⟩]
      rfl

/-! ### The parts -/

variable {keyword : Setting → List Char} {server server' : CustomServer} {el : List Char}
  {x y : Setting}

/-- A server is known by its four settings. -/
@[ext] theorem CustomServer.ext_get (h : ∀ x, server.get x = server'.get x) : server = server' := by
  cases server
  cases server'
  exact CustomServer.mk.injEq .. ▸ ⟨h .key, h .host, h .api, h .relay⟩

/-- A part sets the setting whose keyword it starts with, and no other. -/
theorem get_setFrom :
    (setFrom L el y server).get x =
      if y = x ∧ y.keyword <+: L.toLowercase el then el.drop x.keyword.length
      else server.get x := by
  unfold setFrom
  by_cases hstarts : y.keyword <+: L.toLowercase el
  · rw [if_pos hstarts]
    cases x <;> cases y <;> simp_all [CustomServer.get, CustomServer.set]
  · rw [if_neg hstarts, if_neg fun h => hstarts h.2]

/-- A part sets what it starts with the keyword of, and nothing else. -/
theorem get_readPart :
    (readPart L server el).get x =
      if x.keyword <+: L.toLowercase el then el.drop x.keyword.length else server.get x := by
  unfold readPart
  simp only [get_setFrom]
  cases x <;> simp

/-- Parts that start with other keywords do not touch a setting. -/
theorem get_foldl_of_none {parts : List (List Char)}
    (h : ∀ el ∈ parts, ¬ x.keyword <+: L.toLowercase el) :
    (parts.foldl (readPart L) server).get x = server.get x := by
  induction parts generalizing server with
  | nil => rfl
  | cons el parts ih =>
    rw [List.foldl_cons, ih fun e he => h e (List.mem_cons_of_mem _ he), get_readPart,
      if_neg (h el List.mem_cons_self)]

/-- A part of a split text occurs in that text. -/
theorem infix_of_mem_splitOn {s : List Char} {c : Char} (h : el ∈ s.splitOn c) : el <:+: s := by
  have hjoin (parts : List (List Char)) (hel : el ∈ parts) : el <:+: [c].intercalate parts := by
    induction parts with
    | nil => exact absurd hel List.not_mem_nil
    | cons first parts ih =>
      cases parts with
      | nil =>
        rw [List.mem_singleton.mp hel, List.intercalate_singleton]
      | cons second parts =>
        rw [List.intercalate_cons_cons]
        rcases List.mem_cons.mp hel with rfl | hel
        · exact (List.prefix_append _ _).isInfix.trans (List.prefix_append _ _).isInfix
        · exact (ih hel).trans (List.suffix_append _ _).isInfix
  have hsplit := hjoin _ h
  rwa [List.intercalate_splitOn] at hsplit

/-- Text without the keyword sets no host. -/
theorem get_host_of_not_infix {front : List Char}
    (hfront : ¬ "host=".toList <:+: front.map Char.toLower) :
    (readSettings L front).get .host = [] := by
  refine get_foldl_of_none fun el hel hstarts => hfront ?_
  have hmap := (L.prefix_lowerFrom plain_host).mp hstarts
  exact hmap.isInfix.trans ((infix_of_mem_splitOn hel).map _)

/-- A text is taken apart behind its last comma. -/
theorem exists_last_comma (s : List Char) :
    ∃ front a, s = front ++ a ∧ ',' ∉ a ∧ (front = [] ∨ ∃ f, front = f ++ [',']) := by
  induction s with
  | nil => exact ⟨[], [], rfl, List.not_mem_nil, .inl rfl⟩
  | cons c s ih =>
    obtain ⟨front, a, rfl, ha, hfront⟩ := ih
    rcases hfront with rfl | ⟨f, rfl⟩
    · by_cases hc : c = ','
      · exact ⟨[','], a, by rw [hc]; rfl, ha, .inr ⟨[], rfl⟩⟩
      · exact ⟨[], c :: a, rfl, by simpa [ha] using Ne.symm hc, .inl rfl⟩
    · exact ⟨c :: f ++ [','], a, rfl, ha, .inr ⟨c :: f, rfl⟩⟩

/-! ### Settings as text -/

/-- Keywords are ASCII. -/
theorem keyword_ascii (x : Setting) : ∀ d ∈ x.keyword, d.toNat < 128 := by
  cases x <;> exact List.all_iff_forall_prop.mp (by decide)

/-- Keywords are not empty. -/
theorem keyword_ne_nil (x : Setting) : x.keyword ≠ [] := by
  cases x <;> decide

/-- The keywords differ in their first letters. -/
theorem eq_of_head (h : x.keyword.head? = y.keyword.head?) : x = y := by
  revert h
  cases x <;> cases y <;> decide

/-- No keyword starts within another one or itself. -/
theorem not_prefix_drop {n : ℕ} (hn : 0 < n) : ¬ x.keyword <+: y.keyword.drop n := by
  rcases Nat.lt_or_ge n 6 with hlt | hge
  · have hall : ∀ n < 6, 0 < n → ¬ x.keyword <+: y.keyword.drop n := by
      cases x <;> cases y <;> decide
    exact hall n hlt hn
  · have hlength : y.keyword.length ≤ 6 := by cases y <;> decide
    rw [List.drop_eq_nil_of_le (by omega), List.prefix_nil]
    exact keyword_ne_nil x

/-- The text of the settings, one at a time. -/
theorem render_cons (y : Setting) (written : List Setting) :
    render keyword server (y :: written) =
      part keyword server y ++ ',' :: render keyword server written := by
  simp [render]

/-- A cut of the settings falls between two parts or into one. -/
theorem render_cut {written : List Setting} {t₁ t₂ : List Char}
    (h : render keyword server written = t₁ ++ t₂) :
    (∃ a b, written = a ++ b ∧ t₁ = render keyword server a ∧ t₂ = render keyword server b) ∨
      ∃ a f b m rest, written = a ++ f :: b ∧ m ≠ [] ∧ m ++ rest = part keyword server f ∧
        t₁ = render keyword server a ++ m ∧ t₂ = rest ++ ',' :: render keyword server b := by
  induction written generalizing t₁ with
  | nil =>
    obtain ⟨rfl, rfl⟩ := List.append_eq_nil_iff.mp h.symm
    exact .inl ⟨[], [], rfl, rfl, rfl⟩
  | cons y written ih =>
    rcases List.eq_nil_or_concat t₁ with rfl | hne
    · exact .inl ⟨[], y :: written, rfl, rfl, h.symm⟩
    · have hne : t₁ ≠ [] := by
        obtain ⟨l, c, rfl⟩ := hne
        simp
      rw [render_cons] at h
      rcases List.append_eq_append_iff.mp h with ⟨s, rfl, hs⟩ | ⟨rest, hpart, rfl⟩
      · cases s with
        | nil =>
          rw [List.append_nil] at hne ⊢
          exact .inr ⟨[], y, written, part keyword server y, [], rfl, hne, List.append_nil _,
            rfl, hs.symm⟩
        | cons c s =>
          obtain ⟨rfl, hrest⟩ := List.cons.inj hs
          rcases ih hrest with ⟨a, b, rfl, rfl, rfl⟩ | ⟨a, f, b, m, rest, rfl, hm, hpart, rfl, rfl⟩
          · exact .inl ⟨y :: a, b, rfl, (render_cons y a).symm, rfl⟩
          · refine .inr ⟨y :: a, f, b, m, rest, rfl, hm, hpart, ?_, rfl⟩
            rw [render_cons, List.append_assoc, List.cons_append]
      · exact .inr ⟨[], y, written, t₁, rest, rfl, hne, hpart.symm, rfl, rfl⟩

/-- The text of the settings, part by part. -/
theorem render_append (a b : List Setting) :
    render keyword server (a ++ b) = render keyword server a ++ render keyword server b :=
  List.flatMap_append

/-- The parts that begin before a cut at or before the end of these parts, but after the
beginning of each, are these parts. -/
theorem begins_before_iff {a b : List Setting} {t : List Char} {P : Setting → Prop}
    (hle : utf8Len t ≤ utf8Len (render keyword server a))
    (hlt : ∀ a₁ f a₂, a = a₁ ++ f :: a₂ → utf8Len (render keyword server a₁) < utf8Len t) :
    (∀ before f after, a ++ b = before ++ f :: after →
      utf8Len (render keyword server before) < utf8Len t → P f) ↔ ∀ f ∈ a, P f := by
  constructor
  · intro hall f hf
    obtain ⟨a₁, a₂, rfl⟩ := List.append_of_mem hf
    exact hall a₁ f (a₂ ++ b) (by simp) (hlt a₁ f a₂ rfl)
  · intro hall before f after hsplit hbegins
    rcases List.append_eq_append_iff.mp hsplit with ⟨s, rfl, -⟩ | ⟨s, rfl, hs⟩
    · rw [render_append, String.utf8Len_append] at hbegins
      omega
    · cases s with
      | nil =>
        rw [List.append_nil] at hle
        omega
      | cons y s =>
        obtain ⟨rfl, -⟩ := List.cons.inj hs
        exact hall f (by simp)

/-- A setting stands in one of the two parts only. -/
theorem mem_left_iff {a b : List Setting} (h : settings = a ++ b) (x : Setting) :
    x ∈ a ↔ x ∉ b := by
  have hnodup : (a ++ b).Nodup := h ▸ by decide
  have hall : x ∈ a ++ b := h ▸ by cases x <;> decide
  constructor
  · exact fun ha hb => (List.nodup_append.mp hnodup).2.2 x ha x hb rfl
  · exact fun hb => (List.mem_append.mp hall).resolve_right hb

/-- The parts of a name have the keywords of their settings. -/
structure Written (keyword : Setting → List Char) (server : CustomServer) : Prop where
  lower : ∀ x, (keyword x).map Char.toLower = x.keyword
  free : ∀ x, ',' ∉ server.get x

section

variable (hw : Written keyword server)

include hw

namespace Written

/-- What is written for a keyword is ASCII. -/
theorem ascii (x : Setting) : ∀ c ∈ keyword x, c.toNat < 128 :=
  LowerCase.ascii_of_map (hw.lower x ▸ keyword_ascii x)

/-- What is written for a keyword has its length. -/
theorem length_keyword (x : Setting) : (keyword x).length = x.keyword.length := by
  rw [← hw.lower, List.length_map]

/-- No part contains the comma that ends it. -/
theorem not_mem_part (x : Setting) : ',' ∉ part keyword server x := by
  rw [part, List.mem_append, not_or]
  refine ⟨fun hmem => ?_, hw.free x⟩
  have hlower := List.mem_map_of_mem (f := Char.toLower) hmem
  rw [hw.lower] at hlower
  revert hlower
  cases x <;> decide

/-- In lower case a part starts with the keyword. -/
theorem lower_part (x : Setting) :
    ∃ l, L.toLowercase (part keyword server x) = x.keyword ++ l :=
  ⟨_, by rw [part, LowerCase.toLowercase, L.lowerFrom_append (hw.ascii x), hw.lower]⟩

/-- A part starts with the keyword of its setting alone. -/
theorem starts_part : x.keyword <+: L.toLowercase (part keyword server y) ↔ x = y := by
  obtain ⟨l, hl⟩ := hw.lower_part (L := L) y
  rw [hl]
  constructor
  · intro h
    obtain ⟨c, cs, hc⟩ := List.exists_cons_of_ne_nil (keyword_ne_nil x)
    obtain ⟨d, ds, hd⟩ := List.exists_cons_of_ne_nil (keyword_ne_nil y)
    rw [hc, hd, List.cons_append, List.cons_prefix_cons] at h
    refine eq_of_head ?_
    rw [hc, hd, List.head?_cons, List.head?_cons, h.1]
  · rintro rfl
    exact List.prefix_append _ _

/-- Behind its keyword a part holds the setting. -/
theorem drop_part (x : Setting) :
    (part keyword server x).drop x.keyword.length = server.get x := by
  rw [part, ← hw.length_keyword, List.drop_left]

/-- Parts as written set their settings, whatever was set before. -/
theorem get_foldl_written (written : List Setting) (first : CustomServer) :
    ((written.map (part keyword server) ++ [[]]).foldl (readPart L) first).get x =
      if x ∈ written then server.get x else first.get x := by
  induction written generalizing first with
  | nil =>
    have hnot : ¬ x.keyword <+: L.toLowercase [] := by
      rw [LowerCase.toLowercase, LowerCase.lowerFrom, List.prefix_nil]
      exact keyword_ne_nil x
    rw [if_neg List.not_mem_nil, List.map_nil, List.nil_append, List.foldl_cons, List.foldl_nil,
      get_readPart, if_neg hnot]
  | cons y written ih =>
    rw [List.map_cons, List.cons_append, List.foldl_cons, ih, get_readPart]
    by_cases hmem : x ∈ written
    · rw [if_pos hmem, if_pos (List.mem_cons_of_mem _ hmem)]
    · by_cases hxy : x = y
      · subst hxy
        rw [if_neg hmem, if_pos (hw.starts_part.mpr rfl), if_pos List.mem_cons_self, hw.drop_part]
      · rw [if_neg hmem, if_neg (mt hw.starts_part.mp hxy),
          if_neg fun h => (List.mem_cons.mp h).elim hxy hmem]

/-- The text splits into its parts. -/
theorem splitOn_render (written : List Setting) :
    (render keyword server written).splitOn ',' = written.map (part keyword server) ++ [[]] := by
  induction written with
  | nil => rfl
  | cons y written ih =>
    rw [render_cons, List.splitOn_append_cons_self_of_not_mem (hw.not_mem_part y), ih,
      List.map_cons, List.cons_append]

/-- Settings behind the rest of a part. -/
theorem get_readSettings_rest {rest : List Char} (hrest : ',' ∉ rest) (written : List Setting) :
    (readSettings L (rest ++ ',' :: render keyword server written)).get x =
      if x ∈ written then server.get x else (readPart L .default rest).get x := by
  rw [readSettings, List.splitOn_append_cons_self_of_not_mem hrest, hw.splitOn_render,
    List.foldl_cons, hw.get_foldl_written]

/-- Every written setting is read back, and the others stay empty. -/
theorem get_readSettings (written : List Setting) :
    (readSettings L (render keyword server written)).get x =
      if x ∈ written then server.get x else [] := by
  rw [readSettings, hw.splitOn_render, hw.get_foldl_written]
  cases x <;> rfl

end Written

/-! ### Where the cut falls -/

/-- The rest of a part whose value is empty sets nothing. -/
theorem Written.get_readPart_rest {m rest : List Char} {f : Setting} (hm : m ≠ [])
    (hpart : m ++ rest = part keyword server f) (hempty : server.get f = []) (x : Setting) :
    (readPart L .default rest).get x = [] := by
  have hrest : rest = (keyword f).drop m.length := by
    rw [part, hempty, List.append_nil] at hpart
    rw [← hpart, List.drop_left]
  have hlower : L.toLowercase rest = f.keyword.drop m.length := by
    rw [LowerCase.toLowercase, L.lowerFrom_eq_map, hrest, List.map_drop, hw.lower]
    exact fun c hc => hw.ascii f c (List.mem_of_mem_drop (hrest ▸ hc))
  rw [get_readPart, hlower, if_neg (not_prefix_drop (List.length_pos_of_ne_nil hm))]
  cases x <;> rfl

/-- The rest of a part does not set its own value, unless that is empty. -/
theorem Written.get_readPart_rest_ne {m rest : List Char} {f : Setting} (hm : m ≠ [])
    (hpart : m ++ rest = part keyword server f) (hne : server.get f ≠ []) :
    (readPart L .default rest).get f ≠ server.get f := by
  intro heq
  have hpos := List.length_pos_of_ne_nil hne
  have hmpos := List.length_pos_of_ne_nil hm
  have hlength : m.length + rest.length = f.keyword.length + (server.get f).length := by
    rw [← List.length_append, hpart, part, List.length_append, hw.length_keyword]
  rw [get_readPart] at heq
  split_ifs at heq
  · have hdrop := congrArg List.length heq
    rw [List.length_drop] at hdrop
    omega
  · exact hne (heq.symm.trans (by cases f <;> rfl))

/-- Behind a cut of the settings the right server is read exactly where the parts that begin
before the cut are of empty values. -/
theorem Written.readSettings_cut {t₁ t₂ : List Char}
    (hcut : render keyword server settings = t₁ ++ t₂) :
    readSettings L t₂ = server ↔
      ∀ before f after, settings = before ++ f :: after →
        utf8Len (render keyword server before) < utf8Len t₁ → server.get f = [] := by
  rw [CustomServer.ext_get_iff]
  rcases render_cut hcut with ⟨a, b, hab, rfl, rfl⟩ | ⟨a, f, b, m, rest, hab, hm, hpart, rfl, rfl⟩
  · rw [hab, begins_before_iff le_rfl]
    · refine forall_congr' fun x => ?_
      rw [hw.get_readSettings, mem_left_iff hab]
      by_cases hx : x ∈ b
      · rw [if_pos hx]
        exact iff_of_true rfl fun h => absurd hx h
      · rw [if_neg hx, eq_comm]
        exact ⟨fun h _ => h, fun h => h hx⟩
    · rintro a₁ f a₂ rfl
      rw [render_append, render_cons, String.utf8Len_append, String.utf8Len_append,
        String.utf8Len_cons]
      have hsize := Char.utf8Size_pos ','
      omega
  · have hsettings : settings = (a ++ [f]) ++ b := by rw [hab]; simp
    have hpos : 0 < utf8Len m := by
      obtain ⟨c, s, rfl⟩ := List.exists_cons_of_ne_nil hm
      exact Nat.add_pos_right _ c.utf8Size_pos
    have hrest : ',' ∉ rest := fun h => hw.not_mem_part f (hpart ▸ List.mem_append_right _ h)
    rw [hsettings, begins_before_iff]
    · constructor
      · intro h
        have hvalue (x : Setting) (hx : x ∈ a ++ [f]) :
            (readPart L .default rest).get x = server.get x := by
          have hget := h x
          rwa [hw.get_readSettings_rest hrest, if_neg ((mem_left_iff hsettings x).mp hx)] at hget
        have hempty : server.get f = [] := by
          by_contra hne
          exact hw.get_readPart_rest_ne hm hpart hne (hvalue f (by simp))
        intro g hg
        rw [← hvalue g hg, hw.get_readPart_rest hm hpart hempty]
      · intro h x
        rw [hw.get_readSettings_rest hrest]
        by_cases hx : x ∈ b
        · rw [if_pos hx]
        · rw [if_neg hx, h x ((mem_left_iff hsettings x).mpr hx),
            hw.get_readPart_rest hm hpart (h f (by simp))]
    · rw [render_append, render_cons, ← hpart]
      simp only [String.utf8Len_append, String.utf8Len_cons]
      omega
    · intro a₁ g a₂ hg
      have hprefix : ∃ s, a = a₁ ++ s := by
        rcases List.append_eq_append_iff.mp hg with ⟨s, rfl, hs⟩ | ⟨s, rfl, -⟩
        · cases s with
          | nil => exact ⟨[], by simp⟩
          | cons y s => simp at hs
        · exact ⟨s, rfl⟩
      obtain ⟨s, rfl⟩ := hprefix
      rw [render_append]
      simp only [String.utf8Len_append]
      omega

/-- Settings behind other text that a comma ends. -/
theorem Written.get_readSettings_behind {front rest : List Char} (hrest : ',' ∉ rest)
    (written : List Setting) :
    (readSettings L (front ++ ',' :: (rest ++ ',' :: render keyword server written))).get x =
      if x ∈ written then server.get x
      else (readPart L (readSettings L front) rest).get x := by
  rw [readSettings, List.splitOn_append_cons_self,
    List.splitOn_append_cons_self_of_not_mem hrest, hw.splitOn_render, List.foldl_append,
    List.foldl_cons, hw.get_foldl_written]
  rfl

/-- The host is set by the part it stands in exactly where nothing stands in front of it. -/
theorem Written.get_host_readPart {front a : List Char} {first : CustomServer}
    (hstart : ¬ "host=".toList <:+: (front ++ a).map Char.toLower)
    (hfirst : first.get .host = []) :
    (readPart L first (a ++ part keyword server .host)).get .host = server.host ↔
      a = [] ∨ server.host = [] := by
  by_cases ha : a = []
  · subst ha
    rw [List.nil_append, get_readPart, if_pos (hw.starts_part.mpr rfl), hw.drop_part]
    exact iff_of_true rfl (.inl rfl)
  · have hnot : ¬ Setting.host.keyword <+: L.toLowercase (a ++ part keyword server .host) := by
      have hpart : "host=".toList <+: (part keyword server .host).map Char.toLower := by
        rw [part, List.map_append, hw.lower]
        exact List.prefix_append _ _
      have hfirst := (LowerCase.firstAt_iff (by decide) unbordered_host).mpr ⟨hpart, hstart⟩
      exact mt (L.prefix_lowerFrom plain_host).mp (hfirst.none_before front a rfl ha)
    rw [get_readPart, if_neg hnot, hfirst, or_iff_right ha, eq_comm]

/-- Behind a cut of the letters before the settings the right server is read exactly where no
letters are left in front of a host. -/
theorem Written.readSettings_start {start p₁ p₂ : List Char}
    (hstart : ¬ "host=".toList <:+: start.map Char.toLower) (hcut : start = p₁ ++ p₂) :
    readSettings L (p₂ ++ render keyword server settings) = server ↔
      p₂ = [] ∨ p₂.getLast? = some ',' ∨ server.host = [] := by
  obtain ⟨front, a, rfl, ha, hfront⟩ := exists_last_comma p₂
  have hrest : ',' ∉ a ++ part keyword server .host := by
    rw [List.mem_append, not_or]
    exact ⟨ha, hw.not_mem_part .host⟩
  have hbefore : ¬ "host=".toList <:+: (front ++ a).map Char.toLower := by
    intro hin
    rw [hcut, List.map_append] at hstart
    exact hstart (hin.trans (List.suffix_append _ _).isInfix)
  -- only the host can be read wrong, as the other parts come after it
  have hread : ∃ first : CustomServer, first.get .host = [] ∧
      ∀ x, (readSettings L (front ++ a ++ render keyword server settings)).get x =
        if x ∈ [Setting.key, .api, .relay] then server.get x
        else (readPart L first (a ++ part keyword server .host)).get x := by
    rw [settings, render_cons]
    rcases hfront with rfl | ⟨f, rfl⟩
    · refine ⟨.default, rfl, fun x => ?_⟩
      rw [List.nil_append, ← List.append_assoc, hw.get_readSettings_rest hrest]
    · refine ⟨readSettings L f, get_host_of_not_infix fun hin => hbefore ?_, fun x => ?_⟩
      · rw [List.map_append, List.map_append]
        exact hin.trans ((List.prefix_append _ _).isInfix.trans (List.prefix_append _ _).isInfix)
      · rw [← hw.get_readSettings_behind hrest]
        simp
  obtain ⟨first, hfirst, hget⟩ := hread
  have hhost : readSettings L (front ++ a ++ render keyword server settings) = server ↔
      (readPart L first (a ++ part keyword server .host)).get .host = server.host := by
    rw [CustomServer.ext_get_iff]
    constructor
    · intro h
      rw [← hget .host |>.trans (if_neg (by decide))]
      exact h .host
    · intro h x
      rw [hget]
      cases x with
      | host => rwa [if_neg (by decide)]
      | _ => rw [if_pos (by decide)]
  have hlast : a = [] ↔ front ++ a = [] ∨ (front ++ a).getLast? = some ',' := by
    by_cases hempty : a = []
    · rw [hempty, List.append_nil]
      refine iff_of_true rfl ?_
      rcases hfront with rfl | ⟨f, rfl⟩
      · exact .inl rfl
      · exact .inr List.getLast?_concat
    · refine iff_of_false hempty ?_
      rintro (hnil | hcomma)
      · exact hempty (List.append_eq_nil_iff.mp hnil).2
      · rw [List.getLast?_append_of_ne_nil _ hempty] at hcomma
        exact ha (List.mem_of_getLast? hcomma)
  rw [hhost, hw.get_host_readPart hbefore hfirst, ← or_assoc, ← hlast]

end

/-! ### The whole name -/

/-- A name written this way is read as the server it says exactly where the cut is right. -/
theorem getCustomServerFromString_fileName {start exe : List Char} (hw : Written keyword server)
    (hexe : exe.map Char.toLower = ".exe".toList)
    (hstart : ¬ "host=".toList <:+: start.map Char.toLower) :
    getCustomServerFromString L licences (fileName start keyword server exe) =
        some (.ok server) ↔ CutsWell L start keyword server := by
  have hlast : ∃ body, render keyword server settings = body ++ [','] := by
    refine ⟨render keyword server [.host, .key, .api] ++ part keyword server .relay, ?_⟩
    have hsettings : render keyword server settings =
        render keyword server [.host, .key, .api] ++ render keyword server [.relay] :=
      render_append [.host, .key, .api] [.relay]
    rw [hsettings, List.append_assoc]
    exact congrArg _ (render_cons .relay [])
  obtain ⟨body, hbody⟩ := hlast
  have hstrip : stripExe L (fileName start keyword server exe) =
      some (start ++ render keyword server settings) := by
    rw [fileName, hbody, ← List.append_assoc, List.append_assoc, ← stripExe_append L hexe]
    rfl
  have hhost : "host=".toList <+: (render keyword server settings).map Char.toLower := by
    rw [settings, render_cons, part, List.append_assoc, List.map_append, hw.lower]
    exact List.prefix_append _ _
  rw [getCustomServerFromString_of_some hstrip (find_host hhost hstart),
    Option.map_eq_some_iff]
  constructor
  · rintro ⟨⟨u, t⟩, hsplit, hread⟩
    obtain ⟨hut, hlength⟩ := LowerCase.splitAtByte_eq_some_iff.mp hsplit
    have hserver : readSettings L t = server := Except.ok.inj hread
    rcases List.append_eq_append_iff.mp hut with ⟨t₁, rfl, hcut⟩ | ⟨p₂, rfl, rfl⟩
    · rw [String.utf8Len_append] at hlength
      exact .inr ⟨t₁, t, hcut, hlength, (hw.readSettings_cut hcut).mp hserver⟩
    · exact .inl ⟨u, p₂, rfl, hlength, (hw.readSettings_start hstart rfl).mp hserver⟩
  · rintro (⟨p₁, p₂, rfl, hlength, hclean⟩ | ⟨t₁, t₂, hcut, hlength, hempty⟩)
    · refine ⟨(p₁, p₂ ++ render keyword server settings), ?_, ?_⟩
      · exact LowerCase.splitAtByte_eq_some_iff.mpr ⟨List.append_assoc _ _ _, hlength⟩
      · exact congrArg Except.ok ((hw.readSettings_start hstart rfl).mpr hclean)
    · refine ⟨(start ++ t₁, t₂), ?_, ?_⟩
      · refine LowerCase.splitAtByte_eq_some_iff.mpr ⟨?_, ?_⟩
        · rw [hcut, List.append_assoc]
        · rw [String.utf8Len_append, hlength]
      · exact congrArg Except.ok ((hw.readSettings_cut hcut).mpr hempty)

/-- A name is read without a panic exactly where the cut falls between two characters, and a name
that says a server behind any letters is read as that server exactly where the cut is right. -/
theorem readName_iff (L : LowerCase) (licences : LicenceDecoding) :
    (∀ s, (getCustomServerFromString L licences s).isSome ↔ SafeName L s) ∧
      ∀ start keyword server exe, (∀ x, (keyword x).map Char.toLower = Setting.keyword x) →
        (∀ x, ',' ∉ server.get x) → exe.map Char.toLower = ".exe".toList →
        ¬ "host=".toList <:+: start.map Char.toLower →
          (getCustomServerFromString L licences (fileName start keyword server exe) =
            some (.ok server) ↔ CutsWell L start keyword server) :=
  ⟨isSome_iff, fun _ _ _ _ hlower hfree => getCustomServerFromString_fileName ⟨hlower, hfree⟩⟩

/-! ### Two prefixes -/

/-- The lower-case forms of ASCII letters, the Kelvin sign and the dotted capital I. -/
def someLetters : LowerCase where
  table c :=
    if c = '\u212A' then ['k'] else if c = '\u0130' then ['i', '\u0307'] else [c.toLower]
  endsWord _ _ := false
  table_ascii c hc := by
    rw [if_neg, if_neg]
    · rintro rfl
      exact absurd hc (by decide)
    · rintro rfl
      exact absurd hc (by decide)
  table_kelvin := rfl
  table_dotted := rfl
  table_ne_nil c := by split_ifs <;> exact List.cons_ne_nil _ _
  table_other c hc hkelvin hdotted d hd := by
    rw [if_neg hkelvin, if_neg hdotted, List.mem_singleton] at hd
    rw [hd, LowerCase.toLower_of_not_ascii hc]
    exact hc

/-- No text is a licence. -/
def noLicences : LicenceDecoding := ⟨fun _ => none, fun _ => none, fun _ _ => none⟩

/-- The server of the names below. -/
def abServer : CustomServer := ⟨"k".toList, "ab".toList, "c".toList, "d".toList⟩

/-- Behind a Kelvin sign the slice panics, and behind a dotted capital I the host is lost. -/
theorem not_read_kelvin_dotted :
    ¬ (∀ s, (getCustomServerFromString someLetters noLicences s).isSome) ∧
      getCustomServerFromString someLetters noLicences
        (fileName ['\u0130'] Setting.keyword abServer ".exe".toList) ≠ some (.ok abServer) := by
  constructor
  · intro hall
    have hkelvin := hall "\u212Ahost=ab.exe".toList
    revert hkelvin
    decide +kernel
  · have hread : getCustomServerFromString someLetters noLicences
        (fileName ['\u0130'] Setting.keyword abServer ".exe".toList) =
          some (.ok { abServer with host := [] }) := by decide +kernel
    rw [hread]
    decide

/-- Behind ASCII letters every server is read back. -/
theorem readName_rustdesk :
    getCustomServerFromString someLetters noLicences
      (fileName "RustDesk-".toList Setting.keyword abServer ".EXE".toList) =
        some (.ok abServer) := by
  refine ((readName_iff someLetters noLicences).2 _ _ _ _ ?_ ?_ rfl (by decide)).mpr (.inl ?_)
  · intro x
    cases x <;> rfl
  · intro x
    cases x <;> decide
  · exact ⟨"RustDesk-".toList, [], rfl, by decide, .inl rfl⟩

end RdWeb.Client
