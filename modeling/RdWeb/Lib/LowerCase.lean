import Mathlib.Algebra.Order.Ring.Int
import Mathlib.Data.List.Infix
import Mathlib.Data.String.Basic

/-!
# Lower-casing and byte offsets

Texts are lists of characters, and an offset counts the bytes of their UTF-8 form. Lower-casing
replaces a character by one or more that may take other bytes, so an offset into the lower-cased
text says nothing about the text itself. What it keeps are the occurrences of an ASCII pattern in
any letter case, as long as the pattern has neither `k` nor `i`, which the Kelvin sign and the
dotted capital I turn into.
-/

open String (utf8Len)

/-- The lower-case forms of the characters, with the facts about them used below. -/
structure LowerCase where
  /-- The lower-case form of a character by itself. -/
  table : Char → List Char
  /-- A capital sigma with these texts before and after it ends a word. -/
  endsWord : List Char → List Char → Bool
  table_ascii : ∀ c, c.toNat < 128 → table c = [c.toLower]
  table_kelvin : table '\u212A' = ['k']
  table_dotted : table '\u0130' = ['i', '\u0307']
  table_ne_nil : ∀ c, table c ≠ []
  table_other : ∀ c, 128 ≤ c.toNat → c ≠ '\u212A' → c ≠ '\u0130' →
    ∀ d ∈ table c, 128 ≤ d.toNat

namespace LowerCase

/-- The lower-case form of a character between two texts. -/
def lowerChar (L : LowerCase) (before after : List Char) (c : Char) : List Char :=
  if c = '\u03A3' then [if L.endsWord before after then '\u03C2' else '\u03C3'] else L.table c

/-- The lower-case form of a text behind another one. -/
def lowerFrom (L : LowerCase) : List Char → List Char → List Char
  | _, [] => []
  | before, c :: after => L.lowerChar before after c ++ L.lowerFrom (before ++ [c]) after

/-- `str::to_lowercase`. -/
def toLowercase (L : LowerCase) (s : List Char) : List Char := L.lowerFrom [] s

/-- A character that only ASCII letters, or it alone, are lower-cased to. -/
def Plain (c : Char) : Prop := c.toNat < 128 ∧ c ≠ 'k' ∧ c ≠ 'i'

/-- Whether a character is plain is decided by its code. -/
instance : DecidablePred Plain := fun _ => inferInstanceAs (Decidable (_ ∧ _))

variable (L : LowerCase) {before after s l pat : List Char} {c : Char}

/-- An ASCII character becomes its lower-case letter, any other one nothing plain. -/
theorem lowerChar_cases (before after : List Char) (c : Char) :
    (c.toNat < 128 ∧ L.lowerChar before after c = [c.toLower]) ∨
      (128 ≤ c.toNat ∧ L.lowerChar before after c ≠ [] ∧
        ∀ d ∈ L.lowerChar before after c, ¬ Plain d) := by
  unfold lowerChar
  by_cases hsigma : c = '\u03A3'
  · rw [if_pos hsigma, hsigma]
    refine .inr ⟨by decide, List.cons_ne_nil _ _, fun d hd => ?_⟩
    rw [List.mem_singleton.mp hd]
    split_ifs <;> decide
  · rw [if_neg hsigma]
    rcases Nat.lt_or_ge c.toNat 128 with hascii | hother
    · exact .inl ⟨hascii, L.table_ascii c hascii⟩
    · refine .inr ⟨hother, L.table_ne_nil c, fun d hd hplain => ?_⟩
      by_cases hkelvin : c = '\u212A'
      · rw [hkelvin, L.table_kelvin] at hd
        exact hplain.2.1 (List.mem_singleton.mp hd)
      · by_cases hdotted : c = '\u0130'
        · rw [hdotted, L.table_dotted, List.mem_cons, List.mem_singleton] at hd
          rcases hd with rfl | rfl
          · exact hplain.2.2 rfl
          · exact absurd hplain.1 (by decide)
        · exact absurd hplain.1 (Nat.not_lt.mpr (L.table_other c hother hkelvin hdotted d hd))

/-- Lean's own lower case changes ASCII only. -/
theorem toLower_of_not_ascii (h : 128 ≤ c.toNat) : c.toLower = c := by
  have hupper : ¬ (c.val ≥ 'A'.val ∧ c.val ≤ 'Z'.val) := by
    rintro ⟨-, hZ⟩
    exact absurd (UInt32.le_iff_toNat_le.mp hZ) (Nat.not_le.mpr (lt_of_lt_of_le (by decide) h))
  unfold Char.toLower
  rw [dif_neg hupper]

/-- A character beyond ASCII has no lower-case ASCII letter. -/
theorem not_plain_toLower (h : 128 ≤ c.toNat) : ¬ Plain c.toLower := by
  rw [toLower_of_not_ascii h]
  exact fun hplain => absurd hplain.1 (Nat.not_lt.mpr h)

/-- Only ASCII texts have an ASCII text as their letters in lower case. -/
theorem ascii_of_map (h : ∀ d ∈ s.map Char.toLower, d.toNat < 128) : ∀ c ∈ s, c.toNat < 128 := by
  intro c hc
  by_contra hother
  have hlower := h _ (List.mem_map_of_mem hc)
  rw [toLower_of_not_ascii (Nat.not_lt.mp hother)] at hlower
  exact hother hlower

/-! ### Lengths -/

/-- The length of a lowered character does not depend on its neighbours. -/
theorem utf8Len_lowerChar (before after : List Char) (c : Char) :
    utf8Len (L.lowerChar before after c) = utf8Len (L.lowerChar [] [] c) := by
  have hsize (final : Bool) :
      utf8Len [if final then '\u03C2' else '\u03C3'] = 2 := by cases final <;> decide
  unfold lowerChar
  by_cases hsigma : c = '\u03A3'
  · rw [if_pos hsigma, if_pos hsigma, hsize, hsize]
  · rw [if_neg hsigma, if_neg hsigma]

/-- The bytes of a lower-cased text are those of its characters, whatever stands around it. -/
theorem utf8Len_lowerFrom (before s : List Char) :
    utf8Len (L.lowerFrom before s) = (s.map fun c => utf8Len (L.lowerChar [] [] c)).sum := by
  induction s generalizing before with
  | nil => rfl
  | cons c s ih =>
    rw [lowerFrom, String.utf8Len_append, ih, L.utf8Len_lowerChar, List.map_cons, List.sum_cons]

/-- The length of a lowered text, one character at a time. -/
theorem utf8Len_toLowercase_cons (before after : List Char) (c : Char) (s : List Char) :
    utf8Len (L.toLowercase (c :: s)) =
      utf8Len (L.lowerChar before after c) + utf8Len (L.toLowercase s) := by
  rw [toLowercase, toLowercase, utf8Len_lowerFrom, utf8Len_lowerFrom, List.map_cons,
    List.sum_cons, L.utf8Len_lowerChar before after]

/-! ### Prefixes and suffixes -/

/-- A plain pattern starts the lower-cased text where it starts the text in some letter case. -/
theorem prefix_lowerFrom (hpat : ∀ d ∈ pat, Plain d) :
    pat <+: L.lowerFrom before s ↔ pat <+: s.map Char.toLower := by
  induction pat generalizing before s with
  | nil => exact iff_of_true List.nil_prefix List.nil_prefix
  | cons p pat ih =>
    cases s with
    | nil => rfl
    | cons c s =>
      rw [lowerFrom, List.map_cons, List.cons_prefix_cons]
      rcases L.lowerChar_cases before s c with ⟨-, hchar⟩ | ⟨hother, hne, hplain⟩
      · rw [hchar, List.singleton_append, List.cons_prefix_cons,
          ih fun d hd => hpat d (List.mem_cons_of_mem _ hd)]
      · obtain ⟨d, rest, hd⟩ := List.exists_cons_of_ne_nil hne
        have hp := hpat p List.mem_cons_self
        rw [hd, List.cons_append, List.cons_prefix_cons]
        constructor
        · rintro ⟨rfl, -⟩
          exact absurd hp (hplain p (hd ▸ List.mem_cons_self))
        · rintro ⟨rfl, -⟩
          exact absurd hp (not_plain_toLower hother)

/-- An ASCII head is lowered character by character, in front of any text. -/
theorem lowerFrom_append (h : ∀ c ∈ s, c.toNat < 128) :
    L.lowerFrom before (s ++ l) = s.map Char.toLower ++ L.lowerFrom (before ++ s) l := by
  induction s generalizing before with
  | nil => rw [List.append_nil, List.nil_append, List.map_nil, List.nil_append]
  | cons c s ih =>
    rw [List.cons_append, lowerFrom, ih fun d hd => h d (List.mem_cons_of_mem _ hd),
      List.append_assoc, List.singleton_append, List.map_cons]
    rcases L.lowerChar_cases before (s ++ l) c with ⟨-, hchar⟩ | ⟨hother, -⟩
    · rw [hchar, List.singleton_append, List.cons_append]
    · exact absurd (h c List.mem_cons_self) (Nat.not_lt.mpr hother)

/-- An ASCII text is lowered character by character. -/
theorem lowerFrom_eq_map (h : ∀ c ∈ s, c.toNat < 128) :
    L.lowerFrom before s = s.map Char.toLower := by
  have happend : L.lowerFrom before (s ++ []) = s.map Char.toLower ++ [] := L.lowerFrom_append h
  rwa [List.append_nil, List.append_nil] at happend

/-- A text whose lower case is plain is ASCII. -/
theorem ascii_of_plain_map (h : ∀ d ∈ s.map Char.toLower, Plain d) : ∀ c ∈ s, c.toNat < 128 :=
  ascii_of_map fun d hd => (h d hd).1

/-- A text is ASCII if what its lower case gives is plain. -/
theorem ascii_of_plain_lower (h : ∀ d ∈ L.lowerFrom before s, Plain d) :
    ∀ c ∈ s, c.toNat < 128 := by
  induction s generalizing before with
  | nil => exact fun c hc => absurd hc List.not_mem_nil
  | cons c s ih =>
    rw [lowerFrom] at h
    intro d hd
    rcases List.mem_cons.mp hd with rfl | hd
    · rcases L.lowerChar_cases before s d with ⟨hascii, -⟩ | ⟨-, hne, hplain⟩
      · exact hascii
      · obtain ⟨e, he⟩ := List.exists_mem_of_ne_nil _ hne
        exact absurd (h e (List.mem_append_left _ he)) (hplain e he)
    · exact ih (fun e he => h e (List.mem_append_right _ he)) d hd

/-- The lower case of a text ends with that of its second part, read after the first. -/
theorem exists_lowerFrom_append (before q r : List Char) :
    ∃ l, L.lowerFrom before (q ++ r) = l ++ L.lowerFrom (before ++ q) r := by
  induction q generalizing before with
  | nil => exact ⟨[], by simp⟩
  | cons c q ih =>
    obtain ⟨l, hl⟩ := ih (before ++ [c])
    refine ⟨L.lowerChar before (q ++ r) c ++ l, ?_⟩
    rw [List.cons_append, lowerFrom, hl, List.append_assoc, List.append_assoc,
      List.singleton_append]

/-- A plain pattern ends the lower-cased text where it ends the text in some letter case. -/
theorem suffix_lowerFrom (hpat : ∀ d ∈ pat, Plain d) :
    pat <:+ L.lowerFrom before s ↔ pat <:+ s.map Char.toLower := by
  constructor
  · intro h
    induction s generalizing before with
    | nil => exact h
    | cons c s ih =>
      rw [lowerFrom] at h
      rcases List.suffix_or_suffix_of_suffix h (List.suffix_append _ _) with hrest | hall
      · exact (ih hrest).trans (List.suffix_cons _ _)
      · obtain ⟨first, rfl⟩ := hall
        have hascii := L.ascii_of_plain_lower fun d hd => hpat d (List.mem_append_right _ hd)
        have hfirst : first <:+ L.lowerChar before s c := List.suffix_append_self_iff.mp h
        rw [L.lowerFrom_eq_map hascii, List.map_cons]
        rcases L.lowerChar_cases before s c with ⟨-, hchar⟩ | ⟨-, -, hplain⟩
        · rw [hchar] at hfirst
          exact List.suffix_append_self_iff.mpr hfirst
        · cases first with
          | nil => exact List.suffix_cons _ _
          | cons d first =>
            exact absurd (hpat d List.mem_cons_self)
              (hplain d (hfirst.subset List.mem_cons_self))
  · rintro ⟨first, hfirst⟩
    obtain ⟨q, r, rfl, -, hr⟩ := List.map_eq_append_iff.mp hfirst.symm
    obtain ⟨l, hl⟩ := L.exists_lowerFrom_append before q r
    have hascii := ascii_of_plain_map fun d hd => hpat d (hr ▸ hd)
    rw [hl, L.lowerFrom_eq_map hascii, hr]
    exact List.suffix_append _ _

/-! ### The first occurrence -/

/-- `str::find`: the byte offset of the first occurrence. -/
def find (pat : List Char) : List Char → Option ℕ
  | [] => if pat = [] then some 0 else none
  | c :: s => if pat <+: c :: s then some 0 else (find pat s).map (c.utf8Size + ·)

/-- A pattern at the start is found there. -/
theorem find_of_prefix (h : pat <+: s) : find pat s = some 0 := by
  cases s with
  | nil => rw [find, if_pos (List.prefix_nil.mp h)]
  | cons c s => rw [find, if_pos h]

/-- Characters the pattern does not start with are passed over. -/
theorem find_append {p : Char} {first : List Char} (h : ∀ d ∈ first, d ≠ p) :
    find (p :: pat) (first ++ l) = (find (p :: pat) l).map (utf8Len first + ·) := by
  induction first with
  | nil => cases hfind : find (p :: pat) l <;> simp [hfind]
  | cons d first ih =>
    have hne : ¬ p :: pat <+: d :: (first ++ l) := by
      rw [List.cons_prefix_cons]
      exact fun hp => h d List.mem_cons_self hp.1.symm
    rw [List.cons_append, find, if_neg hne, ih fun e he => h e (List.mem_cons_of_mem _ he),
      Option.map_map]
    congr 1
    funext n
    simp only [Function.comp_apply, String.utf8Len_cons]
    omega

/-- The search in a lower-cased text goes from character to character of the text. -/
theorem find_lowerFrom_cons {p : Char} (hpat : ∀ d ∈ p :: pat, Plain d) :
    find (p :: pat) (L.lowerFrom before (c :: s)) =
      if p :: pat <+: (c :: s).map Char.toLower then some 0
      else (find (p :: pat) (L.lowerFrom (before ++ [c]) s)).map
        (utf8Len (L.lowerChar before s c) + ·) := by
  split_ifs with hstart
  · exact find_of_prefix ((L.prefix_lowerFrom hpat).mpr hstart)
  · have hnot : ¬ p :: pat <+: L.lowerFrom before (c :: s) :=
      mt (L.prefix_lowerFrom hpat).mp hstart
    rw [lowerFrom] at hnot ⊢
    rcases L.lowerChar_cases before s c with ⟨-, hchar⟩ | ⟨-, -, hplain⟩
    · rw [hchar, List.singleton_append] at hnot ⊢
      rw [find, if_neg hnot]
      simp
    · exact find_append fun d hd hp => hplain d hd (hp ▸ hpat p List.mem_cons_self)

/-- The pattern occurs in the text in some letter case, after this part of it and not before. -/
structure FirstAt (pat q r : List Char) : Prop where
  starts : pat <+: r.map Char.toLower
  none_before : ∀ q₁ q₂, q = q₁ ++ q₂ → q₂ ≠ [] → ¬ pat <+: (q₂ ++ r).map Char.toLower

/-- The first occurrence stays the first in the tail. -/
theorem FirstAt.tail {q r : List Char} (h : FirstAt pat (c :: q) r) : FirstAt pat q r :=
  ⟨h.starts, fun q₁ q₂ hq => h.none_before (c :: q₁) q₂ (by rw [hq, List.cons_append])⟩

/-- The place found in the lowered text is the length of the lowered text before it. -/
theorem find_firstAt {q r : List Char} {p : Char} (hpat : ∀ d ∈ p :: pat, Plain d)
    (h : FirstAt (p :: pat) q r) :
    find (p :: pat) (L.lowerFrom before (q ++ r)) = some (utf8Len (L.toLowercase q)) := by
  induction q generalizing before with
  | nil => exact find_of_prefix ((L.prefix_lowerFrom hpat).mpr h.starts)
  | cons c q ih =>
    have hnot := h.none_before [] (c :: q) rfl (List.cons_ne_nil _ _)
    rw [List.cons_append] at hnot ⊢
    rw [L.find_lowerFrom_cons hpat, if_neg hnot, ih h.tail,
      L.utf8Len_toLowercase_cons before (q ++ r)]
    rfl

/-- What is found in the lower-cased text is where the text has its first occurrence. -/
theorem exists_firstAt {p : Char} {n : ℕ} (hpat : ∀ d ∈ p :: pat, Plain d)
    (h : find (p :: pat) (L.lowerFrom before s) = some n) :
    ∃ q r, s = q ++ r ∧ FirstAt (p :: pat) q r := by
  induction s generalizing before n with
  | nil => simp [lowerFrom, find] at h
  | cons c s ih =>
    rw [L.find_lowerFrom_cons hpat] at h
    split_ifs at h with hstart
    · refine ⟨[], c :: s, rfl, hstart, fun q₁ q₂ hq hne => ?_⟩
      exact absurd (List.append_eq_nil_iff.mp hq.symm).2 hne
    · obtain ⟨m, hm, -⟩ := Option.map_eq_some_iff.mp h
      obtain ⟨q, r, rfl, hfirst⟩ := ih hm
      refine ⟨c :: q, r, rfl, hfirst.starts, fun q₁ q₂ hq hne => ?_⟩
      cases q₁ with
      | nil =>
        rw [List.nil_append] at hq
        rw [← hq]
        exact hstart
      | cons d q₁ => exact hfirst.none_before q₁ q₂ (List.cons.inj hq).2 hne

/-- No end of the pattern is a start of it. -/
def Unbordered (pat : List Char) : Prop :=
  ∀ n < pat.length, 0 < n → ¬ pat.drop n <+: pat

/-- Whether a pattern overlaps itself is decided by its lengths. -/
instance : DecidablePred Unbordered := fun _ => inferInstanceAs (Decidable (∀ _ < _, _ → _))

/-- For such a pattern it is enough that the part before has no occurrence of its own. -/
theorem firstAt_iff {q r : List Char} (hne : pat ≠ []) (hpat : Unbordered pat) :
    FirstAt pat q r ↔ pat <+: r.map Char.toLower ∧ ¬ pat <:+: q.map Char.toLower := by
  constructor
  · refine fun h => ⟨h.starts, ?_⟩
    rintro ⟨x, y, hxy⟩
    rw [List.append_assoc] at hxy
    obtain ⟨q₁, q₂, rfl, -, hq₂⟩ := List.map_eq_append_iff.mp hxy.symm
    refine h.none_before q₁ q₂ rfl ?_ ?_
    · rintro rfl
      exact hne (List.append_eq_nil_iff.mp hq₂.symm).1
    · rw [List.map_append, hq₂, List.append_assoc]
      exact List.prefix_append _ _
  · rintro ⟨hstart, hnone⟩
    refine ⟨hstart, fun q₁ q₂ hq hq₂ hprefix => ?_⟩
    rw [List.map_append] at hprefix
    rcases Nat.lt_or_ge q₂.length pat.length with hshort | hlong
    · have hrest : pat.drop q₂.length <+: r.map Char.toLower := by
        have hdrop := hprefix.drop q₂.length
        rwa [List.drop_left' (List.length_map _)] at hdrop
      exact hpat _ hshort (List.length_pos_of_ne_nil hq₂)
        (List.prefix_of_prefix_length_le hrest hstart (by simp))
    · have hin : pat <+: q₂.map Char.toLower :=
        List.prefix_of_prefix_length_le hprefix (List.prefix_append _ _) (by simpa using hlong)
      rw [hq, List.map_append] at hnone
      exact hnone (hin.isInfix.trans (List.suffix_append _ _).isInfix)

/-! ### Slices -/

/-- `str::split_at` at a byte offset, `none` where it panics: no character ends there. -/
def splitAtByte : ℕ → List Char → Option (List Char × List Char)
  | 0, s => some ([], s)
  | _ + 1, [] => none
  | n + 1, c :: s =>
    if c.utf8Size ≤ n + 1 then
      (splitAtByte (n + 1 - c.utf8Size) s).map fun x => (c :: x.1, x.2)
    else none

/-- Splitting at a byte that is not the first one splits the tail. -/
theorem splitAtByte_cons {n : ℕ} (hn : 0 < n) :
    splitAtByte n (c :: s) =
      if c.utf8Size ≤ n then (splitAtByte (n - c.utf8Size) s).map fun x => (c :: x.1, x.2)
      else none := by
  cases n with
  | zero => omega
  | succ n => rfl

/-- A text splits at the length of its first part. -/
theorem splitAtByte_append (u t : List Char) : splitAtByte (utf8Len u) (u ++ t) = some (u, t) := by
  induction u with
  | nil => cases t <;> rfl
  | cons c u ih =>
    have hsize := c.utf8Size_pos
    rw [String.utf8Len_cons, List.cons_append, splitAtByte_cons (by omega), if_pos (by omega),
      Nat.add_sub_cancel, ih]
    rfl

/-- A split succeeds only at the end of a character, with the two parts of the text. -/
theorem splitAtByte_eq_some_iff {n : ℕ} {u t : List Char} :
    splitAtByte n s = some (u, t) ↔ s = u ++ t ∧ utf8Len u = n := by
  constructor
  · intro h
    induction s generalizing n u with
    | nil =>
      cases n with
      | zero =>
        obtain ⟨rfl, rfl⟩ := Prod.ext_iff.mp (Option.some.inj h)
        exact ⟨rfl, rfl⟩
      | succ n => cases h
    | cons c s ih =>
      rcases Nat.eq_zero_or_pos n with rfl | hn
      · obtain ⟨rfl, rfl⟩ := Prod.ext_iff.mp (Option.some.inj h)
        exact ⟨rfl, rfl⟩
      · rw [splitAtByte_cons hn] at h
        split_ifs at h with hsize
        obtain ⟨⟨v, w⟩, hvw, hx⟩ := Option.map_eq_some_iff.mp h
        obtain ⟨rfl, rfl⟩ := Prod.ext_iff.mp hx
        obtain ⟨rfl, hlen⟩ := ih hvw
        refine ⟨rfl, ?_⟩
        change utf8Len v + c.utf8Size = n
        omega
  · rintro ⟨rfl, rfl⟩
    exact splitAtByte_append u t

end LowerCase
