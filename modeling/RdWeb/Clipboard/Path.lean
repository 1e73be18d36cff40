import Mathlib.Data.List.DropRight
import Mathlib.Data.String.Basic
import Mathlib.Tactic.SplitIfs

/-!
# Unix paths

`std::path::Path` on Unix: any bytes, taken apart at the separator 47. A path is
shown as text by replacing what is not UTF-8.
-/

namespace RdWeb.Clipboard

/-- A Unix path: any bytes. -/
abbrev PathBuf := List UInt8

/-- `std::path::Component` on Unix. -/
inductive Component
  | rootDir
  | curDir
  | parentDir
  | normal (name : List UInt8)
  deriving DecidableEq, Repr

namespace PathBuf

/-- The bytes between the separators. -/
def parts (p : PathBuf) : List (List UInt8) := p.splitOn 47

/-- A part that is no component of its own: between two separators, or `.`. -/
def IsSkipped (part : List UInt8) : Prop := part = [] ∨ part = [46]

/-- Whether a part is skipped is decided by comparing it. -/
instance : DecidablePred IsSkipped := fun _ => inferInstanceAs (Decidable (_ ∨ _))

/-- The component a path starts with when that is the root or `.`. -/
def lead (p : PathBuf) : List Component :=
  if p.head? = some 47 then [.rootDir] else if p.parts.head? = some [46] then [.curDir] else []

/-- `Path::components`: repeated separators and inner `.` are skipped. -/
def components (p : PathBuf) : List Component :=
  p.lead ++ (p.parts.filter fun part => ¬ IsSkipped part).map fun part =>
    if part = [46, 46] then .parentDir else .normal part

/-- The parts after the leading component. -/
def body (p : PathBuf) : List (List UInt8) := if p.lead = [] then p.parts else p.parts.tail

/-- A path with the same leading component and another body. -/
def withBody (p : PathBuf) (body : List (List UInt8)) : PathBuf :=
  match p.lead with
  | .rootDir :: _ => 47 :: [47].intercalate body
  | .curDir :: _ => if body = [] then [46] else 46 :: 47 :: [47].intercalate body
  | _ => [47].intercalate body

/-- `Path::parent`. -/
def parent (p : PathBuf) : Option PathBuf :=
  match p.components.getLast? with
  | none | some .rootDir => none
  | some .curDir => some []
  | some _ =>
    some (p.withBody ((p.body.rdropWhile IsSkipped).dropLast.rdropWhile IsSkipped))

/-- Drop the first `k` components of a body. -/
def dropComponents : ℕ → List (List UInt8) → List (List UInt8)
  | 0, body => body
  | _, [] => []
  | k + 1, part :: body =>
    if IsSkipped part then dropComponents (k + 1) body else dropComponents k body

/-- `Path::strip_prefix`: the bytes of the path after the components of the base. -/
def stripPrefix (p base : PathBuf) : Option PathBuf :=
  if base.components <+: p.components then
    if base.components = [] then some (p.withBody (p.body.rdropWhile IsSkipped))
    else
      let k := base.components.length - base.lead.length
      some ([47].intercalate (((dropComponents k p.parts).dropWhile IsSkipped).rdropWhile IsSkipped))
  else none

end PathBuf

/-- `Path::file_name`. -/
def PathBuf.fileName (p : PathBuf) : Option (List UInt8) :=
  match p.components.getLast? with
  | some (.normal name) => some name
  | _ => none

/-- `Path::to_str`. -/
def PathBuf.toStr (p : PathBuf) : Option String := String.fromUTF8? ⟨p.toArray⟩

/-- The length of the invalid sequence at the front of some bytes that do not start
with a character: a lead byte and the continuation bytes that could follow it. -/
def invalidLength : List UInt8 → ℕ
  | lead :: next :: rest =>
    let third := rest.head?.any fun b => 0x80 ≤ b ∧ b ≤ 0xBF
    let second :=
      if lead = 0xE0 then 0xA0 ≤ next ∧ next ≤ 0xBF
      else if lead = 0xED then 0x80 ≤ next ∧ next ≤ 0x9F
      else if 0xE1 ≤ lead ∧ lead ≤ 0xEF then 0x80 ≤ next ∧ next ≤ 0xBF
      else if lead = 0xF0 then 0x90 ≤ next ∧ next ≤ 0xBF
      else if 0xF1 ≤ lead ∧ lead ≤ 0xF3 then 0x80 ≤ next ∧ next ≤ 0xBF
      else lead = 0xF4 ∧ 0x80 ≤ next ∧ next ≤ 0x8F
    if second then if 0xF0 ≤ lead ∧ third then 3 else 2 else 1
  | _ => 1

/-- Decoding with a replacement character for every invalid sequence. -/
def lossyChars : ℕ → List UInt8 → List Char
  | 0, _ => []
  | _, [] => []
  | fuel + 1, bytes =>
    match ByteArray.utf8DecodeChar? ⟨bytes.toArray⟩ 0 with
    | some c => c :: lossyChars fuel (bytes.drop c.utf8Size)
    | none => '\uFFFD' :: lossyChars fuel (bytes.drop (invalidLength bytes))

/-- `Path::to_string_lossy`. -/
def PathBuf.toStringLossy (p : PathBuf) : String :=
  match p.toStr with
  | some s => s
  | none => .ofList (lossyChars p.length p)

/-- `PathBuf::from` on a string. -/
def PathBuf.ofString (s : String) : PathBuf := s.toByteArray.data.toList

namespace PathBuf

/-- Reading a path as text and writing the text as a path gives the path. -/
theorem ofString_of_toStr {p : PathBuf} {s : String} (h : p.toStr = some s) : ofString s = p := by
  unfold toStr String.fromUTF8? at h
  split_ifs at h
  rw [← Option.some.inj h]
  rfl

/-- The bytes of a text are that text. -/
theorem toStr_ofString (s : String) : (ofString s).toStr = some s := by
  unfold toStr String.fromUTF8? ofString
  rw [dif_pos (by simpa using s.isValidUTF8)]
  rfl

/-- A character that is decoded is at the front of the bytes. -/
theorem eq_append_drop_of_decodeChar {bytes : List UInt8} {c : Char}
    (h : ByteArray.utf8DecodeChar? ⟨bytes.toArray⟩ 0 = some c) :
    bytes = String.utf8EncodeChar c ++ bytes.drop c.utf8Size := by
  obtain ⟨l, hl⟩ := ByteArray.exists_of_utf8DecodeChar?_eq_some h
  have hbytes : bytes = String.utf8EncodeChar c ++ l.data.toList := by
    have hdata := congrArg (fun a : ByteArray => a.data.toList) hl
    simpa using hdata
  rw [← String.length_utf8EncodeChar c]
  conv_rhs => rw [hbytes]
  rw [List.drop_left]
  exact hbytes

/-- Without a replacement character the bytes are those of the characters. -/
theorem eq_of_lossyChars (fuel : ℕ) (bytes : List UInt8) (hfuel : bytes.length ≤ fuel)
    (hvalid : '\uFFFD' ∉ lossyChars fuel bytes) :
    bytes = (lossyChars fuel bytes).flatMap String.utf8EncodeChar := by
  induction fuel generalizing bytes with
  | zero => exact List.eq_nil_of_length_eq_zero (Nat.le_zero.mp hfuel)
  | succ fuel ih =>
    cases bytes with
    | nil => rfl
    | cons b rest =>
      cases hchar : ByteArray.utf8DecodeChar? ⟨(b :: rest).toArray⟩ 0 with
      | none =>
        simp only [lossyChars, hchar] at hvalid
        exact absurd List.mem_cons_self hvalid
      | some c =>
        simp only [lossyChars, hchar] at hvalid ⊢
        have hpos := c.utf8Size_pos
        have hshort : ((b :: rest).drop c.utf8Size).length ≤ fuel := by
          rw [List.length_drop]
          omega
        have hrest := ih _ hshort fun hmem => hvalid (List.mem_cons_of_mem c hmem)
        rw [List.flatMap_cons, ← hrest]
        exact eq_append_drop_of_decodeChar hchar

/-- A text without a replacement character is the text of its own bytes only. -/
theorem eq_ofString_of_toStringLossy {p : PathBuf} {s : String} (h : p.toStringLossy = s)
    (hs : '\uFFFD' ∉ s.toList) : p = ofString s := by
  cases hstr : p.toStr with
  | some t =>
    rw [toStringLossy, hstr] at h
    obtain rfl : t = s := h
    exact (ofString_of_toStr hstr).symm
  | none =>
    rw [toStringLossy, hstr] at h
    obtain rfl : String.ofList (lossyChars p.length p) = s := h
    rw [String.toList_ofList] at hs
    have hp := eq_of_lossyChars p.length p le_rfl hs
    rw [ofString, String.toByteArray_ofList, List.utf8Encode, List.toList_data_toByteArray]
    exact hp

/-- They are so without any loss. -/
theorem toStringLossy_ofString (s : String) : (ofString s).toStringLossy = s := by
  rw [toStringLossy, toStr_ofString]

/-- The bytes of a character are among the bytes of the text. -/
theorem mem_ofString {s : String} {c : Char} {b : UInt8} (hc : c ∈ s.toList)
    (hb : b ∈ String.utf8EncodeChar c) : b ∈ ofString s := by
  unfold ofString
  rw [← String.utf8Encode_toList, List.utf8Encode, List.data_toByteArray]
  simpa using ⟨c, hc, hb⟩

/-- A byte of a part is a byte of the joined path. -/
private theorem mem_intercalate_of_mem {b : UInt8} {parts : List (List UInt8)} {part : List UInt8}
    (hpart : part ∈ parts) (hb : b ∈ part) : b ∈ [47].intercalate parts := by
  induction parts with
  | nil => simp at hpart
  | cons first parts ih =>
    cases parts with
    | nil =>
      obtain rfl := List.mem_singleton.mp hpart
      simpa using hb
    | cons second parts =>
      rw [List.intercalate_cons_cons]
      rcases List.mem_cons.mp hpart with rfl | hpart
      · exact List.mem_append_left _ (List.mem_append_left _ hb)
      · exact List.mem_append_right _ (ih hpart)

/-- A byte of a joined path is a separator or stands in a part. -/
private theorem mem_intercalate {b : UInt8} {parts : List (List UInt8)}
    (h : b ∈ [47].intercalate parts) : b = 47 ∨ ∃ part ∈ parts, b ∈ part := by
  induction parts with
  | nil => simp at h
  | cons first parts ih =>
    cases parts with
    | nil => exact Or.inr ⟨first, by simp, by simpa using h⟩
    | cons second parts =>
      rw [List.intercalate_cons_cons] at h
      rcases List.mem_append.mp h with h | h
      · rcases List.mem_append.mp h with h | h
        · exact Or.inr ⟨first, by simp, h⟩
        · exact Or.inl (List.mem_singleton.mp h)
      · rcases ih h with rfl | ⟨part, hpart, hb⟩
        · exact Or.inl rfl
        · exact Or.inr ⟨part, List.mem_cons_of_mem _ hpart, hb⟩

/-- A byte of a part is a byte of the path. -/
private theorem mem_of_mem_parts {p : PathBuf} {part : List UInt8} {b : UInt8}
    (hpart : part ∈ p.parts) (hb : b ∈ part) : b ∈ p := by
  have hjoin : [47].intercalate p.parts = p := List.intercalate_splitOn 47
  rw [← hjoin]
  exact mem_intercalate_of_mem hpart hb

/-- Dropping components leaves parts of the body. -/
theorem mem_of_mem_dropComponents {k : ℕ} {body : List (List UInt8)} {part : List UInt8}
    (h : part ∈ dropComponents k body) : part ∈ body := by
  induction body generalizing k with
  | nil => cases k <;> simp [dropComponents] at h
  | cons first body ih =>
    cases k with
    | zero => simpa [dropComponents] using h
    | succ k =>
      rw [dropComponents] at h
      split_ifs at h
      · exact List.mem_cons_of_mem _ (ih h)
      · exact List.mem_cons_of_mem _ (ih h)

/-- Stripping a prefix adds no byte but separators and a leading dot. -/
theorem mem_of_mem_stripPrefix {p base q : PathBuf} (h : p.stripPrefix base = some q) {b : UInt8}
    (hslash : b ≠ 47) (hdot : b ≠ 46) (hb : b ∈ q) : b ∈ p := by
  unfold stripPrefix at h
  split_ifs at h with hpre hbase
  · rw [← Option.some.inj h] at hb
    have hbody : ∀ parts, parts <+: p.body → b ∈ [47].intercalate parts → b ∈ p := by
      intro parts hparts hmem
      obtain ⟨part, hpart, hb⟩ := (mem_intercalate hmem).resolve_left hslash
      have hin := hparts.subset hpart
      unfold body at hin
      split_ifs at hin
      · exact mem_of_mem_parts hin hb
      · exact mem_of_mem_parts (List.mem_of_mem_tail hin) hb
    have hpre := List.rdropWhile_prefix (fun part => decide (IsSkipped part)) p.body
    unfold withBody at hb
    split at hb
    · simp only [List.mem_cons, hslash, false_or] at hb
      exact hbody _ hpre hb
    · split_ifs at hb
      · simp [hdot] at hb
      · simp only [List.mem_cons, hslash, hdot, false_or] at hb
        exact hbody _ hpre hb
    · exact hbody _ hpre hb
  · rw [← Option.some.inj h] at hb
    obtain ⟨part, hpart, hb⟩ := (mem_intercalate hb).resolve_left hslash
    have hdropped := (List.rdropWhile_prefix _ _).subset hpart
    exact mem_of_mem_parts
      (mem_of_mem_dropComponents ((List.dropWhile_sublist _).subset hdropped)) hb

section DirectlyUnderRoot

variable {name : List UInt8}

/-- A name below the root has two parts. -/
theorem parts_root (h : 47 ∉ name) : parts (47 :: name) = [[], name] := by
  have hjoin : [47].intercalate [[], name] = 47 :: name := by
    rw [List.intercalate_cons_cons, List.intercalate_singleton]
    rfl
  rw [parts, ← hjoin]
  exact List.splitOn_intercalate 47 (by simpa using h) (by simp)

/-- A name below the root has two components. -/
theorem components_root (h : 47 ∉ name) (hempty : name ≠ []) (hdot : name ≠ [46])
    (hdots : name ≠ [46, 46]) : components (47 :: name) = [.rootDir, .normal name] := by
  have hskipped : IsSkipped [] := Or.inl rfl
  have hname : ¬ IsSkipped name := by simp [IsSkipped, hempty, hdot]
  rw [components, parts_root h, List.filter_cons_of_neg (by simpa using hskipped),
    List.filter_cons_of_pos (by simpa using hname)]
  simp [lead, hdots]

/-- Its parent is the root. -/
theorem parent_root (h : 47 ∉ name) (hempty : name ≠ []) (hdot : name ≠ [46])
    (hdots : name ≠ [46, 46]) : parent (47 :: name) = some [47] := by
  have hlead : lead (47 :: name) = [.rootDir] := by simp [lead]
  have hname : ¬ IsSkipped name := by simp [IsSkipped, hempty, hdot]
  rw [parent, components_root h hempty hdot hdots]
  simp [withBody, body, hlead, parts_root h, List.rdropWhile, hname]

/-- Without the root it is the name. -/
theorem stripPrefix_root (h : 47 ∉ name) (hempty : name ≠ []) (hdot : name ≠ [46])
    (hdots : name ≠ [46, 46]) : stripPrefix (47 :: name) [47] = some name := by
  have hname : ¬ IsSkipped name := by simp [IsSkipped, hempty, hdot]
  have hskipped : IsSkipped [] := Or.inl rfl
  have hroot : components [47] = [.rootDir] := by decide
  have hlead : lead [47] = [.rootDir] := by decide
  rw [stripPrefix, components_root h hempty hdot hdots, hroot, hlead, parts_root h]
  simp [dropComponents, hname, hskipped, List.rdropWhile]

end DirectlyUnderRoot

/-- A name alone is one component. -/
theorem components_single {name : List UInt8} (h : 47 ∉ name) (hempty : name ≠ [])
    (hdot : name ≠ [46]) (hdots : name ≠ [46, 46]) : components name = [.normal name] := by
  have hparts : parts name = [name] := List.splitOn_eq_singleton h
  have hname : ¬ IsSkipped name := by simp [IsSkipped, hempty, hdot]
  have hroot : name.head? ≠ some 47 := fun hhead => h (List.mem_of_head? hhead)
  simp [components, lead, hparts, hname, hroot, hdot, hdots]

section Parent

/-- The components of the parts of a body. -/
def bodyComponents (body : List (List UInt8)) : List Component :=
  (body.filter fun part => ¬ IsSkipped part).map fun part =>
    if part = [46, 46] then .parentDir else .normal part

/-- No parts have no components. -/
@[simp] theorem bodyComponents_nil : bodyComponents [] = [] := rfl

/-- The components of parts, one list after the other. -/
theorem bodyComponents_append (first second : List (List UInt8)) :
    bodyComponents (first ++ second) = bodyComponents first ++ bodyComponents second := by
  simp [bodyComponents]

/-- A skipped part has no component. -/
theorem bodyComponents_cons_of_skipped {part : List UInt8} (h : IsSkipped part)
    (body : List (List UInt8)) : bodyComponents (part :: body) = bodyComponents body := by
  simp [bodyComponents, h]

/-- A part that is not skipped is a component. -/
theorem bodyComponents_singleton {part : List UInt8} (h : ¬ IsSkipped part) :
    bodyComponents [part] = [if part = [46, 46] then .parentDir else .normal part] := by
  simp [bodyComponents, h]

/-- No part of a body is the root or the current directory. -/
theorem ne_lead_of_mem_bodyComponents {body : List (List UInt8)} {c : Component}
    (h : c ∈ bodyComponents body) : c ≠ .rootDir ∧ c ≠ .curDir := by
  obtain ⟨part, -, rfl⟩ := List.mem_map.mp h
  split_ifs <;> simp

/-- Skipped parts at the end do not matter. -/
theorem bodyComponents_rdropWhile (body : List (List UInt8)) :
    bodyComponents (body.rdropWhile fun part => decide (IsSkipped part)) =
      bodyComponents body := by
  induction body using List.reverseRecOn with
  | nil => rfl
  | append_singleton body part ih =>
    by_cases h : IsSkipped part
    · rw [List.rdropWhile_concat_pos _ _ _ (by simpa using h), ih, bodyComponents_append,
        bodyComponents_cons_of_skipped h]
      simp
    · rw [List.rdropWhile_concat_neg _ _ _ (by simpa using h)]

/-- The parent lacks the last component. -/
theorem bodyComponents_parent (body : List (List UInt8)) :
    bodyComponents ((body.rdropWhile fun part => decide (IsSkipped part)).dropLast.rdropWhile
      fun part => decide (IsSkipped part)) = (bodyComponents body).dropLast := by
  rw [bodyComponents_rdropWhile, ← bodyComponents_rdropWhile body]
  rcases List.eq_nil_or_concat (body.rdropWhile fun part => decide (IsSkipped part)) with
    hnil | ⟨front, part, hconcat⟩
  · rw [hnil]
    rfl
  · have hfront : (body.rdropWhile fun part => decide (IsSkipped part)) = front ++ [part] := by
      rw [hconcat, List.concat_eq_append]
    have hlast : ¬ IsSkipped part := by
      have hne : (body.rdropWhile fun part => decide (IsSkipped part)) ≠ [] := by simp [hfront]
      have hnot := List.rdropWhile_last_not (fun part => decide (IsSkipped part)) body hne
      simpa [hfront] using hnot
    rw [hfront, List.dropLast_concat, bodyComponents_append, bodyComponents_singleton hlast,
      List.dropLast_concat]

/-- No part contains a separator. -/
theorem not_mem_of_mem_parts {p : PathBuf} {part : List UInt8} (h : part ∈ p.parts) :
    47 ∉ part := by
  induction p generalizing part with
  | nil =>
    obtain rfl : part = [] := by simpa [parts] using h
    simp
  | cons b p ih =>
    unfold parts at h ih
    rw [List.splitOn_cons_eq_if_modifyHead] at h
    by_cases hsep : b = 47
    · rw [if_pos (by simpa using hsep)] at h
      rcases List.mem_cons.mp h with rfl | h
      · simp
      · exact ih h
    · rw [if_neg (by simpa using hsep)] at h
      rcases hsplit : p.splitOn 47 with _ | ⟨first, rest⟩
      · simp [hsplit] at h
      · rw [hsplit, List.modifyHead_cons] at h
        rw [hsplit] at ih
        rcases List.mem_cons.mp h with rfl | h
        · have hfirst : 47 ∉ first := ih (by simp)
          simpa [hfirst] using Ne.symm hsep
        · exact ih (List.mem_cons_of_mem _ h)

/-- Nor does a part of the body. -/
theorem not_sep_mem_body {p : PathBuf} {part : List UInt8} (h : part ∈ p.body) : 47 ∉ part := by
  unfold body at h
  split_ifs at h
  · exact not_mem_of_mem_parts h
  · exact not_mem_of_mem_parts (List.mem_of_mem_tail h)

/-- The components of a path: the leading one, then those of its body. -/
theorem components_eq (p : PathBuf) : p.components = p.lead ++ bodyComponents p.body := by
  unfold components
  congr 1
  unfold body
  split_ifs with hlead
  · rfl
  · have hparts : ∃ first rest, p.parts = first :: rest ∧ IsSkipped first := by
      have hne : p.parts ≠ [] := List.splitOn_ne_nil _ _
      obtain ⟨first, rest, hparts⟩ := List.exists_cons_of_ne_nil hne
      refine ⟨first, rest, hparts, ?_⟩
      unfold lead at hlead
      split_ifs at hlead with hroot hdot
      · obtain ⟨t, rfl⟩ := List.head?_eq_some_iff.mp hroot
        unfold parts at hparts
        rw [List.splitOn_cons_eq_if_modifyHead, if_pos (by simp)] at hparts
        exact Or.inl (List.cons.inj hparts).1.symm
      · rw [hparts, List.head?_cons] at hdot
        exact Or.inr (Option.some.inj hdot)
      · exact absurd rfl hlead
    obtain ⟨first, rest, hparts, hskipped⟩ := hparts
    rw [hparts, List.tail_cons]
    exact bodyComponents_cons_of_skipped hskipped rest

/-- The three ways in which a path begins. -/
theorem lead_cases (p : PathBuf) :
    p.lead = [.rootDir] ∨ p.lead = [.curDir] ∨
      p.lead = [] ∧ p.head? ≠ some 47 ∧ p.parts.head? ≠ some [46] := by
  unfold lead
  split_ifs with hroot hdot
  · exact Or.inl rfl
  · exact Or.inr (Or.inl rfl)
  · exact Or.inr (Or.inr ⟨rfl, hroot, hdot⟩)

/-- A path with parts put together that hold no separator. -/
theorem parts_intercalate {body : List (List UInt8)} (hne : body ≠ [])
    (h : ∀ part ∈ body, 47 ∉ part) : parts ([47].intercalate body) = body :=
  List.splitOn_intercalate 47 h hne

/-- Joining a nonempty list behind one part. -/
theorem intercalate_cons {first : List UInt8} {body : List (List UInt8)} (hne : body ≠ []) :
    [47].intercalate (first :: body) = first ++ 47 :: [47].intercalate body := by
  obtain ⟨second, rest, rfl⟩ := List.exists_cons_of_ne_nil hne
  rw [List.intercalate_cons_cons]
  simp

/-- A joined path begins with its first part. -/
theorem head?_intercalate_cons (c : UInt8) (chars : List UInt8) (rest : List (List UInt8)) :
    ([47].intercalate ((c :: chars) :: rest)).head? = some c := by
  cases rest with
  | nil => simp
  | cons second rest => simp [List.intercalate_cons_cons]

/-- A path whose first part is empty is empty or starts at the root. -/
theorem eq_nil_of_head_parts {p : PathBuf} (h : p.parts.head? = some [])
    (hroot : p.head? ≠ some 47) : p = [] := by
  cases p with
  | nil => rfl
  | cons b p =>
    have hsep : b ≠ 47 := by simpa using hroot
    unfold parts at h
    rw [List.splitOn_cons_eq_if_modifyHead, if_neg (by simpa using hsep)] at h
    cases hsplit : p.splitOn 47 <;> simp [hsplit] at h

/-- The components of a path with part of its body. -/
theorem components_withBody {p : PathBuf} {b : List (List UInt8)} (hb : b <+: p.body) :
    (p.withBody b).components = p.lead ++ bodyComponents b := by
  have hsep : ∀ part ∈ b, 47 ∉ part := fun part h => not_sep_mem_body (hb.subset h)
  rcases lead_cases p with hlead | hlead | ⟨hlead, hroot, hdot⟩
  · unfold withBody
    rw [hlead]
    by_cases hnil : b = []
    · subst hnil
      rfl
    · have hparts : parts (47 :: [47].intercalate b) = [] :: b := by
        have hjoin := parts_intercalate (List.cons_ne_nil [] b) (by simpa using hsep)
        rwa [intercalate_cons hnil, List.nil_append] at hjoin
      have hlead' : lead (47 :: [47].intercalate b) = [.rootDir] := by simp [lead]
      rw [components_eq, hlead', body, hlead', if_neg (by simp), hparts, List.tail_cons]
  · unfold withBody
    rw [hlead]
    by_cases hnil : b = []
    · subst hnil
      rfl
    · have hparts : parts (46 :: 47 :: [47].intercalate b) = [46] :: b := by
        have hjoin := parts_intercalate (List.cons_ne_nil [46] b) (by simpa using hsep)
        rwa [intercalate_cons hnil, List.singleton_append] at hjoin
      have hlead' : lead (46 :: 47 :: [47].intercalate b) = [.curDir] := by
        simp [lead, hparts]
      simp only [if_neg hnil]
      rw [components_eq, hlead', body, hlead', if_neg (by simp), hparts, List.tail_cons]
  · unfold withBody
    rw [hlead]
    by_cases hnil : b = []
    · subst hnil
      rfl
    · have hparts := parts_intercalate hnil hsep
      have hbody : p.body = p.parts := by rw [body, if_pos hlead]
      obtain ⟨first, rest, rfl⟩ := List.exists_cons_of_ne_nil hnil
      have hfirst : p.parts.head? = some first := by
        rw [← hbody]
        obtain ⟨more, hmore⟩ := hb
        rw [← hmore]
        rfl
      have hlead' : lead ([47].intercalate (first :: rest)) = [] := by
        unfold lead
        rw [if_neg, if_neg]
        · rw [hparts, List.head?_cons, ← hfirst]
          exact hdot
        · intro hsame
          cases first with
          | cons c chars =>
            have hc : c = 47 := by
              rw [head?_intercalate_cons] at hsame
              exact Option.some.inj hsame
            exact hsep (c :: chars) (by simp) (by simp [hc])
          | nil =>
            obtain rfl := eq_nil_of_head_parts hfirst hroot
            have hrest : rest = [] := by
              rw [hbody] at hb
              have hone : parts [] = [[]] := by simp [parts]
              rw [hone] at hb
              have hlength := hb.length_le
              simpa using hlength
            rw [hrest, List.intercalate_singleton] at hsame
            simp at hsame
      rw [components_eq, hlead', body, hlead', if_pos rfl, hparts]

/-- **The parent** of a path drops the last component. -/
theorem components_of_parent {p q : PathBuf} (h : p.parent = some q) :
    q.components = p.components.dropLast := by
  unfold parent at h
  rcases hbody : bodyComponents p.body with _ | ⟨c, cs⟩
  · have hcomponents : p.components = p.lead := by
      rw [components_eq, hbody, List.append_nil]
    rw [hcomponents] at h ⊢
    rcases lead_cases p with hlead | hlead | ⟨hlead, -, -⟩
    · simp [hlead] at h
    · rw [hlead] at h ⊢
      obtain rfl : [] = q := by simpa using h
      rfl
    · simp [hlead] at h
  · have hne : bodyComponents p.body ≠ [] := by simp [hbody]
    have hget : p.components.getLast? = some ((bodyComponents p.body).getLast hne) := by
      rw [components_eq, List.getLast?_append_of_ne_nil _ hne, List.getLast?_eq_some_getLast hne]
    have hkind := ne_lead_of_mem_bodyComponents (List.getLast_mem hne)
    rw [hget] at h
    have hq : p.withBody ((p.body.rdropWhile fun part =>
        decide (IsSkipped part)).dropLast.rdropWhile fun part => decide (IsSkipped part)) = q := by
      split at h
      · simp_all
      · simp_all
      · simp_all
      · exact Option.some.inj h
    have hinitial : (p.body.rdropWhile fun part => decide (IsSkipped part)).dropLast.rdropWhile
        (fun part => decide (IsSkipped part)) <+: p.body :=
      (List.rdropWhile_prefix _ _).trans
        ((List.dropLast_prefix _).trans (List.rdropWhile_prefix _ _))
    rw [← hq, components_withBody hinitial, bodyComponents_parent, components_eq,
      List.dropLast_append_of_ne_nil hne]

end Parent

end PathBuf

end RdWeb.Clipboard
