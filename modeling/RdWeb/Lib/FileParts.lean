import Mathlib.Data.List.Basic
import Mathlib.Tactic.SplitIfs

/-!
# Parts of a file

A file is sent in parts and put together by writing each at its offset. Its first bytes, the
header, may be written over while it is read, so a part is compared with the file behind the
header only. What such parts put together and the header read last make the file.
-/

namespace FileParts

variable {α : Type*}

/-- Writing data at an offset; a gap before it is filled up. -/
def writeAt [Inhabited α] (file : List α) (offset : ℕ) (data : List α) : List α :=
  file.take offset ++ List.replicate (offset - file.length) default ++ data ++
    file.drop (offset + data.length)

/-- The data is what the file has at this offset, but for the first bytes of the file. -/
structure PartOf (header offset : ℕ) (data file : List α) : Prop where
  le : offset + data.length ≤ file.length
  eq : ∀ j < data.length, header ≤ offset + j → data[j]? = file[offset + j]?

variable {header offset : ℕ} {data data' file file' : List α}

/-- A file is a part of itself, from its start. -/
theorem partOf_refl (header : ℕ) (file : List α) : PartOf header 0 file file :=
  ⟨by omega, fun j _ _ => by rw [Nat.zero_add]⟩

/-- The empty file is a part at every offset inside the file. -/
theorem partOf_nil (header : ℕ) (h : offset ≤ file.length) : PartOf header offset [] file :=
  ⟨h, fun _ hj => absurd hj (Nat.not_lt_zero _)⟩

/-- Parts of a file are parts of what it becomes. -/
theorem PartOf.trans (h : PartOf header offset data file) (hfile : PartOf header 0 file file') :
    PartOf header offset data file' := by
  have hle := h.le
  have hle' := hfile.le
  refine ⟨by omega, fun j hj hheader => ?_⟩
  rw [h.eq j hj hheader, hfile.eq (offset + j) (by omega) (by omega), Nat.zero_add]

/-- A part and the part behind it make one part. -/
theorem PartOf.append (h : PartOf header offset data file)
    (h' : PartOf header (offset + data.length) data' file) :
    PartOf header offset (data ++ data') file := by
  refine ⟨by rw [List.length_append]; have := h'.le; omega, fun j hj hheader => ?_⟩
  rcases Nat.lt_or_ge j data.length with hlt | hge
  · rw [List.getElem?_append_left hlt, h.eq j hlt hheader]
  · rw [List.length_append] at hj
    rw [List.getElem?_append_right hge, h'.eq (j - data.length) (by omega) (by omega)]
    congr 1
    omega

/-- What is read from a file is a part of it. -/
theorem partOf_read (header : ℕ) {n : ℕ} (h : offset + n ≤ file.length) :
    PartOf header offset ((file.drop offset).take n) file := by
  have hlength : ((file.drop offset).take n).length = n := by
    rw [List.length_take, List.length_drop]
    omega
  refine ⟨by omega, fun j hj _ => ?_⟩
  rw [List.getElem?_take_of_lt (by omega), List.getElem?_drop]

/-- Appending keeps the file as a part. -/
theorem partOf_append (header : ℕ) (file more : List α) :
    PartOf header 0 file (file ++ more) := by
  refine ⟨by rw [List.length_append]; omega, fun j hj _ => ?_⟩
  rw [Nat.zero_add, List.getElem?_append_left hj]

/-- Writing over the header keeps the file as a part. -/
theorem partOf_set {i : ℕ} (hi : i < header) (file : List α) (b : α) :
    PartOf header 0 file (file.set i b) := by
  refine ⟨by rw [List.length_set]; omega, fun j _ hheader => ?_⟩
  rw [Nat.zero_add, List.getElem?_set_ne (by omega)]

variable [Inhabited α]

/-- A write inside the file makes it no shorter, and reaches to its own end. -/
theorem length_writeAt (h : offset ≤ file.length) :
    (writeAt file offset data).length = max file.length (offset + data.length) := by
  simp only [writeAt, List.length_append, List.length_take, List.length_replicate,
    List.length_drop]
  omega

/-- After a write, a place holds the new data where the write covers it, else what it held. -/
theorem getElem?_writeAt (h : offset ≤ file.length) (i : ℕ) :
    (writeAt file offset data)[i]? =
      if offset ≤ i ∧ i < offset + data.length then data[i - offset]? else file[i]? := by
  have hgap : offset - file.length = 0 := by omega
  have htake : (file.take offset).length = offset := List.length_take_of_le h
  rw [writeAt, hgap, List.replicate_zero, List.append_nil, List.append_assoc]
  split_ifs with hin
  · rw [List.getElem?_append_right (by omega), htake, List.getElem?_append_left (by omega)]
  · rcases Nat.lt_or_ge i offset with hlt | hge
    · rw [List.getElem?_append_left (by omega), List.getElem?_take_of_lt hlt]
    · rw [List.getElem?_append_right (by omega), htake, List.getElem?_append_right (by omega),
        List.getElem?_drop]
      congr 1
      omega

/-- Parts put together are a part, where there is no gap before the last one. -/
theorem PartOf.writeAt {sent : List α} (hsent : PartOf header 0 sent file)
    (h : PartOf header offset data file) (hgap : offset ≤ sent.length) :
    PartOf header 0 (writeAt sent offset data) file := by
  have hle := hsent.le
  have hle' := h.le
  refine ⟨by rw [length_writeAt hgap]; omega, fun i hi hheader => ?_⟩
  rw [length_writeAt hgap] at hi
  rw [getElem?_writeAt hgap, Nat.zero_add]
  split_ifs with hin
  · rw [h.eq (i - offset) (by omega) (by omega)]
    congr 1
    omega
  · rw [hsent.eq i (by omega) hheader, Nat.zero_add]

/-- The header written over parts as long as the file makes the file. -/
theorem PartOf.writeAt_header {sent : List α} (hsent : PartOf header 0 sent file)
    (hlength : sent.length = file.length) : FileParts.writeAt sent 0 (file.take header) = file := by
  refine List.ext_getElem? fun i => ?_
  rw [getElem?_writeAt (Nat.zero_le _), List.length_take]
  split_ifs with hin
  · rw [Nat.sub_zero, List.getElem?_take_of_lt (by omega)]
  · rcases Nat.lt_or_ge i sent.length with hlt | hge
    · rw [hsent.eq i hlt (by omega), Nat.zero_add]
    · rw [List.getElem?_eq_none hge, List.getElem?_eq_none (by omega)]

end FileParts
