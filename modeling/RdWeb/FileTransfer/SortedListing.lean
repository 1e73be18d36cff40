import RdWeb.Lib.OrderedMap
import RdWeb.Lib.UnstableSort
import RdWeb.Lib.Utf16
import Mathlib.Data.List.Lex

/-!
# Sorting a directory listing

`_sortList` of `file_model.dart` takes a listing apart into directories and files, sorts both and
puts them together; the listing is replaced by the result. A drive is neither a directory nor a
file, and only the sort by name asks for it.
-/

namespace RdWeb.FileTransfer.SortedListing

open UnstableSort (byKey)

/-- `Entry`, whose numbers are 64-bit integers. -/
structure Entry where
  entryType : ℤ
  modifiedTime : ℤ
  name : String
  path : String
  size : ℤ
  deriving DecidableEq

namespace Entry

/-- A file. -/
def isFile (e : Entry) : Bool := 3 < e.entryType

/-- A directory. -/
def isDirectory (e : Entry) : Bool := e.entryType < 3

/-- A drive. -/
def isDrive (e : Entry) : Bool := e.entryType = 3

/-- `lastModified`: `DateTime.fromMillisecondsSinceEpoch` throws outside of its range. -/
def lastModified (e : Entry) : Option ℤ :=
  let milliseconds := (e.modifiedTime * 1000).bmod (2 ^ 64)
  if milliseconds.natAbs ≤ 8640000000000000 then some milliseconds else none

end Entry

/-- The orders one may choose. -/
inductive SortBy where
  | name
  | type
  | modified
  | size
  deriving DecidableEq

/-- `_PathStat`. -/
structure PathStat where
  path : String
  dateTime : ℤ

/-- What the library of Dart does: `List.sort`, and the letters of `toLowerCase`. -/
structure Library where
  list : UnstableSort
  toLowerCase : String → String

variable (L : Library)

/-- The order of `compareTo` on strings, by code units. -/
def codeUnits (s : String) : List ℕ := Utf16.encode s.toList

/-- `name.toLowerCase()`, as it is compared. -/
def nameKey (e : Entry) : List ℕ := codeUnits (L.toLowerCase e.name)

/-- `name.toLowerCase().split('.').last`, as it is compared. -/
def typeKey (e : Entry) : List ℕ :=
  codeUnits (.ofList (((L.toLowerCase e.name).toList.splitOn '.').getLast?.getD []))

/-- `indexWhere`. -/
def indexWhere {α : Type} (p : α → Bool) (l : List α) : ℤ :=
  match l.findIdx? p with
  | some i => i
  | none => -1

/-- Directories before files; each part is reversed where the order is not ascending. -/
def dirsThenFiles (ascending : Bool) (dirs files : List Entry) : List Entry :=
  if ascending then dirs ++ files else dirs.reverse ++ files.reverse

/-- The sort by name of a part of a listing. -/
def sortByName (entries : List Entry) : List Entry :=
  L.list.sort (byKey (nameKey L)) entries

/-- The listing by `lastModified`; `none` where it throws. -/
def sortByModified (list : List Entry) : Option (List Entry) :=
  (list.mapM fun e : Entry => e.lastModified.map (PathStat.mk e.name)).map fun pathStat =>
    let pathStat := L.list.sort (fun b a => byKey PathStat.dateTime a b) pathStat
    let index (e : Entry) : ℤ := indexWhere (fun stat => decide (stat.path = e.name)) pathStat
    L.list.sort (byKey index) list

/-- The files by the sizes of the whole listing. -/
def sortBySize (list files : List Entry) : List Entry :=
  let sizeMap : OrderedMap String ℤ := list.foldl (fun map e => map.set e.name e.size) .empty
  let sizeMapList := L.list.sort (fun b a => byKey Prod.snd a b) sizeMap.entries
  let index (e : Entry) : ℤ := indexWhere (fun entry => decide (entry.1 = e.name)) sizeMapList
  L.list.sort (byKey index) files

/-- `_sortList`; `none` where it throws. -/
def sortList (list : List Entry) (sortType : SortBy) (ascending : Bool) : Option (List Entry) :=
  let files := list.filter Entry.isFile
  match sortType with
  | .name =>
    let dirs := list.filter fun e => e.isDirectory || e.isDrive
    some (dirsThenFiles ascending (sortByName L dirs) (sortByName L files))
  | .modified => (sortByModified L list).map fun l => if ascending then l else l.reverse
  | .type =>
    let dirs := list.filter Entry.isDirectory
    let files := L.list.sort (byKey (typeKey L)) files
    some (dirsThenFiles ascending (sortByName L dirs) files)
  | .size =>
    let dirs := list.filter Entry.isDirectory
    some (dirsThenFiles ascending (sortByName L dirs) (sortBySize L list files))

/-- `changeSortStyle` of a directory: where `_sortList` throws, the entries stay. -/
def changeSortStyle (entries : List Entry) (change : SortBy × Bool) : List Entry :=
  (sortList L entries change.1 change.2).getD entries

/-! ## What a sort is to do -/

/-- In ascending order the one may stand before the other: by the key, and by the time and the
size from the newest and the largest one. -/
def Before : SortBy → Entry → Entry → Prop
  | .name, a, b => nameKey L a ≤ nameKey L b
  | .type, a, b => typeKey L a ≤ typeKey L b
  | .modified, a, b => ∀ s ∈ a.lastModified, ∀ t ∈ b.lastModified, t ≤ s
  | .size, a, b => b.size ≤ a.size

/-- The listing is sorted, and nothing is lost. -/
structure SortsWell (list : List Entry) (sortType : SortBy) (ascending : Bool)
    (result : List Entry) : Prop where
  perm : result.Perm list
  /-- directories and drives come before all files -/
  grouped : sortType ≠ .modified → ∃ others files, result = others ++ files ∧
    (∀ e ∈ others, e.isFile = false) ∧ ∀ e ∈ files, e.isFile = true
  /-- the files are ordered, or the whole listing -/
  ordered : (if sortType = .modified then result else result.filter Entry.isFile).Pairwise
    fun a b => if ascending then Before L sortType a b else Before L sortType b a

/-- The sort finds no drive that it does not ask for, and no time that Dart has no date for. -/
structure Sortable (list : List Entry) (sortType : SortBy) : Prop where
  drives : sortType = .type ∨ sortType = .size → ∀ e ∈ list, e.isDrive = false
  dates : sortType = .modified → ∀ e ∈ list, e.lastModified.isSome = true

/-! ## Directories and files -/

/-- A file is what is neither a directory nor a drive. -/
theorem isFile_eq (e : Entry) : e.isFile = !(e.isDirectory || e.isDrive) := by
  rw [Bool.eq_iff_iff]
  simp only [Entry.isFile, Entry.isDirectory, Entry.isDrive, decide_eq_true_eq,
    Bool.not_eq_true', Bool.or_eq_false_iff, decide_eq_false_iff_not]
  omega

/-- Nothing else is in a listing. -/
theorem parts_perm (list : List Entry) :
    ((list.filter fun e => e.isDirectory || e.isDrive) ++ list.filter Entry.isFile).Perm list := by
  have hfiles : list.filter Entry.isFile =
      list.filter fun e => !(e.isDirectory || e.isDrive) := by
    congr 1
    exact funext isFile_eq
  rw [hfiles]
  exact List.filter_append_perm _ list

/-- Without drives the directories are all that is not a file. -/
theorem directories_eq {list : List Entry} (h : ∀ e ∈ list, e.isDrive = false) :
    list.filter Entry.isDirectory = list.filter fun e => e.isDirectory || e.isDrive :=
  List.filter_congr fun e he => by rw [h e he, Bool.or_false]

/-- A directory or a drive is no file. -/
theorem not_isFile_of_directory {e : Entry} (h : (e.isDirectory || e.isDrive) = true) :
    e.isFile = false := by
  rw [isFile_eq, h]
  rfl

variable {L} {list : List Entry} {sortType : SortBy}

/-- Two parts make a sorted listing. -/
theorem sortsWell_dirsThenFiles {dirs files : List Entry} (hperm : (dirs ++ files).Perm list)
    (hdirs : ∀ e ∈ dirs, e.isFile = false) (hfiles : ∀ e ∈ files, e.isFile = true)
    (hordered : files.Pairwise (Before L sortType)) (hsort : sortType ≠ .modified)
    (ascending : Bool) :
    SortsWell L list sortType ascending (dirsThenFiles ascending dirs files) := by
  have hnone : dirs.filter Entry.isFile = [] :=
    List.filter_eq_nil_iff.mpr fun e he => by rw [hdirs e he]; exact Bool.false_ne_true
  have hall : files.filter Entry.isFile = files := List.filter_eq_self.mpr hfiles
  cases ascending with
  | true =>
    refine ⟨hperm, fun _ => ⟨dirs, files, rfl, hdirs, hfiles⟩, ?_⟩
    rw [if_neg hsort, dirsThenFiles, if_pos rfl, List.filter_append, hnone, hall]
    exact hordered
  | false =>
    refine ⟨?_, fun _ => ⟨dirs.reverse, files.reverse, rfl, ?_, ?_⟩, ?_⟩
    · exact ((List.reverse_perm dirs).append (List.reverse_perm files)).trans hperm
    · exact fun e he => hdirs e (List.mem_reverse.mp he)
    · exact fun e he => hfiles e (List.mem_reverse.mp he)
    · rw [if_neg hsort, dirsThenFiles, if_neg Bool.false_ne_true, List.filter_append,
        List.filter_reverse, List.filter_reverse, hnone, hall]
      exact List.pairwise_reverse.mpr hordered

/-- Sorting by name keeps the entries. -/
theorem sortByName_perm (entries : List Entry) : (sortByName L entries).Perm entries :=
  L.list.perm _ _

/-- The same with the directories sorted by name. -/
theorem sortsWell_parts {files : List Entry} (hperm : files.Perm (list.filter Entry.isFile))
    (hordered : files.Pairwise (Before L sortType)) (hsort : sortType ≠ .modified)
    (ascending : Bool) :
    SortsWell L list sortType ascending (dirsThenFiles ascending
      (sortByName L (list.filter fun e => e.isDirectory || e.isDrive)) files) := by
  refine sortsWell_dirsThenFiles (((sortByName_perm _).append hperm).trans (parts_perm list))
    (fun e he => ?_) (fun e he => ?_) hordered hsort ascending
  · exact not_isFile_of_directory (List.mem_filter.mp ((sortByName_perm _).mem_iff.mp he)).2
  · exact (List.mem_filter.mp (hperm.mem_iff.mp he)).2

/-! ## The order by an index table -/

/-- The index that is looked for is that of an entry with the property. -/
theorem indexWhere_eq {α : Type} {p : α → Bool} {l : List α} {x : α} (hx : x ∈ l)
    (hp : p x = true) :
    ∃ (i : ℕ) (y : α), indexWhere p l = i ∧ l[i]? = some y ∧ p y = true := by
  have hsome : (l.findIdx? p).isSome = true := by
    rw [List.findIdx?_isSome]
    exact List.any_eq_true.mpr ⟨x, hx, hp⟩
  obtain ⟨i, hi⟩ := Option.isSome_iff_exists.mp hsome
  obtain ⟨hlt, hpi, -⟩ := List.findIdx?_eq_some_iff_getElem.mp hi
  exact ⟨i, l[i], by rw [indexWhere, hi], List.getElem?_eq_getElem hlt, hpi⟩

/-- Sorting by the dates of the listing sorts by date. -/
theorem pairwise_modified (hdistinct : (list.map Entry.name).Nodup) {pathStat : List PathStat}
    {date : Entry → ℤ} (hdate : ∀ e ∈ list, e.lastModified = some (date e))
    (hstat : pathStat = list.map fun e => PathStat.mk e.name (date e)) {sorted : List PathStat}
    (hsorted : sorted = L.list.sort (fun b a => byKey PathStat.dateTime a b) pathStat) :
    (L.list.sort (byKey fun e =>
      indexWhere (fun stat => decide (stat.path = e.name)) sorted) list).Pairwise
        (Before L .modified) := by
  have hperm : sorted.Perm pathStat := hsorted ▸ L.list.perm _ _
  have hnames : pathStat.map PathStat.path = list.map Entry.name := by
    rw [hstat, List.map_map]
    rfl
  have hmem (e : Entry) (he : e ∈ list) : PathStat.mk e.name (date e) ∈ sorted :=
    hperm.mem_iff.mpr (hstat ▸ List.mem_map.mpr ⟨e, he, rfl⟩)
  have hnodup : (sorted.map PathStat.path).Nodup :=
    (hperm.map PathStat.path).nodup_iff.mpr (hnames ▸ hdistinct)
  have hreference : sorted.Pairwise fun x y => y.dateTime ≤ x.dateTime :=
    hsorted ▸ L.list.pairwise_key_down PathStat.dateTime pathStat
  have hpairwise := L.list.pairwise_index (fun x => le_refl x.dateTime) hreference hnodup
    Entry.name list fun a ha => by
      obtain ⟨i, x, hi, hx, hp⟩ := indexWhere_eq
        (p := fun stat : PathStat => decide (stat.path = a.name)) (hmem a ha) (decide_eq_true rfl)
      exact ⟨i, x, hi, hx, of_decide_eq_true hp⟩
  refine hpairwise.imp_of_mem fun {a b} ha hb h s hs t ht => ?_
  have ha := L.list.mem_sort.mp ha
  have hb := L.list.mem_sort.mp hb
  have hle := h _ (hmem a ha) _ (hmem b hb) rfl rfl
  obtain rfl := Option.some.inj ((hdate a ha).symm.trans hs)
  obtain rfl := Option.some.inj ((hdate b hb).symm.trans ht)
  exact hle

/-- With different names the map has the entries of the listing. -/
theorem sizeMap_entries (list : List Entry) :
    ∀ map : OrderedMap String ℤ, (map.keys ++ list.map Entry.name).Nodup →
      (list.foldl (fun map e => map.set e.name e.size) map).entries =
        map.entries ++ list.map fun e => (e.name, e.size) := by
  induction list with
  | nil =>
    intro map _
    simp
  | cons e rest ih =>
    intro map hnodup
    have hnew : e.name ∉ map.keys := fun hmem =>
      (List.disjoint_of_nodup_append hnodup) hmem (List.mem_map.mpr ⟨e, List.mem_cons_self, rfl⟩)
    have hentries := OrderedMap.entries_set_of_not_mem hnew e.size
    have hkeys : (map.set e.name e.size).keys = map.keys ++ [e.name] := by
      rw [OrderedMap.keys, hentries, List.map_append]
      rfl
    rw [List.foldl_cons, ih, hentries, List.map_cons, List.append_assoc]
    · rfl
    · rw [hkeys, List.append_assoc]
      exact hnodup

/-- Sorting by size sorts by size. -/
theorem pairwise_size (hdistinct : (list.map Entry.name).Nodup) {files : List Entry}
    (hfiles : ∀ e ∈ files, e ∈ list) :
    (sortBySize L list files).Pairwise (Before L .size) := by
  have hmap := sizeMap_entries list .empty hdistinct
  rw [sortBySize, hmap]
  generalize hsorted : L.list.sort (fun b a : String × ℤ => byKey Prod.snd a b)
    (OrderedMap.empty.entries ++ list.map fun e => (e.name, e.size)) = sorted
  have hperm : sorted.Perm (list.map fun e => (e.name, e.size)) := hsorted ▸ L.list.perm _ _
  have hnodup : (sorted.map Prod.fst).Nodup := by
    refine (hperm.map Prod.fst).nodup_iff.mpr ?_
    rw [List.map_map]
    exact hdistinct
  have hmem (e : Entry) (he : e ∈ list) : (e.name, e.size) ∈ sorted :=
    hperm.mem_iff.mpr (List.mem_map.mpr ⟨e, he, rfl⟩)
  have hreference : sorted.Pairwise fun x y => y.2 ≤ x.2 :=
    hsorted ▸ L.list.pairwise_key_down Prod.snd _
  have hpairwise := L.list.pairwise_index (fun x => le_refl x.2) hreference hnodup
    Entry.name files fun a ha => by
      obtain ⟨i, x, hi, hx, hp⟩ := indexWhere_eq
        (p := fun entry : String × ℤ => decide (entry.1 = a.name)) (hmem a (hfiles a ha))
        (decide_eq_true rfl)
      exact ⟨i, x, hi, hx, of_decide_eq_true hp⟩
  refine hpairwise.imp_of_mem fun {a b} ha hb h => ?_
  have ha := hfiles a (L.list.mem_sort.mp ha)
  have hb := hfiles b (L.list.mem_sort.mp hb)
  exact h _ (hmem a ha) _ (hmem b hb) rfl rfl

/-! ## One sort -/

/-- The dates of a listing whose entries all have one. -/
theorem mapM_lastModified {date : Entry → ℤ} :
    ∀ {list : List Entry}, (∀ e ∈ list, e.lastModified = some (date e)) →
      (list.mapM fun e : Entry => e.lastModified.map (PathStat.mk e.name)) =
        some (list.map fun e => PathStat.mk e.name (date e))
  | [], _ => rfl
  | e :: rest, h => by
    have hrest := mapM_lastModified fun f hf => h f (List.mem_cons_of_mem e hf)
    rw [List.mapM_cons, h e List.mem_cons_self, hrest]
    rfl

/-- Where a time has no date, nothing is sorted. -/
theorem dates_of_sortByModified {result : List Entry} (h : sortByModified L list = some result) :
    ∀ e ∈ list, e.lastModified.isSome = true := by
  obtain ⟨pathStat, hstat, -⟩ := Option.map_eq_some_iff.mp h
  clear h
  induction list generalizing pathStat with
  | nil => exact fun e he => nomatch he
  | cons e rest ih =>
    simp only [List.mapM_cons, Option.bind_eq_bind, Option.bind_eq_some_iff] at hstat
    obtain ⟨stat, hfirst, stats, hrest, -⟩ := hstat
    obtain ⟨t, ht, -⟩ := Option.map_eq_some_iff.mp hfirst
    intro f hf
    rcases List.mem_cons.mp hf with rfl | hf
    · rw [ht]
      rfl
    · exact ih stats hrest f hf

/-- Where all entries have dates, sorting by date succeeds, keeps the entries and sorts them. -/
theorem sortByModified_spec (hdistinct : (list.map Entry.name).Nodup)
    (hdates : ∀ e ∈ list, e.lastModified.isSome = true) :
    ∃ result, sortByModified L list = some result ∧ result.Perm list ∧
      result.Pairwise (Before L .modified) := by
  have hdate (e : Entry) (he : e ∈ list) : e.lastModified = some (e.lastModified.getD 0) := by
    obtain ⟨t, ht⟩ := Option.isSome_iff_exists.mp (hdates e he)
    rw [ht]
    rfl
  refine ⟨_, by rw [sortByModified, mapM_lastModified hdate, Option.map_some], ?_, ?_⟩
  · exact L.list.perm _ _
  · exact pairwise_modified hdistinct hdate rfl rfl

/-- The two groups together are the entries. -/
theorem mem_dirsThenFiles {ascending : Bool} {dirs files : List Entry} {e : Entry} :
    e ∈ dirsThenFiles ascending dirs files ↔ e ∈ dirs ∨ e ∈ files := by
  unfold dirsThenFiles
  split_ifs
  · exact List.mem_append
  · rw [List.mem_append, List.mem_reverse, List.mem_reverse]

/-- No drive comes out of a sort that takes directories and files only. -/
theorem not_drive_of_mem {ascending : Bool} {files : List Entry} {e : Entry}
    (hfiles : files.Perm (list.filter Entry.isFile))
    (h : e ∈ dirsThenFiles ascending (sortByName L (list.filter Entry.isDirectory)) files) :
    e ∈ list ∧ e.isDrive = false := by
  rcases mem_dirsThenFiles.mp h with hdir | hfile
  · obtain ⟨hmem, hdirectory⟩ := List.mem_filter.mp ((sortByName_perm _).mem_iff.mp hdir)
    refine ⟨hmem, decide_eq_false fun hdrive => ?_⟩
    have hlt : e.entryType < 3 := of_decide_eq_true hdirectory
    omega
  · obtain ⟨hmem, hfile⟩ := List.mem_filter.mp (hfiles.mem_iff.mp hfile)
    refine ⟨hmem, decide_eq_false fun hdrive => ?_⟩
    have hlt : 3 < e.entryType := of_decide_eq_true hfile
    omega

/-- Sorting by size keeps the files. -/
theorem sortBySize_perm (list files : List Entry) : (sortBySize L list files).Perm files :=
  L.list.perm _ _

/-- A sort by type or size has the directories and the files only. -/
theorem not_drive_of_sortList {ascending : Bool} {result : List Entry}
    (hsort : sortType = .type ∨ sortType = .size)
    (h : sortList L list sortType ascending = some result) :
    ∀ e ∈ result, e ∈ list ∧ e.isDrive = false := by
  rcases hsort with rfl | rfl
  · cases h
    exact fun e => not_drive_of_mem (L.list.perm _ _)
  · cases h
    exact fun e => not_drive_of_mem (sortBySize_perm _ _)

/-- **One sort.** It sorts and keeps everything exactly under the condition. -/
theorem sortsWell_iff (hdistinct : (list.map Entry.name).Nodup) (ascending : Bool) :
    (∃ result, sortList L list sortType ascending = some result ∧
      SortsWell L list sortType ascending result) ↔ Sortable list sortType := by
  constructor
  · rintro ⟨result, hresult, hwell⟩
    refine ⟨fun hsort e he => ?_, ?_⟩
    · exact (not_drive_of_sortList hsort hresult e (hwell.perm.mem_iff.mpr he)).2
    · rintro rfl
      obtain ⟨sorted, hsorted, -⟩ := Option.map_eq_some_iff.mp hresult
      exact dates_of_sortByModified hsorted
  · intro hsortable
    cases sortType with
    | name =>
      have hordered : (sortByName L (list.filter Entry.isFile)).Pairwise (Before L .name) :=
        L.list.pairwise_key (nameKey L) _
      exact ⟨_, rfl, sortsWell_parts (sortByName_perm _) hordered SortBy.noConfusion ascending⟩
    | type =>
      have hordered :
          (L.list.sort (byKey (typeKey L)) (list.filter Entry.isFile)).Pairwise
            (Before L .type) :=
        L.list.pairwise_key (typeKey L) _
      rw [sortList, directories_eq (hsortable.drives (.inl rfl))]
      exact ⟨_, rfl, sortsWell_parts (L.list.perm _ _) hordered SortBy.noConfusion ascending⟩
    | size =>
      rw [sortList, directories_eq (hsortable.drives (.inr rfl))]
      exact ⟨_, rfl, sortsWell_parts (sortBySize_perm _ _)
        (pairwise_size hdistinct fun e he => (List.mem_filter.mp he).1)
        SortBy.noConfusion ascending⟩
    | modified =>
      obtain ⟨sorted, hsorted, hperm, hordered⟩ :=
        sortByModified_spec (L := L) hdistinct (hsortable.dates rfl)
      refine ⟨_, by rw [sortList, hsorted, Option.map_some], ?_, fun hne => absurd rfl hne, ?_⟩
      · split_ifs
        · exact hperm
        · exact (List.reverse_perm sorted).trans hperm
      · rw [if_pos rfl]
        cases ascending with
        | true => exact hordered
        | false => exact List.pairwise_reverse.mpr hordered

/-! ## One sort after the other -/

/-- A sort keeps everything, unless it is by type or size and there are drives. -/
theorem changeSortStyle_perm (change : SortBy × Bool)
    (h : (∀ e ∈ list, e.isDrive = false) ∨ change.1 ≠ .type ∧ change.1 ≠ .size) :
    (changeSortStyle L list change).Perm list := by
  obtain ⟨sortType, ascending⟩ := change
  unfold changeSortStyle
  have hparts {files : List Entry} (hfiles : files.Perm (list.filter Entry.isFile)) :
      (dirsThenFiles ascending
        (sortByName L (list.filter fun e => e.isDirectory || e.isDrive)) files).Perm list := by
    have hall := ((sortByName_perm (L := L) _).append hfiles).trans (parts_perm list)
    unfold dirsThenFiles
    split_ifs
    · exact hall
    · exact ((List.reverse_perm _).append (List.reverse_perm _)).trans hall
  cases sortType with
  | name => exact hparts (sortByName_perm _)
  | type =>
    have hnone := h.resolve_right fun hne => hne.1 rfl
    rw [sortList, directories_eq hnone]
    exact hparts (L.list.perm _ _)
  | size =>
    have hnone := h.resolve_right fun hne => hne.2 rfl
    rw [sortList, directories_eq hnone]
    exact hparts (sortBySize_perm _ _)
  | modified =>
    rw [sortList]
    cases hsorted : sortByModified L list with
    | none => exact .refl _
    | some sorted =>
      obtain ⟨pathStat, -, hstat⟩ := Option.map_eq_some_iff.mp hsorted
      have hperm : sorted.Perm list := hstat ▸ L.list.perm _ _
      rw [Option.map_some, Option.getD_some]
      split_ifs
      · exact hperm
      · exact (List.reverse_perm sorted).trans hperm

/-- After a sort by type or size there are no drives. -/
theorem not_drive_of_changeSortStyle {change : SortBy × Bool}
    (hsort : change.1 = .type ∨ change.1 = .size) :
    ∀ e ∈ changeSortStyle L list change, e ∈ list ∧ e.isDrive = false := by
  intro e he
  cases hresult : sortList L list change.1 change.2 with
  | none =>
    rcases hsort with hsort | hsort
    · rw [hsort] at hresult
      cases hresult
    · rw [hsort] at hresult
      cases hresult
  | some result =>
    rw [changeSortStyle, hresult] at he
    exact not_drive_of_sortList hsort hresult e he

/-- Nothing is added by any sort. -/
theorem mem_of_changes (changes : List (SortBy × Bool)) :
    ∀ {list : List Entry}, ∀ e ∈ changes.foldl (changeSortStyle L) list, e ∈ list := by
  induction changes with
  | nil => exact fun e he => he
  | cons change rest ih =>
    intro list e he
    have hmem := ih e he
    by_cases hsort : change.1 = .type ∨ change.1 = .size
    · exact (not_drive_of_changeSortStyle hsort e hmem).1
    · exact (changeSortStyle_perm change (.inr (not_or.mp hsort))).mem_iff.mp hmem

/-- **Sorts one after the other** keep everything exactly if there is no drive or none of them is
by type or size. -/
theorem changes_perm_iff (changes : List (SortBy × Bool)) :
    ∀ {list : List Entry}, (changes.foldl (changeSortStyle L) list).Perm list ↔
      (∀ e ∈ list, e.isDrive = false) ∨ ∀ c ∈ changes, c.1 ≠ .type ∧ c.1 ≠ .size := by
  induction changes with
  | nil => exact ⟨fun _ => .inr fun c hc => (nomatch hc), fun _ => .refl _⟩
  | cons change rest ih =>
    intro list
    rw [List.foldl_cons]
    by_cases hsort : change.1 = .type ∨ change.1 = .size
    · have hnone : ∀ e ∈ changeSortStyle L list change, e.isDrive = false :=
        fun e he => (not_drive_of_changeSortStyle hsort e he).2
      constructor
      · intro hperm
        exact .inl fun e he => hnone e (mem_of_changes rest e (hperm.mem_iff.mpr he))
      · rintro (hdrives | hchanges)
        · have hrest : (rest.foldl (changeSortStyle L) (changeSortStyle L list change)).Perm
              (changeSortStyle L list change) := ih.mpr (.inl hnone)
          exact hrest.trans (changeSortStyle_perm change (.inl hdrives))
        · exact absurd hsort (not_or.mpr (hchanges change List.mem_cons_self))
    · have hperm : (changeSortStyle L list change).Perm list :=
        changeSortStyle_perm change (.inr (not_or.mp hsort))
      have hdrives : (∀ e ∈ changeSortStyle L list change, e.isDrive = false) ↔
          ∀ e ∈ list, e.isDrive = false :=
        forall_congr' fun e => imp_congr_left hperm.mem_iff
      rw [List.forall_mem_cons, ← hdrives, and_iff_right (not_or.mp hsort), ← ih]
      exact ⟨fun h => h.trans hperm.symm, fun h => h.trans hperm⟩

/-! ## The result -/

/-- **Sorting a listing.** Every sort of a listing with different names sorts it and keeps all of
it exactly if it finds nothing that it leaves out, and any sorts one after the other keep all of it
exactly if there is no drive or none of them is by type or size. -/
theorem sortList_keeps_iff (L : Library) (list : List Entry)
    (hdistinct : (list.map Entry.name).Nodup) :
    (∀ sortType ascending, (∃ result, sortList L list sortType ascending = some result ∧
      SortsWell L list sortType ascending result) ↔ Sortable list sortType) ∧
    ∀ changes : List (SortBy × Bool), (changes.foldl (changeSortStyle L) list).Perm list ↔
      (∀ e ∈ list, e.isDrive = false) ∨ ∀ c ∈ changes, c.1 ≠ .type ∧ c.1 ≠ .size :=
  ⟨fun _ ascending => sortsWell_iff hdistinct ascending, fun changes => changes_perm_iff changes⟩

/-- A listing with a drive, as a Windows host sends one. -/
def withDrive : List Entry := [⟨3, 0, "C:", "C:", 0⟩, ⟨4, 1700000000, "a.txt", "a.txt", 12⟩]

/-- A library with letters that are lower-cased already. -/
def demoLibrary : Library := ⟨.merge, id⟩

/-- A directory with a drive among its entries is sorted well by name. -/
theorem sortList_keeps_iff_withDrive :
    ∃ result, sortList demoLibrary withDrive .name false = some result ∧
      SortsWell demoLibrary withDrive .name false result :=
  ((sortList_keeps_iff demoLibrary withDrive (by decide)).1 .name false).mpr
    ⟨fun h => h.elim (fun h => nomatch h) (fun h => nomatch h), fun h => nomatch h⟩

/-- Sorted by type, the drive is gone. -/
theorem not_sortList_keeps_drive :
    ¬ ∀ (L : Library) list sortType ascending, (list.map Entry.name).Nodup →
      ∃ result, sortList L list sortType ascending = some result ∧
        SortsWell L list sortType ascending result := by
  intro hall
  obtain ⟨result, hresult, hwell⟩ := hall demoLibrary withDrive .type true (by decide)
  have hdrive : (⟨3, 0, "C:", "C:", 0⟩ : Entry) ∈ result :=
    hwell.perm.mem_iff.mpr List.mem_cons_self
  exact absurd (not_drive_of_sortList (.inl rfl) hresult _ hdrive).2 (by decide)

end RdWeb.FileTransfer.SortedListing
