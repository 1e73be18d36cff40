import Mathlib.Algebra.Order.Ring.Int
import RdWeb.FileTransfer.FolderZip

/-!
# The two zips of a folder

When the zip that is streamed and the zip that is built in memory have the same entries, one
for each listed file. The streamed zip has an entry for each file number of a block, in the
order of the numbers; the other one has an entry for each name of the listing.
-/

namespace RdWeb.FileTransfer

/-- The name the listing has for a file number, empty where it has none. -/
def nameAt (files : List FileEntry) (n : ℤ) : String := ((at? files n).map (·.name)).getD ""

/-- The entry of a file number with the bytes received for it. -/
def entryOf (root : String) (files : List FileEntry) (parts : List (ℤ × List UInt8)) (n : ℤ) :
    String × List UInt8 :=
  (zipEntryPath root (nameAt files n), contentsOf parts n)

/-! ## The streamed zip -/

namespace FolderZipStreamer

variable {s : FolderZipStreamer} {files : List FileEntry}

/-- Ending an entry keeps the root. -/
@[simp] theorem root_finishCurrentEntry : s.finishCurrentEntry.root = s.root := by
  unfold finishCurrentEntry
  split <;> rfl

/-- Starting an entry with a name ends the one before it. -/
theorem startEntry_eq (n : ℤ) : s.startEntry n files =
    if nameAt files n = "" then none
    else some { s with current := some (n, zipEntryPath s.root (nameAt files n), []) } := by
  unfold startEntry nameAt
  cases at? files n <;> rfl

/-- A block with another file number than the current one. -/
theorem appendBlock_new {n : ℤ} (hnew : s.current.map Prod.fst ≠ some n) (bytes : List UInt8) :
    s.appendBlock n bytes files =
      if nameAt files n = "" then (s.finishCurrentEntry, false)
      else ({ s.finishCurrentEntry with
        current := some (n, zipEntryPath s.root (nameAt files n), bytes) }, true) := by
  rw [appendBlock, if_neg hnew, startEntry_eq]
  split_ifs
  · rfl
  · simp [push]

/-- The entries of the blocks received, the last one still open. -/
def Wrote (s : FolderZipStreamer) (files : List FileEntry) (parts : List (ℤ × List UInt8)) :
    Prop :=
  ∃ earlier last, (earlier ++ [last]).Pairwise (· < ·) ∧
    (∀ n, n ∈ earlier ++ [last] ↔ n ∈ parts.map Prod.fst) ∧
    s.zip = earlier.map (entryOf s.root files parts) ∧
    s.current = some (last, entryOf s.root files parts last)

/-- A part of another file does not change an entry. -/
theorem map_entryOf_append {root : String} {parts : List (ℤ × List UInt8)} {nums : List ℤ} {m : ℤ}
    (hm : m ∉ nums) (bytes : List UInt8) :
    nums.map (entryOf root files (parts ++ [(m, bytes)])) =
      nums.map (entryOf root files parts) := by
  refine List.map_congr_left fun n hn => ?_
  have hne : m ≠ n := fun h => hm (h ▸ hn)
  rw [entryOf, contentsOf_append, if_neg hne, entryOf]

/-- The first block starts the first entry. -/
theorem wrote_first {root : String} {n : ℤ} (hname : nameAt files n ≠ "") (bytes : List UInt8) :
    ∃ s', ({ root } : FolderZipStreamer).appendBlock n bytes files = (s', true) ∧
      s'.root = root ∧ s'.Wrote files [(n, bytes)] := by
  rw [appendBlock_new (by simp), if_neg hname]
  refine ⟨_, rfl, rfl, [], n, by simp, by simp, rfl, ?_⟩
  simp [entryOf, contentsOf]

/-- A block of the current file or of one with a higher number. -/
theorem Wrote.appendBlock {parts : List (ℤ × List UInt8)} (h : s.Wrote files parts) {n : ℤ}
    (hle : ∀ p ∈ parts, p.1 ≤ n) (hname : nameAt files n ≠ "") (bytes : List UInt8) :
    ∃ s', s.appendBlock n bytes files = (s', true) ∧ s'.root = s.root ∧
      s'.Wrote files (parts ++ [(n, bytes)]) := by
  obtain ⟨earlier, last, hsorted, hnums, hzip, hcurrent⟩ := h
  have hbefore : ∀ m ∈ earlier, m < last := fun m hm =>
    (List.pairwise_append.mp hsorted).2.2 m hm last (List.mem_singleton_self last)
  have hlast : last ≤ n := by
    obtain ⟨p, hp, rfl⟩ := List.mem_map.mp ((hnums last).mp (by simp))
    exact hle p hp
  by_cases hsame : last = n
  · subst hsame
    have hnew : last ∉ earlier := fun hm => absurd (hbefore last hm) (lt_irrefl last)
    refine ⟨s.push bytes, ?_, rfl, earlier, last, hsorted, fun m => ?_, ?_, ?_⟩
    · rw [FolderZipStreamer.appendBlock, if_pos (by rw [hcurrent]; rfl)]
    · rw [hnums m, List.map_append, List.mem_append, List.map_singleton, List.mem_singleton]
      exact ⟨.inl, fun h => h.elim id fun h => h ▸ (hnums last).mp (by simp)⟩
    · rw [map_entryOf_append hnew]
      exact hzip
    · rw [push, hcurrent]
      simp [entryOf, contentsOf_append]
  · have hlt : last < n := lt_of_le_of_ne hlast hsame
    have hnew : n ∉ earlier ++ [last] := by
      intro hm
      rcases List.mem_append.mp hm with hm | hm
      · exact absurd (hbefore n hm) (by omega)
      · exact hsame (List.mem_singleton.mp hm).symm
    have hcontents : contentsOf parts n = [] := by
      have hnone : parts.filter (·.1 = n) = [] := by
        rw [List.filter_eq_nil_iff]
        intro p hp heq
        exact hnew ((hnums n).mpr (List.mem_map.mpr ⟨p, hp, by simpa using heq⟩))
      rw [contentsOf, hnone]
      rfl
    rw [appendBlock_new (by rw [hcurrent]; simpa using hsame), if_neg hname]
    refine ⟨_, rfl, root_finishCurrentEntry, earlier ++ [last], n, ?_, fun m => ?_, ?_, ?_⟩
    · refine List.pairwise_append.mpr ⟨hsorted, List.pairwise_singleton _ _, fun m hm m' hm' => ?_⟩
      rw [List.mem_singleton.mp hm']
      rcases List.mem_append.mp hm with hm | hm
      · exact lt_trans (hbefore m hm) hlt
      · rwa [List.mem_singleton.mp hm]
    · rw [List.mem_append, hnums m, List.map_append, List.mem_append, List.map_singleton]
    · rw [map_entryOf_append hnew]
      simp [finishCurrentEntry, hcurrent, hzip]
    · simp [entryOf, contentsOf_append, hcontents]

/-- A block of a file without a name throws: the file is not the current one. -/
theorem Wrote.appendBlock_unnamed {parts : List (ℤ × List UInt8)} (h : s.Wrote files parts)
    (hnamed : ∀ p ∈ parts, nameAt files p.1 ≠ "") {n : ℤ} (hname : nameAt files n = "")
    (bytes : List UInt8) : (s.appendBlock n bytes files).2 = false := by
  obtain ⟨earlier, last, -, hnums, -, hcurrent⟩ := h
  have hne : last ≠ n := by
    rintro rfl
    obtain ⟨p, hp, hlast⟩ := List.mem_map.mp ((hnums last).mp (by simp))
    exact hnamed p hp (hlast ▸ hname)
  rw [appendBlock_new (by rw [hcurrent]; simpa using hne), if_pos hname]

/-- The finished zip has one entry for each file number of a block. -/
theorem Wrote.finish {parts : List (ℤ × List UInt8)} (h : s.Wrote files parts) :
    ∃ nums : List ℤ, nums.Nodup ∧ (∀ n, n ∈ nums ↔ n ∈ parts.map Prod.fst) ∧
      s.finish = nums.map (entryOf s.root files parts) := by
  obtain ⟨earlier, last, hsorted, hnums, hzip, hcurrent⟩ := h
  refine ⟨earlier ++ [last], hsorted.imp fun hlt => ne_of_lt hlt, hnums, ?_⟩
  rw [FolderZipStreamer.finish, finishCurrentEntry, hcurrent, List.map_append, ← hzip]
  rfl

end FolderZipStreamer

/-! ## The zip built in memory -/

section InMemory

variable (root : String) (content : ℕ → List UInt8)

/-- One file of the listing. -/
def addFile (zipEntries : OrderedMap String (List UInt8)) (file : FileEntry × ℕ) :
    OrderedMap String (List UInt8) :=
  if file.1.name = "" then zipEntries
  else assignEntry zipEntries (zipEntryPath root file.1.name) (content file.2)

/-- The path and the bytes of a listed file. -/
def listedEntry (file : FileEntry × ℕ) : String × List UInt8 :=
  (zipEntryPath root file.1.name, content file.2)

/-- Adding a file adds no entry under the name of the prototype. -/
theorem keys_addFile {zipEntries : OrderedMap String (List UInt8)} {file : FileEntry × ℕ}
    (hproto : "__proto__" ∉ zipEntries.keys) :
    "__proto__" ∉ (addFile root content zipEntries file).keys := by
  unfold addFile assignEntry
  split_ifs with hname hkey
  · exact hproto
  · exact hproto
  · rw [OrderedMap.mem_keys_set]
    exact fun h => h.elim (fun h => hkey h.symm) hproto

/-- Adding a file adds an entry at most, and none if it has no name. -/
theorem length_addFile (zipEntries : OrderedMap String (List UInt8)) (file : FileEntry × ℕ) :
    (addFile root content zipEntries file).entries.length ≤
      zipEntries.entries.length + if file.1.name = "" then 0 else 1 := by
  unfold addFile assignEntry
  split_ifs
  · exact le_rfl
  · exact Nat.le_add_right _ _
  · exact OrderedMap.length_entries_set_le _ _ _

/-- No path `__proto__` is stored, and no more entries than the listing has names. -/
theorem foldl_addFile (files : List (FileEntry × ℕ))
    (zipEntries : OrderedMap String (List UInt8)) (hproto : "__proto__" ∉ zipEntries.keys) :
    "__proto__" ∉ (files.foldl (addFile root content) zipEntries).keys ∧
      (files.foldl (addFile root content) zipEntries).entries.length ≤
        zipEntries.entries.length + files.countP (·.1.name ≠ "") := by
  induction files generalizing zipEntries with
  | nil => exact ⟨hproto, Nat.le_add_right _ _⟩
  | cons file rest ih =>
    obtain ⟨hkeys, hlength⟩ := ih (addFile root content zipEntries file)
      (keys_addFile root content hproto)
    refine ⟨hkeys, hlength.trans ?_⟩
    have hone := length_addFile root content zipEntries file
    rw [List.countP_cons]
    by_cases hname : file.1.name = ""
    · rw [if_pos hname] at hone
      simp only [hname, ne_eq, not_true, decide_false, Bool.false_eq_true, if_false]
      omega
    · rw [if_neg hname] at hone
      simp only [hname, ne_eq, not_false_iff, decide_true, if_true]
      omega

/-- With names and different paths each file is stored in its turn. -/
theorem foldl_addFile_eq (files : List (FileEntry × ℕ))
    (zipEntries : OrderedMap String (List UInt8)) (hname : ∀ file ∈ files, file.1.name ≠ "")
    (hproto : ∀ file ∈ files, zipEntryPath root file.1.name ≠ "__proto__")
    (hnodup : (zipEntries.keys ++ files.map fun file => zipEntryPath root file.1.name).Nodup) :
    (files.foldl (addFile root content) zipEntries).entries =
      zipEntries.entries ++ files.map (listedEntry root content) := by
  induction files generalizing zipEntries with
  | nil => simp
  | cons file rest ih =>
    have hset : addFile root content zipEntries file =
        zipEntries.set (zipEntryPath root file.1.name) (content file.2) := by
      rw [addFile, if_neg (hname file List.mem_cons_self), assignEntry,
        if_neg (hproto file List.mem_cons_self)]
    have hnew : zipEntryPath root file.1.name ∉ zipEntries.keys := fun hmem =>
      (List.nodup_append.mp hnodup).2.2 _ hmem _ (by simp) rfl
    have hentries := OrderedMap.entries_set_of_not_mem hnew (content file.2)
    rw [List.foldl_cons, hset, ih, hentries, List.append_assoc]
    · rfl
    · exact fun f hf => hname f (List.mem_cons_of_mem _ hf)
    · exact fun f hf => hproto f (List.mem_cons_of_mem _ hf)
    · rw [OrderedMap.keys, hentries, List.map_append, List.append_assoc]
      exact hnodup

end InMemory

/-- What a listing needs for a zip with an entry for each file. -/
structure Entries (root : String) (files : List FileEntry) : Prop where
  name : ∀ file ∈ files, file.name ≠ ""
  nodup : (files.map fun file => zipEntryPath root file.name).Nodup
  proto : ∀ file ∈ files, zipEntryPath root file.name ≠ "__proto__"

/-- **The zip built in memory** has each listed file once exactly if the listing has names
that give different paths. -/
theorem build_perm_iff (rootName : String) (files : List FileEntry)
    (chunks : ℕ → List (List UInt8)) :
    (buildFolderZipFromChunks rootName files chunks).entries.Perm
        (files.zipIdx.map (listedEntry (orDownload rootName) fun i => (chunks i).flatten)) ↔
      Entries (orDownload rootName) files := by
  have hbuild : buildFolderZipFromChunks rootName files chunks =
      files.zipIdx.foldl (addFile (orDownload rootName) fun i => (chunks i).flatten) .empty := rfl
  have hpaths : (files.zipIdx.map fun file => zipEntryPath (orDownload rootName) file.1.name) =
      files.map fun file => zipEntryPath (orDownload rootName) file.name := by
    rw [← List.zipIdx_map_fst 0 files, List.map_map]
    simp [Function.comp_def]
  have hmap : (files.zipIdx.map (listedEntry (orDownload rootName)
      fun i => (chunks i).flatten)).map Prod.fst =
      files.map fun file => zipEntryPath (orDownload rootName) file.name := by
    rw [← hpaths, List.map_map]
    rfl
  constructor
  · intro hperm
    obtain ⟨hproto, hlength⟩ := foldl_addFile (orDownload rootName)
      (fun i => (chunks i).flatten) files.zipIdx .empty List.not_mem_nil
    rw [← hbuild] at hproto hlength
    have hkeys : (buildFolderZipFromChunks rootName files chunks).keys.Perm
        (files.map fun file => zipEntryPath (orDownload rootName) file.name) :=
      hmap ▸ hperm.map Prod.fst
    refine ⟨fun file hfile hname => ?_, hkeys.nodup_iff.mp (OrderedMap.nodup_keys _),
      fun file hfile hpath => ?_⟩
    · have hcount : files.zipIdx.countP (·.1.name ≠ "") = files.countP (·.name ≠ "") := by
        conv_rhs => rw [← List.zipIdx_map_fst 0 files, List.countP_map]
        rfl
      have hall : files.countP (·.name ≠ "") = files.length := by
        have hle := List.countP_le_length (p := fun file : FileEntry => file.name ≠ "") (l := files)
        have hlen := hperm.length_eq
        rw [List.length_map, List.length_zipIdx] at hlen
        rw [hcount, hlen] at hlength
        exact Nat.le_antisymm hle (by simpa [OrderedMap.empty] using hlength)
      exact absurd hname (by simpa using List.countP_eq_length.mp hall file hfile)
    · exact hproto (hkeys.mem_iff.mpr (List.mem_map.mpr ⟨file, hfile, hpath⟩))
  · intro h
    have hmem (file : FileEntry × ℕ) (hfile : file ∈ files.zipIdx) : file.1 ∈ files :=
      List.zipIdx_map_fst 0 files ▸ List.mem_map_of_mem hfile
    have hnodup : (files.zipIdx.map fun file =>
        zipEntryPath (orDownload rootName) file.1.name).Nodup := by
      rw [hpaths]
      exact h.nodup
    have hname (file) (hfile : file ∈ files.zipIdx) := h.name file.1 (hmem file hfile)
    have hproto (file) (hfile : file ∈ files.zipIdx) := h.proto file.1 (hmem file hfile)
    rw [hbuild, foldl_addFile_eq _ _ files.zipIdx .empty hname hproto hnodup]
    exact List.Perm.refl _

/-! ## The two jobs -/

variable (decompress : List UInt8 → Option (List UInt8))

/-- What no block changes about the job of a request. -/
structure FolderDownload.Of (d : FolderDownload) (request : FolderRequest)
    (saveTarget : Option ℕ) : Prop where
  files : d.job.files = request.files
  fileName : d.job.fileName = request.root
  isFolder : d.job.isFolderDownload = true
  saveTarget : d.job.saveTarget = saveTarget
  streaming : d.job.streamingToDisk = false
  chunks : d.job.chunks = []

namespace FolderDownload

variable {d : FolderDownload} {request : FolderRequest} {saveTarget : Option ℕ}

/-- A download starts as asked for. -/
theorem of_start (request : FolderRequest) (saveTarget : Option ℕ) :
    (request.start saveTarget).Of request saveTarget :=
  ⟨rfl, rfl, rfl, rfl, rfl, rfl⟩

/-- With a target the archive is streamed to it. -/
theorem Of.storage_some {target : ℕ} (h : d.Of request (some target)) :
    d.job.storage = .zip target := by
  rw [WriteJob.storage, h.saveTarget]
  exact if_pos h.isFolder

/-- Without one the files are kept apart. -/
theorem Of.storage_none (h : d.Of request none) : d.job.storage = .perFile := by
  rw [WriteJob.storage, h.saveTarget]
  exact if_pos (.inl h.isFolder)

/-- A block of a download without a target is kept under its number. -/
theorem Of.appendBytes_none (h : d.Of request none) (n : ℤ) (bytes : List UInt8) :
    d.appendBytes n bytes =
      ({ d with job := (d.job.keepPerFile n bytes).received n bytes }, true) := by
  rw [appendBytes, h.storage_none]

/-- The zip that the next block goes to. -/
def stream (d : FolderDownload) (request : FolderRequest) : FolderZipStreamer :=
  d.folderZipStream.getD { root := request.root }

/-- A block of a download with a target goes to the zip. -/
theorem Of.appendBytes_some {target : ℕ} (h : d.Of request (some target)) (n : ℤ)
    (bytes : List UInt8) :
    (d.appendBytes n bytes).2 = ((d.stream request).appendBlock n bytes request.files).2 ∧
      (d.appendBytes n bytes).1.folderZipStream =
        some ((d.stream request).appendBlock n bytes request.files).1 ∧
      (d.appendBytes n bytes).1.Of request (some target) := by
  have hroot : orDownload d.job.fileName = request.root := by
    rw [h.fileName, FolderRequest.root, orDownload_nameOf]
  have hzip : d.folderZipStream.getD { root := request.root } = d.stream request := rfl
  obtain ⟨⟨stream, ok⟩, hstream⟩ :
      ∃ r, (d.stream request).appendBlock n bytes request.files = r := ⟨_, rfl⟩
  have happend : d.appendBytes n bytes =
      (⟨if ok then ({ d.job with folderZipStream := true } : WriteJob).received n bytes
        else { d.job with folderZipStream := true }, some stream⟩, ok) := by
    rw [appendBytes, h.storage_some]
    dsimp only
    rw [hroot, h.files, hzip, hstream]
    cases ok <;> rfl
  rw [happend, hstream]
  cases ok with
  | true => exact ⟨rfl, rfl, h.files, h.fileName, h.isFolder, h.saveTarget, h.streaming, h.chunks⟩
  | false => exact ⟨rfl, rfl, h.files, h.fileName, h.isFolder, h.saveTarget, h.streaming, h.chunks⟩

/-- A block keeps what was asked for. -/
theorem Of.appendBytes (h : d.Of request saveTarget) (n : ℤ) (bytes : List UInt8) :
    (d.appendBytes n bytes).1.Of request saveTarget := by
  cases saveTarget with
  | some target => exact (h.appendBytes_some n bytes).2.2
  | none =>
    rw [h.appendBytes_none]
    exact ⟨h.files, h.fileName, h.isFolder, h.saveTarget, h.streaming, h.chunks⟩

/-- Any number of blocks keeps what was asked for. -/
theorem Of.receive (h : d.Of request saveTarget) (blocks : List FileTransferBlock) :
    (d.receive decompress blocks).1.Of request saveTarget := by
  induction blocks using List.reverseRecOn with
  | nil => exact h
  | append_singleton blocks block ih =>
    rw [receive_append]
    change ((d.receive decompress blocks).1.appendBlock decompress block).1.Of request saveTarget
    unfold appendBlock
    split
    · exact ih.appendBytes _ _
    · exact ih

/-- A block that cannot be decompressed is an error of both downloads. -/
theorem receive_of_undecodable {blocks : List FileTransferBlock}
    (h : ∃ block ∈ blocks, block.bytes? decompress = none) :
    (d.receive decompress blocks).2 = false := by
  induction blocks using List.reverseRecOn with
  | nil => simp at h
  | append_singleton blocks last ih =>
    rw [receive_append]
    obtain ⟨block, hblock, hnone⟩ := h
    rcases List.mem_append.mp hblock with hblock | hblock
    · simp [ih ⟨block, hblock, hnone⟩]
    · obtain rfl := List.mem_singleton.mp hblock
      simp [appendBlock, hnone]

/-- The parts of the blocks, with one block more. -/
theorem partsOf_append (blocks : List FileTransferBlock) {block : FileTransferBlock}
    {bytes : List UInt8} (hbytes : block.bytes? decompress = some bytes) :
    partsOf decompress (blocks ++ [block]) =
      partsOf decompress blocks ++ [(block.fileNum, bytes)] := by
  simp [partsOf, hbytes]

/-- The zip of a download has an entry for each block so far. -/
def Streams (d : FolderDownload) (request : FolderRequest) (parts : List (ℤ × List UInt8)) : Prop :=
  parts = [] ∧ d.folderZipStream = none ∨
    ∃ s, d.folderZipStream = some s ∧ s.root = request.root ∧ s.Wrote request.files parts

/-- A block of a file with a name is streamed. -/
theorem Streams.named {parts : List (ℤ × List UInt8)} (h : d.Streams request parts) {n : ℤ}
    (hle : ∀ p ∈ parts, p.1 ≤ n) (hname : nameAt request.files n ≠ "") (bytes : List UInt8) :
    ∃ s, (d.stream request).appendBlock n bytes request.files = (s, true) ∧
      s.root = request.root ∧ s.Wrote request.files (parts ++ [(n, bytes)]) := by
  unfold stream
  rcases h with ⟨rfl, hnone⟩ | ⟨s, hs, hroot, hwrote⟩
  · rw [hnone, Option.getD_none, List.nil_append]
    exact FolderZipStreamer.wrote_first hname bytes
  · rw [hs, Option.getD_some, ← hroot]
    exact hwrote.appendBlock hle hname bytes

/-- A block of a file without a name is not. -/
theorem Streams.unnamed {parts : List (ℤ × List UInt8)} (h : d.Streams request parts)
    (hnamed : ∀ p ∈ parts, nameAt request.files p.1 ≠ "") {n : ℤ}
    (hname : nameAt request.files n = "") (bytes : List UInt8) :
    ((d.stream request).appendBlock n bytes request.files).2 = false := by
  unfold stream
  rcases h with ⟨rfl, hnone⟩ | ⟨s, hs, hroot, hwrote⟩
  · rw [hnone, Option.getD_none, FolderZipStreamer.appendBlock_new (by simp), if_pos hname]
  · rw [hs, Option.getD_some]
    exact hwrote.appendBlock_unnamed hnamed hname bytes

/-- A download with a target goes well exactly while each block is for a file with a name. -/
theorem streams_receive (request : FolderRequest) (target : ℕ) {blocks : List FileTransferBlock}
    (hsorted : (blocks.map (·.fileNum)).Pairwise (· ≤ ·))
    (hbytes : ∀ block ∈ blocks, block.bytes? decompress ≠ none) :
    (((request.start (some target)).receive decompress blocks).2 = true ↔
        ∀ block ∈ blocks, nameAt request.files block.fileNum ≠ "") ∧
      (((request.start (some target)).receive decompress blocks).2 = true →
        ((request.start (some target)).receive decompress blocks).1.Streams request
          (partsOf decompress blocks)) := by
  induction blocks using List.reverseRecOn with
  | nil => exact ⟨by simp, fun _ => .inl ⟨rfl, rfl⟩⟩
  | append_singleton blocks block ih =>
    rw [List.map_append, List.pairwise_append] at hsorted
    obtain ⟨hiff, hstreams⟩ := ih hsorted.1 fun b hb => hbytes b (List.mem_append_left _ hb)
    obtain ⟨bytes, hblock⟩ := Option.ne_none_iff_exists'.mp (hbytes block (by simp))
    have hle : ∀ p ∈ partsOf decompress blocks, p.1 ≤ block.fileNum := by
      intro p hp
      obtain ⟨b, hb, rfl⟩ := List.mem_map.mp hp
      exact hsorted.2.2 _ (List.mem_map_of_mem hb) _ (by simp)
    have hof := (of_start request (some target)).receive decompress blocks
    rw [receive_append, partsOf_append decompress blocks hblock]
    generalize (request.start (some target)).receive decompress blocks = r at hiff hstreams hof ⊢
    have happend : r.1.appendBlock decompress block = r.1.appendBytes block.fileNum bytes := by
      rw [appendBlock, hblock]
    obtain ⟨hok, hzip, -⟩ := hof.appendBytes_some block.fileNum bytes
    rw [happend, hok]
    have hlast : (∀ b ∈ blocks ++ [block], nameAt request.files b.fileNum ≠ "") ↔
        (∀ b ∈ blocks, nameAt request.files b.fileNum ≠ "") ∧
          nameAt request.files block.fileNum ≠ "" := by
      simp only [List.forall_mem_append, List.forall_mem_singleton]
    rw [hlast, Bool.and_eq_true]
    by_cases hr : r.2 = true
    · have hnamed : ∀ p ∈ partsOf decompress blocks, nameAt request.files p.1 ≠ "" := by
        intro p hp
        obtain ⟨b, hb, rfl⟩ := List.mem_map.mp hp
        exact hiff.mp hr b hb
      by_cases hname : nameAt request.files block.fileNum = ""
      · rw [(hstreams hr).unnamed hnamed hname bytes]
        exact ⟨⟨fun h => absurd h.2 (by simp), fun h => absurd hname h.2⟩,
          fun h => absurd h.2 (by simp)⟩
      · obtain ⟨s, hs, hroot, hwrote⟩ := (hstreams hr).named hle hname bytes
        rw [hs] at hzip ⊢
        exact ⟨⟨fun _ => ⟨hiff.mp hr, hname⟩, fun _ => ⟨hr, rfl⟩⟩,
          fun _ => .inr ⟨s, hzip, hroot, hwrote⟩⟩
    · exact ⟨⟨fun h => absurd h.1 hr, fun h => absurd (hiff.mpr h.1) hr⟩,
        fun h => absurd h.1 hr⟩

/-- A download without a target keeps the bytes of each file. -/
theorem keeps_receive (request : FolderRequest) {blocks : List FileTransferBlock}
    (hbytes : ∀ block ∈ blocks, block.bytes? decompress ≠ none) :
    ((request.start none).receive decompress blocks).2 = true ∧
      ((request.start none).receive decompress blocks).1.folderZipStream = none ∧
      ∀ n, (((request.start none).receive decompress blocks).1.job.chunksForFile n).flatten =
        contentsOf (partsOf decompress blocks) n := by
  induction blocks using List.reverseRecOn with
  | nil => exact ⟨rfl, rfl, fun n => rfl⟩
  | append_singleton blocks block ih =>
    obtain ⟨hok, hzip, hcontents⟩ := ih fun b hb => hbytes b (List.mem_append_left _ hb)
    obtain ⟨bytes, hblock⟩ := Option.ne_none_iff_exists'.mp (hbytes block (by simp))
    have hof := (of_start request none).receive decompress blocks
    rw [receive_append, partsOf_append decompress blocks hblock]
    generalize (request.start none).receive decompress blocks = r at hok hzip hcontents hof ⊢
    have happend : r.1.appendBlock decompress block = r.1.appendBytes block.fileNum bytes := by
      rw [appendBlock, hblock]
    rw [happend, hof.appendBytes_none, hok]
    refine ⟨rfl, hzip, fun n => ?_⟩
    have hkept : ((r.1.job.keepPerFile block.fileNum bytes).received block.fileNum
        bytes).chunksForFile n = if n = block.fileNum then r.1.job.chunksForFile n ++ [bytes]
          else r.1.job.chunksForFile n := by
      simp only [WriteJob.chunksForFile, WriteJob.received, WriteJob.keepPerFile,
        OrderedMap.get?_set]
      split_ifs with hn
      · rw [hn, Option.getD_some]
      · rfl
    rw [contentsOf_append, ← hcontents n]
    change (((r.1.job.keepPerFile block.fileNum bytes).received block.fileNum
      bytes).chunksForFile n).flatten = _
    rw [hkept]
    by_cases hn : n = block.fileNum
    · rw [if_pos hn, if_pos hn.symm]
      simp
    · rw [if_neg hn, if_neg (Ne.symm hn)]

end FolderDownload

/-! ## When they agree -/

/-- Two downloads left the same: zips with the same entries, each listed file once, or, where
nothing is listed, the same bytes. -/
def Saved.Same (listed : List (String × List UInt8)) : Saved → Saved → Prop
  | .zip entries, .zip entries' =>
    (∀ e, e ∈ entries ↔ e ∈ entries') ∧ entries.Perm listed ∧ entries'.Perm listed
  | .file bytes, .file bytes' => listed = [] ∧ bytes = bytes'
  | _, _ => False

namespace FolderRequest

variable (request : FolderRequest)

/-- Each listed file with the bytes received for it. -/
def listed (parts : List (ℤ × List UInt8)) : List (String × List UInt8) :=
  request.files.zipIdx.map (listedEntry request.root fun i => contentsOf parts i)

/-- The download to a target picked before and the one without either both fail or leave the
same, with each listed file once. -/
def Agree (target : ℕ) (blocks : List FileTransferBlock) : Prop :=
  request.download decompress (some target) blocks = none ∧
      request.download decompress none blocks = none ∨
    ∃ streamed built, request.download decompress (some target) blocks = some streamed ∧
      request.download decompress none blocks = some built ∧
      streamed.Same (request.listed (partsOf decompress blocks)) built

/-- Each block is for a listed file, and each listed file has a block unless there is none. -/
structure Complete (blocks : List FileTransferBlock) : Prop where
  listed : ∀ block ∈ blocks, 0 ≤ block.fileNum ∧ block.fileNum < request.files.length
  all : blocks = [] ∨ ∀ i < request.files.length, ∃ block ∈ blocks, block.fileNum = i

/-! ## The numbers of a listing -/

/-- Where all files have names a number in range has one. -/
theorem nameAt_ne {files : List FileEntry} (hname : ∀ file ∈ files, file.name ≠ "") {n : ℤ}
    (hpos : 0 ≤ n) (hlt : n < files.length) : nameAt files n ≠ "" := by
  have hlt' : n.toNat < files.length := by omega
  rw [nameAt, at?, if_pos hpos, List.getElem?_eq_getElem hlt']
  exact hname _ (List.getElem_mem hlt')

/-- A file with a name has a number in range. -/
theorem bounds_of_nameAt {files : List FileEntry} {n : ℤ} (h : nameAt files n ≠ "") :
    0 ≤ n ∧ n < files.length := by
  have hsome : (at? files n).isSome = true := by
    rw [Option.isSome_iff_ne_none]
    intro hnone
    simp [nameAt, hnone] at h
  unfold at? at hsome
  split_ifs at hsome with hpos
  · have hlt : n.toNat < files.length := by simpa using hsome
    exact ⟨hpos, by omega⟩
  · cases hsome

/-- The listed files by their numbers. -/
theorem listed_eq (parts : List (ℤ × List UInt8)) :
    request.listed parts = ((List.range request.files.length).map Nat.cast).map
      (entryOf request.root request.files parts) := by
  apply List.ext_getElem
  · simp [listed]
  · intro i hi _
    have hlt : i < request.files.length := by simpa [listed] using hi
    simp [listed, listedEntry, entryOf, nameAt, at?, hlt]

/-- A zip with one entry for each number has the listed files exactly if it has each number. -/
theorem perm_listed_iff {parts : List (ℤ × List UInt8)} {nums : List ℤ} (hnodup : nums.Nodup)
    (hbounds : ∀ n ∈ nums, 0 ≤ n ∧ n < request.files.length) :
    (nums.map (entryOf request.root request.files parts)).Perm (request.listed parts) ↔
      ∀ i < request.files.length, (i : ℤ) ∈ nums := by
  have hcast : ((List.range request.files.length).map (Nat.cast : ℕ → ℤ)).Nodup :=
    List.nodup_range.map Nat.cast_injective
  have hmem (n : ℤ) : n ∈ (List.range request.files.length).map (Nat.cast : ℕ → ℤ) ↔
      0 ≤ n ∧ n < request.files.length := by
    simp only [List.mem_map, List.mem_range]
    constructor
    · rintro ⟨i, hi, rfl⟩
      omega
    · rintro ⟨hpos, hlt⟩
      exact ⟨n.toNat, by omega, by omega⟩
  rw [listed_eq]
  constructor
  · intro hperm i hi
    have hlength : nums.length = request.files.length := by simpa using hperm.length_eq
    have hsub : nums.Subperm ((List.range request.files.length).map (Nat.cast : ℕ → ℤ)) :=
      List.subperm_of_subset hnodup fun n hn => (hmem n).mpr (hbounds n hn)
    have hall := hsub.perm_of_length_le (by simp [hlength])
    exact hall.mem_iff.mpr ((hmem i).mpr ⟨by omega, by omega⟩)
  · intro hall
    refine List.Perm.map _ ((List.perm_ext_iff_of_nodup hnodup hcast).mpr fun n => ?_)
    rw [hmem n]
    refine ⟨hbounds n, fun ⟨hpos, hlt⟩ => ?_⟩
    have := hall n.toNat (by omega)
    rwa [Int.toNat_of_nonneg hpos] at this

/-! ## What is left -/

variable {request}

/-- A download with a bad block saves nothing. -/
theorem download_none {saveTarget : Option ℕ} {blocks : List FileTransferBlock}
    (h : ((request.start saveTarget).receive decompress blocks).2 = false) :
    request.download decompress saveTarget blocks = none := by
  rw [download]
  simp [h]

/-- A download whose blocks are good saves what it received. -/
theorem download_some {saveTarget : Option ℕ} {blocks : List FileTransferBlock}
    (h : ((request.start saveTarget).receive decompress blocks).2 = true) :
    request.download decompress saveTarget blocks =
      some ((request.start saveTarget).receive decompress blocks).1.finalizeDownload := by
  rw [download]
  simp [h]

/-- A streamed archive is saved as it stands. -/
theorem finalize_zip {d : FolderDownload} {saveTarget : Option ℕ} (h : d.Of request saveTarget)
    (hfiles : request.files ≠ []) {s : FolderZipStreamer} (hs : d.folderZipStream = some s) :
    d.finalizeDownload = .zip s.finish := by
  have hzip : d.job.finalizeDownload = .zip := if_pos ⟨h.isFolder, h.files ▸ hfiles⟩
  rw [FolderDownload.finalizeDownload, hzip, hs]

/-- An archive that was not streamed is built. -/
theorem finalize_build {d : FolderDownload} {saveTarget : Option ℕ} (h : d.Of request saveTarget)
    (hfiles : request.files ≠ []) (hs : d.folderZipStream = none) :
    d.finalizeDownload = .zip (buildFolderZipFromChunks request.root request.files
      fun i => d.job.chunksForFile i).entries := by
  have hzip : d.job.finalizeDownload = .zip := if_pos ⟨h.isFolder, h.files ▸ hfiles⟩
  rw [FolderDownload.finalizeDownload, hzip, hs, h.files, h.fileName]

/-- The zip built of what was kept has the listed files exactly if the listing allows it. -/
theorem build_perm_listed_iff (request : FolderRequest) (job : WriteJob)
    (parts : List (ℤ × List UInt8))
    (hkept : ∀ n, (job.chunksForFile n).flatten = contentsOf parts n) :
    (buildFolderZipFromChunks request.root request.files fun i => job.chunksForFile i).entries.Perm
        (request.listed parts) ↔ Entries request.root request.files := by
  have hbuild := build_perm_iff request.root request.files fun i => job.chunksForFile i
  rw [root, orDownload_nameOf, ← root] at hbuild
  rw [← hbuild, listed]
  simp only [hkept]

/-- Two archives agree if and only if both hold the entries that were asked for. -/
theorem agree_zip_iff {target : ℕ} {blocks : List FileTransferBlock}
    {entries entries' : List (String × List UInt8)}
    (h : request.download decompress (some target) blocks = some (.zip entries))
    (h' : request.download decompress none blocks = some (.zip entries')) :
    request.Agree decompress target blocks ↔
      entries.Perm (request.listed (partsOf decompress blocks)) ∧
        entries'.Perm (request.listed (partsOf decompress blocks)) := by
  constructor
  · rintro (⟨hnone, -⟩ | ⟨a, b, ha, hb, hsame⟩)
    · rw [h] at hnone
      cases hnone
    · obtain rfl := Option.some.inj (ha.symm.trans h)
      obtain rfl := Option.some.inj (hb.symm.trans h')
      exact hsame.2
  · rintro ⟨hperm, hperm'⟩
    exact .inr ⟨_, _, h, h', fun e => (hperm.trans hperm'.symm).mem_iff, hperm, hperm'⟩

/-- Without a block both downloads are built in memory. -/
theorem agree_nil_iff {target : ℕ} :
    request.Agree decompress target [] ↔ Entries request.root request.files := by
  have hsome (saveTarget : Option ℕ) : request.download decompress saveTarget [] =
      some (request.start saveTarget).finalizeDownload := download_some decompress rfl
  have hof := FolderDownload.of_start request
  by_cases hfiles : request.files = []
  · have hfinal (saveTarget : Option ℕ) :
        (request.start saveTarget).finalizeDownload = .file [] := by
      have hempty : (request.start saveTarget).job.files = [] := hfiles
      rw [FolderDownload.finalizeDownload, WriteJob.finalizeDownload,
        if_neg (fun h => h.2 hempty), if_neg (fun h => by simp [(hof saveTarget).streaming] at h)]
      rfl
    refine iff_of_true (.inr ⟨_, _, hsome _, hsome _, ?_⟩) ⟨?_, ?_, ?_⟩
    · rw [hfinal, hfinal]
      exact ⟨by simp [listed, hfiles], rfl⟩
    all_goals simp [hfiles]
  · have hbuild := build_perm_listed_iff request (request.start none).job [] fun n => rfl
    have hzip (saveTarget : Option ℕ) := (hsome saveTarget).trans
      (congrArg some (finalize_build (hof saveTarget) hfiles rfl))
    rw [agree_zip_iff decompress (hzip (some target)) (hzip none), ← hbuild]
    exact and_self_iff

/-- A block for no listed file is an error of the streamed download alone. -/
theorem not_agree_of_unnamed {target : ℕ} {blocks : List FileTransferBlock}
    (hsorted : (blocks.map (·.fileNum)).Pairwise (· ≤ ·))
    (hbytes : ∀ block ∈ blocks, block.bytes? decompress ≠ none)
    (hunnamed : ¬ ∀ block ∈ blocks, nameAt request.files block.fileNum ≠ "") :
    ¬ request.Agree decompress target blocks := by
  have hiff := (FolderDownload.streams_receive decompress request target hsorted hbytes).1
  have hstreamed := download_none decompress (Bool.eq_false_iff.mpr (mt hiff.mp hunnamed))
  have hbuilt := download_some decompress
    (FolderDownload.keeps_receive decompress request hbytes).1
  rintro (⟨-, hnone⟩ | ⟨a, b, ha, -⟩)
  · rw [hbuilt] at hnone
    cases hnone
  · rw [hstreamed] at ha
    cases ha

/-- Where every block is for a listed file, both zips hold the listing or neither condition does. -/
theorem agree_iff_of_named {target : ℕ} {blocks : List FileTransferBlock}
    (hsorted : (blocks.map (·.fileNum)).Pairwise (· ≤ ·))
    (hbytes : ∀ block ∈ blocks, block.bytes? decompress ≠ none) (hblocks : blocks ≠ [])
    (hnamed : ∀ block ∈ blocks, nameAt request.files block.fileNum ≠ "") :
    request.Agree decompress target blocks ↔
      Entries request.root request.files ∧ request.Complete blocks := by
  obtain ⟨hok, hnozip, hkept⟩ := FolderDownload.keeps_receive decompress request hbytes
  obtain ⟨hiff, hstreams⟩ := FolderDownload.streams_receive decompress request target hsorted
    hbytes
  have hbuilt := download_some decompress hok
  have hstreamed := download_some decompress (hiff.mpr hnamed)
  have hfiles : request.files ≠ [] := by
    obtain ⟨block, hblock⟩ := List.exists_mem_of_ne_nil _ hblocks
    have hbounds := bounds_of_nameAt (hnamed block hblock)
    exact List.ne_nil_of_length_pos (by omega)
  rcases hstreams (hiff.mpr hnamed) with ⟨hnil, -⟩ | ⟨s, hs, hroot, hwrote⟩
  · exact absurd (List.map_eq_nil_iff.mp hnil) hblocks
  obtain ⟨nums, hnodup, hnums, hfinish⟩ := hwrote.finish
  rw [hroot] at hfinish
  have hmem (n : ℤ) : n ∈ nums ↔ ∃ block ∈ blocks, block.fileNum = n := by
    simp only [hnums n, partsOf, List.map_map, List.mem_map, Function.comp_apply]
  have hbounds (n : ℤ) (hn : n ∈ nums) : 0 ≤ n ∧ n < request.files.length := by
    obtain ⟨block, hblock, rfl⟩ := (hmem n).mp hn
    exact bounds_of_nameAt (hnamed block hblock)
  have hcomplete : request.Complete blocks ↔ ∀ i < request.files.length, (i : ℤ) ∈ nums := by
    simp only [hmem]
    exact ⟨fun h => h.all.resolve_left hblocks,
      fun h => ⟨fun block hblock => bounds_of_nameAt (hnamed block hblock), .inr h⟩⟩
  rw [finalize_zip ((FolderDownload.of_start request _).receive decompress blocks) hfiles hs,
    hfinish] at hstreamed
  rw [finalize_build ((FolderDownload.of_start request _).receive decompress blocks) hfiles
    hnozip] at hbuilt
  rw [agree_zip_iff decompress hstreamed hbuilt, perm_listed_iff request hnodup hbounds,
    build_perm_listed_iff request _ _ hkept, hcomplete, and_comm]

/-- **The two zips agree**, both having each listed file once with its bytes, if and only if the
listing has names that give different paths, each block is for a listed file, and each listed
file has a block unless there is none; or some block cannot be decompressed. -/
theorem agree_iff {target : ℕ} {blocks : List FileTransferBlock}
    (hsorted : (blocks.map (·.fileNum)).Pairwise (· ≤ ·)) :
    request.Agree decompress target blocks ↔
      (∃ block ∈ blocks, block.bytes? decompress = none) ∨
        Entries request.root request.files ∧ request.Complete blocks := by
  by_cases hbad : ∃ block ∈ blocks, block.bytes? decompress = none
  · exact iff_of_true (.inl ⟨download_none decompress
      (FolderDownload.receive_of_undecodable decompress hbad), download_none decompress
      (FolderDownload.receive_of_undecodable decompress hbad)⟩) (.inl hbad)
  rw [or_iff_right hbad]
  have hbytes : ∀ block ∈ blocks, block.bytes? decompress ≠ none :=
    fun block hblock hnone => hbad ⟨block, hblock, hnone⟩
  by_cases hblocks : blocks = []
  · subst hblocks
    rw [agree_nil_iff]
    exact ⟨fun h => ⟨h, by simp, .inl rfl⟩, And.left⟩
  by_cases hnamed : ∀ block ∈ blocks, nameAt request.files block.fileNum ≠ ""
  · exact agree_iff_of_named decompress hsorted hbytes hblocks hnamed
  · refine iff_of_false (not_agree_of_unnamed decompress hsorted hbytes hnamed) fun h =>
      hnamed fun block hblock => ?_
    obtain ⟨hpos, hlt⟩ := h.2.listed block hblock
    exact nameAt_ne h.1.name hpos hlt

/-- The folder `/d` with the files `a` and `b`. -/
def demoFolder : FolderRequest where
  id := 1
  remotePath := "/d"
  localPath := "d.zip"
  fileNum := 0
  files := [⟨"a", 0, 0, 4⟩, ⟨"b", 1, 0, 4⟩]

/-- With a block for each file both zips have both files. -/
theorem agree_demoFolder :
    demoFolder.Agree (fun _ => none) 0 [⟨0, [], false⟩, ⟨1, [7], false⟩] := by
  refine (agree_iff (fun _ => none) (by decide)).mpr (.inr ⟨⟨?_, ?_, ?_⟩, ?_, .inr ?_⟩)
  all_goals decide

/-- The file `a` is empty and has no block. It is missing in the streamed zip. -/
theorem not_agree_emptyFile :
    demoFolder.download (fun _ => none) (some 0) [⟨1, [7], false⟩] = some (.zip [("d/b", [7])]) ∧
      demoFolder.download (fun _ => none) none [⟨1, [7], false⟩] =
        some (.zip [("d/a", []), ("d/b", [7])]) ∧
      ¬ demoFolder.Agree (fun _ => none) 0 [⟨1, [7], false⟩] := by
  have hstreamed : demoFolder.download (fun _ => none) (some 0) [⟨1, [7], false⟩] =
      some (.zip [("d/b", [7])]) := by rfl
  have hbuilt : demoFolder.download (fun _ => none) none [⟨1, [7], false⟩] =
      some (.zip [("d/a", []), ("d/b", [7])]) := by rfl
  refine ⟨hstreamed, hbuilt, ?_⟩
  rw [agree_zip_iff _ hstreamed hbuilt]
  intro h
  exact absurd (h.1.trans h.2.symm).length_eq (by decide)

end FolderRequest

end RdWeb.FileTransfer
