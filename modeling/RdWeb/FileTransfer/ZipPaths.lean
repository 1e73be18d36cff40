import RdWeb.Lib.LexicalPath
import RdWeb.Lib.Trim
import RdWeb.FileTransfer.FolderZipSame

/-!
# Where the entries of a zip lead

The names of a listing come from the peer. An entry path is the root and a name whose
separators are slashes and which starts with none, but a name may still contain `..`. The
paths are resolved with both separators.
-/

namespace RdWeb.FileTransfer

open LexicalPath

/-- The two signs that separate the parts of a path. -/
def isSeparator (c : Char) : Bool := c = '/' || c = '\\'

/-- The components of a path between separators of both kinds. -/
def pathComponents (path : String) : List String :=
  (path.toList.splitOnP isSeparator).map String.ofList

/-! ## The components of an entry path -/

/-- The name of a folder has no separator. -/
theorem nameOf_not_separator (remotePath : String) :
    ∀ c ∈ (WriteJob.nameOf remotePath).toList, isSeparator c = false := by
  unfold WriteJob.nameOf
  dsimp only
  split_ifs with hempty
  · have hdownload : ("download".toList.all fun c => ! isSeparator c) = true := by decide
    simpa only [List.all_eq_true, Bool.not_eq_true'] using hdownload
  · rw [String.toList_ofList]
    have hne := List.splitOnP_ne_nil (fun c => decide (c = '/') || decide (c = '\\'))
      remotePath.toList
    rw [List.getLast?_eq_some_getLast hne, Option.getD_some]
    exact forall_mem_splitOnP _ _ _ (List.getLast_mem hne)

/-- The two kinds of separators are alike. -/
theorem splitOnP_map_slash (l : List Char) :
    (l.map fun c => if c = '\\' then '/' else c).splitOnP isSeparator =
      l.splitOnP isSeparator := by
  induction l with
  | nil => rfl
  | cons c l ih =>
    rw [List.map_cons, List.splitOnP_cons_eq_if_modifyHead, List.splitOnP_cons_eq_if_modifyHead, ih]
    by_cases hc : c = '\\'
    · simp [hc, isSeparator]
    · simp [hc]

/-- Separators at the start do not matter. -/
theorem foldl_push_dropWhile (l : List Char) (start : List String) :
    (((l.dropWhile (· = '/')).splitOnP isSeparator).map String.ofList).foldl push start =
      ((l.splitOnP isSeparator).map String.ofList).foldl push start := by
  induction l with
  | nil => rfl
  | cons c l ih =>
    by_cases hc : c = '/'
    · subst hc
      have hsplit : ('/' :: l).splitOnP isSeparator = [] :: l.splitOnP isSeparator := by
        rw [List.splitOnP_cons_eq_if_modifyHead, if_pos (by decide)]
      have hpush : push start (String.ofList []) = start := if_pos (.inl rfl)
      rw [List.dropWhile_cons_of_pos (by simp), ih, hsplit, List.map_cons, List.foldl_cons, hpush]
    · rw [List.dropWhile_cons_of_neg (by simpa using hc)]

/-- The cleaned name of an entry resolves like its name. -/
theorem foldl_push_entryRel (relName : String) (start : List String) :
    (((entryRel relName).splitOnP isSeparator).map String.ofList).foldl push start =
      (pathComponents relName).foldl push start := by
  rw [entryRel, foldl_push_dropWhile, splitOnP_map_slash, pathComponents]

/-- A root without separators is one component. -/
theorem pathComponents_root {root : String} (hroot : ∀ c ∈ root.toList, isSeparator c = false) :
    pathComponents root = [root] := by
  rw [pathComponents, List.splitOnP_eq_singleton hroot]
  simp

/-- An entry path resolves to the root followed by the name of the listing. -/
theorem resolve_zipEntryPath {root : String} (hroot : ∀ c ∈ root.toList, isSeparator c = false)
    (relName : String) :
    resolve (pathComponents (zipEntryPath root relName)) =
      resolve (root :: pathComponents relName) := by
  have hrel := foldl_push_entryRel relName (push [] root)
  unfold zipEntryPath
  split_ifs with hnil
  · rw [hnil] at hrel
    rw [pathComponents_root hroot, resolve, resolve, List.foldl_cons, List.foldl_cons, ← hrel]
    exact (if_pos (.inl rfl) : push (push [] root) (String.ofList []) = push [] root).symm
  · have hpath : (root ++ "/" ++ String.ofList (entryRel relName)).toList =
        root.toList ++ '/' :: entryRel relName := by
      simp
    rw [pathComponents, hpath,
      List.splitOnP_append_cons_of_forall_mem hroot '/' (by decide), List.map_cons,
      String.ofList_toList, resolve, resolve, List.foldl_cons, List.foldl_cons, hrel]

/-- Two names give one path exactly if they differ in nothing but the kind of the separators
and the separators at the start. -/
theorem zipEntryPath_eq_iff {root a b : String} :
    zipEntryPath root a = zipEntryPath root b ↔ entryRel a = entryRel b := by
  refine ⟨fun h => ?_, fun h => by rw [zipEntryPath, zipEntryPath, h]⟩
  have hlist (name : String) : (zipEntryPath root name).toList =
      root.toList ++ if entryRel name = [] then [] else '/' :: entryRel name := by
    unfold zipEntryPath
    split_ifs <;> simp
  have htails := congrArg String.toList h
  rw [hlist, hlist] at htails
  have htails := List.append_cancel_left htails
  split_ifs at htails with ha hb hb
  · rw [ha, hb]
  · exact (List.cons.inj htails).2

/-! ## The paths that are written -/

/-- The path of a listed file with a name. -/
def IsEntryPath (root : String) (files : List FileEntry) (path : String) : Prop :=
  ∃ file ∈ files, file.name ≠ "" ∧ path = zipEntryPath root file.name

/-- Every entry of a streamed zip is for a listed file. -/
structure FolderZipStreamer.OfListing (s : FolderZipStreamer) (root : String)
    (files : List FileEntry) : Prop where
  root_eq : s.root = root
  zip : ∀ e ∈ s.zip, IsEntryPath root files e.1
  current : ∀ c ∈ s.current, IsEntryPath root files c.2.1

/-- A file with a name has a path of an entry. -/
theorem isEntryPath_nameAt {files : List FileEntry} {n : ℤ} (h : nameAt files n ≠ "")
    (root : String) : IsEntryPath root files (zipEntryPath root (nameAt files n)) := by
  obtain ⟨hpos, hlt⟩ := FolderRequest.bounds_of_nameAt h
  have hlt' : n.toNat < files.length := by omega
  have hname : nameAt files n = files[n.toNat].name := by
    rw [nameAt, at?, if_pos hpos, List.getElem?_eq_getElem hlt']
    rfl
  exact ⟨files[n.toNat], List.getElem_mem hlt', hname ▸ h, by rw [hname]⟩

namespace FolderZipStreamer

variable {s : FolderZipStreamer} {root : String} {files : List FileEntry}

/-- Ending an entry keeps the paths of the archive. -/
theorem OfListing.finishCurrentEntry (h : s.OfListing root files) :
    s.finishCurrentEntry.OfListing root files := by
  unfold FolderZipStreamer.finishCurrentEntry
  split
  · rename_i n entry hcurrent
    refine ⟨h.root_eq, fun e he => ?_, by simp⟩
    rcases List.mem_append.mp he with he | he
    · exact h.zip e he
    · rw [List.mem_singleton.mp he]
      exact h.current (n, entry) hcurrent
  · exact h

/-- A block keeps the paths of the archive. -/
theorem OfListing.appendBlock (h : s.OfListing root files) (n : ℤ) (bytes : List UInt8) :
    (s.appendBlock n bytes files).1.OfListing root files := by
  by_cases hsame : s.current.map Prod.fst = some n
  · rw [FolderZipStreamer.appendBlock, if_pos hsame]
    refine ⟨h.root_eq, h.zip, fun c hc => ?_⟩
    obtain ⟨c', hc', rfl⟩ := Option.map_eq_some_iff.mp hc
    exact h.current c' hc'
  · rw [appendBlock_new hsame]
    split_ifs with hname
    · exact h.finishCurrentEntry
    · have hdone := h.finishCurrentEntry
      refine ⟨hdone.root_eq, hdone.zip, fun c hc => ?_⟩
      rw [← Option.some.inj hc, h.root_eq]
      exact isEntryPath_nameAt hname root

end FolderZipStreamer

/-- The zip built in memory has entries of listed files only. -/
theorem keys_foldl_addFile {root : String} {content : ℕ → List UInt8} {path : String}
    (files : List (FileEntry × ℕ)) (zipEntries : OrderedMap String (List UInt8))
    (h : path ∈ (files.foldl (addFile root content) zipEntries).keys) :
    path ∈ zipEntries.keys ∨
      ∃ file ∈ files, file.1.name ≠ "" ∧ path = zipEntryPath root file.1.name := by
  induction files generalizing zipEntries with
  | nil => exact .inl h
  | cons file rest ih =>
    rcases ih _ h with hkeys | ⟨f, hf, hname, hpath⟩
    · unfold addFile assignEntry at hkeys
      split_ifs at hkeys with hname hkey
      · exact .inl hkeys
      · exact .inl hkeys
      · rcases OrderedMap.mem_keys_set.mp hkeys with rfl | hkeys
        · exact .inr ⟨file, List.mem_cons_self, hname, rfl⟩
        · exact .inl hkeys
    · exact .inr ⟨f, List.mem_cons_of_mem _ hf, hname, hpath⟩

/-- An entry of the archive built at the end has a path of an entry. -/
theorem isEntryPath_build {rootName : String} {files : List FileEntry}
    {chunks : ℕ → List (List UInt8)} {e : String × List UInt8}
    (he : e ∈ (buildFolderZipFromChunks rootName files chunks).entries) :
    IsEntryPath (orDownload rootName) files e.1 := by
  have hbuild : buildFolderZipFromChunks rootName files chunks =
      files.zipIdx.foldl (addFile (orDownload rootName) fun i => (chunks i).flatten) .empty := rfl
  rw [hbuild] at he
  have hkey := List.mem_map_of_mem (f := Prod.fst) he
  rcases keys_foldl_addFile files.zipIdx .empty hkey with hempty | ⟨file, hfile, hname, hpath⟩
  · exact absurd hempty List.not_mem_nil
  · exact ⟨file.1, List.zipIdx_map_fst 0 files ▸ List.mem_map_of_mem hfile, hname, hpath⟩

/-- The entries of a zip that is left. -/
def Saved.entries : Saved → List (String × List UInt8)
  | .zip entries => entries
  | .file _ => []
  | .written => []

variable (decompress : List UInt8 → Option (List UInt8))

namespace FolderRequest

variable {request : FolderRequest}

/-- What a download leaves, also where errors were reported. -/
def left (request : FolderRequest) (saveTarget : Option ℕ) (blocks : List FileTransferBlock) :
    Saved :=
  ((request.start saveTarget).receive decompress blocks).1.finalizeDownload

/-- The streamed archive has paths of entries after any number of blocks. -/
theorem ofListing_receive (request : FolderRequest) (saveTarget : Option ℕ)
    (blocks : List FileTransferBlock) :
    ∀ s ∈ ((request.start saveTarget).receive decompress blocks).1.folderZipStream,
      s.OfListing request.root request.files := by
  induction blocks using List.reverseRecOn with
  | nil =>
    intro s hs
    cases hs
  | append_singleton blocks block ih =>
    have hof := (FolderDownload.of_start request saveTarget).receive decompress blocks
    rw [FolderDownload.receive_append]
    generalize (request.start saveTarget).receive decompress blocks = r at ih hof ⊢
    change ∀ s ∈ (r.1.appendBlock decompress block).1.folderZipStream, _
    cases hblock : block.bytes? decompress with
    | none =>
      rw [FolderDownload.appendBlock, hblock]
      exact ih
    | some bytes =>
      have happend : r.1.appendBlock decompress block =
          r.1.appendBytes block.fileNum bytes := by
        rw [FolderDownload.appendBlock, hblock]
      rw [happend]
      cases saveTarget with
      | none =>
        rw [hof.appendBytes_none]
        exact ih
      | some target =>
        have hstream : (r.1.stream request).OfListing request.root request.files := by
          unfold FolderDownload.stream
          cases hzip : r.1.folderZipStream with
          | none => exact ⟨rfl, by simp, by simp⟩
          | some s => exact ih s hzip
        rw [(hof.appendBytes_some block.fileNum bytes).2.1]
        intro s hs
        rw [← Option.some.inj hs]
        exact hstream.appendBlock _ _

/-- Both downloads write entries of listed files only. -/
theorem isEntryPath_left {saveTarget : Option ℕ} {blocks : List FileTransferBlock}
    {e : String × List UInt8} (he : e ∈ (request.left decompress saveTarget blocks).entries) :
    IsEntryPath request.root request.files e.1 := by
  have hof := (FolderDownload.of_start request saveTarget).receive decompress blocks
  have hlisting := ofListing_receive decompress request saveTarget blocks
  rw [left] at he
  generalize (request.start saveTarget).receive decompress blocks = r at he hof hlisting
  by_cases hfiles : request.files = []
  · have hfinal : r.1.job.finalizeDownload ≠ .zip := by
      rw [WriteJob.finalizeDownload, if_neg (fun h => h.2 (hof.files.trans hfiles)),
        if_neg (fun h => by simp [hof.streaming] at h)]
      simp
    rw [FolderDownload.finalizeDownload] at he
    split at he
    · exact absurd ‹_› hfinal
    · cases he
    · cases he
  · cases hzip : r.1.folderZipStream with
    | some s =>
      rw [finalize_zip hof hfiles hzip] at he
      exact (hlisting s hzip).finishCurrentEntry.zip e he
    | none =>
      rw [finalize_build hof hfiles hzip] at he
      have hpath := isEntryPath_build he
      rwa [root, orDownload_nameOf, ← root] at hpath

/-- Each listed file with a name is written to the zip once a block of it comes. -/
theorem exists_mem_left {file : FileEntry} (hfile : file ∈ request.files) (hname : file.name ≠ "") :
    ∃ saveTarget blocks e, e ∈ (request.left decompress saveTarget blocks).entries ∧
      e.1 = zipEntryPath request.root file.name := by
  obtain ⟨i, hi, rfl⟩ := List.mem_iff_getElem.mp hfile
  have hat : nameAt request.files i = request.files[i].name := by
    simp [nameAt, at?, hi]
  have hbytes : ∀ block ∈ [(⟨i, [], false⟩ : FileTransferBlock)],
      block.bytes? decompress ≠ none := by
    intro block hblock
    rw [List.mem_singleton.mp hblock]
    simp [FileTransferBlock.bytes?]
  obtain ⟨hiff, hstreams⟩ := FolderDownload.streams_receive decompress request 0
    (List.pairwise_singleton _ _) hbytes
  have hok := hiff.mpr fun block hblock => by
    rw [List.mem_singleton.mp hblock]
    exact hat ▸ hname
  rcases hstreams hok with ⟨hnil, -⟩ | ⟨s, hs, hroot, hwrote⟩
  · cases hnil
  · obtain ⟨nums, -, hnums, hfinish⟩ := hwrote.finish
    have hmem : (i : ℤ) ∈ nums := (hnums i).mpr (by simp [partsOf])
    refine ⟨some 0, [⟨i, [], false⟩],
      entryOf request.root request.files (partsOf decompress [⟨i, [], false⟩]) i, ?_,
      congrArg (zipEntryPath request.root) hat⟩
    rw [left, finalize_zip ((FolderDownload.of_start request (some 0)).receive decompress _)
      (List.ne_nil_of_mem hfile) hs, hfinish, hroot]
    exact List.mem_map_of_mem hmem

/-! ## Confinement -/

/-- The entries of both zips lead strictly below their root, whatever blocks come, and listed
files have different paths. -/
structure Confined (request : FolderRequest) : Prop where
  below : ∀ saveTarget blocks, ∀ e ∈ (request.left decompress saveTarget blocks).entries,
    StrictlyBelow (resolve (pathComponents request.root)) (resolve (pathComponents e.1))
  distinct : request.files.Pairwise fun file file' => file.name ≠ "" → file'.name ≠ "" →
    zipEntryPath request.root file.name ≠ zipEntryPath request.root file'.name

/-- What the names of a listing need: each enters the folder for good, and no two are alike
but for the kind of the separators and the separators at the start. -/
structure SafeNames (request : FolderRequest) : Prop where
  descends : ∀ file ∈ request.files, file.name ≠ "" →
    Descends request.root (pathComponents file.name)
  distinct : request.files.Pairwise fun file file' => file.name ≠ "" → file'.name ≠ "" →
    entryRel file.name ≠ entryRel file'.name

/-- **Zip entries stay under the folder** if and only if the names of the listing are safe. -/
theorem confined_iff : request.Confined decompress ↔ request.SafeNames := by
  have hroot : ∀ c ∈ request.root.toList, isSeparator c = false :=
    nameOf_not_separator request.remotePath
  have hbelow (name : String) :
      StrictlyBelow (resolve (pathComponents request.root))
          (resolve (pathComponents (zipEntryPath request.root name))) ↔
        Descends request.root (pathComponents name) := by
    rw [pathComponents_root hroot, resolve_zipEntryPath hroot, strictlyBelow_iff]
  have hdistinct : (request.files.Pairwise fun file file' => file.name ≠ "" → file'.name ≠ "" →
      zipEntryPath request.root file.name ≠ zipEntryPath request.root file'.name) ↔
      request.files.Pairwise fun file file' => file.name ≠ "" → file'.name ≠ "" →
        entryRel file.name ≠ entryRel file'.name := by
    simp only [ne_eq, zipEntryPath_eq_iff]
  constructor
  · intro h
    refine ⟨fun file hfile hname => ?_, hdistinct.mp h.distinct⟩
    obtain ⟨saveTarget, blocks, e, he, hpath⟩ := exists_mem_left decompress hfile hname
    have hpathBelow := h.below saveTarget blocks e he
    rw [hpath] at hpathBelow
    exact (hbelow file.name).mp hpathBelow
  · intro h
    refine ⟨fun saveTarget blocks e he => ?_, hdistinct.mpr h.distinct⟩
    obtain ⟨file, hfile, hname, hpath⟩ := isEntryPath_left decompress he
    rw [hpath]
    exact (hbelow file.name).mpr (h.descends file hfile hname)

/-- The folder `/d` with a file that the peer calls `../../x`. -/
def escaping : FolderRequest where
  id := 1
  remotePath := "/d"
  localPath := "d.zip"
  fileNum := 0
  files := [⟨"../../x", 1, 0, 4⟩]

/-- The entry of the file leads out of the folder. -/
theorem not_confined_escaping :
    escaping.left (fun _ => none) (some 0) [⟨0, [7], false⟩] = .zip [("d/../../x", [7])] ∧
      escaping.left (fun _ => none) none [⟨0, [7], false⟩] = .zip [("d/../../x", [7])] ∧
      resolve (pathComponents "d/../../x") = ["..", "x"] ∧
      ¬ escaping.Confined fun _ => none := by
  have hstreamed : escaping.left (fun _ => none) (some 0) [⟨0, [7], false⟩] =
      .zip [("d/../../x", [7])] := by rfl
  have hresolve : resolve (pathComponents "d/../../x") = ["..", "x"] := by decide
  refine ⟨hstreamed, by rfl, hresolve, fun h => ?_⟩
  obtain ⟨rest, -, -, heq⟩ := h.below (some 0) [⟨0, [7], false⟩] ("d/../../x", [7]) (by
    rw [hstreamed]
    exact List.mem_singleton_self _)
  rw [hresolve, show resolve (pathComponents escaping.root) = ["d"] from by decide] at heq
  exact absurd (List.cons.inj heq).1 (by decide)

end FolderRequest

end RdWeb.FileTransfer
