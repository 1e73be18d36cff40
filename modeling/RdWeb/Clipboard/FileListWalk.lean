import RdWeb.Clipboard.Disk
import RdWeb.Lib.PreorderWalk
import Mathlib.Data.Set.Finite.Lattice

/-!
# The walk of the file list

`construct_file_list` goes down from the given paths and remembers the paths it has visited, not the
directories. On a finite disk it ends and lists every directory once, after the directory it
is in, where no directory is reached by two paths and no given path comes before one that
leads to its directory; on a disk where every path is found, only there.
-/

namespace RdWeb.Clipboard

open PreorderWalk

/-- One step of the walk: the file at the path is opened, and a directory is read. -/
def visitPath (fs : FileSystem) (relativeRoot path : PathBuf) :
    Except CliprdrError (List (Except CliprdrError PathBuf)) :=
  match LocalFile.tryOpen fs relativeRoot path with
  | .error e => .error e
  | .ok file =>
    if file.isDir then
      match fs.readDir path with
      | .error e => .error (LocalFile.fileErrorAt path e)
      | .ok dir => .ok (dir.map fun entry => entry.mapError (LocalFile.fileErrorAt path))
    else .ok []

/-- `construct_file_list` is the walk by components. -/
theorem constrFileLst_eq_preorder (fs : FileSystem) (relativeRoot : PathBuf) (fuel : ℕ)
    (work : List (Except CliprdrError PathBuf)) (visited : List (List Component))
    (acc : List LocalFile) :
    (constrFileLst fs relativeRoot fuel work visited acc).map (Except.map (List.map (·.path))) =
      preorder PathBuf.components (visitPath fs relativeRoot) fuel work visited
        (acc.map (·.path)) := by
  induction fuel generalizing work visited acc with
  | zero => rfl
  | succ fuel ih =>
    match work with
    | [] => rfl
    | .error e :: rest => rfl
    | .ok path :: rest =>
      rw [constrFileLst, preorder]
      by_cases hvisited : path.components ∈ visited
      · rw [if_pos hvisited, if_pos hvisited, ih]
      · rw [if_neg hvisited, if_neg hvisited]
        cases hopen : LocalFile.tryOpen fs relativeRoot path with
        | error e => simp [visitPath, hopen, Except.map]
        | ok file =>
          have hpath := (LocalFile.tryOpen_spec hopen).1
          by_cases hdir : file.isDir = true
          · cases hread : fs.readDir path with
            | error e => simp [visitPath, hopen, hdir, hread, Except.map]
            | ok dir => simp [visitPath, hopen, hdir, hread, ih, hpath]
          · simp [visitPath, hopen, hdir, ih, hpath]

namespace Disk

variable {Node : Type*}

/-- One path is that of an entry of the directory at the other. -/
def Entry (disk : Disk Node) (p q : PathBuf) : Prop :=
  ∃ d, disk.resolve p = some d ∧ disk.isDir d = true ∧ ∃ e ∈ disk.entries d, q = p.join e.1

/-- A path is reached from another one through the entries of directories. -/
abbrev Reached (disk : Disk Node) : PathBuf → PathBuf → Prop := Relation.ReflTransGen disk.Entry

/-- The walk ends, lists every directory at most once, and lists what is in a directory after it. -/
structure LoopFree (disk : Disk Node) (paths : List PathBuf) : Prop where
  ends : ∃ fuel result, constructFileList disk.fileSystem fuel paths = some result
  once : ∀ fuel files, constructFileList disk.fileSystem fuel paths = some (.ok files) →
    ∀ (i j : ℕ) f g n, files[i]? = some f → files[j]? = some g →
      disk.resolve f.path = some n → disk.resolve g.path = some n → disk.isDir n = true → i = j
  after : ∀ fuel files, constructFileList disk.fileSystem fuel paths = some (.ok files) →
    ∀ (i j : ℕ) f g d, files[i]? = some f → files[j]? = some g →
      disk.container f.path = some d → disk.resolve g.path = some d → j < i

/-- No directory is reached by two paths. -/
def OnePath (disk : Disk Node) (paths : List PathBuf) : Prop :=
  ∀ s ∈ paths, ∀ t ∈ paths, ∀ p q n, disk.Reached s p → disk.Reached t q →
    disk.resolve p = some n → disk.resolve q = some n → disk.isDir n = true →
      p.components = q.components

/-- No directory is reached by two paths, and where a given path comes before one that leads to its
directory, an earlier one leads there as well. -/
structure OnePathEach (disk : Disk Node) (paths : List PathBuf) : Prop where
  one : disk.OnePath paths
  in_order : ∀ (i j : ℕ) s t q d, i < j → paths[i]? = some s → paths[j]? = some t →
    disk.container s = some d → disk.Reached t q → disk.resolve q = some d →
      ∃ (k : ℕ) (u q' : PathBuf), k < i ∧ paths[k]? = some u ∧ disk.Reached u q' ∧
        disk.resolve q' = some d

/-- The first path has a parent, and all that is reached is found. -/
structure AllFound (disk : Disk Node) (paths : List PathBuf) : Prop where
  parent : ∃ first ∈ paths.head?, first.parent ≠ none
  found : ∀ s ∈ paths, ∀ p, disk.Reached s p → ∃ n, disk.resolve p = some n

variable {disk : Disk Node} {paths : List PathBuf} {relativeRoot p q : PathBuf} {n d : Node}

/-- A path that leads somewhere is visited, and what is found are the paths of the entries. -/
theorem visitPath_of_resolve (hn : disk.resolve p = some n) :
    visitPath disk.fileSystem relativeRoot p =
      .ok (if disk.isDir n then (disk.entries n).map fun e => .ok (p.join e.1) else []) := by
  have hstat : disk.fileSystem.stat p = .ok (disk.metadata n) := by
    rw [FileSystem.stat, if_neg (no_null_of_resolve hn)]
    simp only [fileSystem, hn]
  unfold visitPath LocalFile.tryOpen
  rw [hstat]
  by_cases hdir : disk.isDir n = true
  · have hread : disk.fileSystem.readDir p =
        .ok ((disk.entries n).map fun e => .ok (p.join e.1)) := by
      simp only [fileSystem, hn]
      rw [if_pos hdir]
    have hmeta : (disk.metadata n).isDir = true := hdir
    simp only [hmeta, hread, hdir, if_true, List.map_map]
    rfl
  · have hmeta : ¬ (disk.metadata n).isDir = true := hdir
    simp only [if_neg hmeta, if_neg hdir]

/-- A directory is visited by joining its entries, a file by nothing. -/
theorem visitPath_ok_iff {found : List (Except CliprdrError PathBuf)} :
    visitPath disk.fileSystem relativeRoot p = .ok found ↔
      ∃ n, disk.resolve p = some n ∧
        found = if disk.isDir n then (disk.entries n).map fun e => .ok (p.join e.1) else [] := by
  constructor
  · intro h
    cases hn : disk.resolve p with
    | some n =>
      rw [visitPath_of_resolve hn] at h
      exact ⟨n, rfl, (Except.ok.inj h).symm⟩
    | none =>
      have hstat : ∃ e, disk.fileSystem.stat p = .error e := by
        unfold FileSystem.stat
        split_ifs
        · exact ⟨_, rfl⟩
        · refine ⟨⟨.notFound, "No such file or directory"⟩, ?_⟩
          simp only [fileSystem, hn]
      obtain ⟨e, he⟩ := hstat
      unfold visitPath LocalFile.tryOpen at h
      rw [he] at h
      cases h
  · rintro ⟨n, hn, rfl⟩
    exact visitPath_of_resolve hn

/-- What the walk finds in a path are the paths of its entries. -/
theorem child_iff : Child (visitPath disk.fileSystem relativeRoot) p q ↔ disk.Entry p q := by
  constructor
  · rintro ⟨found, hvisit, hq⟩
    obtain ⟨n, hn, rfl⟩ := visitPath_ok_iff.mp hvisit
    split_ifs at hq with hdir
    · obtain ⟨e, he, hjoin⟩ := List.mem_map.mp hq
      exact ⟨n, hn, hdir, e, he, (Except.ok.inj hjoin).symm⟩
    · cases hq
  · rintro ⟨n, hn, hdir, e, he, rfl⟩
    refine ⟨_, visitPath_ok_iff.mpr ⟨n, hn, rfl⟩, ?_⟩
    rw [if_pos hdir]
    exact List.mem_map.mpr ⟨e, he, rfl⟩

/-- The walk reaches what the disk has below a path. -/
theorem reached_iff :
    PreorderWalk.Reached (visitPath disk.fileSystem relativeRoot) p q ↔ disk.Reached p q := by
  have hchild : Child (visitPath disk.fileSystem relativeRoot) = disk.Entry := by
    funext a b
    exact propext child_iff
  rw [PreorderWalk.Reached, hchild]

/-- Paths with the same components have the same components in them. -/
theorem keyedChildren :
    KeyedChildren PathBuf.components (visitPath disk.fileSystem relativeRoot) := by
  intro a b c found hkeys hvisit hchild
  obtain ⟨n, hn, rfl⟩ := visitPath_ok_iff.mp hvisit
  obtain ⟨m, hm, hdir, e, he, rfl⟩ := child_iff.mp hchild
  obtain rfl := resolve_eq_of_components hkeys hn hm
  rw [if_pos hdir]
  refine ⟨a.join e.1, List.mem_map.mpr ⟨e, he, rfl⟩, ?_⟩
  have hname := disk.entries_named n e he
  rw [PathBuf.components_join a hname, PathBuf.components_join b hname, hkeys]

/-- What a call that returned a list has walked. -/
theorem walked_of_constructFileList {fuel : ℕ} {files : List LocalFile}
    (h : constructFileList disk.fileSystem fuel paths = some (.ok files)) :
    ∃ relativeRoot, Walked PathBuf.components (visitPath disk.fileSystem relativeRoot) paths
      (files.map (·.path)) := by
  unfold constructFileList at h
  cases paths with
  | nil => simp at h
  | cons first rest =>
    simp only at h
    cases hparent : first.parent with
    | none => simp [hparent] at h
    | some relativeRoot =>
      simp only [hparent] at h
      have hwalk := constrFileLst_eq_preorder disk.fileSystem relativeRoot fuel
        ((first :: rest).map .ok) [] []
      rw [h, Option.map_some] at hwalk
      exact ⟨relativeRoot, walked_of_preorder keyedChildren hwalk.symm⟩

/-- A listed file is at its place in the walk, and its path leads somewhere. -/
theorem resolve_of_listed {files : List LocalFile}
    (h : Walked PathBuf.components (visitPath disk.fileSystem relativeRoot) paths
      (files.map (·.path))) {i : ℕ} {f : LocalFile} (hf : files[i]? = some f) :
    (files.map (·.path))[i]? = some f.path ∧ ∃ n, disk.resolve f.path = some n := by
  refine ⟨by rw [List.getElem?_map, hf]; rfl, ?_⟩
  obtain ⟨found, hvisit⟩ := h.visits f.path (List.mem_map.mpr ⟨f, List.mem_of_getElem? hf, rfl⟩)
  obtain ⟨n, hn, -⟩ := visitPath_ok_iff.mp hvisit
  exact ⟨n, hn⟩

/-- Going down adds components. -/
theorem components_of_reached (h : disk.Reached p q) : p.components <+: q.components := by
  induction h with
  | refl => exact List.prefix_refl _
  | tail _ hentry ih =>
    obtain ⟨d, -, -, e, he, rfl⟩ := hentry
    rw [PathBuf.components_join _ (disk.entries_named d e he)]
    exact ih.trans (List.prefix_append _ _)

/-- A path from which another one is reached is that one or leads to a directory. -/
theorem isDir_of_reached (h : disk.Reached p q) (hn : disk.resolve p = some n) :
    q = p ∨ disk.isDir n = true := by
  rcases Relation.ReflTransGen.cases_head h with rfl | ⟨r, ⟨d, hd, hdir, -⟩, -⟩
  · exact Or.inl rfl
  · obtain rfl : n = d := Option.some.inj (hn.symm.trans hd)
    exact Or.inr hdir

/-- From a path its own directory is not reached, where no directory is reached by two paths. -/
theorem OnePath.not_above (h : disk.OnePath paths) (hp : p ∈ paths)
    (hn : disk.resolve p = some n) (hd : disk.container p = some d) (hq : disk.Reached p q) :
    disk.resolve q ≠ some d := by
  intro hresolve
  obtain ⟨hdir, name, hentry⟩ := entry_of_container hn hd
  have hjoin := resolve_join hresolve hdir hentry
  have hnode : disk.isDir n = true := by
    rcases isDir_of_reached hq hn with rfl | hnode
    · obtain rfl : n = d := Option.some.inj (hn.symm.trans hresolve)
      exact hdir
    · exact hnode
  have hreached : disk.Reached p (q.join name) := hq.tail ⟨d, hresolve, hdir, _, hentry, rfl⟩
  have hsame := h p hp p hp p (q.join name) n .refl hreached hn hjoin hnode
  have hlength := (components_of_reached hq).length_le
  rw [hsame, PathBuf.components_join q (disk.entries_named d _ hentry), List.length_append,
    List.length_singleton] at hlength
  omega

/-- On a finite disk only finitely many keys are reached where no directory is reached by two
paths: those of the given paths, and one for each entry of a directory. -/
theorem OnePathEach.finite_components [Finite Node] (h : disk.OnePathEach paths) :
    {k | ∃ s ∈ paths, ∃ p, disk.Reached s p ∧ p.components = k}.Finite := by
  set dirs := {k | ∃ s ∈ paths, ∃ p n, disk.Reached s p ∧ disk.resolve p = some n ∧
    disk.isDir n = true ∧ p.components = k} with hdirs
  have hfinite : dirs.Finite := by
    refine Set.Finite.of_finite_image (f := disk.resolveComponents) (Set.toFinite _) ?_
    rintro _ ⟨s, hs, p, n, hp, hn, hdir, rfl⟩ _ ⟨t, ht, q, m, hq, hm, -, rfl⟩ hsame
    rw [resolveComponents_of_resolve hn, resolveComponents_of_resolve hm] at hsame
    obtain rfl : n = m := Option.some.inj hsame
    exact h.one s hs t ht p q n hp hq hn hm hdir
  have hentries : (⋃ k ∈ dirs, {k' | ∃ n, disk.resolveComponents k = some n ∧
      ∃ e ∈ disk.entries n, k' = k ++ [.normal e.1]}).Finite := by
    refine hfinite.biUnion fun k _ => ?_
    cases hk : disk.resolveComponents k with
    | none => exact Set.finite_empty.subset (by rintro _ ⟨n, hn, -⟩; cases hn)
    | some n =>
      refine ((disk.entries n).map fun e => k ++ [.normal e.1]).finite_toSet.subset ?_
      rintro _ ⟨m, hm, e, he, rfl⟩
      obtain rfl : n = m := Option.some.inj hm
      exact List.mem_map.mpr ⟨e, he, rfl⟩
  refine ((paths.map PathBuf.components).finite_toSet.union hentries).subset ?_
  rintro _ ⟨s, hs, p, hp, rfl⟩
  rcases Relation.ReflTransGen.cases_tail hp with rfl | ⟨q, hq, d, hd, hdir, e, he, rfl⟩
  · exact Or.inl (List.mem_map.mpr ⟨_, hs, rfl⟩)
  · refine Or.inr (Set.mem_biUnion ⟨s, hs, q, d, hq, hd, hdir, rfl⟩ ?_)
    exact ⟨d, resolveComponents_of_resolve hd, e, he,
      PathBuf.components_join q (disk.entries_named d e he)⟩

/-- The walk ends where no directory is reached by two paths. -/
theorem OnePathEach.ends [Finite Node] (h : disk.OnePathEach paths) :
    ∃ fuel result, constructFileList disk.fileSystem fuel paths = some result := by
  unfold constructFileList
  cases paths with
  | nil => exact ⟨0, _, rfl⟩
  | cons first rest =>
    simp only
    cases hparent : first.parent with
    | none => exact ⟨0, _, rfl⟩
    | some relativeRoot =>
      have hend : ∃ fuel result, preorder PathBuf.components
          (visitPath disk.fileSystem relativeRoot) fuel ((first :: rest).map .ok) [] [] =
            some result := by
        refine exists_preorder h.finite_components.toFinset fun a ha b hb => ?_
        obtain ⟨s, hs, hsa⟩ := List.mem_map.mp ha
        obtain rfl : s = a := Except.ok.inj hsa
        exact h.finite_components.mem_toFinset.mpr ⟨s, hs, b, reached_iff.mp hb, rfl⟩
      obtain ⟨fuel, result, hwalk⟩ := hend
      have hmap := constrFileLst_eq_preorder disk.fileSystem relativeRoot fuel
        ((first :: rest).map .ok) [] []
      rw [List.map_nil, hwalk] at hmap
      obtain ⟨files, hfiles, -⟩ := Option.map_eq_some_iff.mp hmap
      exact ⟨fuel, files, hfiles⟩

/-- Two listed files at one node that is a directory are the same. -/
theorem OnePathEach.once (h : disk.OnePathEach paths) {files : List PathBuf}
    (hwalk : Walked PathBuf.components (visitPath disk.fileSystem relativeRoot) paths files)
    {i j : ℕ} (hp : files[i]? = some p) (hq : files[j]? = some q) (hn : disk.resolve p = some n)
    (hm : disk.resolve q = some n) (hdir : disk.isDir n = true) : i = j := by
  obtain ⟨_, s, hs, hsp, -⟩ := hwalk.origin i p hp
  obtain ⟨_, t, ht, htq, -⟩ := hwalk.origin j q hq
  have hsame := h.one s (List.mem_of_getElem? hs) t (List.mem_of_getElem? ht) p q n
    (reached_iff.mp hsp) (reached_iff.mp htq) hn hm hdir
  exact hwalk.index_eq hp hq hsame

/-- A file is listed after the directory it is in. -/
theorem OnePathEach.after (h : disk.OnePathEach paths) {files : List PathBuf}
    (hwalk : Walked PathBuf.components (visitPath disk.fileSystem relativeRoot) paths files)
    {i j : ℕ} (hp : files[i]? = some p) (hq : files[j]? = some q) (hn : disk.resolve p = some n)
    (hd : disk.container p = some d) (hm : disk.resolve q = some d) : j < i := by
  have hdir := (entry_of_container hn hd).1
  obtain ⟨k, s, hs, hsp, hbefore, hfrom⟩ := hwalk.origin i p hp
  have hmem := List.mem_of_getElem? hs
  rcases hfrom with rfl | ⟨l, r, hl, hr, hchild⟩
  · -- A given path: what leads to its directory comes from an earlier one.
    obtain ⟨k', t, ht, htq, hbefore', -⟩ := hwalk.origin j q hq
    rcases Nat.lt_trichotomy k' k with hlt | rfl | hlt
    · exact hwalk.lt_of_mem_take hq (hbefore k' t q hlt ht htq) rfl
    · obtain rfl : p = t := Option.some.inj (hs.symm.trans ht)
      exact absurd hm (h.one.not_above hmem hn hd (reached_iff.mp htq))
    · obtain ⟨k'', u, q', hk'', hu, huq', hq'⟩ :=
        h.in_order k k' p t q d hlt hs ht hd (reached_iff.mp htq) hm
      have hsame := h.one u (List.mem_of_getElem? hu) t (List.mem_of_getElem? ht) q' q d huq'
        (reached_iff.mp htq) hq' hm hdir
      exact hwalk.lt_of_mem_take hq (hbefore k'' u q' hk'' hu (reached_iff.mpr huq')) hsame.symm
  · -- An entry of a directory that was listed before.
    obtain ⟨d', hd', -, e, he, rfl⟩ := child_iff.mp hchild
    rw [container_join hd' (disk.entries_named d' e he)] at hd
    obtain rfl : d' = d := Option.some.inj hd
    exact h.once hwalk hq hr hm hd' hdir ▸ hl

/-- Where one path leads to each node of a finite disk there is no loop. -/
theorem OnePathEach.loopFree [Finite Node] (h : disk.OnePathEach paths) :
    disk.LoopFree paths where
  ends := h.ends
  once fuel files hfiles i j f g n hf hg hn hm hdir := by
    obtain ⟨_, hwalk⟩ := walked_of_constructFileList hfiles
    exact h.once hwalk (resolve_of_listed hwalk hf).1 (resolve_of_listed hwalk hg).1 hn hm hdir
  after fuel files hfiles i j f g d hf hg hd hm := by
    obtain ⟨_, hwalk⟩ := walked_of_constructFileList hfiles
    obtain ⟨hp, n, hn⟩ := resolve_of_listed hwalk hf
    exact h.after hwalk hp (resolve_of_listed hwalk hg).1 hn hd hm

/-- Where every path is found, a walk that ends returns a list. -/
theorem AllFound.files (h : disk.AllFound paths) (hfree : disk.LoopFree paths) :
    ∃ fuel files, constructFileList disk.fileSystem fuel paths = some (.ok files) := by
  obtain ⟨fuel, result, hresult⟩ := hfree.ends
  obtain ⟨first, hfirst, hparent⟩ := h.parent
  obtain ⟨rest, rfl⟩ := List.head?_eq_some_iff.mp hfirst
  obtain ⟨relativeRoot, hparent⟩ := Option.ne_none_iff_exists'.mp hparent
  refine ⟨fuel, ?_⟩
  unfold constructFileList at hresult ⊢
  simp only [hparent] at hresult ⊢
  have hmap := constrFileLst_eq_preorder disk.fileSystem relativeRoot fuel
    ((first :: rest).map .ok) [] []
  rw [hresult, Option.map_some] at hmap
  obtain ⟨all, hall⟩ := preorder_ok (fun c hc => by
    obtain ⟨s, hs, rfl⟩ := List.mem_map.mp hc
    refine ⟨s, rfl, fun b hb => ?_⟩
    obtain ⟨n, hn⟩ := h.found s hs b (reached_iff.mp hb)
    refine ⟨_, visitPath_of_resolve hn, fun c hc => ?_⟩
    split_ifs at hc
    · obtain ⟨e, -, rfl⟩ := List.mem_map.mp hc
      exact ⟨_, rfl⟩
    · cases hc) hmap.symm
  cases result with
  | error e => simp [Except.map] at hall
  | ok files => exact ⟨files, hresult⟩

/-- What is reached is listed, under a path with the same components. -/
theorem listed_of_reached {files : List LocalFile}
    (hwalk : Walked PathBuf.components (visitPath disk.fileSystem relativeRoot) paths
      (files.map (·.path))) {s : PathBuf} (hs : s ∈ paths) (hp : disk.Reached s p)
    (hn : disk.resolve p = some n) :
    ∃ (i : ℕ) (f : LocalFile), files[i]? = some f ∧ f.path.components = p.components ∧
      disk.resolve f.path = some n := by
  obtain ⟨q, hq, hkeys⟩ := List.mem_map.mp (hwalk.complete s hs p (reached_iff.mpr hp))
  obtain ⟨f, hf, rfl⟩ := List.mem_map.mp hq
  obtain ⟨i, hi, rfl⟩ := List.mem_iff_getElem.mp hf
  have hget := List.getElem?_eq_getElem hi
  obtain ⟨m, hm⟩ := (resolve_of_listed hwalk hget).2
  obtain rfl := resolve_eq_of_components hkeys hm hn
  exact ⟨i, _, hget, hkeys, hm⟩

/-- Paths with the same components have the same container. -/
theorem container_congr (h : p.components = q.components) :
    disk.container p = disk.container q := by
  unfold container
  rw [h]

/-- Where every path is found and the list is as it should be, no directory is reached by two
paths, and the given paths are in order. -/
theorem AllFound.onePathEach (h : disk.AllFound paths) (hfree : disk.LoopFree paths) :
    disk.OnePathEach paths := by
  obtain ⟨fuel, files, hfiles⟩ := h.files hfree
  obtain ⟨relativeRoot, hwalk⟩ := walked_of_constructFileList hfiles
  have hone : disk.OnePath paths := by
    intro s hs t ht p q n hp hq hn hm hdir
    obtain ⟨i, f, hf, hfkeys, hfn⟩ := listed_of_reached hwalk hs hp hn
    obtain ⟨j, g, hg, hgkeys, hgn⟩ := listed_of_reached hwalk ht hq hm
    obtain rfl := hfree.once fuel files hfiles i j f g n hf hg hfn hgn hdir
    obtain rfl : f = g := Option.some.inj (hf.symm.trans hg)
    exact hfkeys.symm.trans hgkeys
  refine ⟨hone, fun i j s t q d hij hs ht hd hq hm => ?_⟩
  have hsmem := List.mem_of_getElem? hs
  obtain ⟨n, hn⟩ := h.found s hsmem s .refl
  obtain ⟨a, f, hf, hfkeys, hfn⟩ := listed_of_reached hwalk hsmem .refl hn
  obtain ⟨b, g, hg, hgkeys, hgn⟩ := listed_of_reached hwalk (List.mem_of_getElem? ht) hq hm
  have hfd : disk.container f.path = some d := (container_congr hfkeys).trans hd
  have hba := hfree.after fuel files hfiles a b f g d hf hg hfd hgn
  obtain ⟨k, u, hu, hug, hbefore, -⟩ := hwalk.origin b g.path (resolve_of_listed hwalk hg).1
  rcases Nat.lt_trichotomy k i with hlt | rfl | hlt
  · exact ⟨k, u, g.path, hlt, hu, reached_iff.mp hug, hgn⟩
  · obtain rfl : s = u := Option.some.inj (hs.symm.trans hu)
    exact absurd hgn (hone.not_above hsmem hn hd (reached_iff.mp hug))
  · have hab := hwalk.lt_of_mem_take (resolve_of_listed hwalk hf).1
      (hbefore i s s hlt hs .refl) hfkeys
    omega

/-- **The walk is loop-free** on every finite disk where no directory is reached by two paths and
the given paths are in order; on a disk where every path is found, only there. -/
theorem loopFree_iff_onePathEach [Fintype Node] (disk : Disk Node) (paths : List PathBuf) :
    (disk.OnePathEach paths → disk.LoopFree paths) ∧
      (disk.AllFound paths → (disk.LoopFree paths ↔ disk.OnePathEach paths)) :=
  ⟨fun h => h.loopFree, fun hfound => ⟨hfound.onePathEach, fun h => h.loopFree⟩⟩

/-- The root, `/d` with the file `/d/f` and the directory `/d/e`, and the file `/d/e/g`. -/
inductive NestedNode
  | root
  | dir
  | file
  | inner
  | innerFile
  deriving DecidableEq

namespace NestedNode

/-- The nodes of the nested disk. -/
def all : List NestedNode := [root, dir, file, inner, innerFile]

/-- They are all. -/
theorem mem_all (n : NestedNode) : n ∈ all := by
  cases n <;> decide

/-- The nested disk is finite. -/
instance : Fintype NestedNode := .ofList all mem_all

/-- The root and two directories. -/
def isDir : NestedNode → Bool
  | root | dir | inner => true
  | file | innerFile => false

/-- What the directories hold. -/
def entries : NestedNode → List (List UInt8 × Option NestedNode)
  | root => [([100], some dir)]
  | dir => [([102], some file), ([101], some inner)]
  | inner => [([103], some innerFile)]
  | file | innerFile => []

/-- The directory above a node. -/
def above : NestedNode → NestedNode
  | inner => dir
  | innerFile => inner
  | _ => root

/-- The entries have names. -/
theorem entries_named (n : NestedNode) : ∀ e ∈ n.entries, IsName e.1 := by
  have hname : ∀ name ∈ ([[100], [101], [102], [103]] : List (List UInt8)), IsName name := by
    intro name hname
    simp only [List.mem_cons, List.not_mem_nil, or_false] at hname
    rcases hname with rfl | rfl | rfl | rfl <;>
      exact ⟨by decide, by decide, by decide, by decide, by decide⟩
  intro e he
  refine hname e.1 ?_
  cases n <;> revert e <;> decide

/-- No directory has two entries of one name. -/
theorem entries_nodup (n : NestedNode) : (n.entries.map Prod.fst).Nodup := by
  cases n <;> decide

end NestedNode

/-- The disk of these directories and files. -/
def nestedDisk : Disk NestedNode where
  metadata n := ⟨0, by omega, n.isDir, 0o755, none⟩
  content _ := ⟨[], none⟩
  entries := NestedNode.entries
  above := NestedNode.above
  root := .root
  cwd := .root
  entries_named := NestedNode.entries_named
  entries_nodup := NestedNode.entries_nodup

/-- The paths from `/d` down. -/
def nestedPaths : List PathBuf :=
  [[47, 100], [47, 100, 47, 102], [47, 100, 47, 101], [47, 100, 47, 101, 47, 103]]

/-- Nothing else is reached from them. -/
theorem reached_nestedPaths {s p : PathBuf} (hs : s ∈ nestedPaths) (hp : nestedDisk.Reached s p) :
    p ∈ nestedPaths := by
  have hnext : ∀ p ∈ nestedPaths, ∀ d, nestedDisk.resolve p = some d →
      ∀ e ∈ nestedDisk.entries d, p.join e.1 ∈ nestedPaths := by decide
  induction hp with
  | refl => exact hs
  | tail _ hentry ih =>
    obtain ⟨d, hd, -, e, he, rfl⟩ := hentry
    exact hnext _ ih d hd e he

/-- Files in directories in a directory, two of which were given, are walked without a loop. -/
theorem loopFree_iff_onePathEach_nestedDisk :
    nestedDisk.LoopFree [[47, 100], [47, 100, 47, 101]] := by
  have hgiven : ∀ s ∈ ([[47, 100], [47, 100, 47, 101]] : List PathBuf), s ∈ nestedPaths := by decide
  have hone : ∀ p ∈ nestedPaths, ∀ q ∈ nestedPaths,
      nestedDisk.resolve p = nestedDisk.resolve q → p = q := by decide
  have hroot : ∀ q ∈ nestedPaths, nestedDisk.resolve q ≠ some .root := by decide
  refine (loopFree_iff_onePathEach nestedDisk [[47, 100], [47, 100, 47, 101]]).1 ⟨?_, ?_⟩
  · intro s hs t ht p q n hp hq hpn hqn _
    rw [hone p (reached_nestedPaths (hgiven s hs) hp) q (reached_nestedPaths (hgiven t ht) hq)
      (hpn.trans hqn.symm)]
  · intro i j s t q d hij hs ht hd hq hqd
    have hj := (List.getElem?_eq_some_iff.mp ht).1
    obtain ⟨rfl, rfl⟩ : i = 0 ∧ j = 1 := by
      simp only [List.length_cons, List.length_nil] at hj
      omega
    obtain rfl := Option.some.inj hs
    obtain rfl : NestedNode.root = d :=
      Option.some.inj ((show _ = some .root by decide).symm.trans hd)
    exact absurd hqd (hroot q (reached_nestedPaths (hgiven t (List.mem_of_getElem? ht)) hq))

/-- A disk of directories alone, `/d` and what the only entry of `/d` leads to. -/
def directories (inner : List (List UInt8 × Option Bool))
    (hnamed : ∀ e ∈ inner, IsName e.1) (hnodup : (inner.map Prod.fst).Nodup) : Disk Bool where
  metadata _ := ⟨0, by omega, true, 0o755, none⟩
  content _ := ⟨[], none⟩
  entries d := if d then inner else [([100], some true)]
  above _ := false
  root := false
  cwd := false
  entries_named d e he := by
    cases d
    · obtain rfl : e = ([100], some true) := by simpa using he
      exact ⟨by decide, by decide, by decide, by decide, by decide⟩
    · exact hnamed e he
  entries_nodup d := by
    cases d
    · exact List.nodup_singleton _
    · exact hnodup

/-- `/d/l` is a link to `/d`. -/
def linkedDirectory : Disk Bool :=
  directories [([108], some true)]
    (by
      intro e he
      obtain rfl : e = ([108], some true) := by simpa using he
      exact ⟨by decide, by decide, by decide, by decide, by decide⟩)
    (by simp)

/-- Every path below the link is found. -/
theorem allFound_linkedDirectory : linkedDirectory.AllFound [[47, 100]] where
  parent := ⟨[47, 100], rfl, by decide⟩
  found s hs p hp := by
    obtain rfl := List.mem_singleton.mp hs
    refine ⟨true, ?_⟩
    induction hp with
    | refl => decide
    | tail _ hentry ih =>
      obtain ⟨d, hd, hdir, e, he, rfl⟩ := hentry
      obtain rfl : true = d := Option.some.inj (ih.symm.trans hd)
      obtain rfl : e = ([108], some true) := List.mem_singleton.mp he
      exact resolve_join hd hdir he

/-- A link to the directory that holds it is a loop. -/
theorem not_loopFree_linkedDirectory : ¬ linkedDirectory.LoopFree [[47, 100]] := by
  intro hfree
  have hone := (allFound_linkedDirectory.onePathEach hfree).one
  have hentry : linkedDirectory.Entry [47, 100] [47, 100, 47, 108] :=
    ⟨true, by decide, rfl, ([108], some true), List.mem_singleton.mpr rfl, rfl⟩
  have hsame := hone [47, 100] (by simp) [47, 100] (by simp) [47, 100] [47, 100, 47, 108] true .refl
    (.single hentry) (by decide) (by decide) rfl
  revert hsame
  decide

end Disk

end RdWeb.Clipboard
