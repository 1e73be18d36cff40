import RdWeb.Clipboard.LocalFile

/-!
# Disks with directories and symbolic links

`metadata` and `read_dir` follow symbolic links, so an entry of a directory stands for what its link
leads to. A path is resolved component by component; a path that ends in a separator or
in `.` asks for a directory.
-/

namespace RdWeb.Clipboard

/-- The name of an entry of a directory. -/
structure IsName (name : List UInt8) : Prop where
  no_separator : 47 ∉ name
  no_null : 0 ∉ name
  ne_nil : name ≠ []
  ne_dot : name ≠ [46]
  ne_dots : name ≠ [46, 46]

namespace PathBuf

/-- `Path::join` with the name of an entry. -/
def join (p : PathBuf) (name : List UInt8) : PathBuf :=
  if p = [] then name else if p.getLast? = some 47 then p ++ name else p ++ 47 :: name

/-- The path ends in a separator or in `.`. -/
def asksDirectory (p : PathBuf) : Bool := p.parts.getLast?.any fun part => decide (IsSkipped part)

/-- Joining a nonempty list with one more part. -/
theorem intercalate_append_singleton {l : List (List UInt8)} (hl : l ≠ []) (x : List UInt8) :
    [47].intercalate (l ++ [x]) = [47].intercalate l ++ 47 :: x := by
  induction l with
  | nil => exact absurd rfl hl
  | cons first rest ih =>
    cases rest with
    | nil => simp [List.intercalate_cons_cons]
    | cons second rest =>
      have hfirst : [47].intercalate (first :: second :: rest) =
          first ++ 47 :: [47].intercalate (second :: rest) := intercalate_cons (by simp)
      rw [List.cons_append, intercalate_cons (by simp), ih (by simp), hfirst, List.append_assoc,
        List.cons_append]

/-- What follows the last separator is the last part. -/
theorem parts_append_sep (q : PathBuf) {x : List UInt8} (hx : 47 ∉ x) :
    parts (q ++ 47 :: x) = q.parts ++ [x] := by
  have hne : q.parts ≠ [] := List.splitOn_ne_nil _ _
  have hjoin : q ++ 47 :: x = [47].intercalate (q.parts ++ [x]) := by
    rw [intercalate_append_singleton hne, parts, List.intercalate_splitOn]
  rw [hjoin]
  refine parts_intercalate (by simp) fun part hpart => ?_
  rcases List.mem_append.mp hpart with hpart | hpart
  · exact not_mem_of_mem_parts hpart
  · exact List.mem_singleton.mp hpart ▸ hx

/-- The part after the last separator does not change how a path leads in. -/
theorem lead_append_sep (q : PathBuf) {x : List UInt8} (hx : 47 ∉ x) :
    lead (q ++ 47 :: x) = lead (q ++ [47]) := by
  have hne : q.parts ≠ [] := List.splitOn_ne_nil _ _
  have hparts : (parts (q ++ [47])).head? = q.parts.head? := by
    rw [parts_append_sep q (x := []) (by simp), List.head?_append_of_ne_nil _ hne]
  unfold lead
  rw [hparts, parts_append_sep q hx, List.head?_append_of_ne_nil _ hne]
  cases q <;> rfl

/-- The first component does not change behind a separator. -/
theorem lead_append_of_ne_nil {q : PathBuf} (hq : q ≠ []) : lead (q ++ [47]) = q.lead := by
  have hne : q.parts ≠ [] := List.splitOn_ne_nil _ _
  unfold lead
  rw [parts_append_sep q (x := []) (by simp), List.head?_append_of_ne_nil _ hne,
    List.head?_append_of_ne_nil _ hq]

/-- The components of a path with one more part. -/
theorem components_append_sep (q : PathBuf) {x : List UInt8} (hx : 47 ∉ x) :
    components (q ++ 47 :: x) =
      lead (q ++ [47]) ++ bodyComponents q.parts ++ bodyComponents [x] := by
  rw [components, lead_append_sep q hx, parts_append_sep q hx, List.append_assoc,
    ← bodyComponents_append]
  rfl

/-- A name that is joined is the last component. -/
theorem components_join (p : PathBuf) {name : List UInt8} (h : IsName name) :
    (p.join name).components = p.components ++ [.normal name] := by
  have hname : bodyComponents [name] = [.normal name] := by
    have hskipped : ¬ IsSkipped name := not_or.mpr ⟨h.ne_nil, h.ne_dot⟩
    rw [bodyComponents_singleton hskipped, if_neg h.ne_dots]
  unfold join
  split_ifs with hnil hsep
  · subst hnil
    exact components_single h.no_separator h.ne_nil h.ne_dot h.ne_dots
  · obtain ⟨q, rfl⟩ := List.getLast?_eq_some_iff.mp hsep
    rw [List.append_assoc, List.singleton_append, components_append_sep q h.no_separator, hname,
      components_append_sep q (x := []) (by simp),
      bodyComponents_cons_of_skipped (Or.inl rfl), bodyComponents_nil, List.append_nil]
  · rw [components_append_sep p h.no_separator, hname, lead_append_of_ne_nil hnil]
    rfl

/-- A path that ends in a name does not ask for a directory. -/
theorem asksDirectory_join (p : PathBuf) {name : List UInt8} (h : IsName name) :
    (p.join name).asksDirectory = false := by
  have hlast : (p.join name).parts.getLast? = some name := by
    unfold join
    split_ifs with hnil hsep
    · rw [show parts name = [name] from List.splitOn_eq_singleton h.no_separator]
      rfl
    · obtain ⟨q, rfl⟩ := List.getLast?_eq_some_iff.mp hsep
      rw [List.append_assoc, List.singleton_append, parts_append_sep q h.no_separator]
      simp
    · rw [parts_append_sep p h.no_separator]
      simp
  rw [asksDirectory, hlast, Option.any_some]
  exact decide_eq_false (not_or.mpr ⟨h.ne_nil, h.ne_dot⟩)

/-- A path that ends in a name is not empty. -/
theorem join_ne_nil (p : PathBuf) {name : List UInt8} (h : IsName name) : p.join name ≠ [] := by
  unfold join
  split_ifs
  · exact h.ne_nil
  · simp [h.ne_nil]
  · simp

/-- A path that ends in a name has no null byte if the path before it has none. -/
theorem no_null_join {p : PathBuf} {name : List UInt8} (hp : 0 ∉ p) (h : IsName name) :
    0 ∉ p.join name := by
  unfold join
  split_ifs <;> simp [hp, h.no_null]

end PathBuf

/-- A disk: what its nodes are, what the entries of each directory lead to (`none` for a link that
leads nowhere), the directory above each one, and where paths start. -/
structure Disk (Node : Type*) where
  metadata : Node → Metadata
  content : Node → FileContent
  entries : Node → List (List UInt8 × Option Node)
  above : Node → Node
  root : Node
  cwd : Node
  entries_named : ∀ n, ∀ e ∈ entries n, IsName e.1
  entries_nodup : ∀ n, ((entries n).map Prod.fst).Nodup

namespace Disk

variable {Node : Type*}

/-- A node is a directory. -/
def isDir (disk : Disk Node) (n : Node) : Bool := (disk.metadata n).isDir

/-- One component further, which only a directory has. -/
def follow (disk : Disk Node) (n : Node) : Component → Option Node
  | .rootDir => some disk.root
  | .curDir => if disk.isDir n then some n else none
  | .parentDir => if disk.isDir n then some (disk.above n) else none
  | .normal name =>
    if disk.isDir n then ((disk.entries n).find? fun e => decide (e.1 = name)).bind (·.2)
    else none

/-- The node to which components lead from the working directory. -/
def resolveComponents (disk : Disk Node) (components : List Component) : Option Node :=
  components.foldlM disk.follow disk.cwd

/-- The node a path leads to; no path with a null byte reaches the operating system. -/
def resolve (disk : Disk Node) (p : PathBuf) : Option Node :=
  if p = [] ∨ 0 ∈ p then none
  else (disk.resolveComponents p.components).filter fun n => !p.asksDirectory || disk.isDir n

/-- The directory a path finds its last name in. -/
def container (disk : Disk Node) (p : PathBuf) : Option Node :=
  match p.components.getLast? with
  | some (.normal _) => disk.resolveComponents p.components.dropLast
  | _ => none

/-- The calls of the standard library on the disk. -/
def fileSystem (disk : Disk Node) : FileSystem where
  metadata path :=
    match disk.resolve path with
    | some n => .ok (disk.metadata n)
    | none => .error ⟨.notFound, "No such file or directory"⟩
  readDir path :=
    match disk.resolve path with
    | some n =>
      if disk.isDir n then .ok ((disk.entries n).map fun e => .ok (path.join e.1))
      else .error ⟨.other, "Not a directory"⟩
    | none => .error ⟨.notFound, "No such file or directory"⟩
  openFile path :=
    match disk.resolve path with
    | some n => .ok (disk.content n)
    | none => .error ⟨.notFound, "No such file or directory"⟩

variable {disk : Disk Node} {p q : PathBuf} {n d : Node} {name : List UInt8}

/-- A path that is found is found component by component. -/
theorem resolveComponents_of_resolve (h : disk.resolve p = some n) :
    disk.resolveComponents p.components = some n := by
  unfold resolve at h
  split_ifs at h
  exact (Option.filter_eq_some_iff.mp h).1

/-- A path that is found has no null byte. -/
theorem no_null_of_resolve (h : disk.resolve p = some n) : 0 ∉ p := by
  unfold resolve at h
  split_ifs at h with hnone
  exact (not_or.mp hnone).2

/-- Paths with the same components lead to the same node, when they lead to one. -/
theorem resolve_eq_of_components (h : p.components = q.components) (hp : disk.resolve p = some n)
    (hq : disk.resolve q = some d) : n = d := by
  have hn := resolveComponents_of_resolve hp
  rw [h, resolveComponents_of_resolve hq] at hn
  exact (Option.some.inj hn).symm

/-- The last component is followed from where the others lead. -/
theorem resolveComponents_concat (components : List Component) (c : Component) :
    disk.resolveComponents (components ++ [c]) =
      (disk.resolveComponents components).bind fun n => disk.follow n c := by
  simp [resolveComponents, List.foldlM_append]

/-- An entry is found under its name. -/
theorem follow_normal (hd : disk.isDir d = true) {target : Option Node}
    (h : (name, target) ∈ disk.entries d) : disk.follow d (.normal name) = target := by
  have hfind : (disk.entries d).find? (fun e => decide (e.1 = name)) = some (name, target) := by
    cases hfound : (disk.entries d).find? (fun e => decide (e.1 = name)) with
    | none => simpa using List.find?_eq_none.mp hfound _ h
    | some e =>
      have hname : e.1 = name := by simpa using List.find?_some hfound
      have hmem := List.mem_of_find?_eq_some hfound
      have heq := List.inj_on_of_nodup_map (disk.entries_nodup d) hmem h hname
      rw [heq]
  rw [follow, if_pos hd, hfind, Option.bind_some]

/-- The path of an entry leads to what the entry stands for. -/
theorem resolve_join (hp : disk.resolve p = some d) (hd : disk.isDir d = true)
    {target : Option Node} (h : (name, target) ∈ disk.entries d) :
    disk.resolve (p.join name) = target := by
  have hname : IsName name := disk.entries_named d _ h
  have hnull := PathBuf.no_null_join (no_null_of_resolve hp) hname
  rw [resolve, if_neg (not_or.mpr ⟨PathBuf.join_ne_nil p hname, hnull⟩),
    PathBuf.asksDirectory_join p hname, PathBuf.components_join p hname,
    resolveComponents_concat, resolveComponents_of_resolve hp, Option.bind_some,
    follow_normal hd h]
  cases target <;> simp

/-- The container of a joined path is the directory it was joined to. -/
theorem container_join (hp : disk.resolve p = some d) (hname : IsName name) :
    disk.container (p.join name) = some d := by
  unfold container
  rw [PathBuf.components_join p hname, List.getLast?_concat, List.dropLast_concat]
  exact resolveComponents_of_resolve hp

/-- What a path leads to is an entry of its container. -/
theorem entry_of_container (hp : disk.resolve p = some n) (hd : disk.container p = some d) :
    disk.isDir d = true ∧ ∃ name, (name, some n) ∈ disk.entries d := by
  unfold container at hd
  cases hlast : p.components.getLast? with
  | none => simp [hlast] at hd
  | some c =>
    cases c with
    | normal name =>
      simp only [hlast] at hd
      obtain ⟨front, hfront⟩ := List.getLast?_eq_some_iff.mp hlast
      have hn := resolveComponents_of_resolve hp
      rw [hfront, List.dropLast_concat] at hd
      rw [hfront, resolveComponents_concat, hd, Option.bind_some, follow] at hn
      split_ifs at hn with hdir
      obtain ⟨e, hfind, he⟩ := Option.bind_eq_some_iff.mp hn
      refine ⟨hdir, e.1, ?_⟩
      rw [← he]
      exact List.mem_of_find?_eq_some hfind
    | rootDir => simp [hlast] at hd
    | curDir => simp [hlast] at hd
    | parentDir => simp [hlast] at hd

end Disk

end RdWeb.Clipboard
