import Tracepoint.Proofs.Files.Actions

/-!
# What is in a directory

A directory lists the name of everything that stands in it, once (`FileTree.mem_names_iff`,
`FileTree.nodup_names`), in an order that two hosts with the same files need not share
(`Host.Relisted`). What stands in a directory is reached by a path to the directory that its name
is joined to (`Host.resolve_join`). Some of the names are those of files (`Host.filesIn`).
-/

namespace Tracepoint

namespace FileTree

variable {t : FileTree} {l : Location} {n : String}

theorem names_eq (t : FileTree) (l : Location) : t.names l =
    (t.entries.map Prod.fst).filterMap fun m => if m.dropLast = l then m.getLast? else none := by
  rw [List.filterMap_map]
  rfl

theorem lastName_eq_some_iff {m : Location} :
    (if m.dropLast = l then m.getLast? else none) = some n ↔ m = l ++ [n] := by
  constructor
  · intro last
    split at last
    · rename_i above
      rw [← above, List.dropLast_append_getLast? n last]
    · cases last
  · rintro rfl
    simp

/-- **A directory lists what stands in it.** -/
theorem mem_names_iff : n ∈ t.names l ↔ (t.get? (l ++ [n])).isSome := by
  rw [names_eq, List.mem_filterMap]
  simp only [lastName_eq_some_iff, exists_eq_right]
  refine ⟨fun member => ?_, mem_of_isSome_get?⟩
  obtain ⟨e, there, same⟩ := List.mem_map.mp member
  exact List.lookup_isSome_iff.mpr ⟨e, there, by simp [same]⟩

theorem nodup_names (t : FileTree) (l : Location) : (t.names l).Nodup := by
  rw [names_eq]
  refine t.distinct.filterMap fun m m' n last last' => ?_
  rw [lastName_eq_some_iff.mp last, lastName_eq_some_iff.mp last']

theorem walk_append {here : Location} {front back : List String} :
    t.walk here (front ++ back) = .ok l ↔
      ∃ m, t.walk here front = .ok m ∧ t.walk m back = .ok l := by
  induction front generalizing here with
  | nil => simp [walk]
  | cons s front ih =>
    rw [List.cons_append, walk_cons_eq_ok_iff, ih]
    simp only [walk_cons_eq_ok_iff]
    grind

/-- A way that ends in a directory starts in one. -/
theorem isDir_of_walk {here : Location} {segments : List String}
    (found : t.walk here segments = .ok l) (dir : t.IsDir l) : t.IsDir here := by
  cases segments with
  | nil =>
    cases found
    exact dir
  | cons s rest => exact (walk_cons_eq_ok_iff.mp found).1

end FileTree

namespace Path

/-- A path to a name ends in the name, and nothing but a slash is added to the path before it. -/
theorem exists_toList_join {s : String} (name : IsName s) (p : Path) :
    ∃ front, (join p s).toList = front ++ s.toList ∧ ∀ c ∈ front, c ∈ p.toList ∨ c = '/' := by
  rw [join, name.not_isAbsolute, if_neg Bool.false_ne_true]
  split
  · exact ⟨p.toList, by simp, fun c member => .inl member⟩
  · exact ⟨p.toList ++ ['/'], by simp, fun c member => by simpa using member⟩

theorem fault?_eq_none_iff {p : Path} :
    fault? p = none ↔ '\x00' ∉ p.toList ∧ p.utf8ByteSize ≤ maxLength := by
  rw [fault?]
  split
  · simp_all
  · split <;> simp_all

theorem fault?_join {s : String} {p : Path} (name : IsName s) (sound : fault? p = none)
    (noNul : '\x00' ∉ s.toList) (short : (join p s).utf8ByteSize ≤ maxLength) :
    fault? (join p s) = none := by
  obtain ⟨front, chars, clean⟩ := exists_toList_join name p
  refine fault?_eq_none_iff.mpr ⟨?_, short⟩
  rw [chars, List.mem_append, not_or]
  refine ⟨fun member => ?_, noNul⟩
  rcases clean _ member with inPath | slash
  · exact (fault?_eq_none_iff.mp sound).1 inPath
  · cases slash

end Path

namespace Host

variable {h h' : Host} {p dir : Path} {l : Location} {n s : String} {names : List String}

/-- The same files, listed in any other order. -/
structure Relisted (h h' : Host) : Prop where
  workingDir : h'.workingDir = h.workingDir
  files : ∀ l, h'.files.get? l = h.files.get? l

theorem Relisted.isDir_iff (again : h.Relisted h') : h'.files.IsDir l ↔ h.files.IsDir l := by
  rw [FileTree.IsDir, FileTree.IsDir, again.files]

theorem Relisted.content? (again : h.Relisted h') (l : Location) :
    h'.files.content? l = h.files.content? l := by
  rw [FileTree.content?, FileTree.content?, again.files]

theorem Relisted.perm_names (again : h.Relisted h') (l : Location) :
    (h'.files.names l).Perm (h.files.names l) := by
  rw [List.perm_ext_iff_of_nodup (FileTree.nodup_names _ _) (FileTree.nodup_names _ _)]
  intro n
  rw [FileTree.mem_names_iff, FileTree.mem_names_iff, again.files]

theorem Relisted.resolve (again : h.Relisted h') (found : h.resolve p = .ok l) :
    h'.resolve p = .ok l :=
  resolve_mono again.workingDir (fun _ => again.isDir_iff.mpr) found

theorem list_eq_ok_iff : h.list p = .ok names ↔
    ∃ l, h.resolve p = .ok l ∧ h.files.IsDir l ∧ h.files.names l = names := by
  rw [list]
  cases h.resolve p with
  | error e => simp
  | ok l =>
    simp only [Except.ok.injEq, exists_eq_left', FileTree.IsDir]
    rcases h.files.get? l with _ | (_ | _) <;> simp

/-- A name leads to a place in the directory that a path leads to. -/
theorem resolve_join (found : h.resolve dir = .ok l) (there : h.files.IsDir l)
    (name : Path.IsName s) (short : s.utf8ByteSize ≤ Path.maxName)
    (sound : Path.fault? (Path.join dir s) = none) :
    h.resolve (Path.join dir s) = .ok (l ++ [s]) := by
  obtain ⟨nonempty, -, walked⟩ := resolve_eq_ok_iff.mp found
  obtain ⟨way, whole, ⟨rest, before⟩, same⟩ := Path.segments_join name dir
  obtain ⟨front, chars, -⟩ := Path.exists_toList_join name dir
  have start : h.startOf (Path.join dir s) = h.startOf dir := by
    rw [startOf, startOf, Path.isAbsolute_join name]
  refine resolve_eq_ok_iff.mpr ⟨?_, sound, ?_⟩
  · have nonempty' : Path.join dir s ≠ "" := by
      intro empty
      have none : front = [] ∧ s = "" := by simpa [empty] using chars.symm
      exact name.notEmpty none.2
    simpa using nonempty'
  · rw [start, whole, FileTree.walk_append]
    rw [← before] at walked same
    obtain ⟨m, first, -⟩ := FileTree.walk_append.mp walked
    have here : m = l := by
      rw [FileTree.walk_eq_ok first, FileTree.walk_eq_ok walked, same]
    subst here
    have last : Path.next m s = m ++ [s] := name.follow m
    exact ⟨m, first, FileTree.walk_cons_eq_ok_iff.mpr
      ⟨there, .inr (.inr (.inr short)), by rw [last, FileTree.walk]⟩⟩

/-! ### Files in a directory -/

/-- The names of the files in a directory, in the order in which it is listed. -/
def filesIn (h : Host) (dir : Path) : List String :=
  match h.list dir with
  | .ok names => names.filter fun n => h.isFile (Path.join dir n)
  | .error _ => []

theorem mem_filesIn_iff : n ∈ h.filesIn dir ↔
    (∃ l, h.resolve dir = .ok l ∧ h.files.IsDir l ∧ (h.files.get? (l ++ [n])).isSome) ∧
      h.isFile (Path.join dir n) := by
  rw [filesIn]
  cases listed : h.list dir with
  | ok names =>
    obtain ⟨l, leads, there, rfl⟩ := list_eq_ok_iff.mp listed
    simp [leads, there, FileTree.mem_names_iff]
  | error e =>
    refine iff_of_false List.not_mem_nil ?_
    rintro ⟨⟨l, leads, there, -⟩, -⟩
    have found := list_eq_ok_iff.mpr ⟨l, leads, there, rfl⟩
    rw [listed] at found
    cases found

theorem isDir_of_mem_filesIn (member : n ∈ h.filesIn dir) : h.isDir dir := by
  obtain ⟨⟨l, leads, there, -⟩, -⟩ := mem_filesIn_iff.mp member
  exact FileAction.isDir_iff.mpr ⟨l, leads, there⟩

theorem Relisted.symm (again : h.Relisted h') : h'.Relisted h where
  workingDir := again.workingDir.symm
  files l := (again.files l).symm

theorem Relisted.isFile (again : h.Relisted h') {p : Path} (file : h.isFile p) : h'.isFile p := by
  obtain ⟨l, leads, held⟩ := FileAction.isFile_iff.mp file
  exact FileAction.isFile_iff.mpr ⟨l, again.resolve leads, again.content? l ▸ held⟩

theorem Relisted.mem_filesIn (again : h.Relisted h') (member : n ∈ h.filesIn dir) :
    n ∈ h'.filesIn dir := by
  obtain ⟨⟨l, leads, there, listed⟩, file⟩ := mem_filesIn_iff.mp member
  exact mem_filesIn_iff.mpr ⟨⟨l, again.resolve leads, again.isDir_iff.mpr there,
    again.files (l ++ [n]) ▸ listed⟩, again.isFile file⟩

end Host

namespace FileAction

open Host FileTree

variable {h : Host} {p : Path} {l here : Location} {segments : List String}

theorem makeWay_eq (found : h.files.walk here segments = .ok l) (dir : h.files.IsDir l) :
    makeWay here segments h = .ok () h := by
  induction segments generalizing here with
  | nil => rfl
  | cons s rest ih =>
    obtain ⟨-, fits, later⟩ := walk_cons_eq_ok_iff.mp found
    have there := isDir_of_walk later dir
    obtain ⟨-, same⟩ | ⟨free, -, -⟩ | ⟨down, long | noDir, -⟩ := makeWay_cons here s rest h
    · rw [same]
      exact ih later
    · exact absurd there.isSome (by simp [free])
    · grind
    · exact absurd there noDir

/-- A directory that is there is not made again. -/
theorem createDirAll_eq (found : h.resolve p = .ok l) (dir : h.files.IsDir l) :
    createDirAll p h = .ok () h := by
  obtain ⟨-, sound, walked⟩ := resolve_eq_ok_iff.mp found
  rw [createDirAll, sound]
  exact makeWay_eq walked dir

end FileAction

end Tracepoint
