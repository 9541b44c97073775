import Mathlib.Data.List.Induction
import Mathlib.Data.List.Nodup
import Tracepoint.Files.Action

/-!
# Places

Following a path visits directories and ends at a place that the working directory and the
path determine, whatever the files are (`Path.place`, `Host.place_of_resolve`); the absolute path
of a place leads to it (`Host.place_pathOf`). In a tree in which everything stands in a directory
(`FileTree.Rooted`), nothing stands below a file or a free place. A temporary name is free in its
directory (`FileAction.get?_freeName`), because there are more such names than places in use.
-/

namespace Tracepoint

/-! ### What stands at a place -/

/-- The content of a file; a directory has none. -/
def Node.content? : Node → Option ByteArray
  | file content _ => some content
  | dir _ => none

namespace FileTree

/-- Whether a directory stands at a place. -/
def IsDir (t : FileTree) (l : Location) : Prop :=
  ∃ time, t.get? l = some (.dir time)

/-- The content of the file at a place. -/
def content? (t : FileTree) (l : Location) : Option ByteArray :=
  (t.get? l).bind Node.content?

/-- Everything but the root stands in a directory. -/
def Rooted (t : FileTree) : Prop :=
  ∀ l s, (t.get? (l ++ [s])).isSome → t.IsDir l

variable {t t' : FileTree} {l m : Location}

theorem IsDir.isSome (dir : t.IsDir l) : (t.get? l).isSome := by
  obtain ⟨time, here⟩ := dir
  rw [here]
  rfl

theorem isDir_iff : t.IsDir l ↔ (t.get? l).any Node.isDir := by
  rw [IsDir]
  rcases t.get? l with _ | (_ | _) <;> simp [Node.isDir]

instance : Decidable (t.IsDir l) :=
  decidable_of_iff _ isDir_iff.symm

/-- The places in use are those of the entries. -/
theorem mem_of_isSome_get? (there : (t.get? l).isSome) : l ∈ t.entries.map Prod.fst := by
  obtain ⟨e, member, same⟩ := List.lookup_isSome_iff.mp there
  exact List.mem_map.mpr ⟨e, member, (beq_iff_eq.mp same).symm⟩

theorem content?_of_isDir (dir : t.IsDir l) : t.content? l = none := by
  obtain ⟨time, here⟩ := dir
  rw [content?, here]
  rfl

theorem content?_of_get?_eq_none (free : t.get? l = none) : t.content? l = none := by
  rw [content?, free]
  rfl

/-- What stands somewhere is a directory or a file with some content. -/
theorem isSome_get?_iff : (t.get? l).isSome ↔ t.IsDir l ∨ (t.content? l).isSome := by
  rw [IsDir, content?]
  cases t.get? l with
  | none => simp
  | some n => cases n <;> simp [Node.content?]

theorem not_isDir_of_content? {content : ByteArray} (file : t.content? l = some content) :
    ¬ t.IsDir l := by
  intro dir
  rw [content?_of_isDir dir] at file
  cases file

/-- To see that a tree is rooted, it is enough to look at its entries. -/
theorem rooted_of_entries
    (dirs : ∀ l ∈ t.entries.map Prod.fst, l ≠ [] → t.IsDir l.dropLast) : t.Rooted := by
  intro l s there
  have dir := dirs _ (mem_of_isSome_get? there) (by simp)
  rwa [List.dropLast_concat] at dir

/-- Above anything there are directories only. -/
theorem Rooted.isDir_of_append (rooted : t.Rooted) {s : String} {rest : List String}
    (there : (t.get? (l ++ s :: rest)).isSome) : t.IsDir l := by
  induction rest using List.reverseRecOn with
  | nil => exact rooted l s there
  | append_singleton rest r ih =>
    rw [← List.cons_append, ← List.append_assoc] at there
    exact ih (rooted _ r there).isSome

/-- Nothing stands below a place where no directory stands. -/
theorem Rooted.get?_eq_none_of_prefix (rooted : t.Rooted) (noDir : ¬ t.IsDir l) (below : l <+: m)
    (other : m ≠ l) : t.get? m = none := by
  obtain ⟨rest, rfl⟩ := below
  cases rest with
  | nil => exact absurd (List.append_nil l) other
  | cons s rest =>
    rw [← Option.not_isSome_iff_eq_none]
    exact fun there => noDir (rooted.isDir_of_append there)

/-- A place that is free, and every place below it, holds no file. -/
theorem Rooted.content?_eq_none_of_prefix (rooted : t.Rooted) (free : t.get? l = none)
    (below : l <+: m) : t.content? m = none := by
  have noDir : ¬ t.IsDir l := fun dir => by simpa [free] using dir.isSome
  by_cases same : m = l
  · exact content?_of_get?_eq_none (same ▸ free)
  · exact content?_of_get?_eq_none (rooted.get?_eq_none_of_prefix noDir below same)

end FileTree

/-! ### Following a path -/

namespace Path

/-- Where one segment leads from a place. -/
def next (here : Location) (s : String) : Location :=
  if s = "" ∨ s = "." then here else if s = ".." then here.dropLast else here ++ [s]

/-- The place that some segments lead to, if every step of the way can be made. -/
def follow (here : Location) (segments : List String) : Location :=
  segments.foldl next here

/-- The place that a path leads to from a working directory. -/
def place (workingDir : Location) (p : Path) : Location :=
  follow (if isAbsolute p then [] else workingDir) (segments p)

/-- A name that a file can have: one segment of a path that leads down. -/
structure IsName (s : String) : Prop where
  noSlash : '/' ∉ s.toList
  notEmpty : s ≠ ""
  notDot : s ≠ "."
  notDots : s ≠ ".."

instance (s : String) : Decidable (IsName s) :=
  decidable_of_iff ('/' ∉ s.toList ∧ s ≠ "" ∧ s ≠ "." ∧ s ≠ "..")
    ⟨fun ⟨noSlash, notEmpty, notDot, notDots⟩ => ⟨noSlash, notEmpty, notDot, notDots⟩,
    fun ⟨noSlash, notEmpty, notDot, notDots⟩ => ⟨noSlash, notEmpty, notDot, notDots⟩⟩

theorem IsName.follow {s : String} (name : IsName s) (here : Location) :
    Path.follow here [s] = here ++ [s] := by
  simp [Path.follow, next, name.notEmpty, name.notDot, name.notDots]

theorem segments_cons_of_ne {sep c : Char} (other : c ≠ sep) (cs : List Char) :
    ∃ s rest, Text.segments sep cs = s :: rest ∧
      Text.segments sep (c :: cs) = (c :: s) :: rest := by
  have nonempty : ∃ s rest, Text.segments sep cs = s :: rest := by
    cases cs with
    | nil => exact ⟨_, _, rfl⟩
    | cons d ds =>
      rw [Text.segments]
      split
      · exact ⟨_, _, rfl⟩
      · split <;> exact ⟨_, _, rfl⟩
  obtain ⟨s, rest, split⟩ := nonempty
  refine ⟨s, rest, split, ?_⟩
  rw [Text.segments, if_neg other, split]

theorem segments_ne_nil (p : Path) : segments p ≠ [] := by
  rw [segments, ne_eq, List.map_eq_nil_iff]
  cases p.toList with
  | nil => simp [Text.segments]
  | cons c cs =>
    by_cases sep : c = '/'
    · simp [Text.segments, sep]
    · obtain ⟨_, _, -, split⟩ := segments_cons_of_ne sep cs
      simp [split]

theorem segments_append_sep (sep : Char) (xs ys : List Char) :
    Text.segments sep (xs ++ sep :: ys) = Text.segments sep xs ++ Text.segments sep ys := by
  induction xs with
  | nil => simp [Text.segments]
  | cons c cs ih =>
    by_cases same : c = sep
    · rw [List.cons_append, Text.segments, if_pos same, ih, Text.segments, if_pos same]
      rfl
    · obtain ⟨s, rest, split, whole⟩ := segments_cons_of_ne same cs
      obtain ⟨s', rest', split', whole'⟩ := segments_cons_of_ne same (cs ++ sep :: ys)
      rw [ih, split, List.cons_append, List.cons.injEq] at split'
      obtain ⟨rfl, rfl⟩ := split'
      rw [List.cons_append, whole', whole]
      rfl

theorem segments_of_not_mem {sep : Char} {cs : List Char} (none : sep ∉ cs) :
    Text.segments sep cs = [cs] := by
  induction cs with
  | nil => rfl
  | cons c cs ih =>
    rw [List.mem_cons, not_or] at none
    rw [Text.segments, if_neg (Ne.symm none.1), ih none.2]

theorem not_mem_of_mem_segments {sep : Char} {cs : List Char} {s : List Char}
    (member : s ∈ Text.segments sep cs) : sep ∉ s := by
  induction cs generalizing s with
  | nil =>
    obtain rfl : s = [] := by simpa [Text.segments] using member
    simp
  | cons c cs ih =>
    by_cases same : c = sep
    · rw [Text.segments, if_pos same, List.mem_cons] at member
      rcases member with rfl | later
      · simp
      · exact ih later
    · obtain ⟨first, rest, split, whole⟩ := segments_cons_of_ne same cs
      rw [whole, List.mem_cons] at member
      rcases member with rfl | later
      · have absent := ih (split ▸ List.mem_cons_self)
        simp [Ne.symm same, absent]
      · exact ih (split ▸ List.mem_cons_of_mem _ later)

theorem IsName.segments {s : String} (name : IsName s) : Path.segments s = [s] := by
  rw [Path.segments, segments_of_not_mem name.noSlash]
  simp

theorem IsName.not_isAbsolute {s : String} (name : IsName s) : isAbsolute s = false := by
  have noSlash := name.noSlash
  rw [isAbsolute, decide_eq_false_iff_not]
  intro first
  exact noSlash (List.mem_of_mem_head? first)

theorem isAbsolute_append {p : Path} (nonempty : p.toList ≠ []) (q : String) :
    isAbsolute (p ++ q) = isAbsolute p := by
  obtain ⟨c, cs, chars⟩ := List.exists_cons_of_ne_nil nonempty
  simp [isAbsolute, chars]

theorem isAbsolute_join {s : String} (name : IsName s) (p : Path) :
    isAbsolute (join p s) = isAbsolute p := by
  rw [join, name.not_isAbsolute, if_neg Bool.false_ne_true]
  by_cases empty : p.toList = []
  · obtain rfl : p = "" := String.toList_inj.mp empty
    rw [if_pos (by simp), String.empty_append, name.not_isAbsolute]
    rfl
  · split
    · exact isAbsolute_append empty s
    · rw [String.append_assoc]
      exact isAbsolute_append empty _

/-- A name comes behind the segments of the path before it, or in the place of the last one if the
path is empty or ends in a slash. -/
theorem segments_join_cases {s : String} (name : IsName s) (p : Path) :
    segments (join p s) = segments p ++ [s] ∨
      ∃ way, segments p = way ++ [""] ∧ segments (join p s) = way ++ [s] := by
  rw [join, name.not_isAbsolute, if_neg Bool.false_ne_true]
  by_cases empty : p.toList = []
  · obtain rfl : p = "" := String.toList_inj.mp empty
    refine .inr ⟨[], rfl, ?_⟩
    rw [if_pos (by simp), String.empty_append, name.segments, List.nil_append]
  by_cases slash : p.toList.getLast? = some '/'
  · obtain ⟨cs, chars⟩ := List.getLast?_eq_some_iff.mp slash
    refine .inr ⟨(Text.segments '/' cs).map String.ofList, ?_, ?_⟩
    · rw [segments, chars, segments_append_sep, List.map_append]
      rfl
    · rw [if_pos (by simp [slash]), segments, String.toList_append, chars, List.append_assoc,
        List.singleton_append, segments_append_sep, segments_of_not_mem name.noSlash]
      simp
  · left
    rw [if_neg (by simp [slash]; simpa using empty), String.append_assoc, segments,
      String.toList_append, String.toList_append, show "/".toList = ['/'] from rfl,
      List.singleton_append, segments_append_sep, segments_of_not_mem name.noSlash]
    simp [segments]

/-- The path to a name takes the way of the path before it, and then one step more. -/
theorem segments_join {s : String} (name : IsName s) (p : Path) :
    ∃ way, segments (join p s) = way ++ [s] ∧ way <+: segments p ∧
      ∀ here, follow here way = follow here (segments p) := by
  rcases segments_join_cases name p with split | ⟨way, before, split⟩
  · exact ⟨segments p, split, List.prefix_rfl, fun here => rfl⟩
  · refine ⟨way, split, before ▸ List.prefix_append _ _, fun here => ?_⟩
    rw [before, follow, follow, List.foldl_append]
    rfl

/-- A name leads one step on from where the path before it leads. -/
theorem place_join {s : String} (name : IsName s) (workingDir : Location) (p : Path) :
    place workingDir (join p s) = place workingDir p ++ [s] := by
  obtain ⟨way, segments, -, same⟩ := segments_join name p
  rw [place, place, isAbsolute_join name, segments, ← same, follow, List.foldl_append]
  exact name.follow _

theorem isName_of_mem_next {l : Location} {s : String} (clean : ∀ n ∈ l, IsName n)
    (noSlash : '/' ∉ s.toList) : ∀ n ∈ next l s, IsName n := by
  intro n member
  rw [next] at member
  split at member
  · exact clean n member
  · split at member
    · exact clean n ((List.dropLast_subset l) member)
    · rename_i passed up
      rcases List.mem_append.mp member with above | last
      · exact clean n above
      · obtain rfl := List.mem_singleton.mp last
        rw [not_or] at passed
        exact ⟨noSlash, passed.1, passed.2, up⟩

/-- The place of a path is spelled in names, if that of the working directory is. -/
theorem isName_of_mem_place {wd : Location} {p : Path} (clean : ∀ n ∈ wd, IsName n) :
    ∀ n ∈ place wd p, IsName n := by
  have noSlash : ∀ s ∈ segments p, '/' ∉ s.toList := by
    intro s member
    obtain ⟨cs, segment, rfl⟩ := List.mem_map.mp member
    rw [String.toList_ofList]
    exact not_mem_of_mem_segments segment
  refine List.foldlRecOn (motive := fun l : Location => ∀ n ∈ l, IsName n) _ next ?_ ?_
  · split
    · simp
    · exact clean
  · exact fun l clean s member => isName_of_mem_next clean (noSlash s member)

theorem trimBack_eq_self {c : Char} {cs : List Char} (noSlash : c ≠ '/')
    (noDot : c = '.' → cs.head? ≠ some '/') : trimBack (c :: cs) = c :: cs := by
  rw [trimBack.eq_def]
  split <;> simp_all

/-- Read from its end, the path to a name starts with the name and goes on with a slash, unless the
path before it is empty. -/
theorem reverse_join {s : String} (name : IsName s) (p : Path) :
    ∃ front, (join p s).toList.reverse = s.toList.reverse ++ front ∧ (∀ c ∈ front.head?, c = '/') ∧
      (front = p.toList.reverse ∨ p.toList ≠ [] ∧ front = '/' :: p.toList.reverse) := by
  rw [join, name.not_isAbsolute, if_neg Bool.false_ne_true]
  split
  · refine ⟨p.toList.reverse, by simp, ?_, .inl rfl⟩
    rw [List.head?_reverse]
    grind
  · rename_i plain
    refine ⟨'/' :: p.toList.reverse, by simp, by simp, .inr ⟨?_, rfl⟩⟩
    intro empty
    simp [empty] at plain

section Name

variable {s : String} (name : IsName s) {front : List Char} (slash : ∀ c ∈ front.head?, c = '/')

include name

/-- Nothing is trimmed from a name at the end. -/
theorem IsName.trimBack_append :
    trimBack (s.toList.reverse ++ front) = s.toList.reverse ++ front := by
  cases chars : s.toList.reverse with
  | nil =>
    have empty : s = "" := String.toList_eq_nil_iff.mp (List.reverse_eq_nil_iff.mp chars)
    exact absurd empty name.notEmpty
  | cons c cs =>
    have noSlash : ∀ d ∈ c :: cs, d ≠ '/' := by
      rintro d member rfl
      exact name.noSlash (List.mem_reverse.mp (chars ▸ member))
    refine trimBack_eq_self (noSlash c List.mem_cons_self) ?_
    rintro rfl
    cases cs with
    | nil =>
      have dot : s = "." := String.toList_inj.mp (List.reverse_eq_iff.mp chars)
      exact absurd dot name.notDot
    | cons d ds =>
      have other := noSlash d (by simp)
      simpa using other

include slash

/-- A name ends where the slash in front of it stands. -/
theorem IsName.span_append :
    (s.toList.reverse ++ front).takeWhile (· ≠ '/') = s.toList.reverse ∧
      (s.toList.reverse ++ front).dropWhile (· ≠ '/') = front := by
  have noSlash : ∀ c ∈ s.toList.reverse, c ≠ '/' := by
    rintro c member rfl
    exact name.noSlash (List.mem_reverse.mp member)
  rw [List.takeWhile_append_of_pos (by simpa using noSlash),
    List.dropWhile_append_of_pos (by simpa using noSlash)]
  cases front with
  | nil => simp
  | cons c cs =>
    obtain rfl : c = '/' := slash c rfl
    simp

end Name

/-- A name that leads on from a path is the file name there. -/
theorem fileName?_join {s : String} (name : IsName s) (p : Path) :
    fileName? (join p s) = some s := by
  obtain ⟨front, back, slash, -⟩ := reverse_join name p
  rw [fileName?, lastSegment, back, name.trimBack_append, (name.span_append slash).1,
    List.reverse_reverse]
  have dot : s.toList ≠ ['.'] := fun same => name.notDot (String.toList_inj.mp same)
  have dots : s.toList ≠ ['.', '.'] := fun same => name.notDots (String.toList_inj.mp same)
  simp [name.notEmpty, dot, dots]

/-- No part of the way along a path, and not the place it leads to, is at or below some place. -/
def Avoids (workingDir : Location) (p : Path) (l : Location) : Prop :=
  ∀ n, ¬ l <+: follow (if isAbsolute p then [] else workingDir) ((segments p).take n)

theorem Avoids.not_prefix_place {workingDir l : Location} {p : Path}
    (avoids : Avoids workingDir p l) : ¬ l <+: place workingDir p := by
  have whole := avoids (segments p).length
  rwa [List.take_length] at whole

/-- The path to a name avoids what the path before it avoids, if the name does not lead there. -/
theorem Avoids.join {workingDir l : Location} {p : Path} {s : String}
    (avoids : Avoids workingDir p l) (name : IsName s) (other : l ≠ place workingDir p ++ [s]) :
    Avoids workingDir (join p s) l := by
  obtain ⟨way, whole, ⟨tail, before⟩, same⟩ := segments_join name p
  intro n below
  rw [isAbsolute_join name, whole] at below
  by_cases short : n ≤ way.length
  · rw [List.take_append_of_le_length short] at below
    have earlier := avoids n
    rw [← before, List.take_append_of_le_length short] at earlier
    exact earlier below
  · rw [List.take_of_length_le (by simp; omega), follow, List.foldl_append] at below
    have last : l <+: place workingDir p ++ [s] := by
      rw [place, ← same, ← name.follow]
      exact below
    rcases List.prefix_concat_iff.mp last with here | earlier
    · exact other here
    · exact avoids.not_prefix_place earlier

end Path

namespace FileTree

variable {t t' : FileTree} {here l : Location} {s : String} {rest : List String}

/-- A step of the way is made in a directory, by a name that is not too long. -/
theorem walk_cons_eq_ok_iff : t.walk here (s :: rest) = .ok l ↔
    t.IsDir here ∧ (s = "" ∨ s = "." ∨ s = ".." ∨ s.utf8ByteSize ≤ Path.maxName) ∧
      t.walk (Path.next here s) rest = .ok l := by
  rw [walk, IsDir, Path.next]
  cases there : t.get? here with
  | none => simp
  | some n =>
    cases n with
    | file content time => simp
    | dir time => grind

theorem walk_eq_ok {segments : List String} (found : t.walk here segments = .ok l) :
    l = Path.follow here segments := by
  induction segments generalizing here with
  | nil =>
    cases found
    rfl
  | cons s rest ih => exact ih (walk_cons_eq_ok_iff.mp found).2.2

/-- The way along some segments stays open as long as the directories on it stay. -/
theorem walk_mono {segments : List String}
    (dirs : ∀ n, t.IsDir (Path.follow here (segments.take n)) →
      t'.IsDir (Path.follow here (segments.take n)))
    (found : t.walk here segments = .ok l) : t'.walk here segments = .ok l := by
  induction segments generalizing here with
  | nil => exact found
  | cons s rest ih =>
    obtain ⟨dir, fits, later⟩ := walk_cons_eq_ok_iff.mp found
    exact walk_cons_eq_ok_iff.mpr ⟨dirs 0 dir, fits, ih (fun n => dirs (n + 1)) later⟩

/-- A place that is in a directory, if it is not the root. -/
def Grounded (t : FileTree) (l : Location) : Prop :=
  ∀ m s, l = m ++ [s] → t.IsDir m

theorem Rooted.grounded_next (rooted : t.Rooted) (dir : t.IsDir here) (s : String) :
    t.Grounded (Path.next here s) := by
  intro m r there
  rw [Path.next] at there
  split at there
  · subst there
    exact rooted m r dir.isSome
  · split at there
    · have nonempty : here ≠ [] := by
        rintro rfl
        simp at there
      rw [← List.dropLast_append_getLast nonempty, there, List.append_assoc] at dir
      exact rooted.isDir_of_append dir.isSome
    · obtain ⟨rfl, -⟩ := List.append_inj' there rfl
      exact dir

/-- The place that a way ends at is in a directory. -/
theorem Rooted.grounded_of_walk (rooted : t.Rooted)
    (found : t.walk here (s :: rest) = .ok l) : t.Grounded l := by
  induction rest generalizing here s with
  | nil =>
    obtain ⟨dir, -, last⟩ := walk_cons_eq_ok_iff.mp found
    cases last
    exact rooted.grounded_next dir s
  | cons s' rest ih => exact ih (walk_cons_eq_ok_iff.mp found).2.2

end FileTree

namespace Host

variable {h h' : Host} {p : Path} {l : Location}

theorem resolve_eq_ok_iff : h.resolve p = .ok l ↔
    p.isEmpty = false ∧ Path.fault? p = none ∧
      h.files.walk (h.startOf p) (Path.segments p) = .ok l := by
  rw [resolve]
  split
  · simp_all
  · split <;> simp_all

/-- The place of a path that leads somewhere depends on nothing but the working directory. -/
theorem place_of_resolve (found : h.resolve p = .ok l) : Path.place h.workingDir p = l :=
  (FileTree.walk_eq_ok (resolve_eq_ok_iff.mp found).2.2).symm

/-- A path leads where it led as long as the directories on its way stay. -/
theorem resolve_mono (workingDir : h'.workingDir = h.workingDir)
    (dirs : ∀ n, h.files.IsDir (Path.follow (h.startOf p) ((Path.segments p).take n)) →
      h'.files.IsDir (Path.follow (h.startOf p) ((Path.segments p).take n)))
    (found : h.resolve p = .ok l) : h'.resolve p = .ok l := by
  obtain ⟨nonempty, sound, way⟩ := resolve_eq_ok_iff.mp found
  have start : h'.startOf p = h.startOf p := by rw [startOf, startOf, workingDir]
  exact resolve_eq_ok_iff.mpr ⟨nonempty, sound, by rw [start]; exact FileTree.walk_mono dirs way⟩

theorem grounded_of_resolve (rooted : h.files.Rooted) (found : h.resolve p = .ok l) :
    h.files.Grounded l := by
  obtain ⟨-, -, way⟩ := resolve_eq_ok_iff.mp found
  obtain ⟨s, rest, segments⟩ := List.exists_cons_of_ne_nil (Path.segments_ne_nil p)
  rw [segments] at way
  exact rooted.grounded_of_walk way

/-- The absolute path of a place ends in its last name. -/
theorem exists_toList_pathOf (l : Location) (s : String) :
    ∃ front, (pathOf (l ++ [s])).toList = front ++ s.toList := by
  by_cases root : l = []
  · exact ⟨['/'], by simp [pathOf, root]⟩
  · rw [pathOf, String.intercalate_append_of_ne_nil root (by simp), String.intercalate_singleton,
      ← String.append_assoc, String.toList_append]
    exact ⟨_, rfl⟩

theorem pathOf_append {s : String} (names : ∀ n ∈ l, Path.IsName n) (name : Path.IsName s) :
    pathOf (l ++ [s]) = Path.join (pathOf l) s := by
  rw [Path.join, name.not_isAbsolute, if_neg Bool.false_ne_true]
  rcases List.eq_nil_or_concat' l with rfl | ⟨above, n, rfl⟩
  · simp [pathOf]
  · have last : Path.IsName n := names n (by simp)
    obtain ⟨front, chars⟩ := exists_toList_pathOf above n
    obtain ⟨start, c, ends⟩ := (List.eq_nil_or_concat' n.toList).resolve_left fun empty =>
      last.notEmpty (String.toList_eq_nil_iff.mp empty)
    have noSlash : c ≠ '/' := by
      rintro rfl
      exact last.noSlash (by simp [ends])
    rw [if_neg (by simp [chars, ends, noSlash]), pathOf,
      String.intercalate_append_of_ne_nil (by simp) (by simp), String.intercalate_singleton, pathOf]
    simp only [String.append_assoc]

/-- The absolute path of a place leads to it. -/
theorem place_pathOf (names : ∀ n ∈ l, Path.IsName n) (wd : Location) :
    Path.place wd (pathOf l) = l := by
  induction l using List.reverseRecOn with
  | nil => rfl
  | append_singleton l s ih =>
    have name : Path.IsName s := names s (by simp)
    have above : ∀ n ∈ l, Path.IsName n := fun n member => names n (by simp [member])
    rw [pathOf_append above name, Path.place_join name, ih above]

end Host

/-! ### Temporary names -/

namespace FileAction

/-- The digits of a temporary name. -/
def tempDigits (n : Nat) : List Char :=
  List.replicate (6 - (Nat.toDigits 10 n).length) '0' ++ Nat.toDigits 10 n

theorem toList_tempName (n : Nat) : (tempName n).toList = ['.', 't', 'm', 'p'] ++ tempDigits n := by
  simp [tempName, tempDigits]

theorem isName_tempName (n : Nat) : Path.IsName (tempName n) where
  noSlash := by
    rw [toList_tempName]
    intro slash
    rcases List.mem_append.mp slash with start | digit
    · simp at start
    · rcases List.mem_append.mp digit with zero | digit
      · have := List.eq_of_mem_replicate zero
        cases this
      · have := Nat.isDigit_of_mem_toDigits (by decide) (Nat.le_refl 10) digit
        cases this
  notEmpty same := by
    have chars := toList_tempName n
    simp [same] at chars
  notDot same := by
    have chars := toList_tempName n
    simp [same] at chars
  notDots same := by
    have chars := toList_tempName n
    simp [same] at chars

theorem isName_freeName (t : FileTree) (dir : Location) : Path.IsName (freeName t dir) :=
  isName_tempName _

theorem tempName_injective : Function.Injective tempName := by
  intro m n same
  have digits : tempDigits m = tempDigits n := by
    have chars := congrArg String.toList same
    rw [toList_tempName, toList_tempName] at chars
    exact List.append_cancel_left chars
  have number (k : Nat) : Nat.ofDigitChars 10 (tempDigits k) 0 = k := by
    rw [tempDigits, Nat.ofDigitChars_append, Nat.ofDigitChars_replicate_zero, Nat.mul_zero]
    exact Nat.ofDigitChars_ten_toDigits
  rw [← number m, digits, number n]

/-- The name that is taken for something temporary is free, since there is one name more than
there are places in use. -/
theorem get?_freeName (t : FileTree) (dir : Location) :
    t.get? (dir ++ [freeName t dir]) = none := by
  rw [freeName]
  cases first : (List.range t.entries.length).find? fun n =>
      (t.get? (dir ++ [tempName n])).isNone with
  | some n =>
    have free := List.find?_some first
    simpa using free
  | none =>
    rw [Option.getD_none]
    by_contra taken
    have used : ∀ n ∈ List.range (t.entries.length + 1),
        dir ++ [tempName n] ∈ t.entries.map Prod.fst := by
      intro n below
      have there : (t.get? (dir ++ [tempName n])).isSome := by
        rcases Nat.lt_succ_iff_lt_or_eq.mp (List.mem_range.mp below) with less | rfl
        · have passed := List.find?_eq_none.mp first n (List.mem_range.mpr less)
          simpa [Option.isSome_iff_ne_none] using passed
        · exact Option.isSome_iff_ne_none.mpr taken
      exact FileTree.mem_of_isSome_get? there
    have distinct : ((List.range (t.entries.length + 1)).map fun n => dir ++ [tempName n]).Nodup :=
      List.nodup_range.map fun m n same =>
        tempName_injective (by simpa using List.append_cancel_left same)
    have many := distinct.length_le_of_subset fun l member => by
      obtain ⟨n, below, rfl⟩ := List.mem_map.mp member
      exact used n below
    rw [List.length_map, List.length_map, List.length_range] at many
    omega

end FileAction

end Tracepoint
