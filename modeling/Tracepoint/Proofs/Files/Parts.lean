import Tracepoint.Proofs.Files.Places

/-!
# Paths in parts

A path may be spelled in several ways: slashes and single dots on the way count for nothing, and
two spellings are the same path if they have the same parts (`Path.Parts`). The same path leads to
the same place (`Path.place_eq`). A name that is joined to a path becomes its last part
(`Path.parts_join`), and what is left without it is the path, perhaps in another spelling
(`Path.parts_dropLast_join`).
-/

namespace Tracepoint.Path

/-- What a path says, however it is spelled. -/
structure Parts where
  /-- Whether the path starts at the root. -/
  absolute : Bool
  /-- Whether the path starts with a single dot. -/
  dotted : Bool
  /-- The names on the way. -/
  names : List String
  deriving DecidableEq

/-- Whether a segment is passed over. -/
def isPassed (s : String) : Bool :=
  s = "" ∨ s = "."

/-- The parts of a path. -/
def parts (p : Path) : Parts where
  absolute := isAbsolute p
  dotted := (segments p).head? = some "."
  names := (segments p).filter fun s => !isPassed s

variable {p q : Path} {s : String} {cs : List Char}

theorem segments_append_slash (cs ds : List Char) : segments (.ofList (cs ++ '/' :: ds)) =
    segments (.ofList cs) ++ segments (.ofList ds) := by
  simp only [segments, String.toList_ofList, segments_append_sep, List.map_append]

theorem follow_filter (here : Location) (way : List String) :
    follow here (way.filter fun s => !isPassed s) = follow here way := by
  rw [follow, follow, List.foldl_filter]
  congr 1
  funext here s
  by_cases passed : isPassed s
  · have stays : next here s = here := if_pos (by simpa [isPassed] using passed)
    simp [passed, stays]
  · simp [passed]

/-- A path leads where its parts lead. -/
theorem place_eq (workingDir : Location) (p : Path) : place workingDir p =
    follow (if p.parts.absolute then [] else workingDir) p.parts.names :=
  (follow_filter _ _).symm

/-! ### Slashes and dots at the end -/

/-- Behind a slash, what is passed over is no part of a path. -/
theorem parts_append_passed {ds : List Char}
    (passed : ∀ s ∈ segments (.ofList ds), isPassed s = true) (cs : List Char) :
    parts (.ofList (cs ++ '/' :: ds)) =
      { absolute := isAbsolute (.ofList (cs ++ ['/']))
        dotted := (parts (.ofList cs)).dotted
        names := (parts (.ofList cs)).names } := by
  have none : ((segments (.ofList ds)).filter fun s => !isPassed s) = [] :=
    List.filter_eq_nil_iff.mpr fun s member => by simp [passed s member]
  rw [parts, segments_append_slash, List.filter_append, none, List.append_nil,
    List.head?_append_of_ne_nil _ (segments_ne_nil _)]
  cases cs <;> simp [isAbsolute, parts]

theorem parts_append_slash (occupied : cs ≠ []) :
    parts (.ofList (cs ++ ['/'])) = parts (.ofList cs) := by
  rw [parts_append_passed (by decide)]
  simp [parts, isAbsolute, List.head?_append_of_ne_nil _ occupied]

theorem parts_append_slash_dot (cs : List Char) :
    parts (.ofList (cs ++ ['/', '.'])) = parts (.ofList (cs ++ ['/'])) := by
  rw [parts_append_passed (by decide), parts_append_passed (by decide)]

/-- The slashes and dots that end a path are no parts of it. -/
theorem parts_trimBack (back : List Char) :
    parts (.ofList (trimBack back).reverse) = parts (.ofList back.reverse) := by
  induction back using trimBack.induct with
  | case1 => rfl
  | case2 rest occupied ih =>
    rw [trimBack, ih, List.reverse_cons, parts_append_slash]
    · simpa using occupied
    · exact occupied
  | case3 rest ih =>
    rw [trimBack, ih]
    simpa using (parts_append_slash_dot rest.reverse).symm
  | case4 cs => rw [trimBack.eq_def]; split <;> simp_all

/-! ### Names at the end -/

/-- A name that is joined to a path is its last part. -/
theorem parts_join (name : IsName s) (p : Path) : parts (join p s) =
    { absolute := p.parts.absolute, dotted := p.parts.dotted, names := p.parts.names ++ [s] } := by
  have kept : isPassed s = false := by simp [isPassed, name.notEmpty, name.notDot]
  have passed : isPassed "" = true := by decide
  rw [parts, isAbsolute_join name]
  rcases segments_join_cases name p with split | ⟨way, before, split⟩
  · simp [parts, split, List.head?_append_of_ne_nil _ (segments_ne_nil p), kept]
  · by_cases bare : way = []
    · simp [parts, split, before, bare, kept, passed, name.notDot]
    · simp [parts, split, before, List.head?_append_of_ne_nil _ bare, kept, passed]

/-- What is left of a path without the name at its end is the path before the name. -/
theorem parts_dropLast_join (name : IsName s) (p : Path) :
    parts (dropLast (join p s)) = parts p := by
  obtain ⟨front, back, slash, before⟩ := reverse_join name p
  rw [dropLast, back, name.trimBack_append, (name.span_append slash).2, parts_trimBack]
  rcases before with rfl | ⟨occupied, rfl⟩
  · simp
  · rw [List.reverse_cons, List.reverse_reverse, parts_append_slash occupied, String.ofList_toList]

/-- Another name takes the place of the name at the end of a path. -/
theorem withFileName_join (name : IsName s) (p : Path) (s' : String) :
    withFileName (join p s) s' = join (dropLast (join p s)) s' := by
  rw [withFileName, fileName?_join name]
  rfl

end Tracepoint.Path
