import Tracepoint.Proofs.Code.Directories
import Tracepoint.Proofs.Files.Receiving

/-!
# Writing a directory of documents

However it ends, writing the documents of units changes nothing but what is missing on the way to
the directory and the places that the names of the units lead to (`UnitDirectory.left_write`). A
name without a slash leads to a file in the directory itself. A name with one leads on from there,
like any path, and so out of the directory (`UnitDirectory.write_outside`) or to the place of
another unit. The document that is left in a place is that of the last unit that leads there
(`UnitDirectory.documented_of_write`).
-/

namespace Tracepoint.UnitDirectory

variable {dir : Path} {h h' : Host} {u : CodeUnit} {units : List CodeUnit} {e : Fault}

/-- The place that the name of a unit leads to from a directory. -/
def documentPlace (workingDir : Location) (dir : Path) (u : CodeUnit) : Location :=
  (Path.join dir (documentName u)).place workingDir

theorem documentPlace_congr {v : CodeUnit} (same : u.name = v.name) (workingDir : Location)
    (dir : Path) : documentPlace workingDir dir u = documentPlace workingDir dir v := by
  rw [documentPlace, documentPlace, documentName, documentName, same]

/-- The documents of some units, at their places. -/
def documents (workingDir : Location) (dir : Path) (units : List CodeUnit) :
    List (Location × ByteArray) :=
  units.map fun u => (documentPlace workingDir dir u, u.document.toUTF8)

theorem toList_documentName (u : CodeUnit) :
    (documentName u).toList = u.name.toList ++ ['.', 'j', 's', 'o', 'n'] := by
  simp [documentName, extension]

theorem isName_documentName (noSlash : '/' ∉ u.name.toList) : Path.IsName (documentName u) := by
  have long : 5 ≤ (documentName u).toList.length := by simp [toList_documentName]
  refine ⟨by simp [toList_documentName, noSlash], ?_, ?_, ?_⟩
  all_goals
    intro same
    simp [same] at long

theorem documentPlace_eq (workingDir : Location) (dir : Path) (noSlash : '/' ∉ u.name.toList) :
    documentPlace workingDir dir u = dir.place workingDir ++ [documentName u] :=
  Path.place_join (isName_documentName noSlash) workingDir dir

/-! ### One document -/

theorem writeUnit_eq_ok (done : writeUnit dir u h = .ok () h') :
    h.Receives ∅ (documents h.workingDir dir [u]) h' :=
  FileAction.receives_of_write (adaptExcept_eq_ok_iff.mp done)

theorem writeUnit_eq_error (failed : writeUnit dir u h = .error e h') : h' = h := by
  obtain ⟨cause, failed, -⟩ := adaptExcept_eq_error_iff.mp failed
  exact FileAction.write_eq_error failed

/-! ### All documents -/

/-- The documents are written one after another, up to the first that cannot be written. -/
theorem left_forM_writeUnit (dir : Path) (units : List CodeUnit) (h : Host) :
    ∃ done, done <+: units ∧
      (faultOf? (units.forM (writeUnit dir) h) = none → done = units) ∧
      h.Receives ∅ (documents h.workingDir dir done) (left (units.forM (writeUnit dir)) h) := by
  induction units generalizing h with
  | nil => exact ⟨[], List.prefix_rfl, fun _ => rfl, .refl ∅ h⟩
  | cons u units ih =>
    have step : (u :: units).forM (writeUnit dir) =
        (writeUnit dir u >>= fun _ => units.forM (writeUnit dir)) := rfl
    rw [step]
    cases first : writeUnit dir u h with
    | error e mid =>
      obtain rfl := writeUnit_eq_error first
      refine ⟨[], List.nil_prefix, fun succeeded => ?_, ?_⟩
      · rw [bind_of_error first] at succeeded
        cases succeeded
      · rw [left_of_error (bind_of_error first)]
        exact .refl ∅ mid
    | ok a mid =>
      have received := writeUnit_eq_ok first
      obtain ⟨done, whole, all, rest⟩ := ih mid
      refine ⟨u :: done, List.cons_prefix_cons.mpr ⟨rfl, whole⟩, fun succeeded => ?_, ?_⟩
      · rw [bind_of_ok first] at succeeded
        rw [all succeeded]
      · rw [received.workingDir] at rest
        rw [left, bind_of_ok first]
        exact received.trans rest

/-- However writing ends, the host has received the documents of the first units, and of all units
if it succeeds. -/
theorem receives_left_write (dir : Path) (units : List CodeUnit) (h : Host) :
    ∃ done, done <+: units ∧ (faultOf? (write dir units h) = none → done = units) ∧
      h.Receives (dir.way h.workingDir) (documents h.workingDir dir done)
        (left (write dir units) h) := by
  have way := FileAction.receives_left_createDirAll dir h
  rw [write]
  cases made : (FileAction.createDirAll dir).within ("failed to create " ++ dir) h with
  | error e mid =>
    obtain ⟨cause, failed, -⟩ := adaptExcept_eq_error_iff.mp made
    rw [left_of_error failed] at way
    refine ⟨[], List.nil_prefix, fun succeeded => ?_, ?_⟩
    · rw [bind_of_error made] at succeeded
      cases succeeded
    · rwa [left_of_error (bind_of_error made)]
  | ok a mid =>
    rw [left_of_ok (adaptExcept_eq_ok_iff.mp made)] at way
    obtain ⟨done, whole, all, received⟩ := left_forM_writeUnit dir units mid
    rw [way.workingDir] at received
    refine ⟨done, whole, fun succeeded => ?_, ?_⟩
    · rw [bind_of_ok made] at succeeded
      exact all succeeded
    · rw [left, bind_of_ok made]
      exact way.trans (received.mono (Set.empty_subset _))

theorem receives_of_write (done : write dir units h = .ok () h') :
    h.Receives (dir.way h.workingDir) (documents h.workingDir dir units) h' := by
  obtain ⟨written, -, all, received⟩ := receives_left_write dir units h
  rwa [all (by rw [done]; rfl), left_of_ok done] at received

/-- **What writing changes.** However it ends, the documents of the first units are at the places
that their names lead to, of all units if it succeeds; nothing else is changed but what was missing
on the way to the directory. The places are in the directory for names without a slash. -/
theorem left_write (dir : Path) (units : List CodeUnit) (h : Host) :
    ∃ done, done <+: units ∧ (faultOf? (write dir units h) = none → done = units) ∧
      h.Receives (dir.way h.workingDir) (documents h.workingDir dir done)
        (left (write dir units) h) ∧
      ∀ u ∈ units, '/' ∉ u.name.toList →
        documentPlace h.workingDir dir u = dir.place h.workingDir ++ [documentName u] := by
  obtain ⟨done, whole, all, received⟩ := receives_left_write dir units h
  exact ⟨done, whole, all, received, fun u _ noSlash => documentPlace_eq h.workingDir dir noSlash⟩

/-! ### What is left at a place -/

/-- The last of some units whose document leads to a place. -/
def lastAt? (workingDir : Location) (dir : Path) (units : List CodeUnit) (l : Location) :
    Option CodeUnit :=
  units.reverse.find? fun u => documentPlace workingDir dir u = l

theorem lookup_documents (workingDir : Location) (dir : Path) (units : List CodeUnit)
    (l : Location) : (documents workingDir dir units).lookup l =
      (units.find? fun u => documentPlace workingDir dir u = l).map fun u => u.document.toUTF8 := by
  induction units with
  | nil => rfl
  | cons u units ih =>
    rw [documents, List.map_cons, List.lookup_cons, ← documents, ih, List.find?_cons]
    by_cases here : documentPlace workingDir dir u = l
    · simp [here]
    · have apart : (l == documentPlace workingDir dir u) = false := by simpa using Ne.symm here
      simp [here, apart]

theorem lastAt?_concat {workingDir : Location} {l : Location}
    (here : documentPlace workingDir dir u = l) (units : List CodeUnit) :
    lastAt? workingDir dir (units ++ [u]) l = some u := by
  simp [lastAt?, here]

/-- A place has the document of the last unit that leads there. -/
theorem content?_of_write (done : write dir units h = .ok () h') {l : Location}
    (last : lastAt? h.workingDir dir units l = some u) :
    h'.files.content? l = some u.document.toUTF8 := by
  apply (receives_of_write done).held
  rw [documents, ← List.map_reverse, ← documents, lookup_documents, ← lastAt?, last]
  rfl

theorem exists_lastAt? (workingDir : Location) (dir : Path) (member : u ∈ units) :
    ∃ v ∈ units, lastAt? workingDir dir units (documentPlace workingDir dir u) = some v ∧
      documentPlace workingDir dir v = documentPlace workingDir dir u := by
  cases last : lastAt? workingDir dir units (documentPlace workingDir dir u) with
  | none =>
    have other := List.find?_eq_none.mp last u (List.mem_reverse.mpr member)
    simp at other
  | some v =>
    have same := List.find?_some last
    exact ⟨v, List.mem_reverse.mp (List.mem_of_find?_eq_some last), rfl, by simpa using same⟩

/-- Among units of distinct names, one finds its document where it was written unless another one
that comes later leads there as well. -/
theorem content?_documentPlace_iff (done : write dir units h = .ok () h')
    (distinct : (units.map CodeUnit.name).Nodup) (member : u ∈ units) :
    h'.files.content? (documentPlace h.workingDir dir u) = some u.document.toUTF8 ↔
      lastAt? h.workingDir dir units (documentPlace h.workingDir dir u) = some u := by
  refine ⟨fun own => ?_, content?_of_write done⟩
  obtain ⟨v, there, last, -⟩ := exists_lastAt? h.workingDir dir member
  rw [content?_of_write done last, Option.some.injEq] at own
  have names := CodeUnit.name_eq_of_document (String.toByteArray_inj.mp own)
  rw [last, List.inj_on_of_nodup_map distinct there member names]

/-- Units whose names are distinct and hold no slash do not lead to one place. -/
theorem lastAt?_of_noSlash (workingDir : Location) (dir : Path)
    (distinct : (units.map CodeUnit.name).Nodup)
    (noSlash : ∀ v ∈ units, '/' ∉ v.name.toList) (member : u ∈ units) :
    lastAt? workingDir dir units (documentPlace workingDir dir u) = some u := by
  obtain ⟨v, there, last, same⟩ := exists_lastAt? workingDir dir member
  rw [documentPlace_eq workingDir dir (noSlash v there),
    documentPlace_eq workingDir dir (noSlash u member), List.append_cancel_left_eq,
    List.singleton_inj] at same
  have names : v.name = u.name := by simpa [documentName] using same
  rw [last, List.inj_on_of_nodup_map distinct there member names]

/-- What a host holds of the documents of some units. -/
structure Documented (h : Host) (workingDir : Location) (dir : Path) (units : List CodeUnit) :
    Prop where
  /-- At each place there is the document of the last unit that leads there. -/
  held : ∀ l u, lastAt? workingDir dir units l = some u →
    h.files.content? l = some u.document.toUTF8
  /-- The document of a unit is where it was written, unless another unit leads there later. -/
  own : ∀ u ∈ units,
    h.files.content? (documentPlace workingDir dir u) = some u.document.toUTF8 ↔
      lastAt? workingDir dir units (documentPlace workingDir dir u) = some u
  /-- Without slashes in the names, the documents of all units are where they were written. -/
  plain : (∀ u ∈ units, '/' ∉ u.name.toList) → ∀ u ∈ units,
    h.files.content? (documentPlace workingDir dir u) = some u.document.toUTF8

/-- Documents of units of distinct names are there once they were written. -/
theorem documented_of_write (done : write dir units h = .ok () h')
    (distinct : (units.map CodeUnit.name).Nodup) : Documented h' h.workingDir dir units where
  held _ _ last := content?_of_write done last
  own _ member := content?_documentPlace_iff done distinct member
  plain noSlash _ member := content?_of_write done (lastAt?_of_noSlash _ _ distinct noSlash member)

theorem Documented.of_content? {workingDir : Location}
    (documented : Documented h workingDir dir units)
    (same : ∀ l, h'.files.content? l = h.files.content? l) :
    Documented h' workingDir dir units where
  held l u last := (same l).trans (documented.held l u last)
  own u member := by rw [same, documented.own u member]
  plain noSlash u member := (same _).trans (documented.plain noSlash u member)

/-! ### Outside of the directory -/

/-- A unit whose name leads out of any directory. -/
def climbing : CodeUnit :=
  ⟨"../x", []⟩

/-- A host with an empty directory. -/
def emptyDirectory : Host where
  files := ⟨[([], .dir 0), (["work"], .dir 1), (["work", "ir"], .dir 2)], by decide⟩
  workingDir := ["work"]
  tempDir := "/work"
  home := none
  now := 3

/-- **A document may be written outside of the directory**: nothing is wrong with a name that has
slashes and dots. -/
theorem write_outside : faultOf? (write "ir" [climbing] emptyDirectory) = none ∧
    Path.place emptyDirectory.workingDir "ir" = ["work", "ir"] ∧
    emptyDirectory.files.get? ["work", "x.json"] = none ∧
    (left (write "ir" [climbing]) emptyDirectory).files.content? ["work", "x.json"] =
      some climbing.document.toUTF8 := by
  decide +kernel

end Tracepoint.UnitDirectory
