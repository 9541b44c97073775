import Tracepoint.Proofs.Code.Resumption
import Tracepoint.Proofs.Code.Writing
import Tracepoint.Proofs.Files.Listing
import Tracepoint.Proofs.Text.Order

/-!
# Documents that are written are read back

Units of distinct names that a file can have are written into a directory without documents, each
to a place of its own (`UnitDirectory.exists_write`). What is read there afterwards is one unit for
each, in the order of the bytes of their documents' names, however the directory is listed
(`UnitDirectory.exists_read_of_write`).
-/

namespace Tracepoint.UnitDirectory

open Host

variable {dir : Path} {h h' h'' : Host} {l : Location} {u : CodeUnit} {units : List CodeUnit}

/-- A unit whose document can be kept in a directory under the name of the unit: the name is one of
a file there, and neither the document's name nor the path to it is too long. -/
structure Storable (dir : Path) (u : CodeUnit) : Prop where
  notEmpty : u.name ≠ ""
  noSlash : '/' ∉ u.name.toList
  noNul : '\x00' ∉ u.name.toList
  shortName : (documentName u).utf8ByteSize ≤ Path.maxName
  shortPath : (Path.join dir (documentName u)).utf8ByteSize ≤ Path.maxLength

instance (dir : Path) (u : CodeUnit) : Decidable (Storable dir u) :=
  decidable_of_iff (u.name ≠ "" ∧ '/' ∉ u.name.toList ∧ '\x00' ∉ u.name.toList ∧
      (documentName u).utf8ByteSize ≤ Path.maxName ∧
      (Path.join dir (documentName u)).utf8ByteSize ≤ Path.maxLength)
    ⟨fun ⟨notEmpty, noSlash, noNul, shortName, shortPath⟩ =>
      ⟨notEmpty, noSlash, noNul, shortName, shortPath⟩,
    fun ⟨notEmpty, noSlash, noNul, shortName, shortPath⟩ =>
      ⟨notEmpty, noSlash, noNul, shortName, shortPath⟩⟩

/-! ### Names of documents -/

theorem isDocument_documentName (notEmpty : u.name ≠ "") : isDocument (documentName u) := by
  obtain ⟨c, cs, back⟩ : ∃ c cs, u.name.toList.reverse = c :: cs :=
    List.exists_cons_of_ne_nil (by simpa using notEmpty)
  rw [isDocument, Path.splitName, toList_documentName]
  simp [back, extension]

theorem nodup_documentName (distinct : (units.map CodeUnit.name).Nodup) :
    (units.map documentName).Nodup := by
  have injective : Function.Injective fun name : String => name ++ "." ++ extension := by
    intro a b same
    simpa using same
  have names := distinct.map injective
  rwa [List.map_map] at names

/-- The units in the order of the names of their documents. -/
def inOrder (units : List CodeUnit) : List CodeUnit :=
  units.mergeSort fun u v => Text.le (documentName u) (documentName v)

theorem inOrder_perm (units : List CodeUnit) : (inOrder units).Perm units :=
  List.mergeSort_perm _ _

theorem map_documentName_inOrder (units : List CodeUnit) :
    (inOrder units).map documentName = Text.sort (units.map documentName) :=
  List.map_mergeSort fun _ _ _ _ => rfl

/-! ### Writing into a directory that is there -/

theorem Storable.resolve (storable : Storable dir u) (leads : h.resolve dir = .ok l)
    (there : h.files.IsDir l) :
    h.resolve (Path.join dir (documentName u)) = .ok (l ++ [documentName u]) := by
  have name := isName_documentName storable.noSlash
  have noNul : '\x00' ∉ (documentName u).toList := by
    simpa [toList_documentName] using storable.noNul
  have sound := (resolve_eq_ok_iff.mp leads).2.1
  exact resolve_join leads there name storable.shortName
    (Path.fault?_join name sound noNul storable.shortPath)

/-- A document is written if no directory is in its place. -/
theorem Storable.exists_writeUnit (storable : Storable dir u) (leads : h.resolve dir = .ok l)
    (there : h.files.IsDir l) (free : ¬ h.files.IsDir (l ++ [documentName u])) :
    ∃ h', writeUnit dir u h = .ok () h' := by
  have done : ∃ h', FileAction.write (Path.join dir (documentName u)) u.document.toUTF8 h =
      .ok () h' := by
    rw [FileAction.write_eq, storable.resolve leads there]
    dsimp only
    split
    · rename_i time dir
      exact absurd ⟨time, dir⟩ free
    · exact ⟨_, rfl⟩
  obtain ⟨h', done⟩ := done
  exact ⟨h', adaptExcept_eq_ok_iff.mpr done⟩

theorem exists_forM_writeUnit (leads : h.resolve dir = .ok l) (there : h.files.IsDir l)
    (storable : ∀ u ∈ units, Storable dir u)
    (free : ∀ u ∈ units, ¬ h.files.IsDir (l ++ [documentName u])) :
    ∃ h', units.forM (writeUnit dir) h = .ok () h' := by
  induction units generalizing h with
  | nil => exact ⟨h, rfl⟩
  | cons u units ih =>
    rw [List.forall_mem_cons] at storable free
    obtain ⟨mid, first⟩ := storable.1.exists_writeUnit leads there free.1
    have received := writeUnit_eq_ok first
    have same (v : CodeUnit) (dir : mid.files.IsDir (l ++ [documentName v])) :
        h.files.IsDir (l ++ [documentName v]) :=
      (received.made _ dir).resolve_right (Set.notMem_empty _)
    obtain ⟨h', rest⟩ := ih (received.resolve leads) (received.dirs l there) storable.2
      fun v member dir => free.2 v member (same v dir)
    exact ⟨h', bind_eq_ok_iff.mpr ⟨(), mid, first, rest⟩⟩

/-- A directory without documents receives the documents of all units, and nothing else is
changed. -/
theorem exists_write (leads : h.resolve dir = .ok l) (there : h.files.IsDir l)
    (vacant : ∀ name ∈ h.files.names l, ¬ isDocument name)
    (storable : ∀ u ∈ units, Storable dir u) :
    ∃ h', write dir units h = .ok () h' ∧
      h.Receives ∅ (units.map fun u => (l ++ [documentName u], u.document.toUTF8)) h' := by
  have free : ∀ u ∈ units, ¬ h.files.IsDir (l ++ [documentName u]) := fun u member taken =>
    vacant _ (FileTree.mem_names_iff.mpr taken.isSome)
      (isDocument_documentName (storable u member).notEmpty)
  obtain ⟨h', written⟩ := exists_forM_writeUnit leads there storable free
  have made : (FileAction.createDirAll dir).within ("failed to create " ++ dir) h = .ok () h :=
    adaptExcept_eq_ok_iff.mpr (FileAction.createDirAll_eq leads there)
  obtain ⟨done, -, all, received⟩ := left_forM_writeUnit dir units h
  rw [all (by rw [written]; rfl), left_of_ok written] at received
  have places : documents h.workingDir dir units =
      units.map fun u => (l ++ [documentName u], u.document.toUTF8) :=
    List.map_congr_left fun u member => by
      rw [documentPlace_eq _ _ (storable u member).noSlash, place_of_resolve leads]
  exact ⟨h', bind_eq_ok_iff.mpr ⟨(), h, made, written⟩, places ▸ received⟩

/-! ### Reading what was written -/

section Received

variable
  (received : h.Receives ∅ (units.map fun u => (l ++ [documentName u], u.document.toUTF8)) h')
  (vacant : ∀ name ∈ h.files.names l, ¬ isDocument name)
  (distinct : (units.map documentName).Nodup) (notEmpty : ∀ u ∈ units, u.name ≠ "")

include received distinct

theorem content?_of_received (member : u ∈ units) :
    h'.files.content? (l ++ [documentName u]) = some u.document.toUTF8 := by
  apply received.held
  apply Json.lookup_of_nodup
  · rw [List.map_reverse, List.nodup_reverse, List.map_map]
    have places := distinct.map (f := fun name => l ++ [name]) fun a b same => by simpa using same
    rwa [List.map_map] at places
  · rw [List.mem_reverse]
    exact List.mem_map_of_mem member

include vacant notEmpty

/-- The documents in the directory are those of the units. -/
theorem perm_names_of_received :
    ((h'.files.names l).filter isDocument).Perm (units.map documentName) := by
  rw [List.perm_ext_iff_of_nodup ((FileTree.nodup_names _ _).filter _) distinct]
  intro name
  rw [List.mem_filter, FileTree.mem_names_iff, FileTree.isSome_get?_iff]
  constructor
  · rintro ⟨dir | file, document⟩
    · have before := (received.made _ dir).resolve_right (Set.notMem_empty _)
      exact absurd document (vacant _ (FileTree.mem_names_iff.mpr before.isSome))
    · by_contra other
      have before : h'.files.content? (l ++ [name]) = h.files.content? (l ++ [name]) :=
        received.content? (by simpa using other)
      rw [before] at file
      have listed := FileTree.mem_names_iff.mpr (FileTree.isSome_get?_iff.mpr (.inr file))
      exact vacant _ listed document
  · intro named
    obtain ⟨u, member, rfl⟩ := List.mem_map.mp named
    rw [content?_of_received received distinct member]
    exact ⟨.inr rfl, isDocument_documentName (notEmpty u member)⟩

/-- However it is listed, the directory holds the units in the order of their documents' names. -/
theorem holds_of_received (leads : h.resolve dir = .ok l) (there : h.files.IsDir l)
    (storable : ∀ u ∈ units, Storable dir u)
    (labelled : ∀ u ∈ units, ∀ m ∈ u.methods, m.Labelled) (again : h'.Relisted h'') :
    Holds h'' dir ((inOrder units).map CodeUnit.resumed) := by
  have leads := again.resolve (received.resolve leads)
  have there := again.isDir_iff.mpr (received.dirs l there)
  refine ⟨h''.files.names l, list_eq_ok_iff.mpr ⟨l, leads, there, rfl⟩, ?_⟩
  have documents := ((again.perm_names l).filter isDocument).trans
    (perm_names_of_received received vacant distinct notEmpty)
  rw [Text.sort_eq_of_perm documents, ← map_documentName_inOrder, List.forall₂_map_left_iff,
    List.forall₂_map_right_iff, List.forall₂_same]
  intro u listed
  have member := (inOrder_perm units).mem_iff.mp listed
  have leads := (storable u member).resolve leads there
  have held := content?_of_received received distinct member
  rw [← again.content?] at held
  exact .of_document (labelled u member) (FileAction.read_eq_ok_iff.mpr ⟨_, leads, held⟩)

end Received

/-- **What is written is read back.** Units are written into a directory without documents, if their
names are distinct and documents can have them. However the directory is listed, it is then read as
these units, in the order of the bytes of the names of their documents. -/
theorem exists_read_of_write (leads : h.resolve dir = .ok l) (there : h.files.IsDir l)
    (vacant : ∀ name ∈ h.files.names l, ¬ isDocument name)
    (distinct : (units.map CodeUnit.name).Nodup) (storable : ∀ u ∈ units, Storable dir u)
    (built : ∀ u ∈ units, ∀ m ∈ u.methods, ∀ b ∈ m.body, b.Built) :
    ∃ h' sorted loaded, write dir units h = .ok () h' ∧ sorted.Perm units ∧
      sorted.Pairwise (fun u v => Text.bytes (documentName u) < Text.bytes (documentName v)) ∧
      List.Forall₂ CodeUnit.Resumes loaded sorted ∧
      ∀ h'', h'.Relisted h'' → read dir h'' = .ok loaded h'' := by
  have names := nodup_documentName distinct
  have notEmpty : ∀ u ∈ units, u.name ≠ "" := fun u member => (storable u member).notEmpty
  have labelled : ∀ u ∈ units, ∀ m ∈ u.methods, m.Labelled := fun u member m method b body =>
    (built u member m method b body).labelled
  obtain ⟨h', written, received⟩ := exists_write leads there vacant storable
  refine ⟨h', inOrder units, (inOrder units).map CodeUnit.resumed, written, inOrder_perm units,
    ?_, ?_, fun h'' again => read_eq_ok_iff.mpr ⟨?_, rfl⟩⟩
  · have pairs := Text.pairwise_bytes_sort names
    rwa [← map_documentName_inOrder, List.pairwise_map] at pairs
  · rw [List.forall₂_map_left_iff, List.forall₂_same]
    intro u listed
    exact CodeUnit.resumes_resumed (labelled u ((inOrder_perm units).mem_iff.mp listed))
  · exact holds_of_received received vacant names notEmpty leads there storable labelled again

/-- Units out of order, with names in which there are dots and characters that come before or after
a dot. -/
def assorted : List CodeUnit :=
  [⟨"a", []⟩, .returning, ⟨"a-\xe4", []⟩, ⟨"..", []⟩]

theorem exists_read_of_write_assorted : emptyDirectory.resolve "ir" = .ok ["work", "ir"] ∧
    (assorted.map CodeUnit.name).Nodup ∧ (∀ u ∈ assorted, Storable "ir" u) ∧
    ∃ h' sorted loaded, write "ir" assorted emptyDirectory = .ok () h' ∧ sorted.Perm assorted ∧
      sorted.Pairwise (fun u v => Text.bytes (documentName u) < Text.bytes (documentName v)) ∧
      List.Forall₂ CodeUnit.Resumes loaded sorted ∧
      ∀ h'', h'.Relisted h'' → read "ir" h'' = .ok loaded h'' := by
  have leads : emptyDirectory.resolve "ir" = .ok ["work", "ir"] := by decide +kernel
  have distinct : (assorted.map CodeUnit.name).Nodup := by decide
  have storable : ∀ u ∈ assorted, Storable "ir" u := by decide +kernel
  have built : ∀ u ∈ assorted, ∀ m ∈ u.methods, ∀ b ∈ m.body, b.Built := by
    have returning : ∀ m ∈ CodeUnit.returning.methods, ∀ b ∈ m.body, b.Built := by
      intro m method b body
      obtain rfl := List.mem_singleton.mp method
      cases body
      exact .push .empty _
    simpa [assorted] using returning
  exact ⟨leads, distinct, storable,
    exists_read_of_write leads (by decide) (by decide) distinct storable built⟩

end Tracepoint.UnitDirectory
