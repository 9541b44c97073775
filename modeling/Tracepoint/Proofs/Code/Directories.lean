import Tracepoint.Code.UnitDirectory
import Tracepoint.Proofs.Code.Forms
import Tracepoint.Proofs.Run.Work

/-!
# Directories of documents

A directory is read as the units that its documents hold, in the order of the names of their
files, and reading changes nothing (`UnitDirectory.read_eq_ok_iff`).
-/

namespace Tracepoint.UnitDirectory

variable {dir p : Path} {h h' : Host} {u : CodeUnit} {units : List CodeUnit}

/-- A file holds a document of a unit. -/
def HoldsUnit (h : Host) (p : Path) (u : CodeUnit) : Prop :=
  ∃ text, h.readText p = .ok text ∧ CodeUnit.ofDocument text = .ok u

/-- A directory holds documents of some units, in the order of the names of its files. -/
def Holds (h : Host) (dir : Path) (units : List CodeUnit) : Prop :=
  ∃ names, h.list dir = .ok names ∧
    List.Forall₂ (fun name => HoldsUnit h (Path.join dir name))
      (Text.sort (names.filter isDocument)) units

theorem readUnit_eq_ok_iff : readUnit p h = .ok u h' ↔ HoldsUnit h p u ∧ h' = h := by
  rw [readUnit, bind_eq_ok_iff]
  constructor
  · rintro ⟨text, mid, asked, parsed⟩
    obtain ⟨read, rfl⟩ := within_ask_eq_ok_iff.mp asked
    cases document : CodeUnit.ofDocument text with
    | ok v =>
      rw [document] at parsed
      cases parsed
      exact ⟨⟨text, read, document⟩, rfl⟩
    | error e =>
      rw [document] at parsed
      cases parsed
  · rintro ⟨⟨text, read, document⟩, rfl⟩
    refine ⟨text, _, within_ask_eq_ok_iff.mpr ⟨read, rfl⟩, ?_⟩
    rw [document]
    rfl

theorem read_eq_ok_iff : read dir h = .ok units h' ↔ Holds h dir units ∧ h' = h := by
  rw [read, bind_eq_ok_iff]
  constructor
  · rintro ⟨names, mid, asked, each⟩
    obtain ⟨listed, rfl⟩ := within_ask_eq_ok_iff.mp asked
    obtain ⟨hold, rfl⟩ := (mapM_eq_ok_iff_of_still fun _ _ _ => readUnit_eq_ok_iff).mp each
    exact ⟨⟨names, listed, hold⟩, rfl⟩
  · rintro ⟨⟨names, listed, hold⟩, rfl⟩
    exact ⟨names, _, within_ask_eq_ok_iff.mpr ⟨listed, rfl⟩,
      (mapM_eq_ok_iff_of_still fun _ _ _ => readUnit_eq_ok_iff).mpr ⟨hold, rfl⟩⟩

/-- A directory of nothing but documents that is listed in order. -/
theorem Holds.of_sorted (names : List String) (listed : h.list dir = .ok names)
    (documents : ∀ name ∈ names, isDocument name)
    (sorted : names.Pairwise fun a b => Text.le a b)
    (hold : List.Forall₂ (fun name => HoldsUnit h (Path.join dir name)) names units) :
    Holds h dir units := by
  refine ⟨names, listed, ?_⟩
  rwa [List.filter_eq_self.mpr documents, Text.sort, List.mergeSort_of_pairwise sorted]

/-- The printed document of a unit is one of the unit as it is resumed from it. -/
theorem HoldsUnit.of_document (labelled : ∀ m ∈ u.methods, m.Labelled)
    (read : h.read p = .ok u.document.toUTF8) : HoldsUnit h p u.resumed :=
  ⟨u.document, FileAction.readText_of_read read, CodeUnit.ofDocument_document labelled⟩

end Tracepoint.UnitDirectory
