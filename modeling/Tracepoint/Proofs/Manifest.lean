import Tracepoint.Manifest
import Tracepoint.Proofs.Code.Documents
import Tracepoint.Proofs.Json.Layout

/-!
# Manifests are read back

The document of a manifest is a record of one text and one record of texts, so its indented text
is read as that document, with every entry in its place (`ManifestDocument.ofText_text`). The
identifiers may repeat: they are no known names that could clash. An identifier stands for the
location of its first entry (`ManifestDocument.ofText_and_location`).
-/

namespace Tracepoint.ManifestDocument

open Json (Regular)

theorem regular_entries (entries : List (String × String)) :
    Regular 1 (.record (entries.map fun e => (e.1, .text e.2))) := by
  refine .record fun m member => ?_
  obtain ⟨e, -, rfl⟩ := List.mem_map.mp member
  exact .text _

theorem regular_toJson (d : ManifestDocument) : Regular 2 d.toJson :=
  .record (List.forall_mem_cons.mpr
    ⟨.text _, List.forall_mem_singleton.mpr (regular_entries d.entries)⟩)

theorem entriesOfJson?_record (entries : List (String × String)) :
    entriesOfJson? (.record (entries.map fun e => (e.1, .text e.2))) = some entries := by
  rw [Json.record_eq, entriesOfJson?]
  induction entries with
  | nil => rfl
  | cons e rest ih =>
    rw [List.map_cons, Json.keyed_cons, List.mapM_cons, ih]
    rfl

theorem ofJson?_toJson (d : ManifestDocument) : ofJson? d.toJson = some d := by
  rw [ofJson?, toJson, Json.fields?_record (by simp)]
  simp [Json.Fields.required?, List.lookup_cons, entriesOfJson?_record]

/-- **A document is read back from its text.** -/
theorem ofText_text (d : ManifestDocument) : ofText d.text = .ok d := by
  rw [ofText, text, d.regular_toJson.parse?_indented, Option.bind_some, ofJson?_toJson]

theorem location?_eq_some_iff {d : ManifestDocument} {id location : String} :
    d.location? id = some location ↔
      ∃ before after, d.entries = before ++ (id, location) :: after ∧ ∀ e ∈ before, e.1 ≠ id := by
  rw [location?, List.lookup_eq_some_iff]
  simp only [bne_iff_ne, ne_comm]

/-- **A document is kept by its text, entry by entry**: it is read back as it was, and an identifier
has the location of its first entry, if it has any. -/
theorem ofText_and_location (d : ManifestDocument) :
    ofText d.text = .ok d ∧
      ∀ id location, d.location? id = some location ↔
        ∃ before after, d.entries = before ++ (id, location) :: after ∧ ∀ e ∈ before, e.1 ≠ id :=
  ⟨d.ofText_text, fun _ _ => location?_eq_some_iff⟩

example : (⟨"é.apk", [("0", "a\x01"), ("0", "b"), ("", "")]⟩ : ManifestDocument).location? "0" =
    some "a\x01" := rfl

end Tracepoint.ManifestDocument
