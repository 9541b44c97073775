import Tracepoint.Fault
import Tracepoint.Probe.Id

/-!
# Instrumentation manifests

The manifest of an artifact lists its probes with the locations that they guard, in the
order of their insertion. Its document has the fields `outputAPK` and `allMethods`, and is
written with four spaces of indentation.
-/

namespace Tracepoint

/-- An inserted probe. -/
structure ProbeRecord where
  id : ProbeId
  /-- The location that the probe guards. -/
  location : String
  /-- The signature of the method that the probe is in. -/
  owner : String
  deriving DecidableEq, Repr

/-- The document of a manifest. -/
structure ManifestDocument where
  /-- The file name of the artifact. -/
  artifact : String
  /-- The identifiers with their locations, in order; an identifier may be repeated. -/
  entries : List (String × String)
  deriving DecidableEq, Repr, Inhabited

namespace ManifestDocument

/-- The location of the first entry of an identifier. -/
def location? (d : ManifestDocument) (id : String) : Option String :=
  d.entries.lookup id

/-- The JSON form of the document. -/
def toJson (d : ManifestDocument) : Json :=
  .record [("outputAPK", .text d.artifact),
    ("allMethods", .record (d.entries.map fun e => (e.1, .text e.2)))]

/-- The text of the document. -/
def text (d : ManifestDocument) : String :=
  d.toJson.indented

/-- Reads the entries of a document. -/
def entriesOfJson? : Json → Option (List (String × String))
  | .object members true => members.mapM fun m => do return (← m.1, ← m.2.asText?)
  | _ => none

/-- Reads the JSON form of a document. -/
def ofJson? (v : Json) : Option ManifestDocument := do
  let fields ← v.fields? ["outputAPK", "allMethods"]
  return {
    artifact := ← fields.required? "outputAPK" Json.asText?
    entries := ← fields.required? "allMethods" entriesOfJson? }

/-- Reads the text of a document. -/
def ofText (s : String) : Except Fault ManifestDocument :=
  match (Json.parse? s).bind ofJson? with
  | some d => .ok d
  | none => .error (.badInput .malformedManifest)

end ManifestDocument

/-- The manifest of an artifact. -/
structure Manifest where
  artifact : String
  records : List ProbeRecord
  deriving DecidableEq, Repr

/-- The document of a manifest. -/
def Manifest.document (m : Manifest) : ManifestDocument :=
  ⟨m.artifact, m.records.map fun r => (r.id.render, r.location)⟩

end Tracepoint
