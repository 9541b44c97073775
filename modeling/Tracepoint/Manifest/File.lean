import Tracepoint.Manifest
import Tracepoint.Run.World

/-!
# Manifest files

A manifest is written to a temporary file beside its place and moved there, so that nobody
reads half of one.
-/

namespace Tracepoint

/-- The document in a file. -/
def ManifestDocument.ofFile (p : Path) : FileWork ManifestDocument := do
  let text ← (FileAction.ask (·.readText p)).within ("failed to read " ++ p)
  match ManifestDocument.ofText text with
  | .ok d => return d
  | .error e => throw e

namespace Manifest

/-- Where the manifest of an artifact stands in a directory. -/
def pathIn (m : Manifest) (dir : Path) (suffix : String) : Path :=
  Path.join dir (m.artifact ++ suffix)

/-- Writes the manifest into a directory, and says where it is. -/
def writeTo (m : Manifest) (dir : Path) (suffix : String) : FileWork Path := do
  let p := m.pathIn dir suffix
  EStateM.adaptExcept (Fault.manifestUnwritten p)
    (FileAction.replaceFile dir p m.document.text.toUTF8)
  return p

end Manifest

end Tracepoint
