import Tracepoint.Code.Document
import Tracepoint.Run.World

/-!
# Directories of unit documents

A directory holds one document for each unit, in a file that is named after the unit. The
documents are read in the order of their file names.
-/

namespace Tracepoint.UnitDirectory

/-- The extension of unit documents. -/
def extension : String := "json"

/-- The name of the document of a unit. -/
def documentName (u : CodeUnit) : String :=
  u.name ++ "." ++ extension

/-- Whether a name is that of a document. -/
def isDocument (name : String) : Bool :=
  (Path.splitName name).2 = some extension

/-- Reads the document of a unit. -/
def readUnit (p : Path) : FileWork CodeUnit := do
  let text ← (FileAction.ask (·.readText p)).within ("failed to read " ++ p)
  match CodeUnit.ofDocument text with
  | .ok u => return u
  | .error e => throw (.badInput (.malformedUnit p e))

/-- Reads all documents in a directory. -/
def read (dir : Path) : FileWork (List CodeUnit) := do
  let names ← (FileAction.ask (·.list dir)).within ("failed to list " ++ dir)
  (Text.sort (names.filter isDocument)).mapM fun name => readUnit (Path.join dir name)

/-- Writes the document of a unit into a directory. -/
def writeUnit (dir : Path) (u : CodeUnit) : FileWork Unit :=
  let p := Path.join dir (documentName u)
  (FileAction.write p u.document.toUTF8).within ("failed to write " ++ p)

/-- Writes the documents of some units into a directory, which is made if it is missing. -/
def write (dir : Path) (units : List CodeUnit) : FileWork Unit := do
  (FileAction.createDirAll dir).within ("failed to create " ++ dir)
  units.forM (writeUnit dir)

end Tracepoint.UnitDirectory
