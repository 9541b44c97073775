import Tracepoint.Archive
import Tracepoint.Run.World

/-!
# Artifacts

The archive that a run works on. A directory stands for the first archive in it, in the
order of names, that is not instrumented already.
-/

namespace Tracepoint

/-- The archive that a run works on. -/
structure Artifact where
  /-- The absolute path of the archive, without detours. -/
  path : Path
  fileName : String
  deriving DecidableEq, Repr

namespace Artifact

/-- The names of the files in a directory that may be picked as input. -/
def candidates (h : Host) (dir : Path) (names : List String) : List String :=
  names.filter fun n => h.isFile (Path.join dir n) && Archive.isCandidate n

/-- The archive that a path stands for. A path that leads to no directory stands for
itself. -/
def select (p : Path) : FileWork Path := do
  let h ← get
  if h.isDir p then
    let names ← (FileAction.ask (·.list p)).within ("failed to list " ++ p)
    match Text.sort (candidates h p names) with
    | [] => throw (.badInput (.noArchive p))
    | name :: _ => return Path.join p name
  else return p

/-- The artifact at a path. -/
def openAt (p : Path) : FileWork Artifact := do
  if (← get).isFile p then
    let path ← (FileAction.ask (·.canonical p)).within ("failed to resolve " ++ p)
    match Path.fileName? path with
    | some fileName => return ⟨path, fileName⟩
    | none => throw (.badInput (.noFileName path))
  else throw (.badInput (.notAFile p))

/-- The name of the archive that a run publishes. -/
def instrumentedName (a : Artifact) : String :=
  Archive.instrumentedName a.fileName

/-- The directory that the archive is in. -/
def parent (a : Artifact) : Path :=
  Path.dropLast a.path

/-- The time of the last change of the archive. -/
def modified (a : Artifact) : FileWork Int :=
  (FileAction.ask (·.modified a.path)).within ("failed to stat " ++ a.path)

end Artifact

end Tracepoint
