import Tracepoint.Descriptor.Editor
import Tracepoint.Run.World

/-!
# Descriptor files

Editors of the descriptor in a file, and what a run asks of the descriptor in extracted
content: that it declares a permission, and what package it names.
-/

namespace Tracepoint.Descriptor

/-- Opens the descriptor in a file. -/
def Editor.openAt (p : Path) : FileWork Editor := do
  let content ← (FileAction.ask (·.readText p)).within ("failed to read descriptor " ++ p)
  return .ofContent p content

/-- Writes what is queued to the file, and says how many names that were. An empty queue
leaves the file alone. -/
def Editor.writeOut (e : Editor) : FileWork (Nat × Editor) :=
  if e.queued.isEmpty then return (0, e)
  else
    match e.render with
    | .error fault => throw fault
    | .ok rendered => do
      (FileAction.write e.path rendered.toUTF8).within ("failed to write descriptor " ++ e.path)
      return (e.queued.length, e.commit rendered)

/-- The descriptor in extracted content. -/
def pathIn (content : Path) : Path :=
  Path.join content fileName

/-- Makes sure that the descriptor in extracted content declares a permission, and says
whether it was changed for that. -/
def ensure (content : Path) (permission : String) : FileWork Bool := do
  let e ← Editor.openAt (pathIn content)
  if e.has permission then return false
  else return 0 < (← (e.add permission).writeOut).1

/-- The package that the descriptor in extracted content names. -/
def packageIn? (content : Path) : FileWork (Option String) := do
  return (← Editor.openAt (pathIn content)).package?

end Tracepoint.Descriptor
