import Tracepoint.Application
import Tracepoint.Probe.Supply

/-!
# The executable

The files that a call can reach are taken into a host, the call is made on it, and what it
changed is put back. No external tool is offered here: each is reported as one that could
not be started, so a call gets as far as its settings, its archive and kept content.
-/

namespace Tracepoint.Executable

/-- The place that a path names, counted from a working directory. -/
def placeOf (workingDir : Location) (p : Path) : Location :=
  (Path.segments p).foldl (fun l s =>
    if s = "" ∨ s = "." then l else if s = ".." then l.dropLast else l ++ [s])
    (if Path.isAbsolute p then [] else workingDir)

/-- What there is at a place, as far as it can be read. -/
def lookAt (l : Location) : IO (Option Node) := do
  try
    let p ← IO.FS.realPath (Host.pathOf l)
    let data ← p.metadata
    let time := data.modified.sec * 1000000000 + data.modified.nsec.toNat
    if ← p.isDir then return some (.dir time)
    else return some (.file (← IO.FS.readBinFile p) time)
  catch _ => return none

/-- Takes what there is at a place into a tree, with the directories above it. -/
def take (t : FileTree) (l : Location) : IO FileTree := do
  let mut t := t
  for n in List.range (l.length + 1) do
    if (t.get? (l.take n)).isNone then
      if let some node ← lookAt (l.take n) then t := t.set (l.take n) node
  return t

/-- Takes a place into a tree, and what is directly in it if that is a directory. -/
def takeDir (t : FileTree) (l : Location) : IO FileTree := do
  let mut t ← take t l
  if let some (.dir _) := t.get? l then
    for entry in ← (← IO.FS.realPath (Host.pathOf l)).readDir do
      t ← take t (l ++ [entry.fileName])
  return t

/-- The paths that a call can reach. -/
def reach (a : Arguments) (tempDir : Path) : List Path :=
  [tempDir, a.package] ++ a.config.toList ++ a.out.toList ++ a.contentDir.toList

/-- The host that a call works on. -/
def hostFor (args : List String) : IO Host := do
  let workingDir := placeOf [] (← IO.currentDir).toString
  let tempDir := (← IO.getEnv "TMPDIR").getD "/tmp"
  let mut files ← take (.root 0) workingDir
  if let .ok a := Arguments.parse args then
    for p in reach a tempDir do
      files ← takeDir files (placeOf workingDir p)
  let now := files.entries.foldl (fun time e => max time e.2.modified) 0 + 1
  return { files, workingDir, tempDir, home := ← IO.getEnv "HOME", now }

/-- Puts back what was changed. -/
def putBack (before after : FileTree) : IO Unit := do
  for (l, node) in after.entries.mergeSort fun a b => a.1.length ≤ b.1.length do
    if before.get? l ≠ some node then
      match node with
      | .dir _ => IO.FS.createDirAll (Host.pathOf l)
      | .file content _ => IO.FS.writeBinFile (Host.pathOf l) content
  for (l, node) in before.entries do
    if node.isFile ∧ (after.get? l).isNone then IO.FS.removeFile (Host.pathOf l)

/-- No external tools at all. -/
def noPrograms : Programs Unit := fun _ _ =>
  return .notStarted .notFound

/-- A seed for random tokens. -/
def seed : IO UInt64 := do
  return (← IO.getRandomBytes 8).toList.foldl (fun n b => n * 256 + b.toUInt64) 0

/-- Makes a call and puts back what it changed. -/
def run (args : List String) : IO UInt32 := do
  let host ← hostFor args
  let (exit, w) := Application.run noPrograms (Supply.ofSeed (← seed)) args ⟨host, ()⟩
  putBack host.files w.host.files
  (← IO.getStdout).putStr exit.output
  (← IO.getStderr).putStr exit.errors
  return exit.status.toUInt32

end Tracepoint.Executable

/-- The command line of the program. -/
def main (args : List String) : IO UInt32 :=
  Tracepoint.Executable.run args
