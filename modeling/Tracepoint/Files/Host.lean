import Tracepoint.Fault
import Tracepoint.Files.Path
import Tracepoint.Files.Tree

/-!
# The machine that a run works on

A host has files, a working directory, a directory for temporary files, perhaps a home
directory, and a clock. A path is followed one segment at a time: every segment but the
last has to lead to a directory, and the place that the whole path leads to may be free.
A slash or a dot at the end of a path asks for a directory.
-/

namespace Tracepoint

/-- A machine. -/
structure Host where
  files : FileTree
  /-- The directory that relative paths start from. -/
  workingDir : Location
  /-- The directory for temporary files. -/
  tempDir : Path
  /-- The home directory of the user. -/
  home : Option Path
  /-- The time, in nanoseconds. Every change of the files takes one. -/
  now : Int

/-- The segments of a path. -/
def Path.segments (p : Path) : List String :=
  (Text.segments '/' p.toList).map String.ofList

/-- The length in bytes that a name may have. -/
def Path.maxName : Nat := 255

/-- The length in bytes that a path may have. -/
def Path.maxLength : Nat := 4095

/-- What is wrong with a path, whatever files there are. -/
def Path.fault? (p : Path) : Option FileFault :=
  if p.toList.contains '\x00' then some .invalidName
  else if Path.maxLength < p.utf8ByteSize then some .nameTooLong
  else none

/-- Follows the segments of a path from a place. -/
def FileTree.walk (t : FileTree) (here : Location) : List String → Except FileFault Location
  | [] => .ok here
  | s :: rest =>
    match t.get? here with
    | none => .error .notFound
    | some (.file _ _) => .error .notADirectory
    | some (.dir _) =>
      if s = "" ∨ s = "." then walk t here rest
      else if s = ".." then walk t here.dropLast rest
      else if Path.maxName < s.utf8ByteSize then .error .nameTooLong
      else walk t (here ++ [s]) rest

namespace Host

/-- The place that a path starts from. -/
def startOf (h : Host) (p : Path) : Location :=
  if Path.isAbsolute p then [] else h.workingDir

/-- The place that a path leads to. -/
def resolve (h : Host) (p : Path) : Except FileFault Location :=
  if p.isEmpty then .error .notFound
  else match Path.fault? p with
    | some e => .error e
    | none => h.files.walk (h.startOf p) (Path.segments p)

/-- What stands where a path leads to. -/
def node (h : Host) (p : Path) : Except FileFault Node :=
  match h.resolve p with
  | .error e => .error e
  | .ok l =>
    match h.files.get? l with
    | some n => .ok n
    | none => .error .notFound

/-- Whether there is anything where a path leads to. -/
def has (h : Host) (p : Path) : Bool :=
  (h.node p).isOk

/-- Whether a path leads to a file. -/
def isFile (h : Host) (p : Path) : Bool :=
  match h.node p with
  | .ok n => n.isFile
  | .error _ => false

/-- Whether a path leads to a directory. -/
def isDir (h : Host) (p : Path) : Bool :=
  match h.node p with
  | .ok n => n.isDir
  | .error _ => false

/-- The content of a file. -/
def read (h : Host) (p : Path) : Except FileFault ByteArray :=
  match h.node p with
  | .ok (.file content _) => .ok content
  | .ok (.dir _) => .error .isADirectory
  | .error e => .error e

/-- The text that a file holds. -/
def readText (h : Host) (p : Path) : Except FileFault String :=
  match h.read p with
  | .ok content =>
    match String.fromUTF8? content with
    | some s => .ok s
    | none => .error .notText
  | .error e => .error e

/-- The time of the last change of a file or directory. -/
def modified (h : Host) (p : Path) : Except FileFault Int :=
  match h.node p with
  | .ok n => .ok n.modified
  | .error e => .error e

/-- The names in a directory, in no order. -/
def list (h : Host) (p : Path) : Except FileFault (List String) :=
  match h.resolve p with
  | .error e => .error e
  | .ok l =>
    match h.files.get? l with
    | some (.dir _) => .ok (h.files.names l)
    | some (.file _ _) => .error .notADirectory
    | none => .error .notFound

/-- The absolute path of a place. -/
def pathOf (l : Location) : Path :=
  "/" ++ String.intercalate "/" l

/-- The absolute path, without detours, of what stands where a path leads to. -/
def canonical (h : Host) (p : Path) : Except FileFault Path :=
  match h.resolve p with
  | .error e => .error e
  | .ok l => if (h.files.get? l).isSome then .ok (pathOf l) else .error .notFound

end Host

end Tracepoint
