import Tracepoint.Files.Host

/-!
# Changes of files

The actions that change the files of a host. Each either does what it says or ends with the
reason why it could not; a directory that was made on the way to a failure stays. To put
something in a free place, or to clear a place, changes the directory that it is in; to
write a file anew does not.
-/

namespace Tracepoint

/-- A change of files, or its failure. -/
abbrev FileAction (α : Type) := EStateM FileFault Host α

/-- A piece of work on the files of a host, or the fault that ended it. -/
abbrev FileWork (α : Type) := EStateM Fault Host α

namespace Host

/-- Puts something in a place. -/
def put (h : Host) (l : Location) (n : Node) : Host :=
  let files :=
    if (h.files.get? l).isSome then h.files else h.files.touch l.dropLast h.now
  { h with files := files.set l n, now := h.now + 1 }

/-- Clears a place and everything below it. -/
def clear (h : Host) (l : Location) : Host :=
  { h with files := (h.files.eraseBelow l).touch l.dropLast h.now, now := h.now + 1 }

end Host

namespace FileAction

/-- Asks the host something. -/
def ask {α : Type} (question : Host → Except FileFault α) : FileAction α := fun h =>
  match question h with
  | .ok a => .ok a h
  | .error e => .error e h

/-- Makes the directories that are missing on the way along some segments. -/
def makeWay (here : Location) : List String → FileAction Unit
  | [] => pure ()
  | s :: rest => do
    if s = "" ∨ s = "." then makeWay here rest
    else if s = ".." then makeWay here.dropLast rest
    else if Path.maxName < s.utf8ByteSize then throw .nameTooLong
    else
      match (← get).files.get? (here ++ [s]) with
      | some (.dir _) => makeWay (here ++ [s]) rest
      | some (.file _ _) => throw .alreadyExists
      | none =>
        if rest.contains "." && rest.all fun r => r = "" ∨ r = "." then throw .notFound
        modify fun h => h.put (here ++ [s]) (.dir h.now)
        makeWay (here ++ [s]) rest

/-- Makes a directory and all that are missing above it. -/
def createDirAll (p : Path) : FileAction Unit :=
  match Path.fault? p with
  | some e => throw e
  | none => do makeWay ((← get).startOf p) (Path.segments p)

/-- Writes a file, in place of an earlier one. -/
def write (p : Path) (content : ByteArray) : FileAction Unit := do
  let l ← ask (·.resolve p)
  match (← get).files.get? l with
  | some (.dir _) => throw .isADirectory
  | _ => modify fun h => h.put l (.file content h.now)

/-- Removes a file. -/
def removeFile (p : Path) : FileAction Unit := do
  let l ← ask (·.resolve p)
  match (← get).files.get? l with
  | some (.file _ _) => modify fun h => h.clear l
  | some (.dir _) => throw .isADirectory
  | none => throw .notFound

/-- Removes a directory and everything in it. -/
def removeDirAll (p : Path) : FileAction Unit := do
  let l ← ask (·.resolve p)
  match (← get).files.get? l with
  | some (.dir _) => modify fun h => h.clear l
  | some (.file _ _) => throw .notADirectory
  | none => throw .notFound

/-- The `n`-th name for something temporary. -/
def tempName (n : Nat) : String :=
  ".tmp" ++ String.ofList (List.replicate (6 - (Nat.toDigits 10 n).length) '0' ++ Nat.toDigits 10 n)

/-- The first temporary name that is free in a directory. -/
def freeName (t : FileTree) (dir : Location) : String :=
  tempName <| ((List.range t.entries.length).find? fun n =>
    (t.get? (dir ++ [tempName n])).isNone).getD t.entries.length

/-- A free path for something temporary in a directory. -/
def freePath (dir : Path) : FileAction Path := do
  let l ← ask (·.resolve dir)
  return Path.join dir (freeName (← get).files l)

/-- Makes a temporary file in a directory. -/
def tempFile (dir : Path) : FileAction Path := do
  let p ← freePath dir
  write p .empty
  return p

/-- Makes a temporary directory in the place for them. -/
def makeTempDir : FileAction Path := do
  let p ← freePath (← get).tempDir
  let l ← ask (·.resolve p)
  modify fun h => h.put l (.dir h.now)
  return p

/-- Moves a file to where a path leads, in place of a file that stands there. -/
def moveFile (source target : Path) : FileAction Unit := do
  let l ← ask (·.resolve source)
  let m ← ask (·.resolve target)
  let h ← get
  match h.files.get? l, h.files.get? m with
  | none, _ => throw .notFound
  | some _, some (.dir _) => throw .isADirectory
  | some n, _ =>
    let files := ((h.files.erase l).set m n).touch l.dropLast h.now
    set { h with files := files.touch m.dropLast h.now, now := h.now + 1 }

/-- Does some work, and removes a temporary file if that fails. -/
def orRemove {α ε : Type} (temp : Path) (work : EStateM ε Host α) : EStateM ε Host α := fun h =>
  match work h with
  | .ok a h => .ok a h
  | .error e h =>
    match removeFile temp h with
    | .ok _ h | .error _ h => .error e h

/-- Writes a file by way of a temporary file in a directory, so that nobody reads half of
it. -/
def replaceFile (dir target : Path) (content : ByteArray) : FileAction Unit := do
  let temp ← tempFile dir
  orRemove temp do
    write temp content
    moveFile temp target

/-- Copies a file into a temporary file in a directory, and says where that is. -/
def stageCopy (source dir : Path) : FileAction Path := do
  let temp ← tempFile dir
  orRemove temp do
    let content ← ask (·.read source)
    write temp content
    return temp

end FileAction

end Tracepoint
