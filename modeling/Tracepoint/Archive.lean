import Tracepoint.Files.Path

/-!
# Names of archives

An instrumented archive is named after its input with a marker in front of the extension,
and a signed one with another. Archives that carry the marker are never taken as input.
-/

namespace Tracepoint.Archive

/-- The marker of an instrumented archive. -/
def marker : String := "-instrumented"

/-- The extension of the archives that are picked from a directory. -/
def extension : String := "apk"

/-- The name of the instrumented form of an archive: the marker stands before the last dot,
unless that dot starts the name, and at the end of a name without such a dot. -/
def instrumentedName (name : String) : String :=
  let back := name.toList.reverse
  let tail := back.takeWhile (· ≠ '.')
  match back.drop tail.length with
  | [] | ['.'] => name ++ marker
  | _ :: stem => String.ofList stem.reverse ++ marker ++ "." ++ String.ofList tail.reverse

/-- Whether a name is that of an instrumented archive. -/
def isInstrumented (name : String) : Bool :=
  Text.endsWith name (marker ++ "." ++ extension)

/-- Whether a file of a name may be picked as input. -/
def isCandidate (name : String) : Bool :=
  Text.endsWith name ("." ++ extension) && !isInstrumented name

/-- The path of the signed copy of an archive, beside it. -/
def signedPath (archive : Path) : Path :=
  let stem := (Path.stem? archive).getD ""
  Path.withFileName archive <|
    match Path.extension? archive with
    | some ext => stem ++ "-signed." ++ ext
    | none => stem ++ "-signed"

end Tracepoint.Archive
