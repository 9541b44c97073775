import Tracepoint.Text.Segments

/-!
# Paths

A path is a text whose segments stand between slashes. Empty segments and single dots are
passed over, except that a path may start with a slash or with a dot. Nothing here looks
at files: a path keeps the spelling that it was put together from.
-/

namespace Tracepoint

/-- The text of a path. -/
abbrev Path := String

namespace Path

/-- Whether the path starts at the root. -/
def isAbsolute (p : Path) : Bool :=
  p.toList.head? = some '/'

/-- The path that leads on to another from here; an absolute one stands for itself. -/
def join (p q : Path) : Path :=
  if isAbsolute q then q
  else if p.toList.isEmpty || p.toList.getLast? = some '/' then p ++ q
  else p ++ "/" ++ q

/-- The characters of a path, last first, without the slashes and dots that end it. -/
def trimBack : List Char → List Char
  | ['/'] => ['/']
  | '/' :: rest => trimBack rest
  | '.' :: '/' :: rest => trimBack ('/' :: rest)
  | cs => cs

/-- The last segment of a path, its characters last first. -/
def lastSegment (p : Path) : List Char :=
  (trimBack p.toList.reverse).takeWhile (· ≠ '/')

/-- The name of the file that the path leads to. The root, the empty path, a lone dot and a
path that ends in two dots have none. -/
def fileName? (p : Path) : Option String :=
  let name := (lastSegment p).reverse
  if name = [] ∨ name = ['.'] ∨ name = ['.', '.'] then none else some (String.ofList name)

/-- The path without its last segment, whatever that is. -/
def dropLast (p : Path) : Path :=
  String.ofList (trimBack ((trimBack p.toList.reverse).dropWhile (· ≠ '/'))).reverse

/-- The path with another name in place of its file name; the name is added to a path
without one. -/
def withFileName (p : Path) (name : String) : Path :=
  if (fileName? p).isSome then join (dropLast p) name else join p name

/-- Splits a file name at its last dot, unless the name has none but the one it starts with. -/
def splitName (name : String) : String × Option String :=
  let back := name.toList.reverse
  let tail := back.takeWhile (· ≠ '.')
  match back.drop tail.length with
  | [] | ['.'] => (name, none)
  | _ :: stem => (String.ofList stem.reverse, some (String.ofList tail.reverse))

/-- The file name up to its extension. -/
def stem? (p : Path) : Option String :=
  (fileName? p).map fun name => (splitName name).1

/-- The part of the file name after its last dot. -/
def extension? (p : Path) : Option String :=
  (fileName? p).bind fun name => (splitName name).2

/-- The file name, or the whole path where there is none. -/
def displayName (p : Path) : String :=
  (fileName? p).getD p

end Path

end Tracepoint
