import Tracepoint.Text.Word
import Tracepoint.Text.Segments

/-!
# Scanning descriptors

A descriptor is scanned as text, not as a tree. Comments run from an opener to the first
closer behind it and are left out of the text that is searched. A declaration is the
opening of a tag, followed before the next `>` by an assignment of a value in quotes; the
first assignment of the attribute counts. The insertion point is in front of the last
closing tag of the document that does not start inside a comment.
-/

namespace Tracepoint.Descriptor

/-- What opens a comment. -/
def commentOpener : List Char := ['<', '!', '-', '-']

/-- What closes a comment. -/
def commentCloser : List Char := ['-', '-', '>']

/-- The closing tag of the document. -/
def closingTag : List Char := "</manifest>".toList

/-- The number of characters in front of the first occurrence of a pattern. -/
def offset? (pattern : List Char) : List Char → Option Nat
  | [] => if pattern.isEmpty then some 0 else none
  | c :: cs =>
    if pattern.isPrefixOf (c :: cs) then some 0 else (offset? pattern cs).map (· + 1)

/-- The length of the comment that a text starts with. An opener that nothing closes starts
no comment. -/
def commentLength? (cs : List Char) : Option Nat :=
  if commentOpener.isPrefixOf cs then
    (offset? commentCloser (cs.drop commentOpener.length)).map fun n =>
      commentOpener.length + n + commentCloser.length
  else none

/-- The text without its comments; `skip` more characters belong to a comment that has begun. -/
def withoutComments (skip : Nat) : List Char → List Char
  | [] => []
  | c :: cs =>
    match skip with
    | skip + 1 => withoutComments skip cs
    | 0 =>
      match commentLength? (c :: cs) with
      | some n => withoutComments (n - 1) cs
      | none => c :: withoutComments 0 cs

/-- Splits a text in front of the last closing tag that does not start inside a comment;
`skip` more characters belong to a comment that has begun. -/
def splitAtClosing? (skip : Nat) : List Char → Option (List Char × List Char)
  | [] => none
  | c :: cs =>
    match skip with
    | skip + 1 => (splitAtClosing? skip cs).map fun s => (c :: s.1, s.2)
    | 0 =>
      match commentLength? (c :: cs) with
      | some n => (splitAtClosing? (n - 1) cs).map fun s => (c :: s.1, s.2)
      | none =>
        match splitAtClosing? 0 cs with
        | some s => some (c :: s.1, s.2)
        | none => if closingTag.isPrefixOf (c :: cs) then some ([], c :: cs) else none

/-- Whether a character is one of the two quotes. -/
def isQuote (c : Char) : Bool :=
  c = '"' || c = '\''

/-- The text behind a beginning. -/
def dropStart? : List Char → List Char → Option (List Char)
  | [], cs => some cs
  | p :: ps, c :: cs => if p = c then dropStart? ps cs else none
  | _ :: _, [] => none

/-- The value of the assignment to an attribute that a text starts with, and what follows it.
The value is not empty; the two quotes need not be the same. -/
def assignment? (key cs : List Char) : Option (List Char × List Char) :=
  match dropStart? key cs with
  | none => none
  | some cs =>
    match cs.dropWhile Text.isBlank with
    | '=' :: cs =>
      match cs.dropWhile Text.isBlank with
      | quote :: cs =>
        if isQuote quote then
          match cs.takeWhile (fun c => !isQuote c), cs.dropWhile (fun c => !isQuote c) with
          | [], _ => none
          | _, [] => none
          | value, _ :: rest => some (value, rest)
        else none
      | [] => none
    | _ => none

/-- The first assignment to an attribute at a word boundary and in front of the next `>`,
where `before` is the character in front of the text. -/
def firstAssignment? (key : List Char) (before : Char) :
    List Char → Option (List Char × List Char)
  | [] => none
  | c :: cs =>
    match if Text.isBoundary (some before) (some c) then assignment? key (c :: cs)
      else none with
    | some r => some r
    | none => if c = '>' then none else firstAssignment? key c cs

/-- The value of an attribute of the tag that a text starts with, and what follows it. -/
def declaration? (tag key cs : List Char) : Option (List Char × List Char) :=
  match dropStart? ('<' :: tag) cs with
  | none => none
  | some rest =>
    let before := tag.getLast?.getD '<'
    if Text.isBoundary (some before) rest.head? then firstAssignment? key before rest
    else none

/-- The values of an attribute of all tags of a name, in the order of the text; `skip` more
characters belong to a declaration that has been read. -/
def declarations (tag key : List Char) (skip : Nat) : List Char → List (List Char)
  | [] => []
  | c :: cs =>
    match skip with
    | skip + 1 => declarations tag key skip cs
    | 0 =>
      match declaration? tag key (c :: cs) with
      | some (value, rest) =>
        value :: declarations tag key (cs.length - rest.length) cs
      | none => declarations tag key 0 cs

/-- The names of the permissions that a descriptor declares, in the order of the text. -/
def permissions (xml : String) : List String :=
  (declarations "uses-permission".toList "android:name".toList 0
    (withoutComments 0 xml.toList)).map String.ofList

/-- The package that a descriptor declares. -/
def package? (xml : String) : Option String :=
  (declarations "manifest".toList "package".toList 0
    (withoutComments 0 xml.toList)).head?.map String.ofList

end Tracepoint.Descriptor
