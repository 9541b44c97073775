import Tracepoint.Toml.Scalar

/-!
# Reading TOML

A document is read line by line into one table. Arrays and inline tables nest less than
eighty deep, and so do the parts of a dotted key.
-/

namespace Tracepoint.Toml

/-- The bound of the nesting of values and of the parts of a key. -/
def maxDepth : Nat := 80

/-- Whether a character may stand in a key without quotes. -/
def isBare (c : Char) : Bool :=
  c.isAlphanum || c = '-' || c = '_'

/-- One part of a key. -/
def keyPart? : Reader String
  | '"' :: cs => (basicString? (cs.length + 1) [] cs).map fun r => (String.ofList r.1, r.2)
  | '\'' :: cs => (literalString? cs).map fun r => (String.ofList r.1, r.2)
  | cs =>
    if (cs.takeWhile isBare).isEmpty then none
    else some (String.ofList (cs.takeWhile isBare), cs.dropWhile isBare)

/-- A key of parts with dots between them: the parts that lead to it, and the last one. The
first number bounds the parts. -/
def key? : Nat → List String → Reader (List String × String)
  | 0, _, _ => none
  | fuel + 1, path, cs => do
    let (name, cs) ← keyPart? (skipSpace cs)
    match skipSpace cs with
    | '.' :: cs => key? fuel (path ++ [name]) cs
    | cs => some ((path, name), cs)

/-- A dotted key. -/
def dottedKey? : Reader (List String × String) :=
  key? (maxDepth - 1) []

/-- The text after white space, comments and ends of lines. The fuel is the number of
characters. -/
def skipFiller : Nat → List Char → List Char
  | 0, cs => cs
  | fuel + 1, cs =>
    let cs := skipSpace cs
    match newLine? (skipComment cs) with
    | some rest => skipFiller fuel rest
    | none => cs

/-- The items of an array after its bracket; the fuel is the number of characters. -/
def items? (value : Reader Toml) : Nat → List Toml → Reader (List Toml)
  | 0, _, _ => none
  | fuel + 1, acc, cs =>
    match skipFiller cs.length cs with
    | ']' :: rest => some (acc.reverse, rest)
    | cs => do
      let (v, cs) ← value cs
      match skipFiller cs.length cs with
      | ',' :: cs => items? value fuel (v :: acc) cs
      | ']' :: rest => some ((v :: acc).reverse, rest)
      | _ => none

/-- The entries of an inline table that is not empty; the fuel is the number of characters. -/
def pairs? (value : Reader Toml) : Nat → Entries → Reader Entries
  | 0, _, _ => none
  | fuel + 1, acc, cs => do
    let ((path, name), cs) ← dottedKey? cs
    let '=' :: cs := cs | none
    let (v, cs) ← value (skipSpace cs)
    let acc ← acc.assign? path name v
    match skipSpace cs with
    | ',' :: cs => pairs? value fuel acc cs
    | '}' :: rest => some (acc, rest)
    | _ => none

/-- A value; the number bounds its nesting. -/
def value? : Nat → Reader Toml
  | 0, _ => none
  | depth + 1, cs =>
    match cs with
    | '[' :: cs =>
      if depth = 0 then none
      else (items? (value? depth) (cs.length + 1) [] cs).map fun r => (.array r.1, r.2)
    | '{' :: cs =>
      if depth = 0 then none
      else match skipSpace cs with
        | '}' :: rest => some (.table .inlined [], rest)
        | cs =>
          (pairs? (value? depth) (cs.length + 1) [] cs).map fun r => (.table .inlined r.1, r.2)
    | cs => scalar? cs

/-- The text after the end of a line that may have a comment. -/
def lineEnd? (cs : List Char) : Option (List Char) :=
  match skipComment (skipSpace cs) with
  | [] => some []
  | cs => newLine? cs

/-- The table being made, and the path that the last header opened. -/
structure Builder where
  entries : Entries := []
  header : List String := []

/-- Reads the expression that a line starts with. -/
def expression? (b : Builder) : Reader Builder
  | '[' :: '[' :: cs => do
    let ((path, name), cs) ← dottedKey? cs
    let ']' :: ']' :: cs := cs | none
    return (⟨← b.entries.openItem? path name, path ++ [name]⟩, cs)
  | '[' :: cs => do
    let ((path, name), cs) ← dottedKey? cs
    let ']' :: cs := cs | none
    return (⟨← b.entries.openTable? path name, path ++ [name]⟩, cs)
  | cs => do
    let ((path, name), cs) ← dottedKey? cs
    let '=' :: cs := cs | none
    let (v, cs) ← value? maxDepth (skipSpace cs)
    return (⟨← b.entries.assignUnder? b.header path name v, b.header⟩, cs)

/-- Reads lines to the end of the text; the fuel is the number of characters. -/
def lines? : Nat → Builder → List Char → Option Entries
  | 0, _, _ => none
  | fuel + 1, b, cs =>
    match skipSpace cs with
    | [] => some b.entries
    | cs =>
      match lineEnd? cs with
      | some rest => lines? fuel b rest
      | none => do
        let (b, cs) ← expression? b cs
        lines? fuel b (← lineEnd? cs)

/-- The table that a text holds. A byte order mark in front is passed over. -/
def parse? (s : String) : Option Entries :=
  let cs := match s.toList with
    | c :: cs => if c = '\uFEFF' then cs else c :: cs
    | [] => []
  lines? (cs.length + 1) {} cs

end Tracepoint.Toml
