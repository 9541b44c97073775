/-!
# Parts of texts

Prefixes, suffixes and segments of texts, over their characters.
-/

namespace Tracepoint.Text

/-- Whether a text begins with another. -/
def startsWith (s start : String) : Bool :=
  start.toList.isPrefixOf s.toList

/-- Whether a text ends with another. -/
def endsWith (s tail : String) : Bool :=
  tail.toList.isSuffixOf s.toList

/-- The segments of some characters between the occurrences of a separator. -/
def segments (sep : Char) : List Char → List (List Char)
  | [] => [[]]
  | c :: cs =>
    if c = sep then [] :: segments sep cs
    else match segments sep cs with
      | [] => [[c]]
      | s :: rest => (c :: s) :: rest

/-- The characters without a character at the end. -/
def dropEnd (c : Char) (cs : List Char) : List Char :=
  (cs.reverse.dropWhile (· = c)).reverse

/-- Replaces every occurrence of a pattern, from left to right and without overlap. An
occurrence that has begun is passed over for `skip` more characters. -/
def replaceFrom (pattern new : List Char) (skip : Nat) : List Char → List Char
  | [] => []
  | c :: cs =>
    match skip with
    | skip + 1 => replaceFrom pattern new skip cs
    | 0 =>
      if pattern.isPrefixOf (c :: cs) then new ++ replaceFrom pattern new (pattern.length - 1) cs
      else c :: replaceFrom pattern new 0 cs

/-- Replaces every occurrence of a pattern that is not empty. -/
def replace (s pattern new : String) : String :=
  String.ofList (replaceFrom pattern.toList new.toList 0 s.toList)

/-- Whether one text comes before another, or is it, in the order of code points. -/
def le (a b : String) : Bool :=
  !decide (b < a)

/-- The texts in the order of code points. -/
def sort (texts : List String) : List String :=
  texts.mergeSort le

end Tracepoint.Text
