import Tracepoint.Json.Token

/-!
# Writing JSON

A value has one sequence of tokens. The compact text writes them without any white space;
the indented text puts every item and member of a container that is not empty on a line of
its own, four spaces deeper than the container.
-/

namespace Tracepoint.Json

mutual

/-- The tokens of a value. An open container lacks its last token. -/
def tokens : Json → List Token
  | .null => [.null]
  | .bool b => [.bool b]
  | .number n => [.number n]
  | .string s => [.string s]
  | .array items closed =>
    .openArray :: itemTokens items ++ (if closed then [.closeArray] else [])
  | .object members closed =>
    .openObject :: memberTokens members ++ (if closed then [.closeObject] else [])

/-- The tokens of the items of an array, with a comma between two of them. -/
def itemTokens : List Json → List Token
  | [] => []
  | [v] => tokens v
  | v :: w :: vs => tokens v ++ .comma :: itemTokens (w :: vs)

/-- The tokens of the members of an object, with a comma between two of them. -/
def memberTokens : List (Option String × Json) → List Token
  | [] => []
  | [(k, v)] => .string k :: .colon :: tokens v
  | (k, v) :: m :: ms => .string k :: .colon :: tokens v ++ .comma :: memberTokens (m :: ms)

end

/-- The compact text of a value. -/
def compact (v : Json) : String :=
  String.ofList (v.tokens.flatMap Token.spell)

/-- The start of a new line at a depth of nesting. -/
def newLine (depth : Nat) : List Char :=
  '\n' :: List.replicate (4 * depth) ' '

mutual

/-- The indented text of a value that starts at a depth of nesting. -/
def indentedChars (depth : Nat) : Json → List Char
  | .array [] true => ['[', ']']
  | .array items closed =>
    '[' :: indentedItems (depth + 1) items ++ (if closed then newLine depth ++ [']'] else [])
  | .object [] true => ['{', '}']
  | .object members closed =>
    '{' :: indentedMembers (depth + 1) members
      ++ (if closed then newLine depth ++ ['}'] else [])
  | .null => Token.spell .null
  | .bool b => Token.spell (.bool b)
  | .number n => Token.spell (.number n)
  | .string s => Token.spell (.string s)

/-- The lines of the items of an array. -/
def indentedItems (depth : Nat) : List Json → List Char
  | [] => []
  | [v] => newLine depth ++ indentedChars depth v
  | v :: w :: vs =>
    newLine depth ++ indentedChars depth v ++ ',' :: indentedItems depth (w :: vs)

/-- The lines of the members of an object. -/
def indentedMembers (depth : Nat) : List (Option String × Json) → List Char
  | [] => []
  | [(k, v)] =>
    newLine depth ++ Token.spell (.string k) ++ ':' :: ' ' :: indentedChars depth v
  | (k, v) :: m :: ms =>
    newLine depth ++ Token.spell (.string k) ++ ':' :: ' ' :: indentedChars depth v
      ++ ',' :: indentedMembers depth (m :: ms)

end

/-- The indented text of a value. -/
def indented (v : Json) : String :=
  String.ofList (indentedChars 0 v)

end Tracepoint.Json
