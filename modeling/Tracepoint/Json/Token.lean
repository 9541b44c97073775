import Tracepoint.Json.Basic

/-!
# JSON tokens

The tokens of JSON text, how each is written, and the reader that splits a text into
tokens. The reader is a machine over single characters: each step gives the tokens that
the character completes and the mode in which the next character is read. A text that does
not split to its end gives the tokens before the first fault.
-/

namespace Tracepoint

/-- A token of JSON text. -/
inductive Token where
  | openArray
  | closeArray
  | openObject
  | closeObject
  | comma
  | colon
  | null
  | bool (b : Bool)
  | number (n : Number)
  | string (s : Option String)
  deriving DecidableEq, Repr

namespace Number

/-- The number that some decimal digits denote. -/
def ofDigits (ds : List Char) : Nat :=
  ds.foldl (fun n d => 10 * n + (d.toNat - '0'.toNat)) 0

/-- Reads digits up to the first other character; at least one is required. -/
def readDigits? (cs : List Char) : Option (List Char × List Char) :=
  if (cs.takeWhile Char.isDigit).isEmpty then none
  else some (cs.takeWhile Char.isDigit, cs.dropWhile Char.isDigit)

/-- Reads the part of a number that follows its fraction. -/
def readExponent? : List Char → Option (Option Int)
  | [] => some none
  | mark :: cs =>
    if mark = 'e' ∨ mark = 'E' then
      let (negative, cs) := match cs with
        | '-' :: r => (true, r)
        | '+' :: r => (false, r)
        | r => (false, r)
      match readDigits? cs with
      | some (ds, []) => some (some (if negative then -(ofDigits ds : Int) else ofDigits ds))
      | _ => none
    else none

/-- Reads a number. The whole part has no leading zero, and digits follow a point and an
exponent mark. -/
def read? (cs : List Char) : Option Number := do
  let (negative, cs) := match cs with
    | '-' :: r => (true, r)
    | r => (false, r)
  let (whole, cs) ← readDigits? cs
  if whole.head? = some '0' ∧ whole.length ≠ 1 then none
  match cs with
  | '.' :: r =>
    let (places, r) ← readDigits? r
    let exponent ← readExponent? r
    some ⟨negative, ofDigits whole, some (places.map fun d => d.toNat - '0'.toNat), exponent⟩
  | r =>
    let exponent ← readExponent? r
    some ⟨negative, ofDigits whole, none, exponent⟩

/-- How a number is written. -/
def spell (n : Number) : List Char :=
  (if n.negative then ['-'] else []) ++ Nat.toDigits 10 n.whole
    ++ (match n.fraction with
      | none => []
      | some ds => '.' :: ds.map Nat.digitChar)
    ++ (match n.exponent with
      | none => []
      | some e => (if e < 0 then ['e', '-'] else ['e']) ++ Nat.toDigits 10 e.natAbs)

end Number

namespace Token

/-- The four characters of white space between tokens. -/
def isSpace (c : Char) : Bool :=
  c = ' ' || c = '\t' || c = '\n' || c = '\r'

/-- The characters that numbers are made of. -/
def isNumeric (c : Char) : Bool :=
  c.isDigit || c = '-' || c = '+' || c = '.' || c = 'e' || c = 'E'

/-- The value of a hexadecimal digit. -/
def hexValue? (c : Char) : Option Nat :=
  if c.isDigit then some (c.toNat - '0'.toNat)
  else if 'a' ≤ c ∧ c ≤ 'f' then some (c.toNat - 'a'.toNat + 10)
  else if 'A' ≤ c ∧ c ≤ 'F' then some (c.toNat - 'A'.toNat + 10)
  else none

/-- A string being read: its characters so far, last first, the high surrogate that waits
for its partner, and whether every earlier surrogate has found one. -/
structure Draft where
  chars : List Char := []
  high : Option Nat := none
  paired : Bool := true
  deriving DecidableEq, Repr

namespace Draft

/-- Adds a character that is not half of a pair. -/
def push (d : Draft) (c : Char) : Draft :=
  ⟨c :: d.chars, none, d.paired && d.high.isNone⟩

/-- Adds a 16-bit unit written as an escape. -/
def pushUnit (d : Draft) (unit : Nat) : Draft :=
  if 0xd800 ≤ unit ∧ unit < 0xdc00 then
    ⟨d.chars, some unit, d.paired && d.high.isNone⟩
  else if 0xdc00 ≤ unit ∧ unit < 0xe000 then
    match d.high with
    | some high =>
      ⟨Char.ofNat (0x10000 + (high - 0xd800) * 0x400 + (unit - 0xdc00)) :: d.chars, none,
        d.paired⟩
    | none => ⟨d.chars, none, false⟩
  else d.push (Char.ofNat unit)

/-- The text of a finished string. -/
def finish (d : Draft) : Option String :=
  if d.paired && d.high.isNone then some (String.ofList d.chars.reverse) else none

end Draft

/-- What the next character belongs to. -/
inductive Mode where
  /-- White space or the start of a token. -/
  | between
  /-- The rest of a literal name. -/
  | name (due : List Char) (token : Token)
  /-- A number, its characters so far last first. -/
  | numeral (chars : List Char)
  /-- A string. -/
  | string (draft : Draft)
  /-- The character after a backslash. -/
  | escape (draft : Draft)
  /-- A hexadecimal digit of an escape, with the number of digits that are due. -/
  | unit (draft : Draft) (due : Nat) (value : Nat)
  deriving DecidableEq, Repr

/-- The character that a one-letter escape stands for. -/
def unescape? (c : Char) : Option Char :=
  if c = '"' then some '"'
  else if c = '\\' then some '\\'
  else if c = '/' then some '/'
  else if c = 'b' then some '\x08'
  else if c = 'f' then some '\x0c'
  else if c = 'n' then some '\n'
  else if c = 'r' then some '\r'
  else if c = 't' then some '\t'
  else none

/-- Reads a character that stands between tokens or starts one. -/
def start (c : Char) : Option (List Token × Mode) :=
  if isSpace c then some ([], .between)
  else if c = '[' then some ([.openArray], .between)
  else if c = ']' then some ([.closeArray], .between)
  else if c = '{' then some ([.openObject], .between)
  else if c = '}' then some ([.closeObject], .between)
  else if c = ',' then some ([.comma], .between)
  else if c = ':' then some ([.colon], .between)
  else if c = '"' then some ([], .string {})
  else if c = 'n' then some ([], .name ['u', 'l', 'l'] .null)
  else if c = 't' then some ([], .name ['r', 'u', 'e'] (.bool true))
  else if c = 'f' then some ([], .name ['a', 'l', 's', 'e'] (.bool false))
  else if c = '-' ∨ c.isDigit then some ([], .numeral [c])
  else none

/-- Reads one character: the tokens that it completes and the mode of the next one, or
`none` at a fault. -/
def step : Mode → Char → Option (List Token × Mode)
  | .between, c => start c
  | .name [] _, _ => none
  | .name (d :: due) token, c =>
    if c ≠ d then none
    else if due.isEmpty then some ([token], .between) else some ([], .name due token)
  | .numeral chars, c =>
    if isNumeric c then some ([], .numeral (c :: chars))
    else do
      let n ← Number.read? chars.reverse
      let (tokens, mode) ← start c
      some (.number n :: tokens, mode)
  | .string draft, c =>
    if c = '"' then some ([.string draft.finish], .between)
    else if c = '\\' then some ([], .escape draft)
    else if c.toNat < 0x20 then none
    else some ([], .string (draft.push c))
  | .escape draft, c =>
    if c = 'u' then some ([], .unit draft 4 0)
    else (unescape? c).map fun x => ([], .string (draft.push x))
  | .unit draft due value, c =>
    (hexValue? c).map fun digit =>
      if due ≤ 1 then ([], .string (draft.pushUnit (16 * value + digit)))
      else ([], .unit draft (due - 1) (16 * value + digit))

/-- The tokens that the end of the text completes, or `none` when it is a fault there. -/
def finish : Mode → Option (List Token)
  | .between => some []
  | .numeral chars => (Number.read? chars.reverse).map fun n => [.number n]
  | _ => none

/-- The tokens of a text from a mode on, and whether the text splits to its end. -/
def scan : Mode → List Char → List Token × Bool
  | mode, [] =>
    match finish mode with
    | some tokens => (tokens, true)
    | none => ([], false)
  | mode, c :: cs =>
    match step mode c with
    | some (tokens, mode) =>
      let rest := scan mode cs
      (tokens ++ rest.1, rest.2)
    | none => ([], false)

/-- How one character is written inside a string. -/
def escapeChar (c : Char) : List Char :=
  if c = '"' then ['\\', '"']
  else if c = '\\' then ['\\', '\\']
  else if c = '\x08' then ['\\', 'b']
  else if c = '\x0c' then ['\\', 'f']
  else if c = '\n' then ['\\', 'n']
  else if c = '\r' then ['\\', 'r']
  else if c = '\t' then ['\\', 't']
  else if c.toNat < 0x20 then
    ['\\', 'u', '0', '0', Nat.digitChar (c.toNat / 16), Nat.digitChar (c.toNat % 16)]
  else [c]

/-- How a token is written. A string without a text is written as a lone surrogate. -/
def spell : Token → List Char
  | openArray => ['[']
  | closeArray => [']']
  | openObject => ['{']
  | closeObject => ['}']
  | comma => [',']
  | colon => [':']
  | null => ['n', 'u', 'l', 'l']
  | bool true => ['t', 'r', 'u', 'e']
  | bool false => ['f', 'a', 'l', 's', 'e']
  | number n => n.spell
  | string (some s) => '"' :: s.toList.flatMap escapeChar ++ ['"']
  | string none => ['"', '\\', 'u', 'd', '8', '0', '0', '"']

end Token

end Tracepoint
