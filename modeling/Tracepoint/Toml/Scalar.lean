import Tracepoint.Json.Token
import Tracepoint.Toml.Basic

/-!
# TOML strings, numbers and dates

Readers of the values that do not contain others. A reader takes the characters from where
it stands and gives what it read with the rest.
-/

namespace Tracepoint.Toml

/-- A reader of some value. -/
abbrev Reader (α : Type) := List Char → Option (α × List Char)

/-- Space and tab. -/
def isSpace (c : Char) : Bool :=
  c = ' ' || c = '\t'

/-- The text after spaces and tabs. -/
def skipSpace (cs : List Char) : List Char :=
  cs.dropWhile isSpace

/-- Whether a character may stand in a comment or, quotes and backslashes apart, in a string. -/
def isVisible (c : Char) : Bool :=
  c = '\t' || (0x20 ≤ c.toNat && c.toNat ≠ 0x7f)

/-- The text after an end of line. -/
def newLine? : List Char → Option (List Char)
  | '\n' :: cs => some cs
  | '\r' :: '\n' :: cs => some cs
  | _ => none

/-- The text after a comment, if one starts here. -/
def skipComment : List Char → List Char
  | '#' :: cs => cs.dropWhile isVisible
  | cs => cs

/-- A fixed number of digits. -/
def digits? (count : Nat) : Reader Nat := fun cs =>
  let ds := cs.take count
  if ds.length = count ∧ ds.all Char.isDigit then some (Number.ofDigits ds, cs.drop count)
  else none

/-- A fixed number of hexadecimal digits. -/
def hexDigits? : Nat → Nat → Reader Nat
  | 0, value, cs => some (value, cs)
  | count + 1, value, c :: cs => do hexDigits? count (16 * value + (← Token.hexValue? c)) cs
  | _ + 1, _, [] => none

/-- The character that an escape stands for, after its backslash. -/
def escape? : Reader Char
  | 'b' :: cs => some ('\x08', cs)
  | 't' :: cs => some ('\t', cs)
  | 'n' :: cs => some ('\n', cs)
  | 'f' :: cs => some ('\x0c', cs)
  | 'r' :: cs => some ('\r', cs)
  | '"' :: cs => some ('"', cs)
  | '\\' :: cs => some ('\\', cs)
  | 'u' :: cs => do
    let (n, cs) ← hexDigits? 4 0 cs
    if n.isValidChar then some (Char.ofNat n, cs) else none
  | 'U' :: cs => do
    let (n, cs) ← hexDigits? 8 0 cs
    if n.isValidChar then some (Char.ofNat n, cs) else none
  | _ => none

/-- The rest of a string in double quotes; the fuel is the number of characters. -/
def basicString? : Nat → List Char → Reader (List Char)
  | 0, _, _ => none
  | _ + 1, acc, '"' :: cs => some (acc.reverse, cs)
  | fuel + 1, acc, '\\' :: cs => do
    let (c, cs) ← escape? cs
    basicString? fuel (c :: acc) cs
  | fuel + 1, acc, c :: cs => if isVisible c then basicString? fuel (c :: acc) cs else none
  | _ + 1, _, [] => none

/-- A string in single quotes, after the first of them. -/
def literalString? : Reader (List Char) := fun cs =>
  match cs.dropWhile fun c => isVisible c && c ≠ '\'' with
  | '\'' :: rest => some (cs.takeWhile fun c => isVisible c && c ≠ '\'', rest)
  | _ => none

/-- The quotes at the start of a text that may close a string over several lines: the ones
that belong to the string, and the text behind the closing three. -/
def closing? (quote : Char) : Reader (List Char) := fun cs =>
  let count := (cs.takeWhile (· = quote)).length
  if count < 3 then none
  else some (List.replicate (min count 5 - 3) quote, cs.drop (min count 5))

/-- The text after white space over lines. -/
def skipLines : List Char → List Char
  | [] => []
  | c :: cs =>
    if isSpace c ∨ c = '\n' then skipLines cs
    else match c, cs with
      | '\r', '\n' :: rest => skipLines rest
      | _, _ => c :: cs

/-- The text after a line end that a backslash hides. -/
def hiddenLineEnd? (cs : List Char) : Option (List Char) :=
  (newLine? (skipSpace cs)).map skipLines

/-- The rest of a string over several lines, in double or single quotes; an end of line is
kept as a line feed. The fuel is the number of characters. -/
def longString? (quote : Char) : Nat → List Char → Reader (List Char)
  | 0, _, _ => none
  | fuel + 1, acc, cs =>
    match closing? quote cs with
    | some (quotes, rest) => some (acc.reverse ++ quotes, rest)
    | none =>
      match newLine? cs with
      | some rest => longString? quote fuel ('\n' :: acc) rest
      | none =>
        match cs with
        | [] => none
        | c :: rest =>
          if c = '\\' ∧ quote = '"' then
            match hiddenLineEnd? rest with
            | some rest => longString? quote fuel acc rest
            | none => do
              let (c, rest) ← escape? rest
              longString? quote fuel (c :: acc) rest
          else if isVisible c then longString? quote fuel (c :: acc) rest
          else none

/-- A string over several lines, after its first three quotes. An end of line right there
does not count. -/
def longBody? (quote : Char) : Reader (List Char) := fun cs =>
  let cs := (newLine? cs).getD cs
  longString? quote (cs.length + 1) [] cs

/-- A string in any of the four forms. -/
def stringChars? : Reader (List Char)
  | '"' :: '"' :: '"' :: cs => longBody? '"' cs
  | '\'' :: '\'' :: '\'' :: cs => longBody? '\'' cs
  | '"' :: cs => basicString? (cs.length + 1) [] cs
  | '\'' :: cs => literalString? cs
  | _ => none

/-- Digits with single underscores between them. -/
def digitRun? (isDigit : Char → Bool) : Reader (List Char)
  | [] => none
  | c :: '_' :: cs =>
    if isDigit c then (digitRun? isDigit cs).map fun (ds, rest) => (c :: ds, rest) else none
  | c :: cs =>
    if isDigit c then
      match digitRun? isDigit cs with
      | some (ds, rest) => some (c :: ds, rest)
      | none => some ([c], cs)
    else none

/-- The text after a sign, and whether the sign is a minus. -/
def sign : List Char → Bool × List Char
  | '-' :: cs => (true, cs)
  | '+' :: cs => (false, cs)
  | cs => (false, cs)

/-- The decimal digits of a whole number without a sign; the number has no leading zero. -/
def wholeDigits? : Reader (List Char)
  | '0' :: cs => some (['0'], cs)
  | cs => digitRun? Char.isDigit cs

/-- A number in a range of 64 bits with a sign. -/
def bounded (i : Int) : Option Toml :=
  if -0x8000000000000000 ≤ i ∧ i < 0x8000000000000000 then some (.integer i) else none

/-- A number that is written with a base. -/
def radix? (base : Nat) (isDigit : Char → Bool) : Reader Toml := fun cs => do
  let (ds, rest) ← digitRun? isDigit cs
  let value := ds.foldl (fun n d => base * n + (Token.hexValue? d).getD 0) 0
  return (← bounded value, rest)

/-- A number without a point. -/
def integer? : Reader Toml
  | '0' :: 'x' :: cs => radix? 16 (fun c => (Token.hexValue? c).isSome) cs
  | '0' :: 'o' :: cs => radix? 8 (fun c => '0' ≤ c ∧ c ≤ '7') cs
  | '0' :: 'b' :: cs => radix? 2 (fun c => c = '0' ∨ c = '1') cs
  | cs => do
    let (negative, cs) := sign cs
    let (ds, rest) ← wholeDigits? cs
    let value : Int := Number.ofDigits ds
    return (← bounded (if negative then -value else value), rest)

/-- The text after an exponent. -/
def exponent? : Reader Int
  | mark :: cs =>
    if mark = 'e' ∨ mark = 'E' then
      let (negative, cs) := sign cs
      (digitRun? Char.isDigit cs).map fun r =>
        (if negative then -(Number.ofDigits r.1 : Int) else Number.ofDigits r.1, r.2)
    else none
  | [] => none

/-- The number from which on the nearest value of double precision is infinite: half a unit
above the greatest finite one. -/
def doubleBound : Nat :=
  Nat.pow 2 1024 - Nat.pow 2 970

/-- Whether some decimal digits, scaled by a power of ten, reach that number. It has 309
digits before the point, so only numbers with as many have to be compared with it. -/
def reachesInfinity (ds : List Char) (scale : Int) : Bool :=
  match ds.dropWhile (· = '0') with
  | [] => false
  | ds =>
    let top := ds.length + scale
    309 < top ∨ top = 309 ∧
      doubleBound * Nat.pow 10 (-scale).toNat ≤ Number.ofDigits ds * Nat.pow 10 scale.toNat

/-- A number with a point or an exponent. It must not be rounded to infinity; a negative one
may be. -/
def decimal? : Reader Toml := fun cs => do
  let (negative, cs) := sign cs
  match cs with
  | 'i' :: 'n' :: 'f' :: rest => return (.float, rest)
  | 'n' :: 'a' :: 'n' :: rest => return (.float, rest)
  | _ =>
    let (whole, cs) ← wholeDigits? cs
    let (places, exponent, rest) ← match cs with
      | '.' :: cs => do
        let (places, cs) ← digitRun? Char.isDigit cs
        match exponent? cs with
        | some (e, rest) => some (places, e, rest)
        | none => some (places, 0, cs)
      | cs => (exponent? cs).map fun r => ([], r.1, r.2)
    if reachesInfinity (whole ++ places) (exponent - places.length) ∧ !negative then none
    return (.float, rest)

/-- The number of days in a month. -/
def daysInMonth (year month : Nat) : Nat :=
  if month = 2 then
    if year % 4 = 0 ∧ (year % 100 ≠ 0 ∨ year % 400 = 0) then 29 else 28
  else if month = 4 ∨ month = 6 ∨ month = 9 ∨ month = 11 then 30
  else 31

/-- A day of the calendar. -/
def day? (cs : List Char) : Option (List Char) := do
  let (year, cs) ← digits? 4 cs
  let '-' :: cs := cs | none
  let (month, cs) ← digits? 2 cs
  let '-' :: cs := cs | none
  let (day, cs) ← digits? 2 cs
  if 1 ≤ month ∧ month ≤ 12 ∧ 1 ≤ day ∧ day ≤ daysInMonth year month then some cs else none

/-- Hours and minutes. -/
def hourMinute? (cs : List Char) : Option (List Char) := do
  let (hour, cs) ← digits? 2 cs
  let ':' :: cs := cs | none
  let (minute, cs) ← digits? 2 cs
  if hour < 24 ∧ minute < 60 then some cs else none

/-- A time of the day, to fractions of a second. -/
def time? (cs : List Char) : Option (List Char) := do
  let cs ← hourMinute? cs
  let ':' :: cs := cs | none
  let (second, cs) ← digits? 2 cs
  if 60 < second then none
  match cs with
  | '.' :: d :: rest => some (if d.isDigit then rest.dropWhile Char.isDigit else cs)
  | _ => some cs

/-- The text after the distance from universal time, if it is given. -/
def zone : List Char → List Char
  | 'Z' :: cs => cs
  | 'z' :: cs => cs
  | '+' :: cs => (hourMinute? cs).getD ('+' :: cs)
  | '-' :: cs => (hourMinute? cs).getD ('-' :: cs)
  | cs => cs

/-- A day, a time of the day, or both with or without the distance from universal time. -/
def date? : Reader Toml := fun cs =>
  match day? cs with
  | some rest =>
    match rest with
    | mark :: after =>
      if mark = 'T' ∨ mark = 't' ∨ mark = ' ' then
        match time? after with
        | some rest => some (.date, zone rest)
        | none => some (.date, mark :: after)
      else some (.date, mark :: after)
    | [] => some (.date, [])
  | none => (time? cs).map fun rest => (.date, rest)

/-- A value that does not contain others. -/
def scalar? : Reader Toml
  | 't' :: 'r' :: 'u' :: 'e' :: cs => some (.boolean true, cs)
  | 'f' :: 'a' :: 'l' :: 's' :: 'e' :: cs => some (.boolean false, cs)
  | cs =>
    match cs with
    | c :: _ =>
      if c = '"' ∨ c = '\'' then
        (stringChars? cs).map fun (s, rest) => (.string (String.ofList s), rest)
      else (date? cs).or ((decimal? cs).or (integer? cs))
    | [] => none

end Tracepoint.Toml
