import Tracepoint.Json.Parser

/-!
# Taking JSON values apart

Readers of the shapes that documents are made of: texts, integers of a width, lists,
records and tagged choices. A record is written as an object, or as an array of its fields
in order. Unknown members are passed over; a known member given twice is refused.
-/

namespace Tracepoint.Json

/-- The text of a string. -/
def asText? : Json → Option String
  | .string s => s
  | _ => none

/-- An integer in a range, written as an integer. -/
def asInt? (lo hi : Int) : Json → Option Int
  | .number n => n.asInt?.filter fun i => decide (lo ≤ i ∧ i ≤ hi)
  | _ => none

/-- A natural number below a bound, written as an integer. -/
def asNat? (bound : Nat) (v : Json) : Option Nat :=
  (v.asInt? 0 ((bound : Int) - 1)).map Int.toNat

/-- The items of an array that is closed. -/
def asList? : Json → Option (List Json)
  | .array items true => some items
  | _ => none

/-- The list of what the items of an array stand for. -/
def asListOf? {α : Type} (decode : Json → Option α) (v : Json) : Option (List α) :=
  v.asList?.bind fun items => items.mapM decode

/-- A value that may be `null`. -/
def asOptional? {α : Type} (decode : Json → Option α) : Json → Option (Option α)
  | .null => some none
  | v => (decode v).map some

/-- The members of a record in the order of the text, with keys that are `none` when they
have no text, and whether nothing but them is in the record. The fields of an array take
the names in order. -/
def entries? (names : List String) : Json → Option (List (Option String × Json) × Bool)
  | .object members closed => some (members, closed)
  | .array items closed =>
    some ((names.map some).zip items, closed && decide (items.length ≤ names.length))
  | _ => none

/-- The members of a record that are known by name. -/
abbrev Fields := List (String × Json)

/-- The known members among some members, none of them given twice. -/
def known? (names : List String) : List (Option String × Json) → Option Fields
  | [] => some []
  | (none, _) :: _ => none
  | (some k, v) :: rest => do
    let fields ← known? names rest
    if k ∈ names then
      if k ∈ fields.map Prod.fst then none else some ((k, v) :: fields)
    else some fields

/-- The known members of a record. -/
def fields? (names : List String) (v : Json) : Option Fields := do
  let (members, sound) ← v.entries? names
  if sound then known? names members else none

/-- The value of a field that must be there. -/
def Fields.required? {α : Type} (fields : Fields) (name : String) (decode : Json → Option α) :
    Option α :=
  (fields.lookup name).bind decode

/-- The value of a field that may be left out. -/
def Fields.defaulted? {α : Type} (fields : Fields) (name : String) (fallback : α)
    (decode : Json → Option α) : Option α :=
  match fields.lookup name with
  | none => some fallback
  | some v => decode v

/-- A choice: its name alone, or an object of one member whose value is what it carries. -/
def choice? : Json → Option (String × Option Json)
  | .string (some name) => some (name, none)
  | .object [(some name, v)] true => some (name, some v)
  | _ => none

mutual

/-- Whether a value can be held before its place is known: every string has a text, every
number is in the range of double precision, every container is closed, and containers nest
no deeper than a limit. -/
def holdable (limit : Nat) : Json → Bool
  | .null => true
  | .bool _ => true
  | .number n => !n.overflows
  | .string s => s.isSome
  | .array items closed =>
    match limit with
    | 0 => false
    | limit + 1 => closed && holdableItems limit items
  | .object members closed =>
    match limit with
    | 0 => false
    | limit + 1 => closed && holdableMembers limit members

/-- Whether all items can be held. -/
def holdableItems (limit : Nat) : List Json → Bool
  | [] => true
  | v :: vs => holdable limit v && holdableItems limit vs

/-- Whether all members can be held. -/
def holdableMembers (limit : Nat) : List (Option String × Json) → Bool
  | [] => true
  | (k, v) :: ms => k.isSome && holdable limit v && holdableMembers limit ms

end

end Tracepoint.Json
