import Tracepoint.Json.Token

/-!
# Reading JSON

A machine over tokens with a stack of open containers, so that no depth of nesting is too
deep for it. Reading a text that breaks a rule gives the value up to the first fault: the
containers that were open there are kept, not closed.
-/

namespace Tracepoint.Json

/-- A container that is being read, its contents last first. The members of an object stand
with the key whose value is being read. -/
inductive Frame where
  | items (done : List Json)
  | members (done : List (Option String × Json)) (key : Option String)
  deriving Repr

/-- What may come next, inside the open containers, innermost first. -/
inductive Expecting where
  /-- A value. -/
  | value (stack : List Frame)
  /-- The first item of an array, or its end. -/
  | firstItem (stack : List Frame)
  /-- The first key of an object, or its end. -/
  | firstKey (stack : List Frame)
  /-- A key, after a comma. -/
  | nextKey (done : List (Option String × Json)) (stack : List Frame)
  /-- The colon after a key. -/
  | colon (done : List (Option String × Json)) (key : Option String) (stack : List Frame)
  /-- A comma or an end, after an item. -/
  | nextItem (done : List Json) (stack : List Frame)
  /-- A comma or an end, after a member. -/
  | nextMember (done : List (Option String × Json)) (stack : List Frame)
  /-- Nothing, after the whole value. -/
  | nothing (v : Json)
  deriving Repr

namespace Expecting

/-- What may follow once a value is complete. -/
def complete (v : Json) : List Frame → Expecting
  | [] => .nothing v
  | .items done :: stack => .nextItem (v :: done) stack
  | .members done key :: stack => .nextMember ((key, v) :: done) stack

/-- Reads the first token of a value. -/
def beginValue (stack : List Frame) : Token → Option Expecting
  | .openArray => some (.firstItem stack)
  | .openObject => some (.firstKey stack)
  | .null => some (complete .null stack)
  | .bool b => some (complete (.bool b) stack)
  | .number n => some (complete (.number n) stack)
  | .string s => some (complete (.string s) stack)
  | _ => none

/-- Reads one token; `none` at a fault. -/
def step : Expecting → Token → Option Expecting
  | .value stack, t => beginValue stack t
  | .firstItem stack, .closeArray => some (complete (.array [] true) stack)
  | .firstItem stack, t => beginValue (.items [] :: stack) t
  | .firstKey stack, .closeObject => some (complete (.object [] true) stack)
  | .firstKey stack, .string k => some (.colon [] k stack)
  | .nextKey done stack, .string k => some (.colon done k stack)
  | .colon done k stack, .colon => some (.value (.members done k :: stack))
  | .nextItem done stack, .comma => some (.value (.items done :: stack))
  | .nextItem done stack, .closeArray => some (complete (.array done.reverse true) stack)
  | .nextMember done stack, .comma => some (.nextKey done stack)
  | .nextMember done stack, .closeObject => some (complete (.object done.reverse true) stack)
  | _, _ => none

/-- The containers that are open around a value, closed by none of them. -/
def leaveOpen : Option Json → List Frame → Option Json
  | v, [] => v
  | v, .items done :: stack =>
    leaveOpen (some (.array (v.toList.foldl (fun r x => x :: r) done).reverse false)) stack
  | v, .members done key :: stack =>
    leaveOpen (some (.object ((v.map fun x => (key, x)).toList ++ done).reverse false)) stack

/-- What has been read so far. -/
def partialValue : Expecting → Option Json
  | .value stack => leaveOpen none stack
  | .firstItem stack => leaveOpen (some (.array [] false)) stack
  | .firstKey stack => leaveOpen (some (.object [] false)) stack
  | .nextKey done stack => leaveOpen (some (.object done.reverse false)) stack
  | .colon done _ stack => leaveOpen (some (.object done.reverse false)) stack
  | .nextItem done stack => leaveOpen (some (.array done.reverse false)) stack
  | .nextMember done stack => leaveOpen (some (.object done.reverse false)) stack
  | .nothing v => some v

/-- Reads tokens up to their end or the first fault; the Boolean tells whether there was none. -/
def run : Expecting → List Token → Expecting × Bool
  | e, [] => (e, true)
  | e, t :: ts =>
    match step e t with
    | some e => run e ts
    | none => (e, false)

end Expecting

/-- The value that a text holds, read as far as it follows the rules. -/
structure Reading where
  /-- The value up to the first fault, if the text got as far as one. -/
  value : Option Json
  /-- Whether the text is that value and nothing else. -/
  whole : Bool
  deriving Repr

/-- Reads a text. -/
def read (s : String) : Reading :=
  let (tokens, clean) := Token.scan .between s.toList
  let (state, accepted) := Expecting.run (.value []) tokens
  ⟨state.partialValue, clean && accepted && match state with | .nothing _ => true | _ => false⟩

/-- The value that a text holds when it follows the rules to its end. -/
def parse? (s : String) : Option Json :=
  let r := read s
  if r.whole then r.value else none

end Tracepoint.Json
