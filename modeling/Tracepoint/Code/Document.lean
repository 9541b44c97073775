import Tracepoint.Code.CodeUnit
import Tracepoint.Json.Decode
import Tracepoint.Json.Printer

/-!
# Code documents

The JSON form of code units and their parts: how each part is written, and how it is read.
Writing is canonical. Reading accepts the members of a record in any order, passes over
unknown ones and fills in the fields that may be left out. The labels of a body are judged
when the body has been read, so of a label error and another fault the one that is met
first in the text is reported.
-/

namespace Tracepoint

/-- Why a document was refused. -/
inductive DocumentError where
  /-- The text breaks a rule of JSON or of the shape of the document. -/
  | malformed
  /-- The labels of a body are not distinct or not in range. -/
  | labels (e : LabelError)
  deriving DecidableEq, Repr, Inhabited

/-- The deepest nesting of containers that is read, the outermost one counted. -/
def Json.maxDepth : Nat := 127

/-- Whether what comes with a name says that nothing comes with it. Inside a statement the
empty object says so too. -/
def Json.isNothing (held : Bool) : Option Json → Bool
  | none => true
  | some .null => true
  | some (.object [] true) => held
  | some _ => false

/-! ### Types, operands and method references -/

/-- The document of a type. -/
def ValueType.toJson : ValueType → Json
  | .void => .text "void"
  | .boolean => .text "boolean"
  | .int => .text "int"
  | .long => .text "long"
  | .string => .text "string"
  | .object name => .record [("object", .text name)]

/-- Reads a type; `held` inside statements. -/
def ValueType.ofJson? (held : Bool) (v : Json) : Option ValueType := do
  let (name, payload) ← v.choice?
  if name = "object" then return .object (← (← payload).asText?)
  if !Json.isNothing held payload then none
  match name with
  | "void" => some .void
  | "boolean" => some .boolean
  | "int" => some .int
  | "long" => some .long
  | "string" => some .string
  | _ => none

/-- The document of an operand. -/
def Operand.toJson : Operand → Json
  | .localVar name => .record [("local", .text name)]
  | .stringConst s => .record [("string_const", .text s)]
  | .intConst i => .record [("int_const", .int i.toInt)]
  | .null => .text "null"

/-- Reads an operand; `held` inside statements. -/
def Operand.ofJson? (held : Bool) (v : Json) : Option Operand := do
  let (name, payload) ← v.choice?
  match name with
  | "local" => return .localVar (← (← payload).asText?)
  | "string_const" => return .stringConst (← (← payload).asText?)
  | "int_const" => return .intConst (.ofInt (← (← payload).asInt? (-0x80000000) 0x7fffffff))
  | "null" => if Json.isNothing held payload then some .null else none
  | _ => none

/-- The document of a method reference. -/
def MethodRef.toJson (m : MethodRef) : Json :=
  .record [("class", .text m.owner), ("name", .text m.name),
    ("params", .list (m.params.map ValueType.toJson)), ("ret", m.ret.toJson)]

/-- Reads a method reference; `held` inside statements. -/
def MethodRef.ofJson? (held : Bool) (v : Json) : Option MethodRef := do
  let fields ← v.fields? ["class", "name", "params", "ret"]
  return {
    owner := ← fields.required? "class" Json.asText?
    name := ← fields.required? "name" Json.asText?
    params := ← fields.required? "params" (Json.asListOf? (ValueType.ofJson? held))
    ret := ← fields.required? "ret" (ValueType.ofJson? held) }

/-! ### Statements -/

/-- The document of a label. -/
def Label.toJson (l : Label) : Json :=
  .nat l.index.toNat

/-- Reads a label. -/
def Label.ofJson? (v : Json) : Option Label :=
  (v.asNat? 0x100000000).map fun n => ⟨.ofNat n⟩

/-- The document of a binding. -/
def Binding.toJson : Binding → Json
  | .this type => .record [("this", .record [("ty", type.toJson)])]
  | .parameter index type =>
    .record [("parameter", .record [("index", .nat index.toNat), ("ty", type.toJson)])]
  | .caughtException => .text "caught_exception"

/-- Reads a binding; `held` inside statements. -/
def Binding.ofJson? (held : Bool) (v : Json) : Option Binding := do
  let (name, payload) ← v.choice?
  match name with
  | "this" =>
    let fields ← (← payload).fields? ["ty"]
    return .this (← fields.required? "ty" (ValueType.ofJson? held))
  | "parameter" =>
    let fields ← (← payload).fields? ["index", "ty"]
    let index ← fields.required? "index" (Json.asNat? 0x10000)
    return .parameter (.ofNat index) (← fields.required? "ty" (ValueType.ofJson? held))
  | "caught_exception" => if Json.isNothing held payload then some .caughtException else none
  | _ => none

namespace Instruction

/-- The members of the document of an instruction. -/
def members : Instruction → List (String × Json)
  | identity target source =>
    [("op", .text "identity"), ("local", .text target), ("source", source.toJson)]
  | invoke callee args =>
    [("op", .text "invoke"), ("callee", callee.toJson),
      ("args", .list (args.map Operand.toJson))]
  | plain text => [("op", .text "plain"), ("text", .text text)]
  | branch condition target =>
    [("op", .text "if"), ("condition", .text condition), ("target", target.toJson)]
  | goto target => [("op", .text "goto"), ("target", target.toJson)]
  | ret value => [("op", .text "return"), ("value", .optional Operand.toJson value)]
  | throw value => [("op", .text "throw"), ("value", value.toJson)]

/-- The document of an instruction that stands alone. -/
def toJson (code : Instruction) : Json :=
  .record code.members

/-- The names of the instructions, in the order that also numbers them. -/
def tags : List String :=
  ["identity", "invoke", "plain", "if", "goto", "return", "throw"]

/-- The fields of the instruction of a name. -/
def fieldNames : String → List String
  | "identity" => ["local", "source"]
  | "invoke" => ["callee", "args"]
  | "plain" => ["text"]
  | "if" => ["condition", "target"]
  | "goto" => ["target"]
  | "return" | "throw" => ["value"]
  | _ => []

/-- Reads the fields of the instruction of a name. -/
def ofFields? (tag : String) (fields : Json.Fields) : Option Instruction :=
  match tag with
  | "identity" => do
    let target ← fields.required? "local" Json.asText?
    return identity target (← fields.required? "source" (Binding.ofJson? true))
  | "invoke" => do
    let callee ← fields.required? "callee" (MethodRef.ofJson? true)
    return invoke callee (← fields.required? "args" (Json.asListOf? (Operand.ofJson? true)))
  | "plain" => return plain (← fields.required? "text" Json.asText?)
  | "if" => do
    let condition ← fields.required? "condition" Json.asText?
    return branch condition (← fields.required? "target" Label.ofJson?)
  | "goto" => return goto (← fields.required? "target" Label.ofJson?)
  | "return" =>
    return ret (← fields.defaulted? "value" none (Json.asOptional? (Operand.ofJson? true)))
  | "throw" => return throw (← fields.required? "value" (Operand.ofJson? true))
  | _ => none

/-- Reads an instruction from the members of an object. -/
def ofMembers? (tag : Json → Option String) (members : List (Option String × Json)) :
    Option Instruction := do
  let tag ← (← Json.known? ["op"] members).required? "op" tag
  ofFields? tag (← Json.known? (fieldNames tag) members)

/-- Reads the name of an instruction inside a statement, where its number will do. -/
def tagOrNumber? (v : Json) : Option String :=
  match v with
  | .string s => s
  | v => (v.asNat? tags.length).bind fun n => tags[n]?

/-- Reads an instruction that stands alone: an object, or an array of its name and its
fields in order. -/
def ofJson? : Json → Option Instruction
  | .object members true =>
    if Json.holdableMembers (Json.maxDepth - 1) members then ofMembers? Json.asText? members
    else none
  | .array (tag :: items) true => do
    let tag ← tag.asText?
    if !Json.holdableItems (Json.maxDepth - 1) items then none
    ofFields? tag (← (Json.list items).fields? (fieldNames tag))
  | _ => none

end Instruction

namespace Statement

/-- The document of a statement. -/
def toJson (s : Statement) : Json :=
  .record (("label", s.label.toJson) :: s.code.members)

/-- Reads a statement, which is an object at a depth of nesting. -/
def ofJson? (depth : Nat) : Json → Option Statement
  | .object members true => do
    let label ← (← Json.known? ["label"] members).required? "label" Label.ofJson?
    let members := members.filter fun m => m.1 ≠ some "label"
    if !Json.holdableMembers (Json.maxDepth - depth) members then none
    return ⟨label, ← Instruction.ofMembers? Instruction.tagOrNumber? members⟩
  | _ => none

end Statement

/-! ### Bodies -/

/-- The document of a trap. -/
def Trap.toJson (t : Trap) : Json :=
  .record [("exception", .text t.exception), ("begin", t.first.toJson), ("end", t.stop.toJson),
    ("handler", t.handler.toJson)]

/-- Reads a trap. -/
def Trap.ofJson? (v : Json) : Option Trap := do
  let fields ← v.fields? ["exception", "begin", "end", "handler"]
  return {
    exception := ← fields.required? "exception" Json.asText?
    first := ← fields.required? "begin" Label.ofJson?
    stop := ← fields.required? "end" Label.ofJson?
    handler := ← fields.required? "handler" Label.ofJson? }

namespace Body

/-- The document of a body. The label to hand out next is not part of it. -/
def toJson (b : Body) : Json :=
  .record [("statements", .list (b.statements.map Statement.toJson)),
    ("traps", .list (b.traps.map Trap.toJson))]

/-- Reads the statements and traps of a body at a depth of nesting. -/
def partsOfJson? (depth : Nat) (v : Json) : Option (List Statement × List Trap) := do
  let fields ← v.fields? ["statements", "traps"]
  let statements ←
    fields.required? "statements" (Json.asListOf? (Statement.ofJson? (depth + 2)))
  return (statements, ← fields.defaulted? "traps" [] (Json.asListOf? Trap.ofJson?))

/-- Reads a body at a depth of nesting. -/
def ofJson (depth : Nat) (v : Json) : Except DocumentError Body :=
  match partsOfJson? depth v with
  | none => .error .malformed
  | some (statements, traps) =>
    match ofParts statements traps with
    | .error e => .error (.labels e)
    | .ok b => .ok b

end Body

/-! ### Methods and units -/

namespace DocumentError

/-- Anything that is missing is a fault in the shape of the document. -/
def ofOption {α : Type} : Option α → Except DocumentError α
  | none => .error .malformed
  | some a => .ok a

/-- Fills a field that must not have been filled before. -/
def fill {α : Type} (slot : Option α) (value : Except DocumentError α) :
    Except DocumentError (Option α) :=
  match slot with
  | some _ => .error .malformed
  | none => value.map some

/-- Reads a record front to back: `field` takes one member into what has been read, and
`finish` judges the whole. -/
def readRecord {σ α : Type} (names : List String) (start : σ)
    (field : String → Json → σ → Except DocumentError σ) (finish : σ → Option α) (v : Json) :
    Except DocumentError α := do
  let (members, sound) ← ofOption (v.entries? names)
  let draft ← members.foldlM (fun s m => ofOption m.1 >>= fun k => field k m.2 s) start
  if sound then ofOption (finish draft) else .error .malformed

end DocumentError

namespace Method

/-- The fields of a method that have been read. -/
structure Draft where
  name : Option String := none
  params : Option (List ValueType) := none
  ret : Option ValueType := none
  body : Option (Option Body) := none

/-- The document of a method. -/
def toJson (m : Method) : Json :=
  .record [("name", .text m.name), ("params", .list (m.params.map ValueType.toJson)),
    ("ret", m.ret.toJson), ("body", .optional Body.toJson m.body)]

open DocumentError in
/-- Reads one member of a method at a depth of nesting. -/
def Draft.field (depth : Nat) (key : String) (v : Json) (d : Draft) :
    Except DocumentError Draft :=
  match key with
  | "name" => return { d with name := ← fill d.name (ofOption v.asText?) }
  | "params" =>
    return { d with params := ← fill d.params (ofOption (v.asListOf? (ValueType.ofJson? false))) }
  | "ret" => return { d with ret := ← fill d.ret (ofOption (ValueType.ofJson? false v)) }
  | "body" =>
    return { d with
      body := ← fill d.body
        (match v with
          | .null => .ok none
          | v => (Body.ofJson (depth + 1) v).map some) }
  | _ => return d

/-- The method whose fields have been read. -/
def Draft.finish? (d : Draft) : Option Method := do
  return ⟨← d.name, d.params.getD [], ← d.ret, d.body.getD none⟩

/-- Reads a method at a depth of nesting. -/
def ofJson (depth : Nat) (v : Json) : Except DocumentError Method :=
  DocumentError.readRecord ["name", "params", "ret", "body"] {} (Draft.field depth)
    Draft.finish? v

end Method

namespace CodeUnit

/-- The fields of a unit that have been read. -/
structure Draft where
  name : Option String := none
  methods : Option (List Method) := none

/-- The document of a unit. -/
def toJson (u : CodeUnit) : Json :=
  .record [("name", .text u.name), ("methods", .list (u.methods.map Method.toJson))]

/-- Reads the methods of a unit front to back. -/
def methodsOfJson (v : Json) : Except DocumentError (List Method) :=
  match v with
  | .array items closed => do
    let methods ← items.mapM (Method.ofJson 3)
    if closed then .ok methods else .error .malformed
  | _ => .error .malformed

open DocumentError in
/-- Reads one member of a unit. -/
def Draft.field (key : String) (v : Json) (d : Draft) : Except DocumentError Draft :=
  match key with
  | "name" => return { d with name := ← fill d.name (ofOption v.asText?) }
  | "methods" => return { d with methods := ← fill d.methods (methodsOfJson v) }
  | _ => return d

/-- The unit whose fields have been read. -/
def Draft.finish? (d : Draft) : Option CodeUnit := do
  return ⟨← d.name, d.methods.getD []⟩

/-- Reads a unit. -/
def ofJson (v : Json) : Except DocumentError CodeUnit :=
  DocumentError.readRecord ["name", "methods"] {} Draft.field Draft.finish? v

/-- The compact document of a unit. -/
def document (u : CodeUnit) : String :=
  u.toJson.compact

end CodeUnit

/-- Reads a document that is a text. What the value gives is judged before what follows it. -/
def Json.readDocument {α : Type} (decode : Json → Except DocumentError α) (text : String) :
    Except DocumentError α :=
  let r := Json.read text
  match r.value with
  | none => .error .malformed
  | some v => do
    let a ← decode v
    if r.whole then .ok a else .error .malformed

/-- Reads the document of a unit. -/
def CodeUnit.ofDocument (text : String) : Except DocumentError CodeUnit :=
  Json.readDocument CodeUnit.ofJson text

end Tracepoint
