import Tracepoint.Code.Statement

/-!
# Method bodies

A body is a sequence of statements with exception traps. Statements come into a body by
reading a document, at the end by `push`, or in front of another statement by
`insertBefore`, which leads every jump and trap boundary that named that statement to the
new one. Labels are handed out upwards from the highest one; the last 32-bit number is no
label.
-/

namespace Tracepoint

/-- The bound of the labels that a body can hold. -/
def Label.limit : UInt32 := 0xffffffff

/-- The exceptions raised in `[first, stop)` go to `handler`. -/
structure Trap where
  exception : String
  first : Label
  stop : Label
  handler : Label
  deriving DecidableEq, Repr, Inhabited

namespace Trap

/-- The trap with every boundary at one label moved to another. -/
def redirect (old new : Label) (t : Trap) : Trap :=
  { t with
    first := if t.first = old then new else t.first
    stop := if t.stop = old then new else t.stop
    handler := if t.handler = old then new else t.handler }

/-- The trap as it is shown. -/
def render (t : Trap) : String :=
  t.exception ++ " [" ++ t.first.render ++ ", " ++ t.stop.render ++ ") -> " ++ t.handler.render

end Trap

/-- Why some statements cannot form a body. -/
inductive LabelError where
  | duplicate (label : Label)
  | outOfRange (label : Label)
  deriving DecidableEq, Repr, Inhabited

/-- The wording of a label error. -/
def LabelError.message : LabelError → String
  | duplicate label => label.render ++ " is used by more than one statement"
  | outOfRange label => label.render ++ " is outside the label range"

/-- A method body. -/
structure Body where
  statements : List Statement
  traps : List Trap
  /-- The next label to hand out; zero as long as it has not been worked out. -/
  nextLabel : UInt32 := 0
  deriving DecidableEq, Repr, Inhabited

namespace Body

/-- The body without statements. -/
def empty : Body :=
  ⟨[], [], 0⟩

/-- The first statement whose label is out of range or carried by one before it. -/
def labelError? (seen : List Label) : List Statement → Option LabelError
  | [] => none
  | s :: rest =>
    if Label.limit ≤ s.label.index then some (.outOfRange s.label)
    else if s.label ∈ seen then some (.duplicate s.label)
    else labelError? (s.label :: seen) rest

/-- The body of some statements and traps. -/
def ofParts (statements : List Statement) (traps : List Trap) : Except LabelError Body :=
  match labelError? [] statements with
  | some e => .error e
  | none => .ok ⟨statements, traps, 0⟩

/-- The number of statements. -/
def length (b : Body) : Nat :=
  b.statements.length

/-- The labels in the order of the statements. -/
def labels (b : Body) : List Label :=
  b.statements.map Statement.label

/-- The position of the statement under a label. -/
def position? (b : Body) (l : Label) : Option Nat :=
  b.statements.findIdx? fun s => s.label = l

/-- The statement under a label. -/
def get? (b : Body) (l : Label) : Option Statement :=
  b.statements.find? fun s => s.label = l

/-- The number after a label, which stays at the greatest 32-bit number. -/
def after (l : Label) : UInt32 :=
  if l.index = Label.limit then Label.limit else l.index + 1

/-- The label to hand out next: the recorded one, or the one after the highest in use. -/
def upcoming (b : Body) : UInt32 :=
  if b.nextLabel = 0 then
    (b.statements.map fun s => after s.label).foldl (fun m n => if m < n then n else m) 0
  else b.nextLabel

/-- Hands out a label, unless the last one is in use. -/
def fresh (b : Body) : Body × Option Label :=
  if Label.limit ≤ b.upcoming then ({ b with nextLabel := b.upcoming }, none)
  else ({ b with nextLabel := b.upcoming + 1 }, some ⟨b.upcoming⟩)

/-- Adds a statement at the end and gives its label, or `none` when no label is left. -/
def push (b : Body) (code : Instruction) : Body × Option Label :=
  match b.fresh with
  | (b, none) => (b, none)
  | (b, some label) => ({ b with statements := b.statements ++ [⟨label, code⟩] }, some label)

/-- Adds a trap. -/
def addTrap (b : Body) (t : Trap) : Body :=
  { b with traps := b.traps ++ [t] }

/-- Leads the jumps and trap boundaries at one label to another, except the jump of the
statement under the new label. -/
def redirect (b : Body) (old new : Label) : Body :=
  { b with
    statements := b.statements.map fun s =>
      if s.label = new then s else { s with code := s.code.redirect old new }
    traps := b.traps.map (Trap.redirect old new) }

/-- Inserts a statement in front of the one under a label and gives its label. Jumps and
trap boundaries at that statement are led to the new one. Gives `none` when there is no
such statement or no label is left. -/
def insertBefore (b : Body) (code : Instruction) (point : Label) : Body × Option Label :=
  match b.position? point with
  | none => (b, none)
  | some index =>
    match b.fresh with
    | (b, none) => (b, none)
    | (b, some label) =>
      let b := { b with statements := b.statements.insertIdx index ⟨label, code⟩ }
      (b.redirect point label, some label)

end Body

end Tracepoint
