import Tracepoint.Code.Operand

/-!
# Statements

A statement is an instruction under a label. Labels stay with their statements when others
are inserted; positions do not. Identity statements bind `this`, a parameter or a caught
exception; every other statement is ordinary.
-/

namespace Tracepoint

/-- The handle of a statement in its body. -/
structure Label where
  index : UInt32
  deriving DecidableEq, Repr, Inhabited

/-- The label as it is shown. -/
def Label.render (l : Label) : String :=
  "label" ++ toString l.index.toNat

/-- What an identity statement binds. -/
inductive Binding where
  | this (type : ValueType)
  | parameter (index : UInt16) (type : ValueType)
  | caughtException
  deriving DecidableEq, Repr, Inhabited

/-- What a statement does. -/
inductive Instruction where
  | identity (target : String) (source : Binding)
  | invoke (callee : MethodRef) (args : List Operand)
  /-- Any other instruction without a jump, in its textual form. -/
  | plain (text : String)
  /-- A jump under a condition. -/
  | branch (condition : String) (target : Label)
  | goto (target : Label)
  | ret (value : Option Operand)
  | throw (value : Operand)
  deriving DecidableEq, Repr, Inhabited

/-- The structural class of a statement. -/
inductive StatementKind where
  | identityBinding
  | ordinary
  deriving DecidableEq, Repr

namespace Instruction

/-- The structural class of the instruction. -/
def kind : Instruction → StatementKind
  | identity _ _ => .identityBinding
  | _ => .ordinary

/-- Whether control may go on to the next statement. -/
def fallsThrough : Instruction → Bool
  | goto _ | ret _ | throw _ => false
  | _ => true

/-- The label that the instruction may jump to. -/
def branchTarget? : Instruction → Option Label
  | branch _ target | goto target => some target
  | _ => none

/-- The instruction with every jump to one label led to another. -/
def redirect (old new : Label) : Instruction → Instruction
  | branch condition target => branch condition (if target = old then new else target)
  | goto target => goto (if target = old then new else target)
  | code => code

/-- Whether the instruction binds a caught exception. -/
def catchesException : Instruction → Bool
  | identity _ .caughtException => true
  | _ => false

/-- The instruction as it is shown. -/
def render : Instruction → String
  | identity target (.this type) => target ++ " := @this: " ++ type.render
  | identity target (.parameter index type) =>
    target ++ " := @parameter" ++ toString index.toNat ++ ": " ++ type.render
  | identity target .caughtException => target ++ " := @caughtexception"
  | invoke callee args =>
    "staticinvoke " ++ callee.render ++ "("
      ++ String.intercalate ", " (args.map Operand.render) ++ ")"
  | plain text => text
  | branch condition target => "if " ++ condition ++ " goto " ++ target.render
  | goto target => "goto " ++ target.render
  | ret (some value) => "return " ++ value.render
  | ret none => "return"
  | throw value => "throw " ++ value.render

end Instruction

/-- One instruction of a body. -/
structure Statement where
  label : Label
  code : Instruction
  deriving DecidableEq, Repr, Inhabited

namespace Statement

/-- The structural class of the statement. -/
def kind (s : Statement) : StatementKind :=
  s.code.kind

/-- Whether the statement binds `this`, a parameter or a caught exception. -/
def isIdentity (s : Statement) : Bool :=
  s.kind = .identityBinding

/-- The textual descriptor of the statement, which may be shared by several. -/
def render (s : Statement) : String :=
  s.code.render

end Statement

end Tracepoint
