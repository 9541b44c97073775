import Tracepoint.Code.CodeUnit

/-!
# Structural validity of bodies

The rules that a body has to keep: it has statements; bindings of `this` and of parameters
lead it; jumps and trap boundaries name statements of it; every call passes operands that
fit; traps cover something and are handled where the exception is caught; and control does
not run off its end. `Body.fault?` gives the first rule that is broken, in that order.
-/

namespace Tracepoint

/-- The first rule that a body breaks. -/
inductive BodyFault where
  | empty
  | missingStatement (label : Label)
  | labelsExhausted
  | identityNotLeading (position : Nat) (statement : String)
  | danglingBranch (position : Nat) (target : Label)
  | danglingTrap (exception : String) (label : Label)
  | invertedTrap (exception : String)
  | handlerWithoutCatch (exception : String)
  | argumentCount (position : Nat) (callee : String) (expected found : Nat)
  | argumentType (position : Nat) (callee : String) (index : Nat) (value expected : String)
  | fallsOffEnd (last : String)
  deriving DecidableEq, Repr, Inhabited

/-- The wording of a broken rule. -/
def BodyFault.message : BodyFault → String
  | empty => "body has no statements"
  | missingStatement label =>
    label.render ++ " disappeared while the body was being rewritten"
  | labelsExhausted => "no statement label left to allocate"
  | identityNotLeading position statement =>
    "identity statement `" ++ statement ++ "` at position " ++ toString position
      ++ " follows a non-identity statement"
  | danglingBranch position target =>
    "statement at position " ++ toString position ++ " branches to unknown " ++ target.render
  | danglingTrap exception label =>
    "trap for " ++ exception ++ " refers to unknown " ++ label.render
  | invertedTrap exception => "trap for " ++ exception ++ " has an empty or inverted range"
  | handlerWithoutCatch exception =>
    "trap handler for " ++ exception ++ " does not start with @caughtexception"
  | argumentCount position callee expected found =>
    "call to " ++ callee ++ " at position " ++ toString position ++ ": expected "
      ++ toString expected ++ " arguments, found " ++ toString found
  | argumentType position callee index value expected =>
    "call to " ++ callee ++ " at position " ++ toString position ++ ": argument "
      ++ toString index ++ " `" ++ value ++ "` does not fit " ++ expected
  | fallsOffEnd last => "control falls off the end of the body after `" ++ last ++ "`"

namespace Instruction

/-- Whether the instruction binds `this` or a parameter. -/
def bindsEntry : Instruction → Bool
  | identity _ .caughtException => false
  | identity _ _ => true
  | _ => false

end Instruction

namespace Body

/-- The first binding of `this` or a parameter that follows an ordinary statement. -/
def identityFault? (ordinarySeen : Bool) (position : Nat) : List Statement → Option BodyFault
  | [] => none
  | s :: rest =>
    if s.code.bindsEntry && ordinarySeen then
      some (.identityNotLeading position s.render)
    else identityFault? (ordinarySeen || !s.isIdentity) (position + 1) rest

/-- The first operand, from an index on, that does not fit its parameter. -/
def operandFault? (position : Nat) (callee : MethodRef) (index : Nat) :
    List Operand → List ValueType → Option BodyFault
  | arg :: args, param :: params =>
    if arg.fits param then operandFault? position callee (index + 1) args params
    else some (.argumentType position callee.render index arg.render param.render)
  | _, _ => none

/-- What is wrong with the operands of an instruction. -/
def callFault? (position : Nat) : Instruction → Option BodyFault
  | .invoke callee args =>
    if callee.params.length ≠ args.length then
      some (.argumentCount position callee.render callee.params.length args.length)
    else operandFault? position callee 0 args callee.params
  | _ => none

/-- What is wrong with the jump of an instruction. -/
def branchFault? (b : Body) (position : Nat) (code : Instruction) : Option BodyFault :=
  match code.branchTarget? with
  | none => none
  | some target =>
    if (b.position? target).isSome then none else some (.danglingBranch position target)

/-- What is wrong with a statement, its jump before its operands. -/
def statementFault? (b : Body) (position : Nat) (s : Statement) : Option BodyFault :=
  (b.branchFault? position s.code).or (callFault? position s.code)

/-- The first fault of a statement, from a position on. -/
def statementsFault? (b : Body) (position : Nat) : List Statement → Option BodyFault
  | [] => none
  | s :: rest => (b.statementFault? position s).or (statementsFault? b (position + 1) rest)

/-- What is wrong with a trap. -/
def trapFault? (b : Body) (t : Trap) : Option BodyFault :=
  match b.position? t.first with
  | none => some (.danglingTrap t.exception t.first)
  | some first =>
    match b.position? t.stop with
    | none => some (.danglingTrap t.exception t.stop)
    | some stop =>
      match b.get? t.handler with
      | none => some (.danglingTrap t.exception t.handler)
      | some handler =>
        if stop ≤ first then some (.invertedTrap t.exception)
        else if handler.code.catchesException then none
        else some (.handlerWithoutCatch t.exception)

/-- The fault of a last statement that control runs past. -/
def endFault? (statements : List Statement) : Option BodyFault :=
  match statements.getLast? with
  | none => none
  | some last => if last.code.fallsThrough then some (.fallsOffEnd last.render) else none

/-- The first rule that the body breaks. -/
def fault? (b : Body) : Option BodyFault :=
  if b.statements.isEmpty then some .empty
  else (identityFault? false 0 b.statements).or <|
    (b.statementsFault? 0 b.statements).or <|
    (b.traps.findSome? b.trapFault?).or <|
    endFault? b.statements

/-- Accepts a body that breaks no rule. -/
def validate (b : Body) : Except BodyFault Unit :=
  match b.fault? with
  | none => .ok ()
  | some e => .error e

end Body

end Tracepoint
