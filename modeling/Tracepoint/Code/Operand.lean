import Tracepoint.Text.Quoted

/-!
# Types, operands and method references

The static types of the code, the operands of its statements with the rule for passing one
where a type is declared, and references to methods. Each has a rendering; the rendering
of a method reference is the signature by which a method is known in reports.
-/

namespace Tracepoint

/-- The static type of a value or of a parameter. -/
inductive ValueType where
  | void
  | boolean
  | int
  | long
  /-- `java.lang.String`. -/
  | string
  /-- Any other reference type, by its qualified class name. -/
  | object (name : String)
  deriving DecidableEq, Repr, Inhabited

namespace ValueType

/-- Whether values of the type are references. -/
def isReference : ValueType → Bool
  | string | object _ => true
  | _ => false

/-- The type as it is shown in signatures. -/
def render : ValueType → String
  | void => "void"
  | boolean => "boolean"
  | int => "int"
  | long => "long"
  | string => "java.lang.String"
  | object name => name

end ValueType

/-- An operand of a statement. -/
inductive Operand where
  | localVar (name : String)
  | stringConst (s : String)
  | intConst (i : Int32)
  | null
  deriving DecidableEq, Repr, Inhabited

namespace Operand

/-- The type of a constant; local variables and `null` have none. -/
def constantType : Operand → Option ValueType
  | stringConst _ => some .string
  | intConst _ => some .int
  | localVar _ | null => none

/-- Whether the operand may be passed where a type is declared. Local variables are not
typed and may stand anywhere. -/
def fits : Operand → ValueType → Bool
  | localVar _, _ => true
  | null, t => t.isReference
  | stringConst _, .string | stringConst _, .object _ => true
  | intConst _, .int | intConst _, .boolean => true
  | _, _ => false

/-- The operand as it is shown in statements. -/
def render : Operand → String
  | localVar name => name
  | stringConst s => Text.quote s
  | intConst i => toString i.toInt
  | null => "null"

end Operand

/-- A method, by its declaring class and its signature. -/
structure MethodRef where
  owner : String
  name : String
  params : List ValueType
  ret : ValueType
  deriving DecidableEq, Repr, Inhabited

/-- The signature `<owner: ret name(p1,p2)>`. -/
def MethodRef.render (m : MethodRef) : String :=
  "<" ++ m.owner ++ ": " ++ m.ret.render ++ " " ++ m.name ++ "("
    ++ String.intercalate "," (m.params.map ValueType.render) ++ ")>"

end Tracepoint
