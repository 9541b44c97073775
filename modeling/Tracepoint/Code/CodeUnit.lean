import Tracepoint.Code.Body

/-!
# Code units

A code unit is one class with its methods. Abstract and native methods have no body.
-/

namespace Tracepoint

/-- A method of a code unit. -/
structure Method where
  name : String
  params : List ValueType
  ret : ValueType
  body : Option Body
  deriving DecidableEq, Repr, Inhabited

namespace Method

/-- The reference to the method as one of a class. -/
def reference (m : Method) (owner : String) : MethodRef :=
  ⟨owner, m.name, m.params, m.ret⟩

/-- The signature of the method as one of a class. -/
def signature (m : Method) (owner : String) : String :=
  (m.reference owner).render

/-- The number of statements in the body. -/
def statementCount (m : Method) : Nat :=
  m.body.elim 0 Body.length

end Method

/-- One class. -/
structure CodeUnit where
  name : String
  methods : List Method
  deriving DecidableEq, Repr, Inhabited

namespace CodeUnit

/-- The first method of a name. -/
def methodNamed? (u : CodeUnit) (name : String) : Option Method :=
  u.methods.find? fun m => m.name = name

/-- The number of statements in all bodies. -/
def statementCount (u : CodeUnit) : Nat :=
  u.methods.foldr (fun m n => m.statementCount + n) 0

end CodeUnit

end Tracepoint
