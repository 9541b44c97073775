import Tracepoint.Code.Statement
import Tracepoint.Text.Segments

/-!
# The exclusion policy

The policy decides for every statement whether it gets a probe. Four rules are asked in
order: helper units and excluded namespaces are left alone as a whole, then methods outside
the scope, then identity statements.
-/

namespace Tracepoint

/-- What the policy decides for a statement. -/
inductive Decision where
  | admitted
  | helperUnit
  | excludedNamespace
  | outOfScope
  | identityBinding
  deriving DecidableEq, Repr, Inhabited

/-- The organizational root of a namespace: its first two segments when there are more
than two, not counting empty ones at the end, and the whole namespace otherwise. -/
def scopeRoot (ns : String) : String :=
  match Text.segments '.' (Text.dropEnd '.' ns.toList) with
  | first :: second :: _ :: _ => String.ofList (first ++ '.' :: second)
  | _ => ns

/-- The rules of one run. -/
structure Policy where
  /-- The units that belong to the tracing support. -/
  helpers : List String
  /-- The beginnings of unit names that exclude a unit. -/
  excluded : List String
  /-- The beginning that the signatures of admitted methods have. -/
  scope : Option String := none
  deriving DecidableEq, Repr, Inhabited

namespace Policy

/-- The namespaces of the platform and its libraries. -/
def defaultExcluded : List String :=
  ["android.support.", "com.google.", "com.android.", "android.java."]

/-- The policy that limits instrumentation to methods whose signature has a beginning. -/
def withScope (p : Policy) (scope : Option String) : Policy :=
  { p with scope }

/-- The policy that limits instrumentation to the organizational root of an application. -/
def scopedTo (p : Policy) (ns : String) : Policy :=
  p.withScope (some (scopeRoot ns))

/-- Whether a unit belongs to the tracing support. -/
def isHelper (p : Policy) (unit : String) : Bool :=
  p.helpers.contains unit

/-- The rules for a whole unit; `none` when it may be instrumented. -/
def unitDecision? (p : Policy) (unit : String) : Option Decision :=
  if p.isHelper unit then some .helperUnit
  else if p.excluded.any fun start => Text.startsWith unit start then some .excludedNamespace
  else none

/-- Whether a method is in scope, by its signature after the opening bracket. -/
def inScope (p : Policy) (signature : String) : Bool :=
  match p.scope with
  | none => true
  | some start =>
    match signature.toList with
    | '<' :: rest => start.toList.isPrefixOf rest
    | cs => start.toList.isPrefixOf cs

/-- The decision for a statement of a method of a unit. -/
def decide (p : Policy) (s : Statement) (signature unit : String) : Decision :=
  match p.unitDecision? unit with
  | some d => d
  | none =>
    if !p.inScope signature then .outOfScope
    else if s.isIdentity then .identityBinding
    else .admitted

/-- Whether a statement gets a probe. -/
def admits (p : Policy) (s : Statement) (signature unit : String) : Bool :=
  p.decide s signature unit = .admitted

end Policy

end Tracepoint
