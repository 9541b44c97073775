import Tracepoint.Code.Statement

/-!
# Locations

The description by which a guarded statement is known to the readers of a manifest.
-/

namespace Tracepoint

/-- How a guarded statement is described. -/
inductive LocationFormat where
  /-- By its text alone. -/
  | statement
  /-- By the signature of its method and its text. -/
  | qualified
  deriving DecidableEq, Repr, Inhabited

/-- The description of a statement of the method with a signature. -/
def LocationFormat.describe (f : LocationFormat) (s : Statement) (signature : String) : String :=
  match f with
  | statement => s.render
  | qualified => signature ++ " " ++ s.render

/-- A way to describe the guarded statements of the methods with some signatures. The formats
are two of them. -/
structure LocationFormatter where
  describe (s : Statement) (signature : String) : String

instance : Coe LocationFormat LocationFormatter := ⟨fun f => ⟨f.describe⟩⟩

end Tracepoint
