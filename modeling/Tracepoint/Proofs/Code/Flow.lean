import Tracepoint.Proofs.Code.Validity

/-!
# Control flow of a body

The steps of control between positions: on to the next position, along a jump, and from a
statement that raises an exception, inside the range of a trap, to the handler of the trap
(`Body.Step`). Which statements raise is a parameter. Paths go through positions in order
(`Body.PathFrom`), from the entry of a body if they are its paths (`Body.IsPath`). In a
valid body control stays among the statements (`Step.lt_length`).
-/

namespace Tracepoint.Body

/-- Whether a position lies in the range of a trap. -/
def Covers (b : Body) (t : Trap) (p : Nat) : Prop :=
  ∃ first stop, b.position? t.first = some first ∧ b.position? t.stop = some stop ∧
    first ≤ p ∧ p < stop

/-- The steps of control between positions, when certain statements may raise an exception. -/
inductive Step (b : Body) (raises : Statement → Prop) : Nat → Nat → Prop where
  | next {p : Nat} {s : Statement} (here : b.statements[p]? = some s)
      (falls : s.code.fallsThrough = true) : Step b raises p (p + 1)
  | jump {p q : Nat} {s : Statement} {l : Label} (here : b.statements[p]? = some s)
      (target : s.code.branchTarget? = some l) (there : b.position? l = some q) :
      Step b raises p q
  | raise {p q : Nat} {s : Statement} {t : Trap} (here : b.statements[p]? = some s)
      (may : raises s) (trap : t ∈ b.traps) (covered : b.Covers t p)
      (there : b.position? t.handler = some q) : Step b raises p q

/-- The paths from a position: the positions that control goes through, in order. -/
inductive PathFrom (b : Body) (raises : Statement → Prop) : Nat → List Nat → Prop where
  | stop (p : Nat) : PathFrom b raises p [p]
  | step {p q : Nat} {path : List Nat} (step : Step b raises p q)
      (later : PathFrom b raises q path) : PathFrom b raises p (p :: path)

/-- The paths from the entry, the first position. The empty one is where control has not come to
any statement. -/
def IsPath (b : Body) (raises : Statement → Prop) (path : List Nat) : Prop :=
  path = [] ∨ PathFrom b raises 0 path

variable {b : Body} {raises : Statement → Prop} {p q : Nat} {l : Label} {path : List Nat}

theorem lt_length_of_position? (there : b.position? l = some p) : p < b.statements.length := by
  obtain ⟨bound, -⟩ := List.findIdx?_eq_some_iff_getElem.mp there
  exact bound

/-- Steps start from statements. -/
theorem Step.start_lt_length (step : b.Step raises p q) : p < b.statements.length := by
  cases step with
  | next here | jump here | raise here => exact (List.getElem?_eq_some_iff.mp here).1

/-- **Control stays among the statements** of a valid body. -/
theorem Step.lt_length (step : b.Step raises p q) (valid : b.fault? = none) :
    q < b.statements.length := by
  cases step with
  | next here falls => exact lt_length_of_valid valid here falls
  | jump here target there => exact lt_length_of_position? there
  | raise here may trap covered there => exact lt_length_of_position? there

end Tracepoint.Body
