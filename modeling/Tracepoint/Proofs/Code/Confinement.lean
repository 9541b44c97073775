import Mathlib.Data.List.Nodup
import Tracepoint.Proofs.Code.Edits
import Tracepoint.Proofs.Code.Flow

/-!
# Executions of valid bodies

An execution of a body is a path from its first position. In a valid body no execution leaves the
statements (`confined_of_valid`): wherever it goes there is exactly one statement, control that
falls through finds the next one, jumps have a target, and an exception that a trap takes finds
a handler that catches it.
-/

namespace Tracepoint.Body

/-- What executions of a body keep to, when certain statements may raise an exception. -/
structure Confined (b : Body) (raises : Statement → Prop) : Prop where
  /-- Wherever control comes to there is a statement, and no other has that position. -/
  within : ∀ path, b.PathFrom raises 0 path → ∀ p ∈ path, ∃ s, b.statements[p]? = some s ∧
    ∀ t ∈ b.statements, b.position? t.label = some p ↔ t = s
  falls : ∀ p s, b.statements[p]? = some s → s.code.fallsThrough = true →
    ∃ s', b.statements[p + 1]? = some s'
  jumps : ∀ s ∈ b.statements, ∀ l, s.code.branchTarget? = some l → ∃ q, b.position? l = some q
  /-- Every trap has a range, and its handler is a binding of the caught exception. -/
  catches : ∀ t ∈ b.traps, ∃ first stop q target, b.position? t.first = some first ∧
    b.position? t.stop = some stop ∧ first < stop ∧ b.position? t.handler = some q ∧
    b.statements[q]? = some ⟨t.handler, .identity target .caughtException⟩

variable {b : Body} {raises : Statement → Prop} {p : Nat} {s : Statement} {t : Trap}
  {path : List Nat}

/-- A path in a valid body that starts at a statement goes through statements only. -/
theorem PathFrom.lt_length (along : b.PathFrom raises p path) (valid : b.fault? = none)
    (start : p < b.statements.length) : ∀ q ∈ path, q < b.statements.length := by
  induction along with
  | stop p => exact List.forall_mem_singleton.mpr start
  | step step later ih => exact List.forall_mem_cons.mpr ⟨start, ih (step.lt_length valid)⟩

/-- With distinct labels, a position is that of the statement that stands there and of no other. -/
theorem position?_label_iff (distinct : b.labels.Nodup) (here : b.statements[p]? = some s)
    (t : Statement) (member : t ∈ b.statements) : b.position? t.label = some p ↔ t = s := by
  have label : b.labels[p]? = some s.label := by rw [labels, List.getElem?_map, here]; rfl
  rw [position?_eq_some_iff distinct, label, Option.some.injEq]
  constructor
  · intro same
    exact List.inj_on_of_nodup_map distinct member (List.mem_of_getElem? here) same.symm
  · rintro rfl
    rfl

theorem exists_handler_of_trapFault?_eq_none (sound : b.trapFault? t = none) :
    ∃ first stop q target, b.position? t.first = some first ∧ b.position? t.stop = some stop ∧
      first < stop ∧ b.position? t.handler = some q ∧
      b.statements[q]? = some ⟨t.handler, .identity target .caughtException⟩ := by
  obtain ⟨first, stop, handler, firstHere, stopHere, handlerHere, ordered, catching⟩ :=
    trapFault?_eq_none_iff.mp sound
  have named : handler.label = t.handler := by simpa using List.find?_some handlerHere
  rw [get?_eq_bind_position?] at handlerHere
  obtain ⟨q, place, there⟩ := Option.bind_eq_some_iff.mp handlerHere
  obtain ⟨target, code⟩ := Instruction.catchesException_iff.mp catching
  refine ⟨first, stop, q, target, firstHere, stopHere, ordered, place, ?_⟩
  rw [there, ← named, ← code]

/-- A body that goes through a loop by way of the handler of its trap. -/
def retrying : Body where
  statements :=
    [⟨⟨0⟩, .plain "r0.read()"⟩,
      ⟨⟨1⟩, .ret none⟩,
      ⟨⟨2⟩, .identity "e0" .caughtException⟩,
      ⟨⟨3⟩, .goto ⟨0⟩⟩]
  traps := [⟨"java.io.IOException", ⟨0⟩, ⟨1⟩, ⟨2⟩⟩]

/-- **Executions of a valid body stay inside it.** -/
theorem confined_of_valid (built : b.Built) (valid : b.fault? = none)
    (raises : Statement → Prop) : b.Confined raises := by
  have distinct := built.labelled.distinct
  obtain ⟨occupied, -, -, traps, -⟩ := fault?_eq_none_iff.mp valid
  constructor
  case within =>
    intro path along p reached
    have inside := along.lt_length valid (List.length_pos_iff.mpr occupied) p reached
    have here := List.getElem?_eq_getElem inside
    exact ⟨_, here, position?_label_iff distinct here⟩
  case falls =>
    intro p s here falls
    exact ⟨_, List.getElem?_eq_getElem (lt_length_of_valid valid here falls)⟩
  case jumps =>
    intro s member l jump
    exact exists_position ((resolved_of_valid valid).of_jump member jump)
  case catches =>
    intro t member
    exact exists_handler_of_trapFault?_eq_none (traps t member)

theorem confined_of_valid_retrying :
    retrying.PathFrom (fun _ => True) 0 [0, 2, 3, 0, 1] ∧ retrying.Confined fun _ => True := by
  constructor
  · refine .step (.raise rfl trivial (List.mem_singleton_self _) ⟨0, 1, ?_⟩ rfl)
      (.step (.next rfl rfl) (.step (.jump rfl rfl rfl) (.step (.next rfl rfl) (.stop 1))))
    decide
  · exact confined_of_valid
      (.ofParts (show ofParts retrying.statements retrying.traps = .ok retrying from rfl))
      (by decide) _

end Tracepoint.Body
