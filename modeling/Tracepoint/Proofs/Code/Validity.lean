import Tracepoint.Code.Validity
import Tracepoint.Proofs.Code.Labels

/-!
# What a valid body keeps

The rules of bodies as names of their own (`BodyFault.rule`), the references of a body, and
what follows when no rule is broken: every reference names a statement
(`resolved_of_valid`), and a statement that control runs through has a successor
(`lt_length_of_valid`).
-/

namespace Tracepoint

/-- The rules of bodies, by what breaking them is called. -/
inductive BodyRule where
  | empty
  | missingStatement
  | labelsExhausted
  | identityNotLeading
  | danglingBranch
  | danglingTrap
  | invertedTrap
  | handlerWithoutCatch
  | argumentCount
  | argumentType
  | fallsOffEnd
  deriving DecidableEq, Repr

/-- The rule that a fault breaks. -/
def BodyFault.rule : BodyFault → BodyRule
  | empty => .empty
  | missingStatement _ => .missingStatement
  | labelsExhausted => .labelsExhausted
  | identityNotLeading _ _ => .identityNotLeading
  | danglingBranch _ _ => .danglingBranch
  | danglingTrap _ _ => .danglingTrap
  | invertedTrap _ => .invertedTrap
  | handlerWithoutCatch _ => .handlerWithoutCatch
  | argumentCount _ _ _ _ => .argumentCount
  | argumentType _ _ _ _ _ => .argumentType
  | fallsOffEnd _ => .fallsOffEnd

theorem Instruction.catchesException_iff {code : Instruction} : code.catchesException = true ↔
    ∃ target, code = .identity target .caughtException := by
  cases code with
  | identity target source => cases source <;> simp [catchesException]
  | _ => simp [catchesException]

namespace Trap

/-- The labels that a trap refers to. -/
def references (t : Trap) : List Label :=
  [t.first, t.stop, t.handler]

end Trap

namespace Body

/-- The labels that the jumps and traps of a body refer to. -/
def references (b : Body) : List Label :=
  b.statements.filterMap (·.code.branchTarget?) ++ b.traps.flatMap Trap.references

/-- Whether every reference names a statement. -/
def Resolved (b : Body) : Prop :=
  ∀ l ∈ b.references, l ∈ b.labels

instance (b : Body) : Decidable b.Resolved :=
  inferInstanceAs (Decidable (∀ l ∈ b.references, l ∈ b.labels))

variable {b : Body} {s : Statement} {statements : List Statement} {p : Nat} {t : Trap} {l : Label}

theorem mem_references_of_jump (member : s ∈ b.statements)
    (jump : s.code.branchTarget? = some l) : l ∈ b.references :=
  List.mem_append_left _ (List.mem_filterMap.mpr ⟨s, member, jump⟩)

theorem mem_references_of_trap (member : t ∈ b.traps) (named : l ∈ t.references) :
    l ∈ b.references :=
  List.mem_append_right _ (List.mem_flatMap.mpr ⟨t, member, named⟩)

theorem mem_references_iff : l ∈ b.references ↔
    (∃ s ∈ b.statements, s.code.branchTarget? = some l) ∨ ∃ t ∈ b.traps, l ∈ t.references := by
  simp [references]

theorem Resolved.of_trap (resolved : b.Resolved) (member : t ∈ b.traps)
    (named : l ∈ t.references) : l ∈ b.labels :=
  resolved l (mem_references_of_trap member named)

theorem Resolved.of_jump (resolved : b.Resolved) (member : s ∈ b.statements)
    (jump : s.code.branchTarget? = some l) : l ∈ b.labels :=
  resolved l (mem_references_of_jump member jump)

/-- No rule is broken when none of the parts of the judgement finds a fault. -/
theorem fault?_eq_none_iff : b.fault? = none ↔
    b.statements ≠ [] ∧ identityFault? false 0 b.statements = none ∧
      b.statementsFault? 0 b.statements = none ∧ (∀ t ∈ b.traps, b.trapFault? t = none) ∧
      endFault? b.statements = none := by
  unfold fault?
  split
  · simp_all
  · simp_all [Option.or_eq_none_iff, List.findSome?_eq_none_iff]

theorem statementsFault?_eq_none_iff : b.statementsFault? p statements = none ↔
    ∀ k s, statements[k]? = some s → b.statementFault? (p + k) s = none := by
  induction statements generalizing p with
  | nil => simp [statementsFault?]
  | cons s rest ih =>
    rw [statementsFault?, Option.or_eq_none_iff, ih]
    constructor
    · rintro ⟨head, tail⟩ k t here
      cases k with
      | zero =>
        cases here
        exact head
      | succ k =>
        rw [← Nat.add_assoc, Nat.add_right_comm]
        exact tail k t here
    · intro all
      refine ⟨all 0 s rfl, ?_⟩
      intro k t here
      rw [Nat.add_right_comm, Nat.add_assoc]
      exact all (k + 1) t here

theorem branchFault?_eq_none_iff {code : Instruction} : b.branchFault? p code = none ↔
    ∀ l, code.branchTarget? = some l → l ∈ b.labels := by
  unfold branchFault?
  split
  · rename_i straight
    simp [straight]
  · rename_i target jump
    simp [jump, position?_isSome_iff]

theorem get?_eq_bind_position? (b : Body) (l : Label) :
    b.get? l = (b.position? l).bind (b.statements[·]?) :=
  List.find?_eq_bind_findIdx?_getElem?

/-- A trap is at no fault when its references name statements, its range is in order and not
empty, and its handler catches the exception. -/
theorem trapFault?_eq_none_iff : b.trapFault? t = none ↔
    ∃ first stop handler, b.position? t.first = some first ∧ b.position? t.stop = some stop ∧
      b.get? t.handler = some handler ∧ first < stop ∧
      handler.code.catchesException = true := by
  rw [trapFault?]
  cases b.position? t.first with
  | none => simp
  | some first =>
    cases b.position? t.stop with
    | none => simp
    | some stop =>
      cases b.get? t.handler with
      | none => simp
      | some handler =>
        by_cases ordered : first < stop
        · dsimp only
          rw [if_neg (Nat.not_le.mpr ordered)]
          cases catching : handler.code.catchesException <;> simp [ordered, catching]
        · simp [Nat.not_lt.mp ordered, ordered]

/-- A trap without a fault refers to statements of the body. -/
theorem mem_labels_of_trapFault?_eq_none (sound : b.trapFault? t = none)
    (named : l ∈ t.references) : l ∈ b.labels := by
  obtain ⟨first, stop, handler, firstHere, stopHere, handlerHere, -, -⟩ :=
    trapFault?_eq_none_iff.mp sound
  have found := List.mem_of_find?_eq_some handlerHere
  have called := List.find?_some handlerHere
  simp only [Trap.references, List.mem_cons, List.not_mem_nil, or_false] at named
  rcases named with rfl | rfl | rfl
  · exact position?_isSome_iff.mp (firstHere ▸ rfl)
  · exact position?_isSome_iff.mp (stopHere ▸ rfl)
  · exact List.mem_map.mpr ⟨handler, found, by simpa using called⟩

/-- Every reference of a valid body names a statement. -/
theorem resolved_of_valid (valid : b.fault? = none) : b.Resolved := by
  obtain ⟨-, -, statements, traps, -⟩ := fault?_eq_none_iff.mp valid
  intro l member
  rcases mem_references_iff.mp member with ⟨s, here, jump⟩ | ⟨t, here, named⟩
  · obtain ⟨k, place⟩ := List.mem_iff_getElem?.mp here
    have sound := statementsFault?_eq_none_iff.mp statements k s place
    rw [statementFault?, Option.or_eq_none_iff] at sound
    exact branchFault?_eq_none_iff.mp sound.1 l jump
  · exact mem_labels_of_trapFault?_eq_none (traps t here) named

/-- A statement of a valid body that control runs through has a successor. -/
theorem lt_length_of_valid (valid : b.fault? = none) (here : b.statements[p]? = some s)
    (falls : s.code.fallsThrough = true) : p + 1 < b.statements.length := by
  obtain ⟨-, -, -, -, closed⟩ := fault?_eq_none_iff.mp valid
  obtain ⟨inside, -⟩ := List.getElem?_eq_some_iff.mp here
  apply Nat.lt_of_le_of_ne inside
  intro last
  have final : b.statements.getLast? = some s := by
    rw [List.getLast?_eq_getElem?, ← last]
    exact here
  rw [endFault?, final] at closed
  simp [falls] at closed

end Body

end Tracepoint
