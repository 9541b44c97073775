import Tracepoint.Proofs.Code.Addressing

/-!
# Running out of labels

The labels of a body run out at one point exactly: when the greatest label is in use, however
many smaller ones are free. From then on no run of edits gives another label
(`Labelled.spent_editedBy`), and an edit that gives none leaves nothing behind that can be seen
(`Labelled.resumes_of_insertBefore`). Up to that point the numbers of labels are counted without
a sum that leaves the range (`Body.CountsExactly`).
-/

namespace Tracepoint

namespace Body

/-- The sums by which labels are handed out are those of the numbers: none is cut off. -/
structure CountsExactly (b : Body) : Prop where
  after : ∀ l ∈ b.labels, (after l).toNat = l.index.toNat + 1
  upcoming : b.upcoming.toNat = labelBound b.statements
  counter : ∀ b' l, b.fresh = (b', some l) →
    l.index.toNat = b.upcoming.toNat ∧ b'.nextLabel.toNat = b.upcoming.toNat + 1

/-- No label is left for another statement. -/
structure Spent (b : Body) : Prop where
  push : ∀ code, (b.push code).2 = none
  insertBefore : ∀ code point, (b.insertBefore code point).2 = none

variable {b b' : Body} {point : Label} {code : Instruction}

theorem Labelled.countsExactly (h : b.Labelled) : b.CountsExactly where
  after l used := toNat_after (h.inRange l used)
  upcoming := h.toNat_upcoming
  counter b' l given := by
    by_cases room : labelBound b.statements < Label.limit.toNat
    · rw [h.fresh_of_lt room] at given
      cases given
      rw [toNat_freshLabel room, h.toNat_upcoming]
      rw [Label.toNat_limit] at room
      exact ⟨rfl, UInt32.toNat_ofNat_of_lt' (by rw [UInt32.size]; omega)⟩
    · rw [h.fresh_of_le (Nat.le_of_not_lt room)] at given
      cases given

/-! ### When an edit gives no label -/

theorem Labelled.push_eq_none_iff (h : b.Labelled) :
    (b.push code).2 = none ↔ Label.last ∈ b.labels := by
  constructor
  · intro none
    refine Decidable.by_contra fun free => ?_
    obtain ⟨l, b', given, -⟩ := h.exists_pushed free code
    rw [given] at none
    cases none
  · intro full
    rw [h.push_of_full full]

theorem Labelled.insertBefore_eq_none_iff (h : b.Labelled) :
    (b.insertBefore code point).2 = none ↔ point ∉ b.labels ∨ Label.last ∈ b.labels := by
  constructor
  · intro none
    refine Decidable.or_iff_not_imp_left.mpr fun used => Decidable.by_contra fun free => ?_
    obtain ⟨l, b', given, -⟩ := h.exists_inserted free code (Decidable.not_not.mp used)
    rw [given] at none
    cases none
  · rintro (unused | full)
    · rw [insertBefore_of_not_mem unused]
    · by_cases used : point ∈ b.labels
      · rw [h.insertBefore_of_full used (h.full_iff.mpr full)]
      · rw [insertBefore_of_not_mem used]

/-! ### What an edit without a label leaves -/

theorem Alike.resumes (alike : b'.Alike b) : b'.Resumes b :=
  ⟨alike.statements, alike.traps, alike.trace⟩

/-- An insertion that fails works out the counter at most, which no edit can see. -/
theorem Labelled.resumes_of_insertBefore (h : b.Labelled)
    (failed : b.insertBefore code point = (b', none)) : b'.Resumes b := by
  have none : (b.insertBefore code point).2 = none := by rw [failed]
  by_cases used : point ∈ b.labels
  · have full := (h.insertBefore_eq_none_iff.mp none).resolve_left (fun unused => unused used)
    rw [h.insertBefore_of_full used (h.full_iff.mpr full)] at failed
    cases failed
    exact (h.countUp.alike h rfl rfl).resumes
  · rw [insertBefore_of_not_mem used] at failed
    cases failed
    exact (Alike.refl b).resumes

theorem Labelled.apply (h : b.Labelled) (e : Edit) : (e.apply b).1.Labelled := by
  cases e with
  | push code => exact h.push code
  | insertBefore code point => exact h.insertBefore code point
  | addTrap trap => exact ⟨h.distinct, h.inRange, h.counter⟩

/-- With the last label in use, an edit changes no statement. -/
theorem Labelled.statements_apply (h : b.Labelled) (full : Label.last ∈ b.labels) (e : Edit) :
    (e.apply b).1.statements = b.statements := by
  cases e with
  | push code => rw [Edit.apply, h.push_of_full full]
  | insertBefore code point =>
    by_cases used : point ∈ b.labels
    · rw [Edit.apply, h.insertBefore_of_full used (h.full_iff.mpr full)]
    · rw [Edit.apply, insertBefore_of_not_mem used]
  | addTrap trap => rfl

/-- **The labels stay spent**: with the last one in use, no run of edits changes a statement, and
none is followed by an edit that gives a label. -/
theorem Labelled.spent_editedBy (h : b.Labelled) (full : Label.last ∈ b.labels)
    (edits : List Edit) :
    (b.editedBy edits).statements = b.statements ∧ (b.editedBy edits).Spent := by
  induction edits generalizing b with
  | nil =>
    exact ⟨rfl, fun _ => h.push_eq_none_iff.mpr full,
      fun _ _ => h.insertBefore_eq_none_iff.mpr (.inr full)⟩
  | cons e edits ih =>
    have same := h.statements_apply full e
    have full' : Label.last ∈ (e.apply b).1.labels := by
      rw [labels, same]
      exact full
    obtain ⟨statements, spent⟩ := ih (h.apply e) full'
    exact ⟨statements.trans same, spent⟩

/-- **The labels run out exactly when the last one is in use**, and leave no trace when they do. -/
theorem Built.exhaustion (built : b.Built) :
    b.CountsExactly ∧
    (∀ code, (b.push code).2 = none ↔ Label.last ∈ b.labels) ∧
    (∀ code point,
      (b.insertBefore code point).2 = none ↔ point ∉ b.labels ∨ Label.last ∈ b.labels) ∧
    (∀ code point b', b.insertBefore code point = (b', none) → b'.Resumes b) ∧
    (Label.last ∈ b.labels → ∀ edits,
      (b.editedBy edits).statements = b.statements ∧ (b.editedBy edits).Spent) := by
  have labelled := built.labelled
  exact ⟨labelled.countsExactly, fun _ => labelled.push_eq_none_iff,
    fun _ _ => labelled.insertBefore_eq_none_iff,
    fun _ _ _ => labelled.resumes_of_insertBefore, labelled.spent_editedBy⟩

/-- A body with two statements, of which one has the last label. -/
def ending : Body where
  statements := [⟨⟨0⟩, .plain "call()"⟩, ⟨⟨0xfffffffe⟩, .ret none⟩]
  traps := []

theorem Built.exhaustion_ending : ending.Built ∧ ending.CountsExactly ∧
    (ending.push (.ret none)).2 = none ∧ (ending.insertBefore (.ret none) ⟨0⟩).2 = none ∧
    (ending.insertBefore (.ret none) ⟨0⟩).1.Resumes ending ∧
    (ending.editedBy [.insertBefore (.ret none) ⟨0⟩, .addTrap ⟨"E", ⟨0⟩, ⟨1⟩, ⟨2⟩⟩]).Spent := by
  have built : ending.Built :=
    .ofParts (show Body.ofParts ending.statements ending.traps = .ok ending from rfl)
  have full : Label.last ∈ ending.labels := by decide
  obtain ⟨counts, pushes, inserts, failing, spent⟩ := built.exhaustion
  have none := (inserts (.ret none) ⟨0⟩).mpr (.inr full)
  exact ⟨built, counts, (pushes _).mpr full, none, failing _ _ _ (Prod.ext rfl none),
    (spent full _).2⟩

end Body

end Tracepoint
