import Tracepoint.Proofs.Probe.Sweep
import Tracepoint.Proofs.Probe.Weaving

/-!
# Injection is weaving

The insertions of an injection, one after the other, each of which moves positions and leads
references, come to the woven form of every body that is gone through. The invariant of the
loop over a body: what stands before the statement in turn is done, and what follows it are
the original statements with some of their references led (`probeStatements_eq`).
-/

namespace Tracepoint

theorem Policy.decide_of_inScope {p : Policy} {unit signature : String}
    (free : p.unitDecision? unit = none) (inside : p.inScope signature = true) (s : Statement) :
    p.decide s signature unit = if s.isIdentity then .identityBinding else .admitted := by
  simp [decide, free, inside]

namespace Injector

/-- The progress over some statements of a body whose probes all go in. -/
def advance (i : Injector) (signature : String) (p : Progress) : List Statement → Progress
  | [] => p
  | s :: rest =>
    if s.isIdentity then i.advance signature (p.skip .identityBinding 1) rest
    else
      let p' := { p with allocator := p.allocator.next.2 }
      i.advance signature
        (p'.record ⟨p.allocator.next.1, i.format.describe s signature, signature⟩) rest

section Body

open Body

variable {i : Injector} {unit signature : String}

theorem advance_cons_identity {s : Statement} (identity : s.isIdentity) (p : Progress)
    (rest : List Statement) : i.advance signature p (s :: rest) =
      i.advance signature (p.skip .identityBinding 1) rest := by
  rw [advance, if_pos identity]

theorem advance_cons_ordinary {s : Statement} (ordinary : s.isIdentity = false) (p : Progress)
    (rest : List Statement) : i.advance signature p (s :: rest) =
      i.advance signature (({ p with allocator := p.allocator.next.2 } : Progress).record
        ⟨p.allocator.next.1, i.format.describe s signature, signature⟩) rest := by
  rw [advance, if_neg (by simp [ordinary])]

theorem allocator_advance (p : Progress) (statements : List Statement) :
    (i.advance signature p statements).allocator =
      p.allocator.advance (ordinaries statements) := by
  induction statements generalizing p with
  | nil => rfl
  | cons s rest ih =>
    cases kind : s.isIdentity with
    | true =>
      rw [advance_cons_identity kind, ih, ordinaries_cons_identity kind]
      rfl
    | false =>
      rw [advance_cons_ordinary kind, ih, ordinaries_cons_ordinary kind]
      rfl

/-- An identity statement is passed over. -/
theorem probeStatements_cons_identity (free : i.policy.unitDecision? unit = none)
    (inside : i.policy.inScope signature = true) {s : Statement} (identity : s.isIdentity)
    (rest : List Statement) (b : Body) (p : Progress) :
    i.probeStatements unit signature (s :: rest) b p =
      i.probeStatements unit signature rest b (p.skip .identityBinding 1) := by
  rw [probeStatements, Policy.decide_of_inScope free inside, if_pos identity]

/-- An ordinary statement gets a probe when one can be inserted. -/
theorem probeStatements_cons_ordinary (free : i.policy.unitDecision? unit = none)
    (inside : i.policy.inScope signature = true) {s : Statement} (ordinary : s.isIdentity = false)
    (rest : List Statement) {b b' : Body} {l : Label} (p : Progress)
    (inserted : b.insertBefore (i.hook.call p.allocator.next.1) s.label = (b', some l)) :
    i.probeStatements unit signature (s :: rest) b p =
      i.probeStatements unit signature rest b'
        (({ p with allocator := p.allocator.next.2 } : Progress).record
          ⟨p.allocator.next.1, i.format.describe s signature, signature⟩) := by
  rw [probeStatements, Policy.decide_of_inScope free inside, if_neg (by simp [ordinary])]
  simp only [inserted]

/-- One turn of the loop. With a label left, the probe of the statement in turn goes in: the part
that is done grows by the probe and its statement, and the references to it are led on. -/
theorem exists_turn {b : Body} (labelled : b.Labelled) {before rest : List Statement}
    {s : Statement} {f : Label → Label}
    (split : b.statements = before ++ (s :: rest).map (Statement.retarget f))
    (left : labelBound b.statements < Label.limit.toNat) (code : Instruction) :
    ∃ b', b.insertBefore code s.label = (b', some b.freshLabel) ∧ b'.Labelled ∧
      labelBound b'.statements = labelBound b.statements + 1 ∧
      b'.nextLabel = .ofNat (labelBound b.statements + 1) ∧
      b'.traps = b.traps.map (Trap.retarget (Label.moved s.label b.freshLabel)) ∧
      b'.statements = (before.map (Statement.retarget (Label.moved s.label b.freshLabel)) ++
        [⟨b.freshLabel, code⟩, s.retarget (Label.moved s.label b.freshLabel ∘ f)]) ++
          rest.map (Statement.retarget (Label.moved s.label b.freshLabel ∘ f)) := by
  obtain ⟨b', inserted, insertion⟩ := labelled.exists_insertion split left code
  rw [Statement.label_retarget] at inserted
  have perm := insertion.labels_perm split
  refine ⟨b', inserted, labelled.of_perm_cons left perm insertion.counter,
    labelBound_of_perm_cons left perm, insertion.counter, insertion.traps, ?_⟩
  simp [insertion.statements]

/-- **The loop over a body.** With labels left for all of them, the probes of the statements in
turn go in: the part before is led on, and the statements in turn are woven. -/
theorem probeStatements_eq (free : i.policy.unitDecision? unit = none)
    (inside : i.policy.inScope signature = true) (turn : List Statement) (b : Body) (p : Progress)
    (before : List Statement) (f : Label → Label) (labelled : b.Labelled)
    (split : b.statements = before ++ turn.map (Statement.retarget f))
    (room : labelBound b.statements + ordinaries turn ≤ Label.limit.toNat) :
    i.probeStatements unit signature turn b p =
      ({ statements :=
           before.map (Statement.retarget (leadFrom (labelBound b.statements) turn)) ++
             weaveFrom i.hook (leadFrom (labelBound b.statements) turn ∘ f)
               (labelBound b.statements) p.allocator turn
         traps := b.traps.map (Trap.retarget (leadFrom (labelBound b.statements) turn))
         nextLabel :=
           if ordinaries turn = 0 then b.nextLabel
           else .ofNat (labelBound b.statements + ordinaries turn) },
        i.advance signature p turn, none) := by
  induction turn generalizing b p before f with
  | nil =>
    have led : leadFrom (labelBound b.statements) [] = id := rfl
    obtain ⟨statements, traps, nextLabel⟩ := b
    simp only [List.map_nil, List.append_nil] at split
    subst split
    rw [led]
    simp [probeStatements, weaveFrom, advance, ordinaries]
  | cons s rest ih =>
    cases kind : s.isIdentity with
    | true =>
      rw [ordinaries_cons_identity kind] at room
      rw [List.map_cons, Statement.retarget_of_isIdentity kind] at split
      have moved : b.statements = (before ++ [s]) ++ rest.map (Statement.retarget f) := by
        simpa using split
      rw [probeStatements_cons_identity free inside kind,
        ih b _ (before ++ [s]) f labelled moved room, leadFrom_cons_identity kind,
        weaveFrom_cons_identity kind, ordinaries_cons_identity kind, advance_cons_identity kind]
      simp only [List.map_append, List.map_cons, List.map_nil, List.append_assoc,
        List.cons_append, List.nil_append, Statement.retarget_of_isIdentity kind]
      rfl
    | false =>
      rw [ordinaries_cons_ordinary kind] at room
      have left : labelBound b.statements < Label.limit.toNat := by omega
      obtain ⟨b', inserted, labelled', bound, next, traps, split'⟩ :=
        exists_turn labelled split left (i.hook.call p.allocator.next.1)
      have led : leadFrom (labelBound b.statements + 1) rest ∘ Label.moved s.label b.freshLabel =
          leadFrom (labelBound b.statements) (s :: rest) := by
        refine (leadFrom_cons_ordinary kind fun used => freshLabel_not_mem left ?_).symm
        rw [labels, split]
        simp only [List.map_append, List.map_cons, Statement.map_label_retarget]
        exact List.mem_append_right _ (List.mem_cons_of_mem _ used)
      have counter : (if ordinaries rest = 0 then b'.nextLabel
          else .ofNat (labelBound b'.statements + ordinaries rest)) =
          UInt32.ofNat (labelBound b.statements + (ordinaries rest + 1)) := by
        rw [next, bound]
        split
        · rename_i none
          rw [none]
        · rw [Nat.add_right_comm, Nat.add_assoc]
      rw [probeStatements_cons_ordinary free inside kind rest p inserted,
        ih b' _ _ _ labelled' split' (by omega), counter, bound, traps, ← led,
        weaveFrom_cons_ordinary kind, ordinaries_cons_ordinary kind,
        advance_cons_ordinary kind]
      simp only [List.map_append, List.map_cons, List.map_nil, List.map_map,
        Statement.retarget_comp, Statement.retarget_retarget, Trap.retarget_comp,
        List.append_assoc, List.cons_append, List.nil_append, Nat.add_eq_zero_iff,
        Nat.one_ne_zero, and_false, if_false]
      rfl

/-- Without labels left for all of them, the probes of the statements in turn use the labels up
and the loop ends there. -/
theorem probeStatements_of_full (free : i.policy.unitDecision? unit = none)
    (inside : i.policy.inScope signature = true) (turn : List Statement) (b : Body) (p : Progress)
    (before : List Statement) (f : Label → Label) (labelled : b.Labelled)
    (split : b.statements = before ++ turn.map (Statement.retarget f))
    (full : Label.limit.toNat < labelBound b.statements + ordinaries turn) :
    (i.probeStatements unit signature turn b p).2.2 =
      some (.invalidBody signature .labelsExhausted) := by
  induction turn generalizing b p before f with
  | nil =>
    have bounded := labelled.labelBound_le
    simp only [ordinaries, List.countP_nil] at full
    omega
  | cons s rest ih =>
    cases kind : s.isIdentity with
    | true =>
      rw [ordinaries_cons_identity kind] at full
      have moved : b.statements =
          (before ++ [s.retarget f]) ++ rest.map (Statement.retarget f) := by
        simpa using split
      rw [probeStatements_cons_identity free inside kind]
      exact ih b _ _ f labelled moved full
    | false =>
      rw [ordinaries_cons_ordinary kind] at full
      have used : s.label ∈ b.labels := by
        simp [labels, split]
      by_cases left : labelBound b.statements < Label.limit.toNat
      · obtain ⟨b', inserted, labelled', bound, -, -, split'⟩ :=
          exists_turn labelled split left (i.hook.call p.allocator.next.1)
        rw [probeStatements_cons_ordinary free inside kind rest p inserted]
        exact ih b' _ _ _ labelled' split' (by omega)
      · have refused := labelled.insertBefore_of_full used (Nat.le_of_not_lt left)
          (i.hook.call p.allocator.next.1)
        have found : (({ b with nextLabel := b.upcoming } : Body).get? s.label).isSome := by
          simpa [get?, labels] using used
        rw [probeStatements, Policy.decide_of_inScope free inside, if_neg (by simp [kind])]
        simp only [refused, found, if_true]

/-- With labels left for all of them, the probes of a body make it the woven form. -/
theorem probeStatements_woven (free : i.policy.unitDecision? unit = none)
    (inside : i.policy.inScope signature = true) {b : Body} (labelled : b.Labelled)
    (room : b.HasRoom) (p : Progress) :
    i.probeStatements unit signature b.statements b p =
      (b.woven i.hook p.allocator, i.advance signature p b.statements, none) := by
  have split : b.statements = [] ++ b.statements.map (Statement.retarget id) := by simp
  rw [probeStatements_eq free inside b.statements b p [] id labelled split room]
  rfl

/-- **A body that injection goes through** without a fault had labels left for all its probes,
and is left in its woven form, which is valid. -/
theorem probeBody_eq_none (free : i.policy.unitDecision? unit = none)
    (inside : i.policy.inScope signature = true) {b b' : Body} {p q : Progress}
    (labelled : b.Labelled) (done : i.probeBody unit signature b p = (b', q, none)) :
    b.HasRoom ∧ b' = b.woven i.hook p.allocator ∧ b'.fault? = none ∧
      q.allocator = p.allocator.advance (ordinaries b.statements) := by
  have room : b.HasRoom := by
    apply Nat.le_of_not_lt
    intro full
    have split : b.statements = [] ++ b.statements.map (Statement.retarget id) := by simp
    have refused := probeStatements_of_full free inside b.statements b p [] id labelled split full
    rw [probeBody] at done
    split at done
    · cases done
    · rename_i fine
      rw [fine] at refused
      cases refused
  rw [probeBody, probeStatements_woven free inside labelled room] at done
  simp only at done
  split at done
  · cases done
  · rename_i valid
    cases done
    exact ⟨room, rfl, valid, allocator_advance p b.statements⟩

end Body

end Injector

end Tracepoint
