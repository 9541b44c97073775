import Tracepoint.Proofs.Probe.Verdict

/-!
# References that name a probe

References of a body are first looked at when its probes are in. One that named no statement
is met then exactly when its label went to a probe (`mem_labels_woven_iff`), so an injection
accepts an invalid body exactly when the body refers to such a label (`inject_accepts_iff`).
-/

namespace Tracepoint

namespace Body

/-- Whether a label is one that the probes of the body get. -/
def IsProbeLabel (b : Body) (l : Label) : Prop :=
  labelBound b.statements ≤ l.index.toNat ∧
    l.index.toNat < labelBound b.statements + ordinaries b.statements

instance (b : Body) (l : Label) : Decidable (b.IsProbeLabel l) :=
  inferInstanceAs (Decidable (_ ∧ _))

variable {h : Hook} {a : Allocator} {b : Body} {l : Label}

/-- What named no statement names one of the woven form when its label went to a probe. -/
theorem mem_labels_woven_iff (room : b.HasRoom) (unused : l ∉ b.labels) :
    l ∈ (b.woven h a).labels ↔ b.IsProbeLabel l := by
  rw [mem_labels_woven room, IsProbeLabel]
  exact or_iff_right unused

/-- The labels of the probes lie above those in use. -/
theorem IsProbeLabel.not_mem (probe : b.IsProbeLabel l) : l ∉ b.labels := by
  intro used
  have below := lt_labelBound used
  exact absurd below (Nat.not_lt_of_le probe.1)

/-- Every reference of a body whose woven form is resolved names a statement or a probe. -/
theorem mem_or_isProbeLabel (room : b.HasRoom) (resolved : (b.woven h a).Resolved)
    (reference : l ∈ b.references) : l ∈ b.labels ∨ b.IsProbeLabel l := by
  by_cases used : l ∈ b.labels
  · exact .inl used
  · refine .inr ((mem_labels_woven_iff (h := h) (a := a) room used).mp (resolved l ?_))
    rw [references_woven]
    exact List.mem_map.mpr ⟨l, reference, lead_of_not_mem used⟩

/-- Without an ordinary statement a body is its own woven form. -/
theorem woven_of_no_ordinaries (nothing : ordinaries b.statements = 0) : b.woven h a = b := by
  have identities : ∀ s ∈ b.statements, s.isIdentity := by
    simpa [ordinaries, List.countP_eq_zero] using nothing
  have led : b.lead = id := by
    funext l
    apply leadFrom_of_not_mem
    intro s member ordinary
    rw [identities s member] at ordinary
    cases ordinary
  have statements : weaveFrom h b.lead (labelBound b.statements) a b.statements =
      b.statements := by
    have same : weaveFrom h b.lead (labelBound b.statements) a (b.statements ++ []) =
        b.statements ++ weaveFrom h b.lead (labelBound b.statements) a [] :=
      weaveFrom_append_of_identities identities
    rwa [List.append_nil, weaveFrom, List.append_nil] at same
  rw [woven, statements, led, nothing, if_pos rfl, Trap.retarget_id, List.map_id]

/-- The hook takes the operands of the probes when a body that has one is valid. -/
theorem accepts_of_valid (valid : (b.woven h a).fault? = none)
    (probed : 0 < ordinaries b.statements) : h.Accepts := by
  apply Classical.byContradiction
  intro refuses
  obtain ⟨before, s, rest, split, identities, ordinary⟩ := exists_first_ordinary probed
  obtain ⟨after, woven⟩ := exists_first_probe (h := h) (a := a) split identities ordinary
  have probe : (b.woven h a).statements[before.length]? =
      some ⟨b.freshLabel, h.call a.next.1⟩ := by
    simp [woven]
  obtain ⟨-, -, calls, -, -⟩ := fault?_eq_none_iff.mp valid
  have sound := statementsFault?_eq_none_iff.mp calls _ _ probe
  rw [statementFault?, Option.or_eq_none_iff] at sound
  obtain ⟨e, fault, -⟩ := exists_callFault?_call refuses (0 + before.length) a.next.1
  rw [fault] at sound
  cases sound.2

/-- A body whose references name statements is valid when its woven form is. -/
theorem Labelled.fault?_eq_none_of_woven (labelled : b.Labelled) (room : b.HasRoom)
    (resolved : b.Resolved) (valid : (b.woven h a).fault? = none) : b.fault? = none := by
  rcases Nat.eq_zero_or_pos (ordinaries b.statements) with nothing | probed
  · rwa [woven_of_no_ordinaries nothing] at valid
  · have same := labelled.rule_fault?_woven (h := h) (a := a) room resolved
      (accepts_of_valid valid probed)
    rw [valid] at same
    exact Option.map_eq_none_iff.mp same.symm

/-- A body whose only statement jumps to the label after its own. -/
def dangling : Body where
  statements := [⟨⟨0⟩, .goto ⟨1⟩⟩]
  traps := []

end Body

namespace Injector

open Body

variable {i : Injector}

/-- **What an injection without a fault says of the bodies before it.** Each reference of a body
that it went through named a statement or a label that went to a probe, and the body was valid
if and only if none named such a label. -/
theorem inject_accepts_iff {r : Registry} {a : Allocator}
    {x : List ProbeRecord × InjectionReport} (built : r.Built)
    (done : (i.inject r a).result = .ok x) {place : Nat × Nat} {b : Body}
    (reached : i.Reaches r place b) :
    (∀ l ∈ b.references, l ∈ b.labels ∨ b.IsProbeLabel l) ∧
      (b.fault? = none ↔ ∀ l ∈ b.references, ¬ b.IsProbeLabel l) := by
  obtain ⟨occurs, room, a', valid, -⟩ := reached.exists_woven built done
  have named {l : Label} : l ∈ b.references → l ∈ b.labels ∨ b.IsProbeLabel l :=
    mem_or_isProbeLabel room (resolved_of_valid valid)
  refine ⟨fun l => named, ?_⟩
  constructor
  · intro sound l reference probe
    exact probe.not_mem (resolved_of_valid sound l reference)
  · intro unmet
    have resolved : b.Resolved := by
      intro l reference
      exact (named reference).resolve_right (unmet l reference)
    exact occurs.labelled.fault?_eq_none_of_woven room resolved valid

theorem inject_accepts_iff_sample :
    (∀ l ∈ Body.sample.references, l ∈ Body.sample.labels ∨ Body.sample.IsProbeLabel l) ∧
      (Body.sample.fault? = none ↔
        ∀ l ∈ Body.sample.references, ¬ Body.sample.IsProbeLabel l) :=
  inject_accepts_iff (i := .sample) (a := .counter 0) (Registry.built_single Body.built_sample) rfl
    (reaches_single _)

/-- An injection accepts a body that jumps to no statement of its own: the label that it jumps to
goes to its first probe. -/
theorem inject_accepts_dangling :
    dangling.Built ∧ dangling.fault? = some (.danglingBranch 0 ⟨1⟩) ∧
      Injector.sample.Reaches (.single dangling) (0, 0) dangling ∧
      ∃ x, (Injector.sample.inject (.single dangling) (.counter 0)).result = .ok x := by
  refine ⟨?_, by decide, reaches_single _, _, rfl⟩
  exact .ofParts (show Body.ofParts dangling.statements dangling.traps = .ok dangling from rfl)

end Injector

end Tracepoint
