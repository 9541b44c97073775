import Tracepoint.Proofs.Probe.Anonymity
import Tracepoint.Proofs.Probe.Report

/-!
# When an injection succeeds

Whether a body can get its probes is a matter of the body and of the hook alone
(`Body.TakesProbes`): there have to be labels for all probes, and the body has to be valid with
them. An injection meets no fault exactly when every body that it goes through can get its
probes (`exists_inject_eq_ok_iff`), whatever it has done before it comes to one.
-/

namespace Tracepoint

/-- Whether a body can get its probes. It does not matter which identifiers they have. -/
def Body.TakesProbes (h : Hook) (b : Body) : Prop :=
  b.HasRoom ∧ (b.woven h (.counter 0)).fault? = none

/-- A sweep meets no fault when none of its steps does, if what the steps do about faults does not
depend on the progress. -/
theorem sweep_eq_none_iff {α : Type} {f : α → Progress → α × Progress × Option Fault}
    {fine : α → Prop} {xs : List α} (steps : ∀ x ∈ xs, ∀ p, (f x p).2.2 = none ↔ fine x)
    (p : Progress) : (sweep f xs p).2.2 = none ↔ ∀ x ∈ xs, fine x := by
  induction xs generalizing p with
  | nil => simp [sweep]
  | cons x rest ih =>
    have first := steps x List.mem_cons_self p
    have later := ih fun y member => steps y (List.mem_cons_of_mem _ member)
    rw [List.forall_mem_cons, ← first, sweep]
    rcases step : f x p with ⟨y, p', _ | e⟩
    · simpa using later p'
    · simp

namespace Injector

variable {i : Injector} {unit signature : String}

theorem probeBody_eq_none_iff (free : i.policy.unitDecision? unit = none)
    (inside : i.policy.inScope signature = true) {b : Body} (labelled : b.Labelled)
    (p : Progress) :
    (i.probeBody unit signature b p).2.2 = none ↔ b.TakesProbes i.hook := by
  constructor
  · intro fine
    rcases step : i.probeBody unit signature b p with ⟨b', q, fault⟩
    rw [step] at fine
    cases fine
    obtain ⟨room, rfl, valid, -⟩ := probeBody_eq_none free inside labelled step
    exact ⟨room, (Body.fault?_woven_iff room _ _).mp valid⟩
  · rintro ⟨room, valid⟩
    have valid' := (Body.fault?_woven_iff room p.allocator (.counter 0)).mpr valid
    rw [probeBody, probeStatements_woven free inside labelled room]
    simp only [valid']

theorem probeMethod_eq_none_iff (free : i.policy.unitDecision? unit = none) {m : Method}
    (built : ∀ b, m.body = some b → b.Built) (p : Progress) :
    (i.probeMethod unit m p).2.2 = none ↔
      ∀ b ∈ i.policy.bodyInScope? unit m, b.TakesProbes i.hook := by
  rw [probeMethod, Policy.bodyInScope?]
  cases body : m.body with
  | none => simp
  | some b =>
    cases inside : i.policy.inScope (m.signature unit) with
    | false => simp
    | true => simpa using probeBody_eq_none_iff free inside (built b body).labelled p

theorem probeUnit_eq_none_iff {u : CodeUnit}
    (built : ∀ m ∈ u.methods, ∀ b, m.body = some b → b.Built) (p : Progress) :
    (i.probeUnit u p).2.2 = none ↔ ∀ b ∈ i.policy.unitBodies u, b.TakesProbes i.hook := by
  rw [probeUnit, Policy.unitBodies]
  cases free : i.policy.unitDecision? u.name with
  | some d => simp
  | none =>
    have methods := sweep_eq_none_iff (f := i.probeMethod u.name)
      (fun m member p => probeMethod_eq_none_iff free (built m member) p) p
    rw [← probeMethods_eq_sweep] at methods
    simp only [methods, Option.isSome_none, Bool.false_eq_true, if_false, List.mem_filterMap,
      forall_exists_index, and_imp]
    exact ⟨fun all b m member here => all m member b here,
      fun all m member b here => all b m member here⟩

/-- **An injection meets no fault exactly when all bodies that it goes through take their probes.** -/
theorem exists_inject_eq_ok_iff {r : Registry} (built : r.Built) (a : Allocator) :
    (∃ x, (i.inject r a).result = .ok x) ↔
      ∀ u ∈ r.units, ∀ b ∈ i.policy.unitBodies u, b.TakesProbes i.hook := by
  have units := sweep_eq_none_iff (f := i.probeUnit)
    (fun u member p => probeUnit_eq_none_iff (built u member) p) (.start a)
  rw [← units, inject, probeUnits_eq_sweep]
  rcases sweep i.probeUnit r.units (.start a) with ⟨units, q, _ | e⟩ <;> simp

end Injector

end Tracepoint
