import Tracepoint.Proofs.Probe.Records

/-!
# What an injection answers for

Every fault of an injection is charged to the stage that injects, and an injection without one
has judged what it changed: a body that it leaves is the one that it found, or is valid
(`Registry.Rewrites`).
-/

namespace Tracepoint

/-! ### Faults -/

/-- The fault of a sweep is the fault of one of its steps. -/
theorem exists_fault_of_sweep {α : Type} {f : α → Progress → α × Progress × Option Fault}
    {xs ys : List α} {p q : Progress} {e : Fault} (failed : sweep f xs p = (ys, q, some e)) :
    ∃ x p y q, f x p = (y, q, some e) := by
  obtain ⟨_, x, _, _, y, p', -, -, -, step⟩ := exists_split_of_sweep failed
  exact ⟨x, p', y, q, step⟩

namespace Injector

variable {i : Injector} {unit signature : String} {p q : Progress} {e : Fault}

theorem stage?_probeStatements {turn : List Statement} {b b' : Body}
    (failed : i.probeStatements unit signature turn b p = (b', q, some e)) :
    e.stage? = some .injecting := by
  induction turn generalizing b p with
  | nil => cases failed
  | cons s rest ih =>
    rw [probeStatements] at failed
    split at failed
    · dsimp only at failed
      split at failed
      · exact ih failed
      · cases failed
        rfl
    · exact ih failed

theorem stage?_probeBody {b b' : Body} (failed : i.probeBody unit signature b p = (b', q, some e)) :
    e.stage? = some .injecting := by
  rw [probeBody] at failed
  split at failed
  · rename_i done
    cases failed
    exact stage?_probeStatements done
  · split at failed <;> cases failed
    rfl

theorem stage?_probeMethod {m m' : Method} (failed : i.probeMethod unit m p = (m', q, some e)) :
    e.stage? = some .injecting := by
  rw [probeMethod] at failed
  split at failed
  · cases failed
  · rename_i b body
    split at failed
    · rcases step : i.probeBody unit (m.signature unit) b p with ⟨b', q', fault⟩
      simp only [step, Prod.mk.injEq] at failed
      obtain ⟨-, -, rfl⟩ := failed
      exact stage?_probeBody step
    · cases failed

theorem stage?_probeUnit {u u' : CodeUnit} (failed : i.probeUnit u p = (u', q, some e)) :
    e.stage? = some .injecting := by
  rw [probeUnit] at failed
  split at failed
  · cases failed
  · rw [probeMethods_eq_sweep] at failed
    rcases swept : sweep (i.probeMethod u.name) u.methods p with ⟨methods, q', fault⟩
    simp only [swept, Prod.mk.injEq] at failed
    obtain ⟨-, -, rfl⟩ := failed
    obtain ⟨m, _, _, _, step⟩ := exists_fault_of_sweep swept
    exact stage?_probeMethod step

/-- A fault of an injection is charged to the stage that injects. -/
theorem stage?_inject {r : Registry} {a : Allocator}
    (failed : (i.inject r a).result = .error e) : e.stage? = some .injecting := by
  rw [inject, probeUnits_eq_sweep] at failed
  rcases swept : sweep i.probeUnit r.units (.start a) with ⟨units, q, _ | e'⟩
  · simp [swept] at failed
  · simp only [swept, Except.error.injEq] at failed
    subst failed
    obtain ⟨u, _, _, _, step⟩ := exists_fault_of_sweep swept
    exact stage?_probeUnit step

end Injector

/-! ### Bodies -/

/-- The units of a registry differ from those of another one in bodies alone, and those that differ
are valid. -/
structure Registry.Rewrites (old new : Registry) : Prop where
  outline : new.units.map CodeUnit.outline = old.units.map CodeUnit.outline
  bodies : ∀ place b, old.bodyAt? place = some b →
    ∃ b', new.bodyAt? place = some b' ∧ (b' = b ∨ b'.fault? = none)

namespace Injector

variable {i : Injector} {unit : String} {p q : Progress}

theorem MethodStep.body {m m' : Method} {b : Body} (step : i.MethodStep unit m p m' q)
    (body : m.body = some b) : ∃ b', m'.body = some b' ∧ (b' = b ∨ b'.fault? = none) := by
  cases step with
  | bodiless | outside => exact ⟨b, body, .inl rfl⟩
  | @through _ b' _ _ _ step =>
    refine ⟨b', rfl, .inr ?_⟩
    rw [probeBody] at step
    split at step
    · cases step
    · split at step <;> cases step
      assumption

/-- What an injection without a fault changes are bodies, which are valid then. -/
theorem rewrites_inject {r : Registry} {a : Allocator} {x : List ProbeRecord × InjectionReport}
    (done : (i.inject r a).result = .ok x) : r.Rewrites (i.inject r a).registry := by
  constructor
  · obtain ⟨units, q, sweeps, left⟩ := sweeps_of_inject done
    rw [left]
    exact sweeps.map_eq fun u p u' q => outline_probeUnit
  · intro place b here
    obtain ⟨u, unitHere, rest⟩ := Option.bind_eq_some_iff.mp here
    obtain ⟨m, methodHere, body⟩ := Option.bind_eq_some_iff.mp rest
    cases free : i.policy.unitDecision? u.name with
    | some d =>
      rw [bodyAt?_of_unitDecision? done unitHere methodHere free]
      exact ⟨b, body, .inl rfl⟩
    | none =>
      obtain ⟨p, m', q, step, left⟩ := exists_methodStep done unitHere methodHere free
      rw [left]
      exact step.body body

end Injector

end Tracepoint
