import Mathlib.Data.List.Forall2
import Tracepoint.Proofs.Code.Addressing
import Tracepoint.Proofs.Probe.Injection

/-!
# What an injection does to each unit

An injection changes bodies alone, and those only by insertions of calls of its hook
(`Injector.Probes`), also when a fault ends it. Without a fault it has gone through every unit
(`Injector.Treats`).
-/

namespace Tracepoint

/-! ### Sweeps, place by place -/

section Sweep

variable {α : Type} {f : α → Progress → α × Progress × Option Fault} {xs ys : List α}
  {p q : Progress}

/-- What holds of every step of a sweep, with or without a fault, holds place by place: what the
sweep does not come to stays as it is. -/
theorem forall₂_sweep {R : α → α → Prop} (stays : ∀ x, R x x) (step : ∀ x p, R x (f x p).1)
    (xs : List α) (p : Progress) : List.Forall₂ R xs (sweep f xs p).1 := by
  induction xs generalizing p with
  | nil => exact .nil
  | cons x rest ih =>
    have here := step x p
    rcases made : f x p with ⟨y, p', _ | e⟩ <;> rw [made] at here <;> simp only [sweep, made]
    · exact .cons here (ih p')
    · exact .cons here (List.forall₂_same.mpr fun x _ => stays x)

theorem Sweeps.forall₂ (h : Sweeps f xs p ys q) :
    List.Forall₂ (fun x y => ∃ p q, f x p = (y, q, none)) xs ys := by
  induction h with
  | nil => exact .nil
  | cons step later ih => exact .cons ⟨_, _, step⟩ ih

end Sweep

namespace Injector

/-- The insertion of the call for an identifier in front of the statement under a label. -/
def probe (i : Injector) (e : ProbeId × Label) : Edit :=
  .insertBefore (i.hook.call e.1) e.2

/-- A method is another one with insertions of probes into its body. -/
def ProbesMethod (i : Injector) (m m' : Method) : Prop :=
  ∃ probes : List (ProbeId × Label),
    m' = { m with body := m.body.map fun b => b.editedBy (probes.map i.probe) }

/-- A unit is another one with insertions of probes into its bodies. -/
def Probes (i : Injector) (u v : CodeUnit) : Prop :=
  ∃ methods, List.Forall₂ i.ProbesMethod u.methods methods ∧ v = { u with methods }

/-- What an injection into a registry makes of one of its units. -/
structure Treats (i : Injector) (r : Registry) (a : Allocator) (u v : CodeUnit) : Prop where
  probes : i.Probes u v
  /-- Without a fault, the injection has gone through the unit. -/
  whole : ∀ x, (i.inject r a).result = .ok x → ∃ p q, i.probeUnit u p = (v, q, none)

theorem ProbesMethod.refl (i : Injector) (m : Method) : i.ProbesMethod m m :=
  ⟨[], by simp [Body.editedBy]⟩

theorem Probes.refl (i : Injector) (u : CodeUnit) : i.Probes u u :=
  ⟨u.methods, List.forall₂_same.mpr fun m _ => .refl i m, rfl⟩

theorem exists_probes_probeStatements (i : Injector) (unit signature : String)
    (turn : List Statement) (b : Body) (p : Progress) :
    ∃ probes : List (ProbeId × Label),
      (i.probeStatements unit signature turn b p).1 = b.editedBy (probes.map i.probe) := by
  induction turn generalizing b p with
  | nil => exact ⟨[], rfl⟩
  | cons s rest ih =>
    rw [probeStatements]
    split
    · let probe : ProbeId × Label := (p.allocator.next.1, s.label)
      rcases inserted : b.insertBefore (i.hook.call p.allocator.next.1) s.label with ⟨b', _ | l⟩
      · refine ⟨[probe], ?_⟩
        simp [inserted, Body.editedBy, Injector.probe, probe, Edit.apply]
      · let drawn : Progress := { p with allocator := p.allocator.next.2 }
        obtain ⟨probes, made⟩ := ih b' (drawn.record
          ⟨p.allocator.next.1, i.format.describe s signature, signature⟩)
        refine ⟨probe :: probes, ?_⟩
        simp only [drawn] at made
        simp only [inserted, made]
        simp [inserted, Body.editedBy, Injector.probe, probe, Edit.apply]
    · exact ih b _

theorem exists_probes_probeBody (i : Injector) (unit signature : String) (b : Body)
    (p : Progress) : ∃ probes : List (ProbeId × Label),
      (i.probeBody unit signature b p).1 = b.editedBy (probes.map i.probe) := by
  obtain ⟨probes, made⟩ := i.exists_probes_probeStatements unit signature b.statements b p
  refine ⟨probes, ?_⟩
  rw [← made, probeBody]
  rcases i.probeStatements unit signature b.statements b p with ⟨b', q, _ | e⟩
  · dsimp only
    split <;> rfl
  · rfl

theorem probesMethod_probeMethod (i : Injector) (unit : String) (m : Method) (p : Progress) :
    i.ProbesMethod m (i.probeMethod unit m p).1 := by
  rw [probeMethod]
  split
  · exact .refl i m
  · rename_i b body
    split
    · obtain ⟨probes, made⟩ := i.exists_probes_probeBody unit (m.signature unit) b p
      exact ⟨probes, by simp [body, made]⟩
    · exact .refl i m

theorem probes_probeUnit (i : Injector) (u : CodeUnit) (p : Progress) :
    i.Probes u (i.probeUnit u p).1 := by
  rw [probeUnit]
  split
  · exact .refl i u
  · rw [probeMethods_eq_sweep]
    exact ⟨_, forall₂_sweep (.refl i) (i.probesMethod_probeMethod u.name) u.methods p, rfl⟩

/-- **An injection treats each unit in its place**, whatever comes of it. -/
theorem forall₂_inject (i : Injector) (r : Registry) (a : Allocator) :
    List.Forall₂ (i.Treats r a) r.units (i.inject r a).registry.units := by
  cases result : (i.inject r a).result with
  | error e =>
    have probes : List.Forall₂ i.Probes r.units (i.inject r a).registry.units := by
      rw [inject, probeUnits_eq_sweep]
      exact forall₂_sweep (.refl i) i.probes_probeUnit r.units (.start a)
    exact probes.imp fun u v probes => ⟨probes, by simp [result]⟩
  | ok x =>
    obtain ⟨units, q, sweeps, left⟩ := sweeps_of_inject result
    rw [left]
    refine sweeps.forall₂.imp fun u v swept => ?_
    obtain ⟨p, q, step⟩ := swept
    have probes := i.probes_probeUnit u p
    rw [step] at probes
    exact ⟨probes, fun _ _ => ⟨p, q, step⟩⟩

end Injector

end Tracepoint
