import Tracepoint.Proofs.Probe.Rewriting

/-!
# What an injection leaves

The woven form of a registry: the bodies of methods in scope are woven one after the other,
and units that the policy leaves alone, methods out of scope and methods without a body stay
as they are. An injection that meets no fault leaves exactly that (`registry_inject`), and
every body that it went through is left woven and valid (`Reaches.exists_woven`).
-/

namespace Tracepoint

/-- Whether all bodies of a registry are ones that occur. -/
def Registry.Built (r : Registry) : Prop :=
  ∀ u ∈ r.units, ∀ m ∈ u.methods, ∀ b, m.body = some b → b.Built

/-- The body of a method, by the places of its unit and of the method in it. -/
def Registry.bodyAt? (r : Registry) (place : Nat × Nat) : Option Body :=
  (r.units[place.1]?).bind fun u => (u.methods[place.2]?).bind Method.body

namespace Injector

open Body

/-- The woven form of a method, and the allocator behind it. -/
def weaveMethod (i : Injector) (unit : String) (m : Method) (a : Allocator) :
    Method × Allocator :=
  match m.body with
  | none => (m, a)
  | some b =>
    if i.policy.inScope (m.signature unit) then
      ({ m with body := some (b.woven i.hook a) }, a.advance (ordinaries b.statements))
    else (m, a)

/-- The woven form of a unit, and the allocator behind it. -/
def weaveUnit (i : Injector) (u : CodeUnit) (a : Allocator) : CodeUnit × Allocator :=
  match i.policy.unitDecision? u.name with
  | some _ => (u, a)
  | none =>
    let (methods, a) := thread (i.weaveMethod u.name) u.methods a
    ({ u with methods }, a)

/-- The woven form of a registry. -/
def weaveRegistry (i : Injector) (r : Registry) (a : Allocator) : Registry :=
  { r with units := (thread i.weaveUnit r.units a).1 }

/-- The bodies that injection goes through, by their places in a registry: those of methods in
scope of units that the policy does not leave alone. -/
inductive Reaches (i : Injector) (r : Registry) (place : Nat × Nat) (b : Body) : Prop where
  | body {u : CodeUnit} {m : Method} (unit : r.units[place.1]? = some u)
      (method : u.methods[place.2]? = some m) (body : m.body = some b)
      (free : i.policy.unitDecision? u.name = none)
      (inside : i.policy.inScope (m.signature u.name) = true) : Reaches i r place b

variable {i : Injector}

theorem probeMethod_eq_none {unit : String} (free : i.policy.unitDecision? unit = none)
    {m m' : Method} {p q : Progress} (built : ∀ b, m.body = some b → b.Built)
    (done : i.probeMethod unit m p = (m', q, none)) :
    i.weaveMethod unit m p.allocator = (m', q.allocator) := by
  cases methodStep_of_probeMethod done with
  | bodiless body => simp only [weaveMethod, body]
  | outside body outside =>
    simp only [weaveMethod, body, outside, Bool.false_eq_true, if_false]
    rfl
  | through body inside step =>
    obtain ⟨-, rfl, -, next⟩ := probeBody_eq_none free inside (built _ body).labelled step
    simp only [weaveMethod, body, inside, if_true, next]

theorem probeUnit_eq_none {u u' : CodeUnit} {p q : Progress}
    (built : ∀ m ∈ u.methods, ∀ b, m.body = some b → b.Built)
    (done : i.probeUnit u p = (u', q, none)) :
    i.weaveUnit u p.allocator = (u', q.allocator) := by
  cases unitStep_of_probeUnit done with
  | alone decided =>
    simp only [weaveUnit, decided]
    rfl
  | through free sweeps =>
    have threaded := sweeps.thread_eq
      fun m member p m' q => probeMethod_eq_none free (built m member)
    simp only [weaveUnit, free, threaded]

/-- An injection without a fault is a sweep over the units without one, and gives the records and
the report of the progress that the sweep ends with. -/
theorem progress_of_inject {r : Registry} {a : Allocator} {x : List ProbeRecord × InjectionReport}
    (done : (i.inject r a).result = .ok x) :
    ∃ units q, Sweeps i.probeUnit r.units (.start a) units q ∧
      (i.inject r a).registry = { r with units } ∧ x = (q.records, q.report) := by
  rw [inject, probeUnits_eq_sweep] at done ⊢
  rcases swept : sweep i.probeUnit r.units (.start a) with ⟨units, q, _ | e⟩
  · simp only [swept, Except.ok.injEq] at done
    exact ⟨units, q, sweeps_of_sweep swept, rfl, done.symm⟩
  · simp [swept] at done

theorem sweeps_of_inject {r : Registry} {a : Allocator} {x : List ProbeRecord × InjectionReport}
    (done : (i.inject r a).result = .ok x) :
    ∃ units q, Sweeps i.probeUnit r.units (.start a) units q ∧
      (i.inject r a).registry = { r with units } := by
  obtain ⟨units, q, sweeps, left, -⟩ := progress_of_inject done
  exact ⟨units, q, sweeps, left⟩

section Places

variable {r : Registry} {a : Allocator} {x : List ProbeRecord × InjectionReport} {place : Nat × Nat}
  {u : CodeUnit} {m : Method}

/-- The step of an injection at a unit. -/
theorem exists_unitStep (done : (i.inject r a).result = .ok x)
    (unit : r.units[place.1]? = some u) :
    ∃ p u' q, i.UnitStep u p u' q ∧
      (i.inject r a).registry.bodyAt? place = (u'.methods[place.2]?).bind Method.body := by
  obtain ⟨units, q, sweeps, left⟩ := sweeps_of_inject done
  obtain ⟨p, u', q, step, there⟩ := sweeps.exists_step unit
  refine ⟨p, u', q, unitStep_of_probeUnit step, ?_⟩
  rw [left]
  simp [Registry.bodyAt?, there]

/-- Methods of a unit that the policy leaves alone keep their bodies. -/
theorem bodyAt?_of_unitDecision? (done : (i.inject r a).result = .ok x)
    (unit : r.units[place.1]? = some u) (method : u.methods[place.2]? = some m) {d : Decision}
    (decided : i.policy.unitDecision? u.name = some d) :
    (i.inject r a).registry.bodyAt? place = m.body := by
  obtain ⟨p, u', q, step, left⟩ := exists_unitStep done unit
  cases step with
  | alone => simp [left, method]
  | through free =>
    rw [decided] at free
    cases free

/-- The step of an injection at a method of another unit. -/
theorem exists_methodStep (done : (i.inject r a).result = .ok x)
    (unit : r.units[place.1]? = some u) (method : u.methods[place.2]? = some m)
    (free : i.policy.unitDecision? u.name = none) :
    ∃ p m' q, i.MethodStep u.name m p m' q ∧
      (i.inject r a).registry.bodyAt? place = m'.body := by
  obtain ⟨p, u', q, step, left⟩ := exists_unitStep done unit
  cases step with
  | alone decided =>
    rw [decided] at free
    cases free
  | through _ sweeps =>
    obtain ⟨p', m', q', step, there⟩ := sweeps.exists_step method
    exact ⟨p', m', q', methodStep_of_probeMethod step, by simp [left, there]⟩

/-- Every body that an injection without a fault went through had labels left for its probes,
and is left in its woven form, which is valid. -/
theorem Reaches.exists_woven {b : Body} (reached : i.Reaches r place b) (built : r.Built)
    (done : (i.inject r a).result = .ok x) :
    b.Built ∧ b.HasRoom ∧ ∃ a', (b.woven i.hook a').fault? = none ∧
      (i.inject r a).registry.bodyAt? place = some (b.woven i.hook a') := by
  obtain @⟨u, m, unit, method, body, free, inside⟩ := reached
  have occurs : b.Built :=
    built u (List.mem_of_getElem? unit) m (List.mem_of_getElem? method) b body
  obtain ⟨p, m', q, methodStep, left⟩ := exists_methodStep done unit method free
  cases methodStep with
  | bodiless none =>
    rw [none] at body
    cases body
  | outside _ outside =>
    rw [outside] at inside
    cases inside
  | through body' _ step =>
    cases body.symm.trans body'
    obtain ⟨room, rfl, valid, -⟩ := probeBody_eq_none free inside occurs.labelled step
    exact ⟨occurs, room, p.allocator, valid, left⟩

end Places

end Injector

/-! ### A sample -/

/-- A body with a loop under a trap, and the handler of the trap. -/
def Body.sample : Body where
  statements :=
    [⟨⟨0⟩, .identity "r0" (.this (.object "a.B"))⟩,
      ⟨⟨1⟩, .plain "i0 = i0 + 1"⟩,
      ⟨⟨2⟩, .branch "i0 < 9" ⟨1⟩⟩,
      ⟨⟨3⟩, .ret none⟩,
      ⟨⟨4⟩, .identity "e0" .caughtException⟩,
      ⟨⟨5⟩, .throw (.localVar "e0")⟩]
  traps := [⟨"java.lang.Exception", ⟨1⟩, ⟨3⟩, ⟨4⟩⟩]

/-- A registry with one unit, whose one method has a body. -/
def Registry.single (b : Body) : Registry where
  units := [⟨"a.B", [⟨"f", [], .void, some b⟩]⟩]
  support := []
  hook := none

/-- An injector of calls of the bundled hook that leaves no unit alone. -/
def Injector.sample : Injector where
  policy := ⟨[], [], none⟩
  hook := ⟨⟨Hook.defaultOwner, Hook.defaultMethod, [.string, .string, .int], .void⟩,
    Hook.defaultChannel, false⟩
  format := LocationFormat.statement

/-- A registry with the class of the hook, a unit of a platform namespace, and two units of which
one is in the scope of an application. -/
def Registry.mixed : Registry where
  units :=
    [Hook.declaration Hook.defaultOwner Hook.defaultMethod,
      ⟨"com.google.A", [⟨"f", [], .void, some .sample⟩]⟩,
      ⟨"a.B", [⟨"f", [], .void, some .sample⟩, ⟨"g", [.int], .void, none⟩]⟩,
      ⟨"z.C", [⟨"f", [], .void, some .sample⟩]⟩]
  support := [Hook.defaultOwner]
  hook := none

/-- An injector of calls of the bundled hook that is limited to one application. -/
def Injector.scoped : Injector :=
  { Injector.sample with
    policy := ⟨[Hook.defaultOwner], Policy.defaultExcluded, some "a."⟩
    format := LocationFormat.qualified }

theorem Body.built_sample : Body.sample.Built :=
  .ofParts (show Body.ofParts Body.sample.statements Body.sample.traps = .ok Body.sample from rfl)

theorem Registry.built_single {b : Body} (built : b.Built) : (Registry.single b).Built := by
  intro u unit m method b' body
  simp only [Registry.single, List.mem_singleton] at unit
  subst unit
  simp only [List.mem_singleton] at method
  subst method
  cases body
  exact built

theorem Registry.built_mixed : Registry.mixed.Built := by
  intro u unit m method b body
  simp only [mixed, List.mem_cons, List.not_mem_nil, or_false] at unit
  rcases unit with rfl | rfl | rfl | rfl <;>
    simp only [Hook.declaration, List.mem_cons, List.not_mem_nil, or_false] at method
  case inl =>
    subst method
    cases body
    exact .push .empty _
  all_goals
    rcases method with rfl | rfl <;> cases body
    exact Body.built_sample

theorem Injector.reaches_single (b : Body) : Injector.sample.Reaches (.single b) (0, 0) b :=
  .body rfl rfl rfl rfl rfl

namespace Injector

variable {i : Injector}

/-- **An injection without a fault leaves the woven form of the registry.** Every body that it
goes through had labels left for its probes, so the labels of the probes are the numbers
above the highest one. -/
theorem registry_inject {r : Registry} {a : Allocator} {x : List ProbeRecord × InjectionReport}
    (built : r.Built) (done : (i.inject r a).result = .ok x) :
    (i.inject r a).registry = i.weaveRegistry r a ∧
      ∀ place b, i.Reaches r place b → b.HasRoom := by
  constructor
  · obtain ⟨units, q, sweeps, left⟩ := sweeps_of_inject done
    have threaded := sweeps.thread_eq fun u member p u' q => probeUnit_eq_none (built u member)
    rw [left, weaveRegistry]
    simp only [Progress.start] at threaded
    rw [threaded]
  · intro place b reached
    obtain ⟨-, room, -⟩ := reached.exists_woven built done
    exact room

theorem registry_inject_sample :
    (Injector.sample.inject (.single .sample) (.counter 0)).registry =
        Injector.sample.weaveRegistry (.single .sample) (.counter 0) ∧
      Body.sample.HasRoom := by
  obtain ⟨left, room⟩ := registry_inject (i := .sample) (a := .counter 0)
    (Registry.built_single Body.built_sample) rfl
  exact ⟨left, room _ _ (reaches_single _)⟩

example : (Body.sample.woven Injector.sample.hook (.counter 0)).labels.map Label.index =
    [0, 6, 1, 7, 2, 8, 3, 4, 9, 5] := by
  decide

example : (Body.sample.woven Injector.sample.hook (.counter 0)).traps =
    [⟨"java.lang.Exception", ⟨6⟩, ⟨8⟩, ⟨4⟩⟩] := by
  rfl

end Injector

end Tracepoint
