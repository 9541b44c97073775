import Mathlib.Data.Prod.Lex
import Tracepoint.Proofs.Code.Judgement
import Tracepoint.Proofs.Probe.Positions
import Tracepoint.Proofs.Probe.Success

/-!
# Where an injection stops

A sweep that stands for a map of the list and meets a fault has mapped the list up to one place
and leaves the rest of it alone (`Halt`). An injection that fails halts at a unit and, inside of
it, at a method, so it has woven the bodies before that place and not touched those behind it;
the body at the place is the first that cannot take its probes, and the fault says which of the
two reasons it has (`Injector.StopsAt`).
-/

namespace Tracepoint

/-! ### Sweeps that halt -/

/-- A sweep that stands for a map of a list halted at an item: it has mapped the list up to there
and found no fault, and left alone what is behind. -/
structure Halt {α : Type} (f : α → Progress → α × Progress × Option Fault)
    (g : α → Allocator → α × Allocator) (xs ys : List α) (a : Allocator) (k : Nat) (x y : α)
    (p : Progress) : Prop where
  here : xs[k]? = some x
  left : ys[k]? = some y
  mapped : (thread g xs a).1[k]? = some (g x p.allocator).1
  before : ∀ j < k, ys[j]? = (thread g xs a).1[j]?
  fine : ∀ j < k, ∀ z, xs[j]? = some z → ∃ p z' q, f z p = (z', q, none)
  behind : ∀ j, k < j → ys[j]? = xs[j]?

theorem exists_halt {α : Type} {f : α → Progress → α × Progress × Option Fault}
    {g : α → Allocator → α × Allocator} {xs ys : List α} {p q : Progress} {e : Fault}
    (steps : ∀ x ∈ xs, ∀ p y q, f x p = (y, q, none) → g x p.allocator = (y, q.allocator))
    (failed : sweep f xs p = (ys, q, some e)) :
    ∃ k x y p', f x p' = (y, q, some e) ∧ Halt f g xs ys p.allocator k x y p' := by
  obtain ⟨before, x, rest, before', y, p', rfl, rfl, sweeps, met⟩ := exists_split_of_sweep failed
  have threaded := sweeps.thread_eq fun z member => steps z (List.mem_append_left _ member)
  have mapped : (thread g (before ++ x :: rest) p.allocator).1 =
      before' ++ (g x p'.allocator).1 :: (thread g rest (g x p'.allocator).2).1 := by
    rw [thread_append, threaded]
    rfl
  have same := sweeps.length_eq
  refine ⟨before.length, x, y, p', met, ?_⟩
  constructor
  case here => simp
  case left => simp [← same]
  case mapped => simp [mapped, ← same]
  case before =>
    intro j less
    rw [mapped, List.getElem?_append_left (same ▸ less), List.getElem?_append_left (same ▸ less)]
  case fine =>
    intro j less z there
    rw [List.getElem?_append_left less] at there
    obtain ⟨p'', z', q', step, -⟩ := sweeps.exists_step there
    exact ⟨p'', z', q', step⟩
  case behind =>
    intro j more
    rw [List.getElem?_append_right (same ▸ more.le), List.getElem?_append_right more.le, same,
      List.getElem?_cons, List.getElem?_cons, if_neg (by omega), if_neg (by omega)]

namespace Injector

open Body

variable {i : Injector} {r : Registry} {a : Allocator} {e : Fault} {place : Nat × Nat}

/-! ### The body at which an injection stops -/

/-- What an injection has against a body, which it leaves in some form: the labels that are left
are too few for the probes, or they suffice and the judgement on the woven form is a fault. -/
inductive Refuses (i : Injector) (b b' : Body) (a : Allocator) : BodyFault → Prop where
  | exhausted (full : ¬ b.HasRoom) : Refuses i b b' a .labelsExhausted
  | judged {cause : BodyFault} (room : b.HasRoom) (left : b' = b.woven i.hook a)
      (fault : (b.woven i.hook a).fault? = some cause) : Refuses i b b' a cause

theorem refuses_of_probeBody {unit signature : String}
    (free : i.policy.unitDecision? unit = none) (inside : i.policy.inScope signature = true)
    {b b' : Body} {p q : Progress} (labelled : b.Labelled)
    (failed : i.probeBody unit signature b p = (b', q, some e)) :
    ∃ cause, e = .invalidBody signature cause ∧ i.Refuses b b' p.allocator cause := by
  rw [probeBody] at failed
  by_cases room : b.HasRoom
  · rw [probeStatements_woven free inside labelled room] at failed
    simp only at failed
    split at failed <;> cases failed
    rename_i cause fault
    exact ⟨cause, rfl, .judged room rfl fault⟩
  · have split' : b.statements = [] ++ b.statements.map (Statement.retarget id) := by simp
    have full := probeStatements_of_full free inside b.statements b p [] id labelled split'
      (Nat.lt_of_not_le room)
    rcases run : i.probeStatements unit signature b.statements b p with ⟨b₁, q₁, fault⟩
    rw [run] at full failed
    subst full
    cases failed
    exact ⟨_, rfl, .exhausted room⟩

theorem Refuses.not_takesProbes {b b' : Body} {cause : BodyFault}
    (refuses : i.Refuses b b' a cause) : ¬ b.TakesProbes i.hook := by
  rintro ⟨room, valid⟩
  cases refuses with
  | exhausted full => exact full room
  | judged _ _ fault =>
    rw [(fault?_woven_iff room a (.counter 0)).mpr valid] at fault
    cases fault

/-- The judgement never takes a body for one whose rewriting got stuck. -/
theorem Refuses.cause {b b' : Body} {cause : BodyFault} (labelled : b.Labelled)
    (refuses : i.Refuses b b' a cause) :
    (cause = .labelsExhausted ↔ ¬ b.HasRoom) ∧ ∀ l, cause ≠ .missingStatement l := by
  cases refuses with
  | exhausted full => exact ⟨iff_of_true rfl full, by simp⟩
  | judged room _ fault =>
    have distinct := labelled.nodup_woven (h := i.hook) (a := a) room
    obtain ⟨c, -, fails, -⟩ := (finds_fault? distinct).first _ fault
    obtain ⟨other, present⟩ := fails.of_rewriting
    exact ⟨iff_of_false other (fun full => full room), present⟩

theorem refuses_of_probeMethod {unit : String} (free : i.policy.unitDecision? unit = none)
    {m m' : Method} (built : ∀ b, m.body = some b → b.Built) {p q : Progress}
    (failed : i.probeMethod unit m p = (m', q, some e)) :
    ∃ b b' cause, m.body = some b ∧ i.policy.inScope (m.signature unit) = true ∧
      m' = { m with body := some b' } ∧ e = .invalidBody (m.signature unit) cause ∧
      i.Refuses b b' p.allocator cause := by
  rw [probeMethod] at failed
  split at failed
  · cases failed
  rename_i b body
  split at failed
  · rename_i inside
    rcases step : i.probeBody unit (m.signature unit) b p with ⟨b', q', fault⟩
    simp only [step, Prod.mk.injEq] at failed
    obtain ⟨rfl, -, rfl⟩ := failed
    obtain ⟨cause, named, refuses⟩ := refuses_of_probeBody free inside (built b body).labelled step
    exact ⟨b, b', cause, body, inside, rfl, named, refuses⟩
  · cases failed

/-- A unit with a fault is one that the policy does not leave alone, and halts at a method. -/
theorem exists_halt_of_probeUnit {u u' : CodeUnit} {p q : Progress}
    (built : ∀ m ∈ u.methods, ∀ b, m.body = some b → b.Built)
    (failed : i.probeUnit u p = (u', q, some e)) :
    i.policy.unitDecision? u.name = none ∧
      ∃ j m m' p', i.probeMethod u.name m p' = (m', q, some e) ∧
        Halt (i.probeMethod u.name) (i.weaveMethod u.name) u.methods u'.methods p.allocator
          j m m' p' := by
  rw [probeUnit] at failed
  split at failed
  · cases failed
  rename_i free
  rw [probeMethods_eq_sweep] at failed
  rcases swept : sweep (i.probeMethod u.name) u.methods p with ⟨methods, q', fault⟩
  simp only [swept, Prod.mk.injEq] at failed
  obtain ⟨rfl, rfl, rfl⟩ := failed
  exact ⟨free, exists_halt (fun m member p m' q => probeMethod_eq_none free (built m member)) swept⟩

/-- An injection halts at a unit `u` and inside of it at a method with a body `b` in scope, which
it leaves as `u'` and `b'`; it has come as far as `p` before the one and `p'` before the other. -/
structure Halts (i : Injector) (r : Registry) (a : Allocator) (k j : Nat) (u u' : CodeUnit)
    (m : Method) (b b' : Body) (p p' : Progress) : Prop where
  units : Halt i.probeUnit i.weaveUnit r.units (i.inject r a).registry.units a k u u' p
  methods : Halt (i.probeMethod u.name) (i.weaveMethod u.name) u.methods u'.methods p.allocator j m
    { m with body := some b' } p'
  free : i.policy.unitDecision? u.name = none
  body : m.body = some b
  inside : i.policy.inScope (m.signature u.name) = true

/-- An injection that fails halts at a body that it has something against. -/
theorem exists_halts_of_inject (built : r.Built) (failed : (i.inject r a).result = .error e) :
    ∃ k j u u' m b b' p p' cause, i.Halts r a k j u u' m b b' p p' ∧
      e = .invalidBody (m.signature u.name) cause ∧ i.Refuses b b' p'.allocator cause := by
  rcases swept : sweep i.probeUnit r.units (.start a) with ⟨units, q, _ | e'⟩
  · simp [inject, probeUnits_eq_sweep, swept] at failed
  simp only [inject, probeUnits_eq_sweep, swept, Except.error.injEq] at failed
  subst failed
  obtain ⟨k, u, u', p, step, halt⟩ := exists_halt (g := i.weaveUnit)
    (fun u member p u' q => probeUnit_eq_none (built u member)) swept
  have builtUnit := built u (List.mem_of_getElem? halt.here)
  obtain ⟨free, j, m, _, p', step', halt'⟩ := exists_halt_of_probeUnit builtUnit step
  have builtBody := builtUnit m (List.mem_of_getElem? halt'.here)
  obtain ⟨b, b', cause, body, inside, rfl, named, refuses⟩ :=
    refuses_of_probeMethod free builtBody step'
  have left : (i.inject r a).registry.units = units := by rw [inject, probeUnits_eq_sweep, swept]
  exact ⟨k, j, u, u', m, b, b', p, p', cause, ⟨left ▸ halt, halt', free, body, inside⟩, named,
    refuses⟩

/-! ### The places before and behind -/

/-- Whether a place comes before another one: by the order of the units, and inside of a unit by
the order of the methods. -/
def Precedes : Nat × Nat → Nat × Nat → Prop :=
  Prod.Lex (· < ·) (· < ·)

/-- What is known of an injection that stopped at a body and has something against it. -/
structure StopsAt (i : Injector) (r : Registry) (a : Allocator) (place : Nat × Nat) (b : Body)
    (cause : BodyFault) : Prop where
  /-- The body does not take its probes, and is the first that does not. -/
  refused : ¬ b.TakesProbes i.hook
  first : ∀ place' c, Precedes place' place → i.Reaches r place' c → c.TakesProbes i.hook
  /-- The labels are exhausted when fewer are left above the highest one than there are
  statements that get a probe. -/
  exhausted : cause = .labelsExhausted ↔
    Label.limit.toNat - labelBound b.statements < ordinaries b.statements
  /-- Otherwise the body is left woven, and the cause is what the judgement says of that. -/
  judged : cause ≠ .labelsExhausted → ∃ b', b'.fault? = some cause ∧
    (i.weaveRegistry r a).bodyAt? place = some b' ∧
    (i.inject r a).registry.bodyAt? place = some b'
  present : ∀ l, cause ≠ .missingStatement l
  /-- The registry is left woven before the place, and what was woven there is valid. -/
  earlier : ∀ place', Precedes place' place →
    (i.inject r a).registry.bodyAt? place' = (i.weaveRegistry r a).bodyAt? place'
  valid : ∀ place' c, Precedes place' place → i.Reaches r place' c →
    ∃ c', (i.inject r a).registry.bodyAt? place' = some c' ∧ c'.fault? = none
  /-- It is left as it was behind the place. -/
  later : ∀ place', Precedes place place' →
    (i.inject r a).registry.bodyAt? place' = r.bodyAt? place'

theorem exists_getElem?_thread {α σ : Type} (f : α → σ → α × σ) {xs : List α} {k : Nat} {x : α}
    (here : xs[k]? = some x) (s : σ) : ∃ s', (thread f xs s).1[k]? = some (f x s').1 := by
  induction xs generalizing k s with
  | nil => simp at here
  | cons y rest ih =>
    cases k with
    | zero =>
      cases here
      exact ⟨s, rfl⟩
    | succ k => exact ih here (f y s).2

theorem weaveMethod_of_body {unit : String} {m : Method} {b : Body} (body : m.body = some b)
    (inside : i.policy.inScope (m.signature unit) = true) (a : Allocator) :
    (i.weaveMethod unit m a).1.body = some (b.woven i.hook a) := by
  simp only [weaveMethod, body, inside, if_true]

theorem weaveUnit_of_free {u : CodeUnit} (free : i.policy.unitDecision? u.name = none)
    (a : Allocator) :
    (i.weaveUnit u a).1.methods = (thread (i.weaveMethod u.name) u.methods a).1 := by
  simp only [weaveUnit, free]

theorem bodyAt?_of_unit {u : CodeUnit} {k : Nat} (unit : r.units[k]? = some u) (j : Nat) :
    r.bodyAt? (k, j) = (u.methods[j]?).bind Method.body := by
  rw [Registry.bodyAt?, unit, Option.bind_some]

/-- A body that an injection goes through is woven in the woven form of the registry. -/
theorem Reaches.exists_bodyAt?_weaveRegistry {b : Body} (reached : i.Reaches r place b)
    (a : Allocator) : ∃ a', (i.weaveRegistry r a).bodyAt? place = some (b.woven i.hook a') := by
  obtain @⟨u, m, unit, method, body, free, inside⟩ := reached
  obtain ⟨a₁, unit'⟩ := exists_getElem?_thread i.weaveUnit unit a
  obtain ⟨a₂, method'⟩ := exists_getElem?_thread (i.weaveMethod u.name) method a₁
  refine ⟨a₂, ?_⟩
  rw [bodyAt?_of_unit (r := i.weaveRegistry r a) unit', weaveUnit_of_free free, method',
    Option.bind_some, weaveMethod_of_body body inside]

theorem Reaches.takesProbes_of_unit {u u' : CodeUnit} {b : Body} {p q : Progress}
    (built : r.Built) (reached : i.Reaches r place b) (unit : r.units[place.1]? = some u)
    (fine : i.probeUnit u p = (u', q, none)) : b.TakesProbes i.hook := by
  obtain @⟨v, m, unit', method, body, free, inside⟩ := reached
  cases unit.symm.trans unit'
  refine (probeUnit_eq_none_iff (built u (List.mem_of_getElem? unit)) p).mp (by rw [fine]) b ?_
  rw [Policy.unitBodies, free]
  exact List.mem_filterMap.mpr ⟨m, List.mem_of_getElem? method,
    by simp [Policy.bodyInScope?, body, inside]⟩

theorem Reaches.takesProbes_of_method {u : CodeUnit} {m m' : Method} {b : Body} {p q : Progress}
    (built : r.Built) (reached : i.Reaches r place b) (unit : r.units[place.1]? = some u)
    (method : u.methods[place.2]? = some m) (fine : i.probeMethod u.name m p = (m', q, none)) :
    b.TakesProbes i.hook := by
  obtain @⟨v, n, unit', method', body, free, inside⟩ := reached
  cases unit.symm.trans unit'
  cases method.symm.trans method'
  have builtBody := built u (List.mem_of_getElem? unit) m (List.mem_of_getElem? method)
  exact (probeMethod_eq_none_iff free builtBody p).mp (by rw [fine]) b
    (by simp [Policy.bodyInScope?, body, inside])

section Halts

variable {k j : Nat} {u u' : CodeUnit} {m : Method} {b b' : Body} {p p' : Progress}
  {cause : BodyFault}

theorem Halts.reaches (h : i.Halts r a k j u u' m b b' p p') : i.Reaches r (k, j) b :=
  .body h.units.here h.methods.here h.body h.free h.inside

theorem Halts.bodyAt?_left (h : i.Halts r a k j u u' m b b' p p') (n : Nat) :
    (i.inject r a).registry.bodyAt? (k, n) = (u'.methods[n]?).bind Method.body :=
  bodyAt?_of_unit h.units.left n

theorem Halts.bodyAt?_woven (h : i.Halts r a k j u u' m b b' p p') (n : Nat) :
    (i.weaveRegistry r a).bodyAt? (k, n) =
      ((thread (i.weaveMethod u.name) u.methods p.allocator).1[n]?).bind Method.body := by
  rw [bodyAt?_of_unit (r := i.weaveRegistry r a) h.units.mapped, weaveUnit_of_free h.free]

/-- Every body before the place took its probes. -/
theorem Halts.takesProbes (h : i.Halts r a k j u u' m b b' p p') (built : r.Built) {c : Body}
    (precedes : Precedes place (k, j)) (reached : i.Reaches r place c) :
    c.TakesProbes i.hook := by
  obtain @⟨v, n, unit, method, -, -, -⟩ := id reached
  rcases Prod.lex_def.mp precedes with less | ⟨same, less⟩
  · obtain ⟨_, _, _, fine⟩ := h.units.fine _ less v unit
    exact reached.takesProbes_of_unit built unit fine
  · cases h.units.here.symm.trans (same ▸ unit)
    obtain ⟨_, _, _, fine⟩ := h.methods.fine _ less n method
    exact reached.takesProbes_of_method built unit method fine

theorem Halts.bodyAt?_before (h : i.Halts r a k j u u' m b b' p p')
    (precedes : Precedes place (k, j)) :
    (i.inject r a).registry.bodyAt? place = (i.weaveRegistry r a).bodyAt? place := by
  obtain ⟨k', j'⟩ := place
  rcases Prod.lex_def.mp precedes with less | ⟨same, less⟩
  · rw [Registry.bodyAt?, Registry.bodyAt?, h.units.before _ less]
    rfl
  · cases same
    rw [h.bodyAt?_left, h.bodyAt?_woven, h.methods.before _ less]

theorem Halts.bodyAt?_behind (h : i.Halts r a k j u u' m b b' p p')
    (precedes : Precedes (k, j) place) :
    (i.inject r a).registry.bodyAt? place = r.bodyAt? place := by
  obtain ⟨k', j'⟩ := place
  rcases Prod.lex_def.mp precedes with more | ⟨same, more⟩
  · rw [Registry.bodyAt?, Registry.bodyAt?, h.units.behind _ more]
  · cases same
    rw [h.bodyAt?_left, bodyAt?_of_unit h.units.here, h.methods.behind _ more]

theorem Halts.stopsAt (h : i.Halts r a k j u u' m b b' p p') (built : r.Built)
    (refuses : i.Refuses b b' p'.allocator cause) : i.StopsAt r a (k, j) b cause := by
  have labelled := (built u (List.mem_of_getElem? h.units.here) m
    (List.mem_of_getElem? h.methods.here) b h.body).labelled
  constructor
  case refused => exact refuses.not_takesProbes
  case first => exact fun place c precedes reached => h.takesProbes built precedes reached
  case exhausted =>
    have bounded := labelled.labelBound_le
    rw [(refuses.cause labelled).1, HasRoom]
    omega
  case judged =>
    intro other
    cases refuses with
    | exhausted => exact absurd rfl other
    | judged room left fault =>
      refine ⟨_, fault, ?_, ?_⟩
      · rw [h.bodyAt?_woven, h.methods.mapped, Option.bind_some,
          weaveMethod_of_body h.body h.inside]
      · rw [h.bodyAt?_left, h.methods.left, left, Option.bind_some]
  case present => exact (refuses.cause labelled).2
  case earlier => exact fun place => h.bodyAt?_before
  case valid =>
    intro place c precedes reached
    obtain ⟨room, valid⟩ := h.takesProbes built precedes reached
    obtain ⟨a', woven⟩ := reached.exists_bodyAt?_weaveRegistry a
    rw [h.bodyAt?_before precedes]
    exact ⟨_, woven, (fault?_woven_iff room _ _).mp valid⟩
  case later => exact fun place => h.bodyAt?_behind

end Halts

/-- An injection that fails stops at one body, of the method that the fault names. -/
theorem exists_stopsAt (built : r.Built) (failed : (i.inject r a).result = .error e) :
    ∃ place u m b cause, r.units[place.1]? = some u ∧ u.methods[place.2]? = some m ∧
      m.body = some b ∧ e = .invalidBody (m.signature u.name) cause ∧ i.Reaches r place b ∧
      i.StopsAt r a place b cause := by
  obtain ⟨k, j, u, u', m, b, b', p, p', cause, halts, named, refuses⟩ :=
    exists_halts_of_inject built failed
  exact ⟨(k, j), u, m, b, cause, halts.units.here, halts.methods.here, halts.body, named,
    halts.reaches, halts.stopsAt built refuses⟩

/-- **An injection fails exactly when a body that it goes through does not take its probes**, and
it stops at the first of them: what is before is woven and valid, and what is behind is as it
was. -/
theorem inject_stops (built : r.Built) (a : Allocator) :
    ((∃ e, (i.inject r a).result = .error e) ↔
      ∃ place b, i.Reaches r place b ∧ ¬ b.TakesProbes i.hook) ∧
    ∀ e, (i.inject r a).result = .error e →
      ∃ place u m b cause, r.units[place.1]? = some u ∧ u.methods[place.2]? = some m ∧
        m.body = some b ∧ e = .invalidBody (m.signature u.name) cause ∧ i.Reaches r place b ∧
        i.StopsAt r a place b cause := by
  refine ⟨⟨?_, ?_⟩, fun e => exists_stopsAt built⟩
  · rintro ⟨e, failed⟩
    obtain ⟨place, u, m, b, cause, -, -, -, -, reached, stops⟩ := exists_stopsAt built failed
    exact ⟨place, b, reached, stops.refused⟩
  · rintro ⟨place, b, reached, refused⟩
    cases result : (i.inject r a).result with
    | error e => exact ⟨e, rfl⟩
    | ok x =>
      obtain ⟨-, room, a', valid, -⟩ := reached.exists_woven built result
      exact absurd ⟨room, (fault?_woven_iff room _ _).mp valid⟩ refused

/-- A registry whose second unit has a method that control runs out of, between two that are in
order. -/
def stopping : Registry where
  units :=
    [⟨"a.A", [⟨"f", [], .void, some .sample⟩]⟩,
      ⟨"a.B", [⟨"f", [], .void, some .sample⟩,
        ⟨"g", [.int], .void, some (empty.push (.plain "call()")).1⟩,
        ⟨"h", [], .void, some .sample⟩]⟩]
  support := []
  hook := none

theorem built_stopping : stopping.Built := by
  intro u unit m method b body
  simp only [stopping, List.mem_cons, List.not_mem_nil, or_false] at unit
  rcases unit with rfl | rfl <;>
    simp only [List.mem_cons, List.not_mem_nil, or_false] at method
  · subst method
    cases body
    exact built_sample
  · rcases method with rfl | rfl | rfl <;> cases body
    · exact built_sample
    · exact .push .empty _
    · exact built_sample

theorem inject_stops_stopping :
    stopping.Built ∧
    (Injector.sample.inject stopping (.counter 0)).result =
      .error (.invalidBody "<a.B: void g(int)>" (.fallsOffEnd "call()")) ∧
    (∃ place b, Injector.sample.Reaches stopping place b ∧
      ¬ b.TakesProbes Injector.sample.hook) ∧
    ∃ place u m b cause, stopping.units[place.1]? = some u ∧ u.methods[place.2]? = some m ∧
      m.body = some b ∧
      Fault.invalidBody "<a.B: void g(int)>" (.fallsOffEnd "call()") =
        .invalidBody (m.signature u.name) cause ∧
      Injector.sample.Reaches stopping place b ∧
      Injector.sample.StopsAt stopping (.counter 0) place b cause := by
  have failed : (Injector.sample.inject stopping (.counter 0)).result =
      .error (.invalidBody "<a.B: void g(int)>" (.fallsOffEnd "call()")) := by
    rfl
  obtain ⟨fails, stops⟩ := inject_stops (i := .sample) built_stopping (.counter 0)
  exact ⟨built_stopping, failed, fails.mp ⟨_, failed⟩, stops _ failed⟩

end Injector

end Tracepoint
