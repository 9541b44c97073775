import Mathlib.Data.List.Forall2
import Tracepoint.Proofs.Probe.Injection
import Tracepoint.Proofs.Probe.Positions

/-!
# The records of an injection

What a registry gained in an injection is read off the two registries alone: the statements
whose labels were not in use before, in load order, each with the statement right after it
(`Registry.gains`). They match the records of the injection one to one, in order
(`inject_records`): each is the call for the identifier of its record and stands right in
front of the ordinary statement that the record describes as it was before.
-/

namespace Tracepoint

/-- The statements of a list, each with the one right after it. -/
def withNext : List Statement → List (Statement × Option Statement)
  | [] => []
  | s :: rest => (s, rest.head?) :: withNext rest

/-- A statement that a body gained. -/
structure Gain where
  /-- The signature of the method that the body is of. -/
  signature : String
  /-- The body as it was. -/
  body : Body
  gained : Statement
  /-- The statement right after it. -/
  next : Option Statement

/-- What some statements have that a body, of a method with a signature, had not, by label. -/
def Body.gains (signature : String) (old : Body) (statements : List Statement) : List Gain :=
  ((withNext statements).filter fun e => e.1.label ∉ old.labels).map fun e =>
    ⟨signature, old, e.1, e.2⟩

/-- What a method of a unit gained. -/
def Method.gains (unit : String) (old new : Method) : List Gain :=
  (old.body.getD .empty).gains (old.signature unit) (new.body.elim [] Body.statements)

/-- What a unit gained, in order of declaration. -/
def CodeUnit.gains (old new : CodeUnit) : List Gain :=
  (List.zipWith (Method.gains old.name) old.methods new.methods).flatten

/-- What a registry gained, in load order. -/
def Registry.gains (old new : Registry) : List Gain :=
  (List.zipWith CodeUnit.gains old.units new.units).flatten

/-- A method without what its body holds. -/
def Method.outline (m : Method) : Method :=
  { m with body := m.body.map fun _ => .empty }

/-- A unit without what its bodies hold. -/
def CodeUnit.outline (u : CodeUnit) : CodeUnit :=
  { u with methods := u.methods.map Method.outline }

/-- A registry without what its bodies hold. -/
def Registry.outline (r : Registry) : Registry :=
  { r with units := r.units.map CodeUnit.outline }

/-- What a record of an injection says of a statement that a body gained: it is the call for the
identifier, and it stands right in front of the ordinary statement of the body that the record
describes, whose jump is led on. -/
structure Injector.Notes (i : Injector) (g : Gain) (r : ProbeRecord) : Prop where
  call : g.gained.code = i.hook.call r.id
  guards : ∃ s ∈ g.body.statements, s.isIdentity = false ∧
    g.next = some (s.retarget g.body.lead) ∧ r.location = i.format.describe s g.signature
  /-- What comes next binds nothing. -/
  ordinary : ∀ s, g.next = some s → s.isIdentity = false
  owner : r.owner = g.signature

/-! ### A sweep that gathers records -/

section Sweep

variable {α β : Type} {f : α → Progress → α × Progress × Option Fault} {xs ys : List α}
  {p q : Progress}

/-- A sweep whose steps add records for what they change adds them in order. -/
theorem Sweeps.exists_records {R : β → ProbeRecord → Prop} {changes : α → α → List β}
    (h : Sweeps f xs p ys q)
    (steps : ∀ x ∈ xs, ∀ p y q, f x p = (y, q, none) →
      ∃ new, q.records = p.records ++ new ∧ List.Forall₂ R (changes x y) new) :
    ∃ new, q.records = p.records ++ new ∧
      List.Forall₂ R (List.zipWith changes xs ys).flatten new := by
  induction h with
  | nil p => exact ⟨[], by simp, .nil⟩
  | cons step later ih =>
    obtain ⟨here, added, related⟩ := steps _ List.mem_cons_self _ _ _ step
    obtain ⟨there, more, related'⟩ := ih fun x member => steps x (List.mem_cons_of_mem _ member)
    refine ⟨here ++ there, by rw [more, added, List.append_assoc], ?_⟩
    rw [List.zipWith_cons_cons, List.flatten_cons]
    exact List.rel_append related related'

/-- A sweep whose steps keep something of each place keeps it of all. -/
theorem Sweeps.map_eq {g : α → β} (h : Sweeps f xs p ys q)
    (steps : ∀ x p y q, f x p = (y, q, none) → g y = g x) : ys.map g = xs.map g := by
  induction h with
  | nil p => rfl
  | cons step later ih => rw [List.map_cons, List.map_cons, steps _ _ _ _ step, ih]

end Sweep

/-! ### Gains of a body -/

namespace Body

variable {signature : String} {old : Body} {s : Statement} {rest : List Statement}

theorem gains_cons_of_mem (used : s.label ∈ old.labels) :
    old.gains signature (s :: rest) = old.gains signature rest := by
  simp [gains, withNext, used]

theorem gains_cons_of_not_mem (fresh : s.label ∉ old.labels) :
    old.gains signature (s :: rest) =
      ⟨signature, old, s, rest.head?⟩ :: old.gains signature rest := by
  simp [gains, withNext, fresh]

/-- Nothing is gained by statements of the body itself. -/
theorem gains_of_subset {statements : List Statement} (own : ∀ s ∈ statements, s ∈ old.statements) :
    old.gains signature statements = [] := by
  induction statements with
  | nil => rfl
  | cons s rest ih =>
    have used : s.label ∈ old.labels := List.mem_map_of_mem (own s List.mem_cons_self)
    rw [gains_cons_of_mem used]
    exact ih fun t member => own t (List.mem_cons_of_mem _ member)

end Body

/-- A method that stays as it is gains nothing. -/
theorem Method.gains_self (unit : String) (m : Method) : m.gains unit m = [] := by
  rw [gains]
  cases m.body with
  | none => rfl
  | some b => exact Body.gains_of_subset fun _ member => member

theorem CodeUnit.gains_self (u : CodeUnit) : u.gains u = [] := by
  rw [gains, List.zipWith_self]
  simp [Method.gains_self]

namespace Injector

open Body

variable {i : Injector} {unit signature : String}

/-! ### The records of a body -/

/-- The records of the probes for some statements of the method with a signature. -/
def recordsOf (i : Injector) (signature : String) (a : Allocator) :
    List Statement → List ProbeRecord
  | [] => []
  | s :: rest =>
    if s.isIdentity then i.recordsOf signature a rest
    else ⟨a.next.1, i.format.describe s signature, signature⟩ ::
      i.recordsOf signature a.next.2 rest

theorem records_advance (p : Progress) (statements : List Statement) :
    (i.advance signature p statements).records =
      p.records ++ i.recordsOf signature p.allocator statements := by
  induction statements generalizing p with
  | nil => simp [advance, recordsOf]
  | cons s rest ih =>
    rw [recordsOf]
    cases kind : s.isIdentity with
    | true =>
      rw [advance_cons_identity kind, ih, if_pos rfl]
      rfl
    | false =>
      rw [advance_cons_ordinary kind, ih, if_neg Bool.false_ne_true]
      simp [Progress.record]

/-- Weaving statements of a body gains the calls that their records note: the labels of the
probes are not in use, those of the statements are. -/
theorem notes_weaveFrom {old : Body} (n : Nat) (a : Allocator) (statements : List Statement)
    (own : ∀ s ∈ statements, s ∈ old.statements)
    (fresh : ∀ k, n ≤ k → k < n + ordinaries statements → Label.ofNat k ∉ old.labels) :
    List.Forall₂ i.Notes (old.gains signature (weaveFrom i.hook old.lead n a statements))
      (i.recordsOf signature a statements) := by
  induction statements generalizing n a with
  | nil => exact .nil
  | cons s rest ih =>
    have used : s.label ∈ old.labels := List.mem_map_of_mem (own s List.mem_cons_self)
    have later := fun t member => own t (List.mem_cons_of_mem _ member)
    rw [recordsOf]
    cases kind : s.isIdentity with
    | true =>
      rw [ordinaries_cons_identity kind] at fresh
      rw [weaveFrom_cons_identity kind, gains_cons_of_mem used, if_pos rfl]
      exact ih n a later fresh
    | false =>
      rw [ordinaries_cons_ordinary kind] at fresh
      have probe : Label.ofNat n ∉ old.labels := fresh n (Nat.le_refl n) (by omega)
      have guarded : (s.retarget old.lead).label ∈ old.labels := used
      rw [weaveFrom_cons_ordinary kind, gains_cons_of_not_mem probe, gains_cons_of_mem guarded,
        if_neg Bool.false_ne_true]
      refine .cons ?_ (ih (n + 1) a.next.2 later fun k low high => fresh k (by omega) (by omega))
      refine ⟨rfl, ⟨s, own s List.mem_cons_self, kind, rfl, rfl⟩, ?_, rfl⟩
      intro t next
      cases next
      rw [Statement.isIdentity_retarget, kind]

/-- The woven form of a body gains the calls that the records of its probes note. -/
theorem notes_woven {b : Body} (room : b.HasRoom) (a : Allocator) :
    List.Forall₂ i.Notes (b.gains signature (b.woven i.hook a).statements)
      (i.recordsOf signature a b.statements) :=
  notes_weaveFrom _ _ _ (fun _ member => member) room.ofNat_not_mem

/-! ### The records of the whole -/

theorem probeBody_records (free : i.policy.unitDecision? unit = none)
    (inside : i.policy.inScope signature = true) {b b' : Body} {p q : Progress}
    (labelled : b.Labelled) (done : i.probeBody unit signature b p = (b', q, none)) :
    q.records = p.records ++ i.recordsOf signature p.allocator b.statements := by
  have room := (probeBody_eq_none free inside labelled done).1
  rw [probeBody, probeStatements_woven free inside labelled room] at done
  simp only at done
  split at done
  · cases done
  · cases done
    exact records_advance p b.statements

theorem probeMethod_records (free : i.policy.unitDecision? unit = none) {m m' : Method}
    {p q : Progress} (built : ∀ b, m.body = some b → b.Built)
    (done : i.probeMethod unit m p = (m', q, none)) :
    ∃ new, q.records = p.records ++ new ∧ List.Forall₂ i.Notes (m.gains unit m') new := by
  cases methodStep_of_probeMethod done with
  | bodiless body =>
    rw [Method.gains_self]
    exact ⟨[], (List.append_nil _).symm, .nil⟩
  | outside body outside =>
    rw [Method.gains_self]
    exact ⟨[], (List.append_nil _).symm, .nil⟩
  | through body inside step =>
    have labelled := (built _ body).labelled
    obtain ⟨room, rfl, -, -⟩ := probeBody_eq_none free inside labelled step
    refine ⟨_, probeBody_records free inside labelled step, ?_⟩
    simp only [Method.gains, body, Option.getD_some, Option.elim_some]
    exact notes_woven room p.allocator

theorem probeUnit_records {u u' : CodeUnit} {p q : Progress}
    (built : ∀ m ∈ u.methods, ∀ b, m.body = some b → b.Built)
    (done : i.probeUnit u p = (u', q, none)) :
    ∃ new, q.records = p.records ++ new ∧ List.Forall₂ i.Notes (u.gains u') new := by
  cases unitStep_of_probeUnit done with
  | alone decided =>
    rw [CodeUnit.gains_self]
    exact ⟨[], (List.append_nil _).symm, .nil⟩
  | through free sweeps =>
    exact sweeps.exists_records
      fun m member p m' q => probeMethod_records free (built m member)

theorem outline_probeMethod {m m' : Method} {p q : Progress}
    (done : i.probeMethod unit m p = (m', q, none)) : m'.outline = m.outline := by
  cases methodStep_of_probeMethod done with
  | bodiless | outside => rfl
  | through body => simp [Method.outline, body]

theorem outline_probeUnit {u u' : CodeUnit} {p q : Progress}
    (done : i.probeUnit u p = (u', q, none)) : u'.outline = u.outline := by
  cases unitStep_of_probeUnit done with
  | alone => rfl
  | through _ sweeps =>
    have same := sweeps.map_eq fun m p m' q => outline_probeMethod
    simp only [CodeUnit.outline, same]

/-- **The records of an injection without a fault match what the registry gained**, one to one and
in order, and the registry changes in its bodies only. -/
theorem inject_records {r : Registry} {a : Allocator} {records : List ProbeRecord}
    {report : InjectionReport} (built : r.Built)
    (done : (i.inject r a).result = .ok (records, report)) :
    (i.inject r a).registry.outline = r.outline ∧
      List.Forall₂ i.Notes (r.gains (i.inject r a).registry) records := by
  obtain ⟨units, q, sweeps, left, given⟩ := progress_of_inject done
  cases given
  rw [left]
  constructor
  · have same := sweeps.map_eq fun u p u' q => outline_probeUnit
    simp only [Registry.outline, same]
  · obtain ⟨new, added, related⟩ := sweeps.exists_records
      fun u member p u' q => probeUnit_records (built u member)
    rw [Progress.start, List.nil_append] at added
    rw [added]
    exact related

theorem inject_records_mixed : ∃ records report,
    (Injector.scoped.inject .mixed (.counter 7)).result = .ok (records, report) ∧
      (Injector.scoped.inject .mixed (.counter 7)).registry.outline = Registry.mixed.outline ∧
      List.Forall₂ Injector.scoped.Notes
        (Registry.mixed.gains (Injector.scoped.inject .mixed (.counter 7)).registry) records :=
  ⟨_, _, rfl, inject_records Registry.built_mixed rfl⟩

end Injector

end Tracepoint
