import Mathlib.Algebra.GroupWithZero.Nat
import Tracepoint.Proofs.Probe.Injection

/-!
# The report of an injection

An injection counts in three ways: statement by statement in the bodies that it goes through,
body by body for methods out of scope, and unit by unit for units that are left alone. The
plain count asks the policy about every statement of the registry (`Policy.decisions`). The
two agree after every piece of an injection that meets no fault (`Accounts`), so the report
of the whole is the plain count (`inject_report`).
-/

namespace Tracepoint

/-- The number of statements in all units. -/
def Registry.statementCount (r : Registry) : Nat :=
  (r.units.map CodeUnit.statementCount).sum

namespace Policy

/-- The decisions for the statements of a method of a unit. -/
def methodDecisions (p : Policy) (unit : String) (m : Method) : List Decision :=
  m.body.elim [] fun b => b.statements.map fun s => p.decide s (m.signature unit) unit

/-- The decisions for the statements of a unit. -/
def unitDecisions (p : Policy) (u : CodeUnit) : List Decision :=
  u.methods.flatMap (p.methodDecisions u.name)

/-- The decisions for all statements of a registry. -/
def decisions (p : Policy) (r : Registry) : List Decision :=
  r.units.flatMap p.unitDecisions

/-- The body of a method of a unit, if the method has one and is in scope. -/
def bodyInScope? (p : Policy) (unit : String) (m : Method) : Option Body :=
  if p.inScope (m.signature unit) then m.body else none

/-- The bodies of the methods in scope, in a unit that no rule for whole units leaves alone. -/
def unitBodies (p : Policy) (u : CodeUnit) : List Body :=
  if (p.unitDecision? u.name).isSome then [] else u.methods.filterMap (p.bodyInScope? u.name)

/-- The units that a rule for whole units leaves alone. -/
def unitsLeftAlone (p : Policy) (r : Registry) : List CodeUnit :=
  r.units.filter fun u => (p.unitDecision? u.name).isSome

end Policy

/-- The number of statements that a report counts under a decision. -/
def InjectionReport.counted (report : InjectionReport) : Decision → Nat
  | .admitted => report.probes
  | .helperUnit => report.skipped.helperUnit
  | .excludedNamespace => report.skipped.excludedNamespace
  | .outOfScope => report.skipped.outOfScope
  | .identityBinding => report.skipped.identityBinding

/-- The report of an injection that made one registry of another is the plain count: of the
decisions for all statements, of the bodies in scope, and of the units left alone. -/
structure InjectionReport.Counts (report : InjectionReport) (p : Policy) (old new : Registry) :
    Prop where
  probes : report.probes = (p.decisions old).count .admitted
  /-- The skipped statements are listed by decision, for the decisions that were made. -/
  skipped (d : Decision) : report.skipped.entries.lookup d =
    if d = .admitted ∨ (p.decisions old).count d = 0 then none
    else some ((p.decisions old).count d)
  distinct : (report.skipped.entries.map Prod.fst).Nodup
  total : report.probes + (report.skipped.entries.map Prod.snd).sum = old.statementCount
  growth : new.statementCount = old.statementCount + report.probes
  bodies : report.bodiesProbed = (old.units.flatMap p.unitBodies).length
  units : report.unitsSkipped = (p.unitsLeftAlone old).length

/-- What a piece of an injection adds to the report: the decisions for its statements, the
bodies that it goes through and the units that it leaves alone. -/
structure Accounts (p q : Progress) (decisions : List Decision) (bodies units : Nat) : Prop where
  counted (d : Decision) : q.report.counted d = p.report.counted d + decisions.count d
  bodies : q.report.bodiesProbed = p.report.bodiesProbed + bodies
  units : q.report.unitsSkipped = p.report.unitsSkipped + units

/-! ### Steps of the progress -/

namespace Accounts

variable {p q t : Progress} {ds es : List Decision} {m n k l : Nat}

theorem refl (p : Progress) : Accounts p p [] 0 0 :=
  ⟨fun _ => rfl, rfl, rfl⟩

theorem trans (first : Accounts p q ds m k) (second : Accounts q t es n l) :
    Accounts p t (ds ++ es) (m + n) (k + l) where
  counted d := by
    have before := first.counted d
    have after := second.counted d
    rw [List.count_append]
    omega
  bodies := by
    have before := first.bodies
    have after := second.bodies
    omega
  units := by
    have before := first.units
    have after := second.units
    omega

end Accounts

namespace Progress

/-- Statements that are left alone count under their decision. -/
theorem accounts_skip (p : Progress) {d : Decision} (excluded : d ≠ .admitted) (n : Nat) :
    Accounts p (p.skip d n) (List.replicate n d) 0 0 where
  counted e := by
    rw [List.count_replicate]
    cases d <;> cases e <;>
      simp_all [skip, SkipTally.add, InjectionReport.counted]
  bodies := rfl
  units := rfl

theorem accounts_skipUnit (p : Progress) {d : Decision} (excluded : d ≠ .admitted) (n : Nat) :
    Accounts p (p.skipUnit d n) (List.replicate n d) 0 1 where
  counted e := by
    have same : (p.skipUnit d n).report.counted e = (p.skip d n).report.counted e := by
      cases e <;> rfl
    rw [same]
    exact (p.accounts_skip excluded n).counted e
  bodies := rfl
  units := rfl

/-- A probe counts as one statement that was admitted, whatever identifier it takes. -/
theorem accounts_record (p : Progress) (a : Allocator) (r : ProbeRecord) :
    Accounts p (({ p with allocator := a } : Progress).record r) [.admitted] 0 0 where
  counted d := by cases d <;> rfl
  bodies := rfl
  units := rfl

theorem accounts_finishBody (p : Progress) : Accounts p p.finishBody [] 1 0 where
  counted d := by cases d <;> rfl
  bodies := rfl
  units := rfl

end Progress

/-- A sweep whose steps account for something accounts for all of it. -/
theorem Sweeps.accounts {α : Type} {f : α → Progress → α × Progress × Option Fault}
    {xs ys : List α} {p q : Progress} {decisions : α → List Decision} {bodies units : α → Nat}
    (h : Sweeps f xs p ys q)
    (steps : ∀ x p y q, f x p = (y, q, none) →
      Accounts p q (decisions x) (bodies x) (units x)) :
    Accounts p q (xs.flatMap decisions) (xs.map bodies).sum (xs.map units).sum := by
  induction h with
  | nil p => exact .refl p
  | cons step later ih =>
    simp only [List.flatMap_cons, List.map_cons, List.sum_cons]
    exact (steps _ _ _ _ step).trans ih

/-- A sweep whose steps make things grow makes them grow together. -/
theorem Sweeps.growth {α : Type} {f : α → Progress → α × Progress × Option Fault}
    {xs ys : List α} {p q : Progress} {size grown : α → Nat} (h : Sweeps f xs p ys q)
    (steps : ∀ x p y q, f x p = (y, q, none) → size y = size x + grown x) :
    (ys.map size).sum = (xs.map size).sum + (xs.map grown).sum := by
  induction h with
  | nil p => rfl
  | cons step later ih =>
    have here := steps _ _ _ _ step
    simp only [List.map_cons, List.sum_cons]
    omega

/-! ### Counts under decisions -/

/-- The decisions by which statements are left alone. -/
def Decision.exclusions : List Decision :=
  [.helperUnit, .excludedNamespace, .outOfScope, .identityBinding]

theorem Decision.mem_exclusions {d : Decision} : d ∈ exclusions ↔ d ≠ .admitted := by
  cases d <;> decide

theorem lookup_filter_ne_zero {α : Type} [DecidableEq α] (f : α → Nat) (keys : List α) (k : α) :
    ((keys.map fun d => (d, f d)).filter fun e => e.2 ≠ 0).lookup k =
      if k ∈ keys ∧ f k ≠ 0 then some (f k) else none := by
  induction keys with
  | nil => rfl
  | cons d rest ih =>
    by_cases same : k = d
    · subst same
      by_cases zero : f k = 0
      · simp only [List.map_cons, zero, ne_eq, not_true_eq_false, decide_false,
          Bool.false_eq_true, not_false_eq_true, List.filter_cons_of_neg] at ih ⊢
        simpa [zero] using ih
      · simp [zero]
    · have other : (k == d) = false := by simpa using same
      by_cases zero : f d = 0
      · simpa [zero, same] using ih
      · simpa [zero, same, List.lookup_cons, other] using ih

theorem sum_filter_ne_zero {α : Type} (f : α → Nat) (keys : List α) :
    (((keys.map fun d => (d, f d)).filter fun e => e.2 ≠ 0).map Prod.snd).sum =
      (keys.map f).sum := by
  induction keys with
  | nil => rfl
  | cons d rest ih =>
    by_cases zero : f d = 0
    · simpa [zero] using ih
    · simpa [zero] using ih

/-! ### Decisions -/

theorem Policy.unitDecision?_ne_admitted {p : Policy} {unit : String} {d : Decision}
    (decided : p.unitDecision? unit = some d) : d ≠ .admitted := by
  rintro rfl
  rw [unitDecision?] at decided
  split at decided
  · cases decided
  · split at decided <;> cases decided

/-- In a unit that is left alone every statement gets the decision for the unit. -/
theorem Policy.unitDecisions_of_some {p : Policy} {u : CodeUnit} {d : Decision}
    (decided : p.unitDecision? u.name = some d) :
    p.unitDecisions u = List.replicate u.statementCount d := by
  obtain ⟨name, methods⟩ := u
  simp only at decided
  rw [unitDecisions, CodeUnit.statementCount]
  simp only
  induction methods with
  | nil => rfl
  | cons m rest ih =>
    have same : p.methodDecisions name m = List.replicate m.statementCount d := by
      rw [methodDecisions, Method.statementCount]
      cases m.body with
      | none => rfl
      | some b => simp [decide, decided, Body.length, List.map_const']
    rw [List.flatMap_cons, List.foldr_cons, same, ih, List.replicate_append_replicate]

/-- Out of scope every statement gets the decision that says so. -/
theorem Policy.methodDecisions_of_not_inScope {p : Policy} {unit : String} {m : Method} {b : Body}
    (free : p.unitDecision? unit = none) (body : m.body = some b)
    (outside : p.inScope (m.signature unit) = false) :
    p.methodDecisions unit m = List.replicate b.length .outOfScope := by
  simp [methodDecisions, body, decide, free, outside, Body.length, List.map_const']

theorem Policy.length_methodDecisions (p : Policy) (unit : String) (m : Method) :
    (p.methodDecisions unit m).length = m.statementCount := by
  rw [methodDecisions, Method.statementCount]
  cases m.body with
  | none => rfl
  | some b => simp [Body.length]

theorem CodeUnit.statementCount_eq_sum (u : CodeUnit) :
    u.statementCount = (u.methods.map Method.statementCount).sum := by
  rw [statementCount, List.sum, List.foldr_map]

/-- There is one decision for each statement. -/
theorem Policy.length_decisions (p : Policy) (r : Registry) :
    (p.decisions r).length = r.statementCount := by
  have units (u : CodeUnit) : (p.unitDecisions u).length = u.statementCount := by
    simp [unitDecisions, List.length_flatMap, length_methodDecisions, u.statementCount_eq_sum]
  simp [decisions, Registry.statementCount, List.length_flatMap, units]

theorem Decision.length_eq_count (ds : List Decision) :
    ds.length = ds.count .admitted + (ds.count .helperUnit + (ds.count .excludedNamespace +
      (ds.count .outOfScope + ds.count .identityBinding))) := by
  induction ds with
  | nil => rfl
  | cons d rest ih => cases d <;> simp [ih] <;> omega

/-! ### The pieces of an injection -/

theorem Body.length_insertBefore {b b' : Body} {code : Instruction} {point l : Label}
    (inserted : b.insertBefore code point = (b', some l)) : b'.length = b.length + 1 := by
  rw [insertBefore] at inserted
  split at inserted
  · cases inserted
  · rename_i index here
    have bound := (List.findIdx?_eq_some_iff_getElem.mp here).1
    split at inserted
    · cases inserted
    · rename_i counted label handed
      have same : counted.statements = b.statements := by
        rw [fresh] at handed
        split at handed <;> cases handed
        rfl
      cases inserted
      simp only [length, redirect, List.length_map]
      rw [List.length_insertIdx_of_le_length (by rw [same]; omega), same]

namespace Injector

variable {i : Injector} {unit : String}

/-- The loop over a body counts each statement under the decision for it, and the body grows by
the statements that are admitted. -/
theorem probeStatements_accounts {signature : String} {turn : List Statement} {b b' : Body}
    {p q : Progress} (done : i.probeStatements unit signature turn b p = (b', q, none)) :
    Accounts p q (turn.map fun s => i.policy.decide s signature unit) 0 0 ∧
      b'.length = b.length +
        (turn.map fun s => i.policy.decide s signature unit).count .admitted := by
  induction turn generalizing b p with
  | nil =>
    cases done
    exact ⟨.refl _, rfl⟩
  | cons s rest ih =>
    rw [probeStatements] at done
    rw [List.map_cons]
    split at done
    · rename_i admitted
      rw [admitted]
      rcases inserted : b.insertBefore (i.hook.call p.allocator.next.1) s.label with ⟨c, _ | l⟩
      · simp [inserted] at done
      · simp only [inserted] at done
        obtain ⟨accounts, grown⟩ := ih done
        refine ⟨(p.accounts_record _ _).trans accounts, ?_⟩
        have one := Body.length_insertBefore inserted
        rw [List.count_cons_self]
        omega
    · rename_i excluded
      obtain ⟨accounts, grown⟩ := ih done
      refine ⟨(p.accounts_skip excluded 1).trans accounts, ?_⟩
      rw [List.count_cons_of_ne excluded]
      exact grown

theorem probeBody_accounts {signature : String} {b b' : Body} {p q : Progress}
    (done : i.probeBody unit signature b p = (b', q, none)) :
    Accounts p q (b.statements.map fun s => i.policy.decide s signature unit) 1 0 ∧
      b'.length = b.length +
        (b.statements.map fun s => i.policy.decide s signature unit).count .admitted := by
  rw [probeBody] at done
  split at done
  · cases done
  · rename_i b₁ p₁ probed
    split at done
    · cases done
    · cases done
      obtain ⟨accounts, grown⟩ := probeStatements_accounts probed
      have whole := accounts.trans p₁.accounts_finishBody
      rw [List.append_nil] at whole
      exact ⟨whole, grown⟩

theorem probeMethod_accounts (free : i.policy.unitDecision? unit = none) {m m' : Method}
    {p q : Progress} (done : i.probeMethod unit m p = (m', q, none)) :
    Accounts p q (i.policy.methodDecisions unit m)
        (i.policy.bodyInScope? unit m).toList.length 0 ∧
      m'.statementCount = m.statementCount +
        (i.policy.methodDecisions unit m).count .admitted := by
  cases methodStep_of_probeMethod done with
  | bodiless body =>
    simp only [Policy.methodDecisions, Policy.bodyInScope?, body, ite_self]
    exact ⟨.refl p, rfl⟩
  | outside body outside =>
    rw [Policy.methodDecisions_of_not_inScope free body outside, Policy.bodyInScope?,
      outside, if_neg Bool.false_ne_true]
    refine ⟨p.accounts_skip (by decide) _, ?_⟩
    rw [List.count_replicate, if_neg (by decide), Nat.add_zero]
  | through body inside step =>
    simp only [Policy.methodDecisions, Policy.bodyInScope?, Method.statementCount, body, inside,
      if_true]
    exact probeBody_accounts step

theorem probeUnit_accounts {u u' : CodeUnit} {p q : Progress}
    (done : i.probeUnit u p = (u', q, none)) :
    Accounts p q (i.policy.unitDecisions u) (i.policy.unitBodies u).length
        (if (i.policy.unitDecision? u.name).isSome then 1 else 0) ∧
      u'.statementCount = u.statementCount + (i.policy.unitDecisions u).count .admitted := by
  cases unitStep_of_probeUnit done with
  | alone decided =>
    have excluded := Policy.unitDecision?_ne_admitted decided
    rw [Policy.unitDecisions_of_some decided, Policy.unitBodies, decided]
    refine ⟨p.accounts_skipUnit excluded _, ?_⟩
    rw [List.count_replicate, if_neg (by simpa using excluded), Nat.add_zero]
  | through free sweeps =>
    have accounts := sweeps.accounts fun m p m' q step => (probeMethod_accounts free step).1
    have growth := sweeps.growth fun m p m' q step => (probeMethod_accounts free step).2
    constructor
    · have bodies : (i.policy.unitBodies u).length =
          (u.methods.map fun m => (i.policy.bodyInScope? u.name m).toList.length).sum := by
        rw [Policy.unitBodies, free]
        simp only [Option.isSome_none, Bool.false_eq_true, if_false]
        induction u.methods with
        | nil => rfl
        | cons m rest ih =>
          rw [List.map_cons, List.sum_cons, ← ih, List.filterMap_cons]
          cases i.policy.bodyInScope? u.name m <;> simp [Nat.add_comm]
      rw [bodies, free]
      rwa [List.map_const', List.sum_replicate_nat, Nat.mul_zero] at accounts
    · rw [CodeUnit.statementCount_eq_sum, u.statementCount_eq_sum, growth, Policy.unitDecisions,
        List.count_flatMap]
      rfl

/-- **The report of an injection without a fault is the plain count.** -/
theorem inject_report {r : Registry} {a : Allocator} {records : List ProbeRecord}
    {report : InjectionReport} (done : (i.inject r a).result = .ok (records, report)) :
    report.Counts i.policy r (i.inject r a).registry := by
  obtain ⟨units, q, sweeps, left, given⟩ := progress_of_inject done
  cases given
  have accounts := sweeps.accounts fun u p u' q step => (probeUnit_accounts step).1
  have growth := sweeps.growth fun u p u' q step => (probeUnit_accounts step).2
  have counted (d : Decision) : q.report.counted d = (i.policy.decisions r).count d := by
    have start : (Progress.start a).report.counted d = 0 := by cases d <;> rfl
    have whole := accounts.counted d
    rwa [start, Nat.zero_add] at whole
  have entries : q.report.skipped.entries =
      (Decision.exclusions.map fun d => (d, q.report.counted d)).filter fun e => e.2 ≠ 0 := rfl
  have keys : Decision.exclusions.Nodup := by decide
  constructor
  case probes => exact counted .admitted
  case skipped =>
    intro d
    rw [entries, lookup_filter_ne_zero, counted]
    simp only [Decision.mem_exclusions]
    by_cases listed : d ≠ .admitted ∧ (i.policy.decisions r).count d ≠ 0
    · rw [if_pos listed, if_neg (not_or.mpr listed)]
    · rw [if_neg listed, if_pos (Decidable.not_not.mp (mt not_or.mp listed))]
  case distinct =>
    rw [entries]
    refine List.Nodup.sublist (List.filter_sublist.map Prod.fst) ?_
    rwa [List.map_map, show Prod.fst ∘ (fun d => (d, q.report.counted d)) = id from rfl,
      List.map_id]
  case total =>
    have all := Decision.length_eq_count (i.policy.decisions r)
    rw [Policy.length_decisions] at all
    rw [entries, sum_filter_ne_zero, all]
    simp only [Decision.exclusions, List.map_cons, List.map_nil, List.sum_cons, List.sum_nil,
      Nat.add_zero, counted]
    rw [← counted .admitted]
    rfl
  case growth =>
    rw [left, show q.report.probes = _ from counted .admitted, Policy.decisions,
      List.count_flatMap]
    exact growth
  case bodies =>
    have whole := accounts.bodies
    rw [List.length_flatMap]
    simpa [Progress.start] using whole
  case units =>
    have whole := accounts.units
    have listed : (i.policy.unitsLeftAlone r).length = (r.units.map fun u =>
        if (i.policy.unitDecision? u.name).isSome then 1 else 0).sum := by
      rw [Policy.unitsLeftAlone, ← List.countP_eq_length_filter]
      induction r.units with
      | nil => rfl
      | cons u rest ih => rw [List.countP_cons, ih, List.map_cons, List.sum_cons, Nat.add_comm]
    rw [listed]
    simpa [Progress.start] using whole

theorem inject_report_mixed : ∃ records report,
    (Injector.scoped.inject .mixed (.counter 0)).result = .ok (records, report) ∧
      report.Counts Injector.scoped.policy .mixed
        (Injector.scoped.inject .mixed (.counter 0)).registry :=
  ⟨_, _, rfl, inject_report rfl⟩

example : Injector.scoped.policy.decisions .mixed =
    [.helperUnit] ++ List.replicate 6 .excludedNamespace ++
      [.identityBinding, .admitted, .admitted, .admitted, .identityBinding, .admitted] ++
      List.replicate 6 .outOfScope := by
  decide

end Injector

end Tracepoint
