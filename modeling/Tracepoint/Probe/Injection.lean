import Tracepoint.Probe.Hook
import Tracepoint.Probe.Location
import Tracepoint.Manifest
import Tracepoint.Policy

/-!
# Injection of probes

Injection walks the units in load order, their methods in order of declaration and the
statements of each body as they stood when the body was reached, and inserts a call of the
hook in front of every statement that the policy admits. A body is judged when all its
probes are in. A run that fails leaves what it has inserted and keeps the identifiers it
used.
-/

namespace Tracepoint

/-- How many statements were left alone, by the decision for them. -/
structure SkipTally where
  helperUnit : Nat := 0
  excludedNamespace : Nat := 0
  outOfScope : Nat := 0
  identityBinding : Nat := 0
  deriving DecidableEq, Repr, Inhabited

namespace SkipTally

/-- Counts some statements under a decision. -/
def add (t : SkipTally) (d : Decision) (n : Nat) : SkipTally :=
  match d with
  | .admitted => t
  | .helperUnit => { t with helperUnit := t.helperUnit + n }
  | .excludedNamespace => { t with excludedNamespace := t.excludedNamespace + n }
  | .outOfScope => { t with outOfScope := t.outOfScope + n }
  | .identityBinding => { t with identityBinding := t.identityBinding + n }

/-- The decisions that were made at all, with their counts. -/
def entries (t : SkipTally) : List (Decision × Nat) :=
  [(.helperUnit, t.helperUnit), (.excludedNamespace, t.excludedNamespace),
    (.outOfScope, t.outOfScope), (.identityBinding, t.identityBinding)].filter fun e => e.2 ≠ 0

end SkipTally

/-- What an injection did. -/
structure InjectionReport where
  probes : Nat := 0
  bodiesProbed : Nat := 0
  unitsSkipped : Nat := 0
  skipped : SkipTally := {}
  deriving DecidableEq, Repr, Inhabited

/-- The rules of an injection. -/
structure Injector where
  policy : Policy
  hook : Hook
  format : LocationFormatter

/-- How far an injection has come: the identifiers left to hand out, the records of the
probes so far, in order, and the report on what was done. -/
structure Progress where
  allocator : Allocator
  records : List ProbeRecord
  report : InjectionReport

namespace Progress

/-- The start of an injection. -/
def start (a : Allocator) : Progress :=
  ⟨a, [], {}⟩

/-- Counts statements that were left alone. -/
def skip (p : Progress) (d : Decision) (n : Nat) : Progress :=
  { p with report := { p.report with skipped := p.report.skipped.add d n } }

/-- Counts a unit that was left alone. -/
def skipUnit (p : Progress) (d : Decision) (n : Nat) : Progress :=
  { p.skip d n with
    report := { (p.skip d n).report with unitsSkipped := p.report.unitsSkipped + 1 } }

/-- Notes a probe that was inserted. -/
def record (p : Progress) (r : ProbeRecord) : Progress :=
  { p with
    records := p.records ++ [r]
    report := { p.report with probes := p.report.probes + 1 } }

/-- Counts a body that was gone through. -/
def finishBody (p : Progress) : Progress :=
  { p with report := { p.report with bodiesProbed := p.report.bodiesProbed + 1 } }

end Progress

namespace Injector

/-- Inserts the probes for some statements of a body. -/
def probeStatements (i : Injector) (unit signature : String) :
    List Statement → Body → Progress → Body × Progress × Option Fault
  | [], b, p => (b, p, none)
  | s :: rest, b, p =>
    match i.policy.decide s signature unit with
    | .admitted =>
      let (id, allocator) := p.allocator.next
      let p := { p with allocator }
      match b.insertBefore (i.hook.call id) s.label with
      | (b, some _) =>
        probeStatements i unit signature rest b
          (p.record ⟨id, i.format.describe s signature, signature⟩)
      | (b, none) =>
        let cause :=
          if (b.get? s.label).isSome then .labelsExhausted else .missingStatement s.label
        (b, p, some (.invalidBody signature cause))
    | d => probeStatements i unit signature rest b (p.skip d 1)

/-- Inserts the probes for a body and judges the result. -/
def probeBody (i : Injector) (unit signature : String) (b : Body) (p : Progress) :
    Body × Progress × Option Fault :=
  match i.probeStatements unit signature b.statements b p with
  | (b, p, some e) => (b, p, some e)
  | (b, p, none) =>
    match b.fault? with
    | some e => (b, p, some (.invalidBody signature e))
    | none => (b, p.finishBody, none)

/-- Inserts the probes for a method of a unit. -/
def probeMethod (i : Injector) (unit : String) (m : Method) (p : Progress) :
    Method × Progress × Option Fault :=
  match m.body with
  | none => (m, p, none)
  | some b =>
    if i.policy.inScope (m.signature unit) then
      let (b, p, fault) := i.probeBody unit (m.signature unit) b p
      ({ m with body := some b }, p, fault)
    else (m, p.skip .outOfScope b.length, none)

/-- Inserts the probes for the methods of a unit up to the first fault. -/
def probeMethods (i : Injector) (unit : String) :
    List Method → Progress → List Method × Progress × Option Fault
  | [], p => ([], p, none)
  | m :: rest, p =>
    match i.probeMethod unit m p with
    | (m, p, some e) => (m :: rest, p, some e)
    | (m, p, none) =>
      let (rest, p, fault) := probeMethods i unit rest p
      (m :: rest, p, fault)

/-- Inserts the probes for a unit unless the policy leaves it alone as a whole. -/
def probeUnit (i : Injector) (u : CodeUnit) (p : Progress) :
    CodeUnit × Progress × Option Fault :=
  match i.policy.unitDecision? u.name with
  | some d => (u, p.skipUnit d u.statementCount, none)
  | none =>
    let (methods, p, fault) := i.probeMethods u.name u.methods p
    ({ u with methods }, p, fault)

/-- Inserts the probes for units up to the first fault. -/
def probeUnits (i : Injector) :
    List CodeUnit → Progress → List CodeUnit × Progress × Option Fault
  | [], p => ([], p, none)
  | u :: rest, p =>
    match i.probeUnit u p with
    | (u, p, some e) => (u :: rest, p, some e)
    | (u, p, none) =>
      let (rest, p, fault) := probeUnits i rest p
      (u :: rest, p, fault)

/-- What an injection leaves: the registry with what was inserted, the identifiers left to
hand out, and the records and the report, or the fault that ended it. -/
structure Outcome where
  registry : Registry
  allocator : Allocator
  result : Except Fault (List ProbeRecord × InjectionReport)

/-- Injects probes into all units of a registry. -/
def inject (i : Injector) (r : Registry) (a : Allocator) : Outcome :=
  let (units, p, fault) := i.probeUnits r.units (.start a)
  ⟨{ r with units }, p.allocator,
    match fault with
    | some e => .error e
    | none => .ok (p.records, p.report)⟩

end Injector

end Tracepoint
