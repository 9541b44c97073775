import Mathlib.Data.List.SplitLengths
import Tracepoint.Proofs.Probe.Records
import Tracepoint.Proofs.Probe.Success

/-!
# What identifiers, formats and load order have no part in

Two injections of the same units by the same policy and hook succeed together, whatever allocators,
formats and load orders they have, and then their reports are equal and what they make of each
method differs in identifiers and descriptions alone (`inject_concur`). The records are looked at
by method: each has as many as it gained statements (`Registry.shares`).
-/

namespace Tracepoint

/-! ### Cutting a list to size, twice -/

/-- A list cut into lists of lists, whose lengths are given. -/
def splitNested {α : Type} (counts : List (List Nat)) (xs : List α) : List (List (List α)) :=
  List.zipWith List.splitLengths counts ((counts.map List.sum).splitLengths xs)

section Split

variable {α β : Type}

theorem splitLengths_flatten (L : List (List α)) :
    (L.map List.length).splitLengths L.flatten = L := by
  induction L with
  | nil => rfl
  | cons xs rest ih => simp [ih]

theorem map_splitLengths (f : α → β) (counts : List Nat) (xs : List α) :
    (counts.splitLengths xs).map (List.map f) = counts.splitLengths (xs.map f) := by
  induction counts generalizing xs with
  | nil => rfl
  | cons n rest ih => simp [ih, List.map_take, List.map_drop]

theorem splitNested_cons (c : List Nat) (counts : List (List Nat)) (xs : List α) :
    splitNested (c :: counts) xs =
      c.splitLengths (xs.take c.sum) :: splitNested counts (xs.drop c.sum) := by
  simp [splitNested]

theorem splitNested_flatten (L : List (List (List α))) :
    splitNested (L.map (List.map List.length)) L.flatten.flatten = L := by
  induction L with
  | nil => rfl
  | cons xs rest ih =>
    have size : (xs.map List.length).sum = xs.flatten.length := List.length_flatten.symm
    rw [List.map_cons, splitNested_cons, size, List.flatten_cons, List.flatten_append,
      List.take_left, List.drop_left, splitLengths_flatten, ih]

theorem map_splitNested (f : α → β) (counts : List (List Nat)) (xs : List α) :
    (splitNested counts xs).map (List.map (List.map f)) = splitNested counts (xs.map f) := by
  induction counts generalizing xs with
  | nil => rfl
  | cons c rest ih =>
    rw [splitNested_cons, splitNested_cons, List.map_cons, ih, map_splitLengths, List.map_take,
      List.map_drop]

theorem flatten_splitNested {counts : List (List Nat)} {xs : List α}
    (enough : xs.length ≤ (counts.map List.sum).sum) :
    (splitNested counts xs).flatten.flatten = xs := by
  induction counts generalizing xs with
  | nil => simpa [splitNested, eq_comm] using enough
  | cons c rest ih =>
    rw [List.map_cons, List.sum_cons] at enough
    have first : (c.splitLengths (xs.take c.sum)).flatten = xs.take c.sum :=
      List.flatten_splitLengths _ _ (List.length_take_le _ _)
    rw [splitNested_cons, List.flatten_cons, List.flatten_append, first,
      ih (by rw [List.length_drop]; omega), List.take_append_drop]

end Split

/-! ### The records of each method -/

/-- How many statements each method of each unit gained. -/
def Registry.gainCounts (old new : Registry) : List (List Nat) :=
  List.zipWith
    (fun u v => List.zipWith (fun m m' => (m.gains u.name m').length) u.methods v.methods)
    old.units new.units

/-- The records of an injection by unit and method: each method has as many as it gained
statements. -/
def Registry.shares (old new : Registry) (records : List ProbeRecord) :
    List (List (List ProbeRecord)) :=
  splitNested (old.gainCounts new) records

/-- The records of one method, by the places of its unit and of the method in it. -/
def Registry.recordsAt (old new : Registry) (records : List ProbeRecord) (place : Nat × Nat) :
    List ProbeRecord :=
  ((old.shares new records).getD place.1 []).getD place.2 []

/-- What a record says besides the identifier. -/
def ProbeRecord.note (r : ProbeRecord) : String × String :=
  (r.owner, r.location)

/-- The statements of a method that the policy admits. -/
def Policy.admitted (p : Policy) (unit : String) (m : Method) : List Statement :=
  (m.body.elim [] Body.statements).filter fun s => p.admits s (m.signature unit) unit

/-- What the records of a method say besides their identifiers. -/
def Injector.notes (i : Injector) (unit : String) (m : Method) : List (String × String) :=
  (i.policy.admitted unit m).map fun s =>
    (m.signature unit, i.format.describe s (m.signature unit))

/-- What two injections made of one method differs in identifiers and descriptions alone. -/
structure Injector.Concur (i j : Injector) (unit : String) (m : Method) (b b' : Option Body)
    (records records' : List ProbeRecord) : Prop where
  body : b.map (m.body.getD .empty).withoutIds = b'.map (m.body.getD .empty).withoutIds
  /-- Each describes the admitted statements of the method, in order and in its own format. -/
  notes : records.map ProbeRecord.note = i.notes unit m ∧
    records'.map ProbeRecord.note = j.notes unit m
  owners : records.map ProbeRecord.owner = records'.map ProbeRecord.owner
  locations : i.format = j.format →
    records.map ProbeRecord.location = records'.map ProbeRecord.location

/-! ### Sweeps -/

section Sweep

variable {α β γ : Type} {f : α → Progress → α × Progress × Option Fault} {xs ys : List α}
  {p q : Progress}

/-- What a sweep adds to the records is what its steps add, read by any function on records. -/
theorem Sweeps.map_records {g : ProbeRecord → β} {added : α → List β} (h : Sweeps f xs p ys q)
    (steps : ∀ x ∈ xs, ∀ p y q, f x p = (y, q, none) →
      q.records.map g = p.records.map g ++ added x) :
    q.records.map g = p.records.map g ++ xs.flatMap added := by
  induction h with
  | nil p => simp
  | cons step later ih =>
    rw [ih fun x member => steps x (List.mem_cons_of_mem _ member),
      steps _ List.mem_cons_self _ _ _ step, List.flatMap_cons, List.append_assoc]

/-- A sweep changes each place as its step does. -/
theorem Sweeps.zipWith_eq {change : α → α → γ} {known : α → γ} (h : Sweeps f xs p ys q)
    (steps : ∀ x ∈ xs, ∀ p y q, f x p = (y, q, none) → change x y = known x) :
    List.zipWith change xs ys = xs.map known := by
  induction h with
  | nil p => rfl
  | cons step later ih =>
    rw [List.zipWith_cons_cons, List.map_cons, steps _ List.mem_cons_self _ _ _ step,
      ih fun x member => steps x (List.mem_cons_of_mem _ member)]

end Sweep

namespace Injector

open Body

variable {i j : Injector} {unit signature : String}

/-! ### What the records say -/

theorem note_recordsOf (a : Allocator) (statements : List Statement) :
    (i.recordsOf signature a statements).map ProbeRecord.note =
      (statements.filter fun s => !s.isIdentity).map
        fun s => (signature, i.format.describe s signature) := by
  induction statements generalizing a with
  | nil => rfl
  | cons s rest ih => cases kind : s.isIdentity <;> simp [recordsOf, kind, ih, ProbeRecord.note]

theorem admitted_of_inScope {p : Policy} (free : p.unitDecision? unit = none) {m : Method}
    {b : Body} (body : m.body = some b) (inside : p.inScope (m.signature unit) = true) :
    p.admitted unit m = b.statements.filter fun s => !s.isIdentity := by
  rw [Policy.admitted, body, Option.elim_some]
  congr 1
  funext s
  rw [Policy.admits, Policy.decide_of_inScope free inside]
  cases s.isIdentity <;> rfl

theorem admitted_of_not_inScope {p : Policy} {m : Method}
    (outside : p.inScope (m.signature unit) = false) : p.admitted unit m = [] := by
  rw [Policy.admitted, List.filter_eq_nil_iff]
  intro s _
  rw [Policy.admits, Policy.decide]
  cases decided : p.unitDecision? unit with
  | none => simp [outside]
  | some d => simp [Policy.unitDecision?_ne_admitted decided]

theorem admitted_of_unitDecision? {p : Policy} {d : Decision}
    (decided : p.unitDecision? unit = some d) (m : Method) : p.admitted unit m = [] := by
  rw [Policy.admitted, List.filter_eq_nil_iff]
  intro s _
  simp [Policy.admits, Policy.decide, decided, Policy.unitDecision?_ne_admitted decided]

theorem probeMethod_notes (free : i.policy.unitDecision? unit = none) {m m' : Method}
    {p q : Progress} (built : ∀ b, m.body = some b → b.Built)
    (done : i.probeMethod unit m p = (m', q, none)) :
    q.records.map ProbeRecord.note = p.records.map ProbeRecord.note ++ i.notes unit m := by
  rw [notes]
  cases methodStep_of_probeMethod done with
  | bodiless body => simp [Policy.admitted, body]
  | outside body outside =>
    rw [admitted_of_not_inScope outside, List.map_nil, List.append_nil]
    rfl
  | through body inside step =>
    rw [probeBody_records free inside (built _ body).labelled step, List.map_append,
      note_recordsOf, admitted_of_inScope free body inside]

theorem probeUnit_notes {u u' : CodeUnit} {p q : Progress}
    (built : ∀ m ∈ u.methods, ∀ b, m.body = some b → b.Built)
    (done : i.probeUnit u p = (u', q, none)) :
    q.records.map ProbeRecord.note =
      p.records.map ProbeRecord.note ++ u.methods.flatMap (i.notes u.name) := by
  cases unitStep_of_probeUnit done with
  | alone decided =>
    have nothing (m : Method) : i.notes u.name m = [] := by
      rw [notes, admitted_of_unitDecision? decided, List.map_nil]
    simp [nothing, Progress.skipUnit, Progress.skip]
  | through free sweeps =>
    exact sweeps.map_records fun m member p m' q => probeMethod_notes free (built m member)

/-! ### How many statements are gained -/

/-- What is gained is recorded, so there is as much of it as the records say. -/
theorem length_eq_of_forall₂ {p q : Progress} {gains : List Gain} {notes : List (String × String)}
    (gained : ∃ new, q.records = p.records ++ new ∧ List.Forall₂ i.Notes gains new)
    (noted : q.records.map ProbeRecord.note = p.records.map ProbeRecord.note ++ notes) :
    gains.length = notes.length := by
  obtain ⟨new, added, related⟩ := gained
  rw [added, List.map_append, List.append_cancel_left_eq] at noted
  rw [related.length_eq, ← noted, List.length_map]

theorem gainCounts_inject {r : Registry} (built : r.Built) {a : Allocator}
    {x : List ProbeRecord × InjectionReport} (done : (i.inject r a).result = .ok x) :
    r.gainCounts (i.inject r a).registry =
      r.units.map fun u => u.methods.map fun m => (i.notes u.name m).length := by
  obtain ⟨units, q, sweeps, left⟩ := sweeps_of_inject done
  rw [left, Registry.gainCounts]
  refine sweeps.zipWith_eq fun u unit p u' q step => ?_
  cases unitStep_of_probeUnit step with
  | alone decided =>
    rw [List.zipWith_self]
    refine List.map_congr_left fun m _ => ?_
    rw [Method.gains_self, notes, admitted_of_unitDecision? decided, List.map_nil]
    rfl
  | through free sweeps =>
    refine sweeps.zipWith_eq fun m method p m' q step => ?_
    exact length_eq_of_forall₂ (probeMethod_records free (built u unit m method) step)
      (probeMethod_notes free (built u unit m method) step)

/-- By unit and method, the records of an injection say what its format says of the statements
that the policy admits, and none is left over. -/
theorem notes_shares {r : Registry} (built : r.Built) {a : Allocator} {records : List ProbeRecord}
    {report : InjectionReport} (done : (i.inject r a).result = .ok (records, report)) :
    (r.shares (i.inject r a).registry records).map (List.map (List.map ProbeRecord.note)) =
        (r.units.map fun u => u.methods.map (i.notes u.name)) ∧
      (r.shares (i.inject r a).registry records).flatten.flatten = records := by
  have counts := gainCounts_inject built done
  have sizes : (r.units.map fun u => u.methods.map fun m => (i.notes u.name m).length) =
      (r.units.map fun u => u.methods.map (i.notes u.name)).map (List.map List.length) := by
    simp [Function.comp_def]
  obtain ⟨units, q, sweeps, -, given⟩ := progress_of_inject done
  cases given
  have noted := sweeps.map_records fun u member p u' q => probeUnit_notes (built u member)
  have flat : q.records.map ProbeRecord.note =
      (r.units.map fun u => u.methods.map (i.notes u.name)).flatten.flatten := by
    rw [noted, Progress.start, List.map_nil, List.nil_append, List.flatten_flatten, List.map_map,
      List.flatMap_def]
    rfl
  rw [Registry.shares, counts, sizes]
  constructor
  · rw [map_splitNested, flat, splitNested_flatten]
  · apply flatten_splitNested
    rw [← List.length_map ProbeRecord.note, flat, List.length_flatten,
      List.map_flatten, List.sum_flatten, List.map_map, List.map_map]

/-- The records of a method say what the format says of its statements that the policy admits. -/
theorem notes_recordsAt {r : Registry} (built : r.Built) {a : Allocator}
    {records : List ProbeRecord} {report : InjectionReport}
    (done : (i.inject r a).result = .ok (records, report)) {k n : Nat} {u : CodeUnit} {m : Method}
    (unitHere : r.units[k]? = some u) (methodHere : u.methods[n]? = some m) :
    (r.recordsAt (i.inject r a).registry records (k, n)).map ProbeRecord.note =
      i.notes u.name m := by
  have read := (notes_shares built done).1
  have units := congrArg (·[k]?) read
  simp only [List.getElem?_map, unitHere, Option.map_some, Option.map_eq_some_iff] at units
  obtain ⟨share, shareHere, units⟩ := units
  have methods := congrArg (·[n]?) units
  simp only [List.getElem?_map, methodHere, Option.map_some, Option.map_eq_some_iff] at methods
  obtain ⟨own, ownHere, said⟩ := methods
  simpa [Registry.recordsAt, List.getD_eq_getElem?_getD, shareHere, ownHere] using said

/-! ### What the bodies become -/

/-- A method that an injection does not go through keeps its body. -/
theorem bodyAt?_of_not_reaches {r : Registry} {a : Allocator}
    {x : List ProbeRecord × InjectionReport} (done : (i.inject r a).result = .ok x)
    {place : Nat × Nat} {u : CodeUnit} {m : Method} (unitHere : r.units[place.1]? = some u)
    (methodHere : u.methods[place.2]? = some m) (apart : ∀ b, ¬ i.Reaches r place b) :
    (i.inject r a).registry.bodyAt? place = m.body := by
  cases free : i.policy.unitDecision? u.name with
  | some d => exact bodyAt?_of_unitDecision? done unitHere methodHere free
  | none =>
    obtain ⟨p, m', q, step, left⟩ := exists_methodStep done unitHere methodHere free
    rw [left]
    cases step with
    | bodiless | outside => rfl
    | through body inside =>
      exact absurd (.body unitHere methodHere body free inside) (apart _)

/-- One method comes to the same body in two injections up to identifiers. -/
theorem withoutIds_bodyAt? (policy : i.policy = j.policy) (hook : i.hook = j.hook)
    {r s : Registry} (built : r.Built) (built' : s.Built) {a c : Allocator}
    {x y : List ProbeRecord × InjectionReport} (done : (i.inject r a).result = .ok x)
    (done' : (j.inject s c).result = .ok y) {k k' n : Nat} {u : CodeUnit} {m : Method}
    (unitHere : r.units[k]? = some u) (unitThere : s.units[k']? = some u)
    (methodHere : u.methods[n]? = some m) :
    ((i.inject r a).registry.bodyAt? (k, n)).map (m.body.getD .empty).withoutIds =
      ((j.inject s c).registry.bodyAt? (k', n)).map (m.body.getD .empty).withoutIds := by
  by_cases through : ∃ b, i.Reaches r (k, n) b
  · obtain ⟨b, reached⟩ := through
    obtain ⟨-, room, a', -, left⟩ := reached.exists_woven built done
    obtain @⟨v, o, unit, method, body, free, inside⟩ := reached
    cases unitHere.symm.trans unit
    cases methodHere.symm.trans method
    rw [policy] at free inside
    have reached' : j.Reaches s (k', n) b := .body unitThere method body free inside
    obtain ⟨-, -, c', -, left'⟩ := reached'.exists_woven built' done'
    rw [left, left', body, Option.getD_some, Option.map_some, Option.map_some, hook,
      withoutIds_woven room a' c']
  · have apart (b : Body) : ¬ j.Reaches s (k', n) b := by
      rintro @⟨v, o, unit, method, body, free, inside⟩
      cases unitThere.symm.trans unit
      cases methodHere.symm.trans method
      rw [← policy] at free inside
      exact through ⟨b, .body unitHere method body free inside⟩
    rw [bodyAt?_of_not_reaches done unitHere methodHere (not_exists.mp through),
      bodyAt?_of_not_reaches done' unitThere methodHere apart]

/-! ### What the reports say -/

/-- A report is known by what it counts. -/
theorem report_ext {q q' : InjectionReport} (counted : ∀ d, q.counted d = q'.counted d)
    (bodies : q.bodiesProbed = q'.bodiesProbed) (units : q.unitsSkipped = q'.unitsSkipped) :
    q = q' := by
  obtain ⟨probes, _, _, ⟨helperUnit, excludedNamespace, outOfScope, identityBinding⟩⟩ := q
  cases bodies
  cases units
  cases counted .admitted
  cases counted .helperUnit
  cases counted .excludedNamespace
  cases counted .outOfScope
  cases counted .identityBinding
  rfl

/-- What an injection without a fault reports does not depend on the order of the units. -/
theorem report_inject_perm (policy : i.policy = j.policy) {r s : Registry}
    (units : r.units.Perm s.units) {a c : Allocator} {records records' : List ProbeRecord}
    {report report' : InjectionReport} (done : (i.inject r a).result = .ok (records, report))
    (done' : (j.inject s c).result = .ok (records', report')) : report = report' := by
  obtain ⟨_, p, sweeps, -, given⟩ := progress_of_inject done
  obtain ⟨_, q, sweeps', -, given'⟩ := progress_of_inject done'
  cases given
  cases given'
  have accounts := sweeps.accounts fun u p u' q step => (probeUnit_accounts step).1
  have accounts' := sweeps'.accounts fun u p u' q step => (probeUnit_accounts step).1
  rw [← policy] at accounts'
  apply report_ext
  · intro d
    have start : (Progress.start a).report.counted d = (Progress.start c).report.counted d := rfl
    rw [accounts.counted, accounts'.counted, start, (units.flatMap_right _).count_eq]
  · rw [accounts.bodies, accounts'.bodies, (units.map _).sum_nat]
    rfl
  · rw [accounts.units, accounts'.units, (units.map _).sum_nat]
    rfl

/-! ### Two injections -/

/-- **Identifiers, formats and load order influence nothing but themselves.** -/
theorem inject_concur (policy : i.policy = j.policy) (hook : i.hook = j.hook) {r s : Registry}
    (units : r.units.Perm s.units) (built : r.Built) (a c : Allocator) :
    ((∃ x, (i.inject r a).result = .ok x) ↔ ∃ x, (j.inject s c).result = .ok x) ∧
      ∀ records report records' report', (i.inject r a).result = .ok (records, report) →
        (j.inject s c).result = .ok (records', report') →
        report = report' ∧
          (r.shares (i.inject r a).registry records).flatten.flatten = records ∧
          (s.shares (j.inject s c).registry records').flatten.flatten = records' ∧
          ∀ k k' n u m, r.units[k]? = some u → s.units[k']? = some u → u.methods[n]? = some m →
            i.Concur j u.name m ((i.inject r a).registry.bodyAt? (k, n))
              ((j.inject s c).registry.bodyAt? (k', n))
              (r.recordsAt (i.inject r a).registry records (k, n))
              (s.recordsAt (j.inject s c).registry records' (k', n)) := by
  have built' : s.Built := fun u member => built u (units.mem_iff.mpr member)
  constructor
  · rw [exists_inject_eq_ok_iff built, exists_inject_eq_ok_iff built', policy, hook]
    exact forall_congr' fun u => imp_congr_left units.mem_iff
  · intro records report records' report' done done'
    refine ⟨report_inject_perm policy units done done', (notes_shares built done).2,
      (notes_shares built' done').2, ?_⟩
    intro k k' n u m unitHere unitThere methodHere
    have notes := notes_recordsAt built done unitHere methodHere
    have notes' := notes_recordsAt built' done' unitThere methodHere
    have admitted : i.policy.admitted u.name m = j.policy.admitted u.name m := by rw [policy]
    refine ⟨withoutIds_bodyAt? policy hook built built' done done' unitHere unitThere methodHere,
      ⟨notes, notes'⟩, ?_, fun format => ?_⟩
    · have owners := congrArg (List.map Prod.fst) notes
      have owners' := congrArg (List.map Prod.fst) notes'
      rw [List.map_map, Injector.notes, List.map_map] at owners owners'
      rw [admitted] at owners
      exact owners.trans owners'.symm
    · have locations := congrArg (List.map Prod.snd) notes
      have locations' := congrArg (List.map Prod.snd) notes'
      rw [List.map_map, Injector.notes, List.map_map] at locations locations'
      rw [admitted, format] at locations
      exact locations.trans locations'.symm

theorem inject_concur_mixed : ∃ i j : Injector, ∃ r s : Registry,
    i.policy = j.policy ∧ i.hook = j.hook ∧ r.units.Perm s.units ∧ r.Built ∧
      i.format.describe ≠ j.format.describe ∧ r.units ≠ s.units ∧
      ∃ records report records', (i.inject r (.counter 7)).result = .ok (records, report) ∧
        (j.inject s (.tokens (fun n => .ofNat 128 n) 0)).result = .ok (records', report) ∧
        records.length = 4 ∧
        i.Concur j "a.B" ⟨"f", [], .void, some .sample⟩
          ((i.inject r (.counter 7)).registry.bodyAt? (2, 0))
          ((j.inject s (.tokens (fun n => .ofNat 128 n) 0)).registry.bodyAt? (1, 0))
          (r.recordsAt (i.inject r (.counter 7)).registry records (2, 0))
          (s.recordsAt (j.inject s (.tokens (fun n => .ofNat 128 n) 0)).registry records'
            (1, 0)) := by
  let j : Injector := { Injector.scoped with format := LocationFormat.statement }
  let s : Registry := { Registry.mixed with units := Registry.mixed.units.reverse }
  have formats : Injector.scoped.format.describe ≠ j.format.describe := fun same =>
    absurd (congrFun (congrFun same ⟨⟨0⟩, .ret none⟩) "f") (by decide)
  have orders : Registry.mixed.units ≠ s.units := by decide
  obtain ⟨-, agree⟩ := inject_concur (i := .scoped) (j := j) rfl rfl
    (r := .mixed) (s := s) (List.reverse_perm _).symm Registry.built_mixed (.counter 7)
    (.tokens (fun n => .ofNat 128 n) 0)
  obtain ⟨-, -, -, concur⟩ := agree _ _ _ _ rfl rfl
  exact ⟨.scoped, j, .mixed, s, rfl, rfl, (List.reverse_perm _).symm, Registry.built_mixed,
    formats, orders, _, _, _, rfl, rfl, rfl, concur 2 1 0 _ _ rfl rfl rfl⟩

end Injector

end Tracepoint
