import Tracepoint.Proofs.Code.Validity
import Tracepoint.Proofs.Probe.Injection
import Tracepoint.Proofs.Probe.Positions

/-!
# Verdicts on woven bodies

A body whose references all name statements breaks the same rule first as its woven form, or
none as that does, when the hook takes the operands of a probe (`rule_fault?_woven`). When it
does not, the first probe of a valid body is at fault (`fault?_woven_of_refuses`). The parts of
the judgement are compared one by one, up to positions: positions move, rules do not.
-/

namespace Tracepoint

/-- Whether the declared parameters of the hook take a text, a text and a number. -/
def Hook.Accepts (h : Hook) : Prop :=
  ∃ first second third, h.method.params = [first, second, third] ∧
    (∀ s, (Operand.stringConst s).fits first = true) ∧
    (∀ s, (Operand.stringConst s).fits second = true) ∧
    ∀ k, (Operand.intConst k).fits third = true

/-! ### The shape of statements -/

theorem Statement.bindsEntry_eq_false {s : Statement} (ordinary : s.isIdentity = false) :
    s.code.bindsEntry = false := by
  obtain ⟨label, code⟩ := s
  cases code <;> first | rfl | simp [isIdentity, kind, Instruction.kind] at ordinary

theorem Statement.catchesException_eq_false {s : Statement} (ordinary : s.isIdentity = false) :
    s.code.catchesException = false := by
  obtain ⟨label, code⟩ := s
  cases code <;> first | rfl | simp [isIdentity, kind, Instruction.kind] at ordinary

theorem Statement.branchTarget?_eq_none {s : Statement} (identity : s.isIdentity) :
    s.code.branchTarget? = none := by
  obtain ⟨target, source, code⟩ := exists_identity identity
  rw [code]
  rfl

namespace Body

variable {h : Hook} {f : Label → Label} {n : Nat} {a : Allocator} {b : Body} {s : Statement}
  {rest statements : List Statement} {t : Trap} {p q : Nat}

/-! ### References of the woven form -/

/-- The jumps of the woven form are those of the body, led: probes do not jump. -/
theorem jumps_weaveFrom :
    (weaveFrom h f n a statements).filterMap (·.code.branchTarget?) =
      (statements.filterMap (·.code.branchTarget?)).map f := by
  induction statements generalizing n a with
  | nil => rfl
  | cons s rest ih =>
    cases kind : s.isIdentity with
    | true =>
      have straight := s.branchTarget?_eq_none kind
      simp only [weaveFrom_cons_identity kind, List.filterMap_cons, straight, ih]
    | false =>
      have probe : (h.call a.next.1).branchTarget? = none := rfl
      rw [weaveFrom_cons_ordinary kind]
      cases jump : s.code.branchTarget? with
      | none => simp [Statement.retarget, probe, jump, ih]
      | some l => simp [Statement.retarget, probe, jump, ih]

/-- The references of the woven form are those of the body, led. -/
theorem references_woven (h : Hook) (a : Allocator) (b : Body) :
    (b.woven h a).references = b.references.map b.lead := by
  have traps : (b.traps.map (Trap.retarget b.lead)).flatMap Trap.references =
      (b.traps.flatMap Trap.references).map b.lead := by
    rw [List.flatMap_map, List.map_flatMap]
    rfl
  rw [references, references, List.map_append, woven, jumps_weaveFrom, traps]

/-- A reference to a statement leads to a statement. -/
theorem Labelled.lead_mem (labelled : b.Labelled) (room : b.HasRoom) {l : Label}
    (named : l ∈ b.labels) : b.lead l ∈ (b.woven h a).labels := by
  obtain ⟨p, place⟩ := exists_position named
  rw [← position?_isSome_iff, labelled.position?_lead room place]
  rfl

theorem Resolved.woven (resolved : b.Resolved) (labelled : b.Labelled) (room : b.HasRoom) :
    (b.woven h a).Resolved := by
  intro l member
  rw [references_woven] at member
  obtain ⟨k, reference, rfl⟩ := List.mem_map.mp member
  exact labelled.lead_mem room (resolved k reference)

/-! ### Identities -/

/-- A probe stands in front of a statement that is ordinary itself, so no binding comes to
follow an ordinary statement that did not before. -/
theorem rule_identityFault?_weaveFrom (seen : Bool) (p q : Nat) :
    (identityFault? seen q (weaveFrom h f n a statements)).map BodyFault.rule =
      (identityFault? seen p statements).map BodyFault.rule := by
  induction statements generalizing n a seen p q with
  | nil => rfl
  | cons s rest ih =>
    cases kind : s.isIdentity with
    | true =>
      rw [weaveFrom_cons_identity kind, identityFault?, identityFault?]
      split
      · rfl
      · exact ih _ _ _
    | false =>
      have straight := s.bindsEntry_eq_false kind
      have straight' : (s.retarget f).code.bindsEntry = false :=
        Statement.bindsEntry_eq_false (by rw [Statement.isIdentity_retarget, kind])
      have probe : (h.call a.next.1).bindsEntry = false := rfl
      have ordinary : Statement.isIdentity ⟨.ofNat n, h.call a.next.1⟩ = false := rfl
      rw [weaveFrom_cons_ordinary kind]
      simp only [identityFault?, probe, straight, straight', ordinary,
        Statement.isIdentity_retarget, kind, Bool.false_and, Bool.not_false, Bool.or_true]
      exact ih _ _ _

theorem rule_identityFault?_woven (h : Hook) (a : Allocator) (b : Body) :
    (identityFault? false 0 (b.woven h a).statements).map BodyFault.rule =
      (identityFault? false 0 b.statements).map BodyFault.rule :=
  rule_identityFault?_weaveFrom false 0 0

/-! ### Calls -/

/-- The rule that the operands of a statement break. -/
def callRule? (s : Statement) : Option BodyRule :=
  (callFault? 0 s.code).map BodyFault.rule

theorem rule_operandFault? (p q : Nat) (callee : MethodRef) (index : Nat) (args : List Operand)
    (params : List ValueType) :
    (operandFault? p callee index args params).map BodyFault.rule =
      (operandFault? q callee index args params).map BodyFault.rule := by
  induction args generalizing index params with
  | nil => rfl
  | cons arg args ih =>
    cases params with
    | nil => rfl
    | cons param params =>
      rw [operandFault?, operandFault?]
      split
      · exact ih _ _
      · rfl

/-- Which rule the operands break does not depend on the position. -/
theorem rule_callFault? (p : Nat) (s : Statement) :
    (callFault? p s.code).map BodyFault.rule = callRule? s := by
  rw [callRule?]
  cases s.code with
  | invoke callee args =>
    rw [callFault?, callFault?]
    split
    · rfl
    · exact rule_operandFault? _ _ _ _ _ _
  | _ => rfl

theorem callRule?_retarget (f : Label → Label) (s : Statement) :
    callRule? (s.retarget f) = callRule? s := by
  obtain ⟨label, code⟩ := s
  cases code <;> rfl

theorem callFault?_call (accepts : h.Accepts) (p : Nat) (id : ProbeId) :
    callFault? p (h.call id) = none := by
  obtain ⟨first, second, third, params, fit₁, fit₂, fit₃⟩ := accepts
  simp [callFault?, Hook.call, Hook.arguments, params, operandFault?, fit₁, fit₂, fit₃]

/-- Whether a text fits does not depend on the text, and likewise for numbers. -/
theorem fits_stringConst (s s' : String) (t : ValueType) :
    (Operand.stringConst s).fits t = (Operand.stringConst s').fits t := by
  cases t <;> rfl

theorem fits_intConst (k k' : Int32) (t : ValueType) :
    (Operand.intConst k).fits t = (Operand.intConst k').fits t := by
  cases t <;> rfl

/-- Whether a fault is a count or a type of the operands of a call of the hook at a position. -/
def IsCallFault (h : Hook) (p : Nat) (e : BodyFault) : Prop :=
  e = .argumentCount p h.method.render h.method.params.length 3 ∨
    ∃ index value expected, e = .argumentType p h.method.render index value expected

/-- The operands in front are at no fault when the first of them fits and no later one is. -/
theorem operandFault?_cons_eq_none_iff {callee : MethodRef} {index : Nat} {arg : Operand}
    {args : List Operand} {param : ValueType} {params : List ValueType} :
    operandFault? p callee index (arg :: args) (param :: params) = none ↔
      arg.fits param = true ∧ operandFault? p callee (index + 1) args params = none := by
  rw [operandFault?]
  split <;> simp_all

/-- The operands are at fault by the type of one of them. -/
theorem operandFault?_eq_some {callee : MethodRef} {index : Nat} {args : List Operand}
    {params : List ValueType} {e : BodyFault}
    (fault : operandFault? p callee index args params = some e) :
    ∃ k value expected, e = .argumentType p callee.render k value expected := by
  induction args generalizing index params with
  | nil => cases fault
  | cons arg args ih =>
    cases params with
    | nil => cases fault
    | cons param params =>
      rw [operandFault?] at fault
      split at fault
      · exact ih fault
      · cases fault
        exact ⟨_, _, _, rfl⟩

/-- A hook that does not take the operands of a probe makes every probe a fault. -/
theorem exists_callFault?_call (refuses : ¬ h.Accepts) (p : Nat) (id : ProbeId) :
    ∃ e, callFault? p (h.call id) = some e ∧ IsCallFault h p e := by
  by_cases count : h.method.params.length = 3
  · have operands : callFault? p (h.call id) =
        operandFault? p h.method 0 (h.arguments id) h.method.params := by
      simp [callFault?, Hook.call, Hook.arguments, count]
    rw [operands]
    cases fault : operandFault? p h.method 0 (h.arguments id) h.method.params with
    | some e => exact ⟨e, rfl, .inr (operandFault?_eq_some fault)⟩
    | none =>
      refine absurd ?_ refuses
      obtain ⟨first, second, third, params⟩ :
          ∃ first second third, h.method.params = [first, second, third] := by
        match given : h.method.params, count with
        | [first, second, third], _ => exact ⟨first, second, third, rfl⟩
      simp only [params, Hook.arguments, operandFault?_cons_eq_none_iff] at fault
      obtain ⟨fit₁, fit₂, fit₃, -⟩ := fault
      refine ⟨first, second, third, params, ?_, ?_, ?_⟩
      · intro s
        rw [fits_stringConst s, fit₁]
      · intro s
        rw [fits_stringConst s, fit₂]
      · intro k
        rw [fits_intConst k, fit₃]
  · refine ⟨_, ?_, .inl rfl⟩
    simp [callFault?, Hook.call, Hook.arguments, count]

/-! ### Statements -/

/-- A statement whose jump is resolved is at fault by its operands only. -/
theorem rule_statementsFault? (resolved : ∀ s ∈ statements, ∀ l,
    s.code.branchTarget? = some l → l ∈ b.labels) (p : Nat) :
    (b.statementsFault? p statements).map BodyFault.rule = statements.findSome? callRule? := by
  induction statements generalizing p with
  | nil => rfl
  | cons s rest ih =>
    have jump : b.branchFault? p s.code = none :=
      branchFault?_eq_none_iff.mpr (resolved s List.mem_cons_self)
    have later := ih (fun t member => resolved t (List.mem_cons_of_mem _ member)) (p + 1)
    rw [statementsFault?, statementFault?, jump, Option.none_or, Option.map_or, rule_callFault?,
      later, List.findSome?_cons]
    cases callRule? s <;> rfl

theorem Resolved.rule_statementsFault? (resolved : b.Resolved) (p : Nat) :
    (b.statementsFault? p b.statements).map BodyFault.rule =
      b.statements.findSome? callRule? :=
  Body.rule_statementsFault?
    (fun _ member _ jump => resolved.of_jump member jump) p

/-- Probes whose operands the hook takes break no rule. -/
theorem findSome?_callRule?_weaveFrom (accepts : h.Accepts) :
    (weaveFrom h f n a statements).findSome? callRule? = statements.findSome? callRule? := by
  induction statements generalizing n a with
  | nil => rfl
  | cons s rest ih =>
    cases kind : s.isIdentity with
    | true => rw [weaveFrom_cons_identity kind, List.findSome?_cons, List.findSome?_cons, ih]
    | false =>
      have probe : callRule? ⟨.ofNat n, h.call a.next.1⟩ = none := by
        rw [callRule?, callFault?_call accepts]
        rfl
      rw [weaveFrom_cons_ordinary kind, List.findSome?_cons, probe]
      simp only [List.findSome?_cons, callRule?_retarget, ih]

/-! ### Traps -/

/-- A handler catches the exception in the woven form when it does in the body: a binding of the
exception gets no probe, and every other handler is no binding, nor is its probe. -/
theorem Labelled.get?_lead (labelled : b.Labelled) (room : b.HasRoom) {l : Label}
    (named : l ∈ b.labels) : ∃ s s', b.get? l = some s ∧
      (b.woven h a).get? (b.lead l) = some s' ∧
      s'.code.catchesException = s.code.catchesException := by
  obtain ⟨p, place⟩ := exists_position named
  have there := labelled.position?_lead (h := h) (a := a) room place
  obtain ⟨s, here, rfl⟩ :=
    getElem?_labels_iff.mp ((position?_eq_some_iff labelled.distinct).mp place)
  rw [get?_eq_bind_position?, get?_eq_bind_position?, place, there, Option.bind_some,
    Option.bind_some]
  cases kind : s.isIdentity with
  | true =>
    refine ⟨s, s.retarget b.lead, here, ?_, s.code.catchesException_retarget _⟩
    rw [← site_of_isIdentity here kind]
    exact getElem?_site here
  | false =>
    refine ⟨s, _, here, getElem?_front here kind, ?_⟩
    rw [s.catchesException_eq_false kind]
    rfl

/-- A trap whose references are resolved is judged alike in the woven form: the order of its
boundaries stays, and so does what its handler catches. -/
theorem Labelled.trapFault?_woven (labelled : b.Labelled) (room : b.HasRoom)
    (resolved : ∀ l ∈ t.references, l ∈ b.labels) :
    (b.woven h a).trapFault? (t.retarget b.lead) = b.trapFault? t := by
  obtain ⟨first, firstHere⟩ := exists_position (resolved t.first (by simp [Trap.references]))
  obtain ⟨stop, stopHere⟩ := exists_position (resolved t.stop (by simp [Trap.references]))
  obtain ⟨s, s', handlerHere, handlerThere, catches⟩ :=
    labelled.get?_lead (h := h) (a := a) room (resolved t.handler (by simp [Trap.references]))
  have firstThere := labelled.position?_lead (h := h) (a := a) room firstHere
  have stopThere := labelled.position?_lead (h := h) (a := a) room stopHere
  simp only [trapFault?, Trap.retarget, firstHere, stopHere, handlerHere, firstThere, stopThere,
    handlerThere, catches, front_le_front_iff]

theorem Labelled.findSome?_trapFault?_woven (labelled : b.Labelled) (room : b.HasRoom)
    {traps : List Trap} (resolved : ∀ t ∈ traps, ∀ l ∈ t.references, l ∈ b.labels) :
    (traps.map (Trap.retarget b.lead)).findSome? (b.woven h a).trapFault? =
      traps.findSome? b.trapFault? := by
  induction traps with
  | nil => rfl
  | cons t rest ih =>
    rw [List.map_cons, List.findSome?_cons, List.findSome?_cons,
      labelled.trapFault?_woven room (resolved t List.mem_cons_self),
      ih fun u member => resolved u (List.mem_cons_of_mem _ member)]

/-! ### The end -/

/-- The woven form ends with the last statement. -/
theorem getLast?_weaveFrom :
    (weaveFrom h f n a statements).getLast? = statements.getLast?.map (Statement.retarget f) := by
  induction statements generalizing n a with
  | nil => rfl
  | cons s rest ih =>
    cases kind : s.isIdentity with
    | true =>
      rw [weaveFrom_cons_identity kind, List.getLast?_cons, List.getLast?_cons, ih,
        Option.map_some, ← Option.getD_map (Statement.retarget f) s,
        Statement.retarget_of_isIdentity kind]
    | false =>
      rw [weaveFrom_cons_ordinary kind, List.getLast?_cons_cons, List.getLast?_cons,
        List.getLast?_cons, ih, Option.map_some, Option.getD_map]

theorem rule_endFault?_weaveFrom :
    (endFault? (weaveFrom h f n a statements)).map BodyFault.rule =
      (endFault? statements).map BodyFault.rule := by
  rw [endFault?, endFault?, getLast?_weaveFrom]
  cases statements.getLast? with
  | none => rfl
  | some last =>
    have falls : (last.retarget f).code.fallsThrough = last.code.fallsThrough :=
      last.code.fallsThrough_retarget f
    simp only [Option.map_some, falls]
    split <;> rfl

theorem isEmpty_weaveFrom : (weaveFrom h f n a statements).isEmpty = statements.isEmpty := by
  cases statements with
  | nil => rfl
  | cons s rest => cases kind : s.isIdentity <;> simp [kind]

/-! ### The judgement -/

/-- **The woven form breaks the rule that the body breaks first**, or none as the body does. -/
theorem Labelled.rule_fault?_woven (labelled : b.Labelled) (room : b.HasRoom)
    (resolved : b.Resolved) (accepts : h.Accepts) :
    (b.woven h a).fault?.map BodyFault.rule = b.fault?.map BodyFault.rule := by
  have empty : (b.woven h a).statements.isEmpty = b.statements.isEmpty := isEmpty_weaveFrom
  have identities := rule_identityFault?_woven h a b
  have calls : ((b.woven h a).statementsFault? 0 (b.woven h a).statements).map BodyFault.rule =
      (b.statementsFault? 0 b.statements).map BodyFault.rule := by
    rw [(resolved.woven labelled room).rule_statementsFault?, resolved.rule_statementsFault?]
    exact findSome?_callRule?_weaveFrom accepts
  have traps : (b.woven h a).traps.findSome? (b.woven h a).trapFault? =
      b.traps.findSome? b.trapFault? :=
    labelled.findSome?_trapFault?_woven room
      fun t member l named => resolved.of_trap member named
  have ends : (endFault? (b.woven h a).statements).map BodyFault.rule =
      (endFault? b.statements).map BodyFault.rule := rule_endFault?_weaveFrom
  unfold fault?
  rw [empty]
  split
  · rfl
  · simp only [Option.map_or, identities, calls, traps, ends]

/-! ### A hook that refuses -/

theorem statementsFault?_append (p : Nat) (before after : List Statement) :
    b.statementsFault? p (before ++ after) =
      (b.statementsFault? p before).or (b.statementsFault? (p + before.length) after) := by
  induction before generalizing p with
  | nil => rfl
  | cons s rest ih =>
    rw [List.cons_append, statementsFault?, statementsFault?, ih, Option.or_assoc,
      List.length_cons, Nat.add_right_comm, Nat.add_assoc]

/-- Identity statements are at no fault of their own. -/
theorem statementsFault?_of_identities (identities : ∀ s ∈ statements, s.isIdentity)
    (p : Nat) : b.statementsFault? p statements = none := by
  rw [statementsFault?_eq_none_iff]
  intro k s here
  obtain ⟨target, source, code⟩ :=
    Statement.exists_identity (identities s (List.mem_of_getElem? here))
  rw [statementFault?, code]
  rfl

theorem weaveFrom_append_of_identities {before : List Statement}
    (identities : ∀ s ∈ before, s.isIdentity) :
    weaveFrom h f n a (before ++ rest) = before ++ weaveFrom h f n a rest := by
  induction before with
  | nil => rfl
  | cons s before ih =>
    rw [List.cons_append, weaveFrom_cons_identity (identities s List.mem_cons_self),
      ih fun t member => identities t (List.mem_cons_of_mem _ member), List.cons_append]

/-- The statements up to the first ordinary one, that one, and the others. -/
theorem exists_first_ordinary (probed : 0 < ordinaries statements) :
    ∃ before s rest, statements = before ++ s :: rest ∧ (∀ t ∈ before, t.isIdentity) ∧
      s.isIdentity = false := by
  induction statements with
  | nil => simp [ordinaries] at probed
  | cons s rest ih =>
    cases kind : s.isIdentity with
    | false => exact ⟨[], s, rest, rfl, by simp, kind⟩
    | true =>
      rw [ordinaries_cons_identity kind] at probed
      obtain ⟨before, t, rest, rfl, identities, ordinary⟩ := ih probed
      refine ⟨s :: before, t, rest, rfl, ?_, ordinary⟩
      intro u member
      rcases List.mem_cons.mp member with rfl | later
      · exact kind
      · exact identities u later

/-- The first probe stands in front of the first ordinary statement. -/
theorem exists_first_probe {before : List Statement} (split : b.statements = before ++ s :: rest)
    (identities : ∀ t ∈ before, t.isIdentity) (ordinary : s.isIdentity = false) :
    ∃ after, (b.woven h a).statements =
      before ++ ⟨b.freshLabel, h.call a.next.1⟩ :: after := by
  rw [woven, freshLabel]
  generalize labelBound b.statements = n
  rw [split, weaveFrom_append_of_identities identities, weaveFrom_cons_ordinary ordinary]
  exact ⟨_, rfl⟩

/-- **The first probe of a valid body is at fault** when the hook does not take its operands. -/
theorem fault?_woven_of_refuses (room : b.HasRoom) (refuses : ¬ h.Accepts)
    (valid : b.fault? = none) (probed : 0 < ordinaries b.statements) :
    ∃ p e, (b.woven h a).statements.findIdx? (fun s => s.label ∉ b.labels) = some p ∧
      (b.woven h a).fault? = some e ∧ IsCallFault h p e := by
  obtain ⟨before, s, rest, split, identities, ordinary⟩ := exists_first_ordinary probed
  obtain ⟨after, woven⟩ := exists_first_probe (h := h) (a := a) split identities ordinary
  have fresh : b.freshLabel ∉ b.labels := by
    rw [HasRoom] at room
    exact freshLabel_not_mem (by omega)
  obtain ⟨e, call, kind⟩ := exists_callFault?_call refuses before.length a.next.1
  refine ⟨before.length, e, ?_, ?_, kind⟩
  · have old : before.findIdx? (fun s => s.label ∉ b.labels) = none := by
      rw [List.findIdx?_eq_none_iff]
      intro t member
      simp [labels, split, List.mem_map_of_mem member]
    rw [woven, List.findIdx?_append, old, Option.none_or, List.findIdx?_cons]
    simp [fresh]
  · obtain ⟨-, bindings, -⟩ := fault?_eq_none_iff.mp valid
    have bindings' := rule_identityFault?_woven h a b
    rw [bindings, Option.map_none, Option.map_eq_none_iff] at bindings'
    have first : (b.woven h a).statementsFault? 0 (b.woven h a).statements = some e := by
      have straight : (b.woven h a).branchFault? before.length (h.call a.next.1) = none := rfl
      rw [woven, statementsFault?_append, statementsFault?_of_identities identities,
        Option.none_or, Nat.zero_add, statementsFault?, statementFault?, straight,
        Option.none_or, call, Option.some_or]
    have occupied : (b.woven h a).statements.isEmpty = false := by
      rw [woven]
      cases before <;> rfl
    rw [fault?, occupied, bindings', first]
    rfl

end Body

namespace Injector

open Body

variable {i : Injector} {unit signature : String}

/-- **The verdict on a body with its probes.** With labels left for all of them the probes go in.
If the references of the body name statements and the hook takes the operands of a probe, the
rule that is broken first is the same as before, if any is; if the hook does not take them, a
valid body that gets a probe is refused for the operands of the first one. -/
theorem probeStatements_verdict (free : i.policy.unitDecision? unit = none)
    (inside : i.policy.inScope signature = true) {b : Body} (built : b.Built) (room : b.HasRoom)
    (p : Progress) :
    ∃ b' q, i.probeStatements unit signature b.statements b p = (b', q, none) ∧
      (b.Resolved → i.hook.Accepts →
        b'.fault?.map BodyFault.rule = b.fault?.map BodyFault.rule) ∧
      (¬ i.hook.Accepts → b.fault? = none → 0 < ordinaries b.statements →
        ∃ k e, b'.statements.findIdx? (fun s => s.label ∉ b.labels) = some k ∧
          b'.fault? = some e ∧ IsCallFault i.hook k e) := by
  refine ⟨_, _, probeStatements_woven free inside built.labelled room p, ?_, ?_⟩
  · intro resolved accepts
    exact built.labelled.rule_fault?_woven room resolved accepts
  · intro refuses valid probed
    exact fault?_woven_of_refuses room refuses valid probed

/-- An injector whose hook takes nothing. -/
def refusing : Injector :=
  { Injector.sample with
    hook := { Injector.sample.hook with method.params := [] } }

theorem accepts_sample : Injector.sample.hook.Accepts :=
  ⟨.string, .string, .int, rfl, fun _ => rfl, fun _ => rfl, fun _ => rfl⟩

theorem refuses_refusing : ¬ refusing.hook.Accepts := by
  rintro ⟨_, _, _, params, -⟩
  cases params

theorem probeStatements_verdict_sample :
    (∃ b' q, Injector.sample.probeStatements "a.B" "<a.B: void f()>" Body.sample.statements
        .sample (.start (.counter 0)) = (b', q, none) ∧
        b'.fault?.map BodyFault.rule = Body.sample.fault?.map BodyFault.rule) ∧
      ∃ b' q, refusing.probeStatements "a.B" "<a.B: void f()>" Body.sample.statements
        .sample (.start (.counter 0)) = (b', q, none) ∧
        ∃ k e, b'.statements.findIdx? (fun s => s.label ∉ Body.sample.labels) = some k ∧
          b'.fault? = some e ∧ IsCallFault refusing.hook k e := by
  have valid : Body.sample.fault? = none := by decide
  constructor
  · obtain ⟨b', q, done, same, -⟩ := @probeStatements_verdict .sample "a.B" "<a.B: void f()>"
      rfl rfl _ Body.built_sample (by decide) (.start (.counter 0))
    exact ⟨b', q, done, same (resolved_of_valid valid) accepts_sample⟩
  · obtain ⟨b', q, done, -, refused⟩ := @probeStatements_verdict refusing "a.B" "<a.B: void f()>"
      rfl rfl _ Body.built_sample (by decide) (.start (.counter 0))
    exact ⟨b', q, done, refused refuses_refusing valid (by decide)⟩

end Injector

end Tracepoint
