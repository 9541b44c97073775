import Mathlib.Data.List.Forall2
import Mathlib.Data.List.Nodup
import Mathlib.Data.Prod.Lex
import Tracepoint.Proofs.Code.Edits
import Tracepoint.Proofs.Code.Validity

/-!
# The judgement on bodies

What makes a body well formed (`Body.WellFormed`), and what it is for one check of it to fail
with a fault (`Body.Breaks`), are said by the places of statements and traps alone, without the
searches that decide them. A search reports what it should (`Body.Finds`) when it is silent only
if none of its checks fails, and otherwise gives the fault of the first one that does; searches
are put together in the order of their checks (`Finds.or`). The judgement is one of all
checks, so it accepts the well-formed bodies and reports the first fault of every other one
(`validate_first_fault`).
-/

namespace Tracepoint

/-- A check of a body: of its statements and of its traps, by their positions, and of the operands
of a call, by their index as well. -/
inductive Check where
  | occupied
  | leading (position : Nat)
  | jump (position : Nat)
  | operandCount (position : Nat)
  | operand (position index : Nat)
  | trapLabel (trap : Nat) (index : Fin 3)
  | trapRange (trap : Nat)
  | trapCatch (trap : Nat)
  | ending
  deriving DecidableEq, Repr

namespace Check

/-- The place of a check in the order in which they are made: the round, the statement or trap,
and the step there. -/
def rank : Check → Nat × Nat × Nat
  | occupied => (0, 0, 0)
  | leading p => (1, p, 0)
  | jump p => (2, p, 0)
  | operandCount p => (2, p, 1)
  | operand p k => (2, p, k + 2)
  | trapLabel k j => (3, k, j)
  | trapRange k => (3, k, 3)
  | trapCatch k => (3, k, 4)
  | ending => (4, 0, 0)

/-- Whether a check is made before another one. -/
def Before (c d : Check) : Prop :=
  Prod.Lex (· < ·) (Prod.Lex (· < ·) (· < ·)) c.rank d.rank

/-- Whether a check is one of a round, from a statement or trap on. -/
def From (round place : Nat) (c : Check) : Prop :=
  c.rank.1 = round ∧ place ≤ c.rank.2.1

/-- Whether a check is one of a round, at one statement or trap. -/
def At (round place : Nat) (c : Check) : Prop :=
  c.rank.1 = round ∧ c.rank.2.1 = place

variable {c d : Check} {round place : Nat}

theorem before_iff : c.Before d ↔ c.rank.1 < d.rank.1 ∨ c.rank.1 = d.rank.1 ∧
    (c.rank.2.1 < d.rank.2.1 ∨ c.rank.2.1 = d.rank.2.1 ∧ c.rank.2.2 < d.rank.2.2) := by
  rw [Before, Prod.lex_def, Prod.lex_def]

/-- Of two checks one is made before the other. -/
theorem before_or_before (different : c ≠ d) : c.Before d ∨ d.Before c := by
  simp only [before_iff]
  cases c <;> cases d <;> simp_all [rank] <;> omega

/-- The checks from a place on are those at the place and those behind it. -/
theorem from_iff : From round place c ↔ At round place c ∨ From round (place + 1) c := by
  simp only [From, At]
  omega

/-- What is checked behind a place is not checked before it. -/
theorem not_before_of_at (here : At round place c) (later : From round (place + 1) d) :
    ¬ d.Before c := by
  simp only [From, At] at here later
  rw [before_iff]
  omega

/-- A later round comes after an earlier one. -/
theorem not_before_of_round {m n : Nat} (one : c.rank.1 = m) (other : d.rank.1 = n)
    (less : m < n) : ¬ d.Before c := by
  rw [before_iff]
  omega

theorem not_before_self : ¬ c.Before c := by
  rw [before_iff]
  omega

theorem at_leading_iff : At 1 place c ↔ c = leading place := by
  cases c <;> simp [At, rank]

theorem at_statement_iff : At 2 place c ↔
    c = jump place ∨ c = operandCount place ∨ ∃ k, c = operand place k := by
  cases c <;> simp [At, rank, eq_comm]

theorem at_trap_iff : At 3 place c ↔ c = trapLabel place 0 ∨ c = trapLabel place 1 ∨
    c = trapLabel place 2 ∨ c = trapRange place ∨ c = trapCatch place := by
  cases c with
  | trapLabel k j =>
    match j with
    | 0 | 1 | 2 => simp [At, rank]
  | _ => simp [At, rank]

end Check

/-- An instruction binds `this` or a parameter when it binds anything but a caught exception. -/
theorem Instruction.bindsEntry_iff {code : Instruction} : code.bindsEntry = true ↔
    ∃ target source, code = .identity target source ∧ source ≠ .caughtException := by
  cases code with
  | identity target source => cases source <;> simp [bindsEntry]
  | _ => simp [bindsEntry]

namespace Body

/-- What it is for a check of a body to fail, and the fault that this is. -/
inductive Breaks (b : Body) : Check → BodyFault → Prop where
  | empty (none : b.statements = []) : Breaks b .occupied .empty
  | identityNotLeading {p q : Nat} {s t : Statement} {target : String} {source : Binding}
      (here : b.statements[p]? = some s) (binds : s.code = .identity target source)
      (entry : source ≠ .caughtException) (before : q < p) (there : b.statements[q]? = some t)
      (ordinary : t.isIdentity = false) :
      Breaks b (.leading p) (.identityNotLeading p s.render)
  | danglingBranch {p : Nat} {s : Statement} {l : Label} (here : b.statements[p]? = some s)
      (jump : s.code.branchTarget? = some l) (unknown : l ∉ b.labels) :
      Breaks b (.jump p) (.danglingBranch p l)
  | argumentCount {p : Nat} {s : Statement} {callee : MethodRef} {args : List Operand}
      (here : b.statements[p]? = some s) (call : s.code = .invoke callee args)
      (differ : callee.params.length ≠ args.length) :
      Breaks b (.operandCount p)
        (.argumentCount p callee.render callee.params.length args.length)
  | argumentType {p k : Nat} {s : Statement} {callee : MethodRef} {args : List Operand}
      {arg : Operand} {param : ValueType} (here : b.statements[p]? = some s)
      (call : s.code = .invoke callee args) (passed : args[k]? = some arg)
      (declared : callee.params[k]? = some param) (unfit : arg.fits param = false) :
      Breaks b (.operand p k) (.argumentType p callee.render k arg.render param.render)
  | danglingTrap {k : Nat} {j : Fin 3} {t : Trap} {l : Label} (here : b.traps[k]? = some t)
      (named : t.references[j.val]? = some l) (unknown : l ∉ b.labels) :
      Breaks b (.trapLabel k j) (.danglingTrap t.exception l)
  | invertedTrap {k p q : Nat} {t : Trap} (here : b.traps[k]? = some t)
      (first : b.labels[p]? = some t.first) (stop : b.labels[q]? = some t.stop)
      (inverted : q ≤ p) : Breaks b (.trapRange k) (.invertedTrap t.exception)
  | handlerWithoutCatch {k : Nat} {t : Trap} {s : Statement} (here : b.traps[k]? = some t)
      (handler : s ∈ b.statements) (named : s.label = t.handler)
      (other : ∀ target, s.code ≠ .identity target .caughtException) :
      Breaks b (.trapCatch k) (.handlerWithoutCatch t.exception)
  | fallsOffEnd {s : Statement} (last : b.statements.getLast? = some s)
      (falls : s.code.fallsThrough = true) : Breaks b .ending (.fallsOffEnd s.render)

/-- What a body has to keep to. -/
structure WellFormed (b : Body) : Prop where
  occupied : b.statements ≠ []
  /-- Bindings of `this` and of parameters stand in front of all ordinary statements. -/
  leading : ∀ (p q : Nat) (s t : Statement) (target : String) (source : Binding),
    b.statements[p]? = some s → s.code = .identity target source → source ≠ .caughtException →
      b.statements[q]? = some t → t.isIdentity = false → p ≤ q
  jumps : ∀ s ∈ b.statements, ∀ l, s.code.branchTarget? = some l → l ∈ b.labels
  /-- Every call passes one operand for each parameter, and each of them fits. -/
  calls : ∀ s ∈ b.statements, ∀ callee args, s.code = .invoke callee args →
    List.Forall₂ (fun arg param => arg.fits param = true) args callee.params
  /-- Every trap has a range that is not empty and a handler that binds the exception. -/
  traps : ∀ t ∈ b.traps, ∃ (p q : Nat) (target : String),
    b.labels[p]? = some t.first ∧ b.labels[q]? = some t.stop ∧ p < q ∧
      ⟨t.handler, .identity target .caughtException⟩ ∈ b.statements
  closed : ∀ s, b.statements.getLast? = some s → s.code.fallsThrough = false

/-- What a search for faults reports, among certain checks: nothing when none of them fails, and
otherwise the fault of the first one that does. -/
structure Finds (b : Body) (among : Check → Prop) (found : Option BodyFault) : Prop where
  silent : found = none → ∀ c e, among c → ¬ b.Breaks c e
  first : ∀ e, found = some e →
    ∃ c, among c ∧ b.Breaks c e ∧ ∀ d e', among d → d.Before c → ¬ b.Breaks d e'

variable {b : Body} {S T : Check → Prop} {o o' : Option BodyFault} {c : Check} {e e' : BodyFault}
  {s : Statement} {t : Trap} {p k : Nat} {before rest : List Statement}

/-- A check fails in one way at most. -/
theorem Breaks.unique (one : b.Breaks c e) (other : b.Breaks c e') : e = e' := by
  cases one <;> cases other <;> grind

/-- The faults of checks are not those of a rewriting that gets stuck. -/
theorem Breaks.of_rewriting (fails : b.Breaks c e) :
    e ≠ .labelsExhausted ∧ ∀ l, e ≠ .missingStatement l := by
  cases fails <;> simp

/-- The rounds of checks over statements and over traps end with the last of them. -/
theorem Breaks.inside (fails : b.Breaks c e) :
    (c.rank.1 = 1 ∨ c.rank.1 = 2 → c.rank.2.1 < b.statements.length) ∧
      (c.rank.1 = 3 → c.rank.2.1 < b.traps.length) := by
  cases fails <;> simp [Check.rank]
  case invertedTrap here _ _ _ => exact (List.getElem?_eq_some_iff.mp here).1
  case handlerWithoutCatch here _ _ _ => exact (List.getElem?_eq_some_iff.mp here).1
  all_goals exact (List.getElem?_eq_some_iff.mp ‹_›).1

/-! ### Searches -/

/-- A search may give nothing when none of the checks fails. -/
theorem Finds.nothing (sound : ∀ c e, S c → ¬ b.Breaks c e) : b.Finds S none where
  silent _ := sound
  first e found := by cases found

theorem Finds.eq_none_iff (finds : b.Finds S o) : o = none ↔ ∀ c e, S c → ¬ b.Breaks c e := by
  refine ⟨finds.silent, fun sound => ?_⟩
  cases found : o with
  | none => rfl
  | some e =>
    obtain ⟨c, member, fails, -⟩ := finds.first e found
    exact absurd fails (sound c e member)

/-- What a search gives is what the first of its checks to fail fails with. -/
theorem Finds.eq_some_iff (finds : b.Finds S o) : o = some e ↔
    ∃ c, S c ∧ b.Breaks c e ∧ ∀ d e', S d → d.Before c → ¬ b.Breaks d e' := by
  refine ⟨finds.first e, ?_⟩
  rintro ⟨c, member, fails, least⟩
  cases found : o with
  | none => exact absurd fails (finds.silent found c e member)
  | some f =>
    obtain ⟨d, member', fails', least'⟩ := finds.first f found
    by_cases same : c = d
    · subst same
      rw [fails.unique fails']
    · rcases Check.before_or_before same with before | before
      · exact absurd fails (least' c e member before)
      · exact absurd fails' (least d f member' before)

theorem Finds.congr (finds : b.Finds S o) (same : ∀ c, T c ↔ S c) : b.Finds T o := by
  rwa [funext fun c => propext (same c)]

/-- One search after the other, when no check of the other is made before one of the first. -/
theorem Finds.or (one : b.Finds S o) (other : b.Finds T o')
    (order : ∀ c d, S c → T d → ¬ d.Before c) :
    b.Finds (fun c => S c ∨ T c) (o.or o') := by
  cases o with
  | none =>
    have sound := one.silent rfl
    rw [Option.none_or]
    constructor
    · rintro nothing c e (early | late)
      · exact sound c e early
      · exact other.silent nothing c e late
    · intro e found
      obtain ⟨c, member, fails, least⟩ := other.first e found
      refine ⟨c, .inr member, fails, ?_⟩
      rintro d e' (early | late) before
      · exact sound d e' early
      · exact least d e' late before
  | some f =>
    rw [Option.some_or]
    constructor
    · intro nothing
      cases nothing
    · intro e found
      obtain ⟨c, member, fails, least⟩ := one.first e found
      refine ⟨c, .inl member, fails, ?_⟩
      rintro d e' (early | late) before
      · exact least d e' early before
      · exact absurd before (order c d member late)

/-- The search that makes one check. -/
theorem finds_one (answer : ∀ e, b.Breaks c e ↔ o = some e) : b.Finds (· = c) o := by
  constructor
  · rintro nothing _ e rfl fails
    rw [answer, nothing] at fails
    cases fails
  · intro e found
    refine ⟨c, rfl, (answer e).mpr found, ?_⟩
    rintro _ e' rfl before
    exact absurd before Check.not_before_self

/-- The search at one place and then the one behind it. -/
theorem Finds.from {round place : Nat} (one : b.Finds (Check.At round place) o)
    (other : b.Finds (Check.From round (place + 1)) o') :
    b.Finds (Check.From round place) (o.or o') :=
  (one.or other fun _ _ => Check.not_before_of_at).congr fun _ => Check.from_iff

theorem findSome?_cons_eq_or {α : Type} (f : α → Option BodyFault) (x : α) (xs : List α) :
    (x :: xs).findSome? f = (f x).or (xs.findSome? f) := by
  rw [List.findSome?_cons]
  cases f x <;> rfl

/-! ### Bindings -/

theorem getElem?_of_split {α : Type} {xs before rest : List α} {x : α}
    (split : xs = before ++ x :: rest) : xs[before.length]? = some x := by
  simp [split]

/-- Whether a binding comes late is a matter of the statements before it. -/
theorem breaks_leading_iff (split : b.statements = before ++ s :: rest) :
    b.Breaks (.leading before.length) e ↔
      (if s.code.bindsEntry && before.any fun t => !t.isIdentity then
        some (BodyFault.identityNotLeading before.length s.render) else none) = some e := by
  have here := getElem?_of_split split
  have earlier {q : Nat} (less : q < before.length) : b.statements[q]? = before[q]? := by
    rw [split, List.getElem?_append_left less]
  rw [Option.ite_none_right_eq_some, Option.some.injEq, Bool.and_eq_true,
    Instruction.bindsEntry_iff, List.any_eq_true]
  constructor
  · intro fails
    cases fails with
    | identityNotLeading here' binds entry less there ordinary =>
      cases here.symm.trans here'
      rw [earlier less] at there
      exact ⟨⟨⟨_, _, binds, entry⟩, _, List.mem_of_getElem? there, by simp [ordinary]⟩, rfl⟩
  · rintro ⟨⟨⟨target, source, binds, entry⟩, t, member, ordinary⟩, rfl⟩
    obtain ⟨q, there⟩ := List.mem_iff_getElem?.mp member
    have less := (List.getElem?_eq_some_iff.mp there).1
    rw [← earlier less] at there
    exact .identityNotLeading here binds entry less there (by simpa using ordinary)

theorem identityFault?_cons (seen : Bool) (p : Nat) (s : Statement) (rest : List Statement) :
    identityFault? seen p (s :: rest) =
      (if s.code.bindsEntry && seen then some (.identityNotLeading p s.render) else none).or
        (identityFault? (seen || !s.isIdentity) (p + 1) rest) := by
  rw [identityFault?]
  split <;> rfl

theorem finds_leading (rest before : List Statement) (split : b.statements = before ++ rest) :
    b.Finds (Check.From 1 before.length)
      (identityFault? (before.any fun t => !t.isIdentity) before.length rest) := by
  induction rest generalizing before with
  | nil =>
    refine .nothing ?_
    rintro c e ⟨round, place⟩ fails
    have inside := fails.inside.1 (.inl round)
    rw [split, List.append_nil] at inside
    omega
  | cons s rest ih =>
    have later := ih (before ++ [s]) (by simp [split])
    rw [List.any_append, List.length_append] at later
    simp only [List.any_cons, List.any_nil, Bool.or_false, List.length_singleton] at later
    have one := (finds_one fun _ => breaks_leading_iff split).congr fun _ => Check.at_leading_iff
    rw [identityFault?_cons]
    exact one.from later

/-! ### Jumps and calls -/

theorem breaks_jump_iff (here : b.statements[p]? = some s) :
    b.Breaks (.jump p) e ↔ b.branchFault? p s.code = some e := by
  constructor
  · intro fails
    cases fails with
    | danglingBranch here' jump unknown =>
      cases here.symm.trans here'
      rw [← position?_isSome_iff] at unknown
      simp [branchFault?, jump, unknown]
  · intro found
    rw [branchFault?] at found
    split at found
    · cases found
    · rename_i target jump
      split at found
      · cases found
      · rename_i unknown
        cases found
        rw [position?_isSome_iff] at unknown
        exact .danglingBranch here jump unknown

section Call

variable {callee : MethodRef} {all : List Operand}

theorem breaks_operandCount_iff (here : b.statements[p]? = some s)
    (call : s.code = .invoke callee all) :
    b.Breaks (.operandCount p) e ↔
      (if callee.params.length ≠ all.length then
        some (BodyFault.argumentCount p callee.render callee.params.length all.length)
        else none) = some e := by
  rw [Option.ite_none_right_eq_some, Option.some.injEq]
  constructor
  · intro fails
    cases fails with
    | argumentCount here' call' differ =>
      cases here.symm.trans here'
      cases call.symm.trans call'
      exact ⟨differ, rfl⟩
  · rintro ⟨differ, rfl⟩
    exact .argumentCount here call differ

theorem breaks_operand_iff (here : b.statements[p]? = some s) (call : s.code = .invoke callee all)
    {arg : Operand} {param : ValueType} (passed : all[k]? = some arg)
    (declared : callee.params[k]? = some param) :
    b.Breaks (.operand p k) e ↔
      (if arg.fits param then none else
        some (BodyFault.argumentType p callee.render k arg.render param.render)) = some e := by
  rw [Option.ite_none_left_eq_some, Option.some.injEq, Bool.not_eq_true]
  constructor
  · intro fails
    cases fails with
    | argumentType here' call' passed' declared' unfit =>
      cases here.symm.trans here'
      cases call.symm.trans call'
      cases passed.symm.trans passed'
      cases declared.symm.trans declared'
      exact ⟨unfit, rfl⟩
  · rintro ⟨unfit, rfl⟩
    exact .argumentType here call passed declared unfit

/-- Only an operand that is passed for a parameter can be of a wrong type. -/
theorem exists_of_breaks_operand (here : b.statements[p]? = some s)
    (call : s.code = .invoke callee all) (fails : b.Breaks (.operand p k) e) :
    k < all.length ∧ k < callee.params.length := by
  cases fails with
  | argumentType here' call' passed declared =>
    cases here.symm.trans here'
    cases call.symm.trans call'
    exact ⟨(List.getElem?_eq_some_iff.mp passed).1, (List.getElem?_eq_some_iff.mp declared).1⟩

theorem operandFault?_cons (p : Nat) (callee : MethodRef) (k : Nat) (arg : Operand)
    (args : List Operand) (param : ValueType) (params : List ValueType) :
    operandFault? p callee k (arg :: args) (param :: params) =
      (if arg.fits param then none else
        some (.argumentType p callee.render k arg.render param.render)).or
        (operandFault? p callee (k + 1) args params) := by
  rw [operandFault?]
  split <;> rfl

theorem callFault?_invoke (p : Nat) (callee : MethodRef) (args : List Operand) :
    callFault? p (.invoke callee args) =
      (if callee.params.length ≠ args.length then
        some (.argumentCount p callee.render callee.params.length args.length) else none).or
        (operandFault? p callee 0 args callee.params) := by
  rw [callFault?]
  split <;> rfl

theorem finds_operand (here : b.statements[p]? = some s) (call : s.code = .invoke callee all)
    (args : List Operand) (params : List ValueType) (k : Nat) (passed : all.drop k = args)
    (declared : callee.params.drop k = params) :
    b.Finds (fun c => ∃ j, k ≤ j ∧ c = .operand p j) (operandFault? p callee k args params) := by
  induction args generalizing k params with
  | nil =>
    refine .nothing ?_
    rintro _ e ⟨j, least, rfl⟩ fails
    have inside := (exists_of_breaks_operand here call fails).1
    have behind := List.drop_eq_nil_iff.mp passed
    omega
  | cons arg args ih =>
    cases params with
    | nil =>
      refine .nothing ?_
      rintro _ e ⟨j, least, rfl⟩ fails
      have inside := (exists_of_breaks_operand here call fails).2
      have behind := List.drop_eq_nil_iff.mp declared
      omega
    | cons param params =>
      have here' : all[k]? = some arg := by rw [← List.head?_drop, passed, List.head?_cons]
      have there : callee.params[k]? = some param := by
        rw [← List.head?_drop, declared, List.head?_cons]
      have later := ih params (k + 1) (by rw [← List.tail_drop, passed, List.tail_cons])
        (by rw [← List.tail_drop, declared, List.tail_cons])
      rw [operandFault?_cons]
      refine ((finds_one fun _ => breaks_operand_iff here call here' there).or later ?_).congr ?_
      · rintro _ _ rfl ⟨j, least, rfl⟩
        simp [Check.before_iff, Check.rank]
        omega
      · intro c
        constructor
        · rintro ⟨j, least, rfl⟩
          rcases Nat.lt_or_eq_of_le least with less | rfl
          · exact .inr ⟨j, less, rfl⟩
          · exact .inl rfl
        · rintro (rfl | ⟨j, least, rfl⟩)
          · exact ⟨k, Nat.le_refl k, rfl⟩
          · exact ⟨j, by omega, rfl⟩

end Call

/-- The operands of a call are counted, and then each of them is looked at. -/
theorem finds_call (here : b.statements[p]? = some s) :
    b.Finds (fun c => c = .operandCount p ∨ ∃ k, c = .operand p k) (callFault? p s.code) := by
  cases call : s.code with
  | invoke callee all =>
    rw [callFault?_invoke]
    refine ((finds_one fun _ => breaks_operandCount_iff here call).or
      (finds_operand here call all callee.params 0 rfl rfl) ?_).congr (by simp)
    rintro _ _ rfl ⟨j, -, rfl⟩
    simp [Check.before_iff, Check.rank]
  | _ =>
    refine .nothing ?_
    rintro _ e (rfl | ⟨k, rfl⟩) fails
    all_goals
      cases fails
      grind

/-- The jump of a statement is looked at before its operands. -/
theorem finds_statement (here : b.statements[p]? = some s) :
    b.Finds (Check.At 2 p) (b.statementFault? p s) := by
  refine ((finds_one fun _ => breaks_jump_iff here).or (finds_call here) ?_).congr
    fun _ => Check.at_statement_iff
  rintro _ _ rfl (rfl | ⟨k, rfl⟩) <;> simp [Check.before_iff, Check.rank]

theorem finds_statements (rest before : List Statement) (split : b.statements = before ++ rest) :
    b.Finds (Check.From 2 before.length) (b.statementsFault? before.length rest) := by
  induction rest generalizing before with
  | nil =>
    refine .nothing ?_
    rintro c e ⟨round, place⟩ fails
    have inside := fails.inside.1 (.inr round)
    rw [split, List.append_nil] at inside
    omega
  | cons s rest ih =>
    have later := ih (before ++ [s]) (by simp [split])
    rw [List.length_append, List.length_singleton] at later
    exact (finds_statement (getElem?_of_split split)).from later

/-! ### Traps -/

/-- What is wrong with a label that a trap refers to. -/
def labelFault? (b : Body) (t : Trap) (l : Label) : Option BodyFault :=
  if l ∈ b.labels then none else some (.danglingTrap t.exception l)

/-- What is wrong with the range of a trap whose boundaries name statements. -/
def rangeFault? (b : Body) (t : Trap) : Option BodyFault :=
  match b.position? t.first, b.position? t.stop with
  | some p, some q => if q ≤ p then some (.invertedTrap t.exception) else none
  | _, _ => none

/-- What is wrong with the statement that a trap has for its handler. -/
def catchFault? (b : Body) (t : Trap) : Option BodyFault :=
  match b.get? t.handler with
  | some s => if s.code.catchesException then none else some (.handlerWithoutCatch t.exception)
  | none => none

theorem trapFault?_eq_or (b : Body) (t : Trap) :
    b.trapFault? t = (b.labelFault? t t.first).or ((b.labelFault? t t.stop).or
      ((b.labelFault? t t.handler).or ((b.rangeFault? t).or (b.catchFault? t)))) := by
  have handled : (b.get? t.handler).isSome ↔ (b.position? t.handler).isSome := by
    rw [position?_isSome_iff]
    simp [get?, labels]
  simp only [labelFault?, rangeFault?, catchFault?, trapFault?, ← position?_isSome_iff (b := b),
    ← handled]
  cases b.position? t.first with
  | none => rfl
  | some p =>
    cases b.position? t.stop with
    | none => rfl
    | some q =>
      cases b.get? t.handler with
      | none => rfl
      | some s =>
        by_cases inverted : q ≤ p <;> simp [inverted]

theorem breaks_trapLabel_iff (here : b.traps[k]? = some t) {j : Fin 3} {l : Label}
    (named : t.references[j.val]? = some l) :
    b.Breaks (.trapLabel k j) e ↔ b.labelFault? t l = some e := by
  rw [labelFault?, Option.ite_none_left_eq_some, Option.some.injEq]
  constructor
  · intro fails
    cases fails with
    | danglingTrap here' named' unknown =>
      cases here.symm.trans here'
      cases named.symm.trans named'
      exact ⟨unknown, rfl⟩
  · rintro ⟨unknown, rfl⟩
    exact .danglingTrap here named unknown

theorem breaks_trapRange_iff (distinct : b.labels.Nodup) (here : b.traps[k]? = some t) :
    b.Breaks (.trapRange k) e ↔ b.rangeFault? t = some e := by
  constructor
  · intro fails
    cases fails with
    | invertedTrap here' first stop inverted =>
      cases here.symm.trans here'
      rw [← position?_eq_some_iff distinct] at first stop
      simp only [rangeFault?, first, stop, if_pos inverted]
  · intro found
    rw [rangeFault?] at found
    split at found
    · rename_i p q first stop
      rw [Option.ite_none_right_eq_some, Option.some.injEq] at found
      obtain ⟨inverted, rfl⟩ := found
      rw [position?_eq_some_iff distinct] at first stop
      exact .invertedTrap here first stop inverted
    · cases found

/-- With distinct labels, the statement under a label is the one that carries it. -/
theorem get?_eq_some_iff (distinct : b.labels.Nodup) {l : Label} :
    b.get? l = some s ↔ s ∈ b.statements ∧ s.label = l := by
  constructor
  · intro found
    exact ⟨List.mem_of_find?_eq_some found, by simpa using List.find?_some found⟩
  · rintro ⟨member, rfl⟩
    cases found : b.get? s.label with
    | none => simpa using List.find?_eq_none.mp found s member
    | some t =>
      have named : t.label = s.label := by simpa using List.find?_some found
      rw [List.inj_on_of_nodup_map distinct (List.mem_of_find?_eq_some found) member named]

theorem breaks_trapCatch_iff (distinct : b.labels.Nodup) (here : b.traps[k]? = some t) :
    b.Breaks (.trapCatch k) e ↔ b.catchFault? t = some e := by
  constructor
  · intro fails
    cases fails with
    | handlerWithoutCatch here' member named other =>
      cases here.symm.trans here'
      rw [← not_exists, ← Instruction.catchesException_iff] at other
      simp [catchFault?, (get?_eq_some_iff distinct).mpr ⟨member, named⟩, other]
  · intro found
    rw [catchFault?] at found
    split at found
    · rename_i s handler
      obtain ⟨member, named⟩ := (get?_eq_some_iff distinct).mp handler
      rw [Option.ite_none_left_eq_some, Option.some.injEq, Instruction.catchesException_iff,
        not_exists] at found
      obtain ⟨other, rfl⟩ := found
      exact .handlerWithoutCatch here member named other
    · cases found

theorem finds_trap (distinct : b.labels.Nodup) (here : b.traps[k]? = some t) :
    b.Finds (Check.At 3 k) (b.trapFault? t) := by
  rw [trapFault?_eq_or]
  refine ((finds_one fun _ => breaks_trapLabel_iff here rfl).or
    ((finds_one fun _ => breaks_trapLabel_iff here rfl).or
      ((finds_one fun _ => breaks_trapLabel_iff here rfl).or
        ((finds_one fun _ => breaks_trapRange_iff distinct here).or
          (finds_one fun _ => breaks_trapCatch_iff distinct here) ?_) ?_) ?_) ?_).congr
    fun _ => Check.at_trap_iff
  · rintro _ _ rfl rfl
    simp [Check.before_iff, Check.rank]
  · rintro _ _ rfl (rfl | rfl) <;> simp [Check.before_iff, Check.rank]
  · rintro _ _ rfl (rfl | rfl | rfl) <;> simp [Check.before_iff, Check.rank]
  · rintro _ _ rfl (rfl | rfl | rfl | rfl) <;> simp [Check.before_iff, Check.rank]

theorem finds_traps (distinct : b.labels.Nodup) (rest before : List Trap)
    (split : b.traps = before ++ rest) :
    b.Finds (Check.From 3 before.length) (rest.findSome? b.trapFault?) := by
  induction rest generalizing before with
  | nil =>
    refine .nothing ?_
    rintro c e ⟨round, place⟩ fails
    have inside := fails.inside.2 round
    rw [split, List.append_nil] at inside
    omega
  | cons t rest ih =>
    have later := ih (before ++ [t]) (by simp [split])
    rw [List.length_append, List.length_singleton] at later
    rw [findSome?_cons_eq_or]
    exact (finds_trap distinct (getElem?_of_split split)).from later

/-! ### The whole -/

theorem breaks_ending_iff : b.Breaks .ending e ↔ endFault? b.statements = some e := by
  constructor
  · intro fails
    cases fails with
    | fallsOffEnd last falls => simp [endFault?, last, falls]
  · intro found
    rw [endFault?] at found
    split at found
    · cases found
    · rename_i s last
      rw [Option.ite_none_right_eq_some, Option.some.injEq] at found
      obtain ⟨falls, rfl⟩ := found
      exact .fallsOffEnd last falls

theorem breaks_occupied_iff : b.Breaks .occupied e ↔
    (if b.statements.isEmpty then some BodyFault.empty else none) = some e := by
  rw [Option.ite_none_right_eq_some, Option.some.injEq, List.isEmpty_iff]
  constructor
  · intro fails
    cases fails with
    | empty none => exact ⟨none, rfl⟩
  · rintro ⟨none, rfl⟩
    exact .empty none

theorem fault?_eq_or (b : Body) : b.fault? =
    (if b.statements.isEmpty then some BodyFault.empty else none).or
      ((identityFault? false 0 b.statements).or ((b.statementsFault? 0 b.statements).or
        ((b.traps.findSome? b.trapFault?).or (endFault? b.statements)))) := by
  rw [fault?]
  split <;> rfl

/-- **The judgement makes all checks**, in their order. -/
theorem finds_fault? (distinct : b.labels.Nodup) : b.Finds (fun _ => True) b.fault? := by
  have all (c : Check) : True ↔ c = .occupied ∨ Check.From 1 0 c ∨ Check.From 2 0 c ∨
      Check.From 3 0 c ∨ c = .ending := by
    cases c <;> simp [Check.From, Check.rank]
  rw [fault?_eq_or]
  refine ((finds_one fun _ => breaks_occupied_iff).or ((finds_leading b.statements [] rfl).or
    ((finds_statements b.statements [] rfl).or ((finds_traps distinct b.traps [] rfl).or
      (finds_one fun _ => breaks_ending_iff) ?_) ?_) ?_) ?_).congr all
  · rintro c _ ⟨round, -⟩ rfl
    exact Check.not_before_of_round round rfl (by decide)
  · rintro c _ ⟨round, -⟩ (⟨round', -⟩ | rfl)
    · exact Check.not_before_of_round round round' (by decide)
    · exact Check.not_before_of_round round rfl (by decide)
  · rintro c _ ⟨round, -⟩ (⟨round', -⟩ | ⟨round', -⟩ | rfl)
    · exact Check.not_before_of_round round round' (by decide)
    · exact Check.not_before_of_round round round' (by decide)
    · exact Check.not_before_of_round round rfl (by decide)
  · rintro _ d rfl -
    simp [Check.before_iff, Check.rank]

/-! ### Well-formed bodies -/

/-- The operands of a call are in order when none of its checks fails. -/
theorem forall₂_fits_iff {args : List Operand} {params : List ValueType} :
    List.Forall₂ (fun arg param => arg.fits param = true) args params ↔
      params.length = args.length ∧ ∀ (k : Nat) (arg : Operand) (param : ValueType),
        args[k]? = some arg → params[k]? = some param → arg.fits param = true := by
  rw [List.forall₂_iff_get, eq_comm]
  refine and_congr_right fun same => ?_
  constructor
  · intro all k arg param passed declared
    obtain ⟨inside, rfl⟩ := List.getElem?_eq_some_iff.mp passed
    obtain ⟨inside', rfl⟩ := List.getElem?_eq_some_iff.mp declared
    exact all k inside inside'
  · intro all k inside inside'
    exact all k _ _ (List.getElem?_eq_getElem inside) (List.getElem?_eq_getElem inside')

/-- A trap is at no fault when it has a range that is not empty and a handler that binds the
exception. -/
theorem trapFault?_eq_none_iff_handled (distinct : b.labels.Nodup) :
    b.trapFault? t = none ↔ ∃ (p q : Nat) (target : String), b.labels[p]? = some t.first ∧
      b.labels[q]? = some t.stop ∧ p < q ∧
        ⟨t.handler, .identity target .caughtException⟩ ∈ b.statements := by
  simp only [trapFault?_eq_none_iff, position?_eq_some_iff distinct, get?_eq_some_iff distinct,
    Instruction.catchesException_iff]
  constructor
  · rintro ⟨p, q, ⟨label, code⟩, first, stop, ⟨member, rfl⟩, ordered, target, rfl⟩
    exact ⟨p, q, target, first, stop, ordered, member⟩
  · rintro ⟨p, q, target, first, stop, ordered, member⟩
    exact ⟨p, q, _, first, stop, ⟨member, rfl⟩, ordered, target, rfl⟩

/-- A body is well formed when none of its checks fails. -/
theorem wellFormed_iff (distinct : b.labels.Nodup) : b.WellFormed ↔ ∀ c e, ¬ b.Breaks c e := by
  constructor
  · intro sound c e fails
    have handled {k : Nat} {t : Trap} (here : b.traps[k]? = some t) :=
      (finds_trap distinct here).silent
        ((trapFault?_eq_none_iff_handled distinct).mpr (sound.traps t (List.mem_of_getElem? here)))
    cases fails with
    | empty none => exact sound.occupied none
    | identityNotLeading here binds entry before there ordinary =>
      have first := sound.leading _ _ _ _ _ _ here binds entry there ordinary
      omega
    | danglingBranch here jump unknown =>
      exact unknown (sound.jumps _ (List.mem_of_getElem? here) _ jump)
    | argumentCount here call differ =>
      have fit := forall₂_fits_iff.mp (sound.calls _ (List.mem_of_getElem? here) _ _ call)
      exact differ fit.1
    | argumentType here call passed declared unfit =>
      have fit := forall₂_fits_iff.mp (sound.calls _ (List.mem_of_getElem? here) _ _ call)
      rw [fit.2 _ _ _ passed declared] at unfit
      cases unfit
    | danglingTrap here named unknown =>
      exact handled here _ _ ⟨rfl, rfl⟩ (.danglingTrap here named unknown)
    | invertedTrap here first stop inverted =>
      exact handled here _ _ ⟨rfl, rfl⟩ (.invertedTrap here first stop inverted)
    | handlerWithoutCatch here member named other =>
      exact handled here _ _ ⟨rfl, rfl⟩ (.handlerWithoutCatch here member named other)
    | fallsOffEnd last falls =>
      rw [sound.closed _ last] at falls
      cases falls
  · intro sound
    constructor
    case occupied => exact fun none => sound _ _ (.empty none)
    case leading =>
      intro p q s t target source here binds entry there ordinary
      apply Nat.le_of_not_lt
      exact fun before => sound _ _ (.identityNotLeading here binds entry before there ordinary)
    case jumps =>
      intro s member l jump
      obtain ⟨p, here⟩ := List.mem_iff_getElem?.mp member
      exact Decidable.by_contra fun unknown => sound _ _ (.danglingBranch here jump unknown)
    case calls =>
      intro s member callee args call
      obtain ⟨p, here⟩ := List.mem_iff_getElem?.mp member
      rw [forall₂_fits_iff]
      constructor
      · exact Decidable.by_contra fun differ => sound _ _ (.argumentCount here call differ)
      · intro k arg param passed declared
        exact eq_true_of_ne_false fun unfit =>
          sound _ _ (.argumentType here call passed declared unfit)
    case traps =>
      intro t member
      obtain ⟨k, here⟩ := List.mem_iff_getElem?.mp member
      exact (trapFault?_eq_none_iff_handled distinct).mp
        ((finds_trap distinct here).eq_none_iff.mpr fun c e _ => sound c e)
    case closed =>
      intro s last
      exact eq_false_of_ne_true fun falls => sound _ _ (.fallsOffEnd last falls)

/-- A body that breaks a rule at several places: two trap boundaries and a jump name no statement,
a call passes a number where a text is declared, and control runs past its end. -/
def broken : Body where
  statements :=
    [⟨⟨0⟩, .plain "i0 = 0"⟩,
      ⟨⟨1⟩, .invoke ⟨"a.B", "f", [.int, .string], .void⟩ [.localVar "i0", .intConst 1]⟩,
      ⟨⟨2⟩, .branch "i0 < 9" ⟨7⟩⟩]
  traps := [⟨"java.lang.Error", ⟨0⟩, ⟨8⟩, ⟨9⟩⟩]

/-- **The judgement accepts exactly the well-formed bodies** and reports of every other one the
fault of the first check that fails. -/
theorem validate_first_fault (built : b.Built) :
    (b.validate = .ok () ↔ b.WellFormed) ∧
      ∀ e, b.validate = .error e ↔
        ∃ c, b.Breaks c e ∧ ∀ d e', d.Before c → ¬ b.Breaks d e' := by
  have distinct := built.labelled.distinct
  have finds := finds_fault? distinct
  constructor
  · have valid : b.validate = .ok () ↔ b.fault? = none := by
      rw [validate]
      cases b.fault? <;> simp
    rw [valid, finds.eq_none_iff, wellFormed_iff distinct]
    simp
  · intro e
    have refused : b.validate = .error e ↔ b.fault? = some e := by
      rw [validate]
      cases b.fault? <;> simp
    rw [refused, finds.eq_some_iff]
    simp

theorem validate_first_fault_broken : broken.Built ∧
    broken.validate =
      .error (.argumentType 1 "<a.B: void f(int,java.lang.String)>" 1 "1" "java.lang.String") ∧
    ¬ broken.WellFormed ∧
    ∃ c, broken.Breaks c
        (.argumentType 1 "<a.B: void f(int,java.lang.String)>" 1 "1" "java.lang.String") ∧
      ∀ d e', d.Before c → ¬ broken.Breaks d e' := by
  have built : broken.Built :=
    .ofParts (show ofParts broken.statements broken.traps = .ok broken from rfl)
  obtain ⟨accepts, reports⟩ := validate_first_fault built
  have refused : broken.validate = .error
      (.argumentType 1 "<a.B: void f(int,java.lang.String)>" 1 "1" "java.lang.String") := by
    rfl
  refine ⟨built, refused, fun sound => ?_, (reports _).mp refused⟩
  rw [accepts.mpr sound] at refused
  cases refused

end Body

end Tracepoint
