import Tracepoint.Proofs.Probe.Verdict

/-!
# Bodies up to identifiers

The identifier of a probe is the text that its call passes first. Whether a body is valid does not
depend on such texts (`fault?_muted`), and two woven forms of one body differ in nothing else,
whatever allocators they took their identifiers from (`withoutIds_woven`).
-/

namespace Tracepoint

/-- The instruction with the text that it passes first, if it is such a call, left out. -/
def Instruction.withoutId : Instruction → Instruction
  | invoke callee (.stringConst _ :: args) => invoke callee (.stringConst "" :: args)
  | code => code

/-- The statement with the text that it passes first, if it is such a call, left out. -/
def Statement.withoutId (s : Statement) : Statement :=
  { s with code := s.code.withoutId }

/-- A body with the texts left out that its calls pass first. -/
def Body.muted (b : Body) : Body :=
  { b with statements := b.statements.map Statement.withoutId }

/-- A body with the identifiers left out of the statements that an old body had not, by label. -/
def Body.withoutIds (old b : Body) : Body :=
  { b with statements := b.statements.map fun s => if s.label ∈ old.labels then s else s.withoutId }

/-! ### What the identifier of a statement has no part in -/

/-- What does not depend on the operands of a call does not depend on the text that it passes. -/
theorem Instruction.apply_withoutId {α : Type} {f : Instruction → α}
    (blind : ∀ callee args args', f (.invoke callee args) = f (.invoke callee args'))
    (code : Instruction) : f code.withoutId = f code := by
  unfold withoutId
  split
  · exact blind _ _ _
  · rfl

namespace Statement

variable {s : Statement}

@[simp] theorem label_withoutId : s.withoutId.label = s.label := rfl

@[simp] theorem isIdentity_withoutId : s.withoutId.isIdentity = s.isIdentity :=
  Instruction.apply_withoutId (f := fun code => decide (code.kind = .identityBinding))
    (fun _ _ _ => rfl) s.code

@[simp] theorem bindsEntry_withoutId : s.withoutId.code.bindsEntry = s.code.bindsEntry :=
  Instruction.apply_withoutId (fun _ _ _ => rfl) s.code

@[simp] theorem branchTarget?_withoutId : s.withoutId.code.branchTarget? = s.code.branchTarget? :=
  Instruction.apply_withoutId (fun _ _ _ => rfl) s.code

@[simp] theorem fallsThrough_withoutId : s.withoutId.code.fallsThrough = s.code.fallsThrough :=
  Instruction.apply_withoutId (fun _ _ _ => rfl) s.code

@[simp] theorem catchesException_withoutId :
    s.withoutId.code.catchesException = s.code.catchesException :=
  Instruction.apply_withoutId (fun _ _ _ => rfl) s.code

@[simp] theorem withoutId_withoutId : s.withoutId.withoutId = s.withoutId := by
  obtain ⟨label, code⟩ := s
  rcases code with _ | ⟨_, _ | ⟨_ | _, _⟩⟩ <;> rfl

/-- A text fits a parameter whatever it says. -/
theorem callFault?_withoutId {p : Nat} :
    Body.callFault? p s.withoutId.code = none ↔ Body.callFault? p s.code = none := by
  obtain ⟨label, code⟩ := s
  rcases code with _ | ⟨callee, _ | ⟨_ | text, args⟩⟩
  case invoke.cons.stringConst =>
    simp only [withoutId, Instruction.withoutId, Body.callFault?, List.length_cons]
    split
    · simp
    · cases callee.params with
      | nil => rfl
      | cons param params =>
        rw [Body.operandFault?_cons_eq_none_iff, Body.operandFault?_cons_eq_none_iff,
          Body.fits_stringConst "" text]
  all_goals rfl

end Statement

/-! ### Validity -/

namespace Body

variable {b : Body} {l : Label} {t : Trap}

@[simp] theorem labels_muted : b.muted.labels = b.labels := by
  simp [labels, muted, Function.comp_def]

@[simp] theorem position?_muted : b.muted.position? l = b.position? l := by
  rw [position?, muted, List.findIdx?_map]
  rfl

theorem get?_muted : b.muted.get? l = (b.get? l).map Statement.withoutId := by
  rw [get?, muted, List.find?_map]
  rfl

theorem identityFault?_muted (seen : Bool) (p : Nat) (statements : List Statement) :
    identityFault? seen p (statements.map Statement.withoutId) = none ↔
      identityFault? seen p statements = none := by
  induction statements generalizing seen p with
  | nil => rfl
  | cons s rest ih =>
    rw [List.map_cons, identityFault?, identityFault?, Statement.bindsEntry_withoutId,
      Statement.isIdentity_withoutId]
    split
    · simp
    · exact ih _ _

theorem statementFault?_muted {p : Nat} {s : Statement} :
    b.muted.statementFault? p s.withoutId = none ↔ b.statementFault? p s = none := by
  rw [statementFault?, statementFault?, Option.or_eq_none_iff, Option.or_eq_none_iff,
    branchFault?_eq_none_iff, branchFault?_eq_none_iff, Statement.callFault?_withoutId,
    Statement.branchTarget?_withoutId, labels_muted]

theorem statementsFault?_muted :
    b.muted.statementsFault? 0 b.muted.statements = none ↔
      b.statementsFault? 0 b.statements = none := by
  have places (k : Nat) : b.muted.statements[k]? = b.statements[k]?.map Statement.withoutId :=
    List.getElem?_map
  simp only [statementsFault?_eq_none_iff, places, Option.map_eq_some_iff]
  constructor
  · intro all k s here
    exact statementFault?_muted.mp (all k _ ⟨s, here, rfl⟩)
  · rintro all k _ ⟨s, here, rfl⟩
    exact statementFault?_muted.mpr (all k s here)

theorem trapFault?_muted : b.muted.trapFault? t = none ↔ b.trapFault? t = none := by
  simp only [trapFault?_eq_none_iff, position?_muted, get?_muted, Option.map_eq_some_iff]
  constructor
  · rintro ⟨first, stop, _, firstHere, stopHere, ⟨handler, here, rfl⟩, ordered, catching⟩
    rw [Statement.catchesException_withoutId] at catching
    exact ⟨first, stop, handler, firstHere, stopHere, here, ordered, catching⟩
  · rintro ⟨first, stop, handler, firstHere, stopHere, here, ordered, catching⟩
    rw [← Statement.catchesException_withoutId] at catching
    exact ⟨first, stop, _, firstHere, stopHere, ⟨handler, here, rfl⟩, ordered, catching⟩

theorem endFault?_muted (statements : List Statement) :
    endFault? (statements.map Statement.withoutId) = none ↔ endFault? statements = none := by
  rw [endFault?, endFault?, List.getLast?_map]
  cases statements.getLast? with
  | none => rfl
  | some last =>
    rw [Option.map_some]
    dsimp only
    rw [Statement.fallsThrough_withoutId]
    split <;> simp

/-- **The texts that calls pass first have no part in validity.** -/
theorem fault?_muted : b.muted.fault? = none ↔ b.fault? = none := by
  have occupied : b.muted.statements ≠ [] ↔ b.statements ≠ [] := by simp [muted]
  have traps : (∀ t ∈ b.muted.traps, b.muted.trapFault? t = none) ↔
      ∀ t ∈ b.traps, b.trapFault? t = none :=
    forall₂_congr fun _ _ => trapFault?_muted
  rw [fault?_eq_none_iff, fault?_eq_none_iff, occupied, statementsFault?_muted, traps]
  exact and_congr_right' (and_congr (identityFault?_muted _ _ _)
    (and_congr_right' (and_congr_right' (endFault?_muted _))))

/-! ### Woven forms -/

variable {h : Hook} {a : Allocator}

/-- The statements that weaving adds are calls that differ in their identifiers alone. -/
theorem withoutIds_weaveFrom {old : Body} (a a' : Allocator) (n : Nat)
    (statements : List Statement) (own : ∀ s ∈ statements, s ∈ old.statements)
    (fresh : ∀ k, n ≤ k → k < n + ordinaries statements → Label.ofNat k ∉ old.labels) :
    (weaveFrom h old.lead n a statements).map
        (fun s => if s.label ∈ old.labels then s else s.withoutId) =
      (weaveFrom h old.lead n a' statements).map
        (fun s => if s.label ∈ old.labels then s else s.withoutId) := by
  induction statements generalizing n a a' with
  | nil => rfl
  | cons s rest ih =>
    have later := fun t member => own t (List.mem_cons_of_mem _ member)
    cases kind : s.isIdentity with
    | true =>
      rw [ordinaries_cons_identity kind] at fresh
      rw [weaveFrom_cons_identity kind, weaveFrom_cons_identity kind, List.map_cons,
        List.map_cons, ih a a' n later fresh]
    | false =>
      rw [ordinaries_cons_ordinary kind] at fresh
      have probe : Label.ofNat n ∉ old.labels := fresh n (Nat.le_refl n) (by omega)
      have same := ih a.next.2 a'.next.2 (n + 1) later
        fun k low high => fresh k (by omega) (by omega)
      rw [weaveFrom_cons_ordinary kind, weaveFrom_cons_ordinary kind]
      simp only [List.map_cons, probe, if_false, same]
      rfl

/-- **Woven forms of a body differ in identifiers alone.** -/
theorem withoutIds_woven {b : Body} (room : b.HasRoom) (a a' : Allocator) :
    b.withoutIds (b.woven h a) = b.withoutIds (b.woven h a') := by
  simp only [withoutIds, woven]
  rw [withoutIds_weaveFrom a a' _ b.statements (fun _ member => member) room.ofNat_not_mem]

theorem muted_withoutIds (old b : Body) : (old.withoutIds b).muted = b.muted := by
  have same (s : Statement) :
      (if s.label ∈ old.labels then s else s.withoutId).withoutId = s.withoutId := by
    split <;> simp
  simp [muted, withoutIds, Function.comp_def, same]

/-- The allocator has no part in the validity of a woven form. -/
theorem fault?_woven_iff {b : Body} (room : b.HasRoom) (a a' : Allocator) :
    (b.woven h a).fault? = none ↔ (b.woven h a').fault? = none := by
  rw [← fault?_muted, ← muted_withoutIds b, withoutIds_woven room a a',
    muted_withoutIds, fault?_muted]

end Body

end Tracepoint
