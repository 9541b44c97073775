import Tracepoint.Probe.Hook
import Tracepoint.Proofs.Code.Edits

/-!
# The woven form of a body

The form of a body in which every ordinary statement is replaced by its probe and itself,
written down in one pass: the probes get the labels above the highest one, in the order of
the statements, and a reference to an ordinary statement leads to its probe
(`Body.woven`). Identity statements stand alone, and every other reference stays as it is.
-/

namespace Tracepoint

/-- The allocator after it has handed out some identifiers. -/
def Allocator.advance (a : Allocator) : Nat → Allocator
  | 0 => a
  | n + 1 => a.next.2.advance n

namespace Body

/-- The number of statements that get a probe. -/
def ordinaries (statements : List Statement) : Nat :=
  statements.countP fun s => !s.isIdentity

/-- Where a reference leads when the ordinary statements get probes under the labels from a
number on: to the probe of the statement that it names, if that statement gets one. -/
def leadFrom (n : Nat) : List Statement → Label → Label
  | [], l => l
  | s :: rest, l =>
    if s.isIdentity then leadFrom n rest l
    else if l = s.label then .ofNat n
    else leadFrom (n + 1) rest l

/-- The statements with a probe in front of every ordinary one, under the labels from a number
on, and with their jumps led along a function on labels. -/
def weaveFrom (h : Hook) (f : Label → Label) (n : Nat) (a : Allocator) :
    List Statement → List Statement
  | [] => []
  | s :: rest =>
    if s.isIdentity then s :: weaveFrom h f n a rest
    else ⟨.ofNat n, h.call a.next.1⟩ :: s.retarget f :: weaveFrom h f (n + 1) a.next.2 rest

/-- Where a reference to a label leads in the woven form. -/
def lead (b : Body) : Label → Label :=
  leadFrom (labelBound b.statements) b.statements

/-- The body with a probe in front of every ordinary statement. -/
def woven (h : Hook) (a : Allocator) (b : Body) : Body where
  statements := weaveFrom h b.lead (labelBound b.statements) a b.statements
  traps := b.traps.map (Trap.retarget b.lead)
  nextLabel :=
    if ordinaries b.statements = 0 then b.nextLabel
    else .ofNat (labelBound b.statements + ordinaries b.statements)

/-- Whether the labels that are left suffice for all probes. -/
def HasRoom (b : Body) : Prop :=
  labelBound b.statements + ordinaries b.statements ≤ Label.limit.toNat

instance (b : Body) : Decidable b.HasRoom :=
  inferInstanceAs (Decidable (_ ≤ _))

variable {h : Hook} {f : Label → Label} {n : Nat} {a : Allocator} {s : Statement}
  {rest statements : List Statement} {l : Label}

@[simp] theorem ordinaries_cons_identity (identity : s.isIdentity) :
    ordinaries (s :: rest) = ordinaries rest := by
  simp [ordinaries, identity]

@[simp] theorem ordinaries_cons_ordinary (ordinary : s.isIdentity = false) :
    ordinaries (s :: rest) = ordinaries rest + 1 := by
  simp [ordinaries, ordinary]

@[simp] theorem weaveFrom_cons_identity (identity : s.isIdentity) :
    weaveFrom h f n a (s :: rest) = s :: weaveFrom h f n a rest := by
  simp [weaveFrom, identity]

@[simp] theorem weaveFrom_cons_ordinary (ordinary : s.isIdentity = false) :
    weaveFrom h f n a (s :: rest) =
      ⟨.ofNat n, h.call a.next.1⟩ :: s.retarget f :: weaveFrom h f (n + 1) a.next.2 rest := by
  simp [weaveFrom, ordinary]

@[simp] theorem leadFrom_cons_identity (identity : s.isIdentity) :
    leadFrom n (s :: rest) = leadFrom n rest := by
  funext l
  simp [leadFrom, identity]

/-! ### Where references lead -/

/-- A reference that names no ordinary statement stays as it is. -/
theorem leadFrom_of_not_mem (n : Nat)
    (h : ∀ s ∈ statements, s.isIdentity = false → l ≠ s.label) : leadFrom n statements l = l := by
  induction statements generalizing n with
  | nil => rfl
  | cons s rest ih =>
    have tail (m : Nat) := ih m fun t member => h t (List.mem_cons_of_mem _ member)
    cases kind : s.isIdentity with
    | true => rw [leadFrom_cons_identity kind, tail]
    | false =>
      rw [leadFrom, if_neg (by simp [kind]), if_neg (h s List.mem_cons_self kind), tail]

/-- Leading the references to the first ordinary statement, and then those to the others, is
leading them all at once: no probe is taken for a statement. -/
theorem leadFrom_cons_ordinary (ordinary : s.isIdentity = false)
    (fresh : Label.ofNat n ∉ rest.map Statement.label) :
    leadFrom n (s :: rest) = leadFrom (n + 1) rest ∘ Label.moved s.label (.ofNat n) := by
  funext l
  have stays : leadFrom (n + 1) rest (.ofNat n) = .ofNat n :=
    leadFrom_of_not_mem _ fun t member _ same =>
      fresh (List.mem_map.mpr ⟨t, member, same.symm⟩)
  rw [leadFrom, if_neg (by simp [ordinary])]
  by_cases named : l = s.label
  · rw [if_pos named, Function.comp_apply, Label.moved, if_pos named, stays]
  · rw [if_neg named, Function.comp_apply, Label.moved, if_neg named]

end Body

end Tracepoint
