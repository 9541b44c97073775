import Tracepoint.Code.Body

/-!
# Labels under edits

The bodies that occur are those that documents give and those that edits make of them
(`Body.Built`). What their labels have in common is that they are distinct and in range, with
a counter that is either not worked out or stands one above the highest of them
(`Body.Labelled`). So the label that is handed out next lies above every label in use
(`Labelled.toNat_upcoming`).
-/

namespace Tracepoint

theorem Label.toNat_limit : Label.limit.toNat = 0xffffffff := rfl

theorem Label.ext_toNat {l k : Label} (h : l.index.toNat = k.index.toNat) : l = k := by
  cases l; cases k
  simp only [Label.mk.injEq]
  exact UInt32.toNat_inj.mp h

/-- The label of a number. -/
def Label.ofNat (n : Nat) : Label :=
  ⟨.ofNat n⟩

theorem Label.toNat_ofNat {n : Nat} (h : n < 0x100000000) : (Label.ofNat n).index.toNat = n := by
  simpa [Label.ofNat] using Nat.mod_eq_of_lt h

namespace Body

/-- One above the highest label; zero without statements. -/
def labelBound (statements : List Statement) : Nat :=
  statements.foldr (fun s n => max (s.label.index.toNat + 1) n) 0

/-- The label above all labels in use. -/
def freshLabel (b : Body) : Label :=
  .ofNat (labelBound b.statements)

/-- What holds of the labels of a body and of its counter after any edits. -/
structure Labelled (b : Body) : Prop where
  distinct : b.labels.Nodup
  inRange : ∀ l ∈ b.labels, l.index.toNat < Label.limit.toNat
  counter : b.nextLabel = 0 ∨ b.nextLabel.toNat = labelBound b.statements

/-- The bodies that occur: the empty one, those of documents, and what edits make of them. -/
inductive Built : Body → Prop where
  | empty : Built Body.empty
  | ofParts {statements : List Statement} {traps : List Trap} {b : Body}
      (h : Body.ofParts statements traps = .ok b) : Built b
  | push {b : Body} (h : Built b) (code : Instruction) : Built (b.push code).1
  | insertBefore {b : Body} (h : Built b) (code : Instruction) (point : Label) :
      Built (b.insertBefore code point).1
  | addTrap {b : Body} (h : Built b) (t : Trap) : Built (b.addTrap t)

/-! ### The bound of the labels in use -/

theorem lt_labelBound {statements : List Statement} {l : Label}
    (h : l ∈ statements.map Statement.label) : l.index.toNat < labelBound statements := by
  induction statements with
  | nil => simp at h
  | cons s rest ih =>
    have tail := @ih
    simp only [labelBound, List.foldr_cons] at tail ⊢
    rcases List.mem_cons.mp h with rfl | later
    · omega
    · have := tail later
      omega

/-- A number above every label is no less than the bound. -/
theorem labelBound_le {statements : List Statement} {n : Nat}
    (h : ∀ l ∈ statements.map Statement.label, l.index.toNat < n) :
    labelBound statements ≤ n := by
  induction statements with
  | nil => simp [labelBound]
  | cons s rest ih =>
    have head := h s.label List.mem_cons_self
    have tail := ih fun l member => h l (List.mem_cons_of_mem _ member)
    simp only [labelBound, List.foldr_cons] at tail ⊢
    omega

theorem Labelled.labelBound_le {b : Body} (h : b.Labelled) :
    labelBound b.statements ≤ Label.limit.toNat :=
  Body.labelBound_le h.inRange

theorem toNat_freshLabel {b : Body} (room : labelBound b.statements < Label.limit.toNat) :
    b.freshLabel.index.toNat = labelBound b.statements := by
  rw [Label.toNat_limit] at room
  exact Label.toNat_ofNat (by omega)

/-- The label above all others is not in use. -/
theorem freshLabel_not_mem {b : Body} (room : labelBound b.statements < Label.limit.toNat) :
    b.freshLabel ∉ b.labels := by
  intro used
  have below := lt_labelBound used
  rw [toNat_freshLabel room] at below
  omega

/-! ### Positions -/

/-- With distinct labels, the position under a label is the one where the label stands. -/
theorem position?_eq_some_iff {b : Body} (h : b.labels.Nodup) {l : Label} {p : Nat} :
    b.position? l = some p ↔ b.labels[p]? = some l := by
  unfold position? labels
  rw [List.findIdx?_eq_some_iff_getElem]
  constructor
  · rintro ⟨bound, here, -⟩
    simpa [bound] using here
  · intro here
    obtain ⟨bound, same⟩ := List.getElem?_eq_some_iff.mp here
    rw [List.length_map] at bound
    refine ⟨bound, by simpa using same, ?_⟩
    intro j before
    have different := List.pairwise_iff_getElem.mp h j p (by simp [labels]; omega)
      (by simpa [labels] using bound) before
    simp only [labels, List.getElem_map] at different same
    simpa [same] using different

theorem position?_eq_none_iff {b : Body} {l : Label} : b.position? l = none ↔ l ∉ b.labels := by
  simp [position?, labels]

theorem position?_isSome_iff {b : Body} {l : Label} :
    (b.position? l).isSome ↔ l ∈ b.labels := by
  rw [Option.isSome_iff_ne_none, ne_eq, position?_eq_none_iff, Decidable.not_not]

theorem exists_position {b : Body} {l : Label} (used : l ∈ b.labels) :
    ∃ p, b.position? l = some p :=
  Option.isSome_iff_exists.mp (position?_isSome_iff.mpr used)

/-! ### The counter -/

theorem toNat_after {l : Label} (h : l.index.toNat < Label.limit.toNat) :
    (after l).toNat = l.index.toNat + 1 := by
  have different : l.index ≠ Label.limit := by
    intro same
    rw [same] at h
    omega
  rw [Label.toNat_limit] at h
  rw [after, if_neg different, UInt32.toNat_add]
  exact Nat.mod_eq_of_lt (by simp; omega)

/-- The search for the highest label gives the bound. -/
theorem toNat_highest (statements : List Statement) (m : UInt32)
    (h : ∀ l ∈ statements.map Statement.label, l.index.toNat < Label.limit.toNat) :
    ((statements.map fun s => after s.label).foldl (fun m n => if m < n then n else m) m).toNat =
      max m.toNat (labelBound statements) := by
  induction statements generalizing m with
  | nil => simp [labelBound]
  | cons s rest ih =>
    have head := toNat_after (h s.label List.mem_cons_self)
    have step : (if m < after s.label then after s.label else m).toNat =
        max m.toNat (s.label.index.toNat + 1) := by
      rw [← head]
      split <;> rename_i less <;> rw [UInt32.lt_iff_toNat_lt] at less <;> omega
    rw [List.map_cons, List.foldl_cons, ih _ fun l member => h l (List.mem_cons_of_mem _ member),
      step]
    simp only [labelBound, List.foldr_cons]
    omega

/-- **The label to hand out next** is the one above the highest in use. -/
theorem Labelled.toNat_upcoming {b : Body} (h : b.Labelled) :
    b.upcoming.toNat = labelBound b.statements := by
  unfold upcoming
  split
  · rw [toNat_highest _ _ h.inRange]
    simp
  · exact h.counter.resolve_left ‹_›

end Body

end Tracepoint
