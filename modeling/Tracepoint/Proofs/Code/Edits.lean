import Tracepoint.Proofs.Code.Labels

/-!
# Edits of a body

Moving the references of a body along a function on labels, and what the edits do to a body
whose labels are in order: `insertBefore` splits it at the point of insertion, puts the new
statement there under the label above all others and moves the references to the point onto
it (`Labelled.exists_insertion`). Every body that occurs has its labels in order
(`Built.labelled`).
-/

namespace Tracepoint

/-- The references to one label led to another. -/
def Label.moved (old new l : Label) : Label :=
  if l = old then new else l

/-! ### References along a function on labels -/

namespace Instruction

/-- The instruction with its jump led along a function on labels. -/
def retarget (f : Label → Label) : Instruction → Instruction
  | branch condition target => branch condition (f target)
  | goto target => goto (f target)
  | code => code

theorem redirect_eq_retarget (old new : Label) (code : Instruction) :
    code.redirect old new = code.retarget (Label.moved old new) := by
  cases code <;> rfl

theorem retarget_id (code : Instruction) : code.retarget id = code := by
  cases code <;> rfl

theorem retarget_retarget (f g : Label → Label) (code : Instruction) :
    (code.retarget f).retarget g = code.retarget (g ∘ f) := by
  cases code <;> rfl

@[simp] theorem branchTarget?_retarget (f : Label → Label) (code : Instruction) :
    (code.retarget f).branchTarget? = code.branchTarget?.map f := by
  cases code <;> rfl

@[simp] theorem fallsThrough_retarget (f : Label → Label) (code : Instruction) :
    (code.retarget f).fallsThrough = code.fallsThrough := by
  cases code <;> rfl

@[simp] theorem kind_retarget (f : Label → Label) (code : Instruction) :
    (code.retarget f).kind = code.kind := by
  cases code <;> rfl

@[simp] theorem catchesException_retarget (f : Label → Label) (code : Instruction) :
    (code.retarget f).catchesException = code.catchesException := by
  cases code <;> rfl

end Instruction

namespace Statement

/-- The statement with its jump led along a function on labels. -/
def retarget (f : Label → Label) (s : Statement) : Statement :=
  { s with code := s.code.retarget f }

@[simp] theorem label_retarget (f : Label → Label) (s : Statement) :
    (s.retarget f).label = s.label := rfl

@[simp] theorem isIdentity_retarget (f : Label → Label) (s : Statement) :
    (s.retarget f).isIdentity = s.isIdentity := by
  have same : (s.retarget f).kind = s.kind := Instruction.kind_retarget f s.code
  rw [isIdentity, isIdentity, same]

@[simp] theorem retarget_id : retarget id = id := by
  funext s
  simp [retarget, Instruction.retarget_id]

@[simp] theorem retarget_retarget (g f : Label → Label) (s : Statement) :
    (s.retarget f).retarget g = s.retarget (g ∘ f) := by
  simp [retarget, Instruction.retarget_retarget]

@[simp] theorem retarget_comp (g f : Label → Label) :
    retarget g ∘ retarget f = retarget (g ∘ f) :=
  funext (retarget_retarget g f)

theorem exists_identity {s : Statement} (h : s.isIdentity) :
    ∃ target source, s.code = .identity target source := by
  obtain ⟨label, code⟩ := s
  cases code <;> simp [isIdentity, kind, Instruction.kind] at h
  exact ⟨_, _, rfl⟩

/-- An identity statement refers to no label. -/
theorem retarget_of_isIdentity {f : Label → Label} {s : Statement} (h : s.isIdentity) :
    s.retarget f = s := by
  obtain ⟨target, source, code⟩ := exists_identity h
  have same : s.code.retarget f = s.code := by
    rw [code]
    rfl
  rw [retarget, same]

@[simp] theorem map_label_retarget (f : Label → Label) (statements : List Statement) :
    (statements.map (retarget f)).map label = statements.map label := by
  simp [Function.comp_def]

end Statement

namespace Trap

/-- The trap with its boundaries led along a function on labels. -/
def retarget (f : Label → Label) (t : Trap) : Trap :=
  { t with first := f t.first, stop := f t.stop, handler := f t.handler }

theorem redirect_eq_retarget (old new : Label) (t : Trap) :
    t.redirect old new = t.retarget (Label.moved old new) := rfl

@[simp] theorem retarget_id : retarget id = id := rfl

@[simp] theorem retarget_comp (g f : Label → Label) :
    retarget g ∘ retarget f = retarget (g ∘ f) := rfl

end Trap

namespace Body

/-! ### Handing out a label -/

/-- With room left, the label handed out is the bound of those in use. -/
theorem Labelled.fresh_of_lt {b : Body} (h : b.Labelled)
    (room : labelBound b.statements < Label.limit.toNat) :
    b.fresh = ({ b with nextLabel := .ofNat (labelBound b.statements + 1) },
      some b.freshLabel) := by
  have next := h.toNat_upcoming
  have number : b.upcoming = .ofNat (labelBound b.statements) := by
    rw [← next, UInt32.ofNat_toNat]
  have open' : ¬ Label.limit ≤ b.upcoming := by
    rw [UInt32.le_iff_toNat_le]
    omega
  rw [fresh, if_neg open', number, UInt32.ofNat_add]
  rfl

/-- Without room, no label is handed out and nothing but the counter changes. -/
theorem Labelled.fresh_of_le {b : Body} (h : b.Labelled)
    (full : Label.limit.toNat ≤ labelBound b.statements) :
    b.fresh = ({ b with nextLabel := b.upcoming }, none) := by
  rw [fresh, if_pos]
  rw [UInt32.le_iff_toNat_le, h.toNat_upcoming]
  exact full

/-- One statement more, under the label above all others, raises the bound by one. -/
theorem labelBound_of_perm_cons {b b' : Body}
    (room : labelBound b.statements < Label.limit.toNat)
    (labels : b'.labels.Perm (b.freshLabel :: b.labels)) :
    labelBound b'.statements = labelBound b.statements + 1 := by
  apply Nat.le_antisymm
  · apply Body.labelBound_le
    intro l member
    rcases List.mem_cons.mp (labels.mem_iff.mp member) with rfl | old
    · rw [toNat_freshLabel room]
      omega
    · have below := lt_labelBound old
      omega
  · rw [← toNat_freshLabel room]
    exact lt_labelBound (labels.mem_iff.mpr List.mem_cons_self)

/-- With the counter behind it, such a statement leaves the labels in order. -/
theorem Labelled.of_perm_cons {b b' : Body} (h : b.Labelled)
    (room : labelBound b.statements < Label.limit.toNat)
    (labels : b'.labels.Perm (b.freshLabel :: b.labels))
    (counter : b'.nextLabel = .ofNat (labelBound b.statements + 1)) : b'.Labelled where
  distinct := labels.nodup_iff.mpr (List.nodup_cons.mpr ⟨freshLabel_not_mem room, h.distinct⟩)
  inRange l member := by
    rcases List.mem_cons.mp (labels.mem_iff.mp member) with rfl | old
    · rw [toNat_freshLabel room]
      exact room
    · exact h.inRange l old
  counter := by
    rw [labelBound_of_perm_cons room labels, counter]
    rw [Label.toNat_limit] at room
    exact .inr (UInt32.toNat_ofNat_of_lt' (by rw [UInt32.size]; omega))

/-! ### Insertion -/

/-- Leading references to a label that is not in use onto a new one, or from one in use. The
statement under the new label keeps its jump. -/
theorem redirect_of_split {b : Body} {before rest : List Statement} {code : Instruction}
    {old new : Label} (h : b.statements = before ++ ⟨new, code⟩ :: rest)
    (fresh : new ∉ (before ++ rest).map Statement.label) :
    b.redirect old new =
      { b with
        statements := before.map (Statement.retarget (Label.moved old new)) ++
          ⟨new, code⟩ :: rest.map (Statement.retarget (Label.moved old new))
        traps := b.traps.map (Trap.retarget (Label.moved old new)) } := by
  have others {part : List Statement} (sub : ∀ s ∈ part, s ∈ before ++ rest) :
      (part.map fun s =>
        if s.label = new then s else { s with code := s.code.redirect old new }) =
      part.map (Statement.retarget (Label.moved old new)) := by
    apply List.map_congr_left
    intro s member
    rw [if_neg fun same => fresh (List.mem_map.mpr ⟨s, sub s member, same⟩),
      Instruction.redirect_eq_retarget]
    rfl
  rw [redirect, h, List.map_append, List.map_cons, if_pos rfl,
    others fun s => List.mem_append_left _, others fun s => List.mem_append_right _]
  rfl

theorem insertIdx_length_append {α : Type} (xs ys : List α) (a : α) :
    (xs ++ ys).insertIdx xs.length a = xs ++ a :: ys := by
  induction xs with
  | nil => rfl
  | cons x rest ih => simp [ih]

/-- What an insertion in front of a statement leaves: the new statement stands there, under the
label above all others, and what referred to the one refers to the other. -/
structure Insertion (b : Body) (before : List Statement) (s : Statement) (rest : List Statement)
    (code : Instruction) (b' : Body) : Prop where
  statements : b'.statements =
    before.map (Statement.retarget (Label.moved s.label b.freshLabel)) ++
      ⟨b.freshLabel, code⟩ ::
      (s :: rest).map (Statement.retarget (Label.moved s.label b.freshLabel))
  traps : b'.traps = b.traps.map (Trap.retarget (Label.moved s.label b.freshLabel))
  counter : b'.nextLabel = .ofNat (labelBound b.statements + 1)

/-- **Insertion** succeeds at every statement, with room left. -/
theorem Labelled.exists_insertion {b : Body} (h : b.Labelled) {before rest : List Statement}
    {s : Statement} (split : b.statements = before ++ s :: rest)
    (room : labelBound b.statements < Label.limit.toNat) (code : Instruction) :
    ∃ b', b.insertBefore code s.label = (b', some b.freshLabel) ∧
      Insertion b before s rest code b' := by
  have here : b.position? s.label = some before.length := by
    rw [position?_eq_some_iff h.distinct, labels, split]
    simp
  have unused := freshLabel_not_mem room
  rw [labels, split] at unused
  rw [insertBefore, here]
  simp only [h.fresh_of_lt room]
  rw [split, insertIdx_length_append, redirect_of_split rfl unused]
  exact ⟨_, rfl, rfl, rfl, by rw [split]⟩

theorem Insertion.labels_perm {b b' : Body} {before rest : List Statement} {s : Statement}
    {code : Instruction} (h : Insertion b before s rest code b')
    (split : b.statements = before ++ s :: rest) : b'.labels.Perm (b.freshLabel :: b.labels) := by
  simp only [labels, h.statements, split, List.map_append, List.map_cons,
    Statement.map_label_retarget, Statement.label_retarget]
  exact List.perm_middle

/-- Without room left, nothing is inserted. -/
theorem Labelled.insertBefore_of_full {b : Body} (h : b.Labelled) {l : Label} (used : l ∈ b.labels)
    (full : Label.limit.toNat ≤ labelBound b.statements) (code : Instruction) :
    b.insertBefore code l = ({ b with nextLabel := b.upcoming }, none) := by
  obtain ⟨index, here⟩ := exists_position used
  rw [insertBefore, here]
  simp only [h.fresh_of_le full]

/-- Without the statement, nothing is inserted. -/
theorem insertBefore_of_not_mem {b : Body} {l : Label} (unused : l ∉ b.labels)
    (code : Instruction) : b.insertBefore code l = (b, none) := by
  rw [insertBefore, position?_eq_none_iff.mpr unused]

/-- The statement under a label in use splits the body. -/
theorem exists_split_of_mem {b : Body} {l : Label} (used : l ∈ b.labels) :
    ∃ before s rest, b.statements = before ++ s :: rest ∧ s.label = l := by
  obtain ⟨s, member, named⟩ := List.mem_map.mp used
  obtain ⟨before, rest, split⟩ := List.append_of_mem member
  exact ⟨before, s, rest, split, named⟩

/-! ### The bodies that occur have their labels in order -/

/-- Working out the counter changes no label. -/
theorem Labelled.countUp {b : Body} (h : b.Labelled) :
    ({ b with nextLabel := b.upcoming } : Body).Labelled :=
  ⟨h.distinct, h.inRange, .inr h.toNat_upcoming⟩

theorem Labelled.push {b : Body} (h : b.Labelled) (code : Instruction) :
    (b.push code).1.Labelled := by
  rw [Body.push]
  by_cases room : labelBound b.statements < Label.limit.toNat
  · simp only [h.fresh_of_lt room]
    refine h.of_perm_cons room ?_ rfl
    simp [labels]
  · simp only [h.fresh_of_le (Nat.le_of_not_lt room)]
    exact h.countUp

theorem Labelled.insertBefore {b : Body} (h : b.Labelled) (code : Instruction) (point : Label) :
    (b.insertBefore code point).1.Labelled := by
  by_cases used : point ∈ b.labels
  · obtain ⟨before, s, rest, split, rfl⟩ := exists_split_of_mem used
    by_cases room : labelBound b.statements < Label.limit.toNat
    · obtain ⟨b', inserted, insertion⟩ := h.exists_insertion split room code
      rw [inserted]
      exact h.of_perm_cons room (insertion.labels_perm split) insertion.counter
    · rw [h.insertBefore_of_full used (Nat.le_of_not_lt room)]
      exact h.countUp
  · rw [insertBefore_of_not_mem used]
    exact h

/-- Statements without a label error have distinct labels in range. -/
theorem labelError?_eq_none {seen : List Label} {statements : List Statement}
    (h : labelError? seen statements = none) :
    (statements.map Statement.label).Nodup ∧
      ∀ l ∈ statements.map Statement.label, l.index.toNat < Label.limit.toNat ∧ l ∉ seen := by
  induction statements generalizing seen with
  | nil => simp
  | cons s rest ih =>
    rw [labelError?] at h
    split at h
    · cases h
    · rename_i inRange
      split at h
      · cases h
      · rename_i unseen
        obtain ⟨distinct, later⟩ := ih h
        rw [UInt32.le_iff_toNat_le] at inRange
        simp only [List.map_cons, List.nodup_cons, List.forall_mem_cons]
        refine ⟨⟨?_, distinct⟩, ⟨by omega, unseen⟩, ?_⟩
        · intro again
          exact (later _ again).2 List.mem_cons_self
        · intro l member
          have bounds := later l member
          exact ⟨bounds.1, fun old => bounds.2 (List.mem_cons_of_mem _ old)⟩

/-- **Every body that occurs** has distinct labels in range, and a counter that is not worked
out or stands one above the highest of them. -/
theorem Built.labelled {b : Body} (h : b.Built) : b.Labelled := by
  induction h with
  | empty => exact ⟨List.nodup_nil, by simp [labels, Body.empty], .inl rfl⟩
  | ofParts h =>
    rw [Body.ofParts] at h
    split at h
    · cases h
    · rename_i sound
      cases h
      obtain ⟨distinct, inRange⟩ := labelError?_eq_none sound
      exact ⟨distinct, fun l member => (inRange l member).1, .inl rfl⟩
  | push _ code ih => exact ih.push code
  | insertBefore _ code point ih => exact ih.insertBefore code point
  | addTrap _ _ ih => exact ⟨ih.distinct, ih.inRange, ih.counter⟩

end Body

end Tracepoint
