import Mathlib.Data.List.Forall2
import Mathlib.Data.List.InsertIdx
import Tracepoint.Proofs.Code.Resumption
import Tracepoint.Proofs.Code.Validity

/-!
# Labels as addresses

In every body that occurs a label names one statement, and the look-ups by label agree on it
(`Body.Addressed`). A push and an insertion give a label above all others and say exactly what
becomes of statements and traps (`Body.Pushed`, `Body.Inserted`); what an edit does not add it
keeps, in its order and under its labels, up to where it jumps (`Body.Keeps`), and so does a
run of edits (`Body.keeps_editedBy`).
-/

namespace Tracepoint

/-- The greatest label. -/
def Label.last : Label :=
  ⟨Label.limit - 1⟩

theorem Label.toNat_last : Label.last.index.toNat + 1 = Label.limit.toNat := rfl

/-- A statement is another one up to where it jumps. -/
def Statement.Retargets (s s' : Statement) : Prop :=
  ∃ f, s' = s.retarget f

instance : Std.Refl Statement.Retargets :=
  ⟨fun s => ⟨id, by rw [Statement.retarget_id, id]⟩⟩

instance : IsTrans Statement Statement.Retargets where
  trans := by
    rintro s _ _ ⟨f, rfl⟩ ⟨g, rfl⟩
    exact ⟨g ∘ f, Statement.retarget_retarget g f s⟩

namespace Body

/-- Every label in use names the statement that carries it, and no other label names any. -/
structure Addressed (b : Body) : Prop where
  distinct : b.labels.Nodup
  inRange : ∀ l ∈ b.labels, l.index < Label.limit
  named : ∀ l ∈ b.labels, ∃ p s, b.position? l = some p ∧ b.statements[p]? = some s ∧
    s.label = l ∧ b.get? l = some s
  unnamed : ∀ l, l ∉ b.labels → b.position? l = none ∧ b.get? l = none

/-- A label is new to a body and above all of its labels. -/
structure Unspent (b : Body) (l : Label) : Prop where
  unused : l ∉ b.labels
  above : ∀ k ∈ b.labels, k.index < l.index

/-- What a push leaves. -/
structure Pushed (b : Body) (code : Instruction) (l : Label) (b' : Body) : Prop where
  unspent : b.Unspent l
  statements : b'.statements = b.statements ++ [⟨l, code⟩]
  traps : b'.traps = b.traps

/-- What an insertion leaves in front of the statement under a label. -/
structure Inserted (b : Body) (code : Instruction) (point l : Label) (b' : Body) : Prop where
  unspent : b.Unspent l
  statements : ∃ p, b.position? point = some p ∧ b'.position? l = some p ∧ b'.statements =
    (b.statements.map (Statement.retarget (Label.moved point l))).insertIdx p ⟨l, code⟩
  traps : b'.traps = b.traps.map (Trap.retarget (Label.moved point l))

/-- The statements of a body are, in their order and up to their jumps, among those of another. -/
def Keeps (b b' : Body) : Prop :=
  List.SublistForall₂ Statement.Retargets b.statements b'.statements

/-- The body after a run of edits. -/
def editedBy (b : Body) (edits : List Edit) : Body :=
  edits.foldl (fun b e => (e.apply b).1) b

variable {b b' : Body} {l point : Label} {code : Instruction}

/-- The body of a document that is accepted is one that occurs. -/
theorem built_of_ofJson {depth : Nat} {v : Json} (accepted : ofJson depth v = .ok b) :
    b.Built := by
  rw [ofJson] at accepted
  split at accepted
  · cases accepted
  · split at accepted <;> cases accepted
    exact .ofParts ‹_›

/-! ### Look-ups -/

theorem Labelled.addressed (h : b.Labelled) : b.Addressed where
  distinct := h.distinct
  inRange l used := UInt32.lt_iff_toNat_lt.mpr (h.inRange l used)
  named l used := by
    obtain ⟨p, position⟩ := exists_position used
    have here := (position?_eq_some_iff h.distinct).mp position
    rw [labels, List.getElem?_map, Option.map_eq_some_iff] at here
    obtain ⟨s, there, named⟩ := here
    have found : b.get? l = some s := by
      rw [get?_eq_bind_position?, position, Option.bind_some, there]
    exact ⟨p, s, position, there, named, found⟩
  unnamed l unused := by
    have missing := position?_eq_none_iff.mpr unused
    exact ⟨missing, by rw [get?_eq_bind_position?, missing, Option.bind_none]⟩

/-! ### The label that is given -/

/-- The labels run out when the last one is in use. -/
theorem Labelled.full_iff (h : b.Labelled) :
    Label.limit.toNat ≤ labelBound b.statements ↔ Label.last ∈ b.labels := by
  have last := Label.toNat_last
  constructor
  · intro full
    refine Decidable.by_contra fun free => ?_
    have bound : labelBound b.statements ≤ Label.last.index.toNat := by
      apply Body.labelBound_le
      intro l used
      have inRange := h.inRange l used
      have other : l.index.toNat ≠ Label.last.index.toNat := by
        intro same
        exact free (Label.ext_toNat same ▸ used)
      omega
    omega
  · intro used
    have below := lt_labelBound used
    omega

theorem unspent_freshLabel (room : labelBound b.statements < Label.limit.toNat) :
    b.Unspent b.freshLabel where
  unused := freshLabel_not_mem room
  above k used := by
    rw [UInt32.lt_iff_toNat_lt, toNat_freshLabel room]
    exact lt_labelBound used

theorem Labelled.exists_pushed (h : b.Labelled) (free : Label.last ∉ b.labels)
    (code : Instruction) : ∃ l b', b.push code = (b', some l) ∧ b.Pushed code l b' := by
  rw [← h.full_iff, Nat.not_le] at free
  rw [Body.push]
  simp only [h.fresh_of_lt free]
  exact ⟨_, _, rfl, unspent_freshLabel free, rfl, rfl⟩

theorem Labelled.exists_inserted (h : b.Labelled) (free : Label.last ∉ b.labels)
    (code : Instruction) (used : point ∈ b.labels) :
    ∃ l b', b.insertBefore code point = (b', some l) ∧ b.Inserted code point l b' := by
  obtain ⟨before, s, rest, split, rfl⟩ := exists_split_of_mem used
  rw [← h.full_iff, Nat.not_le] at free
  obtain ⟨b', inserted, insertion⟩ := h.exists_insertion split free code
  have labelled := h.insertBefore code s.label
  rw [inserted] at labelled
  refine ⟨_, b', inserted, unspent_freshLabel free, ⟨before.length, ?_, ?_, ?_⟩, insertion.traps⟩
  · rw [position?_eq_some_iff h.distinct, labels, split]
    simp
  · rw [position?_eq_some_iff labelled.distinct, labels, insertion.statements]
    simp
  · have place := insertIdx_length_append
      (before.map (Statement.retarget (Label.moved s.label b.freshLabel)))
      ((s :: rest).map (Statement.retarget (Label.moved s.label b.freshLabel)))
      ⟨b.freshLabel, code⟩
    rw [List.length_map] at place
    rw [split, List.map_append, place, insertion.statements]

/-- With the last label in use, a push leaves all but the counter as it is. -/
theorem Labelled.push_of_full (h : b.Labelled) (full : Label.last ∈ b.labels)
    (code : Instruction) : b.push code = ({ b with nextLabel := b.upcoming }, none) := by
  rw [← h.full_iff] at full
  rw [Body.push]
  simp only [h.fresh_of_le full]

theorem Labelled.pushed (h : b.Labelled) (gives : b.push code = (b', some l)) :
    b.Pushed code l b' := by
  by_cases full : Label.last ∈ b.labels
  · rw [h.push_of_full full] at gives
    cases gives
  · obtain ⟨_, _, given, pushed⟩ := h.exists_pushed full code
    cases gives.symm.trans given
    exact pushed

theorem Labelled.inserted (h : b.Labelled) (gives : b.insertBefore code point = (b', some l)) :
    b.Inserted code point l b' := by
  by_cases used : point ∈ b.labels
  · by_cases full : Label.last ∈ b.labels
    · rw [h.insertBefore_of_full used (h.full_iff.mpr full)] at gives
      cases gives
    · obtain ⟨_, _, given, inserted⟩ := h.exists_inserted full code used
      cases gives.symm.trans given
      exact inserted
  · rw [insertBefore_of_not_mem used] at gives
    cases gives

/-! ### What edits keep -/

theorem Keeps.refl (b : Body) : b.Keeps b :=
  Std.Refl.refl b.statements

theorem Keeps.trans {c : Body} (first : b.Keeps b') (later : b'.Keeps c) : b.Keeps c :=
  List.SublistForall₂.is_trans.trans _ _ _ first later

theorem Keeps.of_sublist (sub : b.statements.Sublist b'.statements) : b.Keeps b' :=
  sub.sublistForall₂

/-- Handing out a label touches nothing but the counter. -/
theorem statements_fresh (b : Body) : b.fresh.1.statements = b.statements := by
  rw [fresh]
  split <;> rfl

theorem keeps_redirect (b : Body) (old new : Label) : b.Keeps (b.redirect old new) := by
  rw [Keeps, redirect, List.sublistForall₂_map_right_iff, List.sublistForall₂_iff]
  refine ⟨b.statements, List.forall₂_same.mpr fun s _ => ?_, .refl _⟩
  split
  · exact Std.Refl.refl s
  · exact ⟨_, by rw [Instruction.redirect_eq_retarget, Statement.retarget]⟩

theorem keeps_push (b : Body) (code : Instruction) : b.Keeps (b.push code).1 := by
  have same := b.statements_fresh
  apply Keeps.of_sublist
  rw [push, ← same]
  split <;> rename_i handed <;> rw [handed]
  exact List.sublist_append_left _ _

theorem keeps_insertBefore (b : Body) (code : Instruction) (point : Label) :
    b.Keeps (b.insertBefore code point).1 := by
  have same := b.statements_fresh
  rw [insertBefore]
  cases b.position? point with
  | none => exact .refl b
  | some index =>
    have kept : b.Keeps b.fresh.1 := .of_sublist (by rw [same])
    simp only
    split <;> rename_i handed <;> rw [handed] at kept
    · exact kept
    · exact (kept.trans (.of_sublist (List.sublist_insertIdx _ _ _))).trans
        (keeps_redirect _ point _)

theorem keeps_apply (b : Body) (e : Edit) : b.Keeps (e.apply b).1 := by
  cases e with
  | push code => exact b.keeps_push code
  | insertBefore code point => exact b.keeps_insertBefore code point
  | addTrap trap => exact .refl b

/-- **A run of edits keeps the statements**, in their order, up to their jumps. -/
theorem keeps_editedBy (b : Body) (edits : List Edit) : b.Keeps (b.editedBy edits) := by
  induction edits generalizing b with
  | nil => exact .refl b
  | cons e edits ih => exact (b.keeps_apply e).trans (ih _)

/-- **Labels are addresses** in every body that occurs: they are distinct, in range, and found by
every look-up. Edits give labels above all others as long as the last one is free, do no more
than they should to statements and references, and keep what was there. -/
theorem Built.addresses (built : b.Built) :
    b.Addressed ∧
    (∀ code l b', b.push code = (b', some l) → b.Pushed code l b') ∧
    (∀ code point l b', b.insertBefore code point = (b', some l) → b.Inserted code point l b') ∧
    (Label.last ∉ b.labels → (∀ code, (b.push code).2.isSome) ∧
      ∀ code, ∀ point ∈ b.labels, (b.insertBefore code point).2.isSome) ∧
    ∀ edits, b.Keeps (b.editedBy edits) := by
  have labelled := built.labelled
  refine ⟨labelled.addressed, fun _ _ _ => labelled.pushed, fun _ _ _ _ => labelled.inserted,
    fun free => ⟨fun code => ?_, fun code point used => ?_⟩, b.keeps_editedBy⟩
  · obtain ⟨l, b', given, -⟩ := labelled.exists_pushed free code
    rw [given, Option.isSome]
  · obtain ⟨l, b', given, -⟩ := labelled.exists_inserted free code used
    rw [given, Option.isSome]

/-- A loop whose labels have a gap. -/
def gapped : Body where
  statements := [⟨⟨0⟩, .plain "call()"⟩, ⟨⟨5⟩, .goto ⟨0⟩⟩]
  traps := [⟨"java.lang.Error", ⟨0⟩, ⟨5⟩, ⟨0⟩⟩]

theorem Built.addresses_gapped : gapped.Built ∧ gapped.Addressed ∧
    gapped.Inserted (.plain "probe") ⟨0⟩ ⟨6⟩
      ⟨[⟨⟨6⟩, .plain "probe"⟩, ⟨⟨0⟩, .plain "call()"⟩, ⟨⟨5⟩, .goto ⟨6⟩⟩],
        [⟨"java.lang.Error", ⟨6⟩, ⟨5⟩, ⟨6⟩⟩], 7⟩ ∧
    (gapped.push (.ret none)).2.isSome ∧
    gapped.Keeps (gapped.editedBy [.insertBefore (.plain "probe") ⟨0⟩, .push (.ret none)]) := by
  have built : gapped.Built :=
    built_of_ofJson (show ofJson 0 gapped.toJson = .ok gapped from rfl)
  obtain ⟨addressed, -, inserted, gives, keeps⟩ := built.addresses
  exact ⟨built, addressed, inserted _ _ _ _ (by decide), (gives (by decide)).1 _, keeps _⟩

end Body

end Tracepoint
