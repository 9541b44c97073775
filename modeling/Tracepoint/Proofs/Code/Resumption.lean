import Mathlib.Data.List.Forall2
import Tracepoint.Proofs.Code.Forms

/-!
# Bodies that are read back cannot be told apart

An edit gives a label, or fails, and leaves statements and traps. Two bodies are alike
(`Body.Alike`) when they agree in their statements and traps and in the label that comes
next; an edit then gives the same of both and leaves them alike, so no sequence of edits tells
them apart (`Body.Alike.trace`). A body and its resumed form are alike, since the label that
comes next is the one above the highest in use, recorded or not. So reading the document of a
unit gives the unit up to what no edit can see (`CodeUnit.exists_resumption`), and so does reading
any other form of it (`CodeUnit.exists_resumption_of_form`).
-/

namespace Tracepoint

open Json (IsRecordOf WellFormed)

/-- An edit of a body. -/
inductive Edit where
  | push (code : Instruction)
  | insertBefore (code : Instruction) (point : Label)
  | addTrap (trap : Trap)

/-- The body that an edit leaves and the label that it gives, if it gives one. -/
def Edit.apply (b : Body) : Edit → Body × Option Label
  | push code => b.push code
  | insertBefore code point => b.insertBefore code point
  | addTrap trap => (b.addTrap trap, none)

/-- What can be seen of a body once an edit is made. -/
structure Edit.Outcome where
  label : Option Label
  statements : List Statement
  traps : List Trap

namespace Body

/-- What can be seen after each of a sequence of edits. -/
def trace (b : Body) : List Edit → List Edit.Outcome
  | [] => []
  | e :: edits =>
    ⟨(e.apply b).2, (e.apply b).1.statements, (e.apply b).1.traps⟩ :: (e.apply b).1.trace edits

/-- Two bodies that differ in no more than whether the label that comes next is recorded. -/
structure Alike (b c : Body) : Prop where
  statements : b.statements = c.statements
  traps : b.traps = c.traps
  upcoming : b.upcoming = c.upcoming

theorem Alike.refl (b : Body) : b.Alike b :=
  ⟨rfl, rfl, rfl⟩

/-- Handing out a label records the next one, so nothing is left in which the bodies differ. -/
theorem Alike.fresh {b c : Body} (alike : b.Alike c) : b.fresh = c.fresh := by
  obtain ⟨statements, traps, _⟩ := b
  obtain ⟨rfl, rfl, upcoming⟩ := alike
  simp only [Body.fresh, upcoming]

theorem Alike.push {b c : Body} (alike : b.Alike c) (code : Instruction) :
    b.push code = c.push code := by
  rw [Body.push, Body.push, alike.fresh]

theorem Alike.position? {b c : Body} (alike : b.Alike c) (l : Label) :
    b.position? l = c.position? l := by
  rw [Body.position?, Body.position?, alike.statements]

/-- An insertion finds no statement in either body, or does the same to both. -/
theorem Alike.insertBefore {b c : Body} (alike : b.Alike c) (code : Instruction) (point : Label) :
    (b.insertBefore code point = (b, none) ∧ c.insertBefore code point = (c, none)) ∨
      b.insertBefore code point = c.insertBefore code point := by
  have here := alike.position? point
  cases there : c.position? point with
  | none =>
    rw [there] at here
    left
    exact ⟨by rw [Body.insertBefore, here], by rw [Body.insertBefore, there]⟩
  | some index =>
    rw [there] at here
    right
    simp only [Body.insertBefore, here, there, alike.fresh]

/-- An edit gives the same of bodies that are alike, and leaves them alike. -/
theorem Alike.apply {b c : Body} (alike : b.Alike c) (e : Edit) :
    (e.apply b).2 = (e.apply c).2 ∧ (e.apply b).1.Alike (e.apply c).1 := by
  cases e with
  | push code =>
    rw [Edit.apply, Edit.apply, alike.push code]
    exact ⟨rfl, .refl _⟩
  | insertBefore code point =>
    rw [Edit.apply, Edit.apply]
    rcases alike.insertBefore code point with ⟨missed, missed'⟩ | same
    · rw [missed, missed']
      exact ⟨rfl, alike⟩
    · rw [same]
      exact ⟨rfl, .refl _⟩
  | addTrap trap =>
    have traps : b.traps ++ [trap] = c.traps ++ [trap] := by rw [alike.traps]
    exact ⟨rfl, alike.statements, traps, alike.upcoming⟩

/-- **No edits tell bodies apart that are alike.** -/
theorem Alike.trace {b c : Body} (alike : b.Alike c) (edits : List Edit) :
    b.trace edits = c.trace edits := by
  induction edits generalizing b c with
  | nil => rfl
  | cons e edits ih =>
    obtain ⟨label, left⟩ := alike.apply e
    rw [Body.trace, Body.trace, label, left.statements, left.traps, ih left]

/-- Bodies with the same statements and traps are alike when their labels are in order, for a
recorded label is the one that is found. -/
theorem Labelled.alike {b c : Body} (h : b.Labelled) (h' : c.Labelled)
    (statements : b.statements = c.statements) (traps : b.traps = c.traps) : b.Alike c where
  statements := statements
  traps := traps
  upcoming := by
    apply UInt32.toNat_inj.mp
    rw [h.toNat_upcoming, h'.toNat_upcoming, statements]

/-- A body is alike to its resumed form. -/
theorem Labelled.alike_resumed {b : Body} (h : b.Labelled) : b.resumed.Alike b :=
  Labelled.alike ⟨h.distinct, h.inRange, .inl rfl⟩ h rfl rfl

/-- A body stands for another: nothing that is written and no edit tells them apart. -/
structure Resumes (b' b : Body) : Prop where
  statements : b'.statements = b.statements
  traps : b'.traps = b.traps
  trace : ∀ edits, b'.trace edits = b.trace edits

end Body

/-- A method stands for another: the signatures are the same, and so are the bodies, up to what
no edit can see. -/
structure Method.Resumes (m' m : Method) : Prop where
  name : m'.name = m.name
  params : m'.params = m.params
  ret : m'.ret = m.ret
  body : Option.Rel Body.Resumes m'.body m.body

/-- A unit stands for another, method by method. -/
structure CodeUnit.Resumes (u' u : CodeUnit) : Prop where
  name : u'.name = u.name
  methods : List.Forall₂ Method.Resumes u'.methods u.methods

theorem Method.Labelled.resumes {m : Method} (h : m.Labelled) : m.resumed.Resumes m where
  name := rfl
  params := rfl
  ret := rfl
  body := by
    cases given : m.body with
    | none =>
      rw [resumed, given]
      exact .none
    | some b =>
      have alike := (h b given).alike_resumed
      rw [resumed, given]
      exact .some ⟨alike.statements, alike.traps, alike.trace⟩

theorem CodeUnit.resumes_resumed {u : CodeUnit} (labelled : ∀ m ∈ u.methods, m.Labelled) :
    u.resumed.Resumes u where
  name := rfl
  methods := by
    rw [resumed, List.forall₂_map_left_iff, List.forall₂_same]
    exact fun m method => (labelled m method).resumes

/-- **What is written is read back.** The compact document of a unit whose bodies come from
documents and edits is read as a unit of the same name, methods, statements, labels and traps,
and no edits tell its bodies from the ones that were written. -/
theorem CodeUnit.exists_resumption {u : CodeUnit}
    (built : ∀ m ∈ u.methods, ∀ b ∈ m.body, b.Built) :
    ∃ u', ofDocument u.document = .ok u' ∧ u'.Resumes u := by
  have labelled : ∀ m ∈ u.methods, m.Labelled := fun m method b body =>
    (built m method b body).labelled
  refine ⟨u.resumed, ofDocument_document labelled, rfl, ?_⟩
  rw [resumed, List.forall₂_map_left_iff, List.forall₂_same]
  exact fun m method => (labelled m method).resumes

/-- A body made by edits, with a counter that is worked out. -/
def Body.edited : Body :=
  ((((Body.empty.push (.plain "s0 = \"0\"")).1.push (.ret none)).1.insertBefore
    (.branch "i0 < 9" ⟨0⟩) ⟨1⟩).1.addTrap ⟨"java.lang.Error", ⟨0⟩, ⟨2⟩, ⟨1⟩⟩)

/-- A unit with a method that has no body and one whose body is made by edits. -/
def CodeUnit.edited : CodeUnit :=
  ⟨"a.B", [⟨"g", [.object "a.C", .long], .boolean, none⟩, ⟨"f", [], .void, some .edited⟩]⟩

theorem CodeUnit.exists_resumption_edited :
    (∀ m ∈ edited.methods, ∀ b ∈ m.body, b.Built) ∧
      ∃ u', ofDocument edited.document = .ok u' ∧ u'.Resumes edited := by
  have built : ∀ m ∈ edited.methods, ∀ b ∈ m.body, b.Built := by
    intro m method b body
    simp only [edited, List.mem_cons, List.not_mem_nil, or_false] at method
    rcases method with rfl | rfl <;> cases body
    exact .addTrap (.insertBefore (.push (.push .empty _) _) _ _) _
  exact ⟨built, exists_resumption built⟩

example : Body.edited.nextLabel = 3 ∧ Body.edited.resumed.nextLabel = 0 := by
  decide

/-! ### Other forms of a document -/

namespace CodeUnit

/-- **Every form of a document is read as its unit.** The fields of its records may come in any
order, among members of other names and without those that have their default, and the tokens may
be written in any way and with any white space between them. -/
theorem exists_resumption_of_form {u : CodeUnit}
    (built : ∀ m ∈ u.methods, ∀ b ∈ m.body, b.Built) {v : Json} (form : IsRecordOf u.fields v)
    (bounded : WellFormed Json.maxDepth v) {text : String}
    (layout : Token.Layout v.tokens text.toList) :
    ∃ u', ofDocument text = .ok u' ∧ u'.Resumes u := by
  have labelled : ∀ m ∈ u.methods, m.Labelled := fun m method b body =>
    (built m method b body).labelled
  refine ⟨u.resumed, ofDocument_of_form labelled form bounded layout, rfl, ?_⟩
  rw [resumed, List.forall₂_map_left_iff, List.forall₂_same]
  exact fun m method => (labelled m method).resumes

/-- A unit with one method, whose body only returns. -/
def returning : CodeUnit :=
  ⟨"a.B", [⟨"f", [], .void, some (Body.empty.push (.ret none)).1⟩]⟩

/-- A form of its document: the other way round, with a member of another name, and without what has
its default. -/
def returningReversed : Json :=
  .record [("note", .list [.int 1, .null]),
    ("methods", .list [.record [
      ("body", .record [("statements", .list [.record [
        ("op", .text "return"), ("label", .int 0)]])]),
      ("ret", .text "void"), ("name", .text "f")]]),
    ("name", .text "a.B")]

theorem isRecordOf_returningReversed : IsRecordOf returning.fields returningReversed := by
  have statement : IsRecordOf (Statement.fields ⟨⟨0⟩, .ret none⟩)
      (.record [("op", .text "return"), ("label", .int 0)]) :=
    .mk [] (.given rfl (.given rfl (.omitted rfl .nil))) (by simp)
      (List.reverse_perm [_, _])
  have body : IsRecordOf (Body.fields (Body.empty.push (.ret none)).1)
      (.record [("statements", .list [.record [("op", .text "return"), ("label", .int 0)]])]) :=
    Json.isRecordOf_record (.given (.mk (.cons statement .nil)) (.omitted rfl .nil))
  have method : IsRecordOf (Method.fields ⟨"f", [], .void, some (Body.empty.push (.ret none)).1⟩)
      (.record [("body", .record [("statements", .list [.record [
        ("op", .text "return"), ("label", .int 0)]])]),
        ("ret", .text "void"), ("name", .text "f")]) :=
    .mk [] (.given rfl (.omitted rfl (.given rfl (.given (.inr ⟨_, rfl, body⟩) .nil))))
      (by simp) (List.reverse_perm [_, _, _])
  exact .mk [("note", .list [.int 1, .null])]
    (.given rfl (.given (.mk (.cons method .nil)) .nil)) (by simp [fields, returning])
    (List.reverse_perm [_, _, _])

theorem regular_returningReversed : Json.Regular Json.maxDepth returningReversed := by
  have statement {n : Nat} : Json.Regular (n + 1)
      (.record [("op", .text "return"), ("label", .int 0)]) :=
    .record (by simpa using ⟨.text _, .int (by decide)⟩)
  have body {n : Nat} : Json.Regular (n + 3)
      (.record [("statements", .list [.record [("op", .text "return"), ("label", .int 0)]])]) :=
    .record (by simpa using .list (by simpa using statement))
  have method {n : Nat} : Json.Regular (n + 4) (.record [
      ("body", .record [("statements", .list [.record [
        ("op", .text "return"), ("label", .int 0)]])]),
      ("ret", .text "void"), ("name", .text "f")]) :=
    .record (by simpa using ⟨body, .text _, .text _⟩)
  have note {n : Nat} : Json.Regular (n + 1) (.list [.int 1, .null]) :=
    .list (by simpa using ⟨.int (by decide), .null⟩)
  exact .record (by simpa using ⟨note, .list (by simpa using method), .text _⟩)

theorem exists_resumption_of_form_reversed :
    ∃ u', ofDocument (String.ofList ('\n' :: returningReversed.compact.toList)) = .ok u' ∧
      u'.Resumes returning := by
  have built : ∀ m ∈ returning.methods, ∀ b ∈ m.body, b.Built := by
    intro m method b body
    obtain rfl := List.mem_singleton.mp method
    cases body
    exact .push .empty _
  have layout := regular_returningReversed.layout_compact.spaces_append
    (List.forall_mem_singleton.mpr (show Token.isSpace '\n' from rfl))
  exact exists_resumption_of_form built isRecordOf_returningReversed
    regular_returningReversed.wellFormed (by simpa using layout)

end CodeUnit

end Tracepoint
