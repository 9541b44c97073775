import Tracepoint.Code.Document
import Tracepoint.Proofs.Code.Edits
import Tracepoint.Proofs.Json.Fields

/-!
# Documents are regular

Each part of a code unit is written as a regular value, of a depth that does not depend on the
part. The smallest parts have one value each, from which they are read back, inside statements or
outside of them (`ValueType.ofJson?_toJson`, `Operand.ofJson?_toJson`). A body is resumed from its
statements and traps, without its counter (`Body.Labelled.ofParts`): its labels pass because they
are distinct and in range.
-/

namespace Tracepoint

open Json (Regular)

/-! ### Reading shapes back -/

namespace Json

/-- A list of values is read item by item. -/
@[simp] theorem asListOf?_list {α : Type} {encode : α → Json} {decode : Json → Option α}
    {l : List α} (each : ∀ a ∈ l, decode (encode a) = some a) :
    asListOf? decode (list (l.map encode)) = some l := by
  have items : List.Forall₂ (fun a v => v = encode a) l (l.map encode) :=
    List.forall₂_map_right_iff.mpr (List.forall₂_same.mpr fun _ _ => rfl)
  exact asListOf?_of_forall₂ items fun a member _ _ same => same ▸ each a member

@[simp] theorem choice?_text (s : String) : (text s).choice? = some (s, none) := rfl

@[simp] theorem choice?_record (name : String) (v : Json) :
    (record [(name, v)]).choice? = some (name, some v) := rfl

@[simp] theorem asText?_text (s : String) : (text s).asText? = some s := rfl

theorem asInt?_int {lo hi i : Int} (range : lo ≤ i ∧ i ≤ hi) :
    (int i).asInt? lo hi = some i := by
  simp [int, asInt?, range]

@[simp] theorem asNat?_nat_toNat (index : UInt16) :
    asNat? 0x10000 (.nat index.toNat) = some index.toNat := by
  have bound := index.toNat_lt
  rw [asNat?, nat, asInt?_int ⟨by omega, by omega⟩]
  simp

end Json

theorem Label.regular_toJson {n : Nat} (l : Label) : Regular n l.toJson :=
  .int (by have := l.index.toNat_lt; simp; omega)

@[simp] theorem Label.ofJson?_toJson (l : Label) : ofJson? l.toJson = some l := by
  have bound := l.index.toNat_lt
  rw [ofJson?, toJson, Json.asNat?, Json.nat, Json.asInt?_int ⟨by omega, by omega⟩]
  simp

/-! ### Types, operands and method references -/

theorem ValueType.regular_toJson {n : Nat} (t : ValueType) : Regular (n + 1) t.toJson := by
  cases t with
  | object name => exact .record (by simpa using .text name)
  | _ => exact .text _

@[simp] theorem ValueType.ofJson?_toJson (held : Bool) (t : ValueType) :
    ofJson? held t.toJson = some t := by
  cases t <;> simp [toJson, ofJson?, Json.isNothing]

theorem Operand.regular_toJson {n : Nat} (o : Operand) : Regular (n + 1) o.toJson := by
  cases o with
  | localVar name => exact .record (by simpa using .text name)
  | stringConst s => exact .record (by simpa using .text s)
  | intConst i =>
    have lower := i.le_toInt
    have upper := i.toInt_lt
    exact .record (by simpa using .int (by omega))
  | null => exact .text _

@[simp] theorem Operand.ofJson?_toJson (held : Bool) (o : Operand) :
    ofJson? held o.toJson = some o := by
  cases o with
  | intConst i =>
    have lower := i.le_toInt
    have upper := i.toInt_lt
    have number : (Json.int i.toInt).asInt? (-0x80000000) 0x7fffffff = some i.toInt :=
      Json.asInt?_int ⟨by omega, by omega⟩
    simp [toJson, ofJson?, number]
  | _ => simp [toJson, ofJson?, Json.isNothing]

theorem MethodRef.regular_toJson {n : Nat} (m : MethodRef) : Regular (n + 3) m.toJson := by
  have params : Regular (n + 2) (.list (m.params.map ValueType.toJson)) :=
    .list (by simpa using fun t _ => t.regular_toJson)
  have ret : Regular (n + 2) m.ret.toJson := m.ret.regular_toJson
  exact .record (by simpa using ⟨.text _, .text _, params, ret⟩)

/-! ### Statements -/

theorem Binding.regular_toJson {n : Nat} (b : Binding) : Regular (n + 3) b.toJson := by
  cases b with
  | this type =>
    have ty : Regular (n + 1) type.toJson := type.regular_toJson
    exact .record (by simpa using .record (by simpa using ty))
  | parameter index type =>
    have ty : Regular (n + 1) type.toJson := type.regular_toJson
    have bound := index.toNat_lt
    exact .record (by simpa using .record (by simpa using ⟨.int (by simp; omega), ty⟩))
  | caughtException => exact .text _

namespace Instruction

theorem regular_members {n : Nat} (code : Instruction) :
    ∀ m ∈ code.members, Regular (n + 3) m.2 := by
  cases code with
  | identity target source =>
    simpa [members] using ⟨.text _, .text _, source.regular_toJson⟩
  | invoke callee args =>
    have args : Regular (n + 3) (.list (args.map Operand.toJson)) :=
      .list (by simpa using fun o _ => o.regular_toJson)
    simpa [members] using ⟨.text _, callee.regular_toJson, args⟩
  | plain text => simpa [members] using ⟨.text _, .text _⟩
  | branch condition target =>
    simpa [members] using ⟨.text _, .text _, target.regular_toJson⟩
  | goto target => simpa [members] using ⟨.text _, target.regular_toJson⟩
  | ret value =>
    have value : Regular (n + 3) (.optional Operand.toJson value) := by
      cases value with
      | none => exact .null
      | some o => exact o.regular_toJson
    simpa [members] using ⟨.text _, value⟩
  | throw value => simpa [members] using ⟨.text _, value.regular_toJson⟩

@[simp] theorem asOptional?_optional (value : Option Operand) :
    Json.asOptional? (Operand.ofJson? true) (.optional Operand.toJson value) = some value := by
  cases value with
  | none => rfl
  | some o =>
    have read := o.ofJson?_toJson true
    cases o <;> simp_all [Json.optional, Operand.toJson, Json.asOptional?, Json.text, Json.record]

end Instruction

theorem Statement.regular_toJson {n : Nat} (s : Statement) : Regular (n + 4) s.toJson :=
  .record (List.forall_mem_cons.mpr ⟨s.label.regular_toJson, s.code.regular_members⟩)

/-! ### Bodies -/

theorem Trap.regular_toJson {n : Nat} (t : Trap) : Regular (n + 1) t.toJson :=
  .record (by simpa using ⟨.text _, t.first.regular_toJson, t.stop.regular_toJson,
    t.handler.regular_toJson⟩)

namespace Body

/-- The body as its document gives it back: without the label to hand out next. -/
def resumed (b : Body) : Body :=
  { b with nextLabel := 0 }

theorem regular_toJson {n : Nat} (b : Body) : Regular (n + 6) b.toJson := by
  have statements : Regular (n + 5) (.list (b.statements.map Statement.toJson)) :=
    .list (by simpa using fun s _ => s.regular_toJson)
  have traps : Regular (n + 5) (.list (b.traps.map Trap.toJson)) :=
    .list (by simpa using fun t _ => t.regular_toJson)
  exact .record (by simpa using ⟨statements, traps⟩)

/-- Distinct labels in range are not refused. -/
theorem labelError?_of_distinct {seen : List Label} {statements : List Statement}
    (distinct : (statements.map Statement.label).Nodup)
    (each : ∀ l ∈ statements.map Statement.label, l.index.toNat < Label.limit.toNat ∧ l ∉ seen) :
    labelError? seen statements = none := by
  induction statements generalizing seen with
  | nil => rfl
  | cons s rest ih =>
    obtain ⟨new, later⟩ := List.nodup_cons.mp distinct
    obtain ⟨⟨inRange, unseen⟩, tail⟩ := List.forall_mem_cons.mp each
    rw [labelError?, if_neg (by rw [UInt32.le_iff_toNat_le]; omega), if_neg unseen]
    refine ih later fun l member => ⟨(tail l member).1, ?_⟩
    rintro (_ | ⟨_, old⟩)
    · exact new member
    · exact (tail l member).2 old

theorem Labelled.ofParts {b : Body} (h : b.Labelled) :
    Body.ofParts b.statements b.traps = .ok b.resumed := by
  have sound : labelError? [] b.statements = none :=
    labelError?_of_distinct h.distinct fun l member => ⟨h.inRange l member, List.not_mem_nil⟩
  rw [Body.ofParts, sound]
  rfl

end Body

/-! ### Methods and units -/

namespace Method

/-- The method with its body resumed. -/
def resumed (m : Method) : Method :=
  { m with body := m.body.map Body.resumed }

/-- The body of the method, if it has one, has its labels in order. -/
def Labelled (m : Method) : Prop :=
  ∀ b ∈ m.body, b.Labelled

theorem regular_toJson {n : Nat} (m : Method) : Regular (n + 7) m.toJson := by
  have params : Regular (n + 6) (.list (m.params.map ValueType.toJson)) :=
    .list (by simpa using fun t _ => t.regular_toJson)
  have ret : Regular (n + 6) m.ret.toJson := m.ret.regular_toJson
  have body : Regular (n + 6) (.optional Body.toJson m.body) := by
    cases m.body with
    | none => exact .null
    | some b => exact b.regular_toJson
  exact .record (by simpa using ⟨.text _, params, ret, body⟩)

end Method

namespace CodeUnit

/-- The unit with its bodies resumed. -/
def resumed (u : CodeUnit) : CodeUnit :=
  { u with methods := u.methods.map Method.resumed }

theorem regular_toJson {n : Nat} (u : CodeUnit) : Regular (n + 9) u.toJson := by
  have methods : Regular (n + 8) (.list (u.methods.map Method.toJson)) :=
    .list (by simpa using fun m _ => m.regular_toJson)
  exact .record (by simpa using ⟨.text _, methods⟩)

end CodeUnit

end Tracepoint
