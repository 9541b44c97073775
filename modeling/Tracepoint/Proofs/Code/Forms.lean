import Tracepoint.Proofs.Code.Documents
import Tracepoint.Proofs.Json.Layout

/-!
# All forms of a document

The document of a code unit has many forms: the members of its records may come in any order and
among members of other names, and what is not said has its default. Each reader gives the part
that it was written for from any of the forms (`Statement.ofJson?_of_form`, `Body.ofJson_of_form`,
`Method.ofJson_of_form`), whatever else stands in the records as long as it can be held. So any
text of any form of a unit is read as that unit, its bodies resumed (`CodeUnit.ofDocument_of_form`).
The document that is written of a unit is one of the forms (`CodeUnit.ofDocument_document`).
-/

namespace Tracepoint

open Json (Field Gives IsRecordOf IsListOf WellFormed)

/-! ### Method references, traps and bindings -/

/-- The fields of the document of a method reference. -/
def MethodRef.fields (m : MethodRef) : List Field :=
  [.exactly "class" (.text m.owner), .exactly "name" (.text m.name),
    .exactly "params" (.list (m.params.map ValueType.toJson)), .exactly "ret" m.ret.toJson]

/-- The fields of the document of a trap. -/
def Trap.fields (t : Trap) : List Field :=
  [.exactly "exception" (.text t.exception), .exactly "begin" t.first.toJson,
    .exactly "end" t.stop.toJson, .exactly "handler" t.handler.toJson]

/-- The documents of a binding. -/
inductive Binding.Form : Binding → Json → Prop where
  | this {type : ValueType} {v : Json}
      (payload : IsRecordOf [.exactly "ty" type.toJson] v) :
      Form (.this type) (.record [("this", v)])
  | parameter {index : UInt16} {type : ValueType} {v : Json}
      (payload : IsRecordOf [.exactly "index" (.nat index.toNat), .exactly "ty" type.toJson] v) :
      Form (.parameter index type) (.record [("parameter", v)])
  | caughtException : Form .caughtException (.text "caught_exception")

theorem MethodRef.ofJson?_of_form {m : MethodRef} {v : Json} (form : IsRecordOf m.fields v)
    (held : Bool) : ofJson? held v = some m := by
  obtain ⟨known, read, answers, -⟩ := form.exists_fields (by simp [fields])
  simp only [fields, List.map_cons, List.map_nil, Field.name_exactly] at read
  simp only [fields, List.forall_mem_cons, Field.answeredBy_exactly] at answers
  simp [ofJson?, read, Json.Fields.required?, answers]

theorem Trap.ofJson?_of_form {t : Trap} {v : Json} (form : IsRecordOf t.fields v) :
    ofJson? v = some t := by
  obtain ⟨known, read, answers, -⟩ := form.exists_fields (by simp [fields])
  simp only [fields, List.map_cons, List.map_nil, Field.name_exactly] at read
  simp only [fields, List.forall_mem_cons, Field.answeredBy_exactly] at answers
  simp [ofJson?, read, Json.Fields.required?, answers]

theorem Binding.ofJson?_of_form {b : Binding} {v : Json} (form : b.Form v) (held : Bool) :
    ofJson? held v = some b := by
  cases form with
  | this payload =>
    obtain ⟨known, read, answers, -⟩ := payload.exists_fields (by simp)
    simp only [List.map_cons, List.map_nil, Field.name_exactly] at read
    simp only [List.forall_mem_cons, Field.answeredBy_exactly] at answers
    simp [ofJson?, read, Json.Fields.required?, answers]
  | parameter payload =>
    obtain ⟨known, read, answers, -⟩ := payload.exists_fields (by simp)
    simp only [List.map_cons, List.map_nil, Field.name_exactly] at read
    simp only [List.forall_mem_cons, Field.answeredBy_exactly] at answers
    simp [ofJson?, read, Json.Fields.required?, answers]
  | caughtException => simp [ofJson?, Json.isNothing]

/-! ### Statements -/

namespace Instruction

/-- The fields of the document of an instruction. -/
def fields : Instruction → List Field
  | identity target source =>
    [.exactly "op" (.text "identity"), .exactly "local" (.text target),
      ⟨"source", source.Form, False⟩]
  | invoke callee args =>
    [.exactly "op" (.text "invoke"), ⟨"callee", IsRecordOf callee.fields, False⟩,
      .exactly "args" (.list (args.map Operand.toJson))]
  | plain text => [.exactly "op" (.text "plain"), .exactly "text" (.text text)]
  | branch condition target =>
    [.exactly "op" (.text "if"), .exactly "condition" (.text condition),
      .exactly "target" target.toJson]
  | goto target => [.exactly "op" (.text "goto"), .exactly "target" target.toJson]
  | ret value =>
    [.exactly "op" (.text "return"),
      ⟨"value", (· = .optional Operand.toJson value), value = none⟩]
  | throw value => [.exactly "op" (.text "throw"), .exactly "value" value.toJson]

/-- No instruction has a field named as the label of its statement, and none is named twice. -/
theorem distinct_fields (code : Instruction) :
    ("label" :: code.fields.map Field.name).Nodup := by
  cases code <;> simp [fields]

variable {code : Instruction} {members : List (String × Json)}

/-- An instruction is read by the fields of its kind. -/
theorem exists_ofFields? (gives : Gives code.fields members) (tag : String)
    (op : .exactly "op" (.text tag) ∈ code.fields)
    (among : ∀ n ∈ fieldNames tag, n ∈ code.fields.map Field.name) :
    ∃ known : Json.Fields, ofMembers? tagOrNumber? (Json.keyed members) = ofFields? tag known ∧
      ∀ f ∈ code.fields, f.name ∈ fieldNames tag → f.AnsweredBy known := by
  obtain ⟨tags, readTag, -, tagged⟩ := gives.exists_known ["op"] (by
    simpa using List.mem_map_of_mem (f := Field.name) op)
  obtain ⟨known, read, -, answers⟩ := gives.exists_known (fieldNames tag) among
  refine ⟨known, ?_, answers⟩
  have named := Field.answeredBy_exactly.mp (tagged _ op (by simp))
  simp [ofMembers?, readTag, Json.Fields.required?, named, tagOrNumber?, Json.text, read]

theorem ofMembers?_of_gives (gives : Gives code.fields members) :
    ofMembers? tagOrNumber? (Json.keyed members) = some code := by
  cases code with
  | identity target source =>
    obtain ⟨known, read, answers⟩ := exists_ofFields? gives "identity"
      (by simp [fields]) (by simp [fields, fieldNames])
    obtain ⟨target, source⟩ : known.lookup "local" = some (.text target) ∧
        Field.AnsweredBy ⟨"source", source.Form, False⟩ known := by
      simpa [fields, fieldNames] using answers
    have source : (known.lookup "source").bind (Binding.ofJson? true) = some _ :=
      source.required? id fun v _ form => Binding.ofJson?_of_form form true
    simp [read, ofFields?, Json.Fields.required?, target, source]
  | invoke callee args =>
    obtain ⟨known, read, answers⟩ := exists_ofFields? gives "invoke"
      (by simp [fields]) (by simp [fields, fieldNames])
    obtain ⟨callee, args⟩ : Field.AnsweredBy ⟨"callee", IsRecordOf callee.fields, False⟩ known ∧
        known.lookup "args" = some (.list (args.map Operand.toJson)) := by
      simpa [fields, fieldNames] using answers
    have callee : (known.lookup "callee").bind (MethodRef.ofJson? true) = some _ :=
      callee.required? id fun v _ form => MethodRef.ofJson?_of_form form true
    simp [read, ofFields?, Json.Fields.required?, args, callee]
  | plain text =>
    obtain ⟨known, read, answers⟩ := exists_ofFields? gives "plain"
      (by simp [fields]) (by simp [fields, fieldNames])
    have text : known.lookup "text" = some (.text text) := by
      simpa [fields, fieldNames] using answers
    simp [read, ofFields?, Json.Fields.required?, text]
  | branch condition target =>
    obtain ⟨known, read, answers⟩ := exists_ofFields? gives "if"
      (by simp [fields]) (by simp [fields, fieldNames])
    obtain ⟨condition, target⟩ : known.lookup "condition" = some (.text condition) ∧
        known.lookup "target" = some target.toJson := by
      simpa [fields, fieldNames] using answers
    simp [read, ofFields?, Json.Fields.required?, condition, target]
  | goto target =>
    obtain ⟨known, read, answers⟩ := exists_ofFields? gives "goto"
      (by simp [fields]) (by simp [fields, fieldNames])
    have target : known.lookup "target" = some target.toJson := by
      simpa [fields, fieldNames] using answers
    simp [read, ofFields?, Json.Fields.required?, target]
  | ret value =>
    obtain ⟨known, read, answers⟩ := exists_ofFields? gives "return"
      (by simp [fields]) (by simp [fields, fieldNames])
    have answered : Field.AnsweredBy
        ⟨"value", (· = .optional Operand.toJson value), value = none⟩ known := by
      simpa [fields, fieldNames] using answers
    have value : known.defaulted? "value" none (Json.asOptional? (Operand.ofJson? true)) =
        some value := answered.defaulted? Eq.symm fun v _ same => same ▸ asOptional?_optional _
    simp [read, ofFields?, value]
  | throw value =>
    obtain ⟨known, read, answers⟩ := exists_ofFields? gives "throw"
      (by simp [fields]) (by simp [fields, fieldNames])
    have value : known.lookup "value" = some value.toJson := by
      simpa [fields, fieldNames] using answers
    simp [read, ofFields?, Json.Fields.required?, value]

end Instruction

namespace Statement

/-- The fields of the document of a statement: its label and those of its instruction. -/
def fields (s : Statement) : List Field :=
  .exactly "label" s.label.toJson :: s.code.fields

/-- A statement is read from any record of its fields whose other members can be held. -/
theorem ofJson?_of_form {s : Statement} {v : Json} (form : IsRecordOf s.fields v) {depth n : Nat}
    (deep : depth + n = Json.maxDepth) (bounded : WellFormed (n + 1) v) :
    ofJson? depth v = some s := by
  obtain ⟨members, rfl, gives⟩ := form.gives s.code.distinct_fields
  obtain ⟨known, readLabel, -, answers⟩ := gives.exists_known ["label"] (by simp [fields])
  have label : known.lookup "label" = some s.label.toJson :=
    Field.answeredBy_exactly.mp (answers _ List.mem_cons_self (by simp))
  have others : (Json.keyed members).filter (fun m => m.1 ≠ some "label") =
      Json.keyed (members.filter fun m => m.1 ≠ "label") := by
    rw [Json.keyed, Json.keyed, List.filter_map]
    congr 1
    exact List.filter_congr fun m _ => by simp
  have held : Json.holdableMembers (Json.maxDepth - depth)
      (Json.keyed (members.filter fun m => m.1 ≠ "label")) := by
    obtain rfl : n = Json.maxDepth - depth := by omega
    exact Json.holdableMembers_of_forall fun m member =>
      (bounded.of_mem_record m (List.mem_of_mem_filter member)).holdable
  have code : Instruction.ofMembers? Instruction.tagOrNumber?
      (Json.keyed (members.filter fun m => m.1 ≠ "label")) = some s.code :=
    Instruction.ofMembers?_of_gives
      (gives.filter_ne (List.nodup_cons.mp s.code.distinct_fields).1)
  generalize (members.filter fun m => m.1 ≠ "label") = rest at others held code
  rw [Json.record_eq, ofJson?, others]
  simp [readLabel, Json.Fields.required?, label, held, code]

end Statement

/-! ### Bodies -/

namespace Body

/-- The fields of the document of a body. -/
def fields (b : Body) : List Field :=
  [⟨"statements", IsListOf (fun s => IsRecordOf s.fields) b.statements, False⟩,
    ⟨"traps", IsListOf (fun t => IsRecordOf t.fields) b.traps, b.traps = []⟩]

theorem partsOfJson?_of_form {b : Body} {v : Json} (form : IsRecordOf b.fields v) {depth n : Nat}
    (deep : depth + 2 + n = Json.maxDepth) (bounded : WellFormed (n + 3) v) :
    partsOfJson? depth v = some (b.statements, b.traps) := by
  obtain ⟨known, read, answers, held⟩ := form.exists_fields (by simp [fields])
  simp only [fields, List.map_cons, List.map_nil] at read
  obtain ⟨statements, traps, -⟩ := List.forall_mem_cons.mp answers |>.imp_right
    List.forall_mem_cons.mp
  have statements : known.required? "statements"
      (Json.asListOf? (Statement.ofJson? (depth + 2))) = some b.statements := by
    refine statements.required? id fun v member form => ?_
    obtain ⟨forms⟩ := form
    have items := (held _ bounded _ member).of_mem_list
    exact Json.asListOf?_of_forall₂ forms fun s _ w there form =>
      Statement.ofJson?_of_form form deep (items w there)
  have traps : known.defaulted? "traps" [] (Json.asListOf? Trap.ofJson?) = some b.traps := by
    refine traps.defaulted? Eq.symm fun v _ form => ?_
    obtain ⟨forms⟩ := form
    exact Json.asListOf?_of_forall₂ forms fun t _ w _ form => Trap.ofJson?_of_form form
  simp [partsOfJson?, read, statements, traps]

/-- A body whose labels are in order is read, without its counter, from any record of its
fields. -/
theorem Labelled.ofJson_of_form {b : Body} (h : b.Labelled) {v : Json}
    (form : IsRecordOf b.fields v) {depth n : Nat} (deep : depth + 2 + n = Json.maxDepth)
    (bounded : WellFormed (n + 3) v) : ofJson depth v = .ok b.resumed := by
  simp only [ofJson, partsOfJson?_of_form form deep bounded, h.ofParts]

end Body

/-! ### Methods and units -/

namespace DocumentError

/-- A record is read by reading its members in order. -/
theorem readRecord_record {σ α : Type} {names : List String} {start d : σ}
    {field : String → Json → σ → Except DocumentError σ} {finish : σ → Option α} {a : α}
    {members : List (String × Json)}
    (read : members.foldlM (fun s m => field m.1 m.2 s) start = .ok d)
    (done : finish d = some a) :
    readRecord names start field finish (.record members) = .ok a := by
  have each : (Json.keyed members).foldlM
      (fun s m => ofOption m.1 >>= fun k => field k m.2 s) start = .ok d := by
    rw [Json.keyed, List.foldlM_map]
    exact read
  show ((Json.keyed members).foldlM (fun s m => ofOption m.1 >>= fun k => field k m.2 s) start >>=
    fun draft => ofOption (finish draft)) = .ok a
  rw [each]
  show ofOption (finish d) = .ok a
  rw [done]
  rfl

/-- A record of some fields is read by reading its members as they come, when each member fills
what is read from it. -/
theorem readRecord_of_form {σ α : Type} {fields : List Field} {v : Json}
    (form : IsRecordOf fields v) (distinct : (fields.map Field.name).Nodup) {names : List String}
    {field : String → Json → σ → Except DocumentError σ} {finish : σ → Option α} {a : α}
    (target : List String → σ) {n : Nat} (bounded : WellFormed (n + 1) v)
    (fills : ∀ keys, ∀ f ∈ fields, f.name ∉ keys → ∀ w, f.Holds w → WellFormed n w →
      field f.name w (target keys) = .ok (target (keys ++ [f.name])))
    (passes : ∀ keys k w, k ∉ fields.map Field.name →
      field k w (target keys) = .ok (target (keys ++ [k])))
    (done : ∀ keys, (∀ f ∈ fields, f.name ∈ keys ∨ f.Omissible) → finish (target keys) = some a) :
    readRecord names (target []) field finish v = .ok a := by
  obtain ⟨members, rfl, gives⟩ := form.gives distinct
  refine readRecord_record (gives.foldlM fun keys m member new => ?_) (done _ gives.present)
  obtain ⟨k, w⟩ := m
  by_cases known : k ∈ fields.map Field.name
  · obtain ⟨f, there, rfl⟩ := List.mem_map.mp known
    exact fills keys f there (new known) w (gives.holds f there w member)
      (bounded.of_mem_record _ member)
  · exact passes keys k w known

/-- A vacant field is filled with what has been read for it. -/
theorem fill_of_ok {σ α : Type} {slot : Option α} {value : Except DocumentError α} {a : α}
    (vacant : slot = none) (read : value = .ok a) (put : Option α → σ) :
    (fill slot value >>= fun x => pure (put x)) = .ok (put (some a)) := by
  rw [vacant, read]
  rfl

/-- What has its default may be missing. -/
theorem getD_of_default {α : Type} {p : Prop} [Decidable p] {a fallback : α}
    (given : p ∨ a = fallback) : (if p then some a else none).getD fallback = a := by
  split
  · rfl
  · rename_i missing
    exact (given.resolve_left missing).symm

end DocumentError

open DocumentError

namespace Method

/-- The fields of the document of a method. -/
def fields (m : Method) : List Field :=
  [.exactly "name" (.text m.name),
    ⟨"params", (· = .list (m.params.map ValueType.toJson)), m.params = []⟩,
    .exactly "ret" m.ret.toJson,
    ⟨"body", fun v => (m.body = none ∧ v = .null) ∨ ∃ b ∈ m.body, IsRecordOf b.fields v,
      m.body = none⟩]

/-- What has been read of a method once the fields of some names have been. -/
def filled (m : Method) (keys : List String) : Draft where
  name := if "name" ∈ keys then some m.name else none
  params := if "params" ∈ keys then some m.params else none
  ret := if "ret" ∈ keys then some m.ret else none
  body := if "body" ∈ keys then some (m.body.map Body.resumed) else none

theorem filled_of_unknown {m : Method} {keys : List String} {k : String}
    (unknown : k ∉ m.fields.map Field.name) : m.filled (keys ++ [k]) = m.filled keys := by
  simp only [fields, List.map_cons, List.map_nil, Field.name_exactly, List.mem_cons,
    List.not_mem_nil, or_false, not_or] at unknown
  simp [filled, Ne.symm unknown.1, Ne.symm unknown.2.1, Ne.symm unknown.2.2.1,
    Ne.symm unknown.2.2.2]

theorem Draft.field_of_unknown {m : Method} {k : String} (unknown : k ∉ m.fields.map Field.name)
    (depth : Nat) (v : Json) (d : Draft) : Draft.field depth k v d = .ok d := by
  simp only [fields, List.map_cons, List.map_nil, Field.name_exactly, List.mem_cons,
    List.not_mem_nil, or_false, not_or] at unknown
  simp [Draft.field, unknown, pure, Except.pure]

theorem Labelled.fills {m : Method} (h : m.Labelled) {depth n : Nat}
    (deep : depth + 3 + n = Json.maxDepth) (keys : List String) :
    ∀ f ∈ m.fields, f.name ∉ keys → ∀ v, f.Holds v → WellFormed (n + 3) v →
      Draft.field depth f.name v (m.filled keys) = .ok (m.filled (keys ++ [f.name])) := by
  simp only [fields, List.forall_mem_cons, Field.exactly]
  refine ⟨?_, ?_, ?_, ?_, by simp⟩
  · rintro new v rfl -
    refine (fill_of_ok (if_neg new) rfl _).trans ?_
    simp [filled]
  · rintro new v rfl -
    have params : ofOption (Json.asListOf? (ValueType.ofJson? false)
        (.list (m.params.map ValueType.toJson))) = .ok m.params := by
      rw [Json.asListOf?_list fun t _ => t.ofJson?_toJson false]
      rfl
    refine (fill_of_ok (if_neg new) params _).trans ?_
    simp [filled]
  · rintro new v rfl -
    have ret : ofOption (ValueType.ofJson? false m.ret.toJson) = .ok m.ret := by
      rw [m.ret.ofJson?_toJson false]
      rfl
    refine (fill_of_ok (if_neg new) ret _).trans ?_
    simp [filled]
  · rintro new v (⟨bodiless, rfl⟩ | ⟨b, body, form⟩) bounded
    · refine (fill_of_ok (if_neg new) rfl _).trans ?_
      simp [filled, bodiless]
    · have read : Body.ofJson (depth + 1) v = .ok b.resumed :=
        (h b body).ofJson_of_form form (by omega) bounded
      -- A body is a record, which is not the value that says that there is none.
      obtain ⟨-, -, -, -⟩ := form
      refine (fill_of_ok (if_neg new) (congrArg (Except.map some) read) _).trans ?_
      simp [filled, Option.mem_def.mp body]

theorem Labelled.ofJson_of_form {m : Method} (h : m.Labelled) {v : Json}
    (form : IsRecordOf m.fields v) {depth n : Nat} (deep : depth + 3 + n = Json.maxDepth)
    (bounded : WellFormed (n + 4) v) : ofJson depth v = .ok m.resumed := by
  refine readRecord_of_form form (by simp [fields]) m.filled bounded (h.fills deep) ?_ ?_
  · intro keys k w unknown
    rw [Draft.field_of_unknown unknown, filled_of_unknown unknown]
  · intro keys present
    simp only [fields, List.forall_mem_cons, Field.exactly] at present
    obtain ⟨name, params, ret, body, -⟩ := present
    have params : (m.filled keys).params.getD [] = m.params := getD_of_default params
    have body : (m.filled keys).body.getD none = m.body.map Body.resumed :=
      getD_of_default (body.imp_right fun none => by rw [none, Option.map_none])
    have name : (m.filled keys).name = some m.name := if_pos (name.resolve_right id)
    have ret : (m.filled keys).ret = some m.ret := if_pos (ret.resolve_right id)
    simp [Draft.finish?, name, params, ret, body, resumed]

end Method

namespace CodeUnit

/-- The fields of the document of a unit. -/
def fields (u : CodeUnit) : List Field :=
  [.exactly "name" (.text u.name),
    ⟨"methods", IsListOf (fun m => IsRecordOf m.fields) u.methods, u.methods = []⟩]

/-- What has been read of a unit once the fields of some names have been. -/
def filled (u : CodeUnit) (keys : List String) : Draft where
  name := if "name" ∈ keys then some u.name else none
  methods := if "methods" ∈ keys then some (u.methods.map Method.resumed) else none

theorem filled_of_unknown {u : CodeUnit} {keys : List String} {k : String}
    (unknown : k ∉ u.fields.map Field.name) : u.filled (keys ++ [k]) = u.filled keys := by
  simp only [fields, List.map_cons, List.map_nil, Field.name_exactly, List.mem_cons,
    List.not_mem_nil, or_false, not_or] at unknown
  simp [filled, Ne.symm unknown.1, Ne.symm unknown.2]

theorem Draft.field_of_unknown {u : CodeUnit} {k : String} (unknown : k ∉ u.fields.map Field.name)
    (v : Json) (d : Draft) : Draft.field k v d = .ok d := by
  simp only [fields, List.map_cons, List.map_nil, Field.name_exactly, List.mem_cons,
    List.not_mem_nil, or_false, not_or] at unknown
  simp [Draft.field, unknown, pure, Except.pure]

theorem methodsOfJson_of_form {u : CodeUnit} (each : ∀ m ∈ u.methods, m.Labelled) {v : Json}
    (form : IsListOf (fun m => IsRecordOf m.fields) u.methods v)
    (bounded : WellFormed (Json.maxDepth - 1) v) :
    methodsOfJson v = .ok (u.methods.map Method.resumed) := by
  obtain ⟨forms⟩ := form
  rename_i items
  have bounded := WellFormed.of_mem_list (n := Json.maxDepth - 2) bounded
  have read : items.mapM (Method.ofJson 3) = .ok (u.methods.map Method.resumed) :=
    Json.mapM_of_forall₂ forms fun m there w member form =>
      (each m there).ofJson_of_form form (n := Json.maxDepth - 6) rfl (bounded w member)
  simp only [methodsOfJson, Json.list, read]
  rfl

/-- A unit whose labels are in order is read, its bodies resumed, from any record of its fields
that nests within the limit. -/
theorem ofJson_of_form {u : CodeUnit} (each : ∀ m ∈ u.methods, m.Labelled) {v : Json}
    (form : IsRecordOf u.fields v) (bounded : WellFormed Json.maxDepth v) :
    ofJson v = .ok u.resumed := by
  refine readRecord_of_form (n := Json.maxDepth - 1) form (by simp [fields]) u.filled bounded
    ?_ ?_ ?_
  · intro keys
    simp only [fields, List.forall_mem_cons, Field.exactly]
    refine ⟨?_, ?_, by simp⟩
    · rintro new v rfl -
      refine (fill_of_ok (if_neg new) rfl _).trans ?_
      simp [filled]
    · intro new v form bounded
      have methods := methodsOfJson_of_form each form bounded
      refine (fill_of_ok (if_neg new) methods _).trans ?_
      simp [filled]
  · intro keys k w unknown
    rw [Draft.field_of_unknown unknown, filled_of_unknown unknown]
  · intro keys present
    simp only [fields, List.forall_mem_cons, Field.exactly] at present
    obtain ⟨name, methods, -⟩ := present
    have name : (u.filled keys).name = some u.name := if_pos (name.resolve_right id)
    have methods : (u.filled keys).methods.getD [] = u.methods.map Method.resumed :=
      getD_of_default (methods.imp_right fun none => by rw [none, List.map_nil])
    simp [Draft.finish?, name, methods, resumed]

/-- **Reading any form of a document**: any text of any form of a unit whose labels are in order,
nested within the limit, is read as that unit, its bodies resumed. -/
theorem ofDocument_of_form {u : CodeUnit} (each : ∀ m ∈ u.methods, m.Labelled) {v : Json}
    (form : IsRecordOf u.fields v) (bounded : WellFormed Json.maxDepth v) {text : String}
    (layout : Token.Layout v.tokens text.toList) : ofDocument text = .ok u.resumed := by
  simp only [ofDocument, Json.readDocument, bounded.read_layout layout,
    ofJson_of_form each form bounded]
  rfl

end CodeUnit

/-! ### The canonical form -/

theorem MethodRef.isRecordOf_toJson (m : MethodRef) : IsRecordOf m.fields m.toJson :=
  Json.isRecordOf_record (.given rfl (.given rfl (.given rfl (.given rfl .nil))))

theorem Trap.isRecordOf_toJson (t : Trap) : IsRecordOf t.fields t.toJson :=
  Json.isRecordOf_record (.given rfl (.given rfl (.given rfl (.given rfl .nil))))

theorem Binding.form_toJson (b : Binding) : b.Form b.toJson := by
  cases b with
  | this type => exact .this (Json.isRecordOf_record (.given rfl .nil))
  | parameter index type => exact .parameter (Json.isRecordOf_record (.given rfl (.given rfl .nil)))
  | caughtException => exact .caughtException

theorem Instruction.inOrder_members (code : Instruction) :
    Json.InOrder code.fields code.members := by
  cases code with
  | identity target source =>
    exact .given rfl (.given rfl (.given source.form_toJson .nil))
  | invoke callee args =>
    exact .given rfl (.given callee.isRecordOf_toJson (.given rfl .nil))
  | plain => exact .given rfl (.given rfl .nil)
  | branch => exact .given rfl (.given rfl (.given rfl .nil))
  | goto => exact .given rfl (.given rfl .nil)
  | ret => exact .given rfl (.given rfl .nil)
  | throw => exact .given rfl (.given rfl .nil)

theorem Statement.isRecordOf_toJson (s : Statement) : IsRecordOf s.fields s.toJson :=
  Json.isRecordOf_record (.given rfl s.code.inOrder_members)

theorem Body.isRecordOf_toJson (b : Body) : IsRecordOf b.fields b.toJson :=
  Json.isRecordOf_record (.given (Json.isListOf_list Statement.isRecordOf_toJson)
    (.given (Json.isListOf_list Trap.isRecordOf_toJson) .nil))

theorem Method.isRecordOf_toJson (m : Method) : IsRecordOf m.fields m.toJson := by
  have body : (m.body = none ∧ Json.optional Body.toJson m.body = .null) ∨
      ∃ b ∈ m.body, IsRecordOf b.fields (.optional Body.toJson m.body) := by
    cases m.body with
    | none => exact .inl ⟨rfl, rfl⟩
    | some b => exact .inr ⟨b, rfl, b.isRecordOf_toJson⟩
  exact Json.isRecordOf_record (.given rfl (.given rfl (.given rfl (.given body .nil))))

/-- The document that is written of a unit is one of its forms. -/
theorem CodeUnit.isRecordOf_toJson (u : CodeUnit) : IsRecordOf u.fields u.toJson :=
  Json.isRecordOf_record
    (.given rfl (.given (Json.isListOf_list Method.isRecordOf_toJson) .nil))

/-- **Reading a document back**: the compact document of a unit whose labels are in order is
read as that unit, its bodies resumed. -/
theorem CodeUnit.ofDocument_document {u : CodeUnit} (each : ∀ m ∈ u.methods, m.Labelled) :
    ofDocument u.document = .ok u.resumed := by
  have regular : Json.Regular Json.maxDepth u.toJson := u.regular_toJson
  exact ofDocument_of_form each u.isRecordOf_toJson regular.wellFormed regular.layout_compact

/-- A document says the name of its unit. -/
theorem CodeUnit.name_eq_of_document {u v : CodeUnit} (same : u.document = v.document) :
    u.name = v.name := by
  have regular (w : CodeUnit) : Json.Regular Json.maxDepth w.toJson := w.regular_toJson
  have value : u.toJson = v.toJson := by
    have parsed := congrArg Json.parse? same
    rw [document, document, (regular u).parse?_compact, (regular v).parse?_compact] at parsed
    exact Option.some.inj parsed
  have fields : u.name = v.name ∧ Json.list (u.methods.map Method.toJson) =
      Json.list (v.methods.map Method.toJson) := by
    simpa [toJson, Json.record, Json.text] using value
  exact fields.1

end Tracepoint
