import Mathlib.Data.List.Induction
import Mathlib.Data.List.Nodup
import Mathlib.Data.List.Perm.Basic
import Tracepoint.Proofs.Json.Reading

/-!
# Records in any order

A record gives its fields (`Json.IsRecordOf`) in any order and among members of other names, and
without some of those that may be left out. All that its readers see is the order-free part: what
is given under the name of a field is a value of it, it is given once, and it is given unless it
may be left out (`Json.Gives`). So a reader that looks its fields up finds them
(`Json.Gives.exists_known`), and one that takes the members in as they come ends up the same
whatever their order is (`Json.Gives.foldlM`).
-/

namespace Tracepoint

namespace Json

/-- A field of a record: its name, the values that it can have, and whether it may be left out. -/
structure Field where
  name : String
  Holds : Json → Prop
  Omissible : Prop := False

/-- The field that has one value. -/
def Field.exactly (name : String) (v : Json) : Field :=
  ⟨name, (· = v), False⟩

@[simp] theorem Field.name_exactly (name : String) (v : Json) : (exactly name v).name = name := rfl

/-- Members that give fields in their order, without some of those that may be left out. -/
inductive InOrder : List Field → List (String × Json) → Prop where
  | nil : InOrder [] []
  | given {f : Field} {fields : List Field} {v : Json} {members : List (String × Json)}
      (holds : f.Holds v) (later : InOrder fields members) :
      InOrder (f :: fields) ((f.name, v) :: members)
  | omitted {f : Field} {fields : List Field} {members : List (String × Json)}
      (omissible : f.Omissible) (later : InOrder fields members) : InOrder (f :: fields) members

/-- A record of some fields, in any order and among members of other names. -/
inductive IsRecordOf (fields : List Field) : Json → Prop where
  | mk (others : List (String × Json)) {given members : List (String × Json)}
      (inOrder : InOrder fields given) (unknown : ∀ m ∈ others, m.1 ∉ fields.map Field.name)
      (reordered : members.Perm (given ++ others)) : IsRecordOf fields (.record members)

/-- What can be told of the members of a record of some fields without their order. -/
structure Gives (fields : List Field) (members : List (String × Json)) : Prop where
  holds : ∀ f ∈ fields, ∀ v, (f.name, v) ∈ members → f.Holds v
  present : ∀ f ∈ fields, f.name ∈ members.map Prod.fst ∨ f.Omissible
  once : ((members.map Prod.fst).filter (· ∈ fields.map Field.name)).Nodup

/-- A list of values that stand for the items of another list. -/
inductive IsListOf {α : Type} (R : α → Json → Prop) (l : List α) : Json → Prop where
  | mk {items : List Json} (each : List.Forall₂ R l items) : IsListOf R l (.list items)

variable {fields : List Field} {f : Field} {members given others : List (String × Json)}
  {names : List String} {name : String} {v : Json}

namespace InOrder

theorem keys_sublist (h : InOrder fields given) :
    (given.map Prod.fst).Sublist (fields.map Field.name) := by
  induction h with
  | nil => exact .slnil
  | given _ _ ih => exact ih.cons_cons _
  | omitted _ _ ih => exact ih.cons _

theorem present (h : InOrder fields given) :
    ∀ f ∈ fields, f.name ∈ given.map Prod.fst ∨ f.Omissible := by
  induction h with
  | nil => simp
  | given _ _ ih =>
    refine List.forall_mem_cons.mpr ⟨.inl List.mem_cons_self, fun f there => ?_⟩
    exact (ih f there).imp_left (List.mem_cons_of_mem _)
  | omitted omissible _ ih => exact List.forall_mem_cons.mpr ⟨.inr omissible, ih⟩

theorem holds (h : InOrder fields given) (distinct : (fields.map Field.name).Nodup) :
    ∀ f ∈ fields, ∀ v, (f.name, v) ∈ given → f.Holds v := by
  induction h with
  | nil => simp
  | @given f fields v given holds later ih =>
    obtain ⟨new, distinct⟩ := List.nodup_cons.mp distinct
    refine List.forall_mem_cons.mpr ⟨fun w member => ?_, fun g there w member => ?_⟩
    · rcases List.mem_cons.mp member with same | again
      · cases same
        exact holds
      · exact absurd (later.keys_sublist.subset (List.mem_map_of_mem again)) new
    · rcases List.mem_cons.mp member with same | again
      · have same : g.name = f.name := (Prod.mk.inj same).1
        exact absurd (same ▸ List.mem_map_of_mem there) new
      · exact ih distinct g there w again
  | @omitted f fields given _ later ih =>
    obtain ⟨new, distinct⟩ := List.nodup_cons.mp distinct
    refine List.forall_mem_cons.mpr ⟨fun w member => ?_, ih distinct⟩
    exact absurd (later.keys_sublist.subset (List.mem_map_of_mem member)) new

end InOrder

/-- A record of some fields gives them. -/
theorem IsRecordOf.gives (h : IsRecordOf fields v) (distinct : (fields.map Field.name).Nodup) :
    ∃ members, v = .record members ∧ Gives fields members := by
  obtain ⟨others, inOrder, unknown, reordered⟩ := h
  rename_i given members
  refine ⟨members, rfl, ?_, ?_, ?_⟩
  · intro f there v member
    rcases List.mem_append.mp (reordered.subset member) with known | other
    · exact inOrder.holds distinct f there v known
    · exact absurd (List.mem_map_of_mem there) (unknown _ other)
  · refine fun f there => (inOrder.present f there).imp_left fun known => ?_
    have keys := (reordered.map Prod.fst).symm.subset
    rw [List.map_append] at keys
    exact keys (List.mem_append_left _ known)
  · have none : (others.map Prod.fst).filter (· ∈ fields.map Field.name) = [] := by
      simpa [List.filter_eq_nil_iff] using fun k v member => by simpa using unknown (k, v) member
    have perm := (reordered.map Prod.fst).filter (· ∈ fields.map Field.name)
    rw [List.map_append, List.filter_append, none, List.append_nil] at perm
    exact perm.nodup_iff.mpr ((inOrder.keys_sublist.nodup distinct).filter _)

/-- The fields in their order, and nothing else, are a record of them. -/
theorem isRecordOf_record (inOrder : InOrder fields members) :
    IsRecordOf fields (.record members) :=
  .mk [] inOrder (by simp) (by simp)

/-! ### Looking fields up -/

/-- The known members of a record are those of a known name, if no such name is given twice. -/
theorem known?_eq_filter (once : ((members.map Prod.fst).filter (· ∈ names)).Nodup) :
    known? names (keyed members) = some (members.filter fun m => m.1 ∈ names) := by
  induction members with
  | nil => rfl
  | cons m ms ih =>
    rw [List.map_cons, List.filter_cons] at once
    rw [keyed_cons, known?]
    by_cases known : m.1 ∈ names
    · simp only [known, decide_true, if_true] at once
      obtain ⟨new, later⟩ := List.nodup_cons.mp once
      have single : m.1 ∉ (ms.filter fun m => m.1 ∈ names).map Prod.fst := by
        rintro again
        obtain ⟨e, there, same⟩ := List.mem_map.mp again
        exact new (List.mem_filter.mpr
          ⟨same ▸ List.mem_map_of_mem (List.mem_of_mem_filter there), by simpa using known⟩)
      simp only [ih later, Option.bind_eq_bind, Option.bind_some, if_pos known, if_neg single]
      simp [known]
    · simp only [known, decide_false, Bool.false_eq_true, if_false] at once
      simp [ih once, known]

/-- With distinct keys, the fields that are known of a record are those of a known name. -/
theorem fields?_record (distinct : (members.map Prod.fst).Nodup) :
    fields? names (record members) = some (members.filter fun m => m.1 ∈ names) :=
  known?_eq_filter (distinct.filter _)

theorem lookup_filter (known : name ∈ names) :
    (members.filter fun m => m.1 ∈ names).lookup name = members.lookup name := by
  induction members with
  | nil => rfl
  | cons m ms ih =>
    obtain ⟨k, v⟩ := m
    rw [List.filter_cons, List.lookup_cons]
    cases here : name == k with
    | true =>
      obtain rfl := eq_of_beq here
      simp [known]
    | false =>
      split
      · rw [List.lookup_cons, here]
        exact ih
      · exact ih

/-- What is listed under distinct keys is found by them. -/
theorem lookup_of_nodup {α β : Type} [BEq α] [LawfulBEq α] {entries : List (α × β)} {k : α} {v : β}
    (distinct : (entries.map Prod.fst).Nodup) (member : (k, v) ∈ entries) :
    entries.lookup k = some v := by
  obtain ⟨before, after, split⟩ := List.append_of_mem member
  refine List.lookup_eq_some_iff.mpr ⟨before, after, split, fun e early => ?_⟩
  rw [split, List.map_append, List.map_cons] at distinct
  have apart := List.disjoint_of_nodup_append distinct (List.mem_map_of_mem early)
  rw [bne_iff_ne]
  rintro rfl
  exact apart List.mem_cons_self

theorem mem_of_lookup (found : members.lookup name = some v) : (name, v) ∈ members := by
  obtain ⟨before, after, rfl, -⟩ := List.lookup_eq_some_iff.mp found
  simp

/-- A field is found with one of its values, or may be left out and is. -/
def Field.AnsweredBy (f : Field) (known : Fields) : Prop :=
  (∃ v, known.lookup f.name = some v ∧ f.Holds v) ∨ known.lookup f.name = none ∧ f.Omissible

@[simp] theorem Field.answeredBy_exactly {known : Fields} :
    (Field.exactly name v).AnsweredBy known ↔ known.lookup name = some v := by
  simp [Field.AnsweredBy, Field.exactly]

namespace Field.AnsweredBy

variable {α : Type} {decode : Json → Option α} {a fallback : α} {known : Fields}

/-- A field that must be there is read from any of its values. -/
theorem required? (answered : f.AnsweredBy known) (needed : ¬ f.Omissible)
    (decodes : ∀ v, (f.name, v) ∈ known → f.Holds v → decode v = some a) :
    known.required? f.name decode = some a := by
  rw [Fields.required?]
  rcases answered with ⟨v, found, holds⟩ | ⟨-, omissible⟩
  · rw [found, Option.bind_some, decodes v (mem_of_lookup found) holds]
  · exact absurd omissible needed

/-- A field that may be left out is read from any of its values, and from none. -/
theorem defaulted? (answered : f.AnsweredBy known) (absent : f.Omissible → fallback = a)
    (decodes : ∀ v, (f.name, v) ∈ known → f.Holds v → decode v = some a) :
    known.defaulted? f.name fallback decode = some a := by
  rw [Fields.defaulted?]
  rcases answered with ⟨v, found, holds⟩ | ⟨missing, omissible⟩
  · rw [found]
    exact decodes v (mem_of_lookup found) holds
  · rw [missing]
    exact congrArg some (absent omissible)

end Field.AnsweredBy

namespace Gives

theorem known? (gives : Gives fields members) (among : ∀ n ∈ names, n ∈ fields.map Field.name) :
    Json.known? names (keyed members) = some (members.filter fun m => m.1 ∈ names) := by
  refine known?_eq_filter ?_
  have narrower : (members.map Prod.fst).filter (· ∈ names) =
      ((members.map Prod.fst).filter (· ∈ fields.map Field.name)).filter (· ∈ names) := by
    rw [List.filter_filter]
    refine List.filter_congr fun k _ => ?_
    simpa using fun known => by simpa using among k known
  rw [narrower]
  exact gives.once.filter _

theorem answeredBy (gives : Gives fields members) (field : f ∈ fields) : f.AnsweredBy members := by
  cases found : members.lookup f.name with
  | some v =>
    exact .inl ⟨v, found, gives.holds f field v (mem_of_lookup found)⟩
  | none =>
    refine .inr ⟨found, (gives.present f field).resolve_left fun there => ?_⟩
    obtain ⟨m, member, same⟩ := List.mem_map.mp there
    have other := List.lookup_eq_none_iff.mp found m member
    simp [same] at other

/-- A reader that knows fields by some names finds each of them. -/
theorem exists_known (gives : Gives fields members) (names : List String)
    (among : ∀ n ∈ names, n ∈ fields.map Field.name) :
    ∃ known : Fields, Json.known? names (keyed members) = some known ∧
      (∀ m ∈ known, m ∈ members) ∧ ∀ f ∈ fields, f.name ∈ names → f.AnsweredBy known := by
  refine ⟨_, gives.known? among, fun m member => List.mem_of_mem_filter member, ?_⟩
  intro f field known
  rw [Field.AnsweredBy, lookup_filter known]
  exact gives.answeredBy field

/-- Without the members under the name of one field, the other fields are given. -/
theorem filter_ne (gives : Gives (f :: fields) members) (other : f.name ∉ fields.map Field.name) :
    Gives fields (members.filter fun m => m.1 ≠ f.name) := by
  have names : (members.filter fun m => m.1 ≠ f.name).map Prod.fst =
      (members.map Prod.fst).filter (· ≠ f.name) := by
    rw [List.filter_map]
    rfl
  refine ⟨fun g there v member => ?_, fun g there => ?_, ?_⟩
  · exact gives.holds g (List.mem_cons_of_mem _ there) v (List.mem_of_mem_filter member)
  · refine (gives.present g (List.mem_cons_of_mem _ there)).imp_left fun given => ?_
    rw [names, List.mem_filter]
    have different : g.name ≠ f.name := fun same => other (same ▸ List.mem_map_of_mem there)
    exact ⟨given, by simpa using different⟩
  · rw [names, List.filter_filter]
    have once := gives.once.filter (fun k => decide (k ∈ fields.map Field.name))
    rw [List.filter_filter] at once
    refine List.Nodup.sublist (List.monotone_filter_right _ fun k known => ?_) once
    simp only [Bool.and_eq_true, decide_eq_true_eq] at known ⊢
    exact ⟨known.1, List.mem_cons_of_mem _ known.1⟩

end Gives

/-! ### Well-formed containers -/

theorem WellFormed.of_mem_list {n : Nat} {items : List Json}
    (h : WellFormed (n + 1) (Json.list items)) : ∀ v ∈ items, WellFormed n v := by
  generalize whole : Json.list items = w at h
  cases h with
  | list each =>
    cases whole
    exact each
  | _ => cases whole

theorem WellFormed.of_mem_record {n : Nat} {members : List (String × Json)}
    (h : WellFormed (n + 1) (Json.record members)) : ∀ m ∈ members, WellFormed n m.2 := by
  generalize whole : Json.record members = w at h
  cases h with
  | record each =>
    have same : keyed members = keyed _ := (Json.object.inj whole).1
    have injective : Function.Injective fun m : String × Json => (some m.1, m.2) := by
      rintro ⟨k, v⟩ ⟨k', v'⟩ same
      simpa using same
    obtain rfl := List.map_injective_iff.mpr injective same
    exact each
  | _ => cases whole

/-- A reader of all fields of a record finds each of them, and what it finds can be held. -/
theorem IsRecordOf.exists_fields (h : IsRecordOf fields v)
    (distinct : (fields.map Field.name).Nodup) :
    ∃ known, v.fields? (fields.map Field.name) = some known ∧
      (∀ f ∈ fields, f.AnsweredBy known) ∧
      ∀ n, WellFormed (n + 1) v → ∀ m ∈ known, WellFormed n m.2 := by
  obtain ⟨members, rfl, gives⟩ := h.gives distinct
  obtain ⟨known, read, among, answers⟩ := gives.exists_known (fields.map Field.name) fun _ => id
  refine ⟨known, read, fun f field => answers f field (List.mem_map_of_mem field), ?_⟩
  exact fun n bounded m member => bounded.of_mem_record m (among m member)

/-! ### Taking members in as they come -/

/-- A reader that fills a field when it comes to it, and passes over other members, is left with
what its keys say. -/
theorem Gives.foldlM {σ ε : Type} {step : σ → String × Json → Except ε σ} {target : List String → σ}
    (gives : Gives fields members)
    (steps : ∀ keys, ∀ m ∈ members, (m.1 ∈ fields.map Field.name → m.1 ∉ keys) →
      step (target keys) m = .ok (target (keys ++ [m.1]))) :
    members.foldlM step (target []) = .ok (target (members.map Prod.fst)) := by
  have once := gives.once
  clear gives
  induction members using List.reverseRecOn with
  | nil => rfl
  | append_singleton ms m ih =>
    rw [List.map_append, List.filter_append] at once
    have new (known : m.1 ∈ fields.map Field.name) : m.1 ∉ ms.map Prod.fst := by
      intro again
      have here : m.1 ∈ (List.map Prod.fst [m]).filter (· ∈ fields.map Field.name) := by
        simpa using known
      exact List.disjoint_of_nodup_append once
        (List.mem_filter.mpr ⟨again, by simpa using known⟩) here
    have before := ih (fun keys e member => steps keys e (List.mem_append_left _ member))
      (List.nodup_append.mp once).1
    rw [List.foldlM_append, before, List.map_append]
    show List.foldlM step (target (ms.map Prod.fst)) [m] = _
    rw [List.foldlM_cons, steps _ m (by simp) new]
    rfl

/-! ### Lists -/

section Lists

variable {α β : Type} {R : α → Json → Prop} {l : List α} {items : List Json}

/-- A traversal of the items is read off them one by one. -/
theorem mapM_of_forall₂ {m : Type → Type} [Monad m] [LawfulMonad m] {decode : Json → m β}
    {g : α → β} (forms : List.Forall₂ R l items)
    (each : ∀ a ∈ l, ∀ v ∈ items, R a v → decode v = pure (g a)) :
    items.mapM decode = pure (l.map g) := by
  induction forms with
  | nil => simp
  | cons form _ ih =>
    have head := each _ List.mem_cons_self _ List.mem_cons_self form
    have tail := ih fun a there v member =>
      each a (List.mem_cons_of_mem _ there) v (List.mem_cons_of_mem _ member)
    simp [head, tail]

theorem isListOf_list {encode : α → Json} (each : ∀ a, R a (encode a)) :
    IsListOf R l (list (l.map encode)) :=
  .mk (List.forall₂_map_right_iff.mpr (List.forall₂_same.mpr fun a _ => each a))

theorem asListOf?_of_forall₂ {decode : Json → Option α} (forms : List.Forall₂ R l items)
    (each : ∀ a ∈ l, ∀ v ∈ items, R a v → decode v = some a) :
    asListOf? decode (list items) = some l := by
  have read := mapM_of_forall₂ (g := id) forms each
  rwa [List.map_id] at read

end Lists

end Json

end Tracepoint
