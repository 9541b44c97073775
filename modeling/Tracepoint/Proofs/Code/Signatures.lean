import Mathlib.Data.List.Basic
import Tracepoint.Code.CodeUnit

/-!
# Signatures

A signature is put together from names, with dividers between them. If no name holds a divider,
every name ends where the divider behind it first stands (`Text.append_cons_inj`), and so do the
names in the list of parameters (`Text.intercalate_inj`). A signature can then be taken apart from
its front on, and belongs to one method only (`MethodRef.render_eq_iff`).
-/

namespace Tracepoint

/-! ### Texts that are put together -/

namespace Text

variable {c : Char} {x y a b : List Char} {parts parts' : List (List Char)}

/-- What stands in front of the first of some character is known from the whole. -/
theorem append_cons_inj (bare : c ∉ x) (bare' : c ∉ y) (same : x ++ c :: a = y ++ c :: b) :
    x = y ∧ a = b := by
  rcases List.append_eq_append_iff.mp same with ⟨mid, longer, rest⟩ | ⟨mid, longer, rest⟩
  all_goals
    cases mid with
    | nil =>
      rw [List.nil_append, List.cons.injEq] at rest
      simp [longer, rest.2]
    | cons d mid =>
      obtain ⟨rfl, -⟩ := List.cons.inj rest
      simp [longer] at bare bare'

/-- Joined parts that are not empty do not make the same as no parts. -/
theorem intercalate_ne_nil (named : ∀ s ∈ parts, s ≠ []) (occupied : parts ≠ []) :
    [c].intercalate parts ≠ [] := by
  obtain ⟨s, rest, rfl⟩ := List.exists_cons_of_ne_nil occupied
  have first := named s List.mem_cons_self
  cases rest <;> simp [List.intercalate_cons_cons, first]

/-- A list of parts is known from the parts joined, whatever their number. -/
theorem intercalate_inj (named : ∀ s ∈ parts, s ≠ []) (named' : ∀ s ∈ parts', s ≠ [])
    (bare : ∀ s ∈ parts, c ∉ s) (bare' : ∀ s ∈ parts', c ∉ s)
    (same : [c].intercalate parts = [c].intercalate parts') : parts = parts' := by
  by_cases none : parts = [] <;> by_cases none' : parts' = []
  · rw [none, none']
  · rw [none] at same
    exact absurd same.symm (intercalate_ne_nil named' none')
  · rw [none'] at same
    exact absurd same (intercalate_ne_nil named none)
  · rw [← List.splitOn_intercalate c bare none, same, List.splitOn_intercalate c bare' none']

end Text

/-! ### Names in signatures -/

/-- What stands between the names in a signature. -/
def dividers : List Char := [':', '(', ')', ',', ' ']

/-- A name that holds nothing that could end it in a signature. -/
def Undivided (name : String) : Prop :=
  ∀ c ∈ dividers, c ∉ name.toList

-- The quantifier is decided along the dividers, not along all characters.
instance (name : String) : Decidable (Undivided name) :=
  List.decidableBAll (fun c => c ∉ name.toList) dividers

namespace ValueType

/-- The types that are not named after a class. -/
def builtIn : List ValueType := [void, boolean, int, long, string]

/-- A type that can be told from its name: a class does not have the name of another type. -/
def Legible : ValueType → Prop
  | object name => name ≠ "" ∧ Undivided name ∧ ∀ t ∈ builtIn, name ≠ t.render
  | _ => True

instance (t : ValueType) : Decidable t.Legible := by
  cases t <;> unfold Legible <;> infer_instance

/-- The type of a name. -/
def ofName (name : String) : ValueType :=
  (builtIn.find? fun t => t.render = name).getD (object name)

variable {t t' : ValueType}

/-- A type is known from its name. -/
theorem Legible.ofName_render (legible : t.Legible) : ofName t.render = t := by
  cases t with
  | object name =>
    have other : builtIn.find? (fun t => t.render = name) = none := by
      rw [List.find?_eq_none]
      intro t member
      simpa using Ne.symm (legible.2.2 t member)
    rw [ofName, render, other, Option.getD_none]
  | _ => rfl

theorem Legible.undivided (legible : t.Legible) : Undivided t.render := by
  cases t with
  | object name => exact legible.2.1
  | _ => decide

theorem Legible.render_ne (legible : t.Legible) : t.render ≠ "" := by
  cases t with
  | object name => exact legible.1
  | _ => decide

end ValueType

/-! ### Signatures -/

namespace MethodRef

/-- A method whose signature can be taken apart: no name in it holds a divider, and no class has
the name of another type. -/
structure Legible (m : MethodRef) : Prop where
  owner : Undivided m.owner
  name : Undivided m.name
  params : ∀ t ∈ m.params, t.Legible
  ret : m.ret.Legible

instance (m : MethodRef) : Decidable m.Legible :=
  decidable_of_iff (Undivided m.owner ∧ Undivided m.name ∧ (∀ t ∈ m.params, t.Legible) ∧
      m.ret.Legible)
    ⟨fun ⟨owner, name, params, ret⟩ => ⟨owner, name, params, ret⟩,
    fun ⟨owner, name, params, ret⟩ => ⟨owner, name, params, ret⟩⟩

/-- The types of the parameters as they stand in the signature. -/
def listing (params : List ValueType) : List Char :=
  [','].intercalate (params.map fun t => t.render.toList)

theorem toList_render (m : MethodRef) : m.render.toList =
    '<' :: (m.owner.toList ++ ':' :: ' ' :: (m.ret.render.toList ++ ' ' ::
      (m.name.toList ++ '(' :: (listing m.params ++ ')' :: ['>'])))) := by
  simp [MethodRef.render, listing, Function.comp_def]

theorem not_mem_listing {params : List ValueType} {c : Char} (divider : c ∈ dividers)
    (other : c ≠ ',') (legible : ∀ t ∈ params, t.Legible) : c ∉ listing params := by
  induction params with
  | nil => simp [listing]
  | cons t params ih =>
    rw [List.forall_mem_cons] at legible
    have first : c ∉ t.render.toList := legible.1.undivided c divider
    have later := ih legible.2
    cases params with
    | nil => simpa [listing] using first
    | cons t' params => simpa [listing, List.intercalate_cons_cons, first, other] using later

/-- Parameters are known from their list. -/
theorem listing_inj {params params' : List ValueType} (legible : ∀ t ∈ params, t.Legible)
    (legible' : ∀ t ∈ params', t.Legible) (same : listing params = listing params') :
    params = params' := by
  have parts : params.map (fun t => t.render.toList) = params'.map fun t => t.render.toList := by
    apply Text.intercalate_inj _ _ _ _ same
    all_goals
      intro s member
      obtain ⟨t, listed, rfl⟩ := List.mem_map.mp member
    · simpa using (legible t listed).render_ne
    · simpa using (legible' t listed).render_ne
    · exact (legible t listed).undivided ',' (by decide)
    · exact (legible' t listed).undivided ',' (by decide)
  have types {params : List ValueType} (legible : ∀ t ∈ params, t.Legible) :
      (params.map fun t => t.render.toList).map (fun s => .ofName (.ofList s)) = params := by
    rw [List.map_map, List.map_congr_left (g := id), List.map_id]
    intro t listed
    simpa using (legible t listed).ofName_render
  rw [← types legible, parts, types legible']

/-- **A signature belongs to one method**: methods with the same signature are of one class, and
have the same name, the same parameters and the same type of result. -/
theorem render_eq_iff {m m' : MethodRef} (legible : m.Legible) (legible' : m'.Legible) :
    m.render = m'.render ↔
      m.owner = m'.owner ∧ m.name = m'.name ∧ m.params = m'.params ∧ m.ret = m'.ret := by
  constructor
  · intro same
    have chars := congrArg String.toList same
    rw [toList_render, toList_render, List.cons.injEq] at chars
    -- From the front on, each part ends at a divider that it cannot hold.
    obtain ⟨owner, chars⟩ := Text.append_cons_inj (legible.owner ':' (by decide))
      (legible'.owner ':' (by decide)) chars.2
    rw [List.cons.injEq] at chars
    obtain ⟨ret, chars⟩ := Text.append_cons_inj (legible.ret.undivided ' ' (by decide))
      (legible'.ret.undivided ' ' (by decide)) chars.2
    obtain ⟨name, chars⟩ := Text.append_cons_inj (legible.name '(' (by decide))
      (legible'.name '(' (by decide)) chars
    obtain ⟨params, -⟩ := Text.append_cons_inj
      (not_mem_listing (by decide) (by decide) legible.params)
      (not_mem_listing (by decide) (by decide) legible'.params) chars
    refine ⟨String.toList_inj.mp owner, String.toList_inj.mp name,
      listing_inj legible.params legible'.params params, ?_⟩
    rw [← legible.ret.ofName_render, String.toList_inj.mp ret, legible'.ret.ofName_render]
  · rintro ⟨owner, name, params, ret⟩
    simp only [MethodRef.render, owner, name, params, ret]

/-- A constructor that takes a list and a number. -/
def listConstructor : MethodRef :=
  ⟨"com.example.Box$1", "<init>", [.object "java.util.List", .int], .void⟩

/-- A constructor that takes a list. -/
def shortConstructor : MethodRef :=
  ⟨"com.example.Box$1", "<init>", [.object "java.util.List"], .void⟩

theorem render_eq_iff_constructors : listConstructor.Legible ∧ shortConstructor.Legible ∧
    listConstructor.render ≠ shortConstructor.render := by
  have legible : listConstructor.Legible := by decide
  have legible' : shortConstructor.Legible := by decide
  refine ⟨legible, legible', fun same => ?_⟩
  obtain ⟨-, -, params, -⟩ := (render_eq_iff legible legible').mp same
  exact absurd params (by decide)

/-- A class that has the name of another type cannot be told from it. -/
example : (⟨"A", "f", [.object "int"], .void⟩ : MethodRef).render =
    (⟨"A", "f", [.int], .void⟩ : MethodRef).render := rfl

end MethodRef

end Tracepoint
