import Tracepoint.Proofs.Json.Reading

/-!
# Written values are laid out

The compact text of a regular value writes its tokens with nothing between them, and the indented
text puts white space between some of them. Both are layouts of its tokens
(`Json.Regular.layout_compact`, `Json.Regular.layout_indentedChars`), so the indented text is that
value and nothing else (`Json.Regular.parse?_indented`).
-/

namespace Tracepoint

namespace Json

open Token

/-! ### Each token in its canonical form -/

theorem form_of_mem_itemTokens {items : List Json}
    (each : ∀ v ∈ items, ∀ t ∈ v.tokens, t.Form t.spell) :
    ∀ t ∈ itemTokens items, t.Form t.spell := by
  induction items with
  | nil => simp [itemTokens]
  | cons v vs ih =>
    obtain ⟨head, tail⟩ := List.forall_mem_cons.mp each
    cases vs with
    | nil => exact head
    | cons w vs =>
      exact List.forall_mem_append.mpr ⟨head, List.forall_mem_cons.mpr ⟨.comma, ih tail⟩⟩

theorem form_of_mem_memberTokens {members : List (String × Json)}
    (each : ∀ m ∈ members, ∀ t ∈ m.2.tokens, t.Form t.spell) :
    ∀ t ∈ memberTokens (keyed members), t.Form t.spell := by
  induction members with
  | nil => simp [keyed, memberTokens]
  | cons m ms ih =>
    obtain ⟨head, tail⟩ := List.forall_mem_cons.mp each
    cases ms with
    | nil =>
      exact List.forall_mem_cons.mpr ⟨form_text _, List.forall_mem_cons.mpr ⟨.colon, head⟩⟩
    | cons m' ms =>
      have rest := List.forall_mem_append.mpr
        ⟨head, List.forall_mem_cons.mpr ⟨Form.comma, ih tail⟩⟩
      exact List.forall_mem_cons.mpr ⟨form_text _, List.forall_mem_cons.mpr ⟨.colon, rest⟩⟩

theorem Regular.form_of_mem_tokens {n : Nat} {v : Json} (h : Regular n v) :
    ∀ t ∈ v.tokens, t.Form t.spell := by
  induction h with
  | null => exact List.forall_mem_singleton.mpr .null
  | bool b =>
    cases b with
    | true => exact List.forall_mem_singleton.mpr .trueName
    | false => exact List.forall_mem_singleton.mpr .falseName
  | int => exact List.forall_mem_singleton.mpr (form_int _)
  | text s => exact List.forall_mem_singleton.mpr (form_text s)
  | list _ ih =>
    have items := List.forall_mem_append.mpr
      ⟨form_of_mem_itemTokens ih, List.forall_mem_singleton.mpr Form.closeArray⟩
    exact List.forall_mem_cons.mpr ⟨.openArray, items⟩
  | record _ ih =>
    have members := List.forall_mem_append.mpr
      ⟨form_of_mem_memberTokens ih, List.forall_mem_singleton.mpr Form.closeObject⟩
    exact List.forall_mem_cons.mpr ⟨.openObject, members⟩

/-- The compact text of a regular value is a form of its tokens. -/
theorem Regular.layout_compact {n : Nat} {v : Json} (h : Regular n v) :
    Layout v.tokens v.compact.toList := by
  rw [compact, String.toList_ofList]
  exact layout_spell h.form_of_mem_tokens

theorem Regular.parse?_compact {n : Nat} {v : Json} (h : Regular n v) :
    parse? v.compact = some v := by
  rw [parse?, h.wellFormed.read_layout h.layout_compact]
  rfl

/-! ### Indented -/

theorem isSpace_of_mem_newLine (depth : Nat) : ∀ c ∈ newLine depth, isSpace c := by
  refine List.forall_mem_cons.mpr ⟨rfl, fun c blank => ?_⟩
  rw [List.eq_of_mem_replicate blank]
  rfl

theorem layout_indentedItems {depth : Nat} {items : List Json}
    (each : ∀ v ∈ items, Layout v.tokens (indentedChars depth v)) :
    Layout (itemTokens items) (indentedItems depth items) := by
  induction items with
  | nil => exact .nil (List.forall_mem_nil _)
  | cons v vs ih =>
    obtain ⟨head, tail⟩ := List.forall_mem_cons.mp each
    have first := head.spaces_append (isSpace_of_mem_newLine depth)
    cases vs with
    | nil => exact first
    | cons w vs => exact first.append (Form.comma.layout_cons (ih tail))

theorem layout_indentedMembers {depth : Nat} {members : List (String × Json)}
    (each : ∀ m ∈ members, Layout m.2.tokens (indentedChars depth m.2)) :
    Layout (memberTokens (keyed members)) (indentedMembers depth (keyed members)) := by
  induction members with
  | nil => exact .nil (List.forall_mem_nil _)
  | cons m ms ih =>
    obtain ⟨head, tail⟩ := List.forall_mem_cons.mp each
    -- The space after the colon is white space like that of a new line.
    have value := head.spaces_append (List.forall_mem_singleton.mpr (show isSpace ' ' from rfl))
    have first := ((form_text m.1).layout_cons (Form.colon.layout_cons value)).spaces_append
      (isSpace_of_mem_newLine depth)
    cases ms with
    | nil =>
      simpa only [keyed, List.map_cons, List.map_nil, indentedMembers, memberTokens,
        List.append_assoc, List.cons_append, List.nil_append] using first
    | cons m' ms =>
      have whole := first.append (Form.comma.layout_cons (ih tail))
      simpa only [keyed, List.map_cons, indentedMembers, memberTokens,
        List.append_assoc, List.cons_append, List.nil_append] using whole

/-- The indented text of a regular value is a layout of its tokens, at any depth. -/
theorem Regular.layout_indentedChars {n : Nat} {v : Json} (h : Regular n v) (depth : Nat) :
    Layout v.tokens (indentedChars depth v) := by
  induction h generalizing depth with
  | null => exact Form.null.layout
  | bool b => cases b with
    | true => exact Form.trueName.layout
    | false => exact Form.falseName.layout
  | int => exact (form_int _).layout
  | text s => exact (form_text s).layout
  | @list _ items _ ih =>
    cases items with
    | nil => exact Form.openArray.layout_cons Form.closeArray.layout
    | cons v vs =>
      have close := Form.closeArray.layout.spaces_append (isSpace_of_mem_newLine depth)
      have lines := layout_indentedItems fun w member => ih w member (depth + 1)
      exact Form.openArray.layout_cons (lines.append close)
  | @record _ members _ ih =>
    cases members with
    | nil => exact Form.openObject.layout_cons Form.closeObject.layout
    | cons m ms =>
      have close := Form.closeObject.layout.spaces_append (isSpace_of_mem_newLine depth)
      have lines := layout_indentedMembers fun w member => ih w member (depth + 1)
      exact Form.openObject.layout_cons (lines.append close)

/-- **Reading what was laid out**: the indented text of a regular value is that value and nothing
else. -/
theorem Regular.parse?_indented {n : Nat} {v : Json} (h : Regular n v) :
    parse? v.indented = some v := by
  have layout : Layout v.tokens v.indented.toList := by
    rw [indented, String.toList_ofList]
    exact h.layout_indentedChars 0
  rw [parse?, h.wellFormed.read_layout layout]
  rfl

end Json

end Tracepoint
