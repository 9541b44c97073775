import Tracepoint.Descriptor.Editor
import Tracepoint.Proofs.Descriptor.Comments
import Tracepoint.Proofs.Descriptor.Declarations

/-!
# Lines that declare permissions

An editor writes a line for each queued name in front of the last closing tag that is in no comment.
Lines of plain names leave that closing tag the last one, wherever the next lines go
(`splitAtClosing?_withLines`). Read back, each line is one declaration of its name and of nothing
else (`permissions_line`, `package_line`), and the declarations around the lines are those of the
text before, as long as none begins in front of the lines and ends behind that place (`Uncrossed`).
So the names that are declared are the old ones and the queued ones, and the package is the old one
(`declares_withLines`).
-/

namespace Tracepoint.Descriptor

open Editor (line)

/-- The tag of a permission. -/
def permissionTag : List Char := "uses-permission".toList

/-- The attribute that names a permission. -/
def permissionKey : List Char := "android:name".toList

/-- The tag of the document. -/
def packageTag : List Char := "manifest".toList

/-- The attribute that names the package. -/
def packageKey : List Char := "package".toList

/-- A name made of letters, digits, underscores and dots, if it is made of anything. -/
def IsPlain (name : String) : Prop :=
  ∀ c ∈ name.toList, Text.isWord c = true ∨ c = '.'

/-- A name made of letters, digits, underscores and dots, and not of nothing. -/
structure IsPermission (name : String) : Prop where
  occupied : name.toList ≠ []
  chars : ∀ c ∈ name.toList, Text.isWord c = true ∨ c = '.'

/-- No declaration of a permission or a package begins in front of a place of a text and ends
behind it. -/
structure Uncrossed (cs : List Char) (place : Nat) : Prop where
  permissions : ∀ m ∈ spans permissionTag permissionKey 0 0 cs, m.start < place → m.stop ≤ place
  package : ∀ m ∈ spans packageTag packageKey 0 0 cs, m.start < place → m.stop ≤ place

/-- A text with lines that declare some names in front of a place. -/
def withLines (names : List String) (k : Nat) (cs : List Char) : List Char :=
  cs.take k ++ (names.flatMap line ++ cs.drop k)

/-- Lines for some names stand apart in front of a place of a text: without its comments, the text
with the lines in it has no declaration that begins in front of them and ends in them or behind. -/
def StandApart (names : List String) (k : Nat) (cs : List Char) : Prop :=
  Uncrossed (withoutComments 0 (withLines names k cs)) (withoutComments 0 (cs.take k)).length

instance {name : String} : Decidable (IsPlain name) :=
  decidable_of_iff (name.toList.all fun c => Text.isWord c || c == '.') (by simp [IsPlain])

instance {name : String} : Decidable (IsPermission name) :=
  decidable_of_iff (name.toList ≠ [] ∧ name.toList.all fun c => Text.isWord c || c == '.')
    ⟨fun h => ⟨h.1, by simpa using h.2⟩, fun h => ⟨h.occupied, by simpa using h.chars⟩⟩

instance {cs : List Char} {place : Nat} : Decidable (Uncrossed cs place) :=
  decidable_of_iff
    ((∀ m ∈ spans permissionTag permissionKey 0 0 cs, m.start < place → m.stop ≤ place) ∧
      ∀ m ∈ spans packageTag packageKey 0 0 cs, m.start < place → m.stop ≤ place)
    ⟨fun h => ⟨h.1, h.2⟩, fun h => ⟨h.permissions, h.package⟩⟩

instance {names : List String} {k : Nat} {cs : List Char} : Decidable (StandApart names k cs) :=
  inferInstanceAs (Decidable (Uncrossed _ _))

/-- A text declares what another one does, and the names of some lines in front of a place. -/
structure Declares (names : List String) (k : Nat) (xml rendered : String) : Prop where
  text : rendered.toList = withLines names k xml.toList
  /-- The lines are in no comment. -/
  uncommented : withoutComments 0 rendered.toList =
    withoutComments 0 (xml.toList.take k) ++
      (names.flatMap line ++ withoutComments 0 (xml.toList.drop k))
  permissions : ∀ n, n ∈ Descriptor.permissions rendered ↔
    n ∈ Descriptor.permissions xml ∨ n ∈ names
  package : Descriptor.package? rendered = Descriptor.package? xml

variable {name : String} {names : List String} {cs tag key x y z : List Char} {c : Char} {k : Nat}

theorem permissions_eq (xml : String) : permissions xml =
    (declarations permissionTag permissionKey 0 (withoutComments 0 xml.toList)).map String.ofList :=
  rfl

theorem package?_eq (xml : String) : package? xml =
    (declarations packageTag packageKey 0 (withoutComments 0 xml.toList)).head?.map String.ofList :=
  rfl

/-! ### Names -/

/-- A name holds no character that is neither part of a word nor a dot. -/
theorem IsPlain.not_mem (plain : IsPlain name) (other : Text.isWord c = false)
    (other' : c ≠ '.') : c ∉ name.toList := by
  intro member
  rcases plain c member with word | dot
  · rw [other] at word
    cases word
  · exact other' dot

theorem IsPermission.plain (named : IsPermission name) : IsPlain name :=
  named.chars

theorem IsPermission.isQuote_eq_false (named : IsPermission name) :
    ∀ c ∈ name.toList, isQuote c = false := by
  intro c member
  rw [← Bool.not_eq_true]
  intro quoted
  have either : c = '"' ∨ c = '\'' := by simpa [isQuote] using quoted
  rcases either with rfl | rfl
  · exact named.plain.not_mem (by decide) (by decide) member
  · exact named.plain.not_mem (by decide) (by decide) member

/-! ### One line -/

/-- What begins a line. -/
def lineIndent : List Char := [' ', ' ', ' ', ' ']

/-- What ends a line. -/
def lineEnd : List Char := [' ', '/', '>', '\n']

/-- A line behind its indent. -/
def lineTag (name : String) : List Char :=
  '<' :: (permissionTag ++ ' ' :: (permissionKey ++ '=' :: '"' :: (name.toList ++ '"' :: lineEnd)))

theorem line_eq (name : String) : line name = lineIndent ++ lineTag name := by
  have front : "    <uses-permission android:name=\"".toList = lineIndent ++
      '<' :: (permissionTag ++ ' ' :: (permissionKey ++ ['=', '"'])) := by decide
  have back : "\" />\n".toList = '"' :: lineEnd := by decide
  unfold line
  rw [front, back]
  simp only [lineTag, List.append_assoc, List.cons_append, List.nil_append]

theorem isQuote_eq_false_of_all (plain : x.all (fun c => !isQuote c) = true) :
    ∀ c ∈ x, isQuote c = false := by
  simpa using plain

theorem plain_permission : '<' ∉ permissionTag ∧ '<' ∉ permissionKey ∧
    ∀ c ∈ permissionKey, isQuote c = false :=
  ⟨by decide, by decide, isQuote_eq_false_of_all (by decide)⟩

theorem plain_package : '<' ∉ packageTag ∧ '<' ∉ packageKey ∧
    ∀ c ∈ packageKey, isQuote c = false :=
  ⟨by decide, by decide, isQuote_eq_false_of_all (by decide)⟩

/-- A line holds the start of one tag, which is no start of a comment. -/
theorem exists_lineTag (plain : IsPlain name) :
    ∃ rest, '<' ∉ 'u' :: rest ∧ lineTag name = '<' :: 'u' :: rest := by
  have first : permissionTag = 'u' :: permissionTag.tail := by decide
  have absent := plain.not_mem (c := '<') (by decide) (by decide)
  refine ⟨permissionTag.tail ++ ' ' :: (permissionKey ++ '=' :: '"' ::
    (name.toList ++ '"' :: lineEnd)), ?_, ?_⟩
  · rw [← List.cons_append, ← first]
    simp [plain_permission, absent, lineEnd]
  · rw [← List.cons_append, ← first, lineTag]

/-- No comment begins in a line. -/
theorem uncommented_line (plain : IsPlain name) : Uncommented (line name) := by
  obtain ⟨rest, single, tag⟩ := exists_lineTag plain
  rw [line_eq, tag]
  exact (uncommented_of_not_mem (by decide)).append (uncommented_tag (by decide) single)

/-- No comment ends in a line. -/
theorem offset?_line (plain : IsPlain name) (absent : offset? commentCloser y = none) :
    offset? commentCloser (line name ++ y) = none := by
  have front : offset? commentCloser (lineIndent ++ '<' :: (permissionTag ++
      ' ' :: (permissionKey ++ ['=']))) = none := by decide
  have middle : offset? commentCloser name.toList = none :=
    offset?_eq_none_of_not_mem (c := '-') (by decide) (plain.not_mem (by decide) (by decide))
  have back : offset? commentCloser ([' ', '/', '>'] ++ '\n' :: y) = none :=
    (offset?_append_cons_eq_none_iff (by decide) (by decide)).mpr ⟨by decide, absent⟩
  have split : line name ++ y = (lineIndent ++ '<' :: (permissionTag ++
      ' ' :: (permissionKey ++ ['=']))) ++ '"' :: (name.toList ++ '"' ::
        ([' ', '/', '>'] ++ '\n' :: y)) := by
    simp [line_eq, lineTag, lineEnd]
  rw [split]
  refine (offset?_append_cons_eq_none_iff (by decide) (by decide)).mpr ⟨front, ?_⟩
  exact (offset?_append_cons_eq_none_iff (by decide) (by decide)).mpr ⟨middle, back⟩

/-- The tag of a line is a declaration of its name. -/
theorem declaration?_lineTag (named : IsPermission name) (y : List Char) :
    declaration? permissionTag permissionKey (lineTag name ++ y) =
      some (name.toList, lineEnd ++ y) := by
  have spells : Spells permissionKey name.toList
      (permissionKey ++ ([] ++ '=' :: ([] ++ ['"'])) ++ (name.toList ++ ['"'])) :=
    .intro (.intro (by simp) (by simp) rfl) named.occupied named.isQuote_eq_false rfl
  obtain ⟨rest, starts⟩ : ∃ rest, permissionKey = 'a' :: rest := ⟨permissionKey.tail, by decide⟩
  have boundary : Text.isBoundary (some (permissionTag.getLast?.getD '<')) (some ' ') = true := by
    decide
  refine declaration?_eq_some_iff.mpr ⟨' ' :: (permissionKey ++ '=' :: '"' ::
    (name.toList ++ '"' :: (lineEnd ++ y))), by simp [lineTag], boundary, ?_⟩
  refine firstAssignment?_cons_eq_some_iff.mpr (.inr ⟨?_, by decide, ?_⟩)
  · rw [tried?, if_pos boundary, assignment?, starts]
    rfl
  · rw [starts, List.cons_append]
    refine firstAssignment?_cons_eq_some_iff.mpr (.inl ?_)
    rw [tried?, if_pos (by decide), ← List.cons_append, ← starts]
    exact assignment?_eq_some_iff.mpr ⟨_, spells, by simp⟩

/-- A line is one declaration, of its name. -/
theorem permissions_line (named : IsPermission name) (y : List Char) :
    declarations permissionTag permissionKey 0 (line name ++ y) =
      name.toList :: declarations permissionTag permissionKey 0 y := by
  have found := declaration?_lineTag named y
  have split : lineTag name ++ y = '<' :: ((permissionTag ++
      ' ' :: (permissionKey ++ '=' :: '"' :: (name.toList ++ ['"']))) ++ (lineEnd ++ y)) := by
    simp [lineTag]
  rw [split] at found
  rw [line_eq, List.append_assoc, declarations_append_of_not_mem (by decide), split,
    declarations_cons_of_some found, declarations_append_of_not_mem (by decide)]

/-- A line says nothing of the package. -/
theorem package_line (named : IsPermission name) (y : List Char) :
    declarations packageTag packageKey 0 (line name ++ y) =
      declarations packageTag packageKey 0 y := by
  obtain ⟨rest, plain, tag⟩ := exists_lineTag named.plain
  obtain ⟨rest', tag'⟩ : ∃ rest', packageTag = 'm' :: rest' := ⟨packageTag.tail, by decide⟩
  have absent (z : List Char) : declaration? packageTag packageKey ('<' :: 'u' :: z) = none := by
    rw [declaration?, tag']
    rfl
  rw [line_eq, tag, List.append_assoc, List.cons_append, List.cons_append,
    declarations_append_of_not_mem (by decide), declarations_cons_of_none (absent _),
    ← List.cons_append, declarations_append_of_not_mem plain]

/-- The closing tag has no attribute. -/
theorem firstAssignment?_closingTag (before : Char) (y : List Char) :
    firstAssignment? permissionKey before (closingTag ++ y) = none ∧
      firstAssignment? packageKey before (closingTag ++ y) = none := by
  have tag : closingTag = ['<', '/', 'm', 'a', 'n', 'i', 'f', 'e', 's', 't', '>'] := by decide
  have key : permissionKey = 'a' :: 'n' :: 'd' :: permissionKey.drop 3 := by decide
  have key' : packageKey = 'p' :: packageKey.tail := by decide
  rw [tag, key, key']
  simp [firstAssignment?, assignment?, dropStart?]

/-! ### Some lines -/

section Plain

variable (plain : ∀ n ∈ names, IsPlain n)

include plain

theorem uncommented_lines : Uncommented (names.flatMap line) := by
  induction names with
  | nil => exact .nil
  | cons n rest ih =>
    rw [List.flatMap_cons]
    exact (uncommented_line (plain n List.mem_cons_self)).append
      (ih fun m member => plain m (List.mem_cons_of_mem n member))

theorem offset?_lines (absent : offset? commentCloser y = none) :
    offset? commentCloser (names.flatMap line ++ y) = none := by
  induction names with
  | nil => exact absent
  | cons n rest ih =>
    rw [List.flatMap_cons, List.append_assoc]
    exact offset?_line (plain n List.mem_cons_self)
      (ih fun m member => plain m (List.mem_cons_of_mem n member))

end Plain

section Lines

variable (named : ∀ n ∈ names, IsPermission n)

include named

theorem permissions_lines (y : List Char) :
    declarations permissionTag permissionKey 0 (names.flatMap line ++ y) =
      names.map String.toList ++ declarations permissionTag permissionKey 0 y := by
  induction names with
  | nil => rfl
  | cons n rest ih =>
    rw [List.flatMap_cons, List.append_assoc, permissions_line (named n List.mem_cons_self),
      ih fun m member => named m (List.mem_cons_of_mem n member), List.map_cons, List.cons_append]

theorem package_lines (y : List Char) :
    declarations packageTag packageKey 0 (names.flatMap line ++ y) =
      declarations packageTag packageKey 0 y := by
  induction names with
  | nil => rfl
  | cons n rest ih =>
    rw [List.flatMap_cons, List.append_assoc, package_line (named n List.mem_cons_self),
      ih fun m member => named m (List.mem_cons_of_mem n member)]

end Lines

theorem aloof_lines (names : List String) (aloof : Aloof y) : Aloof (names.flatMap line ++ y) := by
  cases names with
  | nil => exact aloof
  | cons n rest =>
    rw [List.flatMap_cons, line_eq, lineIndent]
    simp [Aloof]

/-- A declaration that runs into the tag behind some lines runs into the lines. -/
theorem runsInto_lines {q : List Char} (names : List String) (plain : '<' ∉ tag)
    (plain' : '<' ∉ key) (silent : ∀ before, firstAssignment? key before ('<' :: q) = none) :
    RunsInto tag key ('<' :: q) (names.flatMap line ++ '<' :: q) := by
  cases names with
  | nil => exact .refl
  | cons n rest =>
    have split : (n :: rest).flatMap line ++ '<' :: q = (lineIndent ++ '<' :: (permissionTag ++
        ' ' :: (permissionKey ++ ['=']))) ++ '"' :: (n.toList ++ '"' ::
          (lineEnd ++ (rest.flatMap line ++ '<' :: q))) := by
      simp [line_eq, lineTag]
    rw [split]
    exact runsInto_tag plain plain' (by simp [lineIndent])
      (isQuote_eq_false_of_all (by decide)) rfl silent

/-! ### The text with its lines -/

theorem closingTag_eq : closingTag = '<' :: '/' :: "manifest>".toList := by decide

theorem uncommented_closingTag : Uncommented closingTag := by
  rw [closingTag_eq]
  exact uncommented_tag (by decide) (by decide)

theorem IsClosing.aloof (closing : IsClosing cs k) : Aloof (cs.drop k) := by
  obtain ⟨rest, split⟩ := closing.tag
  rw [← split, closingTag_eq]
  simp [Aloof]

/-- The declarations of a text are those in front of some lines and those from there on, with the
lines and without them. -/
theorem declarations_around {front q : List Char} (plain : '<' ∉ tag) (plain' : '<' ∉ key)
    (bare : ∀ c ∈ key, isQuote c = false)
    (silent : ∀ before, firstAssignment? key before (closingTag ++ q) = none)
    (apart : ∀ m ∈ spans tag key 0 0 (front ++ (names.flatMap line ++ (closingTag ++ q))),
      m.start < front.length → m.stop ≤ front.length) :
    declarations tag key 0 (front ++ (names.flatMap line ++ (closingTag ++ q))) =
        declarations tag key 0 front ++
          declarations tag key 0 (names.flatMap line ++ (closingTag ++ q)) ∧
      declarations tag key 0 (front ++ (closingTag ++ q)) =
        declarations tag key 0 front ++ declarations tag key 0 (closingTag ++ q) := by
  have apart' : ∀ m ∈ spans tag key 0 0 (front ++ (names.flatMap line ++ (closingTag ++ q))),
      m.start < 0 + front.length → m.stop ≤ 0 + front.length := by
    simpa only [Nat.zero_add] using apart
  refine ⟨declarations_append bare .refl apart' (Nat.zero_le _),
    declarations_append bare ?_ apart' (Nat.zero_le _)⟩
  rw [closingTag_eq, List.cons_append] at silent ⊢
  exact runsInto_lines names plain plain' silent

/-- **Lines in front of a closing tag declare their names** and nothing else, if they stand
apart. -/
theorem declares_withLines {xml rendered : String} (closing : IsClosing xml.toList k)
    (named : ∀ n ∈ names, IsPermission n) (apart : StandApart names k xml.toList)
    (text : rendered.toList = withLines names k xml.toList) : Declares names k xml rendered := by
  obtain ⟨tagHere, outside⟩ := isClosing_iff.mp closing
  have whole := (outside.clear.scansApart closing.aloof closing.aloof id).withoutComments_append
  rw [List.take_append_drop] at whole
  have plain : ∀ n ∈ names, IsPlain n := fun n member => (named n member).plain
  have lines := (outside.clear.scansApart closing.aloof (aloof_lines names closing.aloof)
    (offset?_lines plain)).withoutComments_append
  rw [(uncommented_lines plain).withoutComments_append] at lines
  have uncrossed := apart
  rw [StandApart, withLines, lines] at uncrossed
  have stripped : withoutComments 0 rendered.toList = withoutComments 0 (xml.toList.take k) ++
      (names.flatMap line ++ withoutComments 0 (xml.toList.drop k)) := by
    rw [text, withLines, lines]
  obtain ⟨q, behind⟩ : ∃ q, withoutComments 0 (xml.toList.drop k) = closingTag ++ q := by
    obtain ⟨rest, split⟩ := tagHere
    exact ⟨withoutComments 0 rest, by
        rw [← split, uncommented_closingTag.withoutComments_append]⟩
  refine ⟨text, stripped, fun n => ?_, ?_⟩
  · obtain ⟨plain, plain', bare⟩ := plain_permission
    rw [behind] at uncrossed whole stripped
    obtain ⟨new, old⟩ := declarations_around plain plain' bare
      (fun before => (firstAssignment?_closingTag before q).1) uncrossed.permissions
    rw [permissions_eq, permissions_eq, stripped, whole, new, old, permissions_lines named]
    have names_eq : (names.map String.toList).map String.ofList = names := by simp
    simp only [List.map_append, names_eq, List.mem_append, or_assoc, or_comm (a := n ∈ names)]
  · obtain ⟨plain, plain', bare⟩ := plain_package
    rw [behind] at uncrossed whole stripped
    obtain ⟨new, old⟩ := declarations_around plain plain' bare
      (fun before => (firstAssignment?_closingTag before q).2) uncrossed.package
    rw [package?_eq, package?_eq, stripped, whole, new, old, package_lines named]

/-- A text that starts with the closing tag has a last one. -/
theorem isSome_splitAtClosing? (tag : closingTag <+: cs) : (splitAtClosing? 0 cs).isSome := by
  obtain ⟨rest, rfl⟩ := tag
  have begun : closingTag ++ rest = '<' :: '/' :: ("manifest>".toList ++ rest) := by
    rw [closingTag_eq, List.cons_append, List.cons_append]
  have here : closingTag.isPrefixOf (closingTag ++ rest) = true :=
    List.isPrefixOf_iff_prefix.mpr (List.prefix_append _ _)
  have plain : commentLength? (closingTag ++ rest) = none := by
    rw [begun]
    exact commentLength?_cons_eq_none_iff.mpr fun _ opens => by simp at opens
  rw [begun] at here plain ⊢
  rw [splitAtClosing?_cons_of_none plain, if_pos here]
  split <;> rfl

/-- Lines in front of the last closing tag leave it the last one. -/
theorem splitAtClosing?_withLines (last : IsLastClosing cs k) (plain : ∀ n ∈ names, IsPlain n) :
    splitAtClosing? 0 (withLines names k cs) =
      some (cs.take k ++ names.flatMap line, cs.drop k) := by
  have aloof := last.closing.aloof
  have clear := (isClosing_iff.mp last.closing).2.clear
  obtain ⟨⟨x, z⟩, here⟩ := Option.isSome_iff_exists.mp (isSome_splitAtClosing? last.closing.tag)
  have whole := (clear.scansApart aloof aloof id).splitAtClosing?_of_some here
  rw [List.take_append_drop, splitAtClosing?_eq_some_iff.mpr ⟨k, last, rfl, rfl⟩] at whole
  simp only [Option.some.injEq, Prod.mk.injEq, List.self_eq_append_right] at whole
  obtain ⟨rfl, rfl⟩ := whole
  have lines := (uncommented_lines plain).scansApart.splitAtClosing?_of_some here
  rw [List.append_nil] at lines
  exact (clear.scansApart aloof (aloof_lines names aloof)
    (offset?_lines plain)).splitAtClosing?_of_some lines

theorem render_of_none (e : Editor) (queued : e.queued ≠ [])
    (absent : splitAtClosing? 0 e.content.toList = none) :
    e.render = .error (.badInput (.noClosingTag e.path)) := by
  rw [Editor.render, if_neg (by simpa using queued), absent]

theorem render_of_some (e : Editor) (queued : e.queued ≠ [])
    (found : splitAtClosing? 0 e.content.toList = some (x, y)) :
    e.render = .ok (String.ofList (x ++ (e.queued.flatMap line ++ y))) := by
  rw [Editor.render, if_neg (by simpa using queued), found]
  simp only [List.append_assoc]

/-- An editor renders what it has queued in front of the last closing tag. -/
theorem render_eq_ok {e : Editor} (last : IsLastClosing e.content.toList k) :
    e.render = .ok (String.ofList (withLines e.queued k e.content.toList)) := by
  by_cases nothing : e.queued = []
  · rw [Editor.render, if_pos (by simpa using nothing), nothing, withLines]
    simp
  · rw [render_of_some e nothing (splitAtClosing?_eq_some_iff.mpr ⟨k, last, rfl, rfl⟩), withLines]

theorem exists_last_of_render {e : Editor} {rendered : String} (queued : e.queued ≠ [])
    (renders : e.render = .ok rendered) : ∃ k, IsLastClosing e.content.toList k ∧
      rendered = String.ofList (withLines e.queued k e.content.toList) := by
  rw [Editor.render, if_neg (by simpa using queued)] at renders
  split at renders
  · cases renders
  · rename_i before after found
    obtain ⟨k, last, rfl, rfl⟩ := splitAtClosing?_eq_some_iff.mp found
    cases renders
    exact ⟨k, last, by simp only [withLines, List.append_assoc]⟩

end Tracepoint.Descriptor
