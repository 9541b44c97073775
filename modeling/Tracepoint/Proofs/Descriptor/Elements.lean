import Mathlib.Data.List.Find
import Mathlib.Data.List.Nodup
import Tracepoint.Proofs.Descriptor.Attributes
import Tracepoint.Proofs.Descriptor.Ensuring

/-!
# Descriptors of empty elements

A descriptor of empty elements is a start tag, elements with attributes, and the closing tag
(`Document`). What a scan reads of it goes element by element (`permissions_text`): it reads an
element whose tag begins with the tag of a permission, if that ends a word there, and takes the
first attribute whose name ends in the key. So it also reads tags and names that only contain the
ones of a permission, and finds what the elements declare if there are none of those
(`Document.Distinct`).
-/

namespace Tracepoint.Descriptor

open Editor (line)

/-- An empty element, with the text behind it. -/
structure Element where
  tag : List Char
  attributes : List Attribute
  /-- What stands in front of the end of the tag. -/
  gap : List Char
  /-- What stands behind the element. -/
  behind : List Char
  named : IsXmlName tag
  blank : IsBlank gap ∧ IsBlank behind

/-- A descriptor of empty elements. -/
structure Document where
  /-- The attributes of the start tag. -/
  attributes : List Attribute
  /-- What stands in front of the end of the start tag. -/
  gap : List Char
  /-- What stands behind the start tag. -/
  lead : List Char
  elements : List Element
  /-- What stands behind the closing tag. -/
  trail : List Char
  blank : IsBlank gap ∧ IsBlank lead ∧ IsBlank trail

namespace Element

/-- An element behind the start of its tag, up to the end. -/
def inner (e : Element) : List Char :=
  e.tag ++ (e.attributes.flatMap Attribute.text ++ (e.gap ++ ['/']))

def text (e : Element) : List Char :=
  '<' :: (e.inner ++ '>' :: e.behind)

/-- What a scan for a permission finds in an element, with the attributes behind it. -/
def found? (e : Element) : Option (List Char × List Attribute) :=
  match dropStart? permissionTag e.tag with
  | none => none
  | some rest => if rest.head?.any Text.isWord then none else firstRead? e.tag e.attributes

/-- What a scan for a permission reads of an element. -/
def read? (e : Element) : Option (List Char) :=
  e.found?.map Prod.fst

/-- The permission that an element declares. -/
def declared? (e : Element) : Option (List Char) :=
  if e.tag = permissionTag then
    (e.attributes.find? fun a => a.name = permissionKey).map Attribute.value
  else none

end Element

namespace Document

/-- A descriptor up to its closing tag. -/
def front (d : Document) : List Char :=
  '<' :: (packageTag ++ (d.attributes.flatMap Attribute.text ++ (d.gap ++ '>' :: d.lead))) ++
    d.elements.flatMap Element.text

def text (d : Document) : String :=
  String.ofList (d.front ++ (closingTag ++ d.trail))

/-- No tag and no attribute's name is taken for that of a permission and is another one. -/
structure Distinct (d : Document) : Prop where
  tags : ∀ e ∈ d.elements, ∀ c rest, e.tag = permissionTag ++ c :: rest → Text.isWord c = true
  names : ∀ e ∈ d.elements, e.tag = permissionTag → ∀ a ∈ e.attributes,
    TakenForKey a.name → a.name = permissionKey

end Document

variable {x y z : List Char} {c : Char}

/-! ### Parts of a descriptor -/

/-- A character that ends the name of a tag is neither part of a word nor of a permission's tag. -/
theorem ends_tag (ends : Text.isBlank c = true ∨ c = '/') :
    Text.isWord c = false ∧ c ∉ permissionTag := by
  rcases ends with blank | rfl
  · refine ⟨isWord_eq_false_of_isBlank blank, fun member => ?_⟩
    have visible : permissionTag.all (fun c => !Text.isBlank c) = true := by decide
    have here := List.all_eq_true.mp visible c member
    rw [blank] at here
    cases here
  · exact ⟨by decide, by decide⟩

/-- Behind the name of a tag, something ends it. -/
theorem exists_cons_of_attributes (attributes : List Attribute) (blank : IsBlank x)
    (y : List Char) : ∃ d rest, attributes.flatMap Attribute.text ++ (x ++ '/' :: y) = d :: rest ∧
      (Text.isBlank d = true ∨ d = '/') := by
  cases attributes with
  | nil =>
    cases x with
    | nil => exact ⟨'/', y, rfl, .inr rfl⟩
    | cons d x => exact ⟨d, _, rfl, .inl (blank d List.mem_cons_self)⟩
  | cons a rest =>
    obtain ⟨d, gap, spaced⟩ := List.exists_cons_of_ne_nil a.spaced
    exact ⟨d, gap ++ (a.name ++ (a.before ++ (a.assigned ++
      (rest.flatMap Attribute.text ++ (x ++ '/' :: y))))),
      by simp [Attribute.text, Attribute.front, spaced],
      .inl (a.blank.1 d (spaced ▸ List.mem_cons_self))⟩

theorem not_mem_attributes (attributes : List Attribute) :
    '<' ∉ attributes.flatMap Attribute.text := by
  rw [List.mem_flatMap]
  rintro ⟨a, -, member⟩
  rw [Attribute.text, List.mem_append] at member
  exact member.elim (a.not_mem_front (by decide) (by decide)) (a.not_mem_assigned (.inl rfl))

namespace Element

variable (e : Element)

theorem not_mem_inner : '<' ∉ e.inner := by
  simp only [inner, List.mem_append, List.mem_singleton, not_or]
  exact ⟨e.named.not_mem (by decide), not_mem_attributes e.attributes,
    e.blank.1.not_mem (by decide), by decide⟩

theorem not_mem_behind : '<' ∉ '>' :: e.behind := by
  rw [List.mem_cons, not_or]
  exact ⟨by decide, e.blank.2.not_mem (by decide)⟩

/-- No comment begins in an element. -/
theorem uncommented : Uncommented e.text := by
  have starts := e.named.starts
  have lacks : '<' ∉ e.inner ++ '>' :: e.behind := by
    rw [List.mem_append, not_or]
    exact ⟨e.not_mem_inner, e.not_mem_behind⟩
  rw [text]
  cases tag : e.tag with
  | nil => simp [tag] at starts
  | cons c rest =>
    have other : c ≠ '!' := by
      rintro rfl
      rw [tag, List.head?_cons, Option.any_some] at starts
      exact absurd starts (by decide)
    rw [inner, tag] at lacks ⊢
    exact uncommented_tag other lacks

/-- A text begins another one, with something behind it that it does not hold, if it begins it
alone. -/
theorem dropStart?_append (lacks : c ∉ x) :
    dropStart? x (y ++ c :: z) = (dropStart? x y).map (· ++ c :: z) := by
  cases begun : dropStart? x y with
  | some rest =>
    rw [dropStart?_eq_some_iff] at begun
    exact dropStart?_eq_some_iff.mpr (by rw [begun, List.append_assoc])
  | none =>
    refine Option.eq_none_iff_forall_ne_some.mpr fun rest found => ?_
    obtain ⟨more, here, -⟩ := exists_rest_of_not_mem lacks (dropStart?_eq_some_iff.mp found)
    rw [dropStart?_eq_some_iff.mpr here] at begun
    cases begun

theorem not_mem_stop : '=' ∉ e.gap ++ ['/'] ∧ '>' ∉ e.gap ++ ['/'] := by
  simp only [List.mem_append, List.mem_singleton, not_or]
  exact ⟨⟨e.blank.1.not_mem (by decide), by decide⟩, e.blank.1.not_mem (by decide), by decide⟩

/-- What is found in an element is a declaration. -/
theorem declaration?_text (z : List Char) :
    declaration? permissionTag permissionKey ('<' :: (e.inner ++ '>' :: z)) =
      e.found?.map fun r => (r.1, r.2.flatMap Attribute.text ++ (e.gap ++ ['/'] ++ '>' :: z)) := by
  obtain ⟨d, rest, starts, ends⟩ :=
    exists_cons_of_attributes e.attributes e.blank.1 ('>' :: z)
  obtain ⟨other, lacks⟩ := ends_tag ends
  have behind :
      e.attributes.flatMap Attribute.text ++ (e.gap ++ ['/'] ++ '>' :: z) = d :: rest := by
    rw [← starts]
    simp
  have split : e.inner ++ '>' :: z = e.tag ++ d :: rest := by
    rw [← behind]
    simp [inner]
  rw [declaration?, dropStart?, if_pos rfl, split, dropStart?_append lacks, found?]
  cases begun : dropStart? permissionTag e.tag with
  | none => rfl
  | some more =>
    rw [dropStart?_eq_some_iff] at begun
    have last : permissionTag.getLast?.getD '<' = 'n' := by decide
    have boundary : Text.isBoundary (some 'n') (more ++ d :: rest).head? =
        !more.head?.any Text.isWord := by
      have word : Text.isWord 'n' = true := by decide
      cases more <;> simp [Text.isBoundary, word, other]
    have plain {c : Char} (outside : Text.inRanges (nameStartRanges ++ nameOnlyRanges) c.toNat =
        false) : c ∉ more := fun member =>
      e.named.not_mem outside (begun ▸ List.mem_append_right _ member)
    have lacks' : 'a' ∉ permissionTag.dropLast ++ ['n'] := by decide
    have front : permissionTag = permissionTag.dropLast ++ ['n'] := by decide
    have scan := firstAssignment?_attributes lacks' ⟨plain (by decide), plain (by decide)⟩
      e.not_mem_stop e.attributes z
    rw [← front, ← begun, behind] at scan
    dsimp only [Option.map_some]
    rw [last, boundary]
    cases more.head?.any Text.isWord with
    | true => rfl
    | false => exact scan

/-- What is read of an element is declared, and nothing else up to the next one. -/
theorem declarations_text (z : List Char) :
    declarations permissionTag permissionKey 0 (e.text ++ z) =
      e.read?.toList ++ declarations permissionTag permissionKey 0 z := by
  have split : e.text ++ z = '<' :: (e.inner ++ '>' :: (e.behind ++ z)) := by
    simp [text]
  have found := e.declaration?_text (e.behind ++ z)
  rw [split, read?]
  cases here : e.found? with
  | none =>
    rw [here] at found
    rw [declarations_cons_of_none found, declarations_append_of_not_mem e.not_mem_inner,
      ← List.cons_append, declarations_append_of_not_mem e.not_mem_behind]
    rfl
  | some r =>
    obtain ⟨value, attributes⟩ := r
    rw [here] at found
    -- What is behind the value is the end of the element, where no tag starts.
    obtain ⟨_, starts, -, assigned⟩ := declaration?_eq_some_iff.mp found
    obtain ⟨before, assignment, -, rfl⟩ := exists_spells_of_firstAssignment? assigned
    rw [List.cons_append, List.cons.injEq, ← List.append_assoc, ← List.append_assoc] at starts
    rw [starts.2] at found ⊢
    have rest : attributes.flatMap Attribute.text ++
        (e.gap ++ ['/'] ++ '>' :: (e.behind ++ z)) =
          attributes.flatMap Attribute.text ++ (e.gap ++ ['/'] ++ '>' :: e.behind) ++ z := by
      simp
    have lacks : '<' ∉ attributes.flatMap Attribute.text ++
        (e.gap ++ ['/'] ++ '>' :: e.behind) := by
      simp only [List.mem_append, List.mem_singleton, not_or]
      exact ⟨not_mem_attributes attributes, ⟨e.blank.1.not_mem (by decide), by decide⟩,
        e.not_mem_behind⟩
    rw [declarations_cons_of_some found, rest, declarations_append_of_not_mem lacks]
    rfl

variable {e : Element}

/-- Of a permission's element, the first attribute is read whose name is taken for the key. -/
theorem read?_of_tag (tag : e.tag = permissionTag) : e.read? =
    (e.attributes.find? fun a => TakenForKey a.name).map Attribute.value := by
  have begun : dropStart? permissionTag permissionTag = some [] :=
    dropStart?_eq_some_iff.mpr (List.append_nil _).symm
  have front : permissionTag = permissionTag.dropLast ++ ['n'] := by decide
  rw [read?, found?, tag, begun]
  dsimp only
  rw [List.head?_nil, Option.any_none, if_neg Bool.false_ne_true, front]
  exact firstRead?_eq_find? (by decide) e.attributes

/-- An element whose tag does not go on with a word behind that of a permission is one or is not
read. -/
theorem read?_of_ne (tags : ∀ c rest, e.tag = permissionTag ++ c :: rest → Text.isWord c = true)
    (other : e.tag ≠ permissionTag) : e.read? = none := by
  rw [read?, found?]
  cases begun : dropStart? permissionTag e.tag with
  | none => rfl
  | some more =>
    rw [dropStart?_eq_some_iff] at begun
    cases more with
    | nil => exact absurd (by simpa using begun) other
    | cons c rest => simp [tags c rest begun]

end Element

theorem declarations_elements (elements : List Element) (z : List Char) :
    declarations permissionTag permissionKey 0 (elements.flatMap Element.text ++ z) =
      elements.filterMap Element.read? ++ declarations permissionTag permissionKey 0 z := by
  induction elements with
  | nil => rfl
  | cons e rest ih =>
    rw [List.flatMap_cons, List.append_assoc, e.declarations_text, ih, List.filterMap_cons]
    cases e.read? <;> rfl

/-- A tag that starts otherwise than that of a permission is not read. -/
theorem declarations_tag_append (other : c ≠ 'u') (lacks : '<' ∉ c :: x) :
    declarations permissionTag permissionKey 0 ('<' :: c :: x ++ y) =
      declarations permissionTag permissionKey 0 y := by
  obtain ⟨tail, starts⟩ : ∃ tail, permissionTag = 'u' :: tail := ⟨permissionTag.tail, by decide⟩
  have absent : declaration? permissionTag permissionKey ('<' :: c :: (x ++ y)) = none := by
    rw [declaration?, starts, dropStart?, if_pos rfl, dropStart?, if_neg (Ne.symm other)]
  rw [List.cons_append, List.cons_append, declarations_cons_of_none absent, ← List.cons_append,
    declarations_append_of_not_mem lacks]

/-! ### A descriptor -/

namespace Document

variable (d : Document)

/-- The start tag, with what stands behind it, is no comment and no permission's. -/
theorem exists_start : ∃ c rest, c ≠ '!' ∧ c ≠ 'u' ∧ '<' ∉ c :: rest ∧
    d.front = '<' :: c :: rest ++ d.elements.flatMap Element.text := by
  obtain ⟨tail, starts⟩ : ∃ tail, packageTag = 'm' :: tail := ⟨packageTag.tail, by decide⟩
  refine ⟨'m', tail ++ (d.attributes.flatMap Attribute.text ++ (d.gap ++ '>' :: d.lead)),
    by decide, by decide, ?_, by rw [front, starts]; rfl⟩
  rw [← List.cons_append, ← starts]
  simp only [List.mem_append, List.mem_cons, not_or]
  exact ⟨by decide, not_mem_attributes d.attributes, d.blank.1.not_mem (by decide), by decide,
    d.blank.2.1.not_mem (by decide)⟩

theorem exists_end : ∃ rest, '<' ∉ '/' :: rest ∧ closingTag ++ d.trail = '<' :: '/' :: rest := by
  refine ⟨"manifest>".toList ++ d.trail, ?_,
    by rw [closingTag_eq, List.cons_append, List.cons_append]⟩
  simp only [List.mem_cons, List.mem_append, not_or]
  exact ⟨by decide, by decide, d.blank.2.2.not_mem (by decide)⟩

/-- No comment begins in front of the closing tag. -/
theorem uncommented_front : Uncommented d.front := by
  have elements : Uncommented (d.elements.flatMap Element.text) := by
    induction d.elements with
    | nil => exact .nil
    | cons e rest ih =>
      rw [List.flatMap_cons]
      exact e.uncommented.append ih
  obtain ⟨c, rest, other, -, lacks, starts⟩ := d.exists_start
  rw [starts]
  exact (uncommented_tag other lacks).append elements

theorem uncommented_end : Uncommented (closingTag ++ d.trail) := by
  obtain ⟨rest, lacks, ends⟩ := d.exists_end
  rw [ends]
  exact uncommented_tag (by decide) lacks

/-- **What is read of a descriptor is what is read of its elements.** -/
theorem permissions_eq_read :
    permissions d.text = (d.elements.filterMap Element.read?).map String.ofList := by
  obtain ⟨c, rest, -, other, lacks, starts⟩ := d.exists_start
  obtain ⟨rest', lacks', ends⟩ := d.exists_end
  have none : declarations permissionTag permissionKey 0 (closingTag ++ d.trail) = [] := by
    have whole := declarations_tag_append (y := []) (by decide) lacks'
    rw [List.append_nil] at whole
    rw [ends, whole]
    rfl
  rw [permissions_eq, text, String.toList_ofList,
    (d.uncommented_front.append d.uncommented_end).withoutComments, starts, List.append_assoc,
    declarations_tag_append other lacks, declarations_elements, none, List.append_nil]

/-- The closing tag is the last one. -/
theorem isLastClosing : IsLastClosing d.text.toList d.front.length := by
  obtain ⟨rest, lacks, ends⟩ := d.exists_end
  have later : splitAtClosing? 0 ('/' :: rest) = none := by
    refine Option.eq_none_iff_forall_ne_some.mpr fun s found => ?_
    obtain ⟨k, last, -, -⟩ := splitAtClosing?_eq_some_iff.mp found
    have tag : '<' ∈ closingTag := by decide
    exact lacks (List.mem_of_mem_drop (last.closing.tag.subset tag))
  have here : splitAtClosing? 0 (closingTag ++ d.trail) = some ([], closingTag ++ d.trail) := by
    have tag : closingTag.isPrefixOf (closingTag ++ d.trail) = true :=
      List.isPrefixOf_iff_prefix.mpr (List.prefix_append _ _)
    rw [ends] at tag ⊢
    rw [splitAtClosing?_cons_of_none (commentLength?_tag (by decide)), later]
    dsimp only
    rw [if_pos tag]
  have whole := d.uncommented_front.scansApart.splitAtClosing?_of_some here
  obtain ⟨k, last, front, -⟩ := splitAtClosing?_eq_some_iff.mp whole
  have long := last.closing.lt_length
  have place : k = d.front.length := by
    rw [← List.append_nil d.front, front, List.length_take]
    omega
  rw [text, String.toList_ofList, ← place]
  exact last

/-- Without misleading names, what is read of the elements is what they declare. -/
theorem filterMap_read? (distinct : d.Distinct) :
    d.elements.filterMap Element.read? = d.elements.filterMap Element.declared? := by
  refine List.filterMap_congr fun e member => ?_
  rw [Element.declared?]
  split
  · rename_i tag
    have same : (e.attributes.find? fun a => TakenForKey a.name) =
        e.attributes.find? fun a => a.name = permissionKey := by
      refine List.find?_congr fun a member' => ?_
      rw [decide_eq_decide]
      exact ⟨distinct.names e member tag a member', fun name => name ▸ takenForKey_permissionKey⟩
    rw [Element.read?_of_tag tag, same]
  · rename_i other
    exact Element.read?_of_ne (distinct.tags e member) other

end Document

/-- An element without two attributes of one name declares the value of the one that has the
name of a permission. -/
theorem Element.declared?_eq_some_iff {e : Element} {value : List Char}
    (once : (e.attributes.map Attribute.name).Nodup) : e.declared? = some value ↔
      e.tag = permissionTag ∧ ∃ a ∈ e.attributes, a.name = permissionKey ∧ a.value = value := by
  rw [declared?]
  split
  · rename_i tag
    simp only [tag, true_and, Option.map_eq_some_iff]
    constructor
    · rintro ⟨a, found, same⟩
      exact ⟨a, List.mem_of_find?_eq_some found, by simpa using List.find?_some found, same⟩
    · rintro ⟨a, member, name, same⟩
      obtain ⟨b, found⟩ : ∃ b, e.attributes.find? (fun a => a.name = permissionKey) = some b :=
        Option.isSome_iff_exists.mp (List.find?_isSome.mpr ⟨a, member, by simpa using name⟩)
      have other : b.name = permissionKey := by simpa using List.find?_some found
      obtain rfl := List.inj_on_of_nodup_map once member (List.mem_of_find?_eq_some found)
        (name.trans other.symm)
      exact ⟨a, found, same⟩
  · rename_i other
    simp [other]

/-- A value without equals signs is not the text of an assignment. -/
theorem not_assigns_of_not_mem (lacks : '=' ∉ x) : ¬ Assigns permissionKey x :=
  fun assigns => lacks assigns.mem

namespace Document

/-- **A descriptor of elements declares what is read of its elements**: what the elements of
permissions declare, if no tag and no name is taken for another one. A permission that is not read
is put in, in front of the closing tag. -/
theorem permissions_and_ensure (d : Document) :
    permissions d.text = (d.elements.filterMap Element.read?).map String.ofList ∧
      (d.Distinct →
        permissions d.text = (d.elements.filterMap Element.declared?).map String.ofList ∧
        ((∀ e ∈ d.elements, (e.attributes.map Attribute.name).Nodup) → ∀ n,
          n ∈ permissions d.text ↔ ∃ e ∈ d.elements, e.tag = permissionTag ∧
            ∃ a ∈ e.attributes, a.name = permissionKey ∧ String.ofList a.value = n)) ∧
      ∀ (content : Path) (name : String) (h : Host), h.Sound →
        h.readText (pathIn content) = .ok d.text →
          (name ∈ permissions d.text → ensure content name h = .ok false h) ∧
          (name ∉ permissions d.text → ∃ h', ensure content name h = .ok true h' ∧
            h'.readText (pathIn content) =
              .ok (String.ofList (d.front ++ (line name ++ (closingTag ++ d.trail))))) := by
  refine ⟨d.permissions_eq_read, fun distinct => ⟨?_, fun once n => ?_⟩,
    fun content name h sound read => ⟨ensure_of_declared read, fun absent => ?_⟩⟩
  · rw [permissions_eq_read, d.filterMap_read? distinct]
  · rw [permissions_eq_read, d.filterMap_read? distinct]
    simp only [List.mem_map, List.mem_filterMap]
    constructor
    · rintro ⟨value, ⟨e, member, declared⟩, rfl⟩
      obtain ⟨tag, a, member', name, rfl⟩ :=
        (Element.declared?_eq_some_iff (once e member)).mp declared
      exact ⟨e, member, tag, a, member', name, rfl⟩
    · rintro ⟨e, member, tag, a, member', name, rfl⟩
      exact ⟨a.value, ⟨e, member, (Element.declared?_eq_some_iff (once e member)).mpr
        ⟨tag, a, member', name, rfl⟩⟩, rfl⟩
  · obtain ⟨h', done, left⟩ := ensure_of_absent sound read absent d.isLastClosing
    refine ⟨h', done, ?_⟩
    rw [left]
    simp [withLines, text]

/-- A descriptor with one element, which has one attribute. -/
def single (tag name value : String) (named : IsXmlName tag.toList ∧ IsXmlName name.toList)
    (plain : value.toList ≠ [] ∧ '=' ∉ value.toList ∧
      value.toList.all fun c => !isQuote c && c != '<' && c != '>') : Document where
  attributes := []
  gap := []
  lead := []
  elements :=
    [{  tag := tag.toList
        attributes :=
          [{  gap := [' ']
              name := name.toList
              before := []
              after := []
              quote := '"'
              value := value.toList
              spaced := by simp
              blank := by decide
              named := named.2
              quoted := rfl
              occupied := plain.1
              plain := by simpa [and_assoc] using plain.2.2
              free := not_assigns_of_not_mem plain.2.1 }]
        gap := []
        behind := []
        named := named.1
        blank := by decide }]
  trail := []
  blank := by decide

/-- A descriptor that declares one permission, which is not that of the tracing channel. -/
def declaring : Document :=
  single "uses-permission" "android:name" "a.B" (by decide +kernel) (by decide +kernel)

/-- A descriptor whose only element is none of a permission. -/
def misleadingTag : Document :=
  single "uses-permission-sdk-23" "android:name" internetPermission (by decide +kernel)
    (by decide +kernel)

/-- A descriptor whose only element has no attribute of the name of a permission. -/
def misleadingName : Document :=
  single "uses-permission" "x-android:name" internetPermission (by decide +kernel)
    (by decide +kernel)

theorem permissions_and_ensure_declaring : permissions declaring.text = ["a.B"] ∧
    ∃ h', ensure "/app" internetPermission (hostOf declaring.text) = .ok true h' ∧
      h'.readText (pathIn "/app") = .ok (String.ofList
        (declaring.front ++ (line internetPermission ++ (closingTag ++ declaring.trail)))) := by
  obtain ⟨-, plain, ensures⟩ := permissions_and_ensure declaring
  have distinct : declaring.Distinct := by
    constructor
    · intro e member c rest tag
      simp only [declaring, single, List.mem_singleton] at member
      subst member
      have same : permissionTag = permissionTag ++ c :: rest := tag
      simp at same
    · intro e member tag a member' taken
      simp only [declaring, single, List.mem_singleton] at member
      subst member
      simp only [List.mem_singleton] at member'
      subst member'
      rfl
  have declared : permissions declaring.text = ["a.B"] := by
    rw [(plain distinct).1]
    decide +kernel
  refine ⟨declared, (ensures "/app" internetPermission (hostOf _) (sound_hostOf _)
    (readText_hostOf _)).2 ?_⟩
  rw [declared]
  decide +kernel

/-- Elements that declare nothing are taken for ones that declare a permission, which is then not
put in. -/
theorem exists_read_undeclared :
    (misleadingTag.text =
        "<manifest><uses-permission-sdk-23 android:name=\"android.permission.INTERNET\"/></manifest>" ∧
      (∀ e ∈ misleadingTag.elements, e.tag ≠ permissionTag) ∧
      internetPermission ∈ permissions misleadingTag.text ∧
      ensure "/app" internetPermission (hostOf misleadingTag.text) =
        .ok false (hostOf misleadingTag.text)) ∧
    (∀ e ∈ misleadingName.elements, ∀ a ∈ e.attributes, a.name ≠ permissionKey) ∧
      internetPermission ∈ permissions misleadingName.text := by
  have read : internetPermission ∈ permissions misleadingTag.text := by decide +kernel
  exact ⟨⟨by decide +kernel, by decide +kernel, read,
    ensure_of_declared (readText_hostOf _) read⟩, by decide +kernel, by decide +kernel⟩

end Document

end Tracepoint.Descriptor
