import Tracepoint.Proofs.Descriptor.Insertion

/-!
# Attributes of elements

A scan for a permission does not read the attributes of a tag. It looks for an equals sign and a
quote behind the key, at the start of a word. In attributes whose values hold nothing of the kind,
it finds the first one with the key in front of its equals sign (`firstAssignment?_attributes`):
the name is the key, or ends in it (`reads_front_iff`).
-/

namespace Tracepoint.Descriptor

variable {x y z key : List Char} {c before : Char}

/-- A text is blank, if it holds anything. -/
def IsBlank (x : List Char) : Prop :=
  ∀ c ∈ x, Text.isBlank c = true

instance : Decidable (IsBlank x) :=
  decidable_of_iff (x.all Text.isBlank) (by simp [IsBlank])

/-! ### Names -/

/-- The half-open code point ranges of the characters that start an XML name. -/
def nameStartRanges : List (Nat × Nat) :=
  [(0x3a, 0x3b), (0x41, 0x5b), (0x5f, 0x60), (0x61, 0x7b), (0xc0, 0xd7), (0xd8, 0xf7),
   (0xf8, 0x300), (0x370, 0x37e), (0x37f, 0x2000), (0x200c, 0x200e), (0x2070, 0x2190),
   (0x2c00, 0x2ff0), (0x3001, 0xd800), (0xf900, 0xfdd0), (0xfdf0, 0xfffe), (0x10000, 0xf0000)]

/-- The half-open code point ranges of the characters that go on with an XML name and start none. -/
def nameOnlyRanges : List (Nat × Nat) :=
  [(0x2d, 0x2f), (0x30, 0x3a), (0xb7, 0xb8), (0x300, 0x370), (0x203f, 0x2041)]

/-- An XML name. -/
structure IsXmlName (name : List Char) : Prop where
  starts : name.head?.any fun c => Text.inRanges nameStartRanges c.toNat
  chars : ∀ c ∈ name, Text.inRanges (nameStartRanges ++ nameOnlyRanges) c.toNat = true

instance {name : List Char} : Decidable (IsXmlName name) :=
  decidable_of_iff ((name.head?.any fun c => Text.inRanges nameStartRanges c.toNat) ∧
      name.all fun c => Text.inRanges (nameStartRanges ++ nameOnlyRanges) c.toNat)
    ⟨fun h => ⟨h.1, List.all_eq_true.mp h.2⟩, fun h => ⟨h.starts, List.all_eq_true.mpr h.chars⟩⟩

/-- A text holds an attribute's name and an equals sign. -/
def Assigns (key x : List Char) : Prop :=
  ∃ front gap rest, IsBlank gap ∧ x = front ++ (key ++ (gap ++ '=' :: rest))

/-- An attribute of an element, with the text in front of it. -/
structure Attribute where
  /-- What stands in front of the name. -/
  gap : List Char
  name : List Char
  /-- What stands between the name and the equals sign. -/
  before : List Char
  /-- What stands between the equals sign and the value. -/
  after : List Char
  quote : Char
  value : List Char
  spaced : gap ≠ []
  blank : IsBlank gap ∧ IsBlank before ∧ IsBlank after
  named : IsXmlName name
  quoted : isQuote quote = true
  occupied : value ≠ []
  plain : ∀ c ∈ value, isQuote c = false ∧ c ≠ '<' ∧ c ≠ '>'
  /-- The value is not the text of an assignment. -/
  free : ¬ Assigns permissionKey value

namespace Attribute

variable {a : Attribute}

/-- An attribute up to its equals sign. -/
def front (a : Attribute) : List Char :=
  a.gap ++ (a.name ++ a.before)

/-- An attribute from its equals sign on. -/
def assigned (a : Attribute) : List Char :=
  '=' :: (a.after ++ a.quote :: (a.value ++ [a.quote]))

def text (a : Attribute) : List Char :=
  a.front ++ a.assigned

end Attribute

/-! ### Characters -/

/-- No blank character is part of a word. -/
theorem isWord_eq_false_of_isBlank (blank : Text.isBlank c = true) : Text.isWord c = false := by
  have table : ∀ r ∈ Text.blankRanges, ∀ k < r.2 - r.1,
      Text.isWord (Char.ofNat (r.1 + k)) = false := by
    decide +kernel
  obtain ⟨r, member, least, greatest⟩ := Text.inRanges_iff.mp blank
  have here := table r member (c.toNat - r.1) (by omega)
  rwa [Nat.add_sub_cancel' least, Char.ofNat_toNat] at here

theorem IsXmlName.not_mem (named : IsXmlName x)
    (other : Text.inRanges (nameStartRanges ++ nameOnlyRanges) c.toNat = false) : c ∉ x := by
  intro member
  rw [named.chars c member] at other
  cases other

theorem IsBlank.not_mem (blank : IsBlank x) (visible : Text.isBlank c = false) : c ∉ x := by
  intro member
  rw [blank c member] at visible
  cases visible

namespace Attribute

variable {a : Attribute}

theorem quote_ne (other : isQuote c = false) : a.quote ≠ c := by
  rintro rfl
  rw [a.quoted] at other
  cases other

/-- No attribute ends its tag or starts one. -/
theorem not_mem_front (visible : Text.isBlank c = false)
    (other : Text.inRanges (nameStartRanges ++ nameOnlyRanges) c.toNat = false) : c ∉ a.front := by
  rw [front, List.mem_append, List.mem_append, not_or, not_or]
  exact ⟨a.blank.1.not_mem visible, a.named.not_mem other, a.blank.2.1.not_mem visible⟩

theorem not_mem_assigned (bracket : c = '<' ∨ c = '>') : c ∉ a.assigned := by
  have visible : Text.isBlank c = false := by rcases bracket with rfl | rfl <;> decide
  have unquoted : isQuote c = false := by rcases bracket with rfl | rfl <;> decide
  have other : c ≠ '=' := by rcases bracket with rfl | rfl <;> decide
  have lacks : c ∉ a.value := by
    intro member
    obtain ⟨-, plain, plain'⟩ := a.plain c member
    exact bracket.elim plain plain'
  simp only [assigned, List.mem_cons, List.mem_append, List.not_mem_nil, or_false, not_or]
  exact ⟨other, a.blank.2.2.not_mem visible, (quote_ne unquoted).symm, lacks,
    (quote_ne unquoted).symm⟩

end Attribute

/-! ### What is read -/

/-- A text ends in the key, which starts a word there and has blank characters behind it if
anything. -/
def reads (x : List Char) : Bool :=
  match dropStart? permissionKey.reverse (x.reverse.dropWhile Text.isBlank) with
  | some (c :: _) => !Text.isWord c
  | _ => false

theorem reads_iff : reads x = true ↔ ∃ front c gap, Text.isWord c = false ∧ IsBlank gap ∧
    x = front ++ c :: (permissionKey ++ gap) := by
  obtain ⟨tail, last⟩ : ∃ tail, permissionKey.reverse = 'e' :: tail :=
    ⟨permissionKey.reverse.tail, by decide⟩
  have visible : Text.isBlank 'e' = false := by decide
  rw [reads, last]
  constructor
  · intro h
    split at h
    · rename_i c rest begun
      rw [dropStart?_eq_some_iff, List.cons_append, dropWhile_isBlank_eq_cons_iff visible] at begun
      obtain ⟨gap, blank, split⟩ := begun
      rw [← List.cons_append, ← last] at split
      refine ⟨rest.reverse, c, gap.reverse, by simpa using h, by simpa [IsBlank] using blank, ?_⟩
      rw [← x.reverse_reverse, split]
      simp
    · cases h
  · rintro ⟨front, c, gap, other, blank, rfl⟩
    have split : (front ++ c :: (permissionKey ++ gap)).reverse =
        gap.reverse ++ 'e' :: (tail ++ c :: front.reverse) := by
      have behind : 'e' :: (tail ++ c :: front.reverse) =
          permissionKey.reverse ++ c :: front.reverse := by
        rw [last, List.cons_append]
      rw [behind]
      simp
    have dropped := (dropWhile_isBlank_eq_cons_iff visible).mpr
      ⟨gap.reverse, by simpa [IsBlank] using blank, split⟩
    rw [dropped, ← List.cons_append, dropStart?_eq_some_iff.mpr rfl]
    simpa using other

theorem exists_permissionKey : ∃ tail, permissionKey = 'a' :: tail :=
  ⟨permissionKey.tail, by decide⟩

/-- Behind a text that does not hold the start of the key, the key is in what follows, if it is
read. -/
theorem reads_append_iff {front : List Char} (lacks : 'a' ∉ front ++ [before]) :
    reads (front ++ [before] ++ x) = true ↔ ∃ y gap, Text.isWord (y.getLastD before) = false ∧
      IsBlank gap ∧ x = y ++ (permissionKey ++ gap) := by
  rw [reads_iff]
  constructor
  · rintro ⟨z, c, gap, other, blank, split⟩
    obtain ⟨tail, starts⟩ := exists_permissionKey
    have split' : (z ++ [c]) ++ 'a' :: (tail ++ gap) = front ++ [before] ++ x := by
      rw [split]
      simp [starts]
    obtain ⟨y, last, rfl⟩ := exists_rest_of_not_mem lacks split'
    refine ⟨y, gap, ?_, blank, by rw [starts, List.cons_append]⟩
    rcases List.eq_nil_or_concat y with rfl | ⟨y, d, rfl⟩
    · rw [List.append_nil] at last
      cases (List.append_inj' last rfl).2
      exact other
    · rw [List.concat_eq_append, ← List.append_assoc] at last
      cases (List.append_inj' last rfl).2
      rwa [List.concat_eq_append, List.getLastD_concat]
  · rintro ⟨y, gap, other, blank, rfl⟩
    rcases List.eq_nil_or_concat y with rfl | ⟨y, d, rfl⟩
    · exact ⟨front, before, gap, other, blank, by simp⟩
    · rw [List.concat_eq_append, List.getLastD_concat] at other
      exact ⟨front ++ before :: y, d, gap, other, blank, by simp⟩

/-- A name is taken for the key: it ends in the key, which starts a word there, and has blank
characters behind it if anything. -/
def TakenForKey (name : List Char) : Prop :=
  ∃ y gap, Text.isWord (y.getLastD ' ') = false ∧ IsBlank gap ∧ name = y ++ (permissionKey ++ gap)

instance {name : List Char} : Decidable (TakenForKey name) :=
  decidable_of_iff (reads ([] ++ [' '] ++ name) = true) (reads_append_iff (by decide))

theorem takenForKey_permissionKey : TakenForKey permissionKey :=
  ⟨[], [], by decide, by simp [IsBlank], by simp⟩

/-- The key is in front of blank text if it is with the text off. -/
theorem exists_gap_of_append {name gap gap' y : List Char} (blank : IsBlank gap')
    (split : name ++ gap' = y ++ (permissionKey ++ gap)) :
    ∃ between, gap = between ++ gap' ∧ name = y ++ (permissionKey ++ between) := by
  obtain ⟨init, ends⟩ : ∃ init, permissionKey = init ++ ['e'] :=
    ⟨permissionKey.dropLast, by decide⟩
  rw [← List.append_assoc] at split
  rcases List.append_eq_append_iff.mp split with ⟨more, key, rfl⟩ | ⟨more, rfl, rfl⟩
  · rcases List.eq_nil_or_concat more with rfl | ⟨more, d, rfl⟩
    · exact ⟨[], rfl, by simpa using key.symm⟩
    · rw [ends, ← List.append_assoc, List.concat_eq_append, ← List.append_assoc] at key
      cases (List.append_inj' key rfl).2
      exact absurd (by simp) (blank.not_mem (c := 'e') (by decide))
  · exact ⟨more, rfl, by rw [List.append_assoc]⟩

/-- The key is in front of an equals sign if the name there is taken for it. -/
theorem reads_front_iff {front : List Char} (lacks : 'a' ∉ front ++ [before]) (a : Attribute) :
    reads (front ++ [before] ++ a.front) = true ↔ TakenForKey a.name := by
  rw [reads_append_iff lacks]
  constructor
  · rintro ⟨y, gap, other, blank, split⟩
    obtain ⟨tail, starts⟩ := exists_permissionKey
    rw [Attribute.front, starts, List.cons_append] at split
    obtain ⟨more, rfl, behind⟩ :=
      exists_rest_of_not_mem (a.blank.1.not_mem (by decide)) split.symm
    rw [← List.cons_append, ← starts] at behind
    obtain ⟨between, rfl, name⟩ := exists_gap_of_append a.blank.2.1 behind
    refine ⟨more, between, ?_, fun c member => blank c (List.mem_append_left _ member), name⟩
    rcases List.eq_nil_or_concat more with rfl | ⟨more, d, rfl⟩
    · decide
    · rw [List.concat_eq_append, List.getLastD_concat]
      rwa [List.concat_eq_append, ← List.append_assoc, List.getLastD_concat] at other
  · rintro ⟨y, gap, other, blank, name⟩
    refine ⟨a.gap ++ y, gap ++ a.before, ?_, fun c member => ?_, ?_⟩
    · rcases List.eq_nil_or_concat y with rfl | ⟨y, d, rfl⟩
      · obtain ⟨init, c, spaced⟩ := (List.eq_nil_or_concat a.gap).resolve_left a.spaced
        rw [List.append_nil, spaced, List.concat_eq_append, List.getLastD_concat]
        exact isWord_eq_false_of_isBlank (a.blank.1 c (by rw [spaced]; simp))
      · rw [List.concat_eq_append, List.getLastD_concat] at other
        rwa [List.concat_eq_append, ← List.append_assoc, List.getLastD_concat]
    · exact (List.mem_append.mp member).elim (blank c) (a.blank.2.1 c)
    · rw [Attribute.front, name]
      simp

/-! ### A scan -/

/-- A scan passes a text in which no assignment starts. -/
theorem firstAssignment?_append_of_none (going : '>' ∉ x)
    (none : ∀ front c rest, x = front ++ c :: rest →
      tried? key (front.getLastD before) c (rest ++ y) = none) :
    firstAssignment? key before (x ++ y) = firstAssignment? key (x.getLastD before) y := by
  induction x generalizing before with
  | nil => rfl
  | cons c x ih =>
    rw [List.mem_cons, not_or] at going
    have here : tried? key before c (x ++ y) = .none := none [] c x rfl
    rw [List.cons_append, firstAssignment?, ← tried?, here]
    dsimp only
    rw [if_neg (Ne.symm going.1), List.getLastD_cons]
    refine ih going.2 fun front d rest split => ?_
    have later := none (c :: front) d rest (by rw [split, List.cons_append])
    rwa [List.getLastD_cons] at later

variable {found : List Char × List Char} {front rest gap : List Char} {b d : Char}

theorem not_mem_key_gap (blank : IsBlank gap) (other : d ∉ permissionKey)
    (visible : Text.isBlank d = false) : d ∉ permissionKey ++ gap := by
  rw [List.mem_append, not_or]
  exact ⟨other, blank.not_mem visible⟩

/-- An assignment starts a word, with the key and an equals sign. -/
theorem starts_of_tried? (h : tried? permissionKey b c x = some found) : Text.isWord b = false ∧
    ∃ gap w, IsBlank gap ∧ c :: x = permissionKey ++ (gap ++ '=' :: w) := by
  obtain ⟨value, behind⟩ := found
  obtain ⟨text, ⟨⟨blank, blank', -⟩, -, -, -⟩, split⟩ := exists_spells_of_tried? h
  rename_i quote gap gap' quote'
  obtain ⟨tail, starts⟩ := exists_permissionKey
  have split' : c :: x = permissionKey ++
      (gap ++ '=' :: (gap' ++ quote' :: (value ++ quote :: behind))) := by
    rw [split]
    simp
  refine ⟨?_, gap, _, blank, split'⟩
  rw [tried?] at h
  split at h
  · rename_i boundary
    rw [starts] at split'
    cases split'
    have word : Text.isWord 'a' = true := by decide
    simpa [Text.isBoundary, word] using boundary
  · cases h

/-- An assignment that starts in front of an equals sign has the key in front of it. -/
theorem eq_key_gap_of_tried? (h : tried? permissionKey b c (rest ++ '=' :: z) = some found)
    (lacks : '=' ∉ c :: rest) :
    Text.isWord b = false ∧ ∃ gap, IsBlank gap ∧ c :: rest = permissionKey ++ gap := by
  obtain ⟨other, gap, w, blank, split⟩ := starts_of_tried? h
  rw [← List.cons_append, ← List.append_assoc] at split
  obtain ⟨more, here, behind⟩ :=
    exists_rest_of_not_mem (not_mem_key_gap blank (by decide) (by decide)) split
  cases more with
  | nil => exact ⟨other, gap, blank, by rw [here, List.append_nil]⟩
  | cons d more =>
    cases behind
    exact absurd (here ▸ List.mem_append_right _ List.mem_cons_self) lacks

/-- An assignment that starts in front of a character that is neither blank nor part of its start
starts with all of that. -/
theorem assigns_of_tried? (h : tried? permissionKey b c (rest ++ d :: z) = some found)
    (other : d ∉ permissionKey) (visible : Text.isBlank d = false) (other' : d ≠ '=') :
    Assigns permissionKey (c :: rest) := by
  obtain ⟨-, gap, w, blank, split⟩ := starts_of_tried? h
  have split' : (c :: rest) ++ d :: z = ((permissionKey ++ gap) ++ ['=']) ++ w := by
    rw [List.cons_append, split]
    simp
  have lacks : d ∉ (permissionKey ++ gap) ++ ['='] := by
    rw [List.mem_append, List.mem_singleton, not_or]
    exact ⟨not_mem_key_gap blank other visible, other'⟩
  obtain ⟨more, here, -⟩ := exists_rest_of_not_mem lacks split'
  exact ⟨[], gap, more, blank, by rw [here]; simp⟩

theorem Assigns.append_left (assigns : Assigns key x) (y : List Char) : Assigns key (y ++ x) := by
  obtain ⟨front, gap, rest, blank, rfl⟩ := assigns
  exact ⟨y ++ front, gap, rest, blank, by simp⟩

theorem Assigns.mem (assigns : Assigns key x) : '=' ∈ x := by
  obtain ⟨front, gap, rest, -, rfl⟩ := assigns
  simp

/-- A scan passes an equals sign that the key is not in front of. -/
theorem firstAssignment?_of_not_reads {front : List Char} (lacks : 'a' ∉ front ++ [before])
    (plain : '=' ∉ x ∧ '>' ∉ x) (passed : reads (front ++ [before] ++ x) = false) (z : List Char) :
    firstAssignment? permissionKey before (x ++ '=' :: z) =
      firstAssignment? permissionKey (x.getLastD before) ('=' :: z) := by
  refine firstAssignment?_append_of_none plain.2 fun y c rest split =>
    Option.eq_none_iff_forall_ne_some.mpr fun _ found => ?_
  have lacks' : '=' ∉ c :: rest := fun member =>
    plain.1 (split ▸ List.mem_append_right _ member)
  obtain ⟨other, gap, blank, here⟩ := eq_key_gap_of_tried? found lacks'
  have read : reads (front ++ [before] ++ x) = true :=
    (reads_append_iff lacks).mpr ⟨y, gap, other, blank, by rw [split, here]⟩
  rw [passed] at read
  cases read

theorem countP_of_blank (blank : IsBlank gap) : gap.countP (fun c => !Text.isBlank c) = 0 :=
  List.countP_eq_zero.mpr fun c member => by simp [blank c member]

/-- The key is in front of a place only once. -/
theorem eq_nil_of_key_gap {gap' : List Char} (blank : IsBlank gap) (blank' : IsBlank gap')
    (same : x ++ (permissionKey ++ gap) = permissionKey ++ gap') : x = [] := by
  obtain ⟨tail, starts⟩ := exists_permissionKey
  cases x with
  | nil => rfl
  | cons c x =>
    have counts := congrArg (List.countP fun c => !Text.isBlank c) same
    simp only [List.countP_append, countP_of_blank blank, countP_of_blank blank'] at counts
    have none : (c :: x).countP (fun c => !Text.isBlank c) = 0 := by omega
    have visible := List.countP_eq_zero.mp none c List.mem_cons_self
    simp only [starts, List.cons_append, List.cons.injEq] at same
    obtain ⟨rfl, -⟩ := same
    exact absurd (by decide) visible

/-- The key in front of an attribute's equals sign starts the assignment of its value. -/
theorem assignment?_assigned (blank : IsBlank gap) (a : Attribute) (z : List Char) :
    assignment? permissionKey (permissionKey ++ gap ++ (a.assigned ++ z)) = some (a.value, z) := by
  have spells : Spells permissionKey a.value (permissionKey ++
      (gap ++ '=' :: (a.after ++ [a.quote])) ++ (a.value ++ [a.quote])) :=
    .intro (.intro blank a.blank.2.2 a.quoted) a.occupied (fun c member => (a.plain c member).1)
      a.quoted
  exact assignment?_eq_some_iff.mpr ⟨_, spells, by simp [Attribute.assigned]⟩

/-- A scan reads an assignment that starts a word where it is. -/
theorem firstAssignment?_of_assignment? (other : Text.isWord b = false)
    (here : assignment? permissionKey (permissionKey ++ x) = some found) :
    firstAssignment? permissionKey b (permissionKey ++ x) = some found := by
  obtain ⟨tail, starts⟩ := exists_permissionKey
  have boundary : Text.isBoundary (some b) (some 'a') = true := by
    have word : Text.isWord 'a' = true := by decide
    simp [Text.isBoundary, other, word]
  rw [starts, List.cons_append] at here ⊢
  refine firstAssignment?_cons_eq_some_iff.mpr (.inl ?_)
  rw [← starts] at here ⊢
  rw [tried?, if_pos boundary, here]

/-- A scan reads the value behind an equals sign that the key is in front of. -/
theorem firstAssignment?_of_reads {front : List Char} (lacks : 'a' ∉ front ++ [before])
    (plain : '=' ∉ x ∧ '>' ∉ x) (read : reads (front ++ [before] ++ x) = true) (a : Attribute)
    (z : List Char) :
    firstAssignment? permissionKey before (x ++ (a.assigned ++ z)) = some (a.value, z) := by
  obtain ⟨y, gap, other, blank, rfl⟩ := (reads_append_iff lacks).mp read
  rw [List.append_assoc, firstAssignment?_append_of_none]
  · have here := assignment?_assigned blank a z
    rw [List.append_assoc] at here ⊢
    exact firstAssignment?_of_assignment? other here
  · exact fun member => plain.2 (List.mem_append_left _ member)
  · -- An assignment that starts earlier would have the key at the same place.
    refine fun f c rest split => Option.eq_none_iff_forall_ne_some.mpr fun r found => ?_
    have found' : tried? permissionKey (f.getLastD before) c
        ((rest ++ (permissionKey ++ gap)) ++ '=' ::
          (a.after ++ a.quote :: (a.value ++ [a.quote]) ++ z)) = some r := by
      rw [← found]
      simp [Attribute.assigned]
    have lacks' : '=' ∉ c :: (rest ++ (permissionKey ++ gap)) := by
      rw [← List.cons_append]
      refine fun member => plain.1 ?_
      rw [split, List.append_assoc]
      exact List.mem_append_right _ member
    obtain ⟨-, gap', blank', here⟩ := eq_key_gap_of_tried? found' lacks'
    have nothing := eq_nil_of_key_gap (x := c :: rest) blank blank' here
    cases nothing

/-- A scan passes an attribute from its equals sign on. -/
theorem firstAssignment?_assigned (a : Attribute) (z : List Char) :
    firstAssignment? permissionKey before (a.assigned ++ z) =
      firstAssignment? permissionKey a.quote z := by
  have last : a.assigned.getLastD before = a.quote := by
    have whole : a.assigned = ('=' :: (a.after ++ a.quote :: a.value)) ++ [a.quote] := by
      simp [Attribute.assigned]
    rw [whole, List.getLastD_concat]
  rw [firstAssignment?_append_of_none (a.not_mem_assigned (.inr rfl)), last]
  refine fun y c rest split => Option.eq_none_iff_forall_ne_some.mpr fun _ found => ?_
  obtain ⟨tail, starts⟩ := exists_permissionKey
  obtain rfl : c = 'a' := by
    obtain ⟨-, _, _, -, split'⟩ := starts_of_tried? found
    rw [starts] at split'
    exact (List.cons.inj split').1
  -- Only the value can hold the start of the key.
  have lacks : 'a' ∉ '=' :: (a.after ++ [a.quote]) := by
    simp only [List.mem_cons, List.mem_append, List.not_mem_nil, or_false, not_or]
    exact ⟨by decide, a.blank.2.2.not_mem (by decide), (a.quote_ne (by decide)).symm⟩
  have split' : y ++ 'a' :: rest = '=' :: (a.after ++ [a.quote]) ++ (a.value ++ [a.quote]) := by
    rw [← split]
    simp [Attribute.assigned]
  obtain ⟨more, -, value⟩ := exists_rest_of_not_mem lacks split'
  rcases List.eq_nil_or_concat rest with rfl | ⟨rest, d, rfl⟩
  · exact absurd (List.cons.inj (List.append_inj' value rfl).2).1 (a.quote_ne (by decide))
  · have value' : a.value ++ [a.quote] = (more ++ 'a' :: rest) ++ [d] := by
      rw [value]
      simp
    obtain ⟨inside, same⟩ := List.append_inj' value' rfl
    cases same
    rw [List.concat_eq_append, List.append_assoc] at found
    have other : a.quote ∉ permissionKey := fun member => by
      have unquoted := plain_permission.2.2 a.quote member
      rw [a.quoted] at unquoted
      cases unquoted
    have assigns := assigns_of_tried? found other (isBlank_of_isQuote a.quoted)
      (a.quote_ne (by decide))
    exact a.free (inside ▸ assigns.append_left more)

/-- A scan ends with a tag. -/
theorem firstAssignment?_end (plain : '=' ∉ x ∧ '>' ∉ x) (z : List Char) :
    firstAssignment? permissionKey before (x ++ '>' :: z) = none := by
  rw [firstAssignment?_append_of_none plain.2]
  · obtain ⟨tail, starts⟩ := exists_permissionKey
    have absent : assignment? permissionKey ('>' :: z) = none := by
      rw [starts]
      rfl
    rw [firstAssignment?, absent, ite_self]
    rfl
  · refine fun y c rest split => Option.eq_none_iff_forall_ne_some.mpr fun _ found => ?_
    have assigns := assigns_of_tried? found (by decide) (by decide) (by decide)
    exact plain.1 (split ▸ (assigns.append_left y).mem)

/-- What a scan reads of some attributes, with the ones behind it. The text since the last value
counts as well. -/
def firstRead? (x : List Char) : List Attribute → Option (List Char × List Attribute)
  | [] => none
  | a :: rest => if reads (x ++ a.front) then some (a.value, rest) else firstRead? [a.quote] rest

/-- **A scan reads the first attribute with the key in front of its equals sign**, up to the end of
the tag. -/
theorem firstAssignment?_attributes {front w stop : List Char} (lacks : 'a' ∉ front ++ [before])
    (plain : '=' ∉ w ∧ '>' ∉ w) (plain' : '=' ∉ stop ∧ '>' ∉ stop) (attributes : List Attribute)
    (z : List Char) :
    firstAssignment? permissionKey before
        (w ++ (attributes.flatMap Attribute.text ++ (stop ++ '>' :: z))) =
      (firstRead? (front ++ [before] ++ w) attributes).map fun r =>
        (r.1, r.2.flatMap Attribute.text ++ (stop ++ '>' :: z)) := by
  induction attributes generalizing front before w with
  | nil =>
    rw [List.flatMap_nil, List.nil_append, ← List.append_assoc]
    exact firstAssignment?_end (by simp [plain, plain']) z
  | cons a rest ih =>
    have plainFront : '=' ∉ w ++ a.front ∧ '>' ∉ w ++ a.front := by
      simp only [List.mem_append, not_or]
      exact ⟨⟨plain.1, a.not_mem_front (by decide) (by decide)⟩,
        plain.2, a.not_mem_front (by decide) (by decide)⟩
    have split : w ++ ((a :: rest).flatMap Attribute.text ++ (stop ++ '>' :: z)) =
        (w ++ a.front) ++ (a.assigned ++ (rest.flatMap Attribute.text ++ (stop ++ '>' :: z))) := by
      simp [Attribute.text]
    rw [split, firstRead?, List.append_assoc (front ++ [before])]
    cases read : reads (front ++ [before] ++ (w ++ a.front)) with
    | true =>
      rw [firstAssignment?_of_reads lacks plainFront read]
      rfl
    | false =>
      have lacks' : 'a' ∉ [] ++ [a.quote] := by
        simpa using (a.quote_ne (by decide)).symm
      have onward := ih lacks' (w := []) ⟨List.not_mem_nil, List.not_mem_nil⟩
      rw [Attribute.assigned, List.cons_append, firstAssignment?_of_not_reads lacks plainFront read,
        ← List.cons_append, ← Attribute.assigned, firstAssignment?_assigned]
      simpa using onward

/-- Behind a text that does not hold the start of the key, the first attribute is read whose name is
taken for the key. -/
theorem firstRead?_eq_find? {front : List Char} (lacks : 'a' ∉ front ++ [before])
    (attributes : List Attribute) : (firstRead? (front ++ [before]) attributes).map Prod.fst =
      (attributes.find? fun a => TakenForKey a.name).map Attribute.value := by
  induction attributes generalizing front before with
  | nil => rfl
  | cons a rest ih =>
    rw [firstRead?]
    by_cases taken : TakenForKey a.name
    · rw [if_pos ((reads_front_iff lacks a).mpr taken),
        List.find?_cons_of_pos (by simpa using taken)]
      rfl
    · have passed : ¬ reads (front ++ [before] ++ a.front) = true := fun read =>
        taken ((reads_front_iff lacks a).mp read)
      have lacks' : 'a' ∉ [] ++ [a.quote] := by
        simpa using (a.quote_ne (by decide)).symm
      rw [if_neg passed, List.find?_cons_of_neg (by simpa using taken)]
      exact ih lacks'

end Tracepoint.Descriptor
