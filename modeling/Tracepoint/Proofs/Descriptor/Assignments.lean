import Tracepoint.Descriptor.Scan

/-!
# Assignments in descriptors

A text that opens an assignment and a value in quotes spell it, and no more of the text has a part
in it (`assignment?_eq_some_iff`). So an assignment that ends in front of a place is the same
whatever follows that place. One that is found in front of it is the first one with anything behind
it, since what is cut off holds one quote at most (`firstAssignment?_append`); and one that runs
into a tag would run into any other text with a quote in it, since only its value can hold the start
of a tag (`firstAssignment?_into`).
-/

namespace Tracepoint.Descriptor

variable {key value front text rest x y z : List Char} {c before : Char}
  {found : List Char × List Char}

/-! ### Assignments -/

/-- A text opens an assignment to an attribute up to the value. -/
inductive Opens (key : List Char) : List Char → Prop where
  | intro {gap gap' : List Char} {quote : Char} (blank : ∀ c ∈ gap, Text.isBlank c = true)
      (blank' : ∀ c ∈ gap', Text.isBlank c = true) (quoted : isQuote quote = true) :
      Opens key (key ++ (gap ++ '=' :: (gap' ++ [quote])))

/-- A text spells the assignment of a value to an attribute. -/
inductive Spells (key value : List Char) : List Char → Prop where
  | intro {front : List Char} {quote : Char} (opens : Opens key front) (occupied : value ≠ [])
      (plain : ∀ c ∈ value, isQuote c = false) (quoted : isQuote quote = true) :
      Spells key value (front ++ (value ++ [quote]))

theorem dropStart?_eq_some_iff : dropStart? x y = some rest ↔ y = x ++ rest := by
  induction x generalizing y with
  | nil => simp [dropStart?]
  | cons c x ih =>
    cases y with
    | nil => simp [dropStart?]
    | cons d y =>
      rw [dropStart?, List.cons_append, List.cons.injEq]
      split
      · rename_i same
        rw [ih]
        simp [same]
      · rename_i other
        simp [Ne.symm other]

/-- The gap in front of a character that is not blank is what is dropped. -/
theorem dropWhile_isBlank_eq_cons_iff (visible : Text.isBlank c = false) :
    x.dropWhile Text.isBlank = c :: rest ↔
      ∃ gap, (∀ d ∈ gap, Text.isBlank d = true) ∧ x = gap ++ c :: rest := by
  constructor
  · intro dropped
    refine ⟨x.takeWhile Text.isBlank, fun d member => ?_, ?_⟩
    · exact List.all_eq_true.mp List.all_takeWhile d member
    · rw [← dropped, List.takeWhile_append_dropWhile]
  · rintro ⟨gap, blank, rfl⟩
    rw [List.dropWhile_append_of_pos blank, List.dropWhile_cons_of_neg (by simp [visible])]

theorem isBlank_of_isQuote (quoted : isQuote c = true) : Text.isBlank c = false := by
  have either : c = '"' ∨ c = '\'' := by simpa [isQuote] using quoted
  rcases either with rfl | rfl <;> decide

/-- A value goes up to the first quote. -/
theorem cut_at_quote_iff (quoted : isQuote c = true) :
    x.takeWhile (fun d => !isQuote d) = value ∧ x.dropWhile (fun d => !isQuote d) = c :: rest ↔
      (∀ d ∈ value, isQuote d = false) ∧ x = value ++ c :: rest := by
  constructor
  · rintro ⟨rfl, behind⟩
    refine ⟨fun d member => ?_, ?_⟩
    · simpa using List.all_eq_true.mp List.all_takeWhile d member
    · rw [← behind, List.takeWhile_append_dropWhile]
  · rintro ⟨plain, rfl⟩
    have pass : ∀ d ∈ value, (!isQuote d) = true := by simpa using plain
    rw [List.takeWhile_append_of_pos pass, List.dropWhile_append_of_pos pass]
    simp [quoted]

/-- What is read of a text that starts with a value. -/
theorem value_eq_some_iff :
    (match x.takeWhile (fun d => !isQuote d), x.dropWhile (fun d => !isQuote d) with
      | [], _ => none
      | _, [] => none
      | value, _ :: rest => some (value, rest)) = some (value, rest) ↔
      value ≠ [] ∧ (∀ d ∈ value, isQuote d = false) ∧
        ∃ quote, isQuote quote = true ∧ x = value ++ quote :: rest := by
  constructor
  · intro h
    have closed := List.head?_dropWhile_not (fun d => !isQuote d) x
    rcases taken : x.takeWhile (fun d => !isQuote d) with _ | ⟨d, ds⟩
    · rw [taken] at h
      cases h
    · rcases behind : x.dropWhile (fun d => !isQuote d) with _ | ⟨quote, rest'⟩
      · rw [taken, behind] at h
        cases h
      · rw [behind] at closed
        rw [taken, behind] at h
        cases h
        have quoted : isQuote quote = true := by simpa using closed
        obtain ⟨plain, split⟩ := (cut_at_quote_iff quoted).mp ⟨taken, behind⟩
        exact ⟨List.cons_ne_nil _ _, plain, quote, quoted, split⟩
  · rintro ⟨occupied, plain, quote, quoted, split⟩
    obtain ⟨taken, behind⟩ := (cut_at_quote_iff quoted).mpr ⟨plain, split⟩
    rw [taken, behind]
    cases value with
    | nil => exact absurd rfl occupied
    | cons d ds => rfl

theorem assignment?_eq_some_iff : assignment? key x = some (value, rest) ↔
    ∃ text, Spells key value text ∧ x = text ++ rest := by
  constructor
  · intro h
    rw [assignment?] at h
    split at h
    · cases h
    rename_i y begun
    cases dropStart?_eq_some_iff.mp begun
    split at h
    case h_2 => cases h
    rename_i y' equals
    obtain ⟨gap, blank, rfl⟩ := (dropWhile_isBlank_eq_cons_iff (by decide)).mp equals
    split at h
    case h_2 => cases h
    rename_i quote y'' dropped
    split at h
    case isFalse => cases h
    rename_i quoted
    obtain ⟨gap', blank', rfl⟩ :=
      (dropWhile_isBlank_eq_cons_iff (isBlank_of_isQuote quoted)).mp dropped
    obtain ⟨occupied, plain, last, closed, rfl⟩ := value_eq_some_iff.mp h
    refine ⟨_, .intro (.intro blank blank' quoted) occupied plain closed, ?_⟩
    simp
  · rintro ⟨text, ⟨⟨blank, blank', quoted⟩, occupied, plain, closed⟩, rfl⟩
    rename_i last gap gap' quote
    have visible := isBlank_of_isQuote quoted
    have begun (z : List Char) : dropStart? key (key ++ z) = some z :=
      dropStart?_eq_some_iff.mpr rfl
    have equals (z : List Char) : (gap ++ '=' :: z).dropWhile Text.isBlank = '=' :: z :=
      (dropWhile_isBlank_eq_cons_iff (by decide)).mpr ⟨gap, blank, rfl⟩
    have dropped (z : List Char) : (gap' ++ quote :: z).dropWhile Text.isBlank = quote :: z :=
      (dropWhile_isBlank_eq_cons_iff visible).mpr ⟨gap', blank', rfl⟩
    simp only [List.append_assoc, List.cons_append, List.nil_append]
    simp only [assignment?, begun, equals, dropped, quoted, if_true]
    exact value_eq_some_iff.mpr ⟨occupied, plain, last, closed, rfl⟩

/-- An assignment is not affected by what follows. -/
theorem assignment?_append (h : assignment? key x = some (value, rest)) (y : List Char) :
    assignment? key (x ++ y) = some (value, rest ++ y) := by
  obtain ⟨text, spells, rfl⟩ := assignment?_eq_some_iff.mp h
  exact assignment?_eq_some_iff.mpr ⟨text, spells, List.append_assoc _ _ _⟩

theorem exists_rest_of_append (inside : x ++ y = front ++ rest) (long : y.length ≤ rest.length) :
    ∃ rest', rest = rest' ++ y ∧ x = front ++ rest' := by
  rcases List.append_eq_append_iff.mp inside with ⟨more, rfl, rfl⟩ | ⟨rest', rfl, rfl⟩
  · have none : more = [] := List.length_eq_zero_iff.mp (by rw [List.length_append] at long; omega)
    exact ⟨[], by simp [none], by simp [none]⟩
  · exact ⟨rest', rfl, rfl⟩

/-- An assignment that ends in front of what follows is there without it. -/
theorem assignment?_of_append (h : assignment? key (x ++ y) = some (value, rest))
    (inside : y.length ≤ rest.length) :
    ∃ rest', rest = rest' ++ y ∧ assignment? key x = some (value, rest') := by
  obtain ⟨text, spells, split⟩ := assignment?_eq_some_iff.mp h
  obtain ⟨rest', rfl, rfl⟩ := exists_rest_of_append split inside
  exact ⟨rest', rfl, assignment?_eq_some_iff.mpr ⟨text, spells, rfl⟩⟩

/-! ### Quotes of an assignment -/

theorem countP_isQuote_of_blank (blank : ∀ c ∈ x, Text.isBlank c = true) :
    x.countP isQuote = 0 := by
  refine List.countP_eq_zero.mpr fun c member quoted => ?_
  have visible := isBlank_of_isQuote quoted
  rw [blank c member] at visible
  cases visible

/-- One quote opens a value. -/
theorem Opens.countP_isQuote (opens : Opens key front) (bare : ∀ c ∈ key, isQuote c = false) :
    front.countP isQuote = 1 := by
  obtain ⟨blank, blank', quoted⟩ := opens
  have none : key.countP isQuote = 0 := List.countP_eq_zero.mpr (by simpa using bare)
  simp [none, countP_isQuote_of_blank blank, countP_isQuote_of_blank blank', quoted,
    show isQuote '=' = false from rfl]

/-- An assignment holds two quotes, and less than the whole of it at most one. -/
theorem Spells.countP_isQuote (spells : Spells key value text)
    (bare : ∀ c ∈ key, isQuote c = false) :
    text.countP isQuote = 2 ∧ ∀ x y, text = x ++ y → y ≠ [] → x.countP isQuote ≤ 1 := by
  obtain ⟨opens, -, plain, quoted⟩ := spells
  rename_i front quote
  have one := opens.countP_isQuote bare
  have none : value.countP isQuote = 0 := List.countP_eq_zero.mpr (by simpa using plain)
  refine ⟨by simp [one, none, quoted], fun x y split more => ?_⟩
  have front : x <+: (front ++ value) ++ [quote] := ⟨y, by rw [← split, List.append_assoc]⟩
  rcases List.prefix_concat_iff.mp front with whole | part
  · have lengths := congrArg List.length split
    rw [whole] at lengths
    simp only [List.length_append] at lengths
    exact absurd (List.length_eq_zero_iff.mp (by omega)) more
  · have fewer := part.sublist.countP_le (p := isQuote)
    rwa [List.countP_append, one, none] at fewer

/-! ### The first assignment -/

/-- The assignment that a text starts with, if it starts a word or ends one there. -/
def tried? (key : List Char) (before c : Char) (x : List Char) : Option (List Char × List Char) :=
  if Text.isBoundary (some before) (some c) then assignment? key (c :: x) else none

theorem firstAssignment?_cons_eq_some_iff : firstAssignment? key before (c :: x) = some found ↔
    tried? key before c x = some found ∨
      tried? key before c x = none ∧ c ≠ '>' ∧ firstAssignment? key c x = some found := by
  rw [firstAssignment?, ← tried?]
  cases tried? key before c x with
  | some _ => simp
  | none => simp

theorem tried?_append (h : tried? key before c x = some (value, rest)) (y : List Char) :
    tried? key before c (x ++ y) = some (value, rest ++ y) := by
  rw [tried?] at h ⊢
  split at h
  · rename_i boundary
    rw [if_pos boundary]
    exact assignment?_append h y
  · cases h

theorem tried?_of_append (h : tried? key before c (x ++ y) = some (value, rest))
    (inside : y.length ≤ rest.length) :
    ∃ rest', rest = rest' ++ y ∧ tried? key before c x = some (value, rest') := by
  rw [tried?] at h
  rw [tried?]
  split at h
  · rename_i boundary
    rw [if_pos boundary]
    exact assignment?_of_append (x := c :: x) h inside
  · cases h

theorem exists_spells_of_tried? (h : tried? key before c x = some (value, rest)) :
    ∃ text, Spells key value text ∧ c :: x = text ++ rest := by
  rw [tried?] at h
  split at h
  · exact assignment?_eq_some_iff.mp h
  · cases h

/-- The first assignment is somewhere in the text. -/
theorem exists_spells_of_firstAssignment? (h : firstAssignment? key before x = some (value, rest)) :
    ∃ front text, Spells key value text ∧ x = front ++ (text ++ rest) := by
  induction x generalizing before with
  | nil => cases h
  | cons c x ih =>
    rcases firstAssignment?_cons_eq_some_iff.mp h with here | ⟨-, -, later⟩
    · obtain ⟨text, spells, split⟩ := exists_spells_of_tried? here
      exact ⟨[], text, spells, split⟩
    · obtain ⟨front, text, spells, rfl⟩ := ih later
      exact ⟨c :: front, text, spells, rfl⟩

theorem length_lt_of_firstAssignment? (h : firstAssignment? key before x = some (value, rest)) :
    rest.length < x.length := by
  obtain ⟨front, text, ⟨-, -, -, -⟩, rfl⟩ := exists_spells_of_firstAssignment? h
  simp only [List.length_append, List.length_cons]
  omega

/-- The first assignment is the first one with anything behind the text. An earlier one would be cut
off by the end of the text, with one quote at most in front of the cut. -/
theorem firstAssignment?_append (bare : ∀ c ∈ key, isQuote c = false)
    (h : firstAssignment? key before x = some (value, rest)) (y : List Char) :
    firstAssignment? key before (x ++ y) = some (value, rest ++ y) := by
  induction x generalizing before with
  | nil => cases h
  | cons c x ih =>
    refine firstAssignment?_cons_eq_some_iff.mpr ?_
    rcases firstAssignment?_cons_eq_some_iff.mp h with here | ⟨absent, going, later⟩
    · exact .inl (tried?_append here y)
    · refine .inr ⟨?_, going, ih later⟩
      rcases cut : tried? key before c (x ++ y) with _ | ⟨value', rest'⟩
      · rfl
      have short : rest'.length < y.length := by
        apply Nat.lt_of_not_le
        intro inside
        obtain ⟨_, -, here⟩ := tried?_of_append cut inside
        rw [absent] at here
        cases here
      obtain ⟨text, spells, split⟩ := exists_spells_of_tried? cut
      obtain ⟨front, text', spells', rfl⟩ := exists_spells_of_firstAssignment? later
      rw [← List.cons_append] at split
      rcases List.append_eq_append_iff.mp split with ⟨more, rfl, rfl⟩ | ⟨more, -, rfl⟩
      · have some : more ≠ [] := by
          rintro rfl
          exact absurd short (Nat.lt_irrefl _)
        have one := (spells.countP_isQuote bare).2 _ more rfl some
        have two := (spells'.countP_isQuote bare).1
        simp only [List.countP_cons, List.countP_append] at one
        omega
      · rw [List.length_append] at short
        omega

theorem firstAssignment?_of_append
    (h : firstAssignment? key before (x ++ y) = some (value, rest))
    (inside : y.length ≤ rest.length) :
    ∃ rest', rest = rest' ++ y ∧ firstAssignment? key before x = some (value, rest') := by
  induction x generalizing before with
  | nil => exact absurd inside (Nat.not_le_of_lt (length_lt_of_firstAssignment? h))
  | cons c x ih =>
    rw [List.cons_append] at h
    rcases firstAssignment?_cons_eq_some_iff.mp h with here | ⟨absent, going, later⟩
    · obtain ⟨rest', same, here'⟩ := tried?_of_append here inside
      exact ⟨rest', same, firstAssignment?_cons_eq_some_iff.mpr (.inl here')⟩
    · obtain ⟨rest', same, later'⟩ := ih later
      refine ⟨rest', same, firstAssignment?_cons_eq_some_iff.mpr (.inr ⟨?_, going, later'⟩)⟩
      cases here : tried? key before c x with
      | none => rfl
      | some found =>
        rw [tried?_append here y] at absent
        cases absent

/-! ### Assignments that run into a tag -/

section Into

variable {q w : List Char} {quote : Char}

/-- What does not hold a character ends in front of it. -/
theorem exists_rest_of_not_mem (lacks : c ∉ front) (split : x ++ c :: q = front ++ w) :
    ∃ more, x = front ++ more ∧ w = more ++ c :: q := by
  rcases List.append_eq_append_iff.mp split with ⟨more, rfl, beyond⟩ | ⟨more, rfl, rfl⟩
  · cases more with
    | nil => exact ⟨[], by simp, by simpa using beyond.symm⟩
    | cons d more =>
      cases beyond
      exact absurd (List.mem_append_right _ List.mem_cons_self) lacks
  · exact ⟨more, rfl, rfl⟩

theorem Opens.not_mem (opens : Opens key front) (plain : '<' ∉ key) : '<' ∉ front := by
  obtain ⟨blank, blank', quoted⟩ := opens
  have visible : Text.isBlank '<' ≠ true := by decide
  have other : isQuote '<' ≠ true := by decide
  simp only [List.mem_append, List.mem_cons, List.not_mem_nil, or_false, not_or]
  refine ⟨plain, fun member => visible (blank _ member), by decide,
    fun member => visible (blank' _ member), ?_⟩
  rintro rfl
  exact other quoted

variable (plain : '<' ∉ key) (occupied : y ≠ []) (unquoted : ∀ c ∈ y, isQuote c = false)
  (quoted : isQuote quote = true)

include plain occupied unquoted quoted

/-- An assignment that runs into a tag runs into any text with a quote in it: only the value can
hold the start of a tag. -/
theorem assignment?_into
    (h : assignment? key (x ++ '<' :: q) = some (value, rest)) (short : rest.length ≤ q.length) :
    ∃ value', assignment? key (x ++ (y ++ quote :: z)) = some (value', z) := by
  obtain ⟨text, ⟨opens, -, free, -⟩, split⟩ := assignment?_eq_some_iff.mp h
  rename_i front last
  rw [List.append_assoc] at split
  obtain ⟨begun, rfl, behind⟩ := exists_rest_of_not_mem (opens.not_mem plain) split
  have unquoted' : ∀ c ∈ begun, isQuote c = false := by
    rw [List.append_assoc] at behind
    rcases List.append_eq_append_iff.mp behind with ⟨more, rfl, closed⟩ | ⟨more, rfl, -⟩
    · cases more with
      | nil => simpa using free
      | cons d more =>
        have lengths := congrArg List.length closed
        simp only [List.length_append, List.length_cons, List.length_nil] at lengths
        omega
    · exact fun c member => free c (List.mem_append_left _ member)
  refine ⟨begun ++ y, assignment?_eq_some_iff.mpr
    ⟨_, .intro opens (by simp [occupied]) (fun c member => ?_) quoted, by simp⟩⟩
  exact (List.mem_append.mp member).elim (unquoted' c) (unquoted c)

theorem tried?_into (h : tried? key before c (x ++ '<' :: q) = some (value, rest))
    (short : rest.length ≤ q.length) :
    ∃ value', tried? key before c (x ++ (y ++ quote :: z)) = some (value', z) := by
  rw [tried?] at h
  simp only [tried?]
  split at h
  · rename_i boundary
    simp only [boundary, if_true]
    exact assignment?_into (x := c :: x) plain occupied unquoted quoted h short
  · cases h

/-- A first assignment that runs into a tag runs into any text with a quote in it, or an earlier one
does. -/
theorem firstAssignment?_into
    (silent : ∀ before, firstAssignment? key before ('<' :: q) = none)
    (h : firstAssignment? key before (x ++ '<' :: q) = some (value, rest))
    (short : rest.length ≤ q.length) :
    ∃ value' rest', firstAssignment? key before (x ++ (y ++ quote :: z)) = some (value', rest') ∧
      rest'.length < (y ++ quote :: z).length := by
  have inside : z.length < (y ++ quote :: z).length := by
    rw [List.length_append, List.length_cons]
    omega
  induction x generalizing before with
  | nil =>
    rw [List.nil_append, silent] at h
    cases h
  | cons c x ih =>
    rw [List.cons_append] at h ⊢
    simp only [firstAssignment?_cons_eq_some_iff]
    rcases firstAssignment?_cons_eq_some_iff.mp h with here | ⟨absent, going, later⟩
    · obtain ⟨value', here'⟩ := tried?_into plain occupied unquoted quoted here short
      exact ⟨value', z, .inl here', inside⟩
    · rcases first : tried? key before c (x ++ (y ++ quote :: z)) with _ | ⟨value', rest'⟩
      · obtain ⟨value', rest', later', shorter⟩ := ih later
        exact ⟨value', rest', .inr ⟨rfl, going, later'⟩, shorter⟩
      · refine ⟨value', rest', .inl rfl, Nat.lt_of_not_le fun long => ?_⟩
        obtain ⟨_, -, here⟩ := tried?_of_append first long
        rw [tried?_append here] at absent
        cases absent

end Into

end Tracepoint.Descriptor
