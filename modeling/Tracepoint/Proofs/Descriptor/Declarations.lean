import Tracepoint.Proofs.Descriptor.Assignments

/-!
# Declarations in descriptors

A declaration is a tag with an assignment. The declarations of a text are those on either side of a
place, if none runs over it (`declarations_append`). It is enough that none does with one text
behind the place, for another one that a declaration can run into only where it runs into the
first (`RunsInto`).
-/

namespace Tracepoint.Descriptor

variable {tag key value rest x y z : List Char} {c before : Char} {found : List Char × List Char}

/-- A declaration that was found in a text: where it starts, where it ends, and its value. -/
structure Span where
  start : Nat
  stop : Nat
  value : List Char
  deriving DecidableEq, Repr

/-- The declarations that are found in a text that starts at a place, one after the other, none
before the end of the one before it; `skip` more characters belong to one that has been found. -/
def spans (tag key : List Char) (place skip : Nat) : List Char → List Span
  | [] => []
  | c :: cs =>
    match skip with
    | skip + 1 => spans tag key (place + 1) skip cs
    | 0 =>
      match declaration? tag key (c :: cs) with
      | some (value, rest) =>
        ⟨place, place + 1 + (cs.length - rest.length), value⟩ ::
          spans tag key (place + 1) (cs.length - rest.length) cs
      | none => spans tag key (place + 1) 0 cs

theorem declarations_eq_spans (tag key : List Char) (place skip : Nat) (cs : List Char) :
    declarations tag key skip cs = (spans tag key place skip cs).map Span.value := by
  induction cs generalizing place skip with
  | nil => rfl
  | cons c cs ih =>
    cases skip with
    | succ skip => exact ih (place + 1) skip
    | zero =>
      rw [declarations, spans]
      rcases declaration? tag key (c :: cs) with _ | ⟨value, rest⟩
      · exact ih (place + 1) 0
      · exact congrArg (value :: ·) (ih (place + 1) _)

/-! ### One declaration -/

theorem declaration?_eq_some_iff : declaration? tag key x = some found ↔
    ∃ z, x = '<' :: tag ++ z ∧
      Text.isBoundary (some (tag.getLast?.getD '<')) z.head? = true ∧
      firstAssignment? key (tag.getLast?.getD '<') z = some found := by
  rw [declaration?]
  cases begun : dropStart? ('<' :: tag) x with
  | none =>
    simp only [reduceCtorEq, false_iff, not_exists, not_and]
    intro z split
    rw [dropStart?_eq_some_iff.mpr split] at begun
    cases begun
  | some z =>
    rw [dropStart?_eq_some_iff] at begun
    subst begun
    simp

theorem head?_append_of_firstAssignment?
    (h : firstAssignment? key before x = some (value, rest)) (y : List Char) :
    (x ++ y).head? = x.head? := by
  cases x with
  | nil => cases h
  | cons c x => rfl

theorem length_lt_of_declaration? (h : declaration? tag key x = some (value, rest)) :
    rest.length < x.length := by
  obtain ⟨z, rfl, -, assigned⟩ := declaration?_eq_some_iff.mp h
  have shorter := length_lt_of_firstAssignment? assigned
  rw [List.length_append]
  omega

/-- A declaration is not affected by what follows. -/
theorem declaration?_append (bare : ∀ c ∈ key, isQuote c = false)
    (h : declaration? tag key x = some (value, rest)) (y : List Char) :
    declaration? tag key (x ++ y) = some (value, rest ++ y) := by
  obtain ⟨z, rfl, boundary, assigned⟩ := declaration?_eq_some_iff.mp h
  refine declaration?_eq_some_iff.mpr ⟨z ++ y, List.append_assoc _ _ _, ?_,
    firstAssignment?_append bare assigned y⟩
  rwa [head?_append_of_firstAssignment? assigned]

/-- A declaration that ends in front of what follows is there without it. -/
theorem declaration?_of_append (h : declaration? tag key (x ++ y) = some (value, rest))
    (inside : y.length ≤ rest.length) :
    ∃ rest', rest = rest' ++ y ∧ declaration? tag key x = some (value, rest') := by
  obtain ⟨z, split, boundary, assigned⟩ := declaration?_eq_some_iff.mp h
  have shorter := length_lt_of_firstAssignment? assigned
  obtain ⟨z', rfl, rfl⟩ := exists_rest_of_append split (by omega)
  obtain ⟨rest', rfl, assigned'⟩ := firstAssignment?_of_append assigned inside
  rw [head?_append_of_firstAssignment? assigned'] at boundary
  exact ⟨rest', rfl, declaration?_eq_some_iff.mpr ⟨z', rfl, boundary, assigned'⟩⟩

/-- No declaration begins where none does without what follows, unless it runs into that. -/
theorem declaration?_append_eq_none (absent : declaration? tag key x = none)
    (inside : ∀ value rest, declaration? tag key (x ++ y) = some (value, rest) →
      y.length ≤ rest.length) :
    declaration? tag key (x ++ y) = none := by
  rcases found : declaration? tag key (x ++ y) with _ | ⟨value, rest⟩
  · rfl
  · obtain ⟨_, -, here⟩ := declaration?_of_append found (inside value rest found)
    rw [absent] at here
    cases here

/-! ### Declarations on either side of a place -/

/-- A declaration that begins in front of a place and runs into what follows would run into
something else there as well. -/
def RunsInto (tag key y z : List Char) : Prop :=
  ∀ c x value rest, declaration? tag key (c :: x ++ y) = some (value, rest) →
    rest.length < y.length →
    ∃ value' rest', declaration? tag key (c :: x ++ z) = some (value', rest') ∧
      rest'.length < z.length

theorem RunsInto.refl : RunsInto tag key y y :=
  fun _ _ value rest found short => ⟨value, rest, found, short⟩

/-- **The declarations of a text are those on either side of a place**, if with some text behind it
none runs over that place, and none would with the other. -/
theorem declarations_append (bare : ∀ c ∈ key, isQuote c = false) (runs : RunsInto tag key y z)
    {place skip : Nat} (apart : ∀ m ∈ spans tag key place skip (x ++ z),
      m.start < place + x.length → m.stop ≤ place + x.length) (within : skip ≤ x.length) :
    declarations tag key skip (x ++ y) =
      declarations tag key skip x ++ declarations tag key 0 y := by
  induction x generalizing place skip with
  | nil =>
    cases Nat.le_zero.mp within
    rfl
  | cons c x ih =>
    have onward (skip : Nat) (bound : skip ≤ x.length)
        (later : ∀ m ∈ spans tag key (place + 1) skip (x ++ z),
          m.start < place + (x.length + 1) → m.stop ≤ place + (x.length + 1)) := by
      rw [← Nat.add_assoc, Nat.add_right_comm] at later
      exact ih later bound
    rw [List.cons_append] at apart ⊢
    rw [List.length_cons] at apart within
    cases skip with
    | succ skip => exact onward skip (by omega) apart
    | zero =>
      rw [declarations, declarations]
      rw [spans] at apart
      rcases here : declaration? tag key (c :: x) with _ | ⟨value, rest⟩
      · have absent : declaration? tag key (c :: (x ++ z)) = none := by
          refine declaration?_append_eq_none here fun value rest found => ?_
          rw [List.cons_append] at found
          rw [found] at apart
          have ends := apart _ List.mem_cons_self (by dsimp only; omega)
          have shorter := length_lt_of_declaration? found
          simp only [List.length_cons, List.length_append] at ends shorter
          omega
        have absent' : declaration? tag key (c :: (x ++ y)) = none := by
          refine declaration?_append_eq_none here fun value rest found => Nat.le_of_not_lt ?_
          intro beyond
          obtain ⟨_, _, found', -⟩ := runs c x value rest found beyond
          rw [List.cons_append, absent] at found'
          cases found'
        rw [absent']
        rw [absent] at apart
        exact onward 0 (Nat.zero_le _) apart
      · have found := declaration?_append bare here y
        have found' := declaration?_append bare here z
        rw [List.cons_append] at found found'
        rw [found'] at apart
        rw [found]
        dsimp only at apart ⊢
        rw [List.length_append, List.length_append, Nat.add_sub_add_right] at apart ⊢
        rw [onward _ (by omega) fun m member => apart m (List.mem_cons_of_mem _ member)]
        rfl

/-! ### Declarations from a place on -/

theorem declaration?_cons_of_ne (other : c ≠ '<') : declaration? tag key (c :: x) = none := by
  rw [declaration?, dropStart?, if_neg (Ne.symm other)]

theorem declarations_cons_of_none (absent : declaration? tag key (c :: x) = none) :
    declarations tag key 0 (c :: x) = declarations tag key 0 x := by
  rw [declarations, absent]

/-- A text without the start of a tag has no declaration that begins in it. -/
theorem declarations_append_of_not_mem (plain : '<' ∉ x) :
    declarations tag key 0 (x ++ y) = declarations tag key 0 y := by
  induction x with
  | nil => rfl
  | cons c x ih =>
    rw [List.mem_cons, not_or] at plain
    rw [List.cons_append, declarations_cons_of_none (declaration?_cons_of_ne (Ne.symm plain.1)),
      ih plain.2]

theorem declarations_skip : declarations tag key x.length (x ++ y) = declarations tag key 0 y := by
  induction x with
  | nil => rfl
  | cons c x ih => rw [List.length_cons, List.cons_append, declarations, ih]

/-- A declaration comes first, and the next one is looked for behind it. -/
theorem declarations_cons_of_some (found : declaration? tag key (c :: (x ++ y)) = some (value, y)) :
    declarations tag key 0 (c :: (x ++ y)) = value :: declarations tag key 0 y := by
  rw [declarations, found]
  simp only [List.length_append, Nat.add_sub_cancel, declarations_skip]

/-- A declaration that runs into a tag runs into any text with a quote in it. -/
theorem runsInto_tag (plain : '<' ∉ tag) (plain' : '<' ∉ key) (occupied : y ≠ [])
    (unquoted : ∀ c ∈ y, isQuote c = false) (quoted : isQuote quote = true)
    (silent : ∀ before, firstAssignment? key before ('<' :: q) = none) :
    RunsInto tag key ('<' :: q) (y ++ quote :: z) := by
  intro c x value rest found short
  obtain ⟨w, split, boundary, assigned⟩ := declaration?_eq_some_iff.mp found
  simp only [List.cons_append, List.cons.injEq] at split
  obtain ⟨rfl, split⟩ := split
  obtain ⟨more, rfl, rfl⟩ := exists_rest_of_not_mem plain split
  cases more with
  | nil =>
    rw [List.nil_append, silent] at assigned
    cases assigned
  | cons d more =>
    obtain ⟨value', rest', assigned', shorter⟩ := firstAssignment?_into (z := z) plain' occupied
      unquoted quoted silent assigned (Nat.le_of_lt_succ short)
    refine ⟨value', rest', declaration?_eq_some_iff.mpr ⟨_, ?_, ?_, assigned'⟩, shorter⟩
    · simp
    · exact boundary

end Tracepoint.Descriptor
