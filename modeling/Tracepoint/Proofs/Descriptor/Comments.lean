import Tracepoint.Descriptor.Scan

/-!
# Comments of descriptors

Comments are found one after the other, each by the first closer behind its opener (`comments`).
The place for insertions is the last one where the closing tag stands outside of all of them
(`splitAtClosing?_eq_some_iff`). What is put there neither ends a comment nor is part of one, if it
holds no closer and its first character is none that goes on with a comment: the text before it
scans apart from the text from there on (`Clear.scansApart`). So the two lose their comments apart
from each other (`ScansApart.withoutComments_append`), and the last closing tag of the second is
that of the whole (`ScansApart.splitAtClosing?_of_some`).
-/

namespace Tracepoint.Descriptor

variable {c : Char} {cs x y : List Char} {place skip k n : Nat}

/-- The comments of a text that starts at a place, each by where it starts and where it ends;
`skip` more characters belong to a comment that has begun. -/
def comments (place skip : Nat) : List Char → List (Nat × Nat)
  | [] => []
  | c :: cs =>
    match skip with
    | skip + 1 => comments (place + 1) skip cs
    | 0 =>
      match commentLength? (c :: cs) with
      | some n => (place, place + n) :: comments (place + 1) (n - 1) cs
      | none => comments (place + 1) 0 cs

/-- The closing tag stands at a place of a text, and that place is in no comment. -/
structure IsClosing (cs : List Char) (k : Nat) : Prop where
  tag : closingTag <+: cs.drop k
  uncommented : ∀ m ∈ comments 0 0 cs, ¬ (m.1 ≤ k ∧ k < m.2)

/-- The last place of the closing tag that is in no comment. -/
structure IsLastClosing (cs : List Char) (k : Nat) : Prop where
  closing : IsClosing cs k
  last : ∀ j, IsClosing cs j → j ≤ k

instance : Decidable (IsClosing cs k) :=
  decidable_of_iff (closingTag <+: cs.drop k ∧ ∀ m ∈ comments 0 0 cs, ¬ (m.1 ≤ k ∧ k < m.2))
    ⟨fun h => ⟨h.1, h.2⟩, fun h => ⟨h.tag, h.uncommented⟩⟩

theorem IsClosing.lt_length (closing : IsClosing cs k) : k < cs.length := by
  have long := closing.tag.length_le
  have tag : closingTag.length = 11 := by decide
  rw [tag, List.length_drop] at long
  omega

instance : Decidable (IsLastClosing cs k) :=
  decidable_of_iff (IsClosing cs k ∧ ∀ j < cs.length, IsClosing cs j → j ≤ k)
    ⟨fun h => ⟨h.1, fun j closing => h.2 j closing.lt_length closing⟩,
      fun h => ⟨h.closing, fun j _ => h.last j⟩⟩

/-! ### Occurrences of a pattern -/

section Occurrence

variable {pattern : List Char}

/-- A pattern does not reach across a character that it lacks. -/
theorem prefix_append_cons_iff (lacks : c ∉ pattern) : pattern <+: x ++ c :: y ↔ pattern <+: x := by
  constructor
  · intro reaches
    by_cases short : pattern.length ≤ x.length
    · exact List.prefix_of_prefix_length_le reaches (List.prefix_append _ _) short
    · obtain ⟨rest, whole⟩ :=
        List.prefix_of_prefix_length_le (List.prefix_append x (c :: y)) reaches (by omega)
      obtain ⟨beyond, same⟩ := reaches
      rw [← whole, List.append_assoc, List.append_cancel_left_eq] at same
      cases rest with
      | nil => simp [← whole] at short
      | cons d rest =>
        cases same
        exact absurd (whole ▸ List.mem_append_right _ List.mem_cons_self) lacks
  · exact fun here => here.trans (List.prefix_append _ _)

theorem offset?_nil (occupied : pattern ≠ []) : offset? pattern [] = none := by
  simp [offset?, occupied]

theorem offset?_cons_eq_none_iff :
    offset? pattern (c :: cs) = none ↔ ¬ pattern <+: c :: cs ∧ offset? pattern cs = none := by
  rw [offset?, ← List.isPrefixOf_iff_prefix]
  split <;> simp [*]

/-- A pattern does not occur in a text that lacks one of its characters. -/
theorem offset?_eq_none_of_not_mem (member : c ∈ pattern) (lacks : c ∉ x) :
    offset? pattern x = none := by
  induction x with
  | nil => exact offset?_nil (List.ne_nil_of_mem member)
  | cons d x ih =>
    refine offset?_cons_eq_none_iff.mpr ⟨fun here => lacks (here.subset member), ih fun later => ?_⟩
    exact lacks (List.mem_cons_of_mem d later)

/-- A pattern does not occur across a character that it lacks. -/
theorem offset?_append_cons_eq_none_iff (occupied : pattern ≠ []) (lacks : c ∉ pattern) :
    offset? pattern (x ++ c :: y) = none ↔ offset? pattern x = none ∧ offset? pattern y = none := by
  induction x with
  | nil =>
    have absent : ¬ pattern <+: c :: y := fun reaches =>
      occupied (List.prefix_nil.mp ((prefix_append_cons_iff (x := []) lacks).mp reaches))
    simp [offset?_cons_eq_none_iff, offset?_nil occupied, absent]
  | cons d x ih =>
    have across := prefix_append_cons_iff (x := d :: x) (y := y) lacks
    rw [List.cons_append] at across ⊢
    rw [offset?_cons_eq_none_iff, offset?_cons_eq_none_iff, ih, across, and_assoc]

theorem offset?_eq_some_iff : offset? pattern x = some n ↔
    pattern <+: x.drop n ∧ ∀ j, j < n → ¬ pattern <+: x.drop j := by
  induction x generalizing n with
  | nil =>
    cases pattern with
    | nil =>
      cases n with
      | zero => simp [offset?]
      | succ n =>
        simp only [offset?, List.isEmpty_nil, if_true, Option.some.injEq, reduceCtorEq, false_iff]
        exact fun h => h.2 0 (Nat.succ_pos n) List.nil_prefix
    | cons d pattern => simp [offset?]
  | cons d x ih =>
    rw [offset?]
    split
    · rename_i here
      rw [List.isPrefixOf_iff_prefix] at here
      constructor
      · intro h
        cases h
        exact ⟨here, fun j below => absurd below (Nat.not_lt_zero j)⟩
      · rintro ⟨-, first⟩
        cases n with
        | zero => rfl
        | succ n => exact absurd here (first 0 (Nat.succ_pos n))
    · rename_i absent
      rw [List.isPrefixOf_iff_prefix] at absent
      cases n with
      | zero => simp [absent]
      | succ n =>
        rw [Option.map_eq_some_iff]
        simp only [Nat.add_right_cancel_iff, exists_eq_right, ih, List.drop_succ_cons]
        refine and_congr_right fun _ => ⟨fun first j below => ?_, fun first j below => ?_⟩
        · cases j with
          | zero => exact absent
          | succ j => exact first j (Nat.lt_of_succ_lt_succ below)
        · exact first (j + 1) (Nat.succ_lt_succ below)

/-- Where a pattern occurs first is decided by the text up to its end. -/
theorem offset?_congr (same : x.take (n + pattern.length) = y.take (n + pattern.length))
    (h : offset? pattern x = some n) : offset? pattern y = some n := by
  have there (j : Nat) (bound : j ≤ n) : pattern <+: x.drop j ↔ pattern <+: y.drop j := by
    have cut (z : List Char) : (z.drop j).take pattern.length =
        ((z.take (n + pattern.length)).drop j).take pattern.length := by
      rw [List.drop_take, List.take_take, Nat.min_eq_left (by omega)]
    rw [List.prefix_iff_eq_take, List.prefix_iff_eq_take, cut x, cut y, same]
  rw [offset?_eq_some_iff] at h ⊢
  exact ⟨(there n (Nat.le_refl n)).mp h.1,
    fun j below reaches => h.2 j below ((there j (Nat.le_of_lt below)).mpr reaches)⟩

end Occurrence

/-! ### The length of a comment -/

theorem commentLength?_eq_some_iff : commentLength? cs = some n ↔
    commentOpener <+: cs ∧ ∃ m, offset? commentCloser (cs.drop 4) = some m ∧ n = m + 7 := by
  rw [commentLength?, ← List.isPrefixOf_iff_prefix]
  split
  · rename_i opens
    simp only [opens, true_and, Option.map_eq_some_iff]
    refine exists_congr fun m => and_congr_right fun _ => ?_
    simp only [commentOpener, commentCloser, List.length_cons, List.length_nil]
    omega
  · rename_i plain
    simp [plain]

theorem commentLength?_cons_eq_none_iff : commentLength? (c :: cs) = none ↔
    (c = '<' → ['!', '-', '-'] <+: cs → offset? commentCloser (cs.drop 3) = none) := by
  rw [commentLength?]
  simp [commentOpener, List.isPrefixOf_iff_prefix, eq_comm (a := '<')]

theorem pos_of_commentLength? (h : commentLength? cs = some n) : 0 < n := by
  obtain ⟨-, m, -, rfl⟩ := commentLength?_eq_some_iff.mp h
  omega

theorem le_length_of_commentLength? (h : commentLength? cs = some n) : n ≤ cs.length := by
  obtain ⟨-, m, closes, rfl⟩ := commentLength?_eq_some_iff.mp h
  have bound := (offset?_eq_some_iff.mp closes).1.length_le
  rw [List.drop_drop, List.length_drop] at bound
  simp only [commentCloser, List.length_cons, List.length_nil] at bound
  omega

/-- A comment is decided by the text up to its end. -/
theorem commentLength?_congr (same : x.take n = y.take n) (h : commentLength? x = some n) :
    commentLength? y = some n := by
  rw [commentLength?_eq_some_iff] at h ⊢
  obtain ⟨opens, m, closes, rfl⟩ := h
  constructor
  · have cut (z : List Char) : z.take commentOpener.length =
        (z.take (m + 7)).take commentOpener.length := by
      rw [List.take_take, Nat.min_eq_left (by simp [commentOpener])]
    rwa [List.prefix_iff_eq_take, cut, ← same, ← cut, ← List.prefix_iff_eq_take]
  · refine ⟨m, offset?_congr ?_ closes, rfl⟩
    rw [List.take_drop, List.take_drop, show 4 + (m + commentCloser.length) = m + 7 by
      simp [commentCloser]; omega, same]

/-- A comment is not affected by what follows. -/
theorem commentLength?_append (h : commentLength? x = some n) (y : List Char) :
    commentLength? (x ++ y) = some n :=
  commentLength?_congr (List.take_append_of_le_length (le_length_of_commentLength? h)).symm h

theorem commentLength?_take (h : commentLength? x = some n) (within : n ≤ k) :
    commentLength? (x.take k) = some n :=
  commentLength?_congr (by rw [List.take_take, Nat.min_eq_left within]) h

/-! ### Places outside of comments -/

/-- A place of a text is in no comment, where the text starts at a place and `skip` more of its
characters belong to a comment that has begun. -/
def Outside (place skip : Nat) (cs : List Char) (k : Nat) : Prop :=
  skip ≤ k ∧ ∀ m ∈ comments place skip cs, ¬ (m.1 ≤ place + k ∧ place + k < m.2)

theorem le_of_mem_comments {m : Nat × Nat} (member : m ∈ comments place skip cs) :
    place ≤ m.1 := by
  induction cs generalizing place skip with
  | nil => cases member
  | cons c cs ih =>
    cases skip with
    | succ skip => exact Nat.le_of_succ_le (ih member)
    | zero =>
      rw [comments] at member
      split at member
      · rcases List.mem_cons.mp member with rfl | later
        · exact Nat.le_refl _
        · exact Nat.le_of_succ_le (ih later)
      · exact Nat.le_of_succ_le (ih member)

theorem outside_skip_zero : ¬ Outside place (skip + 1) cs 0 :=
  fun outside => Nat.not_succ_le_zero skip outside.1

theorem outside_skip_succ :
    Outside place (skip + 1) (c :: cs) (k + 1) ↔ Outside (place + 1) skip cs k := by
  rw [Outside, Outside, comments, Nat.add_right_comm place 1 k, Nat.add_assoc,
    Nat.succ_le_succ_iff]

theorem outside_zero : Outside place 0 (c :: cs) 0 ↔ commentLength? (c :: cs) = none := by
  rw [Outside, comments]
  cases length : commentLength? (c :: cs) with
  | none =>
    simp only [Nat.le_refl, Nat.add_zero, true_and, iff_true]
    intro m member inside
    have later := le_of_mem_comments member
    omega
  | some n =>
    have positive := pos_of_commentLength? length
    simp only [List.forall_mem_cons, Nat.add_zero, reduceCtorEq, iff_false]
    rintro ⟨-, apart, -⟩
    exact apart ⟨Nat.le_refl _, Nat.lt_add_of_pos_right positive⟩

theorem outside_succ_of_some (length : commentLength? (c :: cs) = some n) :
    Outside place 0 (c :: cs) (k + 1) ↔ Outside (place + 1) (n - 1) cs k := by
  rw [Outside, Outside, comments, length, Nat.add_right_comm place 1 k, Nat.add_assoc]
  simp only [List.forall_mem_cons]
  constructor
  · rintro ⟨-, apart, later⟩
    exact ⟨by omega, later⟩
  · rintro ⟨beyond, later⟩
    exact ⟨Nat.zero_le _, by omega, later⟩

theorem outside_succ_of_none (plain : commentLength? (c :: cs) = none) :
    Outside place 0 (c :: cs) (k + 1) ↔ Outside (place + 1) 0 cs k := by
  rw [Outside, Outside, comments, plain, Nat.add_right_comm place 1 k, Nat.add_assoc]
  simp only [Nat.zero_le, true_and]

theorem isClosing_iff : IsClosing cs k ↔ closingTag <+: cs.drop k ∧ Outside 0 0 cs k := by
  rw [Outside, Nat.zero_add]
  exact ⟨fun ⟨tag, apart⟩ => ⟨tag, Nat.zero_le k, apart⟩, fun ⟨tag, _, apart⟩ => ⟨tag, apart⟩⟩

/-! ### The place for insertions -/

/-- What a split of a text in front of its last uncommented closing tag says, if there is one. -/
inductive SplitsAtLast (place skip : Nat) (cs : List Char) : Option (List Char × List Char) → Prop
  where
  | nowhere (h : ∀ k, closingTag <+: cs.drop k → ¬ Outside place skip cs k) :
      SplitsAtLast place skip cs none
  | last {k : Nat} (tag : closingTag <+: cs.drop k) (outside : Outside place skip cs k)
      (h : ∀ j, closingTag <+: cs.drop j → Outside place skip cs j → j ≤ k) :
      SplitsAtLast place skip cs (some (cs.take k, cs.drop k))

/-- A split behind the first character is a split of the whole, if that character is in a comment or
something is found behind it. -/
theorem SplitsAtLast.onward {ahead : Nat} {split : Option (List Char × List Char)}
    (h : SplitsAtLast (place + 1) ahead cs split)
    (shift : ∀ k, Outside place skip (c :: cs) (k + 1) ↔ Outside (place + 1) ahead cs k)
    (here : split = none → ¬ Outside place skip (c :: cs) 0) :
    SplitsAtLast place skip (c :: cs) (split.map fun s => (c :: s.1, s.2)) := by
  cases h with
  | nowhere nowhere =>
    refine .nowhere fun k tag outside => ?_
    cases k with
    | zero => exact here rfl outside
    | succ k => exact nowhere k tag ((shift k).mp outside)
  | @last k tag outside last =>
    refine .last (k := k + 1) tag ((shift k).mpr outside) fun j tag outside => ?_
    cases j with
    | zero => exact Nat.zero_le _
    | succ j => exact Nat.succ_le_succ (last j tag ((shift j).mp outside))

/-- Where nothing is found behind the first character, that character is the place or there is
none. -/
theorem SplitsAtLast.here (h : SplitsAtLast (place + 1) 0 cs none)
    (plain : commentLength? (c :: cs) = none) :
    SplitsAtLast place 0 (c :: cs)
      (if closingTag.isPrefixOf (c :: cs) then some ([], c :: cs) else none) := by
  cases h with
  | nowhere nowhere =>
    have later (j : Nat) (tag : closingTag <+: cs.drop j) : ¬ Outside place 0 (c :: cs) (j + 1) :=
      fun outside => nowhere j tag ((outside_succ_of_none plain).mp outside)
    split
    · rename_i tag
      refine .last (k := 0) (List.isPrefixOf_iff_prefix.mp tag) (outside_zero.mpr plain) ?_
      intro j tag outside
      cases j with
      | zero => exact Nat.le_refl 0
      | succ j => exact absurd outside (later j tag)
    · rename_i other
      refine .nowhere fun j tag => ?_
      cases j with
      | zero => exact absurd (List.isPrefixOf_iff_prefix.mpr tag) other
      | succ j => exact later j tag

theorem splitsAtLast_splitAtClosing? (place skip : Nat) (cs : List Char) :
    SplitsAtLast place skip cs (splitAtClosing? skip cs) := by
  induction cs generalizing place skip with
  | nil => exact .nowhere fun k tag => absurd (List.drop_nil ▸ tag) (by decide)
  | cons c cs ih =>
    cases skip with
    | succ skip => exact (ih _ _).onward (fun k => outside_skip_succ) fun _ => outside_skip_zero
    | zero =>
      rw [splitAtClosing?.eq_def]
      dsimp only
      cases length : commentLength? (c :: cs) with
      | some n =>
        refine (ih _ _).onward (fun k => outside_succ_of_some length) fun _ outside => ?_
        rw [outside_zero, length] at outside
        cases outside
      | none =>
        have later := ih (place + 1) 0
        dsimp only
        cases found : splitAtClosing? 0 cs with
        | some s =>
          rw [found] at later
          exact later.onward (fun k => outside_succ_of_none length) (fun absent => nomatch absent)
        | none =>
          rw [found] at later
          exact later.here length

/-- The place for insertions is the last uncommented closing tag. -/
theorem splitAtClosing?_eq_some_iff : splitAtClosing? 0 cs = some (x, y) ↔
    ∃ k, IsLastClosing cs k ∧ x = cs.take k ∧ y = cs.drop k := by
  have splits := splitsAtLast_splitAtClosing? 0 0 cs
  constructor
  · intro found
    rw [found] at splits
    cases splits with
    | @last k tag outside last =>
      refine ⟨k, ⟨isClosing_iff.mpr ⟨tag, outside⟩, fun j closing => ?_⟩, rfl, rfl⟩
      obtain ⟨tag, outside⟩ := isClosing_iff.mp closing
      exact last j tag outside
  · rintro ⟨k, ⟨closing, last⟩, rfl, rfl⟩
    obtain ⟨tag, outside⟩ := isClosing_iff.mp closing
    cases found : splitAtClosing? 0 cs with
    | none =>
      rw [found] at splits
      cases splits with
      | nowhere nowhere => exact absurd outside (nowhere k tag)
    | some s =>
      rw [found] at splits
      cases splits with
      | @last j tag' outside' last' =>
        have same : j = k := Nat.le_antisymm
          (last j (isClosing_iff.mpr ⟨tag', outside'⟩)) (last' k tag outside)
        rw [same]

/-- A text with an uncommented closing tag has a last one. -/
theorem IsClosing.exists_last (closing : IsClosing cs k) : ∃ j, IsLastClosing cs j := by
  have splits := splitsAtLast_splitAtClosing? 0 0 cs
  cases found : splitAtClosing? 0 cs with
  | none =>
    rw [found] at splits
    obtain ⟨tag, outside⟩ := isClosing_iff.mp closing
    cases splits with
    | nowhere nowhere => exact absurd outside (nowhere k tag)
  | some s =>
    obtain ⟨j, last, -⟩ := splitAtClosing?_eq_some_iff.mp found
    exact ⟨j, last⟩

/-! ### Comments around an insertion -/

/-- A text that neither goes on with a comment's opener nor with a closer. -/
def Aloof : List Char → Prop
  | [] => False
  | c :: _ => c ∉ ['!', '-', '>']

theorem withoutComments_cons_of_none (plain : commentLength? (c :: cs) = none) :
    withoutComments 0 (c :: cs) = c :: withoutComments 0 cs := by
  rw [withoutComments, plain]

theorem withoutComments_cons_of_some (length : commentLength? (c :: cs) = some n) :
    withoutComments 0 (c :: cs) = withoutComments (n - 1) cs := by
  rw [withoutComments, length]

/-- Before a place outside of comments nothing begins a comment on account of what stands there. -/
theorem commentLength?_eq_none_of_aloof (aloof : Aloof y)
    (open? : offset? commentCloser cs = none → offset? commentCloser y = none) (aloof' : Aloof cs)
    (plain : commentLength? (c :: (x ++ cs)) = none) : commentLength? (c :: (x ++ y)) = none := by
  obtain ⟨d, y, rfl⟩ : ∃ d y', y = d :: y' := by
    cases y with
    | nil => cases aloof
    | cons d y => exact ⟨d, y, rfl⟩
  obtain ⟨e, cs, rfl⟩ : ∃ e cs', cs = e :: cs' := by
    cases cs with
    | nil => cases aloof'
    | cons e cs => exact ⟨e, cs, rfl⟩
  have lacks : d ∉ ['!', '-', '-'] ∧ d ∉ commentCloser := by
    simp_all [Aloof, commentCloser]
  have lacks' : e ∉ commentCloser := by
    simp_all [Aloof, commentCloser]
  rw [commentLength?_cons_eq_none_iff] at plain ⊢
  intro opens more
  have begun : ['!', '-', '-'] <+: x := (prefix_append_cons_iff lacks.1).mp more
  have closes := plain opens (begun.trans (List.prefix_append _ _))
  have long : 3 ≤ x.length := begun.length_le
  rw [List.drop_append_of_le_length long,
    offset?_append_cons_eq_none_iff (by decide) lacks'] at closes
  rw [List.drop_append_of_le_length long, offset?_append_cons_eq_none_iff (by decide) lacks.2]
  have whole : offset? commentCloser (e :: cs) = none :=
    (offset?_append_cons_eq_none_iff (x := []) (by decide) lacks').mpr
      ⟨offset?_nil (by decide), closes.2⟩
  exact ⟨closes.1, ((offset?_append_cons_eq_none_iff (x := []) (by decide) lacks.2).mp
    (open? whole)).2⟩

/-- A place of a text is not in the middle of a comment, where the text starts at a place and `skip`
more of its characters belong to a comment that has begun. -/
def Clear (place skip : Nat) (cs : List Char) (k : Nat) : Prop :=
  skip ≤ k ∧ ∀ m ∈ comments place skip cs, m.1 < place + k → m.2 ≤ place + k

instance : Decidable (Clear place skip cs k) :=
  inferInstanceAs (Decidable (_ ∧ ∀ m ∈ comments place skip cs, _))

theorem Outside.clear (outside : Outside place skip cs k) : Clear place skip cs k := by
  refine ⟨outside.1, fun m member before => Nat.le_of_not_lt fun beyond => ?_⟩
  exact outside.2 m member ⟨Nat.le_of_lt before, beyond⟩

theorem not_clear_skip_zero : ¬ Clear place (skip + 1) cs 0 :=
  fun clear => Nat.not_succ_le_zero skip clear.1

theorem Clear.of_skip_succ (clear : Clear place (skip + 1) (c :: cs) (k + 1)) :
    Clear (place + 1) skip cs k := by
  refine ⟨Nat.le_of_succ_le_succ clear.1, fun m member before => ?_⟩
  have bound := clear.2 m member
  omega

theorem Clear.of_none (clear : Clear place 0 (c :: cs) (k + 1))
    (plain : commentLength? (c :: cs) = none) : Clear (place + 1) 0 cs k := by
  refine ⟨Nat.zero_le k, fun m member before => ?_⟩
  have bound := clear.2 m (by rwa [comments, plain])
  omega

theorem Clear.of_some (clear : Clear place 0 (c :: cs) (k + 1))
    (length : commentLength? (c :: cs) = some n) : Clear (place + 1) (n - 1) cs k := by
  have here := clear.2
  rw [comments, length] at here
  refine ⟨?_, fun m member before => ?_⟩
  · have bound := here _ List.mem_cons_self
    omega
  · have bound := here m (List.mem_cons_of_mem _ member)
    omega

/-- The comments that begin in a text are those that it has alone, also in front of another text;
`skip` more of its characters belong to a comment that has begun. -/
inductive ScansApart (y : List Char) : Nat → List Char → Prop where
  | nil : ScansApart y 0 []
  | skipped {c : Char} {x : List Char} {skip : Nat} (later : ScansApart y skip x) :
      ScansApart y (skip + 1) (c :: x)
  | comment {c : Char} {x : List Char} {n : Nat} (alone : commentLength? (c :: x) = some n)
      (kept : commentLength? (c :: (x ++ y)) = some n) (later : ScansApart y (n - 1) x) :
      ScansApart y 0 (c :: x)
  | plain {c : Char} {x : List Char} (alone : commentLength? (c :: x) = none)
      (kept : commentLength? (c :: (x ++ y)) = none) (later : ScansApart y 0 x) :
      ScansApart y 0 (c :: x)

/-- **What is in front of a clear place has its comments to itself**, whatever is put there in
place of what follows, if it goes on with no comment and holds no closer that was not there. -/
theorem Clear.scansApart (clear : Clear place skip cs k) (aloof : Aloof (cs.drop k))
    (aloof' : Aloof y)
    (open? : offset? commentCloser (cs.drop k) = none → offset? commentCloser y = none) :
    ScansApart y skip (cs.take k) := by
  induction cs generalizing place skip k with
  | nil => cases k <;> cases aloof
  | cons c cs ih =>
    cases k with
    | zero =>
      cases skip with
      | succ skip => exact absurd clear not_clear_skip_zero
      | zero => exact .nil
    | succ k =>
      rw [List.take_succ_cons]
      cases skip with
      | succ skip => exact .skipped (ih clear.of_skip_succ aloof open?)
      | zero =>
        cases length : commentLength? (c :: cs) with
        | some n =>
          have onward := clear.of_some length
          have within : n ≤ k + 1 := by
            have bound := onward.1
            omega
          have alone : commentLength? (c :: cs.take k) = some n := commentLength?_take length within
          exact .comment alone (commentLength?_append alone y) (ih onward aloof open?)
        | none =>
          have onward := clear.of_none length
          rw [← List.take_append_drop k cs] at length
          have kept := commentLength?_eq_none_of_aloof aloof' open? aloof length
          have alone : commentLength? (c :: cs.take k) = none := by
            cases begun : commentLength? (c :: cs.take k) with
            | none => rfl
            | some n =>
              have kept := commentLength?_append begun (cs.drop k)
              rw [List.cons_append, length] at kept
              cases kept
          exact .plain alone kept (ih onward aloof open?)

/-- A text that scans apart from another loses its comments apart from it. -/
theorem ScansApart.withoutComments_append (apart : ScansApart y skip x) :
    withoutComments skip (x ++ y) = withoutComments skip x ++ withoutComments 0 y := by
  induction apart with
  | nil => rfl
  | skipped _ ih => exact ih
  | comment alone kept _ ih =>
    rw [List.cons_append, withoutComments_cons_of_some kept, withoutComments_cons_of_some alone, ih]
  | plain alone kept _ ih =>
    rw [List.cons_append, withoutComments_cons_of_none kept, withoutComments_cons_of_none alone,
      ih, List.cons_append]

theorem splitAtClosing?_cons_of_none (plain : commentLength? (c :: cs) = none) :
    splitAtClosing? 0 (c :: cs) = match splitAtClosing? 0 cs with
      | some s => some (c :: s.1, s.2)
      | none => if closingTag.isPrefixOf (c :: cs) then some ([], c :: cs) else none := by
  cases found : splitAtClosing? 0 cs <;> simp only [splitAtClosing?, plain, found]

theorem splitAtClosing?_cons_of_some (length : commentLength? (c :: cs) = some n) :
    splitAtClosing? 0 (c :: cs) = (splitAtClosing? (n - 1) cs).map fun s => (c :: s.1, s.2) := by
  rw [splitAtClosing?, length]

/-- The last closing tag of the text behind is the last one of the whole. -/
theorem ScansApart.splitAtClosing?_of_some {s : List Char × List Char}
    (apart : ScansApart y skip x) (found : splitAtClosing? 0 y = some s) :
    splitAtClosing? skip (x ++ y) = some (x ++ s.1, s.2) := by
  induction apart with
  | nil => exact found
  | skipped _ ih => rw [List.cons_append, splitAtClosing?, ih, Option.map_some, List.cons_append]
  | comment _ kept _ ih =>
    rw [List.cons_append, splitAtClosing?_cons_of_some kept, ih, Option.map_some, List.cons_append]
  | plain _ kept _ ih =>
    rw [List.cons_append, splitAtClosing?_cons_of_none kept, ih, List.cons_append]

/-- The closing tag does not reach across a character that only its first one can be. -/
theorem isPrefixOf_closingTag_append (other : c ∉ closingTag.tail) {d : Char} :
    closingTag.isPrefixOf (d :: (x ++ c :: y)) = closingTag.isPrefixOf (d :: x) := by
  obtain ⟨tail, tag⟩ : ∃ tail, closingTag = '<' :: tail := ⟨closingTag.tail, by decide⟩
  rw [tag, List.tail_cons] at other
  rw [tag, Bool.eq_iff_iff, List.isPrefixOf_iff_prefix, List.isPrefixOf_iff_prefix,
    List.cons_prefix_cons, List.cons_prefix_cons, prefix_append_cons_iff other]

/-- Where the text behind has no closing tag, the last one of the text in front is that of the
whole. -/
theorem ScansApart.splitAtClosing?_of_none (apart : ScansApart (c :: y) skip x)
    (other : c ∉ closingTag.tail) (absent : splitAtClosing? 0 (c :: y) = none) :
    splitAtClosing? skip (x ++ c :: y) =
      (splitAtClosing? skip x).map fun s => (s.1, s.2 ++ c :: y) := by
  induction apart with
  | nil => exact absent
  | skipped _ ih =>
    rw [List.cons_append, splitAtClosing?, splitAtClosing?, ih, Option.map_map, Option.map_map]
    rfl
  | comment alone kept _ ih =>
    rw [List.cons_append, splitAtClosing?_cons_of_some kept, splitAtClosing?_cons_of_some alone, ih,
      Option.map_map, Option.map_map]
    rfl
  | @plain _ x alone kept _ ih =>
    rw [List.cons_append, splitAtClosing?_cons_of_none kept, splitAtClosing?_cons_of_none alone, ih,
      isPrefixOf_closingTag_append other]
    cases splitAtClosing? 0 x with
    | some s => rfl
    | none =>
      dsimp only [Option.map_none]
      split <;> rfl

/-! ### Texts in which no comment begins -/

/-- No comment begins in a text, whatever follows it: each tag in it goes on, and with no
exclamation mark. -/
inductive Uncommented : List Char → Prop where
  | nil : Uncommented []
  | plain {c : Char} {x : List Char} (other : c ≠ '<') (later : Uncommented x) :
      Uncommented (c :: x)
  | tag {c : Char} {x : List Char} (other : c ≠ '!') (later : Uncommented (c :: x)) :
      Uncommented ('<' :: c :: x)

theorem uncommented_of_not_mem (plain : '<' ∉ x) : Uncommented x := by
  induction x with
  | nil => exact .nil
  | cons c x ih =>
    rw [List.mem_cons, not_or] at plain
    exact .plain (Ne.symm plain.1) (ih plain.2)

theorem uncommented_tag (other : c ≠ '!') (plain : '<' ∉ c :: x) : Uncommented ('<' :: c :: x) :=
  .tag other (uncommented_of_not_mem plain)

theorem Uncommented.append (first : Uncommented x) (second : Uncommented y) :
    Uncommented (x ++ y) := by
  induction first with
  | nil => exact second
  | plain other _ ih => exact .plain other ih
  | tag other _ ih => exact .tag other ih

theorem commentLength?_cons_of_ne (other : c ≠ '<') : commentLength? (c :: x) = none :=
  commentLength?_cons_eq_none_iff.mpr fun opens => absurd opens other

theorem commentLength?_tag (other : c ≠ '!') : commentLength? ('<' :: c :: x) = none :=
  commentLength?_cons_eq_none_iff.mpr fun _ opens =>
    absurd (List.cons_prefix_cons.mp opens).1.symm other

theorem Uncommented.scansApart (free : Uncommented x) : ScansApart y 0 x := by
  induction free with
  | nil => exact .nil
  | plain other _ ih =>
    exact .plain (commentLength?_cons_of_ne other) (commentLength?_cons_of_ne other) ih
  | tag other _ ih => exact .plain (commentLength?_tag other) (commentLength?_tag other) ih

theorem Uncommented.withoutComments_append (free : Uncommented x) (y : List Char) :
    withoutComments 0 (x ++ y) = x ++ withoutComments 0 y := by
  induction free with
  | nil => rfl
  | plain other _ ih =>
    rw [List.cons_append, withoutComments_cons_of_none (commentLength?_cons_of_ne other), ih,
      List.cons_append]
  | tag other _ ih =>
    rw [List.cons_append] at ih
    rw [List.cons_append, List.cons_append,
      withoutComments_cons_of_none (commentLength?_tag other), ih]
    rfl

theorem Uncommented.withoutComments (free : Uncommented x) : withoutComments 0 x = x := by
  have alone := free.withoutComments_append []
  simpa [Descriptor.withoutComments] using alone

end Tracepoint.Descriptor
