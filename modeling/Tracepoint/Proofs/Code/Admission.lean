import Mathlib.Data.List.Basic
import Tracepoint.Proofs.Code.Documents

/-!
# Which statements form a body

Statements form a body when their labels are distinct and none of them is the reserved one,
whatever their jumps and the traps refer to, and the body has these statements and traps. Of any
other statements the first one is reported whose label is reserved or used before it
(`Body.Offends`, `Body.ofParts_first_offence`).
-/

namespace Tracepoint

namespace Body

/-- What is wrong with the label of a statement that stands behind some others: it is the reserved
one, or else one of theirs. -/
inductive Offends (earlier : List Statement) (s : Statement) : LabelError → Prop where
  | outOfRange (reserved : s.label.index.toNat = 2 ^ 32 - 1) :
      Offends earlier s (.outOfRange s.label)
  | duplicate (allowed : s.label.index.toNat ≠ 2 ^ 32 - 1)
      (again : s.label ∈ earlier.map Statement.label) : Offends earlier s (.duplicate s.label)

/-- No statement offends. -/
def Inoffensive (statements : List Statement) : Prop :=
  ∀ before t after, statements = before ++ t :: after → ∀ e, ¬ Offends before t e

variable {seen : List Label} {earlier rest : List Statement} {s : Statement} {e e' : LabelError}

/-- A statement offends in one way at most. -/
theorem Offends.unique (one : Offends earlier s e) (other : Offends earlier s e') : e = e' := by
  cases one <;> cases other
  case outOfRange.outOfRange => rfl
  case outOfRange.duplicate reserved allowed _ => exact absurd reserved allowed
  case duplicate.outOfRange allowed _ reserved => exact absurd reserved allowed
  case duplicate.duplicate => rfl

theorem Inoffensive.concat (fine : Inoffensive earlier) (harmless : ∀ e, ¬ Offends earlier s e) :
    Inoffensive (earlier ++ [s]) := by
  intro before t after split
  rcases List.eq_nil_or_concat' after with rfl | ⟨after, u, rfl⟩
  · obtain ⟨rfl, last⟩ := List.append_inj' split rfl
    cases last
    exact harmless
  · rw [← List.cons_append, ← List.append_assoc] at split
    exact fine before t after (List.append_inj' split rfl).1

theorem limit_le_iff {l : Label} : Label.limit ≤ l.index ↔ l.index.toNat = 2 ^ 32 - 1 := by
  have bound := l.index.toNat_lt
  rw [UInt32.le_iff_toNat_le, Label.toNat_limit]
  omega

/-- Reading a statement behind others ends with what is wrong with it, or goes on behind it. -/
theorem labelError?_cons (noted : ∀ l, l ∈ seen ↔ l ∈ earlier.map Statement.label)
    (s : Statement) (rest : List Statement) :
    (∃ e, Offends earlier s e ∧ labelError? seen (s :: rest) = some e) ∨
      (∀ e, ¬ Offends earlier s e) ∧
        labelError? seen (s :: rest) = labelError? (s.label :: seen) rest := by
  rw [labelError?]
  split
  · rename_i reserved
    exact .inl ⟨_, .outOfRange (limit_le_iff.mp reserved), rfl⟩
  · rename_i below
    have allowed := mt limit_le_iff.mpr below
    split
    · rename_i again
      exact .inl ⟨_, .duplicate allowed ((noted _).mp again), rfl⟩
    · rename_i unused
      rw [noted] at unused
      refine .inr ⟨?_, rfl⟩
      rintro e (reserved | ⟨-, again⟩)
      · exact allowed reserved
      · exact unused again

/-- What is reported is the first offence behind the statements that have been read. -/
theorem labelError?_eq_some_iff (noted : ∀ l, l ∈ seen ↔ l ∈ earlier.map Statement.label)
    (fine : Inoffensive earlier) :
    labelError? seen rest = some e ↔
      ∃ between s later, rest = between ++ s :: later ∧ Offends (earlier ++ between) s e ∧
        Inoffensive (earlier ++ between) := by
  induction rest generalizing seen earlier with
  | nil => simp [labelError?]
  | cons t rest ih =>
    rcases labelError?_cons noted t rest with ⟨e', offends, reported⟩ | ⟨harmless, goesOn⟩
    · rw [reported, Option.some.injEq]
      constructor
      · rintro rfl
        exact ⟨[], t, rest, rfl, by rwa [List.append_nil], by rwa [List.append_nil]⟩
      · rintro ⟨between, s, later, split, offends', fine'⟩
        cases between with
        | nil =>
          obtain ⟨rfl, -⟩ := List.cons.inj split
          rw [List.append_nil] at offends'
          exact offends.unique offends'
        | cons t' between =>
          obtain ⟨rfl, -⟩ := List.cons.inj split
          exact absurd offends (fine' earlier t between rfl e')
    · have noted' (l : Label) :
          l ∈ t.label :: seen ↔ l ∈ (earlier ++ [t]).map Statement.label := by
        simp [noted, or_comm]
      have fine' : Inoffensive (earlier ++ [t]) := fine.concat harmless
      rw [goesOn, ih noted' fine']
      constructor
      · rintro ⟨between, s, later, rfl, offends, fine''⟩
        exact ⟨t :: between, s, later, rfl, by simpa using offends, by simpa using fine''⟩
      · rintro ⟨between, s, later, split, offends, fine''⟩
        cases between with
        | nil =>
          obtain ⟨rfl, -⟩ := List.cons.inj split
          rw [List.append_nil] at offends
          exact absurd offends (harmless e)
        | cons t' between =>
          obtain ⟨rfl, rfl⟩ := List.cons.inj split
          exact ⟨between, s, later, rfl, by simpa using offends, by simpa using fine''⟩

/-- Nothing is reported exactly of distinct labels that are not reserved. -/
theorem labelError?_nil_eq_none_iff {statements : List Statement} :
    labelError? [] statements = none ↔ (statements.map Statement.label).Nodup ∧
      ∀ s ∈ statements, s.label.index.toNat < 2 ^ 32 - 1 := by
  constructor
  · intro sound
    obtain ⟨distinct, inRange⟩ := labelError?_eq_none sound
    exact ⟨distinct, fun s member => (inRange _ (List.mem_map_of_mem member)).1⟩
  · rintro ⟨distinct, inRange⟩
    refine labelError?_of_distinct distinct fun l used => ⟨?_, List.not_mem_nil⟩
    obtain ⟨s, member, rfl⟩ := List.mem_map.mp used
    exact inRange s member

/-- **Which statements form a body**: those with distinct labels below the reserved one, and the
body has them and the traps, whatever those refer to. Of others the first offence is reported. -/
theorem ofParts_first_offence (statements : List Statement) (traps : List Trap) :
    (∀ b, ofParts statements traps = .ok b ↔ b = ⟨statements, traps, 0⟩ ∧
      (statements.map Statement.label).Nodup ∧
      ∀ s ∈ statements, s.label.index.toNat < 2 ^ 32 - 1) ∧
    ∀ e, ofParts statements traps = .error e ↔
      ∃ earlier s later, statements = earlier ++ s :: later ∧ Offends earlier s e ∧
        Inoffensive earlier := by
  have fine : Inoffensive [] := by simp [Inoffensive]
  have first (e : LabelError) : labelError? [] statements = some e ↔ _ :=
    labelError?_eq_some_iff (fun _ => .rfl) fine
  simp only [List.nil_append] at first
  simp only [← labelError?_nil_eq_none_iff, ← first, ofParts]
  cases labelError? [] statements with
  | none => simp [eq_comm]
  | some e => simp

/-- The reserved label is reported as such, also where it was used before. -/
example : ofParts [⟨⟨7⟩, .ret none⟩, ⟨⟨0xffffffff⟩, .goto ⟨9⟩⟩, ⟨⟨0xffffffff⟩, .goto ⟨7⟩⟩] [] =
    .error (.outOfRange ⟨0xffffffff⟩) := by
  decide

end Body

end Tracepoint
