import Tracepoint.Artifact
import Tracepoint.Proofs.Files.Places

/-!
# The names that a run publishes under

The instrumented archive is named after its input with a marker in front of the ending of the name
(`Archive.instrumentedName_eq`), and the manifest with a suffix at the end. Neither is the name of
the input, and the archive is never named like something temporary, like the archive of another
input, or like an archive that may be picked as input. The two names are the same for one suffix
and a name without an extension (`Archive.append_eq_instrumentedName_iff`).
-/

namespace Tracepoint

open Tracepoint.Path

/-! ### Stems and endings -/

namespace Path

/-- The end of a name from the dot in front of its extension on. -/
def ending (name : String) : String :=
  match (splitName name).2 with
  | some ext => "." ++ ext
  | none => ""

variable {stem ext : String}

theorem splitName_of_not_mem {name : String} (plain : '.' ∉ name.toList.tail) :
    splitName name = (name, none) := by
  rw [splitName]
  cases chars : name.toList with
  | nil => rfl
  | cons c cs =>
    rw [chars, List.tail_cons] at plain
    have later : ∀ d ∈ cs.reverse, decide (d ≠ '.') = true := by
      rintro d member
      rw [decide_eq_true_eq]
      rintro rfl
      exact plain (List.mem_reverse.mp member)
    rw [List.reverse_cons, List.takeWhile_append_of_pos later]
    by_cases dot : c = '.'
    · simp [dot]
    · have all : (cs.reverse ++ [c]).drop (cs.reverse ++ [c].takeWhile (· ≠ '.')).length = [] :=
        List.drop_of_length_le (by simp [dot])
      simp only [all]

theorem splitName_append (occupied : stem ≠ "") (last : '.' ∉ ext.toList) :
    splitName (stem ++ "." ++ ext) = (stem, some ext) := by
  have later : ∀ d ∈ ext.toList.reverse, decide (d ≠ '.') = true := by
    rintro d member
    rw [decide_eq_true_eq]
    rintro rfl
    exact last (List.mem_reverse.mp member)
  obtain ⟨c, cs, back⟩ : ∃ c cs, stem.toList.reverse = c :: cs :=
    List.exists_cons_of_ne_nil (by simpa using occupied)
  have front : stem = .ofList (c :: cs).reverse := by
    rw [← back, List.reverse_reverse, String.ofList_toList]
  have chars : (stem ++ "." ++ ext).toList.reverse = ext.toList.reverse ++ '.' :: c :: cs := by
    simp [back]
  rw [splitName, chars, List.takeWhile_append_of_pos later]
  simp [front]

/-- A name is split at its last dot, unless there is none or it starts the name. -/
theorem splitName_cases (name : String) :
    '.' ∉ name.toList.tail ∧ splitName name = (name, none) ∨
      ∃ stem ext : String, stem ≠ "" ∧ '.' ∉ ext.toList ∧ name = stem ++ "." ++ ext ∧
        splitName name = (stem, some ext) := by
  by_cases dotted : '.' ∈ name.toList.tail
  · obtain ⟨c, cs, chars⟩ : ∃ c cs, name.toList = c :: cs :=
      List.exists_cons_of_ne_nil fun empty => by simp [empty] at dotted
    rw [chars, List.tail_cons, ← List.mem_reverse] at dotted
    obtain ⟨back, front, split, last⟩ := List.eq_append_cons_of_mem dotted
    have whole : name = .ofList (c :: front.reverse) ++ "." ++ .ofList back.reverse := by
      rw [← String.toList_inj, chars, ← List.reverse_reverse cs, split]
      simp
    have occupied : String.ofList (c :: front.reverse) ≠ "" := by
      simp
    have last' : '.' ∉ (String.ofList back.reverse).toList := by simpa using last
    exact .inr ⟨_, _, occupied, last', whole, whole ▸ splitName_append occupied last'⟩
  · exact .inl ⟨dotted, splitName_of_not_mem dotted⟩

theorem splitName_append_ending (name : String) : (splitName name).1 ++ ending name = name := by
  rcases splitName_cases name with ⟨-, split⟩ | ⟨stem, ext, -, -, whole, split⟩
  · simp [ending, split]
  · rw [ending, split, ← String.append_assoc, ← whole]

theorem toList_eq_append_ending (name : String) :
    name.toList = (splitName name).1.toList ++ (ending name).toList := by
  rw [← String.toList_append, splitName_append_ending]

end Path

/-! ### Words in front of the ending -/

namespace Archive

/-- A name with a word put in front of its ending. -/
def marked (word name : String) : String :=
  (splitName name).1 ++ word ++ ending name

variable {word : String}

/-- A word without dots leaves a name split where it was. -/
theorem splitName_marked (plain : '.' ∉ word.toList) (name : String) :
    splitName (marked word name) = ((splitName name).1 ++ word, (splitName name).2) := by
  rw [marked, ending]
  rcases splitName_cases name with ⟨undotted, split⟩ | ⟨stem, ext, occupied, last, -, split⟩
  · rw [split, String.append_empty]
    apply splitName_of_not_mem
    rw [String.toList_append]
    cases chars : name.toList with
    | nil => exact fun dot => plain (List.mem_of_mem_tail dot)
    | cons c cs =>
      rw [chars] at undotted
      simpa [plain] using undotted
  · rw [split, ← String.append_assoc]
    refine splitName_append ?_ last
    simp [occupied]

/-- Different names are different with the same word in them. -/
theorem marked_injective (plain : '.' ∉ word.toList) : Function.Injective (marked word) := by
  intro a b same
  have split := congrArg splitName same
  rw [splitName_marked plain, splitName_marked plain, Prod.mk.injEq] at split
  have stems := (String.append_left_inj word).mp split.1
  calc
    a = (splitName a).1 ++ ending a := (splitName_append_ending a).symm
    _ = (splitName b).1 ++ ending b := by rw [ending, ending, stems, split.2]
    _ = b := splitName_append_ending b

theorem toList_marked (word name : String) : (marked word name).toList =
    (splitName name).1.toList ++ word.toList ++ (ending name).toList := by
  rw [marked, String.toList_append, String.toList_append]

theorem mem_toList_marked {name : String} {c : Char} :
    c ∈ (marked word name).toList ↔ c ∈ name.toList ∨ c ∈ word.toList := by
  rw [toList_marked, toList_eq_append_ending name]
  simp only [List.mem_append]
  exact or_right_comm

theorem marked_ne (occupied : word ≠ "") (name : String) : marked word name ≠ name := by
  intro same
  have length := congrArg (fun s : String => s.toList.length) same
  simp only [toList_marked, toList_eq_append_ending name, List.length_append] at length
  exact occupied (String.toList_eq_nil_iff.mp (List.length_eq_zero_iff.mp (by omega)))

/-- A file can have a name with a word in it, if the word holds no slash and is not all dots. -/
theorem isName_marked {name : String} (noSlash : '/' ∉ word.toList) {c : Char}
    (letter : c ∈ word.toList) (noDot : c ≠ '.') (isName : IsName name) :
    IsName (marked word name) := by
  have marked : c ∈ (marked word name).toList := mem_toList_marked.mpr (.inr letter)
  refine ⟨fun slash => ?_, ?_, ?_, ?_⟩
  · rcases mem_toList_marked.mp slash with slash | slash
    · exact isName.noSlash slash
    · exact noSlash slash
  all_goals
    intro same
    rw [same] at marked
    simp [noDot] at marked

/-! ### Instrumented archives -/

/-- An instrumented archive has the marker in front of the ending of its name. -/
theorem instrumentedName_eq (name : String) : instrumentedName name = marked marker name := by
  unfold instrumentedName marked ending splitName
  dsimp only
  generalize name.toList.reverse.takeWhile (· ≠ '.') = tail
  rcases name.toList.reverse.drop tail.length with _ | ⟨c, _ | ⟨d, stem⟩⟩
  · simp
  · by_cases dot : c = '.'
    · simp [dot]
    · simp [dot, String.append_assoc]
  · simp [String.append_assoc]

/-- The name of an instrumented archive is not that of its input. -/
theorem instrumentedName_ne (name : String) : instrumentedName name ≠ name := by
  rw [instrumentedName_eq]
  exact marked_ne (by decide) name

theorem dash_mem_instrumentedName (name : String) : '-' ∈ (instrumentedName name).toList := by
  rw [instrumentedName_eq, mem_toList_marked]
  exact .inr (by decide)

theorem instrumentedName_injective : Function.Injective instrumentedName := by
  have plain : '.' ∉ marker.toList := by decide
  intro a b same
  rw [instrumentedName_eq, instrumentedName_eq] at same
  exact marked_injective plain same

/-- A name of an archive that may be picked as input: it has the extension of archives, and no
marker in front of that. -/
def Pickable (name : String) : Prop :=
  ".apk".toList <:+ name.toList ∧ ¬ "-instrumented.apk".toList <:+ name.toList

instance (name : String) : Decidable (Pickable name) :=
  inferInstanceAs (Decidable (".apk".toList <:+ name.toList ∧
    ¬ "-instrumented.apk".toList <:+ name.toList))

theorem isCandidate_iff {name : String} : isCandidate name ↔ Pickable name := by
  have unmarked : "." ++ extension = ".apk" := by decide
  have marked : marker ++ "." ++ extension = "-instrumented.apk" := by decide
  rw [isCandidate, isInstrumented, Text.endsWith, Text.endsWith, unmarked, marked, Pickable,
    Bool.and_eq_true, Bool.not_eq_true', ← Bool.not_eq_true, List.isSuffixOf_iff_suffix,
    List.isSuffixOf_iff_suffix]

/-- No instrumented archive is picked, whatever archive it was made of. -/
theorem not_pickable_instrumentedName (name : String) : ¬ Pickable (instrumentedName name) := by
  rintro ⟨⟨front, chars⟩, unmarked⟩
  have whole : String.ofList front ++ "." ++ "apk" = instrumentedName name := by
    rw [← String.toList_inj, ← chars]
    simp
  have occupied : String.ofList front ≠ "" := by
    have marked := dash_mem_instrumentedName name
    intro empty
    rw [← whole, empty] at marked
    exact absurd marked (by decide)
  -- What stands in front of the extension is the stem with the marker.
  have split := splitName_append occupied (by decide : '.' ∉ "apk".toList)
  rw [whole, instrumentedName_eq, splitName_marked (by decide), Prod.mk.injEq] at split
  refine unmarked ⟨(splitName name).1.toList, ?_⟩
  rw [← whole, ← split.1]
  simp [marker]

theorem isName_instrumentedName {name : String} (isName : IsName name) :
    IsName (instrumentedName name) := by
  rw [instrumentedName_eq]
  exact isName_marked (c := '-') (by decide) (by decide) (by decide) isName

/-- An instrumented name is not that of something temporary. -/
theorem instrumentedName_ne_tempName (name : String) (n : Nat) :
    instrumentedName name ≠ FileAction.tempName n := by
  intro same
  have marked := dash_mem_instrumentedName name
  rw [same, FileAction.toList_tempName, FileAction.tempDigits] at marked
  simp only [List.mem_append] at marked
  rcases marked with start | zero | digit
  · exact absurd start (by decide)
  · cases List.eq_of_mem_replicate zero
  · cases Nat.isDigit_of_mem_toDigits (by decide) (Nat.le_refl 10) digit

theorem isName_append {name suffix : String} (isName : IsName name) (nonempty : suffix ≠ "")
    (separate : '/' ∉ suffix.toList) : IsName (name ++ suffix) := by
  obtain ⟨c, cs, first⟩ : ∃ c cs, name.toList = c :: cs :=
    List.exists_cons_of_ne_nil fun empty => isName.notEmpty (String.toList_inj.mp empty)
  obtain ⟨d, ds, second⟩ : ∃ d ds, suffix.toList = d :: ds :=
    List.exists_cons_of_ne_nil fun empty => nonempty (String.toList_inj.mp empty)
  have chars : (name ++ suffix).toList = c :: cs ++ d :: ds := by
    rw [String.toList_append, first, second]
  refine ⟨by simp [isName.noSlash, separate], ?_, ?_, ?_⟩
  · intro same
    simp [same] at chars
  · intro same
    simp [same] at chars
  · intro same
    rw [same] at chars
    obtain ⟨rfl, rfl⟩ : '.' = c ∧ cs = [] := by
      cases cs with
      | nil => exact ⟨(List.cons.inj chars).1, rfl⟩
      | cons e es => simp at chars
    exact isName.notDot (String.toList_inj.mp first)

/-- A suffix makes the name of an instrumented archive only where that has no extension, and only
if it is the marker. -/
theorem append_eq_instrumentedName_iff {name suffix : String} :
    name ++ suffix = instrumentedName name ↔ (splitName name).2 = none ∧ suffix = marker := by
  rw [instrumentedName_eq, marked, ending]
  rcases splitName_cases name with ⟨-, split⟩ | ⟨stem, ext, -, -, whole, split⟩
  · simp [split, String.append_right_inj]
  · rw [split]
    refine iff_of_false (fun same => ?_) (by simp)
    have chars := congrArg String.toList same
    rw [whole] at chars
    simp [marker] at chars

end Archive

end Tracepoint
