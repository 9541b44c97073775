import Mathlib.Data.List.Basic
import Tracepoint.Tools.Template

/-!
# Places that are filled one after another

A template should be read once, and every place in it filled with its path (`Template.substitute`).
The places are filled one kind after the other instead, each in what the earlier ones left. The two
agree on absolute paths exactly where no path that has filled a place spells a later place, by
itself or together with what follows it in the word (`Template.expand_eq_iff`): no place holds a
slash, so none is spelled across the beginning of a path, and the first place that is spelled from
within a path shows as a slash where the path has a brace.
-/

namespace Tracepoint.Template

/-- The places of a template. -/
inductive Place where
  | input
  | output
  | archive
  deriving DecidableEq, Repr

namespace Place

/-- How a place is spelled. -/
def spelling : Place → List Char
  | input => inputPlace.toList
  | output => outputPlace.toList
  | archive => archivePlace.toList

/-- The places in the order in which they are filled. -/
def order : List Place :=
  [input, output, archive]

/-- The places that are filled before a place. -/
def earlier : Place → List Place
  | input => []
  | output => [input]
  | archive => [input, output]

/-- The places that are filled after a place. -/
def later : Place → List Place
  | input => [output, archive]
  | output => [archive]
  | archive => []

theorem order_eq (q : Place) : order = q.earlier ++ q :: q.later := by
  cases q <;> rfl

theorem mem_order (q : Place) : q ∈ order := by
  cases q <;> decide

theorem not_mem_earlier (q : Place) : q ∉ q.earlier := by
  cases q <;> decide

end Place

/-! ### Filling all places at once -/

/-- The place that some characters begin with. -/
def place? (cs : List Char) : Option Place :=
  Place.order.find? fun q => q.spelling.isPrefixOf cs

/-- The characters of a word with every place filled, read once from left to right. A place that
has begun is passed over for `skip` more characters. -/
def substituteFrom (path : Place → Path) (skip : Nat) : List Char → List Char
  | [] => []
  | c :: cs =>
    match skip with
    | skip + 1 => substituteFrom path skip cs
    | 0 =>
      match place? (c :: cs) with
      | some q => (path q).toList ++ substituteFrom path (q.spelling.length - 1) cs
      | none => c :: substituteFrom path 0 cs

/-- Fills every place that stands in a word with its path, and changes nothing else. -/
def substitute (path : Place → Path) (word : String) : String :=
  String.ofList (substituteFrom path 0 word.toList)

/-- A place is spelled from within a text on, with some characters after it. -/
def SpelledFrom (p : Place) (text after : List Char) : Prop :=
  ∃ front back, text = front ++ back ∧ back ≠ [] ∧ p.spelling <+: back ++ after

/-- The path of a place in the word spells a later place, by itself or with what follows it in the
word. -/
def Respells (path : Place → Path) (word : List Char) : Prop :=
  ∃ before q after, word = before ++ q.spelling ++ after ∧
    ∃ p ∈ q.later, SpelledFrom p (path q).toList after

/-! ### How places are spelled -/

namespace Place

/-- A place is spelled with a brace, and no other brace and no slash after it. -/
theorem exists_spelling (p : Place) :
    ∃ rest, p.spelling = '\x7b' :: rest ∧ '\x7b' ∉ rest ∧ '/' ∉ rest := by
  cases p
  · exact ⟨['i', 'n', 'p', 'u', 't', '\x7d'], rfl, by decide, by decide⟩
  · exact ⟨['o', 'u', 't', 'p', 'u', 't', '\x7d'], rfl, by decide, by decide⟩
  · exact ⟨['o', 'r', 'i', 'g', 'i', 'n', 'a', 'l', '\x7d'], rfl, by decide, by decide⟩

theorem spelling_ne_nil (p : Place) : p.spelling ≠ [] := by
  obtain ⟨rest, spelled, -, -⟩ := p.exists_spelling
  simp [spelled]

/-- No place is spelled where another one is. -/
theorem eq_of_spelling_prefix {p q : Place} {after : List Char}
    (spelled : p.spelling <+: q.spelling ++ after) : p = q := by
  have input : inputPlace.toList = ['\x7b', 'i', 'n', 'p', 'u', 't', '\x7d'] := rfl
  have output : outputPlace.toList = ['\x7b', 'o', 'u', 't', 'p', 'u', 't', '\x7d'] := rfl
  have archive : archivePlace.toList =
      ['\x7b', 'o', 'r', 'i', 'g', 'i', 'n', 'a', 'l', '\x7d'] := rfl
  cases p <;> cases q <;> simp_all [spelling]

/-- Within a place that is spelled no place begins but that one. -/
theorem eq_of_prefix_back {p q : Place} {front back after : List Char}
    (whole : q.spelling = front ++ back) (inside : back ≠ [])
    (spelled : p.spelling <+: back ++ after) : front = [] ∧ p = q := by
  cases front with
  | nil =>
    rw [List.nil_append] at whole
    exact ⟨rfl, eq_of_spelling_prefix (whole ▸ spelled)⟩
  | cons d front =>
    obtain ⟨c, back, rfl⟩ := List.exists_cons_of_ne_nil inside
    obtain ⟨rest, brace, -, -⟩ := p.exists_spelling
    obtain ⟨rest', brace', noBrace, -⟩ := q.exists_spelling
    rw [brace, List.cons_append, List.cons_prefix_cons] at spelled
    rw [brace', List.cons_append, List.cons.injEq] at whole
    obtain ⟨rfl, -⟩ := spelled
    exact absurd (whole.2 ▸ by simp) noBrace

end Place

/-- The place that some characters begin with is the one that is spelled there. -/
theorem place?_eq_some_iff {cs : List Char} {q : Place} :
    place? cs = some q ↔ q.spelling <+: cs := by
  rw [place?]
  constructor
  · intro found
    simpa using List.find?_some found
  · intro spelled
    obtain ⟨p, found⟩ : ∃ p, Place.order.find? (fun q => q.spelling.isPrefixOf cs) = some p := by
      refine Option.isSome_iff_exists.mp (List.find?_isSome.mpr ⟨q, q.mem_order, ?_⟩)
      simpa using spelled
    have same : p = q := by
      obtain ⟨after, rfl⟩ := spelled
      exact Place.eq_of_spelling_prefix (by simpa using List.find?_some found)
    rw [found, same]

theorem place?_eq_none_iff {cs : List Char} :
    place? cs = none ↔ ∀ q : Place, ¬ q.spelling <+: cs := by
  simp [Option.eq_none_iff_forall_ne_some, place?_eq_some_iff]

/-! ### One reading of a word -/

section Substitution

variable {path : Place → Path}

theorem substituteFrom_skip (k : Nat) (cs : List Char) :
    substituteFrom path k cs = substituteFrom path 0 (cs.drop k) := by
  induction cs generalizing k with
  | nil => simp [substituteFrom]
  | cons c cs ih =>
    cases k with
    | zero => rfl
    | succ k => rw [substituteFrom, ih, List.drop_succ_cons]

theorem substituteFrom_spelling (q : Place) (rest : List Char) :
    substituteFrom path 0 (q.spelling ++ rest) =
      (path q).toList ++ substituteFrom path 0 rest := by
  have found : place? (q.spelling ++ rest) = some q :=
    place?_eq_some_iff.mpr (List.prefix_append _ _)
  obtain ⟨tail, brace, -, -⟩ := q.exists_spelling
  rw [brace, List.cons_append] at found ⊢
  rw [substituteFrom, found]
  simp [substituteFrom_skip, brace]

theorem substituteFrom_cons {c : Char} {rest : List Char}
    (plain : ∀ q : Place, ¬ q.spelling <+: c :: rest) :
    substituteFrom path 0 (c :: rest) = c :: substituteFrom path 0 rest := by
  rw [substituteFrom, place?_eq_none_iff.mpr plain]

end Substitution

/-- A word is read place by place and, where no place begins, character by character. -/
@[elab_as_elim]
theorem reading {motive : List Char → Prop} (nil : motive [])
    (place : ∀ (q : Place) rest, motive rest → motive (q.spelling ++ rest))
    (char : ∀ c rest, (∀ q : Place, ¬ q.spelling <+: c :: rest) → motive rest → motive (c :: rest))
    (cs : List Char) : motive cs := by
  induction length : cs.length using Nat.strongRecOn generalizing cs with
  | ind n ih =>
    cases cs with
    | nil => exact nil
    | cons c rest =>
      by_cases begins : ∃ q : Place, q.spelling <+: c :: rest
      · obtain ⟨q, after, whole⟩ := begins
        have short : after.length < n := by
          have pos := List.length_pos_iff.mpr q.spelling_ne_nil
          rw [← length, ← whole, List.length_append]
          omega
        rw [← whole]
        exact place q after (ih _ short after rfl)
      · exact char c rest (not_exists.mp begins) (ih _ (by simp [← length]) rest rfl)

/-! ### Filling one kind of place after the other -/

/-- The characters with some kinds of places filled, one after the other. -/
def fillEach (path : Place → Path) (places : List Place) (cs : List Char) : List Char :=
  places.foldl (fun cs p => Text.replaceFrom p.spelling (path p).toList 0 cs) cs

theorem expandWord_eq (path : Place → Path) (word : String) :
    expandWord (path .input) (path .output) (path .archive) word =
      String.ofList (fillEach path Place.order word.toList) := by
  simp [expandWord, Text.replace, fillEach, Place.order, Place.spelling]

theorem fillEach_cons_places (path : Place → Path) (p : Place) (places : List Place)
    (cs : List Char) : fillEach path (p :: places) cs =
      fillEach path places (Text.replaceFrom p.spelling (path p).toList 0 cs) := rfl

theorem fillEach_append_places (path : Place → Path) (first next : List Place) (cs : List Char) :
    fillEach path (first ++ next) cs = fillEach path next (fillEach path first cs) :=
  List.foldl_append

section Replacement

variable {pattern new : List Char}

theorem replaceFrom_skip (k : Nat) (cs : List Char) :
    Text.replaceFrom pattern new k cs = Text.replaceFrom pattern new 0 (cs.drop k) := by
  induction cs generalizing k with
  | nil => simp [Text.replaceFrom]
  | cons c cs ih =>
    cases k with
    | zero => rfl
    | succ k => rw [Text.replaceFrom, ih, List.drop_succ_cons]

theorem replaceFrom_pattern (nonempty : pattern ≠ []) (rest : List Char) :
    Text.replaceFrom pattern new 0 (pattern ++ rest) =
      new ++ Text.replaceFrom pattern new 0 rest := by
  obtain ⟨c, cs, rfl⟩ := List.exists_cons_of_ne_nil nonempty
  rw [List.cons_append, Text.replaceFrom, if_pos (by simp), replaceFrom_skip]
  simp

theorem replaceFrom_cons {c : Char} {rest : List Char} (plain : ¬ pattern <+: c :: rest) :
    Text.replaceFrom pattern new 0 (c :: rest) = c :: Text.replaceFrom pattern new 0 rest := by
  rw [Text.replaceFrom, if_neg (by simpa using plain)]

end Replacement

theorem exists_toList_of_isAbsolute {p : Path} (absolute : Path.isAbsolute p) :
    ∃ rest, p.toList = '/' :: rest := by
  rw [Path.isAbsolute, decide_eq_true_eq, List.head?_eq_some_iff] at absolute
  exact absolute

section Filling

variable {path : Place → Path} {places : List Place} {p : Place} {t cs : List Char} {c : Char}

/-- What has no brace and no slash stands in front after a place is filled iff it stood there
before. -/
theorem prefix_replaceFrom_iff (absolute : ∀ p, Path.isAbsolute (path p)) (noBrace : '\x7b' ∉ t)
    (noSlash : '/' ∉ t) : t <+: Text.replaceFrom p.spelling (path p).toList 0 cs ↔ t <+: cs := by
  induction t generalizing cs with
  | nil => simp
  | cons d t ih =>
    rw [List.mem_cons, not_or] at noBrace noSlash
    cases cs with
    | nil => rfl
    | cons c cs =>
      by_cases begins : p.spelling <+: c :: cs
      · -- In front there is the brace of a place before, and the slash of a path after.
        obtain ⟨rest, whole⟩ := begins
        obtain ⟨tail, brace, -, -⟩ := p.exists_spelling
        obtain ⟨way, slash⟩ := exists_toList_of_isAbsolute (absolute p)
        rw [← whole, replaceFrom_pattern p.spelling_ne_nil, brace, slash, List.cons_append,
          List.cons_append, List.cons_prefix_cons, List.cons_prefix_cons]
        simp [Ne.symm noBrace.1, Ne.symm noSlash.1]
      · rw [replaceFrom_cons begins, List.cons_prefix_cons, List.cons_prefix_cons,
          ih noBrace.2 noSlash.2]

theorem prefix_fillEach_iff (absolute : ∀ p, Path.isAbsolute (path p)) (noBrace : '\x7b' ∉ t)
    (noSlash : '/' ∉ t) : t <+: fillEach path places cs ↔ t <+: cs := by
  induction places generalizing cs with
  | nil => rfl
  | cons p places ih => exact ih.trans (prefix_replaceFrom_iff absolute noBrace noSlash)

/-- A place begins within a text iff it began there before what follows was filled. -/
theorem spelling_prefix_fillEach_iff (absolute : ∀ p, Path.isAbsolute (path p)) {back : List Char}
    (inside : back ≠ []) :
    p.spelling <+: back ++ fillEach path places cs ↔ p.spelling <+: back ++ cs := by
  obtain ⟨tail, brace, noBrace, noSlash⟩ := p.exists_spelling
  obtain ⟨b, back, rfl⟩ := List.exists_cons_of_ne_nil inside
  rw [brace, List.cons_append, List.cons_append, List.cons_prefix_cons, List.cons_prefix_cons]
  refine and_congr_right fun _ => ?_
  clear brace inside
  induction back generalizing tail with
  | nil => exact prefix_fillEach_iff absolute noBrace noSlash
  | cons b back ih =>
    cases tail with
    | nil => simp
    | cons d tail =>
      rw [List.mem_cons, not_or] at noBrace noSlash
      rw [List.cons_append, List.cons_append, List.cons_prefix_cons, List.cons_prefix_cons,
        ih tail noBrace.2 noSlash.2]

theorem spelledFrom_fillEach_iff (absolute : ∀ p, Path.isAbsolute (path p)) {text : List Char} :
    SpelledFrom p text (fillEach path places cs) ↔ SpelledFrom p text cs := by
  constructor
  · rintro ⟨front, back, rfl, inside, spelled⟩
    exact ⟨front, back, rfl, inside, (spelling_prefix_fillEach_iff absolute inside).mp spelled⟩
  · rintro ⟨front, back, rfl, inside, spelled⟩
    exact ⟨front, back, rfl, inside, (spelling_prefix_fillEach_iff absolute inside).mpr spelled⟩

/-- A character that begins none of the places stays. -/
theorem fillEach_cons (absolute : ∀ p, Path.isAbsolute (path p))
    (plain : ∀ p ∈ places, ¬ p.spelling <+: c :: cs) :
    fillEach path places (c :: cs) = c :: fillEach path places cs := by
  induction places generalizing cs with
  | nil => rfl
  | cons p places ih =>
    obtain ⟨here, later⟩ := List.forall_mem_cons.mp plain
    rw [fillEach_cons_places, replaceFrom_cons here]
    refine ih fun q member spelled => later q member ?_
    have same : q.spelling <+: [c] ++ fillEach path [p] cs ↔ q.spelling <+: [c] ++ cs :=
      spelling_prefix_fillEach_iff absolute (by simp)
    exact same.mp spelled

/-- A text within which none of the places begins stays. -/
theorem fillEach_append (absolute : ∀ p, Path.isAbsolute (path p)) {text : List Char}
    (plain : ∀ p ∈ places, ¬ SpelledFrom p text cs) :
    fillEach path places (text ++ cs) = text ++ fillEach path places cs := by
  induction text with
  | nil => rfl
  | cons c text ih =>
    rw [List.cons_append, List.cons_append, fillEach_cons absolute, ih]
    · rintro p member ⟨front, back, rfl, spelled⟩
      exact plain p member ⟨c :: front, back, rfl, spelled⟩
    · exact fun p member spelled => plain p member ⟨[], c :: text, rfl, by simp, spelled⟩

/-- Where one of the places begins there is a slash in the end. -/
theorem exists_slash_of_prefix (absolute : ∀ p, Path.isAbsolute (path p)) (member : p ∈ places)
    (spelled : p.spelling <+: cs) : ∃ rest, fillEach path places cs = '/' :: rest := by
  induction places generalizing cs with
  | nil => cases member
  | cons q places ih =>
    by_cases begins : q.spelling <+: cs
    · obtain ⟨rest, rfl⟩ := begins
      obtain ⟨way, slash⟩ := exists_toList_of_isAbsolute (absolute q)
      rw [fillEach_cons_places, replaceFrom_pattern q.spelling_ne_nil, slash, List.cons_append,
        fillEach_cons absolute]
      · exact ⟨_, rfl⟩
      · intro p _ spelled
        obtain ⟨tail, brace, -, -⟩ := p.exists_spelling
        simp [brace] at spelled
    · have other : p ∈ places := by
        rcases List.mem_cons.mp member with rfl | later
        · exact absurd spelled begins
        · exact later
      cases cs with
      | nil => exact absurd (List.prefix_nil.mp spelled) p.spelling_ne_nil
      | cons c cs =>
        rw [fillEach_cons_places, replaceFrom_cons begins]
        have same : p.spelling <+: [c] ++ fillEach path [q] cs ↔ p.spelling <+: [c] ++ cs :=
          spelling_prefix_fillEach_iff absolute (by simp)
        exact ih other (same.mpr spelled)

/-- Where one of the places begins the first character does not stay. -/
theorem fillEach_ne_cons (absolute : ∀ p, Path.isAbsolute (path p)) (member : p ∈ places)
    (spelled : p.spelling <+: c :: cs) (rest : List Char) :
    fillEach path places (c :: cs) ≠ c :: rest := by
  obtain ⟨tail, brace, -, -⟩ := p.exists_spelling
  obtain ⟨filled, slash⟩ := exists_slash_of_prefix absolute member spelled
  rw [brace, List.cons_prefix_cons] at spelled
  obtain ⟨rfl, -⟩ := spelled
  simp [slash]

/-- A text within which one of the places begins does not stay. -/
theorem fillEach_append_ne (absolute : ∀ p, Path.isAbsolute (path p)) {text : List Char}
    (member : p ∈ places) (spelled : SpelledFrom p text cs) (rest : List Char) :
    fillEach path places (text ++ cs) ≠ text ++ rest := by
  obtain ⟨front, back, rfl, inside, spelled⟩ := spelled
  induction front with
  | nil =>
    obtain ⟨b, back, rfl⟩ := List.exists_cons_of_ne_nil inside
    exact fillEach_ne_cons absolute member spelled _
  | cons c front ih =>
    simp only [List.cons_append]
    by_cases begins : ∃ q ∈ places, q.spelling <+: c :: (front ++ back ++ cs)
    · obtain ⟨q, member', first⟩ := begins
      exact fillEach_ne_cons absolute member' first _
    · rw [fillEach_cons absolute (by simpa using begins), ne_eq, List.cons.injEq, not_and]
      exact fun _ => ih

/-- A place that a word begins with is filled, and its path goes through what is filled later. -/
theorem fillEach_spelling (absolute : ∀ p, Path.isAbsolute (path p)) (q : Place) :
    fillEach path Place.order (q.spelling ++ cs) =
      fillEach path q.later ((path q).toList ++ fillEach path (q.earlier ++ [q]) cs) := by
  have passed : ∀ p ∈ q.earlier, ¬ SpelledFrom p q.spelling cs := by
    rintro p member ⟨front, back, whole, inside, spelled⟩
    obtain ⟨-, rfl⟩ := Place.eq_of_prefix_back whole inside spelled
    exact p.not_mem_earlier member
  rw [q.order_eq, fillEach_append_places, fillEach_append absolute passed, fillEach_cons_places,
    replaceFrom_pattern q.spelling_ne_nil, fillEach_append_places, fillEach_cons_places]
  rfl

end Filling

/-! ### Where the two agree -/

section Agreement

variable {path : Place → Path} {q : Place} {c : Char} {rest : List Char}

theorem not_respells_nil : ¬ Respells path [] := by
  rintro ⟨before, q, after, whole, -⟩
  simpa [q.spelling_ne_nil] using whole.symm

/-- The first place of a word is respelled, or one behind it is. -/
theorem respells_spelling_iff : Respells path (q.spelling ++ rest) ↔
    (∃ p ∈ q.later, SpelledFrom p (path q).toList rest) ∨ Respells path rest := by
  constructor
  · rintro ⟨before, q', after, whole, respelled⟩
    rw [List.append_assoc, List.append_eq_append_iff] at whole
    obtain ⟨back, rfl, later⟩ | ⟨back, first, later⟩ := whole
    · exact .inr ⟨back, q', after, by simp [later], respelled⟩
    · by_cases outside : back = []
      · subst outside
        rw [List.append_nil] at first
        exact .inr ⟨[], q', after, by simpa using later.symm, respelled⟩
      · obtain ⟨rfl, rfl⟩ := Place.eq_of_prefix_back first outside ⟨after, later⟩
        obtain rfl : q'.spelling = back := by simpa using first
        rw [List.append_cancel_left later] at respelled
        exact .inl respelled
  · rintro (respelled | ⟨before, q', after, rfl, respelled⟩)
    · exact ⟨[], q, rest, by simp, respelled⟩
    · exact ⟨q.spelling ++ before, q', after, by simp, respelled⟩

theorem respells_cons_iff (plain : ∀ q : Place, ¬ q.spelling <+: c :: rest) :
    Respells path (c :: rest) ↔ Respells path rest := by
  constructor
  · rintro ⟨before, q, after, whole, respelled⟩
    cases before with
    | nil => exact absurd ⟨after, by simpa using whole.symm⟩ (plain q)
    | cons b before =>
      rw [List.cons_append, List.cons_append, List.cons.injEq] at whole
      exact ⟨before, q, after, whole.2, respelled⟩
  · rintro ⟨before, q, after, rfl, respelled⟩
    exact ⟨c :: before, q, after, rfl, respelled⟩

/-- To fill the places of a word one after another is to fill them at once, unless a path respells
one of them. -/
theorem fillEach_eq_iff (absolute : ∀ p, Path.isAbsolute (path p)) (word : List Char) :
    fillEach path Place.order word = substituteFrom path 0 word ↔ ¬ Respells path word := by
  induction word using reading with
  | nil => exact iff_of_true rfl not_respells_nil
  | char c rest plain ih =>
    rw [fillEach_cons absolute fun q _ => plain q, substituteFrom_cons plain, List.cons.injEq,
      respells_cons_iff plain, ← ih]
    simp
  | place q rest ih =>
    rw [fillEach_spelling absolute, substituteFrom_spelling, respells_spelling_iff]
    by_cases respelled : ∃ p ∈ q.later, SpelledFrom p (path q).toList rest
    · obtain ⟨p, member, spelled⟩ := respelled
      have begins : SpelledFrom p (path q).toList (fillEach path (q.earlier ++ [q]) rest) :=
        (spelledFrom_fillEach_iff absolute).mpr spelled
      have differ := fillEach_append_ne absolute member begins (substituteFrom path 0 rest)
      exact iff_of_false differ fun none => none (.inl ⟨p, member, spelled⟩)
    · have stays : ∀ p ∈ q.later,
          ¬ SpelledFrom p (path q).toList (fillEach path (q.earlier ++ [q]) rest) :=
        fun p member spelled =>
          respelled ⟨p, member, (spelledFrom_fillEach_iff absolute).mp spelled⟩
      rw [fillEach_append absolute stays, ← fillEach_append_places, List.append_assoc,
        List.singleton_append, ← q.order_eq, List.append_cancel_left_eq, ih, or_iff_right respelled]

/-- **When a template is read as it stands**: its places are filled as if all of them were filled at
once, with no other character changed, exactly where no word has a path in it that spells a place
which is filled later, by itself or with what follows it in the word. -/
theorem expand_eq_iff (template : List String) (absolute : ∀ p, Path.isAbsolute (path p)) :
    expand template (path .input) (path .output) (path .archive) = template.map (substitute path) ↔
      ∀ word ∈ template, ¬ Respells path word.toList := by
  rw [expand, List.map_eq_map_iff]
  refine forall₂_congr fun word _ => ?_
  rw [expandWord_eq, substitute, String.ofList_inj, fillEach_eq_iff absolute]

/-- Paths of which the first spells the place of the second once a brace follows it. -/
def openEnded : Place → Path
  | .input => "/work/\x7boutput"
  | .output => "/out"
  | .archive => "/app.apk"

/-- A path that only begins to spell a place does no harm unless the word goes on with the rest. -/
theorem expand_eq_iff_openEnded : (∀ p, Path.isAbsolute (openEnded p)) ∧
    ¬ Respells openEnded ("--in=" ++ inputPlace).toList ∧
    Respells openEnded (inputPlace ++ "\x7d").toList := by
  have absolute : ∀ p, Path.isAbsolute (openEnded p) := by
    intro p
    cases p <;> decide
  have apart := (expand_eq_iff ["--in=" ++ inputPlace] absolute).mp (by decide +kernel)
  have together := mt (expand_eq_iff [inputPlace ++ "\x7d"] absolute).mpr (by decide +kernel)
  exact ⟨absolute, apart _ (List.mem_singleton_self _), by simpa using together⟩

/-- Paths of which the first has the place of the second in its name. -/
def nested : Place → Path
  | .input => "/a/\x7boutput\x7d"
  | .output => "/b"
  | .archive => "/c"

/-- **It is not enough that the paths are absolute**: the text of a path is filled as well. -/
theorem expand_ne_substitute : (∀ p, Path.isAbsolute (nested p)) ∧
    expand [inputPlace] (nested .input) (nested .output) (nested .archive) = ["/a//b"] ∧
    [inputPlace].map (substitute nested) = ["/a/\x7boutput\x7d"] := by
  refine ⟨fun p => ?_, by decide +kernel, by decide +kernel⟩
  cases p <;> decide

end Agreement

end Tracepoint.Template
