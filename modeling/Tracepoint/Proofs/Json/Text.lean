import Mathlib.Data.List.Chain
import Mathlib.Data.List.Forall2
import Mathlib.Data.List.TakeWhile
import Tracepoint.Json.Printer

/-!
# Tokens are split off their text

A token can be written in many ways: a number with a mark of its exponent in either case and with
a sign, a string with any of its characters escaped (`Token.Form`). Between two tokens, in front
of the first and behind the last one there can be any white space (`Token.Layout`). Most tokens
end by themselves; a number ends where a character follows that cannot continue it, and no token
but a number begins with one that can. So a text is split into its tokens whatever their forms
are, if no number follows right after another one (`Token.Layout.scan`). What is printed is one
of the forms (`Token.form_text`, `Token.form_int`).
-/

namespace Tracepoint

/-! ### Numbers -/

namespace Number

/-- Decimal digits, at least one. -/
structure Digits (ds : List Char) : Prop where
  nonempty : ds ≠ []
  each : ∀ d ∈ ds, d.isDigit = true

/-- How the fraction of a number is written. -/
inductive FractionForm : Option (List Nat) → List Char → Prop where
  | none : FractionForm none []
  | point {ds : List Char} (digits : Digits ds) :
      FractionForm (some (ds.map fun d => d.toNat - '0'.toNat)) ('.' :: ds)

/-- How the exponent of a number is written. -/
inductive ExponentForm : Option Int → List Char → Prop where
  | none : ExponentForm none []
  | unsigned {mark : Char} {ds : List Char} (marked : mark = 'e' ∨ mark = 'E')
      (digits : Digits ds) : ExponentForm (some (ofDigits ds)) (mark :: ds)
  | plus {mark : Char} {ds : List Char} (marked : mark = 'e' ∨ mark = 'E')
      (digits : Digits ds) : ExponentForm (some (ofDigits ds)) (mark :: '+' :: ds)
  | minus {mark : Char} {ds : List Char} (marked : mark = 'e' ∨ mark = 'E')
      (digits : Digits ds) : ExponentForm (some (-(ofDigits ds : Int))) (mark :: '-' :: ds)

/-- How a number is written. Zero is the only whole part that begins with a zero. -/
inductive Form : Number → List Char → Prop where
  | mk (negative : Bool) {whole fs es : List Char} {fraction : Option (List Nat)}
      {exponent : Option Int} (digits : Digits whole)
      (leading : whole.head? = some '0' → whole = ['0'])
      (fractional : FractionForm fraction fs) (exponential : ExponentForm exponent es) :
      Form ⟨negative, ofDigits whole, fraction, exponent⟩
        ((if negative then ['-'] else []) ++ (whole ++ (fs ++ es)))

variable {ds es cs rest : List Char} {exponent : Option Int} {n : Number}

theorem Digits.exists_cons (digits : Digits ds) : ∃ d ds', ds = d :: ds' ∧ d.isDigit = true := by
  obtain ⟨d, ds', rfl⟩ := List.exists_cons_of_ne_nil digits.nonempty
  exact ⟨d, ds', rfl, digits.each d List.mem_cons_self⟩

/-- Digits are read up to what follows them. -/
theorem Digits.read_append (digits : Digits ds) (ends : ∀ c ∈ rest.head?, c.isDigit = false) :
    readDigits? (ds ++ rest) = some (ds, rest) := by
  have none : rest.takeWhile Char.isDigit = [] := by
    cases rest with
    | nil => rfl
    | cons c cs => rw [List.takeWhile_cons_of_neg (by simp [ends c rfl])]
  have all : rest.dropWhile Char.isDigit = rest := by
    cases rest with
    | nil => rfl
    | cons c cs => rw [List.dropWhile_cons_of_neg (by simp [ends c rfl])]
  rw [readDigits?, List.takeWhile_append_of_pos digits.each,
    List.dropWhile_append_of_pos digits.each, none, all, List.append_nil,
    if_neg (by simp [digits.nonempty])]

theorem Digits.read (digits : Digits ds) : readDigits? ds = some (ds, []) := by
  have read := @read_append ds [] digits (by simp)
  rwa [List.append_nil] at read

theorem ExponentForm.read (form : ExponentForm exponent es) :
    readExponent? es = some exponent := by
  cases form with
  | none => rfl
  | unsigned marked digits =>
    obtain ⟨d, ds', rfl, digit⟩ := digits.exists_cons
    rw [readExponent?, if_pos marked]
    · simp [digits.read]
    -- A digit is no sign.
    all_goals
      rintro r ⟨⟩
      cases digit
  | plus marked digits => simp [readExponent?, marked, digits.read]
  | minus marked digits => simp [readExponent?, marked, digits.read]

/-- An exponent begins with its mark. -/
theorem ExponentForm.head_not (form : ExponentForm exponent es) :
    ∀ c ∈ es.head?, c.isDigit = false ∧ c ≠ '.' := by
  have mark {c : Char} (marked : c = 'e' ∨ c = 'E') : c.isDigit = false ∧ c ≠ '.' := by
    rcases marked with rfl | rfl <;> decide
  cases form with
  | none => simp
  | unsigned marked | plus marked | minus marked => simpa using mark marked

/-- What a number is written as is read as that number. -/
theorem Form.read (form : n.Form cs) : read? cs = some n := by
  obtain ⟨negative, digits, leading, fractional, exponential⟩ := form
  rename_i whole fs es fraction exponent
  have ends : ∀ c ∈ (fs ++ es).head?, c.isDigit = false := by
    cases fractional with
    | none => exact fun c first => (exponential.head_not c first).1
    | point => simp
  have split := digits.read_append ends
  have allowed : ¬ (whole.head? = some '0' ∧ whole.length ≠ 1) := by
    rintro ⟨zero, long⟩
    rw [leading zero] at long
    exact long rfl
  have unsigned : ∀ r, whole ++ (fs ++ es) ≠ '-' :: r := by
    obtain ⟨d, ds', rfl, digit⟩ := digits.exists_cons
    rintro r ⟨⟩
    cases digit
  cases fractional with
  | none =>
    have straight : ∀ r, es ≠ '.' :: r := by
      rintro r rfl
      exact (exponential.head_not '.' rfl).2 rfl
    rw [List.nil_append] at split unsigned ⊢
    cases negative with
    | true => simp [read?, split, allowed, exponential.read]
    | false => simp [read?, split, allowed, exponential.read]
  | point digits =>
    have places := digits.read_append fun c first => (exponential.head_not c first).1
    rw [List.cons_append] at split unsigned ⊢
    cases negative with
    | true => simp [read?, split, allowed, places, exponential.read]
    | false => simp [read?, split, allowed, places, exponential.read]

theorem head?_toDigits_ne_zero {n : Nat} (positive : 0 < n) :
    (Nat.toDigits 10 n).head? ≠ some '0' := by
  induction n using Nat.strongRecOn with
  | ind n ih =>
    by_cases small : n < 10
    · rw [Nat.toDigits_of_lt_base small]
      simp only [List.head?_cons, ne_eq, Option.some.injEq, Nat.digitChar_eq_zero]
      omega
    · obtain ⟨d, ds, digits⟩ :=
        List.exists_cons_of_ne_nil (Nat.toDigits_ne_nil (n := n / 10) (b := 10))
      have first := ih (n / 10) (by omega) (by omega)
      rw [Nat.toDigits_of_base_le (by decide) (by omega), digits]
      rwa [digits] at first

theorem form_spell_ofInt (i : Int) : (ofInt i).Form (ofInt i).spell := by
  have whole : ofDigits (Nat.toDigits 10 i.natAbs) = i.natAbs := Nat.ofDigitChars_ten_toDigits
  have leading (zero : (Nat.toDigits 10 i.natAbs).head? = some '0') :
      Nat.toDigits 10 i.natAbs = ['0'] := by
    rcases Nat.eq_zero_or_pos i.natAbs with none | positive
    · rw [none]
      rfl
    · exact absurd zero (head?_toDigits_ne_zero positive)
  have digits : Digits (Nat.toDigits 10 i.natAbs) :=
    ⟨Nat.toDigits_ne_nil, fun _ => Nat.isDigit_of_mem_toDigits (by decide) (Nat.le_refl 10)⟩
  have form := Form.mk (decide (i < 0)) digits leading .none .none
  rw [whole] at form
  simpa [spell, ofInt] using form

end Number

namespace Token

/-! ### The splitting machine -/

/-- The outcome of splitting once some tokens stand before it. -/
def before (tokens : List Token) (outcome : List Token × Bool) : List Token × Bool :=
  (tokens ++ outcome.1, outcome.2)

@[simp] theorem before_nil (outcome : List Token × Bool) : before [] outcome = outcome := rfl

theorem before_append (ts us : List Token) (outcome : List Token × Bool) :
    before (ts ++ us) outcome = before ts (before us outcome) := by
  simp [before]

theorem scan_cons {m n : Mode} {c : Char} {tokens : List Token}
    (read : step m c = some (tokens, n)) (cs : List Char) :
    scan m (c :: cs) = before tokens (scan n cs) := by
  rw [scan, read]
  rfl

/-- What follows a number without continuing it: the end, or a character that starts
something else. -/
def Parted (rest : List Char) : Prop :=
  ∀ c ∈ rest.head?, isNumeric c = false ∧ (start c).isSome

theorem start_of_isDigit {c : Char} (digit : c.isDigit) : start c = some ([], .numeral [c]) := by
  have other : ∀ x : Char, x.isDigit = false → c ≠ x := by
    rintro x no rfl
    rw [no] at digit
    cases digit
  simp [start, isSpace, digit, other ' ' rfl, other '\t' rfl, other '\n' rfl, other '\r' rfl,
    other '[' rfl, other ']' rfl, other '{' rfl, other '}' rfl, other ',' rfl, other ':' rfl,
    other '"' rfl, other 'n' rfl, other 't' rfl, other 'f' rfl]

theorem scan_numeral_append {ds : List Char} (numeric : ∀ d ∈ ds, isNumeric d)
    (chars rest : List Char) :
    scan (.numeral chars) (ds ++ rest) = scan (.numeral (ds.reverse ++ chars)) rest := by
  induction ds generalizing chars with
  | nil => rfl
  | cons d ds ih =>
    have here : step (.numeral chars) d = some ([], .numeral (d :: chars)) := by
      rw [step, if_pos (numeric d List.mem_cons_self)]
    rw [List.cons_append, scan_cons here, before_nil,
      ih fun x member => numeric x (List.mem_cons_of_mem _ member)]
    simp

/-- The characters of a number end where no further one follows. -/
theorem scan_numeral_of_parted {chars : List Char} {n : Number}
    (read : Number.read? chars.reverse = some n) {rest : List Char} (parted : Parted rest) :
    scan (.numeral chars) rest = before [.number n] (scan .between rest) := by
  cases rest with
  | nil => simp [scan, finish, read, before]
  | cons c cs =>
    obtain ⟨other, starts⟩ := parted c rfl
    obtain ⟨⟨tokens, mode⟩, begun⟩ := Option.isSome_iff_exists.mp starts
    have here : step (.numeral chars) c = some ([.number n] ++ tokens, mode) := by
      simp [step, other, read, begun]
    rw [scan_cons here, scan_cons (m := .between) begun, before_append]

/-- A text that is read as some tokens, in front of what does not continue a number. -/
def Spelled (cs : List Char) (tokens : List Token) : Prop :=
  ∀ rest, Parted rest → scan .between (cs ++ rest) = before tokens (scan .between rest)

theorem scan_spaces {spaces : List Char} (blank : ∀ c ∈ spaces, isSpace c) (rest : List Char) :
    scan .between (spaces ++ rest) = scan .between rest := by
  induction spaces with
  | nil => rfl
  | cons c cs ih =>
    obtain ⟨head, tail⟩ := List.forall_mem_cons.mp blank
    have here : step .between c = some ([], .between) := by
      rw [step, start, if_pos head]
    rw [List.cons_append, scan_cons here, before_nil, ih tail]

end Token

namespace Number

variable {ds cs : List Char} {n : Number}

theorem Digits.numeric (digits : Digits ds) : ∀ c ∈ ds, Token.isNumeric c := by
  intro c member
  simp [Token.isNumeric, digits.each c member]

theorem Form.numeric (form : n.Form cs) : ∀ c ∈ cs, Token.isNumeric c := by
  obtain ⟨negative, digits, -, fractional, exponential⟩ := form
  have mark {c : Char} (marked : c = 'e' ∨ c = 'E') : Token.isNumeric c := by
    rcases marked with rfl | rfl <;> rfl
  simp only [List.forall_mem_append]
  refine ⟨?_, digits.numeric, ?_, ?_⟩
  · cases negative <;> simp [Token.isNumeric]
  · cases fractional with
    | none => simp
    | point digits => exact List.forall_mem_cons.mpr ⟨rfl, digits.numeric⟩
  · cases exponential with
    | none => simp
    | unsigned marked digits => exact List.forall_mem_cons.mpr ⟨mark marked, digits.numeric⟩
    | plus marked digits | minus marked digits =>
      exact List.forall_mem_cons.mpr
        ⟨mark marked, List.forall_mem_cons.mpr ⟨rfl, digits.numeric⟩⟩

theorem Form.exists_start (form : n.Form cs) :
    ∃ c cs', cs = c :: cs' ∧ Token.start c = some ([], .numeral [c]) := by
  obtain ⟨negative, digits, -, -, -⟩ := form
  obtain ⟨d, ds', rfl, digit⟩ := digits.exists_cons
  cases negative with
  | true => exact ⟨_, _, rfl, rfl⟩
  | false => exact ⟨_, _, rfl, Token.start_of_isDigit digit⟩

/-- A number is split off in front of what does not continue it. -/
theorem Form.spelled (form : n.Form cs) : Token.Spelled cs [.number n] := by
  intro rest parted
  have read := form.read
  have numeric := form.numeric
  obtain ⟨c, cs', rfl, begun⟩ := form.exists_start
  have begun : Token.step .between c = some ([], .numeral [c]) := begun
  rw [List.cons_append, Token.scan_cons begun, Token.before_nil,
    Token.scan_numeral_append fun d member => numeric d (List.mem_cons_of_mem _ member),
    Token.scan_numeral_of_parted (by simpa using read) parted]

end Number

/-! ### Strings -/

namespace Token

/-- Four hexadecimal digits that denote a 16-bit unit. -/
inductive UnitForm : Nat → List Char → Prop where
  | mk {a b c d : Char} {i j k l : Nat} (first : hexValue? a = some i)
      (second : hexValue? b = some j) (third : hexValue? c = some k)
      (fourth : hexValue? d = some l) :
      UnitForm (16 * (16 * (16 * i + j) + k) + l) [a, b, c, d]

/-- How a character is written inside a string. -/
inductive CharForm (c : Char) : List Char → Prop where
  | plain (quote : c ≠ '"') (backslash : c ≠ '\\') (printed : 0x20 ≤ c.toNat) : CharForm c [c]
  | escaped {e : Char} (letter : unescape? e = some c) : CharForm c ['\\', e]
  | unit {cs : List Char} (form : UnitForm c.toNat cs) : CharForm c ('\\' :: 'u' :: cs)
  /-- A character above the 16-bit range is written as a high surrogate and a low one. -/
  | pair {high low : Nat} {cs ds : List Char} (highForm : UnitForm (0xd800 + high) cs)
      (lowForm : UnitForm (0xdc00 + low) ds) (highRange : high < 0x400) (lowRange : low < 0x400)
      (value : c.toNat = 0x10000 + high * 0x400 + low) :
      CharForm c ('\\' :: 'u' :: cs ++ '\\' :: 'u' :: ds)

variable {cs ds rest : List Char} {c : Char} {draft : Draft}

/-- Nothing of a pair is waiting, and all pairs so far are complete. -/
def Draft.Whole (draft : Draft) : Prop :=
  draft.high = none ∧ draft.paired = true

theorem Draft.Whole.push (whole : draft.Whole) (c : Char) :
    (draft.push c).Whole ∧ (draft.push c).chars = c :: draft.chars := by
  simp [Draft.push, Draft.Whole, whole.1, whole.2]

theorem UnitForm.scan {n : Nat} (form : UnitForm n cs) (draft : Draft) (rest : List Char) :
    scan (.escape draft) ('u' :: cs ++ rest) = scan (.string (draft.pushUnit n)) rest := by
  obtain ⟨first, second, third, fourth⟩ := form
  simp [Token.scan, step, first, second, third, fourth]

/-- The number of a character is that of no surrogate. -/
theorem pushUnit_toNat (draft : Draft) (c : Char) : draft.pushUnit c.toNat = draft.push c := by
  have valid : c.toNat < 0xd800 ∨ 0xdfff < c.toNat := by
    rcases c.valid with low | ⟨high, -⟩
    · exact .inl low
    · exact .inr high
  rw [Draft.pushUnit, if_neg (by omega), if_neg (by omega), Char.ofNat_toNat]

theorem pushUnit_pair (whole : draft.Whole) {high low : Nat} (highRange : high < 0x400)
    (lowRange : low < 0x400) (value : c.toNat = 0x10000 + high * 0x400 + low) :
    (draft.pushUnit (0xd800 + high)).pushUnit (0xdc00 + low) = draft.push c := by
  have number : 0x10000 + (0xd800 + high - 0xd800) * 0x400 + (0xdc00 + low - 0xdc00) = c.toNat := by
    omega
  have first : draft.pushUnit (0xd800 + high) = ⟨draft.chars, some (0xd800 + high), true⟩ := by
    rw [Draft.pushUnit, if_pos (by omega), whole.1, whole.2]
    rfl
  rw [first, Draft.pushUnit, if_neg (by omega), if_pos (by omega)]
  simp only [number, Char.ofNat_toNat]
  simp [Draft.push, whole.1, whole.2]

theorem CharForm.scan (form : CharForm c cs) (whole : draft.Whole) (rest : List Char) :
    scan (.string draft) (cs ++ rest) = scan (.string (draft.push c)) rest := by
  have escape : step (.string draft) '\\' = some ([], .escape draft) := rfl
  cases form with
  | plain quote backslash printed =>
    have here : step (.string draft) c = some ([], .string (draft.push c)) := by
      rw [step, if_neg quote, if_neg backslash, if_neg (by omega)]
    exact scan_cons here rest
  | escaped letter =>
    rename_i e
    have other : e ≠ 'u' := by
      rintro rfl
      cases letter
    have here : step (.escape draft) e = some ([], .string (draft.push c)) := by
      rw [step, if_neg other, letter]
      rfl
    rw [List.cons_append, scan_cons escape, before_nil, List.singleton_append, scan_cons here,
      before_nil]
  | unit form =>
    rw [List.cons_append, scan_cons escape, before_nil, form.scan, pushUnit_toNat]
  | pair highForm lowForm highRange lowRange value =>
    rw [List.append_assoc, List.cons_append, scan_cons escape, before_nil, highForm.scan,
      List.cons_append, scan_cons rfl, before_nil, lowForm.scan,
      pushUnit_pair whole highRange lowRange value]

theorem scan_charForms {chars : List Char} {pieces : List (List Char)}
    (forms : List.Forall₂ CharForm chars pieces) (whole : draft.Whole) (rest : List Char) :
    scan (.string draft) (pieces.flatten ++ rest) =
      scan (.string ⟨chars.reverse ++ draft.chars, none, true⟩) rest := by
  induction forms generalizing draft with
  | nil =>
    obtain ⟨chars, high, paired⟩ := draft
    obtain ⟨rfl, rfl⟩ := whole
    rfl
  | cons form _ ih =>
    obtain ⟨whole', chars⟩ := whole.push _
    rw [List.flatten_cons, List.append_assoc, form.scan whole, ih whole', chars]
    simp

/-! ### Tokens -/

/-- How a token is written. -/
inductive Form : Token → List Char → Prop where
  | openArray : Form .openArray ['[']
  | closeArray : Form .closeArray [']']
  | openObject : Form .openObject ['{']
  | closeObject : Form .closeObject ['}']
  | comma : Form .comma [',']
  | colon : Form .colon [':']
  | null : Form .null ['n', 'u', 'l', 'l']
  | trueName : Form (.bool true) ['t', 'r', 'u', 'e']
  | falseName : Form (.bool false) ['f', 'a', 'l', 's', 'e']
  | number {n : Number} {cs : List Char} (form : n.Form cs) : Form (.number n) cs
  | string {s : String} {pieces : List (List Char)}
      (forms : List.Forall₂ CharForm s.toList pieces) :
      Form (.string (some s)) ('"' :: pieces.flatten ++ ['"'])

/-- How some tokens are written, with white space around any of them. -/
inductive Layout : List Token → List Char → Prop where
  | nil {spaces : List Char} (blank : ∀ c ∈ spaces, isSpace c) : Layout [] spaces
  | cons {t : Token} {ts : List Token} {spaces cs ds : List Char}
      (blank : ∀ c ∈ spaces, isSpace c) (form : t.Form cs) (later : Layout ts ds) :
      Layout (t :: ts) (spaces ++ (cs ++ ds))

/-- Whether a token is a number. -/
def isNumber : Token → Bool
  | .number _ => true
  | _ => false

/-- No number follows right after another one. -/
def Apart (ts : List Token) : Prop :=
  ts.IsChain fun t u => t.isNumber = true → u.isNumber = false

variable {t : Token} {ts us : List Token}

/-- A token that is no number ends by itself. -/
theorem Form.alone (form : t.Form cs) (other : t.isNumber = false) (rest : List Char) :
    scan .between (cs ++ rest) = before [t] (scan .between rest) := by
  cases form with
  | number => cases other
  | string forms =>
    rename_i s pieces
    have opened : step .between '"' = some ([], .string {}) := rfl
    have closed : step (.string ⟨s.toList.reverse, none, true⟩) '"' =
        some ([.string (some s)], .between) := by
      simp [step, Draft.finish]
    rw [List.cons_append, List.cons_append, scan_cons opened, before_nil, List.append_assoc,
      scan_charForms forms ⟨rfl, rfl⟩, List.append_nil, List.singleton_append, scan_cons closed]
  | _ => rfl

/-- Only numbers begin with a character that continues a number. -/
theorem Form.parted (form : t.Form cs) (other : t.isNumber = false) (rest : List Char) :
    Parted (cs ++ rest) := by
  intro c first
  cases form with
  | number => cases other
  | _ =>
    simp only [List.cons_append, List.head?_cons, Option.mem_def, Option.some.injEq] at first
    subst first
    exact ⟨rfl, rfl⟩

theorem parted_spaces {spaces : List Char} (blank : ∀ c ∈ spaces, isSpace c)
    (parted : Parted rest) : Parted (spaces ++ rest) := by
  cases spaces with
  | nil => exact parted
  | cons c cs =>
    rintro _ ⟨⟩
    have space := blank c List.mem_cons_self
    simp only [isSpace, Bool.or_eq_true, decide_eq_true_eq] at space
    obtain ((rfl | rfl) | rfl) | rfl := space <;> exact ⟨rfl, rfl⟩

theorem Layout.parted (layout : Layout ts cs) (other : ∀ t ∈ ts.head?, t.isNumber = false)
    (parted : Parted rest) : Parted (cs ++ rest) := by
  cases layout with
  | nil blank => exact parted_spaces blank parted
  | cons blank form later =>
    rw [List.append_assoc, List.append_assoc]
    exact parted_spaces blank (form.parted (other _ rfl) _)

/-- **A laid-out text is split into its tokens**, whichever forms and white space it has. -/
theorem Layout.spelled (layout : Layout ts cs) (apart : Apart ts) : Spelled cs ts := by
  intro rest parted
  induction layout with
  | nil blank => exact scan_spaces blank rest
  | @cons t ts spaces cs ds blank form later ih =>
    rw [List.append_assoc, scan_spaces blank, List.append_assoc]
    obtain ⟨first, apart⟩ := List.isChain_cons.mp apart
    have read := ih apart
    have here : Token.scan .between (cs ++ (ds ++ rest)) =
        before [t] (Token.scan .between (ds ++ rest)) := by
      cases number : t.isNumber with
      | false => exact form.alone number _
      | true =>
        have ends := later.parted (fun u next => first u next number) parted
        cases form with
        | number form => exact form.spelled _ ends
        | _ => cases number
    rw [here, read, ← before_append, List.singleton_append]

theorem Layout.scan (layout : Layout ts cs) (apart : Apart ts) :
    scan .between cs = (ts, true) := by
  have whole := layout.spelled apart [] (by simp [Parted])
  rw [List.append_nil] at whole
  rw [whole]
  simp [before, Token.scan, finish]

/-! ### The canonical form -/

theorem hexValue?_digitChar {n : Nat} (h : n < 16) : hexValue? (Nat.digitChar n) = some n := by
  revert n
  decide

theorem charForm_escapeChar (c : Char) : CharForm c (escapeChar c) := by
  rw [escapeChar]
  -- Seven characters have an escape of their own.
  iterate 7
    split
    · subst c
      exact .escaped rfl
  split
  · rename_i control
    have number : 16 * (16 * (16 * 0 + 0) + c.toNat / 16) + c.toNat % 16 = c.toNat := by omega
    have form : UnitForm (16 * (16 * (16 * 0 + 0) + c.toNat / 16) + c.toNat % 16)
        ['0', '0', Nat.digitChar (c.toNat / 16), Nat.digitChar (c.toNat % 16)] :=
      .mk rfl rfl (hexValue?_digitChar (by omega)) (hexValue?_digitChar (by omega))
    rw [number] at form
    exact .unit form
  · exact .plain ‹_› ‹_› (by omega)

theorem form_text (s : String) : Form (.string (some s)) (spell (.string (some s))) := by
  have forms : List.Forall₂ CharForm s.toList (s.toList.map escapeChar) :=
    List.forall₂_map_right_iff.mpr (List.forall₂_same.mpr fun c _ => charForm_escapeChar c)
  have form := Form.string forms
  rwa [← List.flatMap_def] at form

theorem form_int (i : Int) : Form (.number (.ofInt i)) (spell (.number (.ofInt i))) :=
  .number (Number.form_spell_ofInt i)

/-! ### Layouts -/

theorem Form.layout (form : t.Form cs) : Layout [t] cs := by
  have layout := Layout.cons (List.forall_mem_nil _) form (.nil (List.forall_mem_nil _))
  rwa [List.nil_append, List.append_nil] at layout

theorem Layout.spaces_append {spaces : List Char} (layout : Layout ts cs)
    (blank : ∀ c ∈ spaces, isSpace c) : Layout ts (spaces ++ cs) := by
  cases layout with
  | nil blank' => exact .nil (List.forall_mem_append.mpr ⟨blank, blank'⟩)
  | cons blank' form later =>
    rw [← List.append_assoc]
    exact .cons (List.forall_mem_append.mpr ⟨blank, blank'⟩) form later

theorem Layout.append (left : Layout ts cs) (right : Layout us ds) :
    Layout (ts ++ us) (cs ++ ds) := by
  induction left with
  | nil blank => exact right.spaces_append blank
  | cons blank form _ ih =>
    rw [List.append_assoc, List.append_assoc]
    exact .cons blank form ih

theorem Form.layout_cons (form : t.Form cs) (later : Layout ts ds) : Layout (t :: ts) (cs ++ ds) :=
  form.layout.append later

theorem layout_spell (forms : ∀ t ∈ ts, t.Form t.spell) : Layout ts (ts.flatMap spell) := by
  induction ts with
  | nil => exact .nil (List.forall_mem_nil _)
  | cons t ts ih =>
    obtain ⟨head, tail⟩ := List.forall_mem_cons.mp forms
    exact head.layout_cons (ih tail)

/-! ### Numbers apart -/

theorem apart_nil : Apart [] :=
  .nil

theorem Apart.cons (other : t.isNumber = false) (later : Apart ts) : Apart (t :: ts) :=
  List.isChain_cons.mpr ⟨fun _ _ number => by simp [other] at number, later⟩

theorem Apart.append_cons (left : Apart ts) (other : t.isNumber = false) (right : Apart us) :
    Apart (ts ++ t :: us) := by
  refine List.isChain_append.mpr ⟨left, right.cons other, ?_⟩
  rintro u - v ⟨⟩ -
  exact other

end Token

end Tracepoint
