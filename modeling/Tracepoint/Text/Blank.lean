/-!
# Blank characters

The characters with the Unicode property `White_Space`, and trimming by them. A text is
blank when nothing is left after trimming.
-/

namespace Tracepoint.Text

/-- The half-open code point ranges of the property `White_Space`. -/
def blankRanges : List (Nat × Nat) :=
  [(0x9, 0xe), (0x20, 0x21), (0x85, 0x86), (0xa0, 0xa1), (0x1680, 0x1681), (0x2000, 0x200b),
   (0x2028, 0x202a), (0x202f, 0x2030), (0x205f, 0x2060), (0x3000, 0x3001)]

/-- Membership of a code point in a list of half-open ranges. -/
def inRanges (ranges : List (Nat × Nat)) (n : Nat) : Bool :=
  ranges.any fun r => decide (r.1 ≤ n) && decide (n < r.2)

/-- Whether a character has the property `White_Space`. -/
def isBlank (c : Char) : Bool :=
  inRanges blankRanges c.toNat

/-- The characters without the blank ones at either end. -/
def trimChars (cs : List Char) : List Char :=
  ((cs.dropWhile isBlank).reverse.dropWhile isBlank).reverse

/-- The text without the blank characters at either end. -/
def trim (s : String) : String :=
  String.ofList (trimChars s.toList)

/-- Whether a text holds blank characters only. -/
def isAllBlank (s : String) : Bool :=
  s.toList.all isBlank

theorem inRanges_iff {ranges : List (Nat × Nat)} {n : Nat} :
    inRanges ranges n = true ↔ ∃ r ∈ ranges, r.1 ≤ n ∧ n < r.2 := by
  simp [inRanges]

end Tracepoint.Text
