/-!
# JSON values

A JSON value as it was written: numbers keep their spelling apart from the case and sign of
the exponent mark, members keep their order and their repetitions, and a container that
the text broke off inside is kept with what was read of it and is not `closed`. A string
whose surrogate escapes do not pair up is well formed but has no text; it is `none`.
-/

namespace Tracepoint

/-- A number as it was written. -/
structure Number where
  negative : Bool
  whole : Nat
  fraction : Option (List Nat)
  exponent : Option Int
  deriving DecidableEq, Repr

namespace Number

/-- The number written for an integer. -/
def ofInt (i : Int) : Number :=
  ⟨decide (i < 0), i.natAbs, none, none⟩

/-- The integer a number was written as. A fraction, an exponent and the negative zero are
other forms of writing and give none. -/
def asInt? (n : Number) : Option Int :=
  match n.fraction, n.exponent with
  | none, none =>
    if n.negative then if n.whole = 0 then none else some (-(n.whole : Int))
    else some n.whole
  | _, _ => none

/-- The nearest natural number of at most 53 significant bits, a tie going to the even one. -/
def nearest53 (n : Nat) : Nat :=
  let shift := n.log2 + 1 - 53
  let unit := Nat.pow 2 shift
  let low := n / unit
  let rest := n % unit
  let up := decide (unit < 2 * rest) || (decide (unit = 2 * rest) && low % 2 == 1)
  (if up then low + 1 else low) * unit

/-- The leading digits that fit in 64 bits, as a number and a count of the digits left out. -/
def leading (value : Nat) : List Nat → Nat × Nat
  | [] => (value, 0)
  | d :: ds =>
    if 10 * value + d < Nat.pow 2 64 then leading (10 * value + d) ds else (value, ds.length + 1)

/-- Whether the number lies beyond the range of double precision. The significand is cut to
64 bits and rounded before it is scaled by a rounded power of ten. -/
def overflows (n : Number) : Bool :=
  let (whole, dropped) := leading 0 ((Nat.toDigits 10 n.whole).map fun c => c.toNat - '0'.toNat)
  let fraction := n.fraction.getD []
  let (significand, used) :=
    if dropped = 0 then
      let (s, unused) := leading whole fraction
      (s, fraction.length - unused)
    else (whole, 0)
  let scale := n.exponent.getD 0 + dropped - used
  if significand = 0 then false
  else if 308 < scale then true
  else if scale ≤ 0 then false
  else decide ((Nat.pow 2 54 - 1) * Nat.pow 2 970 ≤
    nearest53 significand * nearest53 (Nat.pow 10 scale.toNat))

@[simp] theorem asInt?_ofInt (i : Int) : (ofInt i).asInt? = some i := by
  by_cases h : i < 0
  · have h0 : i.natAbs ≠ 0 := by omega
    have hi : -(i.natAbs : Int) = i := by omega
    simp only [ofInt, asInt?, h, h0, decide_true, if_true, if_false, hi]
  · have hi : (i.natAbs : Int) = i := by omega
    simp only [ofInt, asInt?, h, decide_false, Bool.false_eq_true, if_false, hi]

end Number

/-- A JSON value. -/
inductive Json where
  | null
  | bool (b : Bool)
  | number (n : Number)
  | string (s : Option String)
  | array (items : List Json) (closed : Bool)
  | object (members : List (Option String × Json)) (closed : Bool)
  deriving Repr

namespace Json

instance : Inhabited Json := ⟨.null⟩

/-- The value that stands for a text. -/
def text (s : String) : Json :=
  .string (some s)

/-- The value that stands for an integer. -/
def int (i : Int) : Json :=
  .number (.ofInt i)

/-- The value that stands for a natural number. -/
def nat (n : Nat) : Json :=
  int n

/-- The array of some values. -/
def list (items : List Json) : Json :=
  .array items true

/-- The object with some members. -/
def record (members : List (String × Json)) : Json :=
  .object (members.map fun m => (some m.1, m.2)) true

/-- The value of an optional value, `null` for none. -/
def optional {α : Type} (encode : α → Json) : Option α → Json
  | none => .null
  | some a => encode a

end Json

end Tracepoint
