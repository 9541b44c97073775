/-!
# Bytes read as text

Reads bytes as UTF-8 and puts the replacement character for what is not: once for every
longest run of bytes that begins a well-formed sequence without finishing it, and once for
every byte that begins none.
-/

namespace Tracepoint.Text

/-- The replacement character. -/
def replacement : Char := '\uFFFD'

/-- How a sequence of several bytes goes on after its first byte: the bounds of the second
byte, and how many bytes follow in all. -/
structure Lead where
  low : UInt8
  high : UInt8
  count : Nat
  deriving DecidableEq, Repr

/-- What the first byte of a sequence of several bytes says about the rest. -/
def lead? (b : UInt8) : Option Lead :=
  if b < 0xc2 then none
  else if b < 0xe0 then some ⟨0x80, 0xbf, 1⟩
  else if b = 0xe0 then some ⟨0xa0, 0xbf, 2⟩
  else if b = 0xed then some ⟨0x80, 0x9f, 2⟩
  else if b < 0xf0 then some ⟨0x80, 0xbf, 2⟩
  else if b = 0xf0 then some ⟨0x90, 0xbf, 3⟩
  else if b < 0xf4 then some ⟨0x80, 0xbf, 3⟩
  else if b = 0xf4 then some ⟨0x80, 0x8f, 3⟩
  else none

/-- The bytes that continue a sequence, as many as belong to it. -/
def continuation (l : Lead) (rest : List UInt8) : List UInt8 :=
  match rest with
  | [] => []
  | b :: more =>
    if l.low ≤ b ∧ b ≤ l.high then
      b :: (more.take (l.count - 1)).takeWhile fun b => 0x80 ≤ b ∧ b ≤ 0xbf
    else []

/-- The bits that the first byte of a sequence gives to its character. -/
def leadBits (l : Lead) (b : UInt8) : Nat :=
  b.toNat % Nat.pow 2 (6 - l.count)

/-- The character at the front of some bytes, and how many bytes after the first it takes. -/
def decodeFirst (b : UInt8) (rest : List UInt8) : Char × Nat :=
  if b < 0x80 then (Char.ofNat b.toNat, 0)
  else match lead? b with
    | none => (replacement, 0)
    | some l =>
      let more := continuation l rest
      if more.length = l.count then
        (Char.ofNat (more.foldl (fun n b => n * 64 + b.toNat % 64) (leadBits l b)), l.count)
      else (replacement, more.length)

/-- Reads bytes, the first `skip` of which belong to a character that has been read. -/
def decodeFrom (skip : Nat) : List UInt8 → List Char
  | [] => []
  | b :: rest =>
    match skip with
    | skip + 1 => decodeFrom skip rest
    | 0 =>
      let (c, n) := decodeFirst b rest
      c :: decodeFrom n rest

/-- The text that bytes hold, as far as they hold one. -/
def ofBytes (bytes : ByteArray) : String :=
  String.ofList (decodeFrom 0 bytes.toList)

end Tracepoint.Text
