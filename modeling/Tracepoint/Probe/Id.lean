/-!
# Probe identifiers

A probe is known by a number of a counter or by a random token. Identifiers come from an
allocator: a counter that goes up by one, a supply of random bits that are stamped as tokens,
or any other sequence of identifiers.
-/

namespace Tracepoint

/-- The identifier of a probe. -/
inductive ProbeId where
  | counter (n : UInt64)
  | token (bits : BitVec 128)
  deriving DecidableEq, Repr

namespace ProbeId

/-- The hexadecimal digits of a token, of fixed number. -/
def tokenDigits (bits : BitVec 128) : List Char :=
  (List.range 32).map fun i => Nat.digitChar (bits.toNat / Nat.pow 16 (31 - i) % 16)

/-- The identifier as it is shown: a decimal number, or the digits of a token in groups of
8, 4, 4, 4 and 12. -/
def render : ProbeId → String
  | counter n => toString n.toNat
  | token bits =>
    let ds := tokenDigits bits
    let group (start count : Nat) := (ds.drop start).take count
    String.ofList (group 0 8 ++ '-' :: group 8 4 ++ '-' :: group 12 4 ++ '-' :: group 16 4
      ++ '-' :: group 20 12)

/-- The order of identifiers: by number, and every counter before every token. -/
def le : ProbeId → ProbeId → Bool
  | counter a, counter b => a ≤ b
  | counter _, token _ => true
  | token _, counter _ => false
  | token a, token b => a ≤ b

end ProbeId

/-- The ways to choose identifiers. -/
inductive IdStrategy where
  | counter
  | token
  deriving DecidableEq, Repr, Inhabited

/-- A source of identifiers. The supply of tokens gives the random bits of each. -/
inductive Allocator where
  | counter (next : UInt64)
  | tokens (supply : Nat → BitVec 128) (used : Nat)
  /-- The identifiers of a sequence, one after the other. -/
  | listed (ids : Nat → ProbeId) (used : Nat)

namespace Allocator

/-- Marks random bits as a random token: four bits of version and two of variant are fixed. -/
def stamp (bits : BitVec 128) : BitVec 128 :=
  (bits &&& ~~~(0xf#128 <<< 76 ||| 0x3#128 <<< 62)) ||| (0x4#128 <<< 76 ||| 0x2#128 <<< 62)

/-- Hands out an identifier. -/
def next : Allocator → ProbeId × Allocator
  | counter n => (.counter n, counter (n + 1))
  | tokens supply used => (.token (stamp (supply used)), tokens supply (used + 1))
  | listed ids used => (ids used, listed ids (used + 1))

/-- Forgets the identifiers that have been handed out. -/
def reset : Allocator → Allocator
  | counter _ => counter 0
  | tokens supply used => tokens supply used
  | listed ids _ => listed ids 0

/-- A fresh allocator of a strategy, with random bits for tokens. -/
def ofStrategy (supply : Nat → BitVec 128) : IdStrategy → Allocator
  | .counter => counter 0
  | .token => tokens supply 0

end Allocator

end Tracepoint
