/-!
# Supplies of random bits

A supply gives the bits of one token after the other. From a seed it mixes the numbers of
its words, so that neighbours have nothing in common; nothing depends on its quality but
that tokens differ.
-/

namespace Tracepoint.Supply

/-- Spreads the bits of a word. -/
def mix (x : UInt64) : UInt64 :=
  let x := (x ^^^ (x >>> 30)) * 0xbf58476d1ce4e5b9
  let x := (x ^^^ (x >>> 27)) * 0x94d049bb133111eb
  x ^^^ (x >>> 31)

/-- The `n`-th word of a seed. -/
def word (seed : UInt64) (n : Nat) : UInt64 :=
  mix (seed + .ofNat (n + 1) * 0x9e3779b97f4a7c15)

/-- The supply of a seed. -/
def ofSeed (seed : UInt64) (n : Nat) : BitVec 128 :=
  (word seed (2 * n)).toBitVec ++ (word seed (2 * n + 1)).toBitVec

end Tracepoint.Supply
