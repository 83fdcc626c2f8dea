import Recast.Decimal.Basic
/-!
# Shortest decimals — the fewest digits that read back as the same binary number

A binary number `m · 2 ^ q` is what every real in an interval around it rounds to; the ends belong to
the interval when `m` is even.  On each decimal grid, coarsest first, only the two neighbours of the
number can be in the interval if anything on the grid is, so the first grid on which one of them is
gives the shortest text, and the nearer of two hits the best of that length.  All arithmetic is exact.
-/
namespace Recast

/-- A positive binary number `mantissa · 2 ^ exponent`; `narrow` says that its lower neighbour is only
half as far away as the upper one. -/
structure Binary where
  mantissa : Nat
  exponent : Int
  narrow : Bool
deriving DecidableEq

namespace Binary

/-- The number times four as a fraction, so that half a gap is an integer: `(4 m, 1) · 2 ^ q`. -/
def quarters (b : Binary) (n : Nat) : Nat × Nat :=
  if b.exponent < 0 then (n, 4 * Nat.pow 2 b.exponent.natAbs) else (n * Nat.pow 2 b.exponent.natAbs, 4)

/-- Whether `c · 10 ^ k` rounds to the number: `low ≤ c · 10 ^ k ≤ high` in quarters, ends by parity. -/
def takes (b : Binary) (c : Nat) (k : Int) : Bool :=
  let low := b.quarters (4 * b.mantissa - if b.narrow then 1 else 2)
  let high := b.quarters (4 * b.mantissa + 2)
  let up := Nat.pow 10 k.toNat
  let down := Nat.pow 10 (-k).toNat
  let x := c * up * low.2
  let l := low.1 * down
  let h := high.1 * down
  if b.mantissa % 2 = 0 then l ≤ x && x ≤ h else l < x && x < h

/-- The neighbour below the number on the grid of `10 ^ k`. -/
def below (b : Binary) (k : Int) : Nat :=
  let v := b.quarters (4 * b.mantissa)
  v.1 * Nat.pow 10 (-k).toNat / (v.2 * Nat.pow 10 k.toNat)

/-- Whether the upper neighbour `c + 1` is nearer than `c`; a tie goes to the even one. -/
def upperNearer (b : Binary) (c : Nat) (k : Int) : Bool :=
  let v := b.quarters (4 * b.mantissa)
  let twice := 2 * (v.1 * Nat.pow 10 (-k).toNat)
  let middle := (2 * c + 1) * (v.2 * Nat.pow 10 k.toNat)
  if twice = middle then c % 2 = 1 else middle < twice

def hit? (b : Binary) (k : Int) : Option Nat :=
  let c := b.below k
  match b.takes c k, b.takes (c + 1) k with
  | true, true => some (if b.upperNearer c k then c + 1 else c)
  | true, false => some c
  | false, true => some (c + 1)
  | false, false => none

/-- Digits and exponent on the first grid with a hit; `grids` bounds the number of grids tried. -/
def firstHit (b : Binary) : (grids : Nat) → (k : Int) → Nat × Int
  | 0, k => (b.below k, k)
  | n + 1, k =>
    match b.hit? k with
    | some c => (c, k)
    | none => firstHit b n (k - 1)

/-- A grid too coarse for any digit of the number but a leading one. -/
def coarsest (b : Binary) : Int :=
  let v := b.quarters (4 * b.mantissa)
  if v.2 ≤ v.1 then (digitText (v.1 / v.2)).length else 1 - (digitText (v.2 / v.1)).length

/-- Nineteen grids reach one digit more than a double ever needs. -/
def shortest (b : Binary) (negative : Bool) : Decimal :=
  let (c, k) := b.firstHit 19 b.coarsest
  ⟨negative, c, k⟩

end Binary

/-- The parts of a floating-point word with `fraction` fraction bits and exponent bias `bias`. -/
def decimalOfBits (fraction bias word : Nat) (signBit : Nat) : Decimal :=
  let negative := word / Nat.pow 2 signBit % 2 = 1
  let exponent := word / Nat.pow 2 fraction % Nat.pow 2 (signBit - fraction)
  let low := word % Nat.pow 2 fraction
  if exponent = 0 then
    if low = 0 then ⟨negative, 0, 0⟩
    else (Binary.mk low (1 - bias - fraction : Int) false).shortest negative
  else
    (Binary.mk (Nat.pow 2 fraction + low) (exponent - bias - fraction : Int) (low = 0 && exponent ≠ 1)).shortest negative

namespace Decimal

/-- The shortest decimal that reads back as a finite double. -/
def ofDouble (x : Float) : Decimal := decimalOfBits 52 1023 x.toBits.toNat 63

/-- The shortest decimal that reads back as a finite single. -/
def ofSingle (x : Float32) : Decimal := decimalOfBits 23 127 x.toBits.toNat 31

end Decimal

end Recast
