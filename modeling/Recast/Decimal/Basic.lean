/-!
# Decimals — numbers as they are written

A decimal is a sign, a natural number of digits and a power of ten; it keeps the written value
exactly.  Reading one as a binary number rounds twice: the digits to a binary number, as many of them
as 64 bits hold, and then their product with the power of ten.  Where the digits fit 53 bits and the
power is one of the first 22, that is the nearest binary number; beyond the range it is infinity.
-/
namespace Recast

/-- The value `± digits · 10 ^ exponent`; zero has a sign too. -/
structure Decimal where
  negative : Bool
  digits : Nat
  exponent : Int
deriving DecidableEq

/-- Digits of a natural number, most significant first. -/
def digitText (n : Nat) : List Char := Nat.toDigits 10 n

namespace Decimal

/-- One more than the exponent of the leading digit. -/
def point (d : Decimal) : Int := (digitText d.digits).length + d.exponent

/-- The leading digits that 64 bits hold, with the exponent of the last of them. -/
def leading (digits : Nat) (exponent : Int) : Nat × Int :=
  if digits < 0x10000000000000000 then (digits, exponent) else leading (digits / 10) (exponent + 1)
termination_by digits
decreasing_by omega

/-- A power of ten, infinite beyond the range. -/
def powerOfTen (n : Nat) : Float := Float.ofScientific 1 false (min n 309)

/-- The binary number without the sign.  An exponent below those of the range is applied in two parts, so
that a small number does not vanish on the way. -/
def magnitude (d : Decimal) : Float :=
  let (n, e) := leading d.digits d.exponent
  let x := (UInt64.ofNat n).toFloat
  if n = 0 then 0.0
  else if 0 ≤ e then x * powerOfTen e.toNat
  else if -308 ≤ e then x / powerOfTen (-e).toNat
  else x / powerOfTen 308 / powerOfTen (-e - 308).toNat

def toFloat (d : Decimal) : Float := if d.negative then -d.magnitude else d.magnitude

end Decimal

/-! ## Written form -/

/-- Positional notation serves while the decimal point falls after at most `maxPoint` digits and
before more than `minPoint` places; beyond that there is an exponent. -/
structure DecimalStyle where
  minPoint : Int
  maxPoint : Int

namespace DecimalStyle

/-- For the digits of a double. -/
def double : DecimalStyle := ⟨-5, 16⟩

/-- For the digits of a single. -/
def single : DecimalStyle := ⟨-6, 13⟩

end DecimalStyle

namespace Decimal

def zeros (n : Nat) : List Char := List.replicate n '0'

def exponentText (e : Int) : List Char :=
  (if e < 0 then '-' else '+') :: digitText e.natAbs

/-- The text of a positive value with the given digits and point. -/
def positiveText (s : DecimalStyle) (digits : List Char) (point : Int) : List Char :=
  let n : Int := digits.length
  if n ≤ point ∧ point ≤ s.maxPoint then digits ++ zeros (point - n).toNat ++ ['.', '0']
  else if 0 < point ∧ point ≤ s.maxPoint then
    digits.take point.toNat ++ '.' :: digits.drop point.toNat
  else if s.minPoint < point ∧ point ≤ 0 then '0' :: '.' :: zeros (-point).toNat ++ digits
  else match digits with
    | [] => []
    | [d] => d :: 'e' :: exponentText (point - 1)
    | d :: ds => d :: '.' :: ds ++ 'e' :: exponentText (point - 1)

def text (s : DecimalStyle) (d : Decimal) : String :=
  let body := if d.digits = 0 then ['0', '.', '0'] else positiveText s (digitText d.digits) d.point
  String.ofList (if d.negative then '-' :: body else body)

end Decimal

end Recast
