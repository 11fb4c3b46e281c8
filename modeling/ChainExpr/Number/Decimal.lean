import ChainExpr.Number.Binary

namespace ChainExpr.Number

/-- The quantity `coefficient * 10 ^ exponent`. -/
structure Decimal where
  coefficient : Nat
  exponent : Int
deriving DecidableEq, Repr

namespace Decimal

def toFraction (d : Decimal) : Fraction :=
  ⟨d.coefficient * Nat.pow 10 d.exponent.toNat, Nat.pow 10 (-d.exponent).toNat⟩

/-- The rank of the binary number nearest to a decimal. From `10 ^ 400` on that is infinity and below
`10 ^ (-400)` it is zero, so that no power of ten beyond these is ever formed. -/
def nearestRank (d : Decimal) : Nat :=
  if d.coefficient = 0 then 0
  else if 400 < d.exponent then infinityRank
  else if d.exponent + d.coefficient.log2 + 1 < -400 then 0
  else d.toFraction.nearestRank

/-- The decimal that is exactly a dyadic quantity, since `2 ^ (-k) = 5 ^ k * 10 ^ (-k)`. -/
def ofDyadic (d : Dyadic) : Decimal :=
  if 0 ≤ d.exponent then ⟨d.significand * Nat.pow 2 d.exponent.toNat, 0⟩
  else ⟨d.significand * Nat.pow 5 (-d.exponent).toNat, d.exponent⟩

end Decimal

/-- How a quantity half way between two equally short decimals is written. -/
inductive TieRule
  | away
  | toEven
deriving DecidableEq, Repr

/-- The count of digits before the point: the fraction is below `10 ^ point` and not below
`10 ^ (point - 1)`. -/
def Fraction.point (x : Fraction) : Int :=
  if x.den ≤ x.num then (Nat.toDigits 10 (x.num / x.den)).length
  else 1 - ((Nat.toDigits 10 ((x.den - 1) / x.num)).length : Int)

/-- The fraction in units of `10 ^ exponent`, with the fraction of a unit that is left. -/
def Fraction.scaled (x : Fraction) (exponent : Int) : Fraction :=
  ⟨x.num * Nat.pow 10 (-exponent).toNat, x.den * Nat.pow 10 exponent.toNat⟩

/-- Of the two multiples of a unit around a fraction, whether the upper one is to be taken. -/
def TieRule.takesUpper (tie : TieRule) (units : Fraction) : Bool :=
  let rest := 2 * (units.num % units.den)
  if rest = units.den then
    match tie with
    | .away => true
    | .toEven => decide (units.num / units.den % 2 = 1)
  else decide (units.den < rest)

/-- Of two neighbours, the one that reads back, and if both do, the nearer one. -/
def neighbour? (lower upper : Decimal) (upperNearer : Bool) :
    (lowerReads upperReads : Bool) → Option Decimal
  | true, true => some (if upperNearer then upper else lower)
  | true, false => some lower
  | false, true => some upper
  | false, false => none

/-- The decimal of a given count of digits that reads back as the number of a rank: one of the two
neighbours of the quantity on the grid of so many digits, the nearer one if both do. -/
def decimalOfDigits? (tie : TieRule) (rank : Nat) (digits : Nat) : Option Decimal :=
  let x := (Dyadic.ofRank rank).toFraction
  let exponent := x.point - digits
  let units := x.scaled exponent
  let lower : Decimal := ⟨units.num / units.den, exponent⟩
  let upper : Decimal := ⟨units.num / units.den + 1, exponent⟩
  neighbour? lower upper (tie.takesUpper units) (decide (lower.nearestRank = rank))
    (decide (upper.nearestRank = rank))

/-- The shortest decimal that reads back as the number of a finite rank. Seventeen digits are enough
for every binary64 number; the exact decimal stands behind them so that the result reads back whatever
is known of that bound. -/
def shortest (tie : TieRule) (rank : Nat) : Decimal :=
  ((List.range 17).findSome? fun n => decimalOfDigits? tie rank (n + 1)).getD
    (.ofDyadic (.ofRank rank))

end ChainExpr.Number
