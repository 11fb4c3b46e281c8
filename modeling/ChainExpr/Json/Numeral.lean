import ChainExpr.Json.Basic
import ChainExpr.Number.Decimal

namespace ChainExpr.Json

/-- A numeral as written. -/
structure Numeral where
  negative : Bool
  whole : List Char
  fraction : List Char
  exponent : Option Int
deriving DecidableEq, Repr

/-- Every significand is below this, so it fits into 64 bits. -/
def significandLimit : Nat := 0x10000000000000000

/-- The greatest power of ten that is a number. -/
def powerLimit : Nat := 308

/-- Takes digits behind a significand until the next one does not fit. Says how many are left. -/
def takeDigits (significand : Nat) : List Char → Nat × Nat
  | [] => (significand, 0)
  | c :: rest =>
    let next := Nat.ofDigitChars 10 [c] significand
    if next < significandLimit then takeDigits next rest else (significand, rest.length + 1)

/-- The number nearest to a power of ten. -/
def tenPower (n : Nat) : Float := Number.ofRank false (Number.Decimal.nearestRank ⟨1, n⟩)

/-- A product with a power of ten, none if it is infinite. -/
def raise? (x : Float) (n : Nat) : Option Float :=
  if x == 0 then some x
  else if n ≤ powerLimit then
    let product := x * tenPower n
    if Number.rank product < Number.infinityRank then some product else none
  else none

/-- A quotient by a power of ten. A power that is no number divides in two steps, and nothing is left
of a significand beyond these. -/
def lower (x : Float) (n : Nat) : Float :=
  if n ≤ powerLimit then x / tenPower n
  else if n ≤ 2 * powerLimit then x / tenPower powerLimit / tenPower (n - powerLimit)
  else 0

namespace Numeral

/-- The number computed from a significand and a power of ten. -/
def scale? (negative : Bool) (significand : Nat) (power : Int) : Option JsonNumber :=
  let x := Number.ofInt significand
  let magnitude := if 0 ≤ power then raise? x power.toNat else some (lower x (-power).toNat)
  magnitude.map fun magnitude => .float (if negative then -magnitude else magnitude)

/-- What a numeral stands for. An integer in range stays one, negative zero apart; a numeral that is
too large stands for nothing. -/
def value? (n : Numeral) : Option JsonNumber :=
  let (significand, skipped) := takeDigits 0 n.whole
  if n.fraction = [] ∧ n.exponent = none ∧ skipped = 0 ∧ n.negative = false then
    some (.integer significand)
  else if n.fraction = [] ∧ n.exponent = none ∧ skipped = 0 ∧ 0 < significand ∧
      significand ≤ 0x8000000000000000 then
    some (.integer (-(significand : Int)))
  else
    let (significand, left) := takeDigits significand n.fraction
    let taken := n.fraction.length - left
    scale? n.negative significand (n.exponent.getD 0 + skipped - taken)

end Numeral

end ChainExpr.Json
