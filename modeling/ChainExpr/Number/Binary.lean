namespace ChainExpr.Number

/-- A non-negative fraction. The denominator is meant to be positive. -/
structure Fraction where
  num : Nat
  den : Nat
deriving DecidableEq, Repr

/-- The quantity `significand * 2 ^ exponent`. -/
structure Dyadic where
  significand : Nat
  exponent : Int
deriving DecidableEq, Repr

def Dyadic.toFraction (d : Dyadic) : Fraction :=
  ⟨d.significand * Nat.pow 2 d.exponent.toNat, Nat.pow 2 (-d.exponent).toNat⟩

/-- The rank of infinity. Every smaller rank is that of a finite number. -/
def infinityRank : Nat := 0x7ff0000000000000

/-- The count of ranks between two powers of two. -/
def blockSize : Nat := 0x10000000000000

/-- The quantity at a finite rank. The first two blocks share the smallest exponent; each later block
doubles the step. -/
def Dyadic.ofRank (rank : Nat) : Dyadic :=
  let block := rank / blockSize - 1
  ⟨rank - block * blockSize, (block : Int) - 1074⟩

/-- The quotient rounded to the nearest natural number, a tie to the even one. -/
def roundHalfEven (num den : Nat) : Nat :=
  let quotient := num / den
  let rest := num % den
  if 2 * rest < den ∨ (2 * rest = den ∧ quotient % 2 = 0) then quotient else quotient + 1

/-- The greatest exponent of a power of two that is not above a positive fraction. -/
def Fraction.log2 (x : Fraction) : Int :=
  let guess : Int := (x.num.log2 : Int) - (x.den.log2 : Int)
  if x.num * Nat.pow 2 (-guess).toNat < x.den * Nat.pow 2 guess.toNat then guess - 1 else guess

/-- The rank of the number nearest to a fraction, a tie to the even rank, and infinity when the
fraction is beyond the largest finite number by half a step or more. A carry out of the significand
moves to the next block of ranks by itself. -/
def Fraction.nearestRank (x : Fraction) : Nat :=
  if x.num = 0 then 0
  else
    let exponent := max (x.log2 - 52) (-1074)
    let significand :=
      roundHalfEven (x.num * Nat.pow 2 (-exponent).toNat) (x.den * Nat.pow 2 exponent.toNat)
    min infinityRank ((exponent + 1074).toNat * blockSize + significand)

/-- The bit that negative numbers have above the rank of their magnitude. -/
def signBit : Nat := 0x8000000000000000

/-- The rank of a number's magnitude. -/
def rank (x : Float) : Nat := x.toBits.toNat % signBit

def isNegative (x : Float) : Bool := decide (signBit ≤ x.toBits.toNat)

/-- The number of a sign and the rank of its magnitude. -/
def ofRank (negative : Bool) (rank : Nat) : Float :=
  Float.ofBits (UInt64.ofNat (if negative then signBit + rank else rank))

/-- The number that stands for every result that is none. -/
def notANumber : Float := Float.ofBits 0x7ff8000000000000

/-- The exact integer that a finite number is, if it is one. Both zeros are the integer zero. -/
def integer? (x : Float) : Option Int :=
  if rank x < infinityRank then
    let d := Dyadic.ofRank (rank x)
    let ⟨num, den⟩ := d.toFraction
    if num % den = 0 then
      some (if isNegative x then -((num / den : Nat) : Int) else ((num / den : Nat) : Int))
    else none
  else none

/-- The number nearest to an integer. -/
def ofInt (n : Int) : Float :=
  ofRank (decide (n < 0)) (Fraction.nearestRank ⟨n.natAbs, 1⟩)

end ChainExpr.Number
