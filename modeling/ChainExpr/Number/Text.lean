import ChainExpr.Number.Decimal

namespace ChainExpr.Number

/-- The significant digits of a decimal, read as `0.d₁d₂… * 10 ^ point`. -/
structure Figures where
  digits : List Char
  point : Int
deriving DecidableEq, Repr

def Decimal.figures (d : Decimal) : Figures :=
  let digits := Nat.toDigits 10 d.coefficient
  ⟨(digits.reverse.dropWhile (· == '0')).reverse, digits.length + d.exponent⟩

/-- Digits with a point among them and no exponent. A whole number is followed by `wholeTail`. -/
def Figures.positional (wholeTail : List Char) (f : Figures) : List Char :=
  if f.point ≤ 0 then '0' :: '.' :: (List.replicate (-f.point).toNat '0' ++ f.digits)
  else if (f.digits.length : Int) ≤ f.point then
    f.digits ++ List.replicate (f.point.toNat - f.digits.length) '0' ++ wholeTail
  else f.digits.take f.point.toNat ++ '.' :: f.digits.drop f.point.toNat

/-- One digit, the others after a point, and an exponent that always has a sign. -/
def Figures.scientific (f : Figures) : List Char :=
  let power := f.point - 1
  let mantissa := match f.digits with
    | [] => ['0']
    | [d] => [d]
    | d :: more => d :: '.' :: more
  mantissa ++ 'e' :: (if power < 0 then '-' else '+') :: Nat.toDigits 10 power.natAbs

/-- How finite numbers are written. -/
structure Style where
  /-- Which of two equally short and equally near decimals is taken. -/
  tie : TieRule
  /-- What follows the digits of a whole number. -/
  wholeTail : List Char
  /-- Whether a number with so many digits before the point is written without an exponent. -/
  positional : Int → Bool

def Style.chars (style : Style) (x : Float) : List Char :=
  let magnitude :=
    if rank x = 0 then '0' :: style.wholeTail
    else
      let f := (shortest style.tie (rank x)).figures
      if style.positional f.point then f.positional style.wholeTail else f.scientific
  if isNegative x then '-' :: magnitude else magnitude

/-- Shown numbers have as few digits as read back, never an exponent, and nothing after a whole
number. -/
def shownStyle : Style where
  tie := .away
  wholeTail := []
  positional := fun _ => true

/-- Plain notation of any number. -/
def plainChars (x : Float) : List Char :=
  if rank x < infinityRank then shownStyle.chars x
  else if rank x = infinityRank then
    if isNegative x then ['-', 'i', 'n', 'f'] else ['i', 'n', 'f']
  else ['N', 'a', 'N']

def integerChars (n : Int) : List Char :=
  if n < 0 then '-' :: Nat.toDigits 10 n.natAbs else Nat.toDigits 10 n.natAbs

/-- The magnitude below which a whole number is shown as an integer, negative zero as zero. -/
def integerLimit : Nat := 1000000000000000

def shownChars (x : Float) : List Char :=
  match integer? x with
  | some n => if n.natAbs < integerLimit then integerChars n else plainChars x
  | none => plainChars x

/-- The text a number is shown as. -/
def shown (x : Float) : String := .ofList (shownChars x)

/-- The exponent at the end of a numeral, zero where there is none. -/
def exponent? : List Char → Option Int
  | [] => some 0
  | c :: rest =>
    if c = 'e' ∨ c = 'E' then
      let (negative, digits) := match rest with
        | '-' :: digits => (true, digits)
        | '+' :: digits => (false, digits)
        | digits => (false, digits)
      if digits ≠ [] ∧ digits.all Char.isDigit then
        let power := Nat.ofDigitChars 10 digits 0
        some (if negative then -(power : Int) else (power : Int))
      else none
    else none

/-- Digits with at most one point, at least one digit on either side of it, and an exponent or none. -/
def Decimal.ofChars? (cs : List Char) : Option Decimal :=
  let whole := cs.takeWhile Char.isDigit
  let (fraction, rest) := match cs.dropWhile Char.isDigit with
    | '.' :: rest => (rest.takeWhile Char.isDigit, rest.dropWhile Char.isDigit)
    | rest => ([], rest)
  if whole ++ fraction = [] then none
  else (exponent? rest).map fun power =>
    ⟨Nat.ofDigitChars 10 (whole ++ fraction) 0, power - fraction.length⟩

/-- A numeral without its sign: infinity or no number by name, in any case, or a decimal. -/
def magnitude? (negative : Bool) (cs : List Char) : Option Float :=
  let word := cs.map Char.toLower
  if word = ['i', 'n', 'f'] ∨ word = ['i', 'n', 'f', 'i', 'n', 'i', 't', 'y'] then
    some (ofRank negative infinityRank)
  else if word = ['n', 'a', 'n'] then some notANumber
  else (Decimal.ofChars? cs).map fun d => ofRank negative d.nearestRank

/-- The number nearest to what a numeral says, if the whole text is one. -/
def ofChars? : List Char → Option Float
  | '-' :: cs => magnitude? true cs
  | '+' :: cs => magnitude? false cs
  | cs => magnitude? false cs

end ChainExpr.Number
