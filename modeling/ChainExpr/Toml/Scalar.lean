import ChainExpr.Number.Decimal
import ChainExpr.Text.Hex
import ChainExpr.Toml.Basic

namespace ChainExpr.Toml

/-- The characters that a word may consist of. -/
def isWordChar (c : Char) : Bool :=
  c.isAlphanum || c == '+' || c == '-' || c == '.' || c == '_' || c == ':'

/-- Digits without the underscores between them. An underscore needs a digit on both sides. -/
def digits? (isDigit : Char → Bool) : List Char → Option (List Char)
  | [] => none
  | [c] => if isDigit c then some [c] else none
  | c :: '_' :: rest =>
    if isDigit c then (digits? isDigit rest).map (c :: ·) else none
  | c :: rest => if isDigit c then (digits? isDigit rest).map (c :: ·) else none

/-- The digits of a number without a leading zero. -/
def wholeDigits? (cs : List Char) : Option (List Char) :=
  match digits? Char.isDigit cs with
  | some ('0' :: _ :: _) => none
  | other => other

def isHexDigit (c : Char) : Bool := (Text.hexValue? c).isSome

def ofDigits (base : Nat) (digits : List Char) : Nat :=
  digits.foldl (fun value c => base * value + (Text.hexValue? c).getD 0) 0

/-- An integer of 64 bits. -/
def integerItem? (n : Int) : Option Toml :=
  if -0x8000000000000000 ≤ n ∧ n < 0x8000000000000000 then some (.integer n) else none

def unsigned? (isDigit : Char → Bool) (base : Nat) (cs : List Char) : Option Toml := do
  integerItem? (ofDigits base (← digits? isDigit cs))

/-- A sign and what follows it. -/
def splitSign : List Char → Bool × List Char
  | '-' :: cs => (true, cs)
  | '+' :: cs => (false, cs)
  | cs => (false, cs)

def integer? (cs : List Char) : Option Toml :=
  match cs with
  | '0' :: 'x' :: rest => unsigned? isHexDigit 16 rest
  | '0' :: 'o' :: rest => unsigned? (fun c => '0' ≤ c && c ≤ '7') 8 rest
  | '0' :: 'b' :: rest => unsigned? (fun c => c == '0' || c == '1') 2 rest
  | cs => do
    let (negative, cs) := splitSign cs
    let magnitude := ofDigits 10 (← wholeDigits? cs)
    integerItem? (if negative then -(magnitude : Int) else magnitude)

/-- The power after the letter of an exponent, zero where there is none. -/
def power? : List Char → Option Int
  | [] => some 0
  | c :: rest =>
    if c = 'e' ∨ c = 'E' then do
      let (negative, rest) := splitSign rest
      let magnitude := ofDigits 10 (← digits? Char.isDigit rest)
      return if negative then -(magnitude : Int) else magnitude
    else none

def isPowerLetter (c : Char) : Bool := c == 'e' || c == 'E'

/-- A number with a fraction or an exponent. One that is nearest to positive infinity is refused. -/
def decimal? (negative : Bool) (cs : List Char) : Option Toml := do
  let isWhole := fun c => c != '.' && !isPowerLetter c
  let whole ← wholeDigits? (cs.takeWhile isWhole)
  let (fraction, rest) ← match cs.dropWhile isWhole with
    | [] => none
    | '.' :: rest =>
      (digits? Char.isDigit (rest.takeWhile (!isPowerLetter ·))).map
        (·, rest.dropWhile (!isPowerLetter ·))
    | rest => some ([], rest)
  let power ← power? rest
  let decimal : Number.Decimal := ⟨ofDigits 10 (whole ++ fraction), power - fraction.length⟩
  if !negative && decimal.nearestRank = Number.infinityRank then none
  else return .float (Number.ofRank negative decimal.nearestRank)

def float? (cs : List Char) : Option Toml :=
  let (negative, rest) := splitSign cs
  if rest = ['i', 'n', 'f'] then some (.float (Number.ofRank negative Number.infinityRank))
  else if rest = ['n', 'a', 'n'] then some (.float Number.notANumber)
  else decimal? negative rest

/-- The value of two digits that is not above a bound. -/
def twoDigits? (bound : Nat) : List Char → Option (Nat × List Char)
  | a :: b :: rest =>
    if a.isDigit && b.isDigit then
      let n := ofDigits 10 [a, b]
      if n ≤ bound then some (n, rest) else none
    else none
  | _ => none

def isLeapYear (year : Nat) : Bool := year % 4 == 0 && (year % 100 != 0 || year % 400 == 0)

def daysIn (year month : Nat) : Nat :=
  if month = 2 then (if isLeapYear year then 29 else 28)
  else if month = 4 ∨ month = 6 ∨ month = 9 ∨ month = 11 then 30
  else 31

/-- What follows a date such as `1979-05-27`. -/
def date? : List Char → Option (List Char)
  | a :: b :: c :: d :: '-' :: rest => do
    if !([a, b, c, d].all Char.isDigit) then none
    let year := ofDigits 10 [a, b, c, d]
    let (month, rest) ← twoDigits? 12 rest
    match rest with
    | '-' :: rest =>
      let (day, rest) ← twoDigits? (daysIn year month) rest
      if month = 0 ∨ day = 0 then none else return rest
    | _ => none
  | _ => none

/-- What follows a time such as `07:32:00.5`. -/
def time? (cs : List Char) : Option (List Char) := do
  match ← twoDigits? 23 cs with
  | (_, ':' :: rest) =>
    match ← twoDigits? 59 rest with
    | (_, ':' :: rest) =>
      match ← twoDigits? 60 rest with
      | (_, '.' :: rest) =>
        if rest.takeWhile Char.isDigit = [] then none else return rest.dropWhile Char.isDigit
      | (_, rest) => return rest
    | _ => none
  | _ => none

/-- Whether a text is nothing or the offset of a time zone. -/
def isOffset : List Char → Bool
  | [] | ['Z'] | ['z'] => true
  | c :: rest =>
    (c == '+' || c == '-') &&
      match twoDigits? 23 rest with
      | some (_, ':' :: rest) => (twoDigits? 59 rest).any fun (_, rest) => rest.isEmpty
      | _ => false

def isTimeWithOffset (cs : List Char) : Bool := (time? cs).any isOffset

def datetime? (cs : List Char) : Option Toml :=
  match date? cs with
  | some [] => some .datetime
  | some (c :: rest) => if (c == 'T' || c == 't') && isTimeWithOffset rest then some .datetime else none
  | none => if time? cs = some [] then some .datetime else none

/-- The value of a word. -/
def word? (cs : List Char) : Option Toml :=
  if cs = ['t', 'r', 'u', 'e'] then some (.boolean true)
  else if cs = ['f', 'a', 'l', 's', 'e'] then some (.boolean false)
  else (datetime? cs).orElse fun _ => (float? cs).orElse fun _ => integer? cs

/-- A word at the head of a text. A date and a time may have a blank between them. -/
def readWord (cs : List Char) : Option (Toml × List Char) :=
  let word := cs.takeWhile isWordChar
  let rest := cs.dropWhile isWordChar
  match date? word, rest with
  | some [], ' ' :: after =>
    if isTimeWithOffset (after.takeWhile isWordChar) then
      some (.datetime, after.dropWhile isWordChar)
    else some (.datetime, rest)
  | _, _ => (word? word).map (·, rest)

end ChainExpr.Toml
