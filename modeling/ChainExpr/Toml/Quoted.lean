import ChainExpr.Text.Hex
import ChainExpr.Toml.Basic

namespace ChainExpr.Toml

def isSpace (c : Char) : Bool := c == ' ' || c == '\t'

/-- Whether a character may stand for itself: no control character but the tab. -/
def isPlain (c : Char) : Bool := c == '\t' || (0x20 ≤ c.toNat && c.toNat != 0x7f)

/-- The character of a code point in hexadecimal digits. Surrogates are no characters. -/
def codePoint? (digits : List Char) : Option Char := do
  let n ← Text.hexNumber? digits
  if n < 0xd800 ∨ (0xe000 ≤ n ∧ n < 0x110000) then return Char.ofNat n else none

/-- What a one-letter escape stands for. -/
def escaped? : Char → Option Char
  | 'b' => some '\x08'
  | 't' => some '\t'
  | 'n' => some '\n'
  | 'f' => some '\x0c'
  | 'r' => some '\r'
  | '"' => some '"'
  | '\\' => some '\\'
  | _ => none

def prepend (c : Option Char) (tail : Option (List Char × List Char)) :
    Option (List Char × List Char) := do
  let c ← c
  let (content, rest) ← tail
  return (c :: content, rest)

/-- A string after its opening quote, with escapes, and the text behind it. -/
def readBasic : List Char → Option (List Char × List Char)
  | '"' :: rest => some ([], rest)
  | '\\' :: 'u' :: a :: b :: c :: d :: rest =>
    prepend (codePoint? [a, b, c, d]) (readBasic rest)
  | '\\' :: 'U' :: a :: b :: c :: d :: e :: f :: g :: h :: rest =>
    prepend (codePoint? [a, b, c, d, e, f, g, h]) (readBasic rest)
  | '\\' :: c :: rest => prepend (escaped? c) (readBasic rest)
  | c :: rest => if isPlain c && c != '\\' then prepend (some c) (readBasic rest) else none
  | [] => none

/-- A string after its opening quote, without escapes. -/
def readLiteral (quote : Char) : List Char → Option (List Char × List Char)
  | [] => none
  | c :: rest =>
    if c = quote then some ([], rest)
    else if isPlain c then prepend (some c) (readLiteral quote rest)
    else none

/-- Whether the line ends here, but for blanks. -/
def endsLine (cs : List Char) : Bool :=
  match cs.dropWhile isSpace with
  | '\n' :: _ => true
  | '\r' :: '\n' :: _ => true
  | _ => false

/-- A string on several lines after its opening quotes, with escapes. Up to two quotes may stand
before the closing ones. While `skipping`, blanks and line ends are passed over: they follow a
backslash at the end of a line. -/
def readBasicLines (skipping : Bool) : List Char → Option (List Char × List Char)
  | '"' :: '"' :: '"' :: '"' :: '"' :: rest => some (['"', '"'], rest)
  | '"' :: '"' :: '"' :: '"' :: rest => some (['"'], rest)
  | '"' :: '"' :: '"' :: rest => some ([], rest)
  | '\r' :: '\n' :: rest =>
    if skipping then readBasicLines true rest else prepend (some '\n') (readBasicLines false rest)
  | '\n' :: rest =>
    if skipping then readBasicLines true rest else prepend (some '\n') (readBasicLines false rest)
  | '\\' :: 'u' :: a :: b :: c :: d :: rest =>
    prepend (codePoint? [a, b, c, d]) (readBasicLines false rest)
  | '\\' :: 'U' :: a :: b :: c :: d :: e :: f :: g :: h :: rest =>
    prepend (codePoint? [a, b, c, d, e, f, g, h]) (readBasicLines false rest)
  | '\\' :: c :: rest =>
    if endsLine (c :: rest) then readBasicLines true (c :: rest)
    else prepend (escaped? c) (readBasicLines false rest)
  | c :: rest =>
    if skipping && isSpace c then readBasicLines true rest
    else if isPlain c && c != '\\' then prepend (some c) (readBasicLines false rest)
    else none
  | [] => none

/-- A string on several lines after its opening quotes, without escapes. -/
def readLiteralLines (quote : Char) : List Char → Option (List Char × List Char)
  | a :: b :: c :: d :: e :: rest =>
    if [a, b, c, d, e].all (· == quote) then some ([quote, quote], rest)
    else if [a, b, c, d].all (· == quote) then some ([quote], e :: rest)
    else if [a, b, c].all (· == quote) then some ([], d :: e :: rest)
    else if a = '\r' ∧ b = '\n' then
      prepend (some '\n') (readLiteralLines quote (c :: d :: e :: rest))
    else if isPlain a || a == '\n' then
      prepend (some a) (readLiteralLines quote (b :: c :: d :: e :: rest))
    else none
  | a :: b :: c :: d :: rest =>
    if [a, b, c, d].all (· == quote) then some ([quote], rest)
    else if [a, b, c].all (· == quote) then some ([], d :: rest)
    else if a = '\r' ∧ b = '\n' then prepend (some '\n') (readLiteralLines quote (c :: d :: rest))
    else if isPlain a || a == '\n' then
      prepend (some a) (readLiteralLines quote (b :: c :: d :: rest))
    else none
  | [a, b, c] => if [a, b, c].all (· == quote) then some ([], []) else none
  | _ => none

/-- The text after a line end, if it starts with one. -/
def dropNewline : List Char → List Char
  | '\n' :: rest => rest
  | '\r' :: '\n' :: rest => rest
  | cs => cs

/-- The quote of strings without escapes. -/
def literalQuote : Char := Char.ofNat 0x27

/-- A string on one line. -/
def readLine : List Char → Option (List Char × List Char)
  | '"' :: rest => readBasic rest
  | c :: rest => if c = literalQuote then readLiteral literalQuote rest else none
  | [] => none

/-- Any string. The line end right after three opening quotes does not count. -/
def readString (cs : List Char) : Option (List Char × List Char) :=
  match cs with
  | '"' :: '"' :: '"' :: rest => readBasicLines false (dropNewline rest)
  | a :: b :: c :: rest =>
    if a = literalQuote ∧ b = literalQuote ∧ c = literalQuote then
      readLiteralLines literalQuote (dropNewline rest)
    else readLine cs
  | _ => readLine cs

end ChainExpr.Toml
