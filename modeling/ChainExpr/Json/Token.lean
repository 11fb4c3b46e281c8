import ChainExpr.Json.Numeral
import ChainExpr.Text.Hex

namespace ChainExpr.Json

/-- A part of a string: a character, or a code unit written as an escape that may be half a pair. -/
inductive Piece
  | char (c : Char)
  | unit (n : Nat)
deriving DecidableEq, Repr

inductive Token
  | openBrace
  | closeBrace
  | openBracket
  | closeBracket
  | colon
  | comma
  | null
  | bool (b : Bool)
  | number (n : Numeral)
  | string (pieces : List Piece)
deriving DecidableEq, Repr

/-- The character of a surrogate pair. -/
def pairedChar (high low : Nat) : Char :=
  Char.ofNat (0x10000 + (high - 0xd800) * 0x400 + (low - 0xdc00))

def isHigh (n : Nat) : Bool := decide (0xd800 ≤ n ∧ n < 0xdc00)

def isLow (n : Nat) : Bool := decide (0xdc00 ≤ n ∧ n < 0xe000)

/-- The characters of a string. Half of a surrogate pair is no character. -/
def piecesChars? : List Piece → Option (List Char)
  | [] => some []
  | .char c :: rest => (piecesChars? rest).map (c :: ·)
  | .unit high :: .unit low :: rest =>
    if isHigh high ∧ isLow low then (piecesChars? rest).map (pairedChar high low :: ·)
    else if isHigh high ∨ isLow high then none
    else (piecesChars? (.unit low :: rest)).map (Char.ofNat high :: ·)
  | .unit n :: rest =>
    if isHigh n ∨ isLow n then none else (piecesChars? rest).map (Char.ofNat n :: ·)

def piecesString? (pieces : List Piece) : Option String :=
  (piecesChars? pieces).map String.ofList

/-- What a one-letter escape stands for. -/
def escaped? : Char → Option Char
  | '"' => some '"'
  | '\\' => some '\\'
  | '/' => some '/'
  | 'b' => some '\x08'
  | 'f' => some '\x0c'
  | 'n' => some '\n'
  | 'r' => some '\r'
  | 't' => some '\t'
  | _ => none

/-- A string after its opening quote, and the text behind its closing one. -/
def readString : List Char → Option (List Piece × List Char)
  | [] => none
  | '"' :: rest => some ([], rest)
  | '\\' :: 'u' :: a :: b :: c :: d :: rest =>
    match Text.hexNumber? [a, b, c, d], readString rest with
    | some unit, some (pieces, rest) => some (.unit unit :: pieces, rest)
    | _, _ => none
  | '\\' :: c :: rest =>
    match escaped? c, readString rest with
    | some c, some (pieces, rest) => some (.char c :: pieces, rest)
    | _, _ => none
  | c :: rest =>
    if c = '\\' ∨ c.toNat < 0x20 then none
    else (readString rest).map fun (pieces, rest) => (.char c :: pieces, rest)

/-- The digits after a point, none where no digit follows one. -/
def readFraction : List Char → List Char × List Char
  | '.' :: rest =>
    if rest.takeWhile Char.isDigit = [] then ([], '.' :: rest)
    else (rest.takeWhile Char.isDigit, rest.dropWhile Char.isDigit)
  | rest => ([], rest)

/-- The power after the letter of an exponent, none where no digit follows. -/
def readExponent (cs : List Char) : Option Int × List Char :=
  match cs with
  | c :: rest =>
    if c = 'e' ∨ c = 'E' then
      let (negative, rest) := match rest with
        | '-' :: rest => (true, rest)
        | '+' :: rest => (false, rest)
        | rest => (false, rest)
      if rest.takeWhile Char.isDigit = [] then (none, cs)
      else
        let power := Nat.ofDigitChars 10 (rest.takeWhile Char.isDigit) 0
        (some (if negative then -(power : Int) else power), rest.dropWhile Char.isDigit)
    else (none, cs)
  | [] => (none, cs)

/-- An unsigned numeral: digits without a leading zero, then a fraction and an exponent or neither. -/
def readMagnitude (negative : Bool) : List Char → Option (Numeral × List Char)
  | [] => none
  | c :: rest =>
    if c.isDigit then
      let more := if c = '0' then [] else rest.takeWhile Char.isDigit
      let (fraction, rest) := readFraction (rest.drop more.length)
      let (exponent, rest) := readExponent rest
      some (⟨negative, c :: more, fraction, exponent⟩, rest)
    else none

def readNumeral : List Char → Option (Numeral × List Char)
  | '-' :: cs => readMagnitude true cs
  | cs => readMagnitude false cs

/-- The blanks between tokens. -/
def isSpace (c : Char) : Bool := c == ' ' || c == '\n' || c == '\t' || c == '\r'

/-- The token at the head of a text that starts with no blank, and the text behind it. -/
def readToken : List Char → Option (Token × List Char)
  | '\x7b' :: rest => some (.openBrace, rest)
  | '\x7d' :: rest => some (.closeBrace, rest)
  | '[' :: rest => some (.openBracket, rest)
  | ']' :: rest => some (.closeBracket, rest)
  | ':' :: rest => some (.colon, rest)
  | ',' :: rest => some (.comma, rest)
  | 'n' :: 'u' :: 'l' :: 'l' :: rest => some (.null, rest)
  | 't' :: 'r' :: 'u' :: 'e' :: rest => some (.bool true, rest)
  | 'f' :: 'a' :: 'l' :: 's' :: 'e' :: rest => some (.bool false, rest)
  | '"' :: rest => (readString rest).map fun (pieces, rest) => (.string pieces, rest)
  | cs => (readNumeral cs).map fun (numeral, rest) => (.number numeral, rest)

theorem length_readString {cs : List Char} {pieces : List Piece} {rest : List Char}
    (h : readString cs = some (pieces, rest)) : rest.length < cs.length := by
  fun_induction readString cs generalizing pieces with
  | case1 => simp at h
  | case2 => simp_all
  | case3 a b c d cs unit pieces' rest' hread _ ih =>
    simp only [Option.some.injEq, Prod.mk.injEq] at h
    obtain ⟨_, rfl⟩ := h
    have := ih hread
    simp only [List.length_cons]
    omega
  | case4 => simp at h
  | case5 c cs _ c' pieces' rest' hread _ ih =>
    simp only [Option.some.injEq, Prod.mk.injEq] at h
    obtain ⟨_, rfl⟩ := h
    have := ih hread
    simp only [List.length_cons]
    omega
  | case6 => simp at h
  | case7 => simp at h
  | case8 c cs _ _ _ _ ih =>
    simp only [Option.map_eq_some_iff, Prod.mk.injEq, Prod.exists] at h
    obtain ⟨pieces', rest', hread, _, rfl⟩ := h
    have := ih hread
    simp only [List.length_cons]
    omega

theorem length_readFraction (cs : List Char) : (readFraction cs).2.length ≤ cs.length := by
  fun_cases readFraction cs with
  | case1 => simp
  | case2 rest _ =>
    have := (List.dropWhile_sublist (l := rest) Char.isDigit).length_le
    simp only [List.length_cons]
    omega
  | case3 => simp

theorem length_readExponent (cs : List Char) : (readExponent cs).2.length ≤ cs.length := by
  unfold readExponent
  split
  · rename_i c rest
    split
    · generalize hsigned : (match rest with
        | '-' :: rest => (true, rest)
        | '+' :: rest => (false, rest)
        | rest => (false, rest)) = signed
      have hlength : signed.2.length ≤ rest.length := by
        rw [← hsigned]
        split <;> simp
      obtain ⟨negative, digits⟩ := signed
      have := (List.dropWhile_sublist (l := digits) Char.isDigit).length_le
      dsimp only at hlength ⊢
      split
      · simp
      · simp only [List.length_cons]
        omega
    · simp
  · simp

theorem length_readMagnitude {negative : Bool} {cs : List Char} {n : Numeral} {rest : List Char}
    (h : readMagnitude negative cs = some (n, rest)) : rest.length < cs.length := by
  fun_cases readMagnitude negative cs with
  | case1 => simp [readMagnitude] at h
  | case2 c cs _ more fraction afterFraction hfraction exponent afterExponent hexponent =>
    simp only [readMagnitude] at h
    have hdrop : (cs.drop more.length).length ≤ cs.length := by simp
    have h1 := length_readFraction (cs.drop more.length)
    have h2 := length_readExponent afterFraction
    rw [hfraction] at h1
    rw [hexponent] at h2
    have hlast : afterExponent = rest := by
      have : (readExponent (readFraction (cs.drop more.length)).2).2 = rest := by simp_all [more]
      rwa [hfraction, hexponent] at this
    subst hlast
    simp only [List.length_cons]
    dsimp only at h1 h2
    omega
  | case3 c cs hc => simp [readMagnitude, hc] at h

theorem length_readNumeral {cs : List Char} {n : Numeral} {rest : List Char}
    (h : readNumeral cs = some (n, rest)) : rest.length < cs.length := by
  unfold readNumeral at h
  split at h
  · have := length_readMagnitude h
    simp only [List.length_cons]
    omega
  · exact length_readMagnitude h

theorem length_readToken {cs : List Char} {token : Token} {rest : List Char}
    (h : readToken cs = some (token, rest)) : rest.length < cs.length := by
  fun_cases readToken cs with
  | case10 =>
    simp only [readToken, Option.map_eq_some_iff, Prod.mk.injEq, Prod.exists] at h
    obtain ⟨pieces, rest', hread, _, rfl⟩ := h
    have := length_readString hread
    simp only [List.length_cons]
    omega
  | case11 =>
    simp only [readToken, Option.map_eq_some_iff, Prod.mk.injEq, Prod.exists] at h
    obtain ⟨n, rest', hread, _, rfl⟩ := h
    exact length_readNumeral hread
  | _ =>
    simp only [readToken, Option.some.injEq, Prod.mk.injEq] at h
    obtain ⟨_, rfl⟩ := h
    simp only [List.length_cons]
    omega

/-- The tokens of a whole text, if it consists of tokens and blanks. -/
def tokens? : List Char → Option (List Token)
  | [] => some []
  | c :: cs =>
    if isSpace c then tokens? cs
    else match _h : readToken (c :: cs) with
      | none => none
      | some (token, rest) => (tokens? rest).map (token :: ·)
termination_by cs => cs.length
decreasing_by
  · simp
  · exact length_readToken (by assumption)

end ChainExpr.Json
