import ChainExpr.Toml.Quoted
import ChainExpr.Toml.Scalar

namespace ChainExpr.Toml

def skipSpace (cs : List Char) : List Char := cs.dropWhile isSpace

/-- A comment up to the end of its line, or nothing. -/
def skipComment : List Char → List Char
  | '#' :: rest => rest.dropWhile isPlain
  | cs => cs

/-- What follows the end of a line, behind blanks and a comment. -/
def lineEnd? (cs : List Char) : Option (List Char) :=
  match skipComment (skipSpace cs) with
  | [] => some []
  | '\n' :: rest => some rest
  | '\r' :: '\n' :: rest => some rest
  | _ => none

/-- Passes over blanks, comments and line ends, at most `fuel` of each. -/
def skipLines : Nat → List Char → List Char
  | 0, cs => cs
  | fuel + 1, cs =>
    match skipComment (skipSpace cs) with
    | '\n' :: rest => skipLines fuel rest
    | '\r' :: '\n' :: rest => skipLines fuel rest
    | cs => cs

def isBareKeyChar (c : Char) : Bool := c.isAlphanum || c == '_' || c == '-'

/-- One part of a key. -/
def readKeyPart (cs : List Char) : Option (String × List Char) :=
  let bare := cs.takeWhile isBareKeyChar
  if bare = [] then (readLine cs).map fun (content, rest) => (.ofList content, rest)
  else some (.ofList bare, cs.dropWhile isBareKeyChar)

/-- The parts of a key with points between them, at most `fuel` of them. -/
def readKeyParts : Nat → List Char → Option (List String × List Char)
  | 0, _ => none
  | fuel + 1, cs => do
    let (part, rest) ← readKeyPart (skipSpace cs)
    match skipSpace rest with
    | '.' :: rest =>
      let (parts, rest) ← readKeyParts fuel rest
      return (part :: parts, rest)
    | rest => return ([part], rest)

/-- How deep values may be nested and how long keys may be, both exclusive. -/
def nestingLimit : Nat := 80

/-- A key at the head of a text. -/
def readKey (fuel : Nat) (cs : List Char) : Option (List String × List Char) :=
  (readKeyParts fuel cs).filter fun (parts, _) => parts.length < nestingLimit

mutual

/-- A value at the head of a text. -/
def readValue : Nat → Nat → List Char → Option (Toml × List Char)
  | 0, _, _ => none
  | fuel + 1, depth, cs =>
    match cs with
    | '[' :: rest =>
      if depth + 1 < nestingLimit then do
        let (items, rest) ← readItems fuel (depth + 1) rest
        return (.array items, rest)
      else none
    | '\x7b' :: rest =>
      if depth + 1 < nestingLimit then do
        let (pairs, rest) ← match skipSpace rest with
          | '\x7d' :: rest => some ([], rest)
          | rest => readPairs fuel (depth + 1) rest
        return (.table .inline (← addAll pairs []), rest)
      else none
    | c :: _ =>
      if c = '"' ∨ c = literalQuote then
        (readString cs).map fun (content, rest) => (.string (.ofList content), rest)
      else readWord cs
    | [] => none

/-- The items of an array up to its closing bracket. A comma may follow the last one. -/
def readItems : Nat → Nat → List Char → Option (List Toml × List Char)
  | 0, _, _ => none
  | fuel + 1, depth, cs =>
    match skipLines (fuel + 1) cs with
    | ']' :: rest => some ([], rest)
    | cs => do
      let (item, rest) ← readValue fuel depth cs
      match skipLines (fuel + 1) rest with
      | ']' :: rest => return ([item], rest)
      | ',' :: rest =>
        let (items, rest) ← readItems fuel depth rest
        return (item :: items, rest)
      | _ => none

/-- The pairs of an inline table up to its closing brace. -/
def readPairs : Nat → Nat → List Char → Option (List (List String × Toml) × List Char)
  | 0, _, _ => none
  | fuel + 1, depth, cs => do
    let (pair, rest) ← readPair fuel depth cs
    match skipSpace rest with
    | '\x7d' :: rest => return ([pair], rest)
    | ',' :: rest =>
      let (pairs, rest) ← readPairs fuel depth rest
      return (pair :: pairs, rest)
    | _ => none

def readPair : Nat → Nat → List Char → Option ((List String × Toml) × List Char)
  | 0, _, _ => none
  | fuel + 1, depth, cs => do
    let (key, rest) ← readKey (fuel + 1) cs
    match rest with
    | '=' :: rest =>
      let (item, rest) ← readValue fuel depth (skipSpace rest)
      return ((key, item), rest)
    | _ => none

end

/-- A header on its line, and the text from the next line on. -/
def readHeader (fuel : Nat) : List Char → Option ((Bool × List String) × List Char)
  | '[' :: '[' :: rest => do
    let (path, rest) ← readKey fuel rest
    match rest with
    | ']' :: ']' :: rest => return ((true, path), ← lineEnd? rest)
    | _ => none
  | '[' :: rest => do
    let (path, rest) ← readKey fuel rest
    match rest with
    | ']' :: rest => return ((false, path), ← lineEnd? rest)
    | _ => none
  | _ => none

/-- The pairs before the first header, and the sections. -/
def readLines : Nat → List Char → Option (List (List String × Toml) × List Section)
  | 0, _ => none
  | fuel + 1, cs =>
    match skipLines (fuel + 1) cs with
    | [] => some ([], [])
    | '[' :: rest => do
      let ((repeated, path), rest) ← readHeader (fuel + 1) ('[' :: rest)
      let (pairs, sections) ← readLines fuel rest
      return ([], ⟨repeated, path, pairs⟩ :: sections)
    | cs => do
      let (pair, rest) ← readPair (fuel + 1) 0 cs
      let (pairs, sections) ← readLines fuel (← lineEnd? rest)
      return (pair :: pairs, sections)

/-- The tree of a document. A byte order mark at its head is passed over. -/
def parse? (text : String) : Option Entries := do
  let cs := match text.toList with
    | '\ufeff' :: rest => rest
    | cs => cs
  let (top, sections) ← readLines (2 * cs.length + 2) cs
  assemble top sections

end ChainExpr.Toml
