namespace ChainExpr

namespace Toml

/-- How a table came to be, which decides who may still add to it. -/
inductive Origin
  /-- By a header of its own. -/
  | header
  /-- As a table on the way to one with a header. -/
  | implied
  /-- As a part of a dotted key before the last one. -/
  | dotted
  /-- Between braces. Nothing may be added to it. -/
  | inline
deriving DecidableEq, Repr

end Toml

inductive Toml
  | string (s : String)
  | integer (n : Int)
  | float (x : Float)
  | boolean (b : Bool)
  /-- A date, a time or both. -/
  | datetime
  | array (items : List Toml)
  | table (origin : Toml.Origin) (entries : List (String × Toml))
  /-- The tables under a header with double brackets. -/
  | tables (items : List (List (String × Toml)))

namespace Toml

instance : Inhabited Toml := ⟨.datetime⟩

/-- The entries of a table. -/
abbrev Entries := List (String × Toml)

/-- Puts an item in place of the one of the same key, or at the end. -/
def put (key : String) (item : Toml) : Entries → Entries
  | [] => [(key, item)]
  | (k, old) :: rest => if key = k then (k, item) :: rest else (k, old) :: put key item rest

/-- Adds a new key. No key is given twice. -/
def addNew (key : String) (item : Toml) (entries : Entries) : Option Entries :=
  match entries.lookup key with
  | some _ => none
  | none => some (entries ++ [(key, item)])

/-- Adds the item of a dotted key. Tables on the way are made as needed; those that are there must
come from dotted keys, or be implied and only passed through. -/
def addDotted (item : Toml) (last : String) : List String → Entries → Option Entries
  | [], entries => addNew last item entries
  | key :: path, entries =>
    match entries.lookup key with
    | none => do
      let inner ← addDotted item last path []
      return put key (.table .dotted inner) entries
    | some (.table .dotted inner) => do
      let inner ← addDotted item last path inner
      return put key (.table .dotted inner) entries
    | some (.table .implied inner) =>
      if path = [] then none
      else do
        let inner ← addDotted item last path inner
        return put key (.table .implied inner) entries
    | some (.tables items) =>
      if path = [] then none
      else do
        let inner ← addDotted item last path (items.getLast?.getD [])
        return put key (.tables (items.dropLast ++ [inner])) entries
    | _ => none

/-- Adds the item of a key as written, with all its parts. -/
def addKey (item : Toml) (key : List String) (entries : Entries) : Option Entries := do
  let last ← key.getLast?
  addDotted item last key.dropLast entries

/-- Changes what stands at the path of a header. Tables on the way are implied as needed; in an array
of tables the way goes through the last one. -/
def place (change : Option Toml → Option Toml) (last : String) :
    List String → Entries → Option Entries
  | [], entries => do
    let item ← change (entries.lookup last)
    return put last item entries
  | key :: path, entries =>
    match entries.lookup key with
    | none => do
      let inner ← place change last path []
      return put key (.table .implied inner) entries
    | some (.tables items) => do
      let inner ← place change last path (items.getLast?.getD [])
      return put key (.tables (items.dropLast ++ [inner])) entries
    | some (.table .inline _) => none
    | some (.table origin inner) => do
      let inner ← place change last path inner
      return put key (.table origin inner) entries
    | _ => none

/-- The key and item pairs under one header. -/
structure Section where
  /-- Whether the header has double brackets. -/
  repeated : Bool
  path : List String
  pairs : List (List String × Toml)

def addAll (pairs : List (List String × Toml)) (entries : Entries) : Option Entries :=
  pairs.foldlM (fun entries (key, item) => addKey item key entries) entries

/-- The table of a header takes over one that is only implied so far. -/
def Section.fill (part : Section) : Option Toml → Option Toml
  | none =>
    (addAll part.pairs []).map fun entries =>
      if part.repeated then .tables [entries] else .table .header entries
  | some (.table .implied inner) =>
    if part.repeated then none else (addAll part.pairs inner).map (.table .header)
  | some (.tables items) =>
    if part.repeated then (addAll part.pairs []).map fun entries => .tables (items ++ [entries])
    else none
  | _ => none

/-- The tree of a document: the pairs before the first header, then the sections in order. -/
def assemble (top : List (List String × Toml)) (sections : List Section) : Option Entries := do
  let root ← addAll top []
  sections.foldlM (fun root part => do
    let last ← part.path.getLast?
    place part.fill last part.path.dropLast root) root

end Toml

end ChainExpr
