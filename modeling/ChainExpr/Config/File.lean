import ChainExpr.Config.Settings

namespace ChainExpr

inductive ReadProblem
  | missing
  | directory
  | nameTooLong
  | nulInName
deriving DecidableEq, Repr

namespace ReadProblem

def message : ReadProblem → String
  | missing => "No such file or directory (os error 2)"
  | directory => "Is a directory (os error 21)"
  | nameTooLong => "File name too long (os error 36)"
  | nulInName => "file name contained an unexpected NUL byte"

/-- How many bytes a name in a path may have. -/
def nameLimit : Nat := 255

/-- How many bytes a path may have. -/
def pathLimit : Nat := 4095

/-- The names in a path. Of several slashes only one counts. -/
def names (path : String) : List (List Char) :=
  (path.toList.splitOnP (· == '/')).filter (· ≠ [])

/-- The problem with a path from a directory that holds nothing. Only dots lead somewhere from there,
and always to a directory. -/
def inEmptyDirectory (path : String) : ReadProblem :=
  if '\x00' ∈ path.toList then nulInName
  else if pathLimit < path.utf8ByteSize then nameTooLong
  else if path = "" then missing
  else
    match (names path).find? (fun name => name ≠ ['.'] ∧ name ≠ ['.', '.']) with
    | none => directory
    | some name =>
      if nameLimit < (String.ofList name).utf8ByteSize then nameTooLong else missing

end ReadProblem

/-- The configuration in a file, from what reading the file gave. -/
def InterpreterConfig.ofFile (path : String) (content : Except ReadProblem String) :
    Except RuntimeError InterpreterConfig :=
  match content with
  | .ok text => ofToml text
  | .error problem => .error (.configuration ("cannot read " ++ path ++ ": " ++ problem.message))

end ChainExpr
