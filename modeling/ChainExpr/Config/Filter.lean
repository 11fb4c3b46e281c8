import ChainExpr.Config.Basic
import ChainExpr.Error
import ChainExpr.Text.Alphanumeric
import ChainExpr.Text.Blank

namespace ChainExpr.LogFilter

inductive FilterError
  /-- A directive starts with a character that starts neither a level nor a target, or its brackets do
  not match. -/
  | directive
  /-- What follows the equals sign is no level. -/
  | level
deriving DecidableEq, Repr

def FilterError.message : FilterError → String
  | .directive => "invalid filter directive"
  | .level =>
    "error parsing level filter: expected one of \"off\", \"error\", \"warn\", \"info\", \"debug\", " ++
      "\"trace\", or a number 0-5"

def levelNames : List (List Char) :=
  ["off", "error", "warn", "info", "debug", "trace"].map String.toList

/-- Whether a text is a level: nothing, a name in any case, or a number up to five. -/
def isLevel (cs : List Char) : Bool :=
  let digits := match cs with
    | '+' :: rest => rest
    | cs => cs
  cs.isEmpty || levelNames.contains (cs.map Char.toLower) ||
    (!digits.isEmpty && digits.all Char.isDigit && Nat.ofDigitChars 10 digits 0 ≤ 5)

/-- The characters that a directive may start with. -/
def startsDirective (c : Char) : Bool :=
  Text.isAlphanumeric c || c == '-' || c == ':' || c == '_'

/-- Where a reader of a directive stands before its level. -/
inductive Position
  | target
  | span
  /-- In a field that is empty so far, or is not. -/
  | field (isEmpty : Bool)
  | behindFields
  | behindSpan
deriving DecidableEq, Repr

/-- What follows the equals sign before the level, if there is one. -/
def levelText : Position → List Char → Except FilterError (Option (List Char))
  | .target, [] | .behindSpan, [] => .ok none
  | .target, '=' :: rest | .behindSpan, '=' :: rest => .ok (some rest)
  | .target, '[' :: rest => levelText .span rest
  | .target, _ :: rest => levelText .target rest
  | .span, ']' :: rest => levelText .behindSpan rest
  | .span, '\x7b' :: rest => levelText (.field true) rest
  | .span, _ :: rest => levelText .span rest
  | .field false, '\x7d' :: rest => levelText .behindFields rest
  | .field true, '\x7d' :: _ => .error .directive
  | .field _, _ :: rest => levelText (.field false) rest
  | .behindFields, ']' :: rest => levelText .behindSpan rest
  | _, _ => .error .directive

/-- Checks one directive. Its parts are found without the blanks around it; the level is what stands in
the same place of the text with the blanks. -/
def checkDirective (cs : List Char) : Except FilterError Unit :=
  match Text.trim cs with
  | [] => if cs = [] then .ok () else .error .directive
  | c :: rest =>
    if c = '[' ∨ startsDirective c then
      match levelText .target (c :: rest) with
      | .ok (some level) =>
        if isLevel (cs.drop (rest.length + 1 - level.length)) then .ok () else .error .level
      | .ok none => .ok ()
      | .error error => .error error
    else .error .directive

/-- The directives between commas. -/
def directives (cs : List Char) : List (List Char) := cs.splitOnP (· == ',')

def check (filter : String) : Except FilterError Unit :=
  (directives filter.toList).forM checkDirective

end ChainExpr.LogFilter

namespace ChainExpr.LoggingConfig

/-- Starts logging with the configured filter, unless it was started before. Says whether it was
started now. -/
def start (config : LoggingConfig) (started : Bool) : Except RuntimeError Bool :=
  match LogFilter.check config.filter with
  | .ok () => .ok !started
  | .error error =>
    .error (.configuration ("invalid log filter '" ++ config.filter ++ "': " ++ error.message))

end ChainExpr.LoggingConfig
