import ChainExpr.Config.Basic
import ChainExpr.Error
import ChainExpr.Syntax.Document
import ChainExpr.Toml.Document

namespace ChainExpr

/-- What a document says, in terms that TOML and JSON share. -/
inductive Setting
  | null
  | boolean (b : Bool)
  | number (x : Float)
  | string (s : String)
  | sequence (items : List Setting)
  | record (fields : List (String × Setting))

namespace Setting

mutual

def ofJson : Json → Setting
  | .null => .null
  | .bool b => .boolean b
  | .number n => .number n.toFloat
  | .string s => .string s
  | .array items => .sequence (ofJsonItems items)
  | .object fields => .record (ofJsonFields fields)

def ofJsonItems : List Json → List Setting
  | [] => []
  | item :: rest => ofJson item :: ofJsonItems rest

def ofJsonFields : List (String × Json) → List (String × Setting)
  | [] => []
  | (name, value) :: rest => (name, ofJson value) :: ofJsonFields rest

end

mutual

/-- A date counts as a record without known fields. -/
def ofToml : Toml → Setting
  | .string s => .string s
  | .integer n => .number (Number.ofInt n)
  | .float x => .number x
  | .boolean b => .boolean b
  | .datetime => .record []
  | .array items => .sequence (ofTomlItems items)
  | .table _ entries => .record (ofTomlEntries entries)
  | .tables items => .sequence (ofTomlTables items)

def ofTomlItems : List Toml → List Setting
  | [] => []
  | item :: rest => ofToml item :: ofTomlItems rest

def ofTomlEntries : List (String × Toml) → List (String × Setting)
  | [] => []
  | (key, item) :: rest => (key, ofToml item) :: ofTomlEntries rest

def ofTomlTables : List (List (String × Toml)) → List Setting
  | [] => []
  | entries :: rest => .record (ofTomlEntries entries) :: ofTomlTables rest

end

/-- The named fields of a record. A sequence holds the first ones; whether it may hold more than there
are names depends on the format. -/
def fields? (moreItems : Bool) (names : List String) : Setting → Option (List (Option Setting))
  | .record fields => some (names.map fun name => fields.lookup name)
  | .sequence items =>
    if items.length ≤ names.length ∨ moreItems then
      some ((items.take names.length).map some ++
        List.replicate (names.length - items.length) none)
    else none
  | _ => none

/-- A field that is missing has its default. -/
def orDefault {α : Type} (default : α) (read : Setting → Option α) : Option Setting → Option α
  | none => some default
  | some setting => read setting

def boolean? : Setting → Option Bool
  | .boolean b => some b
  | _ => none

def string? : Setting → Option String
  | .string s => some s
  | _ => none

def literal? : Setting → Option Literal
  | .null => some .null
  | .boolean b => some (.boolean b)
  | .number x => some (.number x)
  | .string s => some (.string s)
  | _ => none

/-- An optional literal. Null is none. -/
def optionalLiteral? : Setting → Option (Option Literal)
  | .null => some none
  | setting => setting.literal?.map some

end Setting

open Setting

def LoggingConfig.ofSetting? (moreItems : Bool) (setting : Setting) : Option LoggingConfig := do
  match ← setting.fields? moreItems ["filter", "ansi"] with
  | [filter, ansi] =>
    return ⟨← orDefault LoggingConfig.standard.filter string? filter,
      ← orDefault LoggingConfig.standard.ansi boolean? ansi⟩
  | _ => none

def EvaluationConfig.ofSetting? (moreItems : Bool) (setting : Setting) :
    Option EvaluationConfig := do
  match ← setting.fields? moreItems ["trace_links", "default_context"] with
  | [traceLinks, defaultContext] =>
    return ⟨← orDefault EvaluationConfig.standard.traceLinks boolean? traceLinks,
      ← orDefault EvaluationConfig.standard.defaultContext optionalLiteral? defaultContext⟩
  | _ => none

namespace InterpreterConfig

def ofSetting? (moreItems : Bool) (setting : Setting) : Option InterpreterConfig := do
  match ← setting.fields? moreItems ["logging", "evaluation"] with
  | [logging, evaluation] =>
    return ⟨← orDefault .standard (LoggingConfig.ofSetting? moreItems) logging,
      ← orDefault .standard (EvaluationConfig.ofSetting? moreItems) evaluation⟩
  | _ => none

/-- The configuration that a JSON document holds. -/
def ofJson? (json : Json) : Option InterpreterConfig := ofSetting? false (.ofJson json)

/-- The configuration that a TOML text holds. Items beyond the fields of a record do not count. -/
def ofToml (text : String) : Except RuntimeError InterpreterConfig :=
  match (Toml.parse? text).bind fun entries =>
      ofSetting? true (.record (Setting.ofTomlEntries entries)) with
  | some config => .ok config
  | none => .error (.configuration "invalid configuration document")

/-- The document of a configuration, all fields in their declared order. -/
def toJson (config : InterpreterConfig) : Json :=
  .object
    [("logging", .object
        [("filter", .string config.logging.filter), ("ansi", .bool config.logging.ansi)]),
      ("evaluation", .object
        [("trace_links", .bool config.evaluation.traceLinks),
          ("default_context",
            match config.evaluation.defaultContext with
            | some literal => literal.toJson
            | none => .null)])]

end InterpreterConfig

end ChainExpr
