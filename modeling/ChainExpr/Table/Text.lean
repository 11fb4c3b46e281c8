import ChainExpr.Table
import ChainExpr.Json.Tree
import ChainExpr.Json.Printer

namespace ChainExpr

namespace Json.Tree

/-- The fields of a record, in the order of the given names. -/
def record? (names : List String) : Tree → Option (List Tree)
  | .array items => if items.length = names.length then some items else none
  | .object fields => do
    let fields ← fields.mapM fun (name, value) => (piecesString? name).map (·, value)
    names.mapM fun name =>
      match fields.filter (·.1 == name) with
      | [(_, value)] => some value
      | _ => none
  | _ => none

def text? : Tree → Option String
  | .string pieces => piecesString? pieces
  | _ => none

def items? : Tree → Option (List Tree)
  | .array items => some items
  | _ => none

/-- A row two levels below the top of a text. -/
def row? : Tree → Option Row
  | .object fields => (fieldsJson? (depthLimit - 3) fields).map sortFields
  | _ => none

end Json.Tree

open Json (Tree)

namespace Column

def ofTree? (tree : Tree) : Option Column :=
  match tree.record? ["name", "type"] with
  | some [name, type] => do return ⟨← name.text?, ← type.text?⟩
  | _ => none

def toJson (column : Column) : Json :=
  .object [("name", .string column.name), ("type", .string column.type)]

end Column

namespace SeriesColumn

def ofTree? (tree : Tree) : Option SeriesColumn :=
  match tree.record? ["type", "role", "expression"] with
  | some [type, role, expression] =>
    do return ⟨← type.text?, ← role.text?, ← expression.text?⟩
  | _ => none

def toJson (column : SeriesColumn) : Json :=
  .object [("type", .string column.type), ("role", .string column.role),
    ("expression", .string column.expression)]

end SeriesColumn

def rowsOfTree? (tree : Tree) : Option (List Row) := do (← tree.items?).mapM Tree.row?

def rowsToJson (rows : List Row) : Json := .array (rows.map .object)

namespace Datatable

def ofTree? (tree : Tree) : Option Datatable :=
  match tree.record? ["columns", "rows"] with
  | some [columns, rows] => do return ⟨← (← columns.items?).mapM Column.ofTree?, ← rowsOfTree? rows⟩
  | _ => none

/-- The table that a text holds. -/
def parse? (text : String) : Option Datatable := (Tree.parse? text).bind ofTree?

def toJson (table : Datatable) : Json :=
  .object [("columns", .array (table.columns.map Column.toJson)), ("rows", rowsToJson table.rows)]

end Datatable

namespace Pointseries

/-- The columns in the order in which their names come first. -/
def columnsOfTree? : Tree → Option (OrderedMap SeriesColumn)
  | .object fields => do
    let entries ← fields.mapM fun (name, column) => do
      return (← Json.piecesString? name, ← SeriesColumn.ofTree? column)
    return .ofList entries
  | _ => none

def ofTree? (tree : Tree) : Option Pointseries :=
  match tree.record? ["columns", "rows"] with
  | some [columns, rows] => do return ⟨← columnsOfTree? columns, ← rowsOfTree? rows⟩
  | _ => none

/-- The series that a text holds. -/
def parse? (text : String) : Option Pointseries := (Tree.parse? text).bind ofTree?

def toJson (series : Pointseries) : Json :=
  .object
    [("columns", .object (series.columns.entries.map fun (name, column) => (name, column.toJson))),
      ("rows", rowsToJson series.rows)]

end Pointseries

end ChainExpr
