import ChainExpr.Value.Basic
import ChainExpr.Number.Text

namespace ChainExpr.Value

mutual

/-- Strings are shown between quotes as they are; tables and functions only by what they are. -/
def shown : Value → String
  | .null => "null"
  | .boolean b => if b then "true" else "false"
  | .number x => Number.shown x
  | .string s => "\"" ++ s ++ "\""
  | .object fields => "\x7b" ++ ", ".intercalate (shownFields fields) ++ "\x7d"
  | .function callable => "#<function " ++ callable.shown ++ ">"
  | .datatable table =>
    "#<datatable " ++ toString table.columns.length ++ " columns, " ++
      toString table.rows.length ++ " rows>"
  | .pointseries series =>
    "#<pointseries " ++ toString series.columns.size ++ " columns, " ++
      toString series.rows.length ++ " rows>"
  | .render renderer value => "#<render as " ++ renderer ++ ": " ++ shown value ++ ">"

def shownFields : List (String × Value) → List String
  | [] => []
  | (name, value) :: rest => (name ++ ": " ++ shown value) :: shownFields rest

end

end ChainExpr.Value
