import ChainExpr.Number.Text
import ChainExpr.Text.Blank
import ChainExpr.Types.Registry

namespace ChainExpr

namespace Conversion

/-- A conversion that is not reported. -/
def standard (convert : Value → Except RuntimeError Value) : Conversion := ⟨convert, false⟩

/-- The failure of a conversion from `expected` on a value of another type. -/
def unexpected (expected : TypeName) (value : Value) : Except RuntimeError Value :=
  .error (.function ("cast:" ++ expected.text) ("conversion received '" ++ value.type.text ++ "'"))

/-- Null stands for the blank value of a type. -/
def blank (value : Value) : Conversion := standard fun _ => .ok value

def numberToBoolean : Conversion := standard fun
  | .number x => .ok (.boolean (x != 0 && !x.isNaN))
  | value => unexpected .number value

def stringToBoolean : Conversion := standard fun
  | .string s => .ok (.boolean (!s.isEmpty))
  | value => unexpected .string value

def booleanToNumber : Conversion := standard fun
  | .boolean b => .ok (.number (if b then 1 else 0))
  | value => unexpected .boolean value

/-- The number that a text says. Blanks around it do not count, and blank text is zero. -/
def textNumber? (s : String) : Option Float :=
  match Text.trim s.toList with
  | [] => some 0
  | numeral => Number.ofChars? numeral

def stringToNumber : Conversion := standard fun
  | .string s =>
    match textNumber? s with
    | some x => .ok (.number x)
    | none => .error (.function "cast:number" ("'" ++ s ++ "' is not a number"))
  | value => unexpected .string value

def booleanToString : Conversion := standard fun
  | .boolean b => .ok (.string (if b then "true" else "false"))
  | value => unexpected .boolean value

def numberToString : Conversion := standard fun
  | .number x => .ok (.string (Number.shown x))
  | value => unexpected .number value

def seriesToDatatable : Conversion := standard fun
  | .pointseries series => .ok (.datatable series.toDatatable)
  | value => unexpected .pointseries value

def datatableToRender : Conversion := standard fun
  | .datatable table => .ok (.render "table" (.datatable table))
  | value => unexpected .datatable value

def seriesToRender : Conversion := standard fun
  | .pointseries series => .ok (.render "table" (.datatable series.toDatatable))
  | value => unexpected .pointseries value

end Conversion

namespace TypeDescriptor
open Conversion

def standardBoolean : TypeDescriptor :=
  bare .boolean
    |>.castFrom .null (blank (.boolean false))
    |>.castFrom .number numberToBoolean
    |>.castFrom .string stringToBoolean

def standardNumber : TypeDescriptor :=
  bare .number
    |>.castFrom .null (blank (.number 0))
    |>.castFrom .boolean booleanToNumber
    |>.castFrom .string stringToNumber

def standardString : TypeDescriptor :=
  bare .string
    |>.castFrom .null (blank (.string ""))
    |>.castFrom .boolean booleanToString
    |>.castFrom .number numberToString

def standardDatatable : TypeDescriptor :=
  bare .datatable
    |>.castFrom .null (blank (.datatable .empty))
    |>.castFrom .pointseries seriesToDatatable
    |>.castTo .render datatableToRender

def standardPointseries : TypeDescriptor :=
  bare .pointseries
    |>.castFrom .null (blank (.pointseries .empty))
    |>.castTo .render seriesToRender

/-- Objects and functions are not declared: they convert to nothing and nothing to them. -/
def standardAll : List TypeDescriptor :=
  [bare .null, standardBoolean, standardNumber, standardString, standardDatatable,
    standardPointseries, bare .render]

end TypeDescriptor

/-- The registry of the standard types. -/
def TypeRegistry.standard : TypeRegistry := empty.registerAll TypeDescriptor.standardAll

end ChainExpr
