import ChainExpr.OrderedMap
import ChainExpr.Json.Basic

namespace ChainExpr

/-- A row holds its fields sorted by name. -/
abbrev Row := List (String × Json)

structure Column where
  name : String
  type : String
deriving DecidableEq, Repr

/-- Rows under ordered columns. -/
structure Datatable where
  columns : List Column
  rows : List Row

/-- What a dimension of a series is: the type of its values, whether it is a dimension or a measure,
and the expression it comes from. -/
structure SeriesColumn where
  type : String
  role : String
  expression : String
deriving DecidableEq, Repr

/-- Rows projected onto named dimensions. -/
structure Pointseries where
  columns : OrderedMap SeriesColumn
  rows : List Row

def beqRows : List Row → List Row → Bool
  | [], [] => true
  | a :: as, b :: bs => Json.beqFields a b && beqRows as bs
  | _, _ => false

namespace Datatable

def empty : Datatable := ⟨[], []⟩

instance : Inhabited Datatable := ⟨empty⟩

protected def beq (a b : Datatable) : Bool := a.columns == b.columns && beqRows a.rows b.rows

instance : BEq Datatable := ⟨Datatable.beq⟩

end Datatable

namespace Pointseries

def empty : Pointseries := ⟨∅, []⟩

instance : Inhabited Pointseries := ⟨empty⟩

/-- The columns of a series are compared by name, whatever their order. -/
protected def beq (a b : Pointseries) : Bool :=
  a.columns.size == b.columns.size &&
    a.columns.entries.all (fun (name, column) => b.columns.get? name == some column) &&
    beqRows a.rows b.rows

instance : BEq Pointseries := ⟨Pointseries.beq⟩

/-- The table with the names and types of the columns and the same rows. -/
def toDatatable (series : Pointseries) : Datatable where
  columns := series.columns.entries.map fun (name, column) => ⟨name, column.type⟩
  rows := series.rows

end Pointseries

end ChainExpr
