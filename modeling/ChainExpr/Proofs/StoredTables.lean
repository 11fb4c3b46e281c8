import ChainExpr.Proofs.DataEquality
import ChainExpr.Proofs.PrintedDocuments
import ChainExpr.Proofs.RepeatedNames
import ChainExpr.Table.Text
import Mathlib

namespace ChainExpr

namespace Json

/-- Reads items of which each is read as what it was written for. -/
theorem mapM_write {α β γ : Type} {read : β → Option γ} {write : α → β} {meant : α → γ} {items : List α}
    (h : ∀ item ∈ items, read (write item) = some (meant item)) :
    (items.map write).mapM read = some (items.map meant) := by
  induction items with
  | nil => rfl
  | cons item rest ih =>
    obtain ⟨hitem, hrest⟩ := List.forall_mem_cons.mp h
    rw [List.map_cons, List.mapM_cons, hitem, ih hrest]
    rfl

/-- Reads items of which each is read as itself or refused. -/
theorem mapM_write_if {α β : Type} {read : β → Option α} {write : α → β} {accepted : α → Prop}
    [DecidablePred accepted] {items : List α}
    (h : ∀ item ∈ items, read (write item) = if accepted item then some item else none) :
    (items.map write).mapM read = if ∀ item ∈ items, accepted item then some items else none := by
  induction items with
  | nil => simp
  | cons item rest ih =>
    obtain ⟨hitem, hrest⟩ := List.forall_mem_cons.mp h
    rw [List.map_cons, List.mapM_cons, hitem, ih hrest]
    simp only [List.forall_mem_cons]
    by_cases hall : accepted item ∧ ∀ other ∈ rest, accepted other
    · rw [if_pos hall, if_pos hall.1, if_pos hall.2]
      rfl
    · rw [if_neg hall]
      by_cases hfirst : accepted item
      · rw [if_pos hfirst, if_neg fun hlater => hall ⟨hfirst, hlater⟩]
        rfl
      · rw [if_neg hfirst]
        rfl

/-- Among distinct names each one is found once. -/
theorem filter_name {α : Type} {entries : List (String × α)} (h : (Entries.names entries).Nodup)
    {entry : String × α} (hmem : entry ∈ entries) :
    entries.filter (fun other => other.1 == entry.1) = [entry] := by
  obtain ⟨before, after, rfl⟩ := List.append_of_mem hmem
  rw [Entries.names, List.map_append, List.map_cons, List.nodup_middle, List.nodup_cons] at h
  have hothers : ∀ other ∈ before ++ after, ¬(other.1 == entry.1) = true := by
    intro other hother heq
    refine h.1 ?_
    rw [← List.map_append, ← eq_of_beq heq]
    exact List.mem_map_of_mem hother
  obtain ⟨hbefore, hafter⟩ := List.forall_mem_append.mp hothers
  rw [List.filter_append, List.filter_cons, List.filter_eq_nil_iff.mpr hbefore,
    List.filter_eq_nil_iff.mpr hafter, if_pos (beq_self_eq_true entry.1), List.nil_append]

theorem mapM_fieldTrees (fields : List (String × Json)) :
    (fieldTrees fields).mapM (fun (name, value) => (piecesString? name).map (·, value)) =
      some (fields.map fun field => (field.1, field.2.tree)) := by
  rw [fieldTrees_eq]
  exact mapM_write fun field _ => by simp [piecesString?_pieces]

/-- A record is read as its fields, whatever they are. -/
theorem record?_tree {fields : List (String × Json)} (h : (Entries.names fields).Nodup) :
    (object fields).tree.record? (Entries.names fields) = some (fields.map fun field => field.2.tree) := by
  have hnames : (Entries.names (fields.map fun field => (field.1, field.2.tree))).Nodup := by
    rw [Entries.names, List.map_map]
    exact h
  rw [tree, Tree.record?, mapM_fieldTrees, Entries.names]
  refine mapM_write fun field hfield => ?_
  have hfield' : (field.1, field.2.tree) ∈ fields.map fun field => (field.1, field.2.tree) :=
    List.mem_map_of_mem hfield
  rw [filter_name hnames hfield']

theorem text?_tree (s : String) : (string s).tree.text? = some s := piecesString?_pieces s

theorem items?_tree (items : List Json) : (array items).tree.items? = some (items.map tree) := by
  rw [tree, itemTrees_eq]
  rfl

end Json

theorem Column.ofTree?_tree (column : Column) : ofTree? column.toJson.tree = some column := by
  have hrecord : column.toJson.tree.record? ["name", "type"] =
      some [(Json.string column.name).tree, (Json.string column.type).tree] :=
    Json.record?_tree (by simp [Entries.names])
  rw [ofTree?, hrecord]
  simp [Json.text?_tree]

theorem SeriesColumn.ofTree?_tree (column : SeriesColumn) : ofTree? column.toJson.tree = some column := by
  have hrecord : column.toJson.tree.record? ["type", "role", "expression"] =
      some [(Json.string column.type).tree, (Json.string column.role).tree,
        (Json.string column.expression).tree] :=
    Json.record?_tree (by simp [Entries.names])
  rw [ofTree?, hrecord]
  simp [Json.text?_tree]

/-- The document that tables and series are written as. -/
def storedJson (columns : Json) (rows : List Row) : Json :=
  .object [("columns", columns), ("rows", rowsToJson rows)]

/-- How deep a row may be nested below the array and the record around it. -/
def rowLimit : Nat := Json.depthLimit - 3

section

variable {columns : Json} {rows : List Row}

theorem record?_storedJson (columns : Json) (rows : List Row) :
    (storedJson columns rows).tree.record? ["columns", "rows"] =
      some [columns.tree, (rowsToJson rows).tree] :=
  Json.record?_tree (by simp [Entries.names])

theorem row?_tree {row : Row} (h : (Json.object row).Legible) :
    (Json.object row).tree.row? = if Json.fieldsNesting row ≤ rowLimit then some row else none := by
  rw [Json.tree, Json.Tree.row?, Json.fieldsJson?_trees row h.field]
  change Option.map _ (if Json.fieldsNesting row ≤ rowLimit then _ else _) = _
  split
  · rw [Option.map_some, h.sortFields_eq]
  · rfl

theorem rowsOfTree?_tree (h : ∀ row ∈ rows, (Json.object row).Legible) :
    rowsOfTree? (rowsToJson rows).tree =
      if ∀ row ∈ rows, Json.fieldsNesting row ≤ rowLimit then some rows else none := by
  rw [rowsOfTree?, rowsToJson, Json.items?_tree, List.map_map]
  exact Json.mapM_write_if fun row hrow => row?_tree (h row hrow)

/-- The columns of a table or a series are never nested deeper than its rows may be. -/
theorem nesting_storedJson (hcolumns : columns.nesting ≤ 2) :
    (storedJson columns rows).nesting ≤ Json.depthLimit ↔
      ∀ row ∈ rows, Json.fieldsNesting row ≤ rowLimit := by
  have hrows : Json.itemsNesting (rows.map .object) ≤ Json.depthLimit - 2 ↔
      ∀ row ∈ rows, Json.fieldsNesting row ≤ rowLimit := by
    rw [Json.itemsNesting_le, List.forall_mem_map]
    refine forall₂_congr fun row _ => ?_
    rw [Json.nesting, rowLimit, Json.depthLimit]
    omega
  rw [← hrows, storedJson, rowsToJson, Json.nesting, Json.fieldsNesting, Json.fieldsNesting,
    Json.fieldsNesting, Json.nesting, Json.depthLimit]
  omega

theorem numbered_storedJson (hcolumns : columns.Numbered) (h : ∀ row ∈ rows, (Json.object row).Legible) :
    (storedJson columns rows).Numbered := by
  have hrows : (rowsToJson rows).Numbered :=
    Json.numbered_array (List.forall_mem_map.mpr fun row hrow => (h row hrow).wellFormed.numbered)
  exact Json.numbered_object (by simp [hcolumns, hrows])

end

namespace Datatable

/-- The columns of a table as they are written. -/
def columnsJson (columns : List Column) : Json := .array (columns.map Column.toJson)

theorem columnsJson_nesting (columns : List Column) : (columnsJson columns).nesting ≤ 2 := by
  have hcolumns : Json.itemsNesting (columns.map Column.toJson) ≤ 1 := by
    rw [Json.itemsNesting_le, List.forall_mem_map]
    intro column _
    simp [Column.toJson, Json.nesting, Json.fieldsNesting]
  exact Nat.succ_le_succ hcolumns

theorem columnsJson_numbered (columns : List Column) : (columnsJson columns).Numbered := by
  refine Json.numbered_array (List.forall_mem_map.mpr fun column _ => Json.numbered_object ?_)
  simp [Json.numbered_string]

theorem columnsJson_tree (columns : List Column) : ∃ items,
    (columnsJson columns).tree.items? = some items ∧ items.mapM Column.ofTree? = some columns := by
  refine ⟨_, Json.items?_tree _, ?_⟩
  rw [List.map_map]
  exact (Json.mapM_write fun column _ => column.ofTree?_tree).trans (congrArg some (List.map_id' columns))

theorem toJson_eq (table : Datatable) :
    table.toJson = storedJson (columnsJson table.columns) table.rows := rfl

/-- A table is read again from its text, unless its rows are nested too deep. -/
theorem parse?_text {table : Datatable} (h : ∀ row ∈ table.rows, (Json.object row).Legible) :
    parse? table.toJson.text =
      if table.toJson.nesting ≤ Json.depthLimit then some table else none := by
  have htree := (numbered_storedJson (columnsJson_numbered table.columns) h).parse?_text
  have hnesting := @nesting_storedJson _ table.rows (columnsJson_nesting table.columns)
  obtain ⟨items, hitems, hcolumns⟩ := columnsJson_tree table.columns
  simp only [toJson_eq, hnesting]
  rw [parse?, htree, Option.bind_some, ofTree?, record?_storedJson]
  simp only [rowsOfTree?_tree h, hitems, hcolumns, Option.bind_eq_bind, Option.bind_some]
  split
  · rfl
  · rfl

end Datatable

namespace Pointseries

/-- The columns of a series as they are written. -/
def columnsJson (columns : OrderedMap SeriesColumn) : Json :=
  .object (columns.entries.map fun (name, column) => (name, column.toJson))

theorem columnsJson_nesting (columns : OrderedMap SeriesColumn) : (columnsJson columns).nesting ≤ 2 := by
  have hcolumns : Json.fieldsNesting
      (columns.entries.map fun (name, column) => (name, column.toJson)) ≤ 1 := by
    rw [Json.fieldsNesting_le, List.forall_mem_map]
    intro entry _
    simp [SeriesColumn.toJson, Json.nesting, Json.fieldsNesting]
  exact Nat.succ_le_succ hcolumns

theorem columnsJson_numbered (columns : OrderedMap SeriesColumn) : (columnsJson columns).Numbered := by
  refine Json.numbered_object (List.forall_mem_map.mpr fun entry _ => Json.numbered_object ?_)
  simp [Json.numbered_string]

theorem mapM_columnsJson (columns : OrderedMap SeriesColumn) :
    (Json.fieldTrees (columns.entries.map fun (name, column) => (name, column.toJson))).mapM
      (fun (name, column) => do return (← Json.piecesString? name, ← SeriesColumn.ofTree? column)) =
        some columns.entries := by
  rw [Json.fieldTrees_eq, List.map_map]
  refine (Json.mapM_write fun entry _ => ?_).trans (congrArg some (List.map_id' columns.entries))
  simp [Json.piecesString?_pieces, SeriesColumn.ofTree?_tree]

theorem columnsOfTree?_tree (columns : OrderedMap SeriesColumn) :
    columnsOfTree? (columnsJson columns).tree = some columns := by
  rw [columnsJson, Json.tree, columnsOfTree?, mapM_columnsJson]
  simp [OrderedMap.ofList_entries]

theorem toJson_eq (series : Pointseries) :
    series.toJson = storedJson (columnsJson series.columns) series.rows := rfl

/-- A series is read again from its text, unless its rows are nested too deep. -/
theorem parse?_text {series : Pointseries} (h : ∀ row ∈ series.rows, (Json.object row).Legible) :
    parse? series.toJson.text =
      if series.toJson.nesting ≤ Json.depthLimit then some series else none := by
  have htree := (numbered_storedJson (columnsJson_numbered series.columns) h).parse?_text
  have hnesting := @nesting_storedJson _ series.rows (columnsJson_nesting series.columns)
  simp only [toJson_eq, hnesting]
  rw [parse?, htree, Option.bind_some, ofTree?, record?_storedJson]
  simp only [rowsOfTree?_tree h, columnsOfTree?_tree, Option.bind_eq_bind, Option.bind_some]
  split
  · rfl
  · rfl

end Pointseries

theorem Json.WellFormed.not_hasNaN {document : Json} (h : document.WellFormed) : ¬document.HasNaN := by
  intro hnan
  induction hnan with
  | float hnone =>
    cases h with
    | number range => exact absurd range (Number.isNaN_iff.mp hnone).not_gt
  | item mem _ ih =>
    cases h with
    | array inside => exact ih (inside _ mem)
  | field mem _ ih =>
    cases h with
    | object _ inside => exact ih (inside _ mem)

theorem not_rowsHaveNaN {rows : List Row} (h : ∀ row ∈ rows, (Json.object row).Legible) :
    ¬RowsHaveNaN rows := by
  rintro ⟨row, hrow, field, hfield, hnan⟩
  exact (h row hrow).wellFormed.not_hasNaN (.field hfield hnan)

namespace Pointseries

/-- The columns that a text lists, each as often as its name is repeated. -/
def Lists (fields : List (List Json.Piece × Json.Tree)) (given : List (String × SeriesColumn)) : Prop :=
  List.Forall₂ (fun field column => Json.piecesString? field.1 = some column.1 ∧
    SeriesColumn.ofTree? field.2 = some column.2) fields given

theorem lists_of_mapM {fields : List (List Json.Piece × Json.Tree)} {given : List (String × SeriesColumn)}
    (h : fields.mapM (fun (name, column) => do
      return (← Json.piecesString? name, ← SeriesColumn.ofTree? column)) = some given) :
    Lists fields given := by
  induction fields generalizing given with
  | nil =>
    cases h
    exact .nil
  | cons field rest ih =>
    obtain ⟨pieces, tree⟩ := field
    simp only [List.mapM_cons, Option.bind_eq_bind, Option.bind_eq_some_iff] at h
    obtain ⟨first, ⟨name, hname, column, hcolumn, hfirst⟩, later, hlater, hsame⟩ := h
    cases hfirst
    cases hsame
    exact .cons ⟨hname, hcolumn⟩ (ih hlater)

/-- A series that is read from a text has the columns that the text lists, put in one after the other. -/
theorem exists_listed {text : String} {series : Pointseries} (h : parse? text = some series) :
    ∃ fields rows given,
      (Json.Tree.parse? text).bind (Json.Tree.record? ["columns", "rows"]) =
        some [.object fields, rows] ∧
      Lists fields given ∧ series.columns = .ofList given ∧ rowsOfTree? rows = some series.rows := by
  obtain ⟨tree, htree, hseries⟩ := Option.bind_eq_some_iff.mp h
  rw [htree, Option.bind_some]
  rw [ofTree?] at hseries
  split at hseries
  case h_2 => cases hseries
  case h_1 columns rows hrecord =>
    simp only [Option.bind_eq_bind, Option.bind_eq_some_iff] at hseries
    obtain ⟨found, hcolumns, list, hrows, hsame⟩ := hseries
    cases hsame
    rw [columnsOfTree?.eq_def] at hcolumns
    split at hcolumns
    case h_2 => cases hcolumns
    case h_1 fields =>
      obtain ⟨given, hgiven, hfound⟩ := Option.bind_eq_some_iff.mp hcolumns
      cases hfound
      exact ⟨fields, rows, given, hrecord, lists_of_mapM hgiven, rfl, hrows⟩

theorem names_toDatatable (series : Pointseries) :
    series.toDatatable.columns.map Column.name = series.columns.names := by
  rw [toDatatable, List.map_map]
  rfl

theorem type_toDatatable {series : Pointseries} {column : Column}
    (h : column ∈ series.toDatatable.columns) :
    ∃ found, series.columns.get? column.name = some found ∧ column.type = found.type := by
  obtain ⟨⟨name, found⟩, hentry, rfl⟩ := List.mem_map.mp h
  exact ⟨found, (Json.mem_iff_lookup series.columns.nodup_names).mp hentry, rfl⟩

end Pointseries

/-- Tables and series survive their text. Whatever their strings hold, if no number of their rows is lost
in its own text and no row is nested deeper than documents may be, the text is read as an equal table or
series, with its columns and its rows in their order, and is written again as the same text; a row that is
nested deeper makes the text unreadable. A series that is read from any text becomes a table with one
column for each of its columns: where the text names it first, with the type that the text gives it last,
above just the rows of the text. -/
theorem stored_tables_survive :
    (∀ table : Datatable, (∀ row ∈ table.rows, (Json.object row).Legible) →
      (table.toJson.nesting ≤ Json.depthLimit → ∃ decoded,
        Datatable.parse? table.toJson.text = some decoded ∧ (decoded == table) = true ∧
        decoded.columns = table.columns ∧ decoded.rows = table.rows ∧
        decoded.toJson.text = table.toJson.text) ∧
      (Json.depthLimit < table.toJson.nesting → Datatable.parse? table.toJson.text = none)) ∧
    (∀ series : Pointseries, (∀ row ∈ series.rows, (Json.object row).Legible) →
      (series.toJson.nesting ≤ Json.depthLimit → ∃ decoded,
        Pointseries.parse? series.toJson.text = some decoded ∧ (decoded == series) = true ∧
        decoded.columns.entries = series.columns.entries ∧ decoded.rows = series.rows ∧
        decoded.toJson.text = series.toJson.text) ∧
      (Json.depthLimit < series.toJson.nesting → Pointseries.parse? series.toJson.text = none)) ∧
    ∀ text series, Pointseries.parse? text = some series → ∃ fields rows given,
      (Json.Tree.parse? text).bind (Json.Tree.record? ["columns", "rows"]) =
        some [.object fields, rows] ∧
      Pointseries.Lists fields given ∧
      series.toDatatable.columns.map Column.name = series.columns.names ∧
      series.toDatatable.columns.map Column.name = (Entries.names given).eraseDups ∧
      (∀ column ∈ series.toDatatable.columns, ∃ last,
        given.reverse.lookup column.name = some last ∧ column.type = last.type) ∧
      series.toDatatable.rows = series.rows ∧ rowsOfTree? rows = some series.toDatatable.rows := by
  refine ⟨fun table hrows => ⟨fun hnesting => ?_, fun hnesting => ?_⟩,
    fun series hrows => ⟨fun hnesting => ?_, fun hnesting => ?_⟩, fun text series hparse => ?_⟩
  · refine ⟨table, ?_, table.equates.self.mpr (not_rowsHaveNaN hrows), rfl, rfl, rfl⟩
    rw [Datatable.parse?_text hrows, if_pos hnesting]
  · rw [Datatable.parse?_text hrows, if_neg hnesting.not_ge]
  · refine ⟨series, ?_, series.equates.self.mpr (not_rowsHaveNaN hrows), rfl, rfl, rfl⟩
    rw [Pointseries.parse?_text hrows, if_pos hnesting]
  · rw [Pointseries.parse?_text hrows, if_neg hnesting.not_ge]
  · obtain ⟨fields, rows, given, hrecord, hlists, hcolumns, hrows⟩ := Pointseries.exists_listed hparse
    have hnames := series.names_toDatatable
    refine ⟨fields, rows, given, hrecord, hlists, hnames, ?_, fun column hcolumn => ?_, rfl, hrows⟩
    · rw [hnames, hcolumns, OrderedMap.names_ofList]
    · obtain ⟨found, hfound, htype⟩ := Pointseries.type_toDatatable hcolumn
      rw [hcolumns, OrderedMap.get?_ofList] at hfound
      exact ⟨found, hfound, htype⟩

namespace Stock

/-- A row with a fraction, and with a list below it. -/
def measured : Row :=
  [("x", .string "a\x01\"b"), ("y", .array [.number (.float 2.5), .number (.integer (-7))])]

/-- A series whose columns stand against the order of their names, which are not plain. -/
def measurements : Pointseries where
  columns := .ofList [("y\n", ⟨"number", "measure", "größe\\2"⟩), ("x", ⟨"string", "dimension", ""⟩)]
  rows := [measured, []]

/-- A text that gives one column twice. -/
def columnTwice : String :=
  "\x7b\"columns\":\x7b\"y\":[\"number\",\"measure\",\"a\"],\"x\":[\"string\",\"dimension\",\"b\"]," ++
    "\"y\":[\"boolean\",\"measure\",\"c\"]\x7d,\"rows\":[\x7b\x7d]\x7d"

theorem parse?_columnTwice : Pointseries.parse? columnTwice =
    some ⟨.ofList [("y", ⟨"boolean", "measure", "c"⟩), ("x", ⟨"string", "dimension", "b"⟩)], [[]]⟩ := by
  cbv

theorem survives_fraction : (JsonNumber.float 2.5).Survives := by
  have hfinite : (JsonNumber.float 2.5).WellFormed := by
    change Number.rank 2.5 < Number.infinityRank
    decide +kernel
  have hnumeral : (JsonNumber.float 2.5).numeral = ⟨false, ['2'], ['5'], none⟩ := by decide +kernel
  have hquotient : Json.lower (Number.ofInt 25) 1 = 2.5 := by decide +kernel
  have hvalue : Json.Numeral.value? ⟨false, ['2'], ['5'], none⟩ =
      some (.float (Json.lower (Number.ofInt 25) 1)) := rfl
  rw [hfinite.survives_iff, hnumeral, hvalue, hquotient]

theorem legible_measured : (Json.object measured).Legible where
  wellFormed := by
    have hfinite : Number.rank 2.5 < Number.infinityRank := by decide +kernel
    have hitems : (Json.array [.number (.float 2.5), .number (.integer (-7))]).WellFormed := by
      refine .array (List.forall_mem_cons.mpr ⟨.number hfinite, List.forall_mem_singleton.mpr (.number ?_)⟩)
      simp [JsonNumber.WellFormed]
    refine .object ?_ (List.forall_mem_cons.mpr ⟨.string _, List.forall_mem_singleton.mpr hitems⟩)
    decide
  floats := by
    intro x hx
    cases hx with
    | field mem inside =>
      simp only [measured, List.mem_cons, List.not_mem_nil, or_false] at mem
      rcases mem with rfl | rfl
      · cases inside
      · cases inside with
        | item mem inside =>
          simp only [List.mem_cons, List.not_mem_nil, or_false] at mem
          rcases mem with rfl | rfl
          · cases inside
            exact survives_fraction
          · cases inside

end Stock

/-- The series and its table are written with strings that have to be escaped. The column that a text
gives twice is the first one, with its second type. -/
theorem stored_tables_survive_measured :
    (∀ row ∈ Stock.measurements.rows, (Json.object row).Legible) ∧
    Stock.measurements.toJson.nesting ≤ Json.depthLimit ∧
    (∃ decoded, Pointseries.parse? Stock.measurements.toJson.text = some decoded ∧
      (decoded == Stock.measurements) = true ∧ decoded.columns.names = ["y\n", "x"] ∧
      decoded.rows = Stock.measurements.rows) ∧
    (∃ decoded, Datatable.parse? Stock.measurements.toDatatable.toJson.text = some decoded ∧
      decoded.columns = [⟨"y\n", "number"⟩, ⟨"x", "string"⟩] ∧
      decoded.rows = Stock.measurements.rows) ∧
    ∃ series, Pointseries.parse? Stock.columnTwice = some series ∧
      series.toDatatable.columns.map Column.name = ["y", "x"] ∧
      ∃ fields rows given,
        (Json.Tree.parse? Stock.columnTwice).bind (Json.Tree.record? ["columns", "rows"]) =
          some [.object fields, rows] ∧ Pointseries.Lists fields given ∧
        (Entries.names given).eraseDups = ["y", "x"] ∧
        ∃ last, given.reverse.lookup "y" = some last ∧ last.type = "boolean" := by
  have hrows : ∀ row ∈ Stock.measurements.rows, (Json.object row).Legible := by
    refine List.forall_mem_cons.mpr ⟨Stock.legible_measured, List.forall_mem_singleton.mpr ⟨?_, ?_⟩⟩
    · exact .object .nil (by simp)
    · rintro x (_ | _ | ⟨mem, _⟩)
      cases mem
  have hnesting : Stock.measurements.toJson.nesting ≤ Json.depthLimit := by decide
  obtain ⟨decoded, hparse, hequal, hcolumns, hsame, -⟩ :=
    (stored_tables_survive.2.1 Stock.measurements hrows).1 hnesting
  obtain ⟨table, hparse', -, hcolumns', hsame', -⟩ :=
    (stored_tables_survive.1 Stock.measurements.toDatatable hrows).1 (by decide)
  obtain ⟨fields, rows, given, hrecord, hlists, -, hnames, htypes, -, -⟩ :=
    stored_tables_survive.2.2 Stock.columnTwice _ Stock.parse?_columnTwice
  refine ⟨hrows, hnesting, ⟨decoded, hparse, hequal, ?_, hsame⟩, ⟨table, hparse', hcolumns', hsame'⟩,
    _, Stock.parse?_columnTwice, rfl, fields, rows, given, hrecord, hlists, hnames.symm, ?_⟩
  · rw [OrderedMap.names, hcolumns]
    rfl
  · obtain ⟨last, hlast, htype⟩ := htypes ⟨"y", "boolean"⟩ List.mem_cons_self
    exact ⟨last, hlast, htype.symm⟩

end ChainExpr
