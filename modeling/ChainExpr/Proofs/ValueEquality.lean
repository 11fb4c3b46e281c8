import ChainExpr.Proofs.DataEquality
import ChainExpr.Proofs.Likeness
import ChainExpr.Proofs.SettingAside

namespace ChainExpr

namespace Callable

/-- What function values are told apart by: the number of a creation or a name. -/
def identity : Callable → Nat ⊕ String
  | .deferred _ serial _ => .inl serial
  | .reference name => .inr name

theorem beq_iff {a b : Callable} : (a == b) = true ↔ a.identity = b.identity := by
  change Callable.beq a b = true ↔ _
  cases a <;> cases b <;> simp [Callable.beq, identity]

theorem equates (callable : Callable) : Equates (· == ·) False callable :=
  .of_key identity (fun _ _ => beq_iff) callable

end Callable

namespace Value

theorem induction {value : Value → Prop} (null : value .null) (boolean : ∀ b, value (.boolean b))
    (number : ∀ x, value (.number x)) (string : ∀ s, value (.string s))
    (object : ∀ fields, (∀ field ∈ fields, value field.2) → value (.object fields))
    (function : ∀ callable, value (.function callable)) (datatable : ∀ table, value (.datatable table))
    (pointseries : ∀ series, value (.pointseries series))
    (render : ∀ renderer inside, value inside → value (.render renderer inside))
    (root : Value) : value root :=
  @Value.rec value (fun fields => ∀ field ∈ fields, value field.2) (fun field => value field.2)
    null boolean number string object function datatable pointseries render (by simp)
    (fun _ _ hhead hrest => List.forall_mem_cons.mpr ⟨hhead, hrest⟩) (fun _ _ h => h) root

/-- A NaN occurs in the value. -/
inductive HasNaN : Value → Prop
  | number {x : Float} (none : x.isNaN = true) : HasNaN (.number x)
  | field {fields : List (String × Value)} {field : String × Value} (mem : field ∈ fields)
      (inside : HasNaN field.2) : HasNaN (.object fields)
  | datatable {table : Datatable} (rows : RowsHaveNaN table.rows) : HasNaN (.datatable table)
  | pointseries {series : Pointseries} (rows : RowsHaveNaN series.rows) : HasNaN (.pointseries series)
  | render {renderer : String} {value : Value} (inside : HasNaN value) : HasNaN (.render renderer value)

mutual

/-- No object in the value has two fields of one name. -/
def Distinct : Value → Prop
  | .object fields => (Entries.names fields).Nodup ∧ FieldsDistinct fields
  | .render _ value => value.Distinct
  | _ => True

def FieldsDistinct : List (String × Value) → Prop
  | [] => True
  | (_, value) :: rest => value.Distinct ∧ FieldsDistinct rest

end

theorem fieldsDistinct_iff {fields : List (String × Value)} :
    FieldsDistinct fields ↔ ∀ field ∈ fields, field.2.Distinct := by
  induction fields with
  | nil => simp [FieldsDistinct]
  | cons field rest ih => rw [FieldsDistinct, ih, List.forall_mem_cons]

theorem beqFields_eq (fields others : List (String × Value)) : beqFields fields others =
    fields.all fun field => (others.lookup field.1).any (Value.beq field.2) := by
  induction fields with
  | nil => rw [beqFields, List.all_nil]
  | cons field rest ih =>
    obtain ⟨name, value⟩ := field
    rw [beqFields, List.all_cons, ih]
    cases others.lookup name <;> rfl

theorem beq_object (fields others : List (String × Value)) :
    Value.beq (.object fields) (.object others) = Entries.beq Value.beq fields others := by
  rw [Value.beq, Entries.beq, beqFields_eq]

/-- Only values of one type are equal. -/
theorem type_of_beq {a b : Value} (h : (a == b) = true) : a.type = b.type := by
  change Value.beq a b = true at h
  cases a <;> cases b <;> first | rfl | simp [Value.beq] at h

theorem equates {value : Value} (h : value.Distinct) : Equates Value.beq value.HasNaN value := by
  induction value using Value.induction with
  | null =>
    refine @Equates.under Unit Value _ _ _ _ (fun _ => .null) () (fun _ _ => by rw [Value.beq]; rfl)
      (fun _ c h => ?_) (iff_of_false nofun id) (.of_lawful ())
    cases c <;> simp_all [Value.beq]
  | boolean b =>
    refine .under (fun _ _ => by rw [Value.beq]) (fun _ c h => ?_) (iff_of_false nofun id) (.of_lawful b)
    cases c <;> simp_all [Value.beq]
  | number x =>
    refine .under (fun _ _ => by rw [Value.beq]) (fun _ c h => ?_) ⟨fun h => ?_, .number⟩ (.float x)
    · cases c <;> simp_all [Value.beq]
    · cases h
      assumption
  | string s =>
    refine .under (fun _ _ => by rw [Value.beq]) (fun _ c h => ?_) (iff_of_false nofun id) (.of_lawful s)
    cases c <;> simp_all [Value.beq]
  | object fields ih =>
    rw [Distinct, fieldsDistinct_iff] at h
    refine .under beq_object (fun _ c h => ?_) ⟨fun h => ?_, fun h => ?_⟩
      (Entries.equates h.1 fun field hmem => ih field hmem (h.2 field hmem))
    · cases c <;> simp_all [Value.beq]
    · cases h with
      | field mem inside => exact ⟨_, mem, inside⟩
    · obtain ⟨field, mem, inside⟩ := h
      exact .field mem inside
  | function callable =>
    refine .under (fun _ _ => by rw [Value.beq]) (fun _ c h => ?_) (iff_of_false nofun id)
      callable.equates
    cases c <;> simp_all [Value.beq]
  | datatable table =>
    refine .under (fun _ _ => by rw [Value.beq]; rfl) (fun _ c h => ?_) ⟨fun h => ?_, .datatable⟩ table.equates
    · cases c <;> simp_all [Value.beq]
    · cases h
      assumption
  | pointseries series =>
    refine .under (fun _ _ => by rw [Value.beq]; rfl) (fun _ c h => ?_) ⟨fun h => ?_, .pointseries⟩
      series.equates
    · cases c <;> simp_all [Value.beq]
    · cases h
      assumption
  | render renderer inside ih =>
    refine @Equates.under (String × Value) Value _ _ _ _ (fun render => .render render.1 render.2)
      (renderer, inside) (fun _ _ => by rw [Value.beq]) (fun _ c h => ?_) ⟨fun h => ?_, fun h => ?_⟩
      (.prod (.of_lawful renderer) (ih (by rwa [Distinct] at h)))
    · cases c <;> simp_all [Value.beq]
    · cases h with
      | render inside => exact .inr inside
    · exact .render (h.resolve_left id)

theorem beq_self_iff {a : Value} (h : a.Distinct) : (a == a) = true ↔ ¬a.HasNaN := (equates h).self

/-- Somewhere in the value, the fields of objects or the columns of series are in another order. -/
inductive Rearranged : Value → Value → Prop
  | fields {fields others : List (String × Value)} (perm : fields.Perm others) :
      Rearranged (.object fields) (.object others)
  | columns {series other : Pointseries} (perm : series.columns.entries.Perm other.columns.entries)
      (rows : series.rows = other.rows) : Rearranged (.pointseries series) (.pointseries other)
  | field (before after : List (String × Value)) (name : String) {value other : Value}
      (inside : Rearranged value other) :
      Rearranged (.object (before ++ (name, value) :: after)) (.object (before ++ (name, other) :: after))
  | render (renderer : String) {value other : Value} (inside : Rearranged value other) :
      Rearranged (.render renderer value) (.render renderer other)
  | trans {a b c : Value} (first : Rearranged a b) (second : Rearranged b c) : Rearranged a c

namespace Rearranged

variable {a b : Value}

theorem distinct (h : Rearranged a b) (ha : a.Distinct) : b.Distinct := by
  induction h with
  | fields perm =>
    rw [Distinct, fieldsDistinct_iff] at ha ⊢
    exact ⟨(perm.map Prod.fst).nodup_iff.mp ha.1, fun field hmem => ha.2 field (perm.mem_iff.mpr hmem)⟩
  | columns => trivial
  | field before after name _ ih =>
    simp only [Distinct, fieldsDistinct_iff, Entries.names, List.map_append, List.map_cons,
      List.forall_mem_append, List.forall_mem_cons] at ha ⊢
    exact ⟨ha.1, ha.2.1, ih ha.2.2.1, ha.2.2.2⟩
  | render renderer _ ih =>
    rw [Distinct] at ha ⊢
    exact ih ha
  | trans _ _ ih ih' => exact ih' (ih ha)

theorem beq (h : Rearranged a b) (ha : a.Distinct) (hself : (a == a) = true) : (a == b) = true := by
  change Value.beq _ _ = true at hself ⊢
  induction h with
  | fields perm =>
    rw [beq_object] at hself ⊢
    rw [Distinct] at ha
    exact Entries.beq_of_perm ha.1 hself perm
  | @columns series other perm rows =>
    rw [Value.beq] at hself ⊢
    change Pointseries.beq _ _ = true at hself ⊢
    rw [Pointseries.beq_eq, Bool.and_eq_true] at hself ⊢
    exact ⟨Entries.beq_of_perm series.columns.nodup_names hself.1 perm, rows ▸ hself.2⟩
  | @field before after name value other inside ih =>
    have hdistinct := (Rearranged.field before after name inside).distinct ha
    have hnone := (beq_self_iff ha).mp hself
    rw [Distinct, fieldsDistinct_iff] at ha hdistinct
    have heach : ∀ field ∈ before ++ (name, value) :: after, Value.beq field.2 field.2 = true :=
      fun field hmem => (equates (ha.2 field hmem)).self.mpr fun hnan => hnone (.field hmem hnan)
    rw [beq_object, Entries.beq_iff]
    refine ⟨by simp, fun key held hmem => ?_⟩
    -- a field is the one that is rearranged inside, or it is still there
    rcases List.mem_append.mp hmem with hbefore | hrest
    · refine ⟨held, (Json.mem_iff_lookup hdistinct.1).mp (List.mem_append_left _ hbefore), ?_⟩
      exact heach _ hmem
    · rcases List.mem_cons.mp hrest with heq | hafter
      · cases heq
        refine ⟨other, (Json.mem_iff_lookup hdistinct.1).mp ?_, ?_⟩
        · exact List.mem_append_right _ List.mem_cons_self
        · exact ih (ha.2 _ hmem) (heach _ hmem)
      · refine ⟨held, (Json.mem_iff_lookup hdistinct.1).mp ?_, heach _ hmem⟩
        exact List.mem_append_right _ (List.mem_cons_of_mem _ hafter)
  | render renderer _ ih =>
    rw [Value.beq, Bool.and_eq_true] at hself ⊢
    rw [Distinct] at ha
    exact ⟨hself.1, ih ha hself.2⟩
  | trans first _ ih ih' =>
    have hfirst := ih ha hself
    have hb := first.distinct ha
    have hself' := (equates hb).trans _ _ ((equates ha).symm _ hfirst) hfirst
    exact (equates ha).trans _ _ hfirst (ih' hb hself')

end Rearranged

theorem beq_function_iff {f g : Callable} : (function f == .function g) = true ↔
    (∃ home home' serial chain chain',
      f = .deferred home serial chain ∧ g = .deferred home' serial chain') ∨
    ∃ name, f = .reference name ∧ g = .reference name := by
  have hcallable : (function f == .function g) = (f == g) := by
    change Value.beq _ _ = _
    rw [Value.beq]
  rw [hcallable, Callable.beq_iff]
  cases f <;> cases g <;> simp [Callable.identity, eq_comm]

/-- Nothing that was there before is equal to a function value with a number still to be given. -/
theorem MadeBefore.not_beq {value : Value} {home : Home} {serial : Nat} {chain : Chain}
    (h : value.MadeBefore serial) : (value == .function (.deferred home serial chain)) = false := by
  rw [Bool.eq_false_iff]
  intro heq
  have htype := type_of_beq heq
  cases value with
  | function f =>
    rcases beq_function_iff.mp heq with ⟨_, _, _, _, _, rfl, hdeferred⟩ | ⟨_, _, hreference⟩
    · cases hdeferred
      exact absurd (h serial (by simp [numbers])) (Nat.lt_irrefl serial)
    · cases hreference
  | _ => cases htype

end Value

namespace Towers

/-- A step in which a chain is set aside, and the function value that comes of it. -/
def Makes {α : Type} (callee : Callable) (before after : Task α × World) : Prop :=
  ∃ creator chain, Creates creator chain before after ∧
    callee = .deferred creator.home before.2.serial chain

variable {towers : Towers} {α : Type} {callee callee' : Callable}
  {before after later last : Task α × World}

theorem Makes.not_beq (h : Makes callee before after) {value : Value}
    (hvalue : value.MadeBefore before.2.serial) : (value == .function callee) = false := by
  obtain ⟨creator, chain, _, rfl⟩ := h
  exact hvalue.not_beq

/-- Function values that are made in different steps of a run are never equal. -/
theorem Makes.differ (first : Makes callee before after) (run : towers.Runs after later)
    (second : Makes callee' later last) :
    (Value.function callee == .function callee') = false := by
  obtain ⟨creator, chain, hcreates, rfl⟩ := first
  refine second.not_beq fun serial hserial => ?_
  rw [Value.numbers, List.mem_singleton] at hserial
  have hafter := hcreates.serial
  have hlater := run.serial_le
  omega

end Towers

namespace Value

/-- Equality of values is a partial equivalence that leaves out only values in which a NaN occurs. It does
not see the order of fields and columns, but it sees the type. Chains set aside are equal by their
number, which a run gives only once, and references by their name. -/
theorem beq_partial_equivalence {a : Value} (distinct : a.Distinct) :
    (∀ b, (a == b) = true → (b == a) = true) ∧
    (∀ b c, (a == b) = true → (b == c) = true → (a == c) = true) ∧
    ((a == a) = true ↔ ¬a.HasNaN) ∧
    (∀ b, Rearranged a b → (a == a) = true → (a == b) = true) ∧
    (∀ b, (a == b) = true → a.type = b.type) ∧
    (∀ f g : Callable, (function f == .function g) = true ↔
      (∃ home home' serial chain chain',
        f = .deferred home serial chain ∧ g = .deferred home' serial chain') ∨
      ∃ name, f = .reference name ∧ g = .reference name) ∧
    ∀ (towers : Towers) (α : Type) (callee : Callable) (before after : Task α × World),
      Towers.Makes callee before after →
        (a.MadeBefore before.2.serial → (a == .function callee) = false) ∧
        ∀ callee' later last, towers.Runs after later → Towers.Makes callee' later last →
          (function callee == .function callee') = false := by
  refine ⟨(equates distinct).symm, (equates distinct).trans, beq_self_iff distinct,
    fun b h => h.beq distinct, fun b => type_of_beq, fun f g => beq_function_iff, ?_⟩
  intro towers α callee before after hmakes
  exact ⟨hmakes.not_beq, fun callee' later last => hmakes.differ⟩

end Value

namespace Stock

/-- A series rendered beside a chain that was set aside. -/
def plotted : Value := .object
  [("series", .render "plot" (.pointseries
    ⟨⟨[("x", ⟨"number", "dimension", "day"⟩), ("y", ⟨"number", "measure", "cost"⟩)], by decide⟩,
      [[("x", .number (.integer 1)), ("y", .null)]]⟩)),
    ("each", .function (.deferred ⟨0, 0⟩ 0 []))]

/-- The same with fields and columns in another order. -/
def replotted : Value := .object
  [("each", .function (.deferred ⟨0, 0⟩ 0 [])),
    ("series", .render "plot" (.pointseries
      ⟨⟨[("y", ⟨"number", "measure", "cost"⟩), ("x", ⟨"number", "dimension", "day"⟩)], by decide⟩,
        [[("x", .number (.integer 1)), ("y", .null)]]⟩))]

theorem rearranged_plotted : Value.Rearranged plotted replotted := by
  refine .trans (.field [] [_] "series" (.render "plot" (.columns (.swap ..) ?_))) (.fields (.swap ..))
  rfl

end Stock

theorem Value.beq_partial_equivalence_plotted :
    Stock.plotted.Distinct ∧ (Stock.plotted == Stock.plotted) = true ∧
      Rearranged Stock.plotted Stock.replotted ∧ (Stock.replotted == Stock.plotted) = true := by
  have hdistinct : Stock.plotted.Distinct := by
    simp [Stock.plotted, Distinct, FieldsDistinct, Entries.names]
  obtain ⟨hsymm, _, _, hrearranged, _⟩ := beq_partial_equivalence hdistinct
  have hself : (Stock.plotted == Stock.plotted) = true := by decide
  exact ⟨hdistinct, hself, Stock.rearranged_plotted,
    hsymm _ (hrearranged _ Stock.rearranged_plotted hself)⟩

end ChainExpr
