import ChainExpr.Table
import ChainExpr.Proofs.SortedFields
import Mathlib

namespace ChainExpr

/-- What an equality is to be around one datum: a partial equivalence that leaves out only data in which a
NaN occurs. -/
structure Equates {α : Type} (equal : α → α → Bool) (hasNaN : Prop) (a : α) : Prop where
  symm : ∀ b, equal a b = true → equal b a = true
  trans : ∀ b c, equal a b = true → equal b c = true → equal a c = true
  self : equal a a = true ↔ ¬hasNaN

namespace Equates

variable {α β : Type}

/-- Data without numbers is equal when it is told apart by nothing. -/
theorem of_key {equal : α → α → Bool} (key : α → β)
    (h : ∀ a b, equal a b = true ↔ key a = key b) (a : α) : Equates equal False a where
  symm b heq := by
    rw [h] at heq ⊢
    exact heq.symm
  trans b c heq heq' := by
    rw [h] at heq heq' ⊢
    exact heq.trans heq'
  self := by simp [h]

theorem of_lawful [BEq α] [LawfulBEq α] (a : α) : Equates (· == ·) False a :=
  .of_key id (fun _ _ => beq_iff_eq) a

theorem float (x : Float) : Equates (· == ·) (x.isNaN = true) x where
  symm y h := by
    rw [Float.beq_iff_ne_nan_and_eq] at h ⊢
    tauto
  trans y z h h' := by
    -- the two zeros are equal to each other and to nothing else
    have hzero : (0 : Float) ≠ -0 := fun heq => absurd (congrArg Float.toBits heq) (by decide)
    rw [Float.beq_iff_ne_nan_and_eq] at h h' ⊢
    refine ⟨h.1, h'.2.1, ?_⟩
    rcases h.2.2 with rfl | ⟨rfl, rfl⟩ | ⟨rfl, rfl⟩
    · exact h'.2.2
    · rcases h'.2.2 with rfl | ⟨heq, _⟩ | ⟨_, rfl⟩
      · exact .inr (.inl ⟨rfl, rfl⟩)
      · exact absurd heq.symm hzero
      · exact .inl rfl
    · rcases h'.2.2 with rfl | ⟨_, rfl⟩ | ⟨heq, _⟩
      · exact .inr (.inr ⟨rfl, rfl⟩)
      · exact .inl rfl
      · exact absurd heq hzero
  self := by rw [Float.beq_self_iff, Float.isNaN_eq_decide_eq_nan, decide_eq_true_iff]

theorem prod {equal : α → α → Bool} {equal' : β → β → Bool} {P Q : Prop} {a : α × β}
    (h : Equates equal P a.1) (h' : Equates equal' Q a.2) :
    Equates (fun a b => equal a.1 b.1 && equal' a.2 b.2) (P ∨ Q) a where
  symm b heq := by
    rw [Bool.and_eq_true] at heq ⊢
    exact ⟨h.symm _ heq.1, h'.symm _ heq.2⟩
  trans b c heq heq' := by
    rw [Bool.and_eq_true] at heq heq' ⊢
    exact ⟨h.trans _ _ heq.1 heq'.1, h'.trans _ _ heq.2 heq'.2⟩
  self := by rw [Bool.and_eq_true, h.self, h'.self, not_or]

/-- Under a constructor of a larger type, data is equal to data under the same constructor only. -/
theorem under {equal : α → α → Bool} {equal' : β → β → Bool} {P Q : Prop} {wrap : α → β} {a : α}
    (hwrap : ∀ a b, equal' (wrap a) (wrap b) = equal a b)
    (honly : ∀ a c, equal' (wrap a) c = true → ∃ b, c = wrap b) (hnan : Q ↔ P)
    (h : Equates equal P a) : Equates equal' Q (wrap a) where
  symm c heq := by
    obtain ⟨b, rfl⟩ := honly a c heq
    rw [hwrap] at heq ⊢
    exact h.symm b heq
  trans c d heq heq' := by
    obtain ⟨b, rfl⟩ := honly a c heq
    obtain ⟨b', rfl⟩ := honly b d heq'
    rw [hwrap] at heq heq' ⊢
    exact h.trans b b' heq heq'
  self := by rw [hwrap, h.self, hnan]

/-- Records are compared by what is read from them. -/
theorem on {equal : α → α → Bool} {equal' : β → β → Bool} {P Q : Prop} {b : β} (read : β → α)
    (hread : ∀ b b', equal' b b' = equal (read b) (read b')) (hnan : Q ↔ P)
    (h : Equates equal P (read b)) : Equates equal' Q b where
  symm c heq := by
    rw [hread] at heq ⊢
    exact h.symm _ heq
  trans c d heq heq' := by
    rw [hread] at heq heq' ⊢
    exact h.trans _ _ heq heq'
  self := by rw [hread, h.self, hnan]

/-- Lists are compared item by item. -/
theorem list {equal : α → α → Bool} {hasNaN : α → Prop} {items : List α}
    (h : ∀ item ∈ items, Equates equal (hasNaN item) item) :
    Equates (fun a b => a.isEqv b equal) (∃ item ∈ items, hasNaN item) items := by
  induction items with
  | nil =>
    refine ⟨fun b heq => ?_, fun b c heq heq' => ?_, by simp [List.isEqv]⟩
    · cases b with
      | nil => rfl
      | cons _ _ => cases heq
    · cases b with
      | nil => exact heq'
      | cons _ _ => cases heq
  | cons item rest ih =>
    obtain ⟨hitem, hrest⟩ := List.forall_mem_cons.mp h
    specialize ih hrest
    refine ⟨fun b heq => ?_, fun b c heq heq' => ?_, ?_⟩
    · cases b with
      | nil => cases heq
      | cons other others =>
        rw [List.isEqv, Bool.and_eq_true] at heq ⊢
        exact ⟨hitem.symm _ heq.1, ih.symm _ heq.2⟩
    · cases b with
      | nil => cases heq
      | cons other others =>
        cases c with
        | nil => cases heq'
        | cons last lasts =>
          rw [List.isEqv, Bool.and_eq_true] at heq heq' ⊢
          exact ⟨hitem.trans _ _ heq.1 heq'.1, ih.trans _ _ heq.2 heq'.2⟩
    · rw [List.isEqv, Bool.and_eq_true, hitem.self, ih.self]
      simp

end Equates

namespace Json

theorem induction {document : Json → Prop} (null : document .null) (bool : ∀ b, document (.bool b))
    (number : ∀ n, document (.number n)) (string : ∀ s, document (.string s))
    (array : ∀ items, (∀ item ∈ items, document item) → document (.array items))
    (object : ∀ fields, (∀ field ∈ fields, document field.2) → document (.object fields))
    (root : Json) : document root :=
  @Json.rec document (fun items => ∀ item ∈ items, document item)
    (fun fields => ∀ field ∈ fields, document field.2) (fun field => document field.2)
    null bool number string array object (by simp)
    (fun _ _ hhead hrest => List.forall_mem_cons.mpr ⟨hhead, hrest⟩) (by simp)
    (fun _ _ hhead hrest => List.forall_mem_cons.mpr ⟨hhead, hrest⟩) (fun _ _ h => h) root

/-- A NaN occurs in the document. -/
inductive HasNaN : Json → Prop
  | float {x : Float} (none : x.isNaN = true) : HasNaN (.number (.float x))
  | item {items : List Json} {item : Json} (mem : item ∈ items) (inside : HasNaN item) :
      HasNaN (.array items)
  | field {fields : List (String × Json)} {field : String × Json} (mem : field ∈ fields)
      (inside : HasNaN field.2) : HasNaN (.object fields)

theorem beqItems_eq : ∀ as bs, beqItems as bs = as.isEqv bs Json.beq
  | [], [] => rfl
  | [], _ :: _ => rfl
  | _ :: _, [] => rfl
  | a :: as, b :: bs => by rw [beqItems, List.isEqv, beqItems_eq as bs]

theorem beqFields_eq :
    ∀ as bs, beqFields as bs = as.isEqv bs fun a b => a.1 == b.1 && Json.beq a.2 b.2
  | [], [] => rfl
  | [], _ :: _ => rfl
  | _ :: _, [] => rfl
  | (_, a) :: as, (_, b) :: bs => by rw [beqFields, List.isEqv, beqFields_eq as bs]

theorem equates_fields {fields : List (String × Json)}
    (h : ∀ field ∈ fields, Equates Json.beq field.2.HasNaN field.2) :
    Equates beqFields (∃ field ∈ fields, field.2.HasNaN) fields := by
  have heq : beqFields = fun as bs => as.isEqv bs fun a b => a.1 == b.1 && Json.beq a.2 b.2 :=
    funext₂ beqFields_eq
  have hfield (field : String × Json) (hmem : field ∈ fields) :
      Equates (fun a b : String × Json => a.1 == b.1 && Json.beq a.2 b.2)
        (False ∨ field.2.HasNaN) field := .prod (.of_lawful field.1) (h field hmem)
  rw [heq]
  simpa only [false_or] using Equates.list hfield

theorem equates (document : Json) : Equates Json.beq document.HasNaN document := by
  induction document using Json.induction with
  | null =>
    refine @Equates.under Unit Json _ _ _ _ (fun _ => .null) () (fun _ _ => rfl) (fun _ c h => ?_)
      (iff_of_false nofun id) (.of_lawful ())
    cases c <;> simp_all [Json.beq]
  | bool b =>
    refine .under (fun _ _ => rfl) (fun _ c h => ?_) (iff_of_false nofun id) (.of_lawful b)
    cases c <;> simp_all [Json.beq]
  | number n =>
    cases n with
    | integer n =>
      refine @Equates.under Int Json _ _ _ _ (fun n => .number (.integer n)) n (fun _ _ => rfl)
        (fun _ c h => ?_) (iff_of_false nofun id) (.of_lawful n)
      cases c with
      | number n => cases n <;> simp_all [Json.beq, BEq.beq, JsonNumber.beq]
      | _ => simp [Json.beq] at h
    | float x =>
      refine @Equates.under Float Json _ _ _ _ (fun x => .number (.float x)) x (fun _ _ => rfl)
        (fun _ c h => ?_) ⟨fun h => ?_, .float⟩ (.float x)
      · cases c with
        | number n => cases n <;> simp_all [Json.beq, BEq.beq, JsonNumber.beq]
        | _ => simp [Json.beq] at h
      · cases h
        assumption
  | string s =>
    refine .under (fun _ _ => rfl) (fun _ c h => ?_) (iff_of_false nofun id) (.of_lawful s)
    cases c <;> simp_all [Json.beq]
  | array items ih =>
    refine .under (fun a b => ?_) (fun _ c h => ?_) ⟨fun h => ?_, fun h => ?_⟩ (.list ih)
    · rw [Json.beq, beqItems_eq]
    · cases c <;> simp_all [Json.beq]
    · cases h with
      | item mem inside => exact ⟨_, mem, inside⟩
    · obtain ⟨item, mem, inside⟩ := h
      exact .item mem inside
  | object fields ih =>
    refine .under (fun a b => ?_) (fun _ c h => ?_) ⟨fun h => ?_, fun h => ?_⟩ (equates_fields ih)
    · rw [Json.beq]
    · cases c <;> simp_all [Json.beq]
    · cases h with
      | field mem inside => exact ⟨_, mem, inside⟩
    · obtain ⟨field, mem, inside⟩ := h
      exact .field mem inside

end Json

/-- A NaN occurs in the rows of a table. -/
def RowsHaveNaN (rows : List Row) : Prop := ∃ row ∈ rows, ∃ field ∈ row, field.2.HasNaN

theorem beqRows_eq : ∀ as bs, beqRows as bs = as.isEqv bs Json.beqFields
  | [], [] => rfl
  | [], _ :: _ => rfl
  | _ :: _, [] => rfl
  | a :: as, b :: bs => by rw [beqRows, List.isEqv, beqRows_eq as bs]

theorem equates_rows (rows : List Row) : Equates beqRows (RowsHaveNaN rows) rows := by
  rw [funext₂ beqRows_eq]
  exact .list fun row _ => Json.equates_fields fun field _ => field.2.equates

theorem Datatable.equates (table : Datatable) :
    Equates Datatable.beq (RowsHaveNaN table.rows) table :=
  .on (fun table => (table.columns, table.rows)) (fun _ _ => rfl) (by simp)
    (.prod (.of_lawful _) (equates_rows _))

namespace Entries

variable {α : Type} {equal : α → α → Bool} {entries others : List (String × α)}

/-- As maps, entries are equal when there are as many of them and each one on the left has an equal one of
its name on the right. -/
def beq (equal : α → α → Bool) (entries others : List (String × α)) : Bool :=
  entries.length == others.length &&
    entries.all fun entry => (others.lookup entry.1).any (equal entry.2)

theorem beq_iff : beq equal entries others = true ↔ entries.length = others.length ∧
    ∀ name value, (name, value) ∈ entries →
      ∃ other, others.lookup name = some other ∧ equal value other = true := by
  simp only [beq, Bool.and_eq_true, beq_iff_eq, List.all_eq_true, Prod.forall, Option.any_eq_true]

theorem mem_names_iff {name : String} : name ∈ names entries ↔ ∃ value, (name, value) ∈ entries := by
  simp [names]

/-- Equal maps have the same names, since no more of them are left on the right. -/
theorem names_perm (hnodup : (names entries).Nodup) (h : beq equal entries others = true) :
    (names entries).Perm (names others) := by
  obtain ⟨hlength, hfound⟩ := beq_iff.mp h
  have hsubset : names entries ⊆ names others := by
    intro name hname
    obtain ⟨value, hvalue⟩ := mem_names_iff.mp hname
    obtain ⟨other, hother, _⟩ := hfound name value hvalue
    exact mem_names_iff.mpr ⟨other, Json.mem_of_lookup hother⟩
  refine (List.subperm_of_subset hnodup hsubset).perm_of_length_le ?_
  simp [names, hlength]

/-- The order of the entries of a map does not count. -/
theorem beq_of_perm (hnodup : (names entries).Nodup) (hself : beq equal entries entries = true)
    (hperm : entries.Perm others) : beq equal entries others = true := by
  have hnodup' : (names others).Nodup := (hperm.map Prod.fst).nodup_iff.mp hnodup
  rw [beq_iff] at hself ⊢
  refine ⟨hperm.length_eq, fun name value hvalue => ?_⟩
  obtain ⟨other, hother, heq⟩ := hself.2 name value hvalue
  refine ⟨other, ?_, heq⟩
  exact (Json.mem_iff_lookup hnodup').mp (hperm.mem_iff.mp (Json.mem_of_lookup hother))

theorem equates {hasNaN : α → Prop} (hnodup : (names entries).Nodup)
    (h : ∀ entry ∈ entries, Equates equal (hasNaN entry.2) entry.2) :
    Equates (beq equal) (∃ entry ∈ entries, hasNaN entry.2) entries where
  symm others heq := by
    have hperm := names_perm hnodup heq
    obtain ⟨hlength, hfound⟩ := beq_iff.mp heq
    refine beq_iff.mpr ⟨hlength.symm, fun name other hother => ?_⟩
    have hname : name ∈ names entries := hperm.mem_iff.mpr (mem_names_iff.mpr ⟨other, hother⟩)
    obtain ⟨value, hvalue⟩ := mem_names_iff.mp hname
    obtain ⟨other', hother', hequal⟩ := hfound name value hvalue
    have hsame : others.lookup name = some other :=
      (Json.mem_iff_lookup (hperm.nodup_iff.mp hnodup)).mp hother
    cases hother'.symm.trans hsame
    exact ⟨value, (Json.mem_iff_lookup hnodup).mp hvalue, (h _ hvalue).symm _ hequal⟩
  trans others last heq heq' := by
    rw [beq_iff] at heq heq' ⊢
    refine ⟨heq.1.trans heq'.1, fun name value hvalue => ?_⟩
    obtain ⟨other, hother, hequal⟩ := heq.2 name value hvalue
    obtain ⟨third, hthird, hequal'⟩ := heq'.2 name other (Json.mem_of_lookup hother)
    exact ⟨third, hthird, (h _ hvalue).trans _ _ hequal hequal'⟩
  self := by
    rw [beq_iff]
    constructor
    · rintro ⟨_, hfound⟩ ⟨⟨name, value⟩, hvalue, hnan⟩
      obtain ⟨other, hother, hequal⟩ := hfound name value hvalue
      cases hother.symm.trans ((Json.mem_iff_lookup hnodup).mp hvalue)
      exact (h _ hvalue).self.mp hequal hnan
    · intro hnone
      refine ⟨rfl, fun name value hvalue => ⟨value, (Json.mem_iff_lookup hnodup).mp hvalue, ?_⟩⟩
      exact (h _ hvalue).self.mpr fun hnan => hnone ⟨_, hvalue, hnan⟩

end Entries

namespace Pointseries

theorem beq_eq (a b : Pointseries) :
    a.beq b = (Entries.beq (· == ·) a.columns.entries b.columns.entries && beqRows a.rows b.rows) := by
  have hcolumn (entry : String × SeriesColumn) : (b.columns.get? entry.1 == some entry.2) =
      (b.columns.entries.lookup entry.1).any (entry.2 == ·) := by
    rw [OrderedMap.get?]
    cases b.columns.entries.lookup entry.1 with
    | none => rfl
    | some column => exact Bool.beq_comm
  simp only [Pointseries.beq, Entries.beq, hcolumn, OrderedMap.size]

theorem equates (series : Pointseries) :
    Equates Pointseries.beq (RowsHaveNaN series.rows) series := by
  have hcolumns := @Entries.equates _ (· == ·) series.columns.entries (fun _ => False)
    series.columns.nodup_names fun entry _ => .of_lawful entry.2
  exact .on (fun series => (series.columns.entries, series.rows)) beq_eq (by simp)
    (.prod hcolumns (equates_rows _))

end Pointseries

end ChainExpr
