import ChainExpr.Interpreter.Binding
import Mathlib.Data.List.Forall2

namespace ChainExpr

variable {α : Type}

namespace Entries

variable {R : α → α → Prop}

/-- The same names in the same order, with related values. -/
def Related (R : α → α → Prop) : List (String × α) → List (String × α) → Prop :=
  List.Forall₂ fun entry entry' => entry.1 = entry'.1 ∧ R entry.2 entry'.2

theorem Related.lookup {entries entries' : List (String × α)} (h : Related R entries entries')
    (name : String) : Option.Rel R (entries.lookup name) (entries'.lookup name) := by
  induction h with
  | nil => exact .none
  | @cons entry entry' _ _ hentry _ ih =>
    obtain ⟨other, value⟩ := entry
    obtain ⟨_, value'⟩ := entry'
    obtain ⟨rfl, hvalue⟩ := hentry
    simp only [List.lookup_cons]
    split
    · exact .some hvalue
    · exact ih

theorem Related.insert {entries entries' : List (String × α)} (h : Related R entries entries')
    (name : String) {value value' : α} (hvalue : R value value') :
    Related R (Entries.insert name value entries) (Entries.insert name value' entries') := by
  induction h with
  | nil => exact .cons ⟨rfl, hvalue⟩ .nil
  | @cons entry entry' _ _ hentry hrest ih =>
    obtain ⟨other, old⟩ := entry
    obtain ⟨_, old'⟩ := entry'
    obtain ⟨rfl, hold⟩ := hentry
    simp only [Entries.insert]
    split
    · exact .cons ⟨rfl, hvalue⟩ hrest
    · exact .cons ⟨rfl, hold⟩ ih

theorem Related.extend {entries entries' : List (String × List α)}
    (h : Related (List.Forall₂ R) entries entries') (name : String) {values values' : List α}
    (hvalues : List.Forall₂ R values values') :
    Related (List.Forall₂ R) (Entries.extend name values entries)
      (Entries.extend name values' entries') := by
  induction h with
  | nil => exact .cons ⟨rfl, hvalues⟩ .nil
  | @cons entry entry' _ _ hentry hrest ih =>
    obtain ⟨other, old⟩ := entry
    obtain ⟨_, old'⟩ := entry'
    obtain ⟨rfl, hold⟩ := hentry
    simp only [Entries.extend]
    split
    · exact .cons ⟨rfl, List.rel_append hold hvalues⟩ hrest
    · exact .cons ⟨rfl, hold⟩ ih

end Entries

/-- Of related lists the last elements are related, and so is what stands for the last of none. -/
theorem getLast?_getD_related {R : α → α → Prop} {values values' : List α}
    (h : List.Forall₂ R values values') {none none' : α} (hnone : R none none') :
    R (values.getLast?.getD none) (values'.getLast?.getD none') := by
  induction h with
  | nil => exact hnone
  | @cons _ _ rest rest' hvalue hrest ih =>
    rw [List.getLast?_cons, List.getLast?_cons]
    cases hrest with
    | nil => exact hvalue
    | cons _ _ =>
      rw [List.getLast?_cons, List.getLast?_cons] at ih ⊢
      exact ih

namespace FunctionDefinition

variable {R : Value → Value → Prop}

/-- Related values at a call make related values of each declared argument. -/
theorem foldValues_related (names : List String) {values values' : List (List Value)}
    (h : List.Forall₂ (List.Forall₂ R) values values') :
    Entries.Related (List.Forall₂ R) (foldValues names values) (foldValues names values') := by
  have hfold : ∀ bound bound' : List (String × List Value),
      Entries.Related (List.Forall₂ R) bound bound' →
      Entries.Related (List.Forall₂ R)
        ((names.zip values).foldl (fun bound entry => Entries.extend entry.1 entry.2 bound) bound)
        ((names.zip values').foldl (fun bound entry => Entries.extend entry.1 entry.2 bound) bound') := by
    induction h generalizing names with
    | nil =>
      intro bound bound' hbound
      rw [List.zip_nil_right]
      exact hbound
    | cons hvalues _ ih =>
      intro bound bound' hbound
      cases names with
      | nil => exact hbound
      | cons name rest => exact ih rest _ _ (hbound.extend name hvalues)
  exact hfold [] [] .nil

/-- The values that count are related if what stands for no value is related to itself. -/
theorem valuesFor_related (name : String) (argument : ArgumentDefinition)
    (hdefault : R (argument.default?.getD .null) (argument.default?.getD .null))
    {bound bound' : List (String × List Value)}
    (h : Entries.Related (List.Forall₂ R) bound bound') :
    List.Forall₂ R (valuesFor name argument bound) (valuesFor name argument bound') := by
  have hlookup := h.lookup name
  rw [valuesFor, valuesFor]
  generalize bound.lookup name = found at hlookup ⊢
  generalize bound'.lookup name = found' at hlookup ⊢
  cases hlookup with
  | some hvalues => exact hvalues
  | none => exact .cons hdefault .nil

end FunctionDefinition

end ChainExpr
