import ChainExpr.Function.Arguments
import Mathlib.Data.List.Forall2
import Mathlib.Order.Basic

namespace ChainExpr

/-- Which creation number on the left stands for which on the right. -/
abbrev Pairing := Nat → Nat → Prop

namespace Pairing

/-- No number stands for two or is stood for by two. -/
def Faithful (pairing : Pairing) : Prop :=
  ∀ {a b a' b'}, pairing a b → pairing a' b' → (a = a' ↔ b = b')

/-- Numbers below `n` stand for themselves. -/
def Keeps (n : Nat) (pairing : Pairing) : Prop := ∀ a, a < n → pairing a a

/-- The numbers in use are below a bound on either side. -/
def Below (pairing : Pairing) (left right : Nat) : Prop := ∀ a b, pairing a b → a < left ∧ b < right

/-- Numbers on the right of two pairings that stand for the same on the left. -/
def between (p q : Pairing) : Pairing := fun a b => ∃ c, p c a ∧ q c b

theorem Keeps.mono {n : Nat} {p q : Pairing} (hle : p ≤ q) (h : p.Keeps n) : q.Keeps n :=
  fun a ha => hle a a (h a ha)

theorem Below.mono {p : Pairing} {left right left' right' : Nat} (h : p.Below left right)
    (hleft : left ≤ left') (hright : right ≤ right') : p.Below left' right' := by
  intro a b hab
  obtain ⟨ha, hb⟩ := h a b hab
  exact ⟨Nat.lt_of_lt_of_le ha hleft, Nat.lt_of_lt_of_le hb hright⟩

theorem Faithful.between {p q : Pairing} (hp : p.Faithful) (hq : q.Faithful) :
    (p.between q).Faithful := by
  rintro a b a' b' ⟨c, hca, hcb⟩ ⟨c', hca', hcb'⟩
  rw [← hp hca hca', hq hcb hcb']

theorem Keeps.between {n : Nat} {p q : Pairing} (hp : p.Keeps n) (hq : q.Keeps n) :
    (p.between q).Keeps n := by
  intro a ha
  exact ⟨a, hp a ha, hq a ha⟩

end Pairing

namespace Value

mutual

/-- The creation numbers in a value, in their order. -/
def numbers : Value → List Nat
  | .object fields => fieldNumbers fields
  | .function (.deferred _ serial _) => [serial]
  | .render _ value => value.numbers
  | _ => []

def fieldNumbers : List (String × Value) → List Nat
  | [] => []
  | (_, value) :: rest => value.numbers ++ fieldNumbers rest

end

mutual

/-- A value apart from its creation numbers. -/
def shape : Value → Value
  | .object fields => .object (fieldShapes fields)
  | .function (.deferred home _ chain) => .function (.deferred home 0 chain)
  | .render renderer value => .render renderer value.shape
  | .null => .null
  | .boolean b => .boolean b
  | .number x => .number x
  | .string s => .string s
  | .function (.reference name) => .function (.reference name)
  | .datatable table => .datatable table
  | .pointseries series => .pointseries series

def fieldShapes : List (String × Value) → List (String × Value)
  | [] => []
  | (name, value) :: rest => (name, value.shape) :: fieldShapes rest

end

/-- The same value, with paired creation numbers in the same places. -/
def Like (pairing : Pairing) (a b : Value) : Prop :=
  a.shape = b.shape ∧ List.Forall₂ pairing a.numbers b.numbers

/-- All creation numbers in the value are below the bound. -/
def MadeBefore (value : Value) (bound : Nat) : Prop := ∀ serial ∈ value.numbers, serial < bound

theorem type_shape (value : Value) : value.shape.type = value.type := by
  cases value with
  | function callable => cases callable <;> simp only [shape, type]
  | _ => simp only [shape, type]

mutual

theorem shape_of_numbers {value : Value} (h : value.numbers = []) : value.shape = value := by
  cases value with
  | object fields =>
    rw [numbers] at h
    rw [shape, fieldShapes_of_numbers h]
  | function callable =>
    cases callable with
    | deferred home serial chain => simp [numbers] at h
    | reference name => rw [shape]
  | render renderer value =>
    rw [numbers] at h
    rw [shape, shape_of_numbers h]
  | _ => rw [shape]

theorem fieldShapes_of_numbers {fields : List (String × Value)} (h : fieldNumbers fields = []) :
    fieldShapes fields = fields := by
  cases fields with
  | nil => rw [fieldShapes]
  | cons field rest =>
    obtain ⟨name, value⟩ := field
    rw [fieldNumbers, List.append_eq_nil_iff] at h
    rw [fieldShapes, shape_of_numbers h.1, fieldShapes_of_numbers h.2]

end

namespace Like

variable {p q : Pairing} {a b c : Value}

theorem type (h : Like p a b) : a.type = b.type := by
  rw [← type_shape a, h.1, type_shape]

theorem mono (hle : p ≤ q) (h : Like p a b) : Like q a b :=
  ⟨h.1, h.2.imp fun a b => hle a b⟩

theorem refl {n : Nat} (hkeeps : p.Keeps n) (h : a.MadeBefore n) : Like p a a :=
  ⟨rfl, List.forall₂_same.mpr fun serial hserial => hkeeps serial (h serial hserial)⟩

/-- A value without function values is like no other. -/
theorem eq_of_numbers (h : Like p a b) (hnone : a.numbers = []) : a = b := by
  obtain ⟨hshape, hnumbers⟩ := h
  rw [hnone] at hnumbers
  have hnone' : b.numbers = [] := List.forall₂_nil_left_iff.mp hnumbers
  rw [← shape_of_numbers hnone, hshape, shape_of_numbers hnone']

theorem between (h : Like p a b) (h' : Like q a c) : Like (p.between q) b c := by
  refine ⟨h.1.symm.trans h'.1, ?_⟩
  obtain ⟨_, hnumbers⟩ := h
  obtain ⟨_, hnumbers'⟩ := h'
  generalize a.numbers = numbers at hnumbers hnumbers'
  generalize b.numbers = left at hnumbers ⊢
  generalize c.numbers = right at hnumbers' ⊢
  induction hnumbers generalizing right with
  | nil =>
    cases hnumbers'
    exact .nil
  | cons hhead _ ih =>
    cases hnumbers' with
    | cons hhead' hrest => exact .cons ⟨_, hhead, hhead'⟩ (ih _ hrest)

theorem deferred {serial serial' : Nat} (h : p serial serial') (home : Home) (chain : Chain) :
    Like p (.function (.deferred home serial chain)) (.function (.deferred home serial' chain)) := by
  refine ⟨by rw [shape, shape], ?_⟩
  rw [numbers, numbers]
  exact .cons h .nil

end Like

end Value

/-- Both outcomes are alike values or both are errors, whichever errors. -/
inductive OutcomeLike {α ε : Type} (like : α → α → Prop) : Except ε α → Except ε α → Prop
  | ok {a b : α} (values : like a b) : OutcomeLike like (.ok a) (.ok b)
  | error (error error' : ε) : OutcomeLike like (.error error) (.error error')

/-- Both arguments have one value or both have many, alike in either case. -/
inductive ArgumentLike (like : Value → Value → Prop) : ArgumentValue → ArgumentValue → Prop
  | single {a b : Value} (values : like a b) : ArgumentLike like (.single a) (.single b)
  | multi {a b : List Value} (values : List.Forall₂ like a b) : ArgumentLike like (.multi a) (.multi b)

/-- Data that may hold creation numbers, and when it is the same up to a pairing of them. -/
class Likeness (α : Type) where
  Like : Pairing → α → α → Prop
  mono : ∀ {p q : Pairing} {a b : α}, p ≤ q → Like p a b → Like q a b

open Likeness (Like)

namespace Likeness

variable {α β ε : Type}

instance : Likeness Value := ⟨Value.Like, Value.Like.mono⟩

instance : Likeness String := ⟨fun _ a b => a = b, fun _ h => h⟩

instance [Likeness α] [Likeness β] : Likeness (α × β) where
  Like p a b := Like p a.1 b.1 ∧ Like p a.2 b.2
  mono hle h := ⟨mono hle h.1, mono hle h.2⟩

instance [Likeness α] : Likeness (List α) where
  Like p := List.Forall₂ (Like p)
  mono hle h := h.imp fun _ _ => mono hle

instance [Likeness α] : Likeness (OrderedMap α) where
  Like p a b := Like p a.entries b.entries
  mono hle h := mono hle h

instance [Likeness α] : Likeness (Except ε α) where
  Like p := OutcomeLike (Like p)
  mono hle h := by
    cases h with
    | ok values => exact .ok (mono hle values)
    | error error error' => exact .error error error'

instance : Likeness ArgumentValue where
  Like p := ArgumentLike (Like p)
  mono hle h := by
    cases h with
    | single values => exact .single (mono hle values)
    | multi values => exact .multi (values.imp fun _ _ => mono hle)

end Likeness

end ChainExpr
