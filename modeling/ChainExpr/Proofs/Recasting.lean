import ChainExpr.Proofs.StandardCasts
import Mathlib.Data.List.TakeWhile

namespace ChainExpr

open Conversion

/-- The types that stand ahead of the first occurrence of a type. -/
def ahead (type : TypeName) (acceptable : List TypeName) : List TypeName :=
  acceptable.takeWhile fun other => other ≠ type

theorem ahead_append {type : TypeName} {before : List TypeName} (h : type ∉ before)
    (after : List TypeName) : ahead type (before ++ type :: after) = before := by
  have hbefore : ∀ other ∈ before, decide (other ≠ type) = true := fun other hother =>
    decide_eq_true fun hsame => h (hsame ▸ hother)
  rw [ahead, List.takeWhile_append_of_pos hbefore, List.takeWhile_cons_of_neg (by simp),
    List.append_nil]

variable {value converted : Value} {acceptable : List TypeName}

theorem Move.Misses.toOption {move : Move} (h : move.Misses value) :
    (move.outcome value).toOption = none := by
  obtain ⟨error, hfails⟩ := h
  rw [hfails]
  rfl

theorem FirstSuccess.toOption {moves : List Move} {attempts : List Attempt}
    {outcome : Except (Option String) Value} (h : FirstSuccess value moves attempts outcome) :
    outcome.toOption = moves.findSome? fun move => (move.outcome value).toOption := by
  cases h with
  | @reached before after move _ split missed succeeds =>
    refine (List.findSome?_eq_some_iff.mpr ⟨before, move, after, split, ?_, ?_⟩).symm
    · rw [succeeds]
      rfl
    · exact fun earlier hearlier => (missed earlier hearlier).toOption
  | missed missed =>
    exact (List.findSome?_eq_none_iff.mpr fun move hmove => (missed move hmove).toOption).symm

namespace TypeRegistry

variable {types : TypeRegistry}

/-- What a value is brought to if a cast comes to a type at all. -/
def reached? (types : TypeRegistry) (value : Value) (target : TypeName) : Option Value :=
  (types.movesTo value.type target).findSome? fun move => (move.outcome value).toOption

theorem moves_findSome? (types : TypeRegistry) (value : Value) (acceptable : List TypeName) :
    (types.moves value.type acceptable).findSome? (fun move => (move.outcome value).toOption) =
      acceptable.findSome? (types.reached? value) := by
  induction acceptable with
  | nil => rfl
  | cons target rest ih =>
    rw [moves, List.flatMap_cons, List.findSome?_append, List.findSome?_cons, ← ih]
    change (types.reached? value target).or _ = _
    cases types.reached? value target <;> rfl

theorem cast_ok_reached (h : acceptable ≠ []) :
    (types.cast value acceptable).2 = .ok converted ↔
      acceptable.findSome? (types.reached? value) = some converted := by
  rw [cast_eq h, ← moves_findSome?, ← (search_firstSuccess types value acceptable).toOption]
  cases (types.search value acceptable).2 <;> simp [Except.toOption]

end TypeRegistry

namespace Value

/-- What the standard types make of a value. -/
def standardAs? : Value → TypeName → Option Value
  | .null, .boolean => some (.boolean false)
  | .null, .number => some (.number 0)
  | .null, .string => some (.string "")
  | .null, .datatable => some (.datatable .empty)
  | .null, .pointseries => some (.pointseries .empty)
  | .boolean b, .number => some (.number (if b then 1 else 0))
  | .boolean b, .string => some (.string (if b then "true" else "false"))
  | .number x, .boolean => some (.boolean (x != 0 && !x.isNaN))
  | .number x, .string => some (.string (Number.shown x))
  | .string s, .boolean => some (.boolean (!s.isEmpty))
  | .string s, .number => (textNumber? s).map .number
  | .datatable table, .render => some (.render "table" (.datatable table))
  | .pointseries series, .datatable => some (.datatable series.toDatatable)
  | .pointseries series, .render => some (.render "table" (.datatable series.toDatatable))
  | value, target => if target = value.type then some value else none

theorem standardAs?_own (value : Value) : value.standardAs? value.type = some value := by
  cases value <;> rfl

theorem type_of_standardAs? {value converted : Value} {target : TypeName}
    (h : value.standardAs? target = some converted) : converted.type = target := by
  cases value with
  | string s =>
    cases target with
    | number =>
      obtain ⟨x, _, rfl⟩ := Option.map_eq_some_iff.mp h
      rfl
    | _ => cases h <;> rfl
  | _ => cases target <;> cases h <;> rfl

end Value

theorem reached?_standard (value : Value) (target : TypeName) :
    TypeRegistry.standard.reached? value target = value.standardAs? target := by
  cases value with
  | string s =>
    cases target with
    | number =>
      have hmoves : TypeRegistry.standard.movesTo (Value.string s).type .number =
        [.convert .target .number stringToNumber] := rfl
      rw [TypeRegistry.reached?, hmoves, Value.standardAs?, List.findSome?_singleton]
      change (stringToNumber.convert (.string s)).toOption = _
      simp only [stringToNumber, standard]
      cases textNumber? s <;> rfl
    | _ => rfl
  | _ => cases target <;> rfl

theorem Value.not_saysNoNumber_null : ¬ Value.SaysNoNumber .null := by
  intro h
  obtain ⟨s, hs⟩ := h.string
  cases hs

/-- A text that says no number is not empty. -/
theorem Value.SaysNoNumber.isEmpty {s : String} (h : (Value.string s).SaysNoNumber) :
    s.isEmpty = false := by
  obtain ⟨_, hs, hblank, _⟩ := h
  cases hs
  rw [Bool.eq_false_iff]
  intro hempty
  rw [String.isEmpty_iff.mp hempty] at hblank
  exact hblank rfl

/-- A type that the value passes by, though what it is brought to behind it does not, is render for the
empty tables and series that null becomes, or number for a text that says none. -/
theorem overtaken {value converted other : Value} {target early : TypeName}
    (hlate : value.standardAs? target = some converted) (hmissed : value.standardAs? early = none)
    (hearly : converted.standardAs? early = some other) :
    (value = .null ∧ (converted = .datatable .empty ∨ converted = .pointseries .empty) ∧
      early = .render ∧ other = .render "table" (.datatable .empty)) ∨
    value.SaysNoNumber ∧ converted = .boolean true ∧ early = .number ∧ other = .number 1 := by
  cases value with
  | null =>
    cases target <;> cases hlate <;> cases early <;> cases hmissed <;> cases hearly
    · exact .inl ⟨rfl, .inl rfl, rfl, rfl⟩
    · exact .inl ⟨rfl, .inr rfl, rfl, rfl⟩
  | string s =>
    cases target with
    | string => cases hlate; cases hmissed.symm.trans hearly
    | boolean =>
      cases hlate
      cases early with
      | number =>
        have hnone : (Value.string s).SaysNoNumber :=
          textNumber?_eq_none_iff.mp (Option.map_eq_none_iff.mp hmissed)
        have htrue : (!s.isEmpty) = true := by rw [hnone.isEmpty]; rfl
        rw [htrue] at hearly ⊢
        cases hearly
        exact .inr ⟨hnone, rfl, rfl, rfl⟩
      | _ => cases hmissed <;> cases hearly
    | number =>
      obtain ⟨x, _, rfl⟩ := Option.map_eq_some_iff.mp hlate
      cases early with
      | number => cases hlate.symm.trans hmissed
      | _ => cases hmissed <;> cases hearly
    | _ => cases hlate
  | _ => cases target <;> cases hlate <;> cases early <;> cases hmissed <;> cases hearly

/-- A cast passes by the types ahead of the one it comes to. The next cast comes to the first of these
that the new value can be brought to, and leaves it as it is if there is none. -/
theorem standard_recast (h : (TypeRegistry.standard.cast value acceptable).2 = .ok converted) :
    value.standardAs? converted.type = some converted ∧
    (∀ early ∈ ahead converted.type acceptable, value.standardAs? early = none) ∧
    (TypeRegistry.standard.cast converted acceptable).2 =
      .ok (((ahead converted.type acceptable).findSome? converted.standardAs?).getD converted) := by
  by_cases hempty : acceptable = []
  · subst hempty
    cases h
    exact ⟨value.standardAs?_own, by simp [ahead], rfl⟩
  · have hreached : TypeRegistry.standard.reached? = Value.standardAs? :=
      funext fun value => funext fun target => reached?_standard value target
    rw [TypeRegistry.cast_ok_reached hempty, hreached] at h
    rw [TypeRegistry.cast_ok_reached hempty, hreached]
    obtain ⟨before, target, after, rfl, htarget, hbefore⟩ := List.findSome?_eq_some_iff.mp h
    obtain rfl := Value.type_of_standardAs? htarget
    have hahead : ahead converted.type (before ++ converted.type :: after) = before := by
      refine ahead_append (fun hmem => ?_) after
      cases (hbefore _ hmem).symm.trans htarget
    rw [hahead, List.findSome?_append, List.findSome?_cons, converted.standardAs?_own]
    refine ⟨htarget, hbefore, ?_⟩
    cases before.findSome? converted.standardAs? <;> rfl

/-- Null has become an empty table or series, and a render stands ahead of that. -/
def BlankBehindRender (value converted : Value) (acceptable : List TypeName) : Prop :=
  value = .null ∧ (converted = .datatable .empty ∨ converted = .pointseries .empty) ∧
    .render ∈ ahead converted.type acceptable

/-- A text that says no number has become true, and a number stands ahead of the booleans. -/
def TextBehindNumber (value converted : Value) (acceptable : List TypeName) : Prop :=
  value.SaysNoNumber ∧ converted = .boolean true ∧ .number ∈ ahead .boolean acceptable

/-- What has been cast to a list of types with the standard types passes through the list again
unchanged, with two exceptions: an empty table or series that null has become is rendered as a table if
a render stands ahead of it, and the true that a text has become that says no number is counted as one
if a number stands ahead of it. -/
theorem recast_standard (value converted : Value) (acceptable : List TypeName)
    (h : (TypeRegistry.standard.cast value acceptable).2 = .ok converted) :
    ((TypeRegistry.standard.cast converted acceptable).2 = .ok converted ↔
      ¬ BlankBehindRender value converted acceptable ∧
        ¬ TextBehindNumber value converted acceptable) ∧
    (BlankBehindRender value converted acceptable →
      (TypeRegistry.standard.cast converted acceptable).2 =
        .ok (.render "table" (.datatable .empty))) ∧
    (TextBehindNumber value converted acceptable →
      (TypeRegistry.standard.cast converted acceptable).2 = .ok (.number 1)) := by
  obtain ⟨htarget, hbefore, hagain⟩ := standard_recast h
  rw [hagain]
  cases hfind : (ahead converted.type acceptable).findSome? converted.standardAs? with
  | none =>
    have hnothing := List.findSome?_eq_none_iff.mp hfind
    have hblank : ¬ BlankBehindRender value converted acceptable := by
      rintro ⟨_, hconverted, hrender⟩
      rcases hconverted with rfl | rfl <;> cases hnothing _ hrender
    have htext : ¬ TextBehindNumber value converted acceptable := by
      rintro ⟨_, rfl, hnumber⟩
      cases hnothing _ hnumber
    exact ⟨iff_of_true rfl ⟨hblank, htext⟩, fun h => absurd h hblank, fun h => absurd h htext⟩
  | some other =>
    obtain ⟨early, hearly, hother⟩ := List.exists_of_findSome?_eq_some hfind
    rcases overtaken htarget (hbefore early hearly) hother with
      ⟨rfl, hconverted, rfl, rfl⟩ | ⟨hnone, rfl, rfl, rfl⟩
    · have hblank : BlankBehindRender .null converted acceptable := ⟨rfl, hconverted, hearly⟩
      have htext : ¬ TextBehindNumber .null converted acceptable := fun h =>
        Value.not_saysNoNumber_null h.1
      refine ⟨iff_of_false ?_ fun h => h.1 hblank, fun _ => rfl, fun h => absurd h htext⟩
      rcases hconverted with rfl | rfl <;> simp
    · have htext : TextBehindNumber value (.boolean true) acceptable := ⟨hnone, rfl, hearly⟩
      have hblank : ¬ BlankBehindRender value (.boolean true) acceptable := fun h =>
        Value.not_saysNoNumber_null (h.1 ▸ hnone)
      exact ⟨iff_of_false (by simp) fun h => h.2 htext, fun h => absurd h hblank, fun _ => rfl⟩

/-- Null that is cast to a render or a table is an empty table, and that is rendered in the next cast. -/
theorem recast_standard_blank :
    (TypeRegistry.standard.cast .null [.render, .datatable]).2 = .ok (.datatable .empty) ∧
    (TypeRegistry.standard.cast (.datatable .empty) [.render, .datatable]).2 =
      .ok (.render "table" (.datatable .empty)) := by
  have hfirst : (TypeRegistry.standard.cast .null [.render, .datatable]).2 =
      .ok (.datatable .empty) := rfl
  have hblank : BlankBehindRender .null (.datatable .empty) [.render, .datatable] :=
    ⟨rfl, .inl rfl, by decide⟩
  exact ⟨hfirst, (recast_standard .null (.datatable .empty) _ hfirst).2.1 hblank⟩

end ChainExpr
