import ChainExpr.Types.Cast
import ChainExpr.Types.Standard

namespace ChainExpr

/-- The property holds of every conversion that the type declares. -/
structure TypeDescriptor.Each (holds : Conversion → TypeName → Prop) (descriptor : TypeDescriptor) :
    Prop where
  of_from : ∀ source conversion, descriptor.fromType source = some conversion →
    holds conversion descriptor.name
  of_to : ∀ target conversion, descriptor.toType target = some conversion → holds conversion target

/-- The property holds of every conversion in the registry and the type it is registered to make. -/
structure TypeRegistry.Each (holds : Conversion → TypeName → Prop) (types : TypeRegistry) : Prop where
  of_from : ∀ target descriptor, types.get? target = some descriptor →
    ∀ source conversion, descriptor.fromType source = some conversion → holds conversion target
  of_to : ∀ source descriptor, types.get? source = some descriptor →
    ∀ target conversion, descriptor.toType target = some conversion → holds conversion target

/-- A string is made into a number, if anything. -/
theorem Conversion.stringToNumber_ok {value converted : Value}
    (h : stringToNumber.convert value = .ok converted) :
    ∃ s x, value = .string s ∧ converted = .number x := by
  cases value with
  | string s =>
    simp only [stringToNumber, standard] at h
    split at h
    · cases h
      exact ⟨s, _, rfl, rfl⟩
    · cases h
  | _ => cases h

variable {holds : Conversion → TypeName → Prop}

namespace TypeDescriptor

theorem each_bare (name : TypeName) : (bare name).Each holds where
  of_from _ _ h := by cases h
  of_to _ _ h := by cases h

theorem Each.castFrom {descriptor : TypeDescriptor} (h : descriptor.Each holds)
    {conversion : Conversion} (hholds : holds conversion descriptor.name) (source : TypeName) :
    (descriptor.castFrom source conversion).Each holds where
  of_from other found hfound := by
    simp only [TypeDescriptor.castFrom] at hfound
    split at hfound
    · cases hfound
      exact hholds
    · exact h.of_from other found hfound
  of_to := h.of_to

theorem Each.castTo {descriptor : TypeDescriptor} (h : descriptor.Each holds)
    {conversion : Conversion} {target : TypeName} (hholds : holds conversion target) :
    (descriptor.castTo target conversion).Each holds where
  of_from := h.of_from
  of_to other found hfound := by
    simp only [TypeDescriptor.castTo] at hfound
    split at hfound
    · rename_i hsame
      cases hfound
      exact hsame ▸ hholds
    · exact h.of_to other found hfound

end TypeDescriptor

namespace TypeRegistry

theorem each_empty : empty.Each holds where
  of_from _ _ h := by cases h
  of_to _ _ h := by cases h

theorem Each.register {types : TypeRegistry} (h : types.Each holds) {descriptor : TypeDescriptor}
    (hdescriptor : descriptor.Each holds) : (types.register descriptor).Each holds where
  of_from target found hget := by
    simp only [TypeRegistry.register] at hget
    split at hget
    · rename_i hsame
      cases hget
      exact hsame ▸ hdescriptor.of_from
    · exact h.of_from target found hget
  of_to source found hget := by
    simp only [TypeRegistry.register] at hget
    split at hget
    · cases hget
      exact hdescriptor.of_to
    · exact h.of_to source found hget

theorem Each.registerAll {types : TypeRegistry} (h : types.Each holds)
    {descriptors : List TypeDescriptor}
    (hall : ∀ descriptor ∈ descriptors, descriptor.Each holds) :
    (types.registerAll descriptors).Each holds := by
  induction descriptors generalizing types with
  | nil => exact h
  | cons descriptor rest ih =>
    have hrest : ∀ other ∈ rest, other.Each holds := fun other hother => hall other (by simp [hother])
    exact ih (h.register (hall descriptor (by simp))) hrest

/-- The conversions that a cast tries are in the registry. -/
theorem Each.conversions {types : TypeRegistry} (h : types.Each holds) (source target : TypeName) :
    ∀ entry ∈ types.conversions source target, holds entry.2 target := by
  intro entry hentry
  rw [TypeRegistry.conversions] at hentry
  rcases List.mem_append.mp hentry with hto | hfrom
  · obtain ⟨conversion, hconversion, rfl⟩ := List.mem_map.mp hto
    obtain ⟨descriptor, hget, hsome⟩ := Option.bind_eq_some_iff.mp (Option.mem_toList.mp hconversion)
    exact h.of_to source descriptor hget target conversion hsome
  · obtain ⟨conversion, hconversion, rfl⟩ := List.mem_map.mp hfrom
    obtain ⟨descriptor, hget, hsome⟩ := Option.bind_eq_some_iff.mp (Option.mem_toList.mp hconversion)
    exact h.of_from target descriptor hget source conversion hsome

open Conversion in
/-- What holds of the ten standard conversions holds of the standard registry. -/
theorem each_standard
    (hblank : ∀ value ∈ [Value.boolean false, .number 0, .string "", .datatable .empty,
      .pointseries .empty], holds (blank value) value.type)
    (hnumberToBoolean : holds numberToBoolean .boolean)
    (hstringToBoolean : holds stringToBoolean .boolean)
    (hbooleanToNumber : holds booleanToNumber .number)
    (hstringToNumber : holds stringToNumber .number)
    (hbooleanToString : holds booleanToString .string)
    (hnumberToString : holds numberToString .string)
    (hseriesToDatatable : holds seriesToDatatable .datatable)
    (hdatatableToRender : holds datatableToRender .render)
    (hseriesToRender : holds seriesToRender .render) : standard.Each holds := by
  apply each_empty.registerAll
  intro descriptor h
  simp only [TypeDescriptor.standardAll, List.mem_cons, List.not_mem_nil, or_false] at h
  rcases h with rfl | rfl | rfl | rfl | rfl | rfl | rfl
  · exact TypeDescriptor.each_bare .null
  · exact (((TypeDescriptor.each_bare .boolean).castFrom (hblank _ (by simp)) .null).castFrom
      hnumberToBoolean .number).castFrom hstringToBoolean .string
  · exact (((TypeDescriptor.each_bare .number).castFrom (hblank _ (by simp)) .null).castFrom
      hbooleanToNumber .boolean).castFrom hstringToNumber .string
  · exact (((TypeDescriptor.each_bare .string).castFrom (hblank _ (by simp)) .null).castFrom
      hbooleanToString .boolean).castFrom hnumberToString .number
  · exact (((TypeDescriptor.each_bare .datatable).castFrom (hblank _ (by simp)) .null).castFrom
      hseriesToDatatable .pointseries).castTo hdatatableToRender
  · exact ((TypeDescriptor.each_bare .pointseries).castFrom (hblank _ (by simp)) .null).castTo hseriesToRender
  · exact TypeDescriptor.each_bare .render

end TypeRegistry

end ChainExpr
