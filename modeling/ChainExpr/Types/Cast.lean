import ChainExpr.Types.Registry

namespace ChainExpr

/-- Which of the two types a conversion belongs to. -/
inductive Side
  | source
  | target
deriving DecidableEq, Repr

/-- One run of a conversion in the course of a cast. -/
structure Attempt where
  side : Side
  source : TypeName
  target : TypeName
  value : Value
  reported : Bool

namespace TypeDescriptor

/-- Runs a type's own conversion from another type on a value of any type. -/
def runFrom (descriptor : TypeDescriptor) (source : TypeName) (value : Value) :
    Option (Attempt × Except RuntimeError Value) :=
  (descriptor.fromType source).map fun conversion =>
    (⟨.target, source, descriptor.name, value, conversion.reported⟩, conversion.convert value)

/-- Runs a type's own conversion to another type on a value of any type. -/
def runTo (descriptor : TypeDescriptor) (target : TypeName) (value : Value) :
    Option (Attempt × Except RuntimeError Value) :=
  (descriptor.toType target).map fun conversion =>
    (⟨.source, descriptor.name, target, value, conversion.reported⟩, conversion.convert value)

end TypeDescriptor

namespace TypeRegistry

/-- The conversions from one type to another: the source's own before the target's. -/
def conversions (types : TypeRegistry) (source target : TypeName) : List (Side × Conversion) :=
  ((types.get? source).bind (·.toType target)).toList.map (Side.source, ·) ++
    ((types.get? target).bind (·.fromType source)).toList.map (Side.target, ·)

/-- Runs conversions one after the other until one succeeds. Where none does, the reason is the
message of the last one, if any ran. -/
def tryConversions (value : Value) (target : TypeName) :
    List (Side × Conversion) → List Attempt × Except (Option String) Value
  | [] => ([], .error none)
  | (side, conversion) :: rest =>
    let attempt : Attempt := ⟨side, value.type, target, value, conversion.reported⟩
    match conversion.convert value with
    | .ok converted => ([attempt], .ok converted)
    | .error error =>
      match tryConversions value target rest with
      | (attempts, .ok converted) => (attempt :: attempts, .ok converted)
      | (attempts, .error reason) =>
        (attempt :: attempts, .error (reason <|> some error.message))

/-- Tries the targets in order. The value's own type is reached without a conversion. -/
def search (types : TypeRegistry) (value : Value) :
    List TypeName → List Attempt × Except (Option String) Value
  | [] => ([], .error none)
  | target :: rest =>
    if target = value.type then ([], .ok value)
    else
      match tryConversions value target (types.conversions value.type target) with
      | (attempts, .ok converted) => (attempts, .ok converted)
      | (attempts, .error reason) =>
        match types.search value rest with
        | (later, .ok converted) => (attempts ++ later, .ok converted)
        | (later, .error laterReason) => (attempts ++ later, .error (laterReason <|> reason))

/-- Brings a value to the first acceptable type it can reach, and says which conversions ran on the
way. An empty list accepts anything. -/
def cast (types : TypeRegistry) (value : Value) (acceptable : List TypeName) :
    List Attempt × Except CastError Value :=
  if acceptable = [] then ([], .ok value)
  else
    match types.search value acceptable with
    | (attempts, .ok converted) => (attempts, .ok converted)
    | (attempts, .error reason) => (attempts, .error ⟨value.type, acceptable, reason⟩)

end TypeRegistry

end ChainExpr
