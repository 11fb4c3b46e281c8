import ChainExpr.Error
import ChainExpr.Text.Quoted
import ChainExpr.Value.Basic

namespace ChainExpr

structure Conversion where
  convert : Value → Except RuntimeError Value
  /-- Whether a run of the conversion is reported. The standard ones are not. -/
  reported : Bool

structure TypeDescriptor where
  name : TypeName
  /-- Conversions that make this type out of another one. -/
  fromType : TypeName → Option Conversion
  /-- Conversions that make another type out of this one. -/
  toType : TypeName → Option Conversion

namespace TypeDescriptor

/-- A type without conversions. -/
def bare (name : TypeName) : TypeDescriptor := ⟨name, fun _ => none, fun _ => none⟩

instance : Inhabited TypeDescriptor := ⟨bare .null⟩

def castFrom (descriptor : TypeDescriptor) (source : TypeName) (conversion : Conversion) :
    TypeDescriptor :=
  { descriptor with
    fromType := fun t => if t = source then some conversion else descriptor.fromType t }

def castTo (descriptor : TypeDescriptor) (target : TypeName) (conversion : Conversion) :
    TypeDescriptor :=
  { descriptor with
    toType := fun t => if t = target then some conversion else descriptor.toType t }

/-- The types that this one is made from, in order. -/
def sources (descriptor : TypeDescriptor) : List TypeName :=
  TypeName.all.filter fun t => (descriptor.fromType t).isSome

/-- The types that this one is made into, in order. -/
def targets (descriptor : TypeDescriptor) : List TypeName :=
  TypeName.all.filter fun t => (descriptor.toType t).isSome

def description (descriptor : TypeDescriptor) : String :=
  Text.record "TypeDescriptor"
    [("name", descriptor.name.title),
      ("from", Text.bracketed (descriptor.sources.map TypeName.title)),
      ("to", Text.bracketed (descriptor.targets.map TypeName.title))]

end TypeDescriptor

structure TypeRegistry where
  get? : TypeName → Option TypeDescriptor

namespace TypeRegistry

/-- Without declarations a value passes for its own type only. -/
def empty : TypeRegistry := ⟨fun _ => none⟩

instance : Inhabited TypeRegistry := ⟨empty⟩

/-- Declares a type. An earlier declaration of it is replaced as a whole. -/
def register (types : TypeRegistry) (descriptor : TypeDescriptor) : TypeRegistry :=
  ⟨fun t => if t = descriptor.name then some descriptor else types.get? t⟩

def registerAll (types : TypeRegistry) (descriptors : List TypeDescriptor) : TypeRegistry :=
  descriptors.foldl register types

/-- The declared types, in order. -/
def names (types : TypeRegistry) : List TypeName :=
  TypeName.all.filter fun t => (types.get? t).isSome

end TypeRegistry

end ChainExpr
