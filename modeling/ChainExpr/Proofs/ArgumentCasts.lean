import ChainExpr.Proofs.Folding
import ChainExpr.Proofs.Telling

namespace ChainExpr

/-- A cast that is to be made for an argument. -/
structure ArgumentCast where
  argument : String
  acceptable : List TypeName
  value : Value

namespace ArgumentCast

def outcome (types : TypeRegistry) (cast : ArgumentCast) : Except CastError Value :=
  (types.cast cast.value cast.acceptable).2

/-- The conversions that the cast runs, whether it succeeds or not. -/
def conversions (types : TypeRegistry) (cast : ArgumentCast) : List Event :=
  (types.cast cast.value cast.acceptable).1.map .conversion

end ArgumentCast

/-- The values of an argument that are cast: all of a multi argument, of another one only the last. -/
def ArgumentDefinition.casts (argument : ArgumentDefinition) (name : String) (values : List Value) :
    List ArgumentCast :=
  if argument.multi then values.map fun value => ⟨name, argument.types, value⟩
  else [⟨name, argument.types, values.getLast?.getD .null⟩]

/-- The casts for a call that gives these lists of values under its names, in declared order. -/
def FunctionDefinition.argumentCasts (definition : FunctionDefinition) (given : List String)
    (lists : List (List Value)) : List ArgumentCast :=
  definition.signature.arguments.entries.flatMap fun entry =>
    entry.2.casts entry.1 (definition.valuesGiven entry.1 entry.2 given lists)

namespace Task

variable {α β : Type}

theorem emitAll_append (events later : List Event) (task : Task α) :
    emitAll (events ++ later) task = emitAll events (emitAll later task) := List.foldr_append

theorem emitAll_bind (events : List Event) (task : Task α) (next : α → Task β) :
    (emitAll events task).bind next = emitAll events (task.bind next) := emitAll_andThen events task _

/-- The task makes these casts one after the other for a function: all of them, with a good result, or
up to the first that fails. -/
inductive Casts (types : TypeRegistry) (function : String) {α : Type} (casts : List ArgumentCast)
    (good : α → Prop) : Task α → Prop
  | all {value : α} (made : ∀ cast ∈ casts, ∃ converted, cast.outcome types = .ok converted)
      (result : good value) :
      Casts types function casts good
        (emitAll (casts.flatMap (ArgumentCast.conversions types)) (.ok value))
  | failed (before after : List ArgumentCast) {cast : ArgumentCast} {error : CastError}
      (split : casts = before ++ cast :: after)
      (made : ∀ earlier ∈ before, ∃ converted, earlier.outcome types = .ok converted)
      (fails : cast.outcome types = .error error) :
      Casts types function casts good
        (emitAll ((before ++ [cast]).flatMap (ArgumentCast.conversions types))
          (.fail (.argumentCast function cast.argument error)))

namespace Casts

variable {types : TypeRegistry} {function : String} {casts later : List ArgumentCast} {good : α → Prop}
  {good' : β → Prop} {task : Task α}

theorem nothing {value : α} (result : good value) : Casts types function [] good (.ok value) :=
  .all (by simp) result

/-- A cast runs its conversions and goes on with its outcome. -/
theorem one {next : Except CastError Value → Task α} (cast : ArgumentCast)
    (hok : ∀ converted, cast.outcome types = .ok converted →
      ∃ value, next (.ok converted) = .ok value ∧ good value)
    (herror : ∀ error, cast.outcome types = .error error →
      next (.error error) = .fail (.argumentCast function cast.argument error)) :
    (Task.cast types cast.value cast.acceptable next).Casts types function [cast] good := by
  have htask : Task.cast types cast.value cast.acceptable next =
      emitAll ([cast].flatMap (ArgumentCast.conversions types)) (next (cast.outcome types)) := by
    rw [List.flatMap_singleton]
    rfl
  rw [htask]
  cases hresult : cast.outcome types with
  | ok converted =>
    obtain ⟨value, hnext, hgood⟩ := hok converted hresult
    rw [hnext]
    exact .all (List.forall_mem_singleton.mpr ⟨converted, hresult⟩) hgood
  | error error =>
    rw [herror error hresult]
    exact .failed [] [] rfl (by simp) hresult

theorem bind {next : α → Task β} (h : task.Casts types function casts good)
    (hnext : ∀ value, good value → (next value).Casts types function later good') :
    (task.bind next).Casts types function (casts ++ later) good' := by
  cases h with
  | @all value made result =>
    rw [emitAll_bind]
    have hrest := hnext value result
    change (emitAll _ (next value)).Casts _ _ _ _
    generalize next value = rest at hrest ⊢
    cases hrest with
    | all made' result' =>
      rw [← emitAll_append, ← List.flatMap_append]
      refine .all (fun cast hcast => ?_) result'
      exact (List.mem_append.mp hcast).elim (made cast) (made' cast)
    | failed before after split made' fails =>
      rw [← emitAll_append, ← List.flatMap_append, ← List.append_assoc]
      refine .failed (casts ++ before) after (by simp [split]) (fun earlier hearlier => ?_) fails
      exact (List.mem_append.mp hearlier).elim (made earlier) (made' earlier)
  | failed before after split made fails =>
    rw [emitAll_bind]
    exact .failed before (after ++ later) (by rw [split, List.append_assoc, List.cons_append]) made fails

theorem imp {better : α → Prop} (h : task.Casts types function casts good)
    (himplies : ∀ value, good value → better value) : task.Casts types function casts better := by
  cases h with
  | all made result => exact .all made (himplies _ result)
  | failed before after split made fails => exact .failed before after split made fails

theorem map {next : α → β} (h : task.Casts types function casts good)
    (hnext : ∀ value, good value → good' (next value)) :
    (task.bind fun value => .ok (next value)).Casts types function casts good' := by
  rw [← List.append_nil casts]
  exact h.bind fun value hvalue => nothing (hnext value hvalue)

end Casts

end Task

namespace FunctionDefinition

open ChainExpr.Task

variable {definition : FunctionDefinition} {types : TypeRegistry}

theorem castFor_casts (name : String) (acceptable : List TypeName) (value : Value) :
    (definition.castFor types name acceptable value).Casts types definition.name
      [⟨name, acceptable, value⟩] fun converted => (types.cast value acceptable).2 = .ok converted :=
  Casts.one ⟨name, acceptable, value⟩ (fun converted h => ⟨converted, rfl, h⟩) fun _ _ => rfl

theorem castAll_casts (name : String) (acceptable : List TypeName) (values : List Value) :
    (definition.castAll types name acceptable values).Casts types definition.name
      (values.map fun value => ⟨name, acceptable, value⟩)
      (List.Forall₂ (fun value converted => (types.cast value acceptable).2 = .ok converted) values) := by
  induction values with
  | nil => exact .nothing .nil
  | cons value rest ih =>
    apply (castFor_casts name acceptable value).bind
    intro first hfirst
    exact ih.map fun later hlater => .cons hfirst hlater

theorem bindOne_casts (name : String) (argument : ArgumentDefinition) (values : List Value) :
    (definition.bindOne types name argument values).Casts types definition.name
      (argument.casts name values) (argument.Binds types values) := by
  rw [bindOne, ArgumentDefinition.casts]
  split
  · rename_i hmulti
    exact (castAll_casts name argument.types values).map fun _ => .multi hmulti
  · rename_i hsingle
    have hsingle : argument.multi = false := by simpa using hsingle
    exact (castFor_casts name argument.types _).map fun _ => .single hsingle

theorem bindEach_casts {bound : List (String × List Value)} (done : Arguments)
    (declared : List (String × ArgumentDefinition))
    (hnames : (done.names ++ Entries.names declared).Nodup) :
    (definition.bindEach types bound done declared).Casts types definition.name
      (declared.flatMap fun entry => entry.2.casts entry.1 (valuesFor entry.1 entry.2 bound))
      fun arguments => ∃ added, arguments.entries = done.entries ++ added ∧
        List.Forall₂ (fun declared given => given.1 = declared.1 ∧
          declared.2.Binds types (valuesFor declared.1 declared.2 bound) given.2) declared added := by
  induction declared generalizing done with
  | nil => exact .nothing ⟨[], (List.append_nil _).symm, .nil⟩
  | cons entry rest ih =>
    obtain ⟨name, argument⟩ := entry
    have hnew : name ∉ done.names := fun hold =>
      (List.nodup_append.mp hnames).2.2 name hold name List.mem_cons_self rfl
    rw [List.flatMap_cons]
    apply (bindOne_casts name argument _).bind
    intro given hgiven
    have hinsert : (done.insert name given).entries = done.entries ++ [(name, given)] :=
      Entries.insert_of_not_mem hnew given
    have hrest := ih (done.insert name given) (by
      rw [OrderedMap.names_insert, if_neg hnew, List.append_assoc]
      exact hnames)
    refine hrest.imp fun arguments => ?_
    rintro ⟨added, hentries, hadded⟩
    refine ⟨(name, given) :: added, ?_, .cons ⟨rfl, hgiven⟩ hadded⟩
    rw [hentries, hinsert, List.append_assoc, List.singleton_append]

/-- Binding makes the casts for the values of a call, and gives each declared argument what it is bound
to by them. -/
theorem bindArguments_casts {given names : List String} (h : definition.resolveNames given = .ok names)
    (lists : List (List Value)) :
    (definition.bindArguments types (foldValues names lists)).Casts types definition.name
      (definition.argumentCasts given lists) fun arguments =>
        List.Forall₂ (fun declared bound => bound.1 = declared.1 ∧ declared.2.Binds types
            (definition.valuesGiven declared.1 declared.2 given lists) bound.2)
          definition.signature.arguments.entries arguments.entries := by
  have hbind := @bindEach_casts definition types (foldValues names lists) ∅
    definition.signature.arguments.entries definition.signature.arguments.nodup_names
  simp only [valuesFor_foldValues h] at hbind
  refine hbind.imp fun arguments => ?_
  rintro ⟨added, hentries, hadded⟩
  have hall : arguments.entries = added := hentries
  exact hall ▸ hadded

end FunctionDefinition

end ChainExpr
