import ChainExpr.Proofs.RepeatedNames
import ChainExpr.Proofs.Resolution
import ChainExpr.Stock

namespace ChainExpr

/-- The last declaration of a name. -/
def lastDeclaring? (declarations : List ArgumentDefinition) (name : String) :
    Option ArgumentDefinition :=
  declarations.reverse.find? fun argument => argument.name = name

/-- The last declaration that lists a name among its aliases. -/
def lastClaiming? (declarations : List ArgumentDefinition) (name : String) :
    Option ArgumentDefinition :=
  declarations.reverse.find? fun argument => name ∈ argument.aliases

section

variable {declarations : List ArgumentDefinition} {argument : ArgumentDefinition} {name : String}

theorem lastDeclaring?_append_singleton :
    lastDeclaring? (declarations ++ [argument]) name =
      if argument.name = name then some argument else lastDeclaring? declarations name := by
  by_cases h : argument.name = name <;> simp [lastDeclaring?, h]

theorem lastClaiming?_append_singleton :
    lastClaiming? (declarations ++ [argument]) name =
      if name ∈ argument.aliases then some argument else lastClaiming? declarations name := by
  by_cases h : name ∈ argument.aliases <;> simp [lastClaiming?, h]

theorem lastClaiming?_spec (h : lastClaiming? declarations name = some argument) :
    argument ∈ declarations ∧ name ∈ argument.aliases :=
  ⟨List.mem_reverse.mp (List.mem_of_find?_eq_some h), by simpa using List.find?_some h⟩

theorem isSome_lastDeclaring? :
    (lastDeclaring? declarations name).isSome ↔ ∃ argument ∈ declarations, argument.name = name := by
  simp [lastDeclaring?]

end

namespace Signature

variable {declarations : List ArgumentDefinition} {name primary : String}

theorem ofList_append_singleton (argument : ArgumentDefinition) :
    ofList (declarations ++ [argument]) = (ofList declarations).declare argument := by
  simp [ofList]

@[simp]
theorem arguments_declare (signature : Signature) (argument : ArgumentDefinition) :
    (signature.declare argument).arguments = signature.arguments.insert argument.name argument := rfl

@[simp]
theorem aliases_declare (signature : Signature) (argument : ArgumentDefinition) :
    (signature.declare argument).aliases =
      signature.aliases.insertAll argument.aliases argument.name := rfl

/-- The schema is the map of all declarations under their names. -/
theorem arguments_ofList (declarations : List ArgumentDefinition) :
    (ofList declarations).arguments =
      .ofList (declarations.map fun argument => (argument.name, argument)) := by
  induction declarations using List.reverseRecOn with
  | nil => rfl
  | append_singleton before last ih =>
    rw [ofList_append_singleton, arguments_declare, ih, List.map_append, List.map_singleton,
      OrderedMap.ofList_append_singleton]

theorem names_ofList (declarations : List ArgumentDefinition) :
    (ofList declarations).arguments.names =
      (declarations.map ArgumentDefinition.name).eraseDups := by
  rw [arguments_ofList, OrderedMap.names_ofList, Entries.names, List.map_map]
  rfl

theorem get?_arguments_ofList :
    (ofList declarations).arguments.get? name = lastDeclaring? declarations name := by
  induction declarations using List.reverseRecOn with
  | nil => rfl
  | append_singleton before last ih =>
    rw [ofList_append_singleton, arguments_declare, OrderedMap.get?_insert,
      lastDeclaring?_append_singleton, ih]
    simp only [eq_comm]

theorem get?_aliases_ofList :
    (ofList declarations).aliases.get? name = (lastClaiming? declarations name).map (·.name) := by
  induction declarations using List.reverseRecOn with
  | nil => rfl
  | append_singleton before last ih =>
    rw [ofList_append_singleton, aliases_declare, OrderedMap.get?_insertAll,
      lastClaiming?_append_singleton, ih]
    split
    · rfl
    · rfl

/-- A declared name stands for itself, whoever claims it as an alias. -/
theorem resolve?_ofList :
    (ofList declarations).resolve? name =
      if (lastDeclaring? declarations name).isSome then some name
      else (lastClaiming? declarations name).map (·.name) := by
  rw [resolve?, OrderedMap.contains, get?_arguments_ofList, get?_aliases_ofList]

/-- Whoever claims an alias is declared, under a name for which a later declaration may stand. -/
theorem exists_argument_of_resolve? (h : (ofList declarations).resolve? name = some primary) :
    ∃ argument, lastDeclaring? declarations primary = some argument := by
  rw [resolve?_ofList] at h
  split at h
  · rename_i hdeclared
    cases h
    exact Option.isSome_iff_exists.mp hdeclared
  · obtain ⟨owner, howner, rfl⟩ := Option.map_eq_some_iff.mp h
    exact Option.isSome_iff_exists.mp
      (isSome_lastDeclaring?.mpr ⟨owner, (lastClaiming?_spec howner).1, rfl⟩)

/-- A name leads to an argument exactly if it is resolved, and then to the last declaration of the name
that it is resolved to. -/
theorem argument?_ofList : (ofList declarations).argument? name =
    ((ofList declarations).resolve? name).bind (lastDeclaring? declarations) := by
  rw [argument?]
  congr 1
  funext primary
  exact get?_arguments_ofList

theorem isSome_argument?_ofList : ((ofList declarations).argument? name).isSome =
    ((ofList declarations).resolve? name).isSome := by
  rw [argument?_ofList]
  cases hresolve : (ofList declarations).resolve? name with
  | none => rfl
  | some primary =>
    obtain ⟨argument, hargument⟩ := exists_argument_of_resolve? hresolve
    rw [Option.bind_some, hargument]
    rfl

end Signature

namespace FunctionDefinition

variable {definition : FunctionDefinition} {declarations : List ArgumentDefinition}
  {given names : List String}

/-- Names at a call that all stand for something are let through. -/
theorem resolveNames_of_map (h : given.map definition.signature.resolve? = names.map some) :
    definition.resolveNames given = .ok names := by
  induction given generalizing names with
  | nil =>
    cases names with
    | nil => rfl
    | cons _ _ => cases h
  | cons name rest ih =>
    cases names with
    | nil => cases h
    | cons primary later =>
      obtain ⟨hfirst, hrest⟩ := List.cons.inj h
      rw [resolveNames, hfirst, ih hrest]
      rfl

section

variable (hbuilt : definition.signature = .ofList declarations)

include hbuilt

/-- What a name at a call stands for is in the schema, with its last declaration. -/
theorem mem_entries_of_resolve? {name primary : String}
    (h : definition.signature.resolve? name = some primary) :
    ∃ argument, lastDeclaring? declarations primary = some argument ∧
      (primary, argument) ∈ definition.signature.arguments.entries := by
  rw [hbuilt] at h ⊢
  obtain ⟨argument, hargument⟩ := Signature.exists_argument_of_resolve? h
  refine ⟨argument, hargument, Json.mem_of_lookup ?_⟩
  exact Signature.get?_arguments_ofList.trans hargument

theorem mem_entries_of_resolveNames (h : given.map definition.signature.resolve? = names.map some)
    {primary : String} (hprimary : primary ∈ names) :
    ∃ argument, lastDeclaring? declarations primary = some argument ∧
      (primary, argument) ∈ definition.signature.arguments.entries := by
  have hmem : some primary ∈ given.map definition.signature.resolve? :=
    h ▸ List.mem_map_of_mem hprimary
  obtain ⟨name, _, hname⟩ := List.mem_map.mp hmem
  exact mem_entries_of_resolve? hbuilt hname

/-- A signature that is built from declarations has each declared name once, where it is declared first and
as it is declared last. A name at a call stands for itself if it is declared, otherwise for the last
declaration that lists it as an alias, and otherwise for nothing. What it stands for is always in the
schema, so it leads to an argument exactly if it stands for something. Binding goes through the schema, so
it makes the casts of all arguments that the names at a call stand for, and each of them is bound to what
the call gives under its names. -/
theorem names_stand_for_declared :
    (definition.signature.arguments.names = (declarations.map ArgumentDefinition.name).eraseDups ∧
      definition.signature.arguments.names.Nodup ∧
      ∀ name, definition.signature.arguments.get? name = lastDeclaring? declarations name) ∧
    (∀ name, (∃ argument ∈ declarations, argument.name = name) →
      definition.signature.resolve? name = some name) ∧
    (∀ name, (¬∃ argument ∈ declarations, argument.name = name) →
      definition.signature.resolve? name = (lastClaiming? declarations name).map (·.name)) ∧
    (∀ name primary, definition.signature.resolve? name = some primary →
      primary ∈ definition.signature.arguments.names ∧
        definition.signature.argument? name = lastDeclaring? declarations primary) ∧
    (∀ name, (definition.signature.argument? name).isSome =
      (definition.signature.resolve? name).isSome) ∧
    ∀ (types : TypeRegistry) (given names : List String) (lists : List (List Value)),
      given.map definition.signature.resolve? = names.map some →
        definition.resolveNames given = .ok names ∧
        (∀ name ∈ names, ∃ argument, lastDeclaring? declarations name = some argument ∧
          (argument.casts name (definition.valuesGiven name argument given lists)).Sublist
            (definition.argumentCasts given lists)) ∧
        (definition.bindArguments types (foldValues names lists)).Casts types definition.name
          (definition.argumentCasts given lists) fun bound =>
            ∀ name ∈ names, ∃ argument value, lastDeclaring? declarations name = some argument ∧
              bound.get? name = some value ∧
              argument.Binds types (definition.valuesGiven name argument given lists) value := by
  refine ⟨⟨?_, definition.signature.arguments.nodup_names, fun name => ?_⟩, fun name hdeclared => ?_,
    fun name hundeclared => ?_, fun name primary hresolve => ?_, fun name => ?_,
    fun types given names lists hgiven => ⟨resolveNames_of_map hgiven, fun name hname => ?_, ?_⟩⟩
  · rw [hbuilt, Signature.names_ofList]
  · rw [hbuilt, Signature.get?_arguments_ofList]
  · rw [hbuilt, Signature.resolve?_ofList, if_pos (isSome_lastDeclaring?.mpr hdeclared)]
  · rw [hbuilt, Signature.resolve?_ofList, if_neg (mt isSome_lastDeclaring?.mp hundeclared)]
  · obtain ⟨argument, _, hentry⟩ := mem_entries_of_resolve? hbuilt hresolve
    refine ⟨List.mem_map_of_mem hentry, ?_⟩
    rw [hbuilt] at hresolve ⊢
    rw [Signature.argument?_ofList, hresolve, Option.bind_some]
  · rw [hbuilt, Signature.isSome_argument?_ofList]
  · obtain ⟨argument, hargument, hentry⟩ := mem_entries_of_resolveNames hbuilt hgiven hname
    refine ⟨argument, hargument, ?_⟩
    obtain ⟨before, after, hsplit⟩ := List.append_of_mem hentry
    rw [argumentCasts, hsplit, List.flatMap_append, List.flatMap_cons]
    exact (List.sublist_append_left _ _).trans (List.sublist_append_right _ _)
  · refine (bindArguments_casts (resolveNames_of_map hgiven) lists).imp fun bound hbound => ?_
    intro name hname
    obtain ⟨argument, hargument, hentry⟩ := mem_entries_of_resolveNames hbuilt hgiven hname
    obtain ⟨⟨bindsName, value⟩, hvalue, hsame, hbinds⟩ := exists_of_forall₂ hbound hentry
    cases hsame
    exact ⟨argument, value, hargument, (Json.mem_iff_lookup bound.nodup_names).mp hvalue, hbinds⟩

end

end FunctionDefinition

namespace Stock

/-- One argument is declared twice, and one of its aliases is a name and another one claimed again. -/
def redeclared : List ArgumentDefinition :=
  [⟨"x", [], none, false, ["y", "a", "old"], ""⟩, ⟨"y", [], none, true, ["a"], ""⟩,
    ⟨"x", [.string], none, false, [], "later"⟩]

def redeclaring : FunctionDefinition where
  name := "list"
  returns := none
  contextTypes := none
  signature := .ofList redeclared
  aliases := []
  help := ""
  implementation := fun context arguments => Body.arguments.run "list" context arguments

end Stock

namespace FunctionDefinition

/-- An alias that only the first declaration lists stands for the argument as it is declared last. -/
theorem names_stand_for_declared_twice :
    Stock.redeclaring.signature = .ofList Stock.redeclared ∧
    Stock.redeclaring.signature.arguments.names = ["x", "y"] ∧
    ["y", "a", "old", "b"].map Stock.redeclaring.signature.resolve? =
      [some "y", some "y", some "x", none] ∧
    (Stock.redeclaring.signature.argument? "old").map ArgumentDefinition.help = some "later" ∧
    ["old", "a"].map Stock.redeclaring.signature.resolve? = ["x", "y"].map some ∧
    Stock.redeclaring.resolveNames ["old", "a"] = .ok ["x", "y"] := by
  obtain ⟨⟨hnames, -, -⟩, hdeclared, hclaimed, hargument, -, hbinding⟩ :=
    @names_stand_for_declared Stock.redeclaring Stock.redeclared rfl
  have hy := hdeclared "y" (by simp [Stock.redeclared])
  have ha := hclaimed "a" (by simp [Stock.redeclared])
  have hold := hclaimed "old" (by simp [Stock.redeclared])
  have hb := hclaimed "b" (by simp [Stock.redeclared])
  have hgiven : ["old", "a"].map Stock.redeclaring.signature.resolve? = ["x", "y"].map some := by
    simp only [List.map_cons, List.map_nil, hold, ha]
    rfl
  refine ⟨rfl, hnames.trans rfl, ?_, ?_, hgiven, (hbinding .standard _ _ [] hgiven).1⟩
  · simp only [List.map_cons, List.map_nil, hy, ha, hold, hb]
    rfl
  · rw [(hargument "old" "x" (hold.trans rfl)).2]
    rfl

end FunctionDefinition

end ChainExpr
