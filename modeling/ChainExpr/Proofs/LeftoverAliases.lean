import ChainExpr.Proofs.Registrations

namespace ChainExpr

variable {history earlier later : List FunctionDefinition} {definition : FunctionDefinition}
  {name : String}

/-- No function has the name, and the last one that lists it has been replaced since. -/
structure LeftBehind (history : List FunctionDefinition) (name : String) : Prop where
  unnamed : ∀ definition ∈ history, definition.name ≠ name
  replaced : ∃ before owner after, history = before ++ owner :: after ∧ name ∈ owner.aliases ∧
    (∀ later ∈ after, name ∉ later.aliases) ∧ ∃ later ∈ after, later.name = owner.name

theorem lastNamed?_eq_none_iff :
    lastNamed? history name = none ↔ ∀ definition ∈ history, definition.name ≠ name := by
  rw [← Option.not_isSome_iff_eq_none, isSome_lastNamed?]
  simp

theorem lastNamed?_append :
    lastNamed? (earlier ++ later) name = (lastNamed? later name).or (lastNamed? earlier name) := by
  rw [lastNamed?, List.filter_append, List.getLast?_append]
  rfl

theorem lastNamed?_cons_of_unnamed (h : ∀ other ∈ later, other.name ≠ definition.name) :
    lastNamed? (definition :: later) definition.name = some definition := by
  have hnone : later.filter (fun other => other.name = definition.name) = [] := by
    simpa [List.filter_eq_nil_iff] using h
  rw [lastNamed?, List.filter_cons_of_pos (by simp), hnone]
  rfl

/-- Behind the last function that lists a name none lists it. -/
theorem lastListing?_eq_some_iff :
    lastListing? history name = some definition ↔
      ∃ before after, history = before ++ definition :: after ∧ name ∈ definition.aliases ∧
        ∀ later ∈ after, name ∉ later.aliases := by
  rw [lastListing?, List.getLast?_filter, List.find?_eq_some_iff_append]
  constructor
  · rintro ⟨hlists, after, before, hsplit, hafter⟩
    refine ⟨before.reverse, after.reverse, ?_, of_decide_eq_true hlists, by simpa using hafter⟩
    rw [← List.reverse_reverse history, hsplit]
    simp
  · rintro ⟨before, after, rfl, hlists, hafter⟩
    exact ⟨decide_eq_true hlists, after.reverse, before.reverse, by simp, by simpa using hafter⟩

/-- A name leads to a function that does not know it just where it has been left behind. -/
theorem leftBehind_iff :
    LeftBehind history name ↔ ∃ definition, resolvedIn? history name = some definition ∧
      name ≠ definition.name ∧ name ∉ definition.aliases := by
  constructor
  · rintro ⟨hunnamed, before, owner, after, rfl, hlists, hafter, hreplaced⟩
    have hnone := lastNamed?_eq_none_iff.mpr hunnamed
    have howner : lastListing? (before ++ owner :: after) name = some owner :=
      lastListing?_eq_some_iff.mpr ⟨before, after, rfl, hlists, hafter⟩
    obtain ⟨last, hlast⟩ := Option.isSome_iff_exists.mp (isSome_lastNamed?.mpr hreplaced)
    have hfound : lastNamed? (before ++ owner :: after) owner.name = some last := by
      rw [List.append_cons, lastNamed?_append, hlast, Option.some_or]
    have hlater := (lastNamed?_spec hlast).1
    refine ⟨last, by simp [resolvedIn?, hnone, howner, hfound], ?_, hafter last hlater⟩
    exact (hunnamed last (by simp [hlater])).symm
  · rintro ⟨found, hresolved, hname, halias⟩
    cases hnamed : lastNamed? history name with
    | some last =>
      obtain rfl : last = found := by simpa [resolvedIn?, hnamed] using hresolved
      exact absurd (lastNamed?_spec hnamed).2.symm hname
    | none =>
      have hunnamed := lastNamed?_eq_none_iff.mp hnamed
      obtain ⟨owner, howner, hfound⟩ : ∃ owner, lastListing? history name = some owner ∧
          lastNamed? history owner.name = some found := by
        simpa [resolvedIn?, hnamed, Option.bind_eq_some_iff] using hresolved
      obtain ⟨before, after, rfl, hlists, hafter⟩ := lastListing?_eq_some_iff.mp howner
      refine ⟨hunnamed, before, owner, after, rfl, hlists, hafter, ?_⟩
      -- If nothing had replaced it, the name would lead to the function that lists it.
      by_contra hkept
      have hown : lastNamed? (owner :: after) owner.name = some owner :=
        lastNamed?_cons_of_unnamed (by simpa using hkept)
      rw [lastNamed?_append, hown] at hfound
      obtain rfl : owner = found := by simpa using hfound
      exact halias hlists

/-- Functions that replace others list at least their aliases. -/
def KeepsAliases (history : List FunctionDefinition) : Prop :=
  history.Pairwise fun old new => new.name = old.name → old.aliases ⊆ new.aliases

theorem KeepsAliases.not_leftBehind (h : KeepsAliases history) : ¬ LeftBehind history name := by
  rintro ⟨_, before, owner, after, rfl, hlists, hafter, new, hnew, hname⟩
  have hreplaces := (List.pairwise_cons.mp (List.pairwise_append.mp h).2.1).1
  exact hafter new hnew (hreplaces new hnew hname hlists)

namespace FunctionRegistry

/-- A lookup finds the function that was registered last under its name, never a replaced one. It finds
one that has the name neither as its own nor as an alias just where the name has been left behind, which
does not happen as long as functions that replace others list their aliases, and so not where no name is
registered twice. -/
theorem lookup_left_behind (history : List FunctionDefinition) :
    (∀ name definition, (ofList history).lookup name = some definition →
      lastNamed? history definition.name = some definition) ∧
    (∀ name, (∃ definition, (ofList history).lookup name = some definition ∧
        name ≠ definition.name ∧ name ∉ definition.aliases) ↔ LeftBehind history name) ∧
    (KeepsAliases history → ∀ name definition, (ofList history).lookup name = some definition →
      name = definition.name ∨ name ∈ definition.aliases) ∧
    ((history.map (·.name)).Nodup → KeepsAliases history) := by
  refine ⟨?_, ?_, ?_, ?_⟩
  · intro name definition hlookup
    rw [lookup_ofList, resolvedIn?] at hlookup
    split at hlookup
    · rename_i found hfound
      cases hlookup
      rwa [(lastNamed?_spec hfound).2]
    · obtain ⟨owner, _, hfound⟩ := Option.bind_eq_some_iff.mp hlookup
      rwa [(lastNamed?_spec hfound).2]
  · intro name
    simp only [lookup_ofList, leftBehind_iff]
  · intro hkeeps name definition hlookup
    rw [lookup_ofList] at hlookup
    by_contra hforeign
    obtain ⟨hname, halias⟩ := not_or.mp hforeign
    exact hkeeps.not_leftBehind (leftBehind_iff.mpr ⟨definition, hlookup, hname, halias⟩)
  · intro hnodup
    exact (List.pairwise_map.mp hnodup).imp fun hother hsame => absurd hsame.symm hother

end FunctionRegistry

namespace Stock

/-- A function that gives its context back, with the given aliases. -/
def aliased (aliases : List String) : FunctionDefinition where
  name := "f"
  returns := none
  contextTypes := none
  signature := .empty
  aliases := aliases
  help := ""
  implementation := fun context _ => .ok context

end Stock

/-- The function that lists an alias is replaced by one without it, and the alias still leads to that. -/
theorem FunctionRegistry.alias_left_behind :
    (ofList [Stock.aliased ["old"], Stock.aliased []]).lookup "old" = some (Stock.aliased []) ∧
      "old" ≠ (Stock.aliased []).name ∧ "old" ∉ (Stock.aliased []).aliases :=
  ⟨rfl, by decide, by simp [Stock.aliased]⟩

end ChainExpr
