import ChainExpr.Function.Registry
import Mathlib.Data.List.Induction

namespace ChainExpr

/-- The last function registered under a name. -/
def lastNamed? (history : List FunctionDefinition) (name : String) : Option FunctionDefinition :=
  (history.filter fun definition => definition.name = name).getLast?

/-- The last registered function that lists a name among its aliases. -/
def lastListing? (history : List FunctionDefinition) (name : String) : Option FunctionDefinition :=
  (history.filter fun definition => name ∈ definition.aliases).getLast?

variable {history : List FunctionDefinition} {definition : FunctionDefinition} {name : String}

theorem lastNamed?_append_singleton :
    lastNamed? (history ++ [definition]) name =
      if name = definition.name then some definition else lastNamed? history name := by
  by_cases h : definition.name = name
  · simp [lastNamed?, h]
  · simp [lastNamed?, h, Ne.symm h]

theorem lastListing?_append_singleton :
    lastListing? (history ++ [definition]) name =
      if name ∈ definition.aliases then some definition else lastListing? history name := by
  by_cases h : name ∈ definition.aliases
  · simp [lastListing?, h]
  · simp [lastListing?, h]

theorem lastNamed?_spec (h : lastNamed? history name = some definition) :
    definition ∈ history ∧ definition.name = name := by
  simpa using List.mem_filter.mp (List.mem_of_getLast? h)

theorem lastListing?_spec (h : lastListing? history name = some definition) :
    definition ∈ history ∧ name ∈ definition.aliases := by
  simpa using List.mem_filter.mp (List.mem_of_getLast? h)

theorem isSome_lastNamed? :
    (lastNamed? history name).isSome ↔ ∃ definition ∈ history, definition.name = name := by
  simp [lastNamed?]

theorem isSome_lastListing? :
    (lastListing? history name).isSome ↔ ∃ definition ∈ history, name ∈ definition.aliases := by
  simp [lastListing?]

/-- The history gives a name whatever was registered last under it, and leads an alias to that of the
function that listed it last. -/
def resolvedIn? (history : List FunctionDefinition) (name : String) : Option FunctionDefinition :=
  match lastNamed? history name with
  | some definition => some definition
  | none => (lastListing? history name).bind fun owner => lastNamed? history owner.name

/-- A function that lists an alias is itself registered, so the alias leads somewhere. -/
theorem isSome_resolvedIn? :
    (resolvedIn? history name).isSome ↔
      ∃ definition ∈ history, definition.name = name ∨ name ∈ definition.aliases := by
  have hlisted (owner : FunctionDefinition) (howner : lastListing? history name = some owner) :
      (lastNamed? history owner.name).isSome :=
    isSome_lastNamed?.mpr ⟨owner, (lastListing?_spec howner).1, rfl⟩
  constructor
  · intro h
    rw [resolvedIn?] at h
    split at h
    · rename_i found hfound
      exact ⟨found, (lastNamed?_spec hfound).1, .inl (lastNamed?_spec hfound).2⟩
    · cases howner : lastListing? history name with
      | none => simp [howner] at h
      | some owner => exact ⟨owner, (lastListing?_spec howner).1, .inr (lastListing?_spec howner).2⟩
  · rintro ⟨found, hmem, hname | halias⟩
    · obtain ⟨last, hlast⟩ := Option.isSome_iff_exists.mp (isSome_lastNamed?.mpr ⟨found, hmem, hname⟩)
      simp [resolvedIn?, hlast]
    · obtain ⟨owner, howner⟩ :=
        Option.isSome_iff_exists.mp (isSome_lastListing?.mpr ⟨found, hmem, halias⟩)
      rw [resolvedIn?]
      split
      · rfl
      · rw [howner]
        exact hlisted owner howner

namespace FunctionRegistry

theorem ofList_append_singleton :
    ofList (history ++ [definition]) = (ofList history).register definition := by
  simp [ofList]

/-- The first table holds what was registered last under each name. -/
theorem get?_functions_ofList : (ofList history).functions.get? name = lastNamed? history name := by
  induction history using List.reverseRecOn with
  | nil => rfl
  | append_singleton before last ih =>
    rw [ofList_append_singleton, register, OrderedMap.get?_insert, lastNamed?_append_singleton, ih]

/-- The second table leads each alias to the name of the function that listed it last. -/
theorem get?_aliases_ofList :
    (ofList history).aliases.get? name = (lastListing? history name).map (·.name) := by
  induction history using List.reverseRecOn with
  | nil => rfl
  | append_singleton before last ih =>
    rw [ofList_append_singleton, register, OrderedMap.get?_insertAll, lastListing?_append_singleton,
      ih]
    split
    · rfl
    · rfl

theorem lookup_ofList : (ofList history).lookup name = resolvedIn? history name := by
  rw [lookup, resolvedIn?, get?_functions_ofList, get?_aliases_ofList]
  cases lastNamed? history name with
  | some found => rfl
  | none =>
    cases lastListing? history name with
    | none => rfl
    | some owner => exact get?_functions_ofList

theorem contains_ofList :
    (ofList history).contains name = true ↔
      ∃ definition ∈ history, definition.name = name ∨ name ∈ definition.aliases := by
  rw [contains, lookup_ofList, isSome_resolvedIn?]

theorem mem_names_ofList :
    name ∈ (ofList history).names ↔ ∃ definition ∈ history, definition.name = name := by
  rw [names, List.mem_mergeSort]
  induction history using List.reverseRecOn with
  | nil => simp [ofList, empty, OrderedMap.names, Entries.names, EmptyCollection.emptyCollection,
      OrderedMap.empty]
  | append_singleton before last ih =>
    rw [ofList_append_singleton, register, OrderedMap.mem_names_insert, ih]
    constructor
    · rintro (rfl | ⟨found, hmem, hname⟩)
      · exact ⟨last, by simp, rfl⟩
      · exact ⟨found, by simp [hmem], hname⟩
    · rintro ⟨found, hmem, hname⟩
      rcases List.mem_append.mp hmem with hbefore | hlast
      · exact .inr ⟨found, hbefore, hname⟩
      · rw [List.mem_singleton.mp hlast] at hname
        exact .inl hname.symm

theorem nodup_names (registry : FunctionRegistry) : registry.names.Nodup :=
  (List.mergeSort_perm _ _).nodup_iff.mpr registry.functions.nodup_names

theorem names_increasing (registry : FunctionRegistry) : registry.names.Pairwise (· < ·) := by
  have hsorted : registry.names.Pairwise fun a b => decide (a ≤ b) = true := by
    apply List.pairwise_mergeSort
    · intro a b c hab hbc
      have hle : a ≤ c := Std.le_trans (of_decide_eq_true hab) (of_decide_eq_true hbc)
      simpa using hle
    · intro a b
      have htotal := String.le_total a b
      simpa using htotal
  exact (hsorted.and (nodup_names registry)).imp fun h => Std.lt_of_le_of_ne (of_decide_eq_true h.1) h.2

theorem length_names (registry : FunctionRegistry) : registry.names.length = registry.size := by
  rw [names, List.length_mergeSort]
  exact List.length_map _

/-- Increasing lists of the same names are one list. -/
theorem names_congr {registry other : FunctionRegistry}
    (h : ∀ name, name ∈ registry.names ↔ name ∈ other.names) : registry.names = other.names := by
  have hperm : registry.names.Perm other.names :=
    (List.perm_ext_iff_of_nodup (nodup_names registry) (nodup_names other)).mpr h
  apply hperm.eq_of_pairwise _ (names_increasing registry) (names_increasing other)
  intro a b _ _ hab hba
  exact absurd (Std.lt_trans hab hba) Std.lt_irrefl

end FunctionRegistry

/-- Two neighbours of which at most one is in the selection are selected in either order alike. -/
theorem getLast?_filter_swap {chosen : FunctionDefinition → Bool}
    {first second : FunctionDefinition} (hone : ¬ (chosen first = true ∧ chosen second = true))
    (before after : List FunctionDefinition) :
    ((before ++ first :: second :: after).filter chosen).getLast? =
      ((before ++ second :: first :: after).filter chosen).getLast? := by
  cases hfirst : chosen first with
  | false => simp [List.filter_cons, hfirst]
  | true =>
    have hsecond : chosen second = false := by simpa [hfirst] using hone
    simp [hfirst, hsecond]

/-- The name of a function and its aliases. -/
def FunctionDefinition.allNames (definition : FunctionDefinition) : List String :=
  definition.name :: definition.aliases

theorem resolvedIn?_swap {first second : FunctionDefinition}
    (hdisjoint : first.allNames.Disjoint second.allNames) (before after : List FunctionDefinition)
    (name : String) :
    resolvedIn? (before ++ first :: second :: after) name =
      resolvedIn? (before ++ second :: first :: after) name := by
  have hnamed (name : String) : lastNamed? (before ++ first :: second :: after) name =
      lastNamed? (before ++ second :: first :: after) name := by
    apply getLast?_filter_swap
    simp only [decide_eq_true_eq]
    rintro ⟨rfl, hsame⟩
    exact hdisjoint List.mem_cons_self (by simp [FunctionDefinition.allNames, hsame])
  have hlisted : lastListing? (before ++ first :: second :: after) name =
      lastListing? (before ++ second :: first :: after) name := by
    apply getLast?_filter_swap
    simp only [decide_eq_true_eq]
    rintro ⟨hfirst, hsecond⟩
    exact hdisjoint (List.mem_cons_of_mem _ hfirst) (List.mem_cons_of_mem _ hsecond)
  simp only [resolvedIn?, hnamed, hlisted]

namespace FunctionRegistry

/-- What a registry answers is a function of its history. A name that was registered leads to its last
function, and only otherwise an alias to the last function of the name that listed it last; so an alias
always leads somewhere. The names are listed in increasing order, each once. Two neighbouring
registrations that have no name or alias in common may change places, whatever came before and comes
after them. -/
theorem registry_of_history (history : List FunctionDefinition) :
    (∀ name, (∃ definition ∈ history, definition.name = name) →
      ∃ last, lastNamed? history name = some last ∧ (ofList history).lookup name = some last) ∧
    (∀ name, (¬ ∃ definition ∈ history, definition.name = name) →
      (∃ definition ∈ history, name ∈ definition.aliases) →
      ∃ owner last, lastListing? history name = some owner ∧
        lastNamed? history owner.name = some last ∧ (ofList history).lookup name = some last) ∧
    (∀ name, (¬ ∃ definition ∈ history, definition.name = name ∨ name ∈ definition.aliases) →
      (ofList history).lookup name = none) ∧
    (∀ name, (ofList history).contains name = true ↔
      ∃ definition ∈ history, definition.name = name ∨ name ∈ definition.aliases) ∧
    ((ofList history).names.Pairwise (· < ·) ∧
      (∀ name, name ∈ (ofList history).names ↔ ∃ definition ∈ history, definition.name = name) ∧
      (ofList history).size = (ofList history).names.length) ∧
    ∀ before first second after, history = before ++ first :: second :: after →
      first.allNames.Disjoint second.allNames →
      (∀ name, (ofList history).lookup name =
          (ofList (before ++ second :: first :: after)).lookup name ∧
        (ofList history).contains name =
          (ofList (before ++ second :: first :: after)).contains name) ∧
      (ofList history).names = (ofList (before ++ second :: first :: after)).names ∧
      (ofList history).size = (ofList (before ++ second :: first :: after)).size := by
  refine ⟨?_, ?_, ?_, fun name => contains_ofList, ?_, ?_⟩
  · intro name hnamed
    obtain ⟨last, hlast⟩ := Option.isSome_iff_exists.mp (isSome_lastNamed?.mpr hnamed)
    exact ⟨last, hlast, by rw [lookup_ofList, resolvedIn?, hlast]⟩
  · intro name hunnamed hlisted
    have hnone : lastNamed? history name = none := by
      simpa using mt isSome_lastNamed?.mp hunnamed
    obtain ⟨owner, howner⟩ := Option.isSome_iff_exists.mp (isSome_lastListing?.mpr hlisted)
    obtain ⟨last, hlast⟩ := Option.isSome_iff_exists.mp
      (isSome_lastNamed?.mpr ⟨owner, (lastListing?_spec howner).1, rfl⟩)
    exact ⟨owner, last, howner, hlast, by simp [lookup_ofList, resolvedIn?, hnone, howner, hlast]⟩
  · intro name hunknown
    rw [lookup_ofList]
    simpa using mt isSome_resolvedIn?.mp hunknown
  · exact ⟨names_increasing _, fun name => mem_names_ofList, (length_names _).symm⟩
  · rintro before first second after rfl hdisjoint
    have hlookup (name : String) : (ofList (before ++ first :: second :: after)).lookup name =
        (ofList (before ++ second :: first :: after)).lookup name := by
      rw [lookup_ofList, lookup_ofList, resolvedIn?_swap hdisjoint]
    have hnames : (ofList (before ++ first :: second :: after)).names =
        (ofList (before ++ second :: first :: after)).names := by
      apply names_congr
      intro name
      rw [mem_names_ofList, mem_names_ofList]
      simp [or_left_comm]
    refine ⟨fun name => ⟨hlookup name, by rw [contains, contains, hlookup]⟩, hnames, ?_⟩
    rw [← length_names, ← length_names, hnames]

end FunctionRegistry

end ChainExpr
