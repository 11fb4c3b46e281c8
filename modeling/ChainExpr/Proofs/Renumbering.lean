import ChainExpr.Proofs.Related
import ChainExpr.Proofs.Resolution
import ChainExpr.Proofs.Uniform

namespace ChainExpr

variable {α : Type} {n : Nat}

namespace Pairing

theorem eq_faithful : Faithful Eq := by
  rintro a b a' b' rfl rfl
  exact Iff.rfl

theorem eq_keeps : Keeps n Eq := fun _ _ => rfl

end Pairing

namespace Value

variable {a b c : Value}

/-- The same value, but for the numbers of chains set aside from `n` on. -/
def Same (n : Nat) (a b : Value) : Prop :=
  ∃ pairing : Pairing, pairing.Faithful ∧ pairing.Keeps n ∧ Like pairing a b

namespace Same

theorem refl (a : Value) : Same n a a :=
  ⟨Eq, Pairing.eq_faithful, Pairing.eq_keeps, rfl, List.forall₂_refl a.numbers⟩

theorem between (h : Same n a b) (h' : Same n a c) : Same n b c := by
  obtain ⟨p, hp, hkeeps, hlike⟩ := h
  obtain ⟨q, hq, hkeeps', hlike'⟩ := h'
  exact ⟨p.between q, hp.between hq, hkeeps.between hkeeps', hlike.between hlike'⟩

theorem symm (h : Same n a b) : Same n b a := h.between (refl a)

theorem trans (h : Same n a b) (h' : Same n b c) : Same n a c := h.symm.between h'

/-- The same value is cast to the same if conversions do not look at the numbers. -/
theorem cast {types : TypeRegistry} (huniform : types.Uniform n) (h : Same n a b)
    {acceptable : List TypeName} {converted : Value}
    (hcast : (types.cast a acceptable).2 = .ok converted) :
    ∃ converted', (types.cast b acceptable).2 = .ok converted' ∧ Same n converted converted' := by
  obtain ⟨p, hp, hkeeps, hlike⟩ := h
  have hfound := TypeRegistry.cast_like huniform hp hkeeps hlike acceptable
  generalize types.cast a acceptable = found at hfound hcast
  generalize types.cast b acceptable = found' at hfound ⊢
  cases hfound with
  | ok _ hvalues =>
    cases hcast
    exact ⟨_, rfl, p, hp, hkeeps, hvalues⟩
  | error => cases hcast

end Same

end Value

theorem forall₂_trans {R : α → α → Prop} (hR : ∀ a b c, R a b → R b c → R a c) {first second third : List α}
    (h : List.Forall₂ R first second) (h' : List.Forall₂ R second third) :
    List.Forall₂ R first third := by
  induction h generalizing third with
  | nil => exact h'
  | cons hhead _ ih =>
    cases h' with
    | cons hhead' hrest => exact .cons (hR _ _ _ hhead hhead') (ih hrest)

/-- The same arguments in the same order, but for the numbers of chains set aside from `n` on. -/
def Arguments.Same (n : Nat) (bound bound' : Arguments) : Prop :=
  Entries.Related (ArgumentLike (Value.Same n)) bound.entries bound'.entries

theorem Arguments.Same.refl (bound : Arguments) : Arguments.Same n bound bound := by
  refine List.forall₂_same.mpr fun entry _ => ⟨rfl, ?_⟩
  cases entry.2 with
  | single value => exact .single (.refl value)
  | multi values => exact .multi (List.forall₂_same.mpr fun value _ => .refl value)

theorem Arguments.Same.trans {first second third : Arguments} (h : Arguments.Same n first second)
    (h' : Arguments.Same n second third) : Arguments.Same n first third := by
  refine forall₂_trans ?_ h h'
  rintro ⟨_, _⟩ ⟨_, _⟩ ⟨_, _⟩ ⟨rfl, hvalue⟩ ⟨rfl, hvalue'⟩
  refine ⟨rfl, ?_⟩
  cases hvalue with
  | single hsame =>
    cases hvalue' with
    | single hsame' => exact .single (hsame.trans hsame')
  | multi hsame =>
    cases hvalue' with
    | multi hsame' => exact .multi (forall₂_trans (fun _ _ _ h h' => h.trans h') hsame hsame')

/-- Arguments are bound alike by the same values. -/
theorem ArgumentDefinition.Binds.same {argument : ArgumentDefinition} {types : TypeRegistry}
    (huniform : types.Uniform n) {values values' : List Value}
    (hvalues : List.Forall₂ (Value.Same n) values values') {bound : ArgumentValue}
    (h : argument.Binds types values bound) :
    ∃ bound', argument.Binds types values' bound' ∧ ArgumentLike (Value.Same n) bound bound' := by
  cases h with
  | @multi converted hmulti hcasts =>
    have hall : ∃ converted', List.Forall₂ (fun value converted =>
        (types.cast value argument.types).2 = .ok converted) values' converted' ∧
        List.Forall₂ (Value.Same n) converted converted' := by
      clear hmulti
      induction hcasts generalizing values' with
      | nil =>
        cases hvalues
        exact ⟨[], .nil, .nil⟩
      | cons hcast _ ih =>
        cases hvalues with
        | cons hsame hrest =>
          obtain ⟨first, hfirst, hconverted⟩ := hsame.cast huniform hcast
          obtain ⟨later, hlater, hothers⟩ := ih hrest
          exact ⟨first :: later, .cons hfirst hlater, .cons hconverted hothers⟩
    obtain ⟨converted', hcasts', hsame⟩ := hall
    exact ⟨_, .multi hmulti hcasts', .multi hsame⟩
  | single hsingle hcast =>
    have hlast : Value.Same n (values.getLast?.getD .null) (values'.getLast?.getD .null) :=
      getLast?_getD_related hvalues (.refl .null)
    obtain ⟨converted', hcast', hsame⟩ := hlast.cast huniform hcast
    exact ⟨_, .single hsingle hcast', .single hsame⟩

namespace FunctionDefinition

variable {definition : FunctionDefinition} {types : TypeRegistry}

theorem resolveNames_of_knows {given : List String}
    (h : ∀ name ∈ given, definition.signature.resolve? name ≠ none) :
    ∃ names, definition.resolveNames given = .ok names := by
  cases hnames : definition.resolveNames given with
  | ok names => exact ⟨names, rfl⟩
  | error name =>
    obtain ⟨before, after, rfl, _, hnone⟩ := resolveNames_error_iff.mp hnames
    exact absurd hnone (h name (by simp))

/-- The same values at a call make the same values of each declared argument. -/
theorem valuesGiven_same (name : String) (argument : ArgumentDefinition) {given : List String}
    (hknows : ∀ name ∈ given, definition.signature.resolve? name ≠ none)
    {lists lists' : List (List Value)} (h : List.Forall₂ (List.Forall₂ (Value.Same n)) lists lists') :
    List.Forall₂ (Value.Same n) (definition.valuesGiven name argument given lists)
      (definition.valuesGiven name argument given lists') := by
  obtain ⟨names, hnames⟩ := resolveNames_of_knows hknows
  rw [← valuesFor_foldValues hnames, ← valuesFor_foldValues hnames]
  exact valuesFor_related name argument (.refl _) (foldValues_related names h)

/-- Calls whose values for each declared argument are the same bind the same. -/
theorem Resolves.same (huniform : types.Uniform n) {given given' : List String}
    {lists lists' : List (List Value)} {bound : Arguments}
    (hvalues : ∀ name ∈ definition.signature.arguments.names, ∀ argument,
      List.Forall₂ (Value.Same n) (definition.valuesGiven name argument given lists)
        (definition.valuesGiven name argument given' lists'))
    (h : definition.Resolves types given lists bound) :
    ∃ bound', definition.Resolves types given' lists' bound' ∧ Arguments.Same n bound bound' := by
  obtain ⟨entries, hnodup⟩ := bound
  have hentries : ∃ entries', List.Forall₂ (fun declared bound => bound.1 = declared.1 ∧
      declared.2.Binds types (definition.valuesGiven declared.1 declared.2 given' lists') bound.2)
        definition.signature.arguments.entries entries' ∧
      Entries.Related (ArgumentLike (Value.Same n)) entries entries' := by
    change List.Forall₂ _ definition.signature.arguments.entries entries at h
    clear hnodup
    rw [OrderedMap.names, Entries.names] at hvalues
    generalize definition.signature.arguments.entries = declared at h hvalues ⊢
    induction h with
    | nil => exact ⟨[], .nil, .nil⟩
    | @cons declared entry _ _ hentry _ ih =>
      obtain ⟨hname, hbinds⟩ := hentry
      obtain ⟨value, hbinds', hvalue⟩ := hbinds.same huniform
        (hvalues declared.1 List.mem_cons_self declared.2)
      obtain ⟨later, hlater, hrelated⟩ :=
        ih fun name hmem => hvalues name (List.mem_cons_of_mem _ hmem)
      exact ⟨(declared.1, value) :: later, .cons ⟨rfl, hbinds'⟩ hlater, .cons ⟨hname, hvalue⟩ hrelated⟩
  obtain ⟨entries', hresolves, hrelated⟩ := hentries
  have hnames : Entries.names entries = Entries.names entries' := by
    have heach : List.Forall₂ (fun entry entry' => entry = entry') (entries.map Prod.fst)
        (entries'.map Prod.fst) := by
      rw [List.forall₂_map_left_iff, List.forall₂_map_right_iff]
      exact hrelated.imp fun _ _ hentry => hentry.1
    rwa [List.forall₂_eq_eq_eq] at heach
  exact ⟨⟨entries', hnames ▸ hnodup⟩, hresolves, hrelated⟩

end FunctionDefinition

end ChainExpr
