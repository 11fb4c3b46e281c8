import ChainExpr.Function.Signature
import Mathlib.Data.List.Forall2
import Mathlib.Data.List.Nodup

namespace ChainExpr

variable {α β : Type}

namespace Entries

/-- The same names, and the items under them changed one by one. -/
def mapItems (f : α → β) (given : List (String × List α)) : List (String × List β) :=
  given.map fun entry => (entry.1, entry.2.map f)

variable {f : α → β} {given : List (String × List α)}

theorem names_mapItems : names (mapItems f given) = names given := by
  rw [names, mapItems, List.map_map]
  rfl

theorem flatMap_mapItems : (mapItems f given).flatMap Prod.snd = (given.flatMap Prod.snd).map f := by
  rw [mapItems, List.flatMap_map, List.map_flatMap]

/-- The items of a call with what each of them has come to. -/
theorem exists_pairs {lists : List (List β)}
    (h : List.Forall₂ (fun entry list => entry.2.length = list.length) given lists) :
    ∃ pairs : List (String × List (α × β)), mapItems Prod.fst pairs = given ∧
      (mapItems Prod.snd pairs).map Prod.snd = lists := by
  induction h with
  | nil => exact ⟨[], rfl, rfl⟩
  | @cons entry list _ _ hlength _ ih =>
    obtain ⟨pairs, rfl, rfl⟩ := ih
    obtain ⟨name, items⟩ := entry
    refine ⟨(name, items.zip list) :: pairs, ?_, ?_⟩
    · simp only [mapItems, List.map_cons, List.map_fst_zip (Nat.le_of_eq hlength)]
    · simp only [mapItems, List.map_cons, List.map_snd_zip (Nat.le_of_eq hlength.symm)]

end Entries

/-- Items put under the keys that each of them has one of. -/
theorem perm_flatMap_filter {ι κ : Type} [DecidableEq κ] {keys : List κ} (hkeys : keys.Nodup)
    (key : ι → Option κ) {items : List ι} (h : ∀ item ∈ items, ∃ k ∈ keys, key item = some k) :
    (keys.flatMap fun k => items.filter fun item => key item = some k).Perm items := by
  induction items with
  | nil => simp
  | cons item rest ih =>
    obtain ⟨k, hk, hitem⟩ := h item List.mem_cons_self
    have hrest := ih fun other hother => h other (List.mem_cons_of_mem item hother)
    obtain ⟨before, after, rfl⟩ := List.append_of_mem hk
    have hapart := List.nodup_middle.mp hkeys
    have hskip : ∀ others : List κ, k ∉ others →
        (others.flatMap fun k => (item :: rest).filter fun item => key item = some k) =
          others.flatMap fun k => rest.filter fun item => key item = some k := by
      intro others hothers
      refine List.flatMap_congr fun other hother => ?_
      have hne : k ≠ other := fun hsame => hothers (hsame ▸ hother)
      simp [hitem, hne]
    have hnot := (List.nodup_cons.mp hapart).1
    rw [List.mem_append, not_or] at hnot
    rw [List.flatMap_append, List.flatMap_cons] at hrest ⊢
    rw [hskip before hnot.1, hskip after hnot.2, List.filter_cons_of_pos (by simpa using hitem)]
    exact List.perm_middle.trans (hrest.cons item)

namespace Signature

variable {signature : Signature} {name : String}

/-- What a name stands for has been declared. -/
theorem mem_names_of_resolve? {signature : Signature} {given name : String}
    (h : signature.resolve? given = some name) : name ∈ signature.arguments.names := by
  rw [resolve?] at h
  split at h
  · rename_i hcontains
    cases h
    obtain ⟨argument, hargument⟩ := Option.isSome_iff_exists.mp hcontains
    obtain ⟨before, after, hentries, _⟩ := List.lookup_eq_some_iff.mp hargument
    rw [OrderedMap.names, Entries.names, hentries]
    simp
  · exact signature.aliases_declared given name h

/-- The lists that are given under the names that stand for one argument, in the order of the call. -/
def folded (signature : Signature) (name : String) (given : List (String × List α)) : List (List α) :=
  (given.filter fun entry => signature.resolve? entry.1 = some name).map Prod.snd

/-- Both calls mention the same declared arguments, and give the same items to each of them. -/
def SameFolding (signature : Signature) (first second : List (String × List α)) : Prop :=
  ∀ name ∈ signature.arguments.names,
    (signature.folded name first = [] ↔ signature.folded name second = []) ∧
    (signature.folded name first).flatten = (signature.folded name second).flatten

/-- Every name stands for a declared argument. -/
def Knows (signature : Signature) (given : List (String × List α)) : Prop :=
  ∀ name ∈ Entries.names given, signature.resolve? name ≠ none

instance (given : List (String × List α)) : Decidable (signature.Knows given) :=
  inferInstanceAs (Decidable (∀ name ∈ Entries.names given, signature.resolve? name ≠ none))

variable {first second given : List (String × List α)}

theorem SameFolding.symm (h : signature.SameFolding first second) :
    signature.SameFolding second first :=
  fun name hname => ⟨(h name hname).1.symm, (h name hname).2.symm⟩

theorem knows_mapItems {f : α → β} :
    signature.Knows (Entries.mapItems f given) ↔ signature.Knows given := by
  rw [Knows, Entries.names_mapItems, Knows]

theorem folded_cons (entry : String × List α) :
    signature.folded name (entry :: given) =
      if signature.resolve? entry.1 = some name then entry.2 :: signature.folded name given
      else signature.folded name given := by
  by_cases h : signature.resolve? entry.1 = some name <;> simp [folded, h]

theorem folded_mapItems (f : α → β) :
    signature.folded name (Entries.mapItems f given) = (signature.folded name given).map (List.map f) := by
  induction given with
  | nil => rfl
  | cons entry rest ih =>
    have hcons : Entries.mapItems f (entry :: rest) =
        (entry.1, entry.2.map f) :: Entries.mapItems f rest := rfl
    rw [hcons, folded_cons, folded_cons, ih]
    split
    · rw [List.map_cons]
    · rfl

/-- Nothing is given to an argument that is not declared. -/
theorem folded_undeclared (h : name ∉ signature.arguments.names) : signature.folded name given = [] := by
  rw [folded, List.map_eq_nil_iff, List.filter_eq_nil_iff]
  intro entry _ hentry
  exact h (mem_names_of_resolve? (by simpa using hentry))

theorem SameFolding.mapItems (h : signature.SameFolding first second) (f : α → β) :
    signature.SameFolding (Entries.mapItems f first) (Entries.mapItems f second) := by
  intro name hname
  obtain ⟨hmentions, hitems⟩ := h name hname
  rw [folded_mapItems, folded_mapItems, List.map_eq_nil_iff, List.map_eq_nil_iff, ← List.map_flatten,
    ← List.map_flatten, hitems]
  exact ⟨hmentions, rfl⟩

theorem SameFolding.flatten (h : signature.SameFolding first second) (name : String) :
    (signature.folded name first).flatten = (signature.folded name second).flatten := by
  by_cases hname : name ∈ signature.arguments.names
  · exact (h name hname).2
  · rw [folded_undeclared hname, folded_undeclared hname]

/-- Every list of the call is given to one declared argument. -/
theorem folded_perm (h : signature.Knows given) :
    (signature.arguments.names.flatMap fun name => signature.folded name given).Perm
      (given.map Prod.snd) := by
  have hkeys : ∀ entry ∈ given, ∃ name ∈ signature.arguments.names,
      signature.resolve? entry.1 = some name := by
    intro entry hentry
    obtain ⟨name, hname⟩ := Option.ne_none_iff_exists'.mp (h entry.1 (List.mem_map_of_mem hentry))
    exact ⟨name, mem_names_of_resolve? hname, hname⟩
  have hperm := (perm_flatMap_filter signature.arguments.nodup_names
    (fun entry : String × List α => signature.resolve? entry.1) hkeys).map Prod.snd
  rwa [List.map_flatMap] at hperm

theorem folded_items_perm (h : signature.Knows given) :
    (signature.arguments.names.flatMap fun name => (signature.folded name given).flatten).Perm
      (given.flatMap Prod.snd) := by
  have hperm := (folded_perm h).flatMap_right id
  rw [List.flatMap_assoc, List.flatMap_map] at hperm
  simpa only [List.flatMap_id, id_eq] using hperm

/-- Calls that give the same have the same items, in another order. -/
theorem SameFolding.perm (h : signature.SameFolding first second) (hfirst : signature.Knows first)
    (hsecond : signature.Knows second) : (first.flatMap Prod.snd).Perm (second.flatMap Prod.snd) := by
  have hsame : (signature.arguments.names.flatMap fun name => (signature.folded name first).flatten) =
      signature.arguments.names.flatMap fun name => (signature.folded name second).flatten :=
    List.flatMap_congr fun name _ => h.flatten name
  exact (folded_items_perm hfirst).symm.trans (hsame ▸ folded_items_perm hsecond)

/-- Items for each argument can be put in the places of a call that is to give them. -/
theorem exists_folded (f : β → α) (h : signature.Knows given) (items : String → List β)
    (hitems : ∀ name, (items name).map f = (signature.folded name given).flatten) :
    ∃ placed : List (String × List β), Entries.mapItems f placed = given ∧
      ∀ name, (signature.folded name placed).flatten = items name := by
  induction given generalizing items with
  | nil =>
    refine ⟨[], rfl, fun name => ?_⟩
    exact (List.map_eq_nil_iff.mp (hitems name)).symm
  | cons entry rest ih =>
    obtain ⟨key, list⟩ := entry
    obtain ⟨primary, hkey⟩ := Option.ne_none_iff_exists'.mp (h key List.mem_cons_self)
    have hprimary := hitems primary
    rw [folded_cons, if_pos hkey, List.flatten_cons] at hprimary
    obtain ⟨here, later, hsplit, rfl, hlater⟩ := List.map_eq_append_iff.mp hprimary
    have hrest : ∀ name, (Function.update items primary later name).map f =
        (signature.folded name rest).flatten := by
      intro name
      by_cases hname : name = primary
      · subst hname
        rwa [Function.update_self]
      · have hother : signature.resolve? key ≠ some name :=
          fun hsame => hname (Option.some.inj (hsame.symm.trans hkey))
        rw [Function.update_of_ne hname, hitems, folded_cons, if_neg hother]
    obtain ⟨placed, hplaced, hfolded⟩ :=
      ih (fun name hname => h name (List.mem_cons_of_mem key hname)) _ hrest
    refine ⟨(key, here) :: placed, congrArg _ hplaced, fun name => ?_⟩
    rw [folded_cons]
    by_cases hname : name = primary
    · subst hname
      rw [if_pos hkey, List.flatten_cons, hfolded, Function.update_self, hsplit]
    · rw [if_neg fun hsame => hname (Option.some.inj (hsame.symm.trans hkey)), hfolded,
        Function.update_of_ne hname]

/-- What the items of a call have come to goes with them to a call that gives the same. -/
theorem SameFolding.exists_placed {given' : List (String × List α)}
    {pairs : List (String × List (α × β))}
    (h : signature.SameFolding (Entries.mapItems Prod.fst pairs) given') (hknows : signature.Knows given') :
    ∃ placed : List (String × List (α × β)), Entries.mapItems Prod.fst placed = given' ∧
      signature.SameFolding pairs placed := by
  obtain ⟨placed, rfl, hfolded⟩ := exists_folded Prod.fst hknows
    (fun name => (signature.folded name pairs).flatten) fun name => by
      rw [← h.flatten, folded_mapItems, List.map_flatten]
  refine ⟨placed, rfl, fun name hname => ⟨?_, (hfolded name).symm⟩⟩
  have hmentions := (h name hname).1
  rwa [folded_mapItems, folded_mapItems, List.map_eq_nil_iff, List.map_eq_nil_iff] at hmentions

/-- Names that stand for different arguments can change places. -/
theorem SameFolding.of_perm (h : first.Perm second)
    (hnames : ((Entries.names first).map signature.resolve?).Nodup) :
    signature.SameFolding first second := by
  intro name _
  have hperm : (signature.folded name first).Perm (signature.folded name second) :=
    (h.filter _).map _
  have hone : (signature.folded name first).length ≤ 1 := by
    rw [folded, List.length_map, ← List.countP_eq_length_filter]
    have hcount := List.nodup_iff_count_le_one.mp hnames (some name)
    rw [Entries.names, List.map_map, List.count, List.countP_map] at hcount
    refine Nat.le_trans (Nat.le_of_eq (List.countP_congr fun entry _ => ?_)) hcount
    simp
  have hsame : signature.folded name first = signature.folded name second := by
    cases hfirst : signature.folded name first with
    | nil =>
      rw [hfirst] at hperm
      exact hperm.nil_eq
    | cons list rest =>
      rw [hfirst] at hperm hone
      obtain rfl : rest = [] := List.length_eq_zero_iff.mp (Nat.le_zero.mp (Nat.le_of_succ_le_succ hone))
      exact (List.perm_singleton.mp hperm.symm).symm
  exact ⟨by rw [hsame], by rw [hsame]⟩

end Signature

end ChainExpr
