namespace ChainExpr

namespace Entries

variable {α : Type}

/-- Replaces the value of a name where it stands, or adds the entry at the end. -/
def insert (name : String) (value : α) : List (String × α) → List (String × α)
  | [] => [(name, value)]
  | (k, v) :: rest => if name = k then (k, value) :: rest else (k, v) :: insert name value rest

/-- Adds values behind those a name has already. A new name comes last. -/
def extend (name : String) (values : List α) :
    List (String × List α) → List (String × List α)
  | [] => [(name, values)]
  | (k, old) :: rest =>
    if name = k then (k, old ++ values) :: rest else (k, old) :: extend name values rest

/-- The entries after inserting one after the other. -/
def ofList (entries : List (String × α)) : List (String × α) :=
  entries.foldl (fun map (name, value) => insert name value map) []

def names (entries : List (String × α)) : List String := entries.map Prod.fst

theorem names_insert (name : String) (value : α) (entries : List (String × α)) :
    names (insert name value entries) =
      if name ∈ names entries then names entries else names entries ++ [name] := by
  induction entries with
  | nil => simp [insert, names]
  | cons entry rest ih =>
    obtain ⟨k, v⟩ := entry
    simp only [names, List.map_cons] at ih ⊢
    by_cases hk : name = k
    · simp [insert, hk]
    · simp only [insert, hk, ↓reduceIte, List.map_cons, ih, List.mem_cons, false_or]
      by_cases hr : name ∈ List.map Prod.fst rest
      · simp only [hr, ↓reduceIte]
      · simp only [hr, ↓reduceIte, List.cons_append]

theorem nodup_names_insert {entries : List (String × α)} (h : (names entries).Nodup)
    (name : String) (value : α) : (names (insert name value entries)).Nodup := by
  rw [names_insert]
  split
  · exact h
  · rename_i hnew
    refine List.nodup_append.mpr ⟨h, by simp, ?_⟩
    intro a ha b hb hab
    simp only [List.mem_cons, List.not_mem_nil, or_false] at hb
    exact hnew (hb ▸ hab ▸ ha)

theorem lookup_cons (name other : String) (value : α) (entries : List (String × α)) :
    ((name, value) :: entries).lookup other =
      if other = name then some value else entries.lookup other := by
  by_cases h : other = name
  · simp [h]
  · have hne : (other == name) = false := by simpa using h
    simp [List.lookup_cons, hne, h]

theorem lookup_insert (name other : String) (value : α) (entries : List (String × α)) :
    (insert name value entries).lookup other =
      if other = name then some value else entries.lookup other := by
  induction entries with
  | nil => rw [insert, lookup_cons]
  | cons entry rest ih =>
    obtain ⟨k, v⟩ := entry
    by_cases hk : name = k
    · subst hk
      by_cases h : other = name <;> simp [insert, lookup_cons, h]
    · by_cases ho : other = k
      · simp [insert, hk, ho, Ne.symm hk]
      · simp [insert, hk, lookup_cons, ho, ih]

end Entries

/-- A map in order of first insertion. -/
structure OrderedMap (α : Type) where
  entries : List (String × α)
  nodup_names : (Entries.names entries).Nodup

namespace OrderedMap

variable {α : Type}

def empty : OrderedMap α := ⟨[], List.nodup_nil⟩

instance : EmptyCollection (OrderedMap α) := ⟨empty⟩

instance : Inhabited (OrderedMap α) := ⟨empty⟩

def insert (map : OrderedMap α) (name : String) (value : α) : OrderedMap α :=
  ⟨Entries.insert name value map.entries, Entries.nodup_names_insert map.nodup_names name value⟩

def get? (map : OrderedMap α) (name : String) : Option α := map.entries.lookup name

def contains (map : OrderedMap α) (name : String) : Bool := (map.get? name).isSome

def names (map : OrderedMap α) : List String := Entries.names map.entries

def size (map : OrderedMap α) : Nat := map.entries.length

def isEmpty (map : OrderedMap α) : Bool := map.entries.isEmpty

/-- The map after inserting one entry after the other. -/
def ofList (entries : List (String × α)) : OrderedMap α :=
  entries.foldl (fun map (name, value) => map.insert name value) ∅

/-- Gives one value to several names, each one that is there in its place. -/
def insertAll (map : OrderedMap α) (names : List String) (value : α) : OrderedMap α :=
  names.foldl (fun map name => map.insert name value) map

theorem get?_insert (map : OrderedMap α) (name other : String) (value : α) :
    (map.insert name value).get? other = if other = name then some value else map.get? other :=
  Entries.lookup_insert name other value map.entries

theorem names_insert (map : OrderedMap α) (name : String) (value : α) :
    (map.insert name value).names =
      if name ∈ map.names then map.names else map.names ++ [name] :=
  Entries.names_insert name value map.entries

theorem mem_names_insert (map : OrderedMap α) (name other : String) (value : α) :
    other ∈ (map.insert name value).names ↔ other = name ∨ other ∈ map.names := by
  rw [names_insert]
  by_cases hold : name ∈ map.names
  · simp only [hold, ↓reduceIte]
    constructor
    · exact .inr
    · rintro (rfl | hmem)
      · exact hold
      · exact hmem
  · simp [hold, or_comm]

theorem get?_insertAll (map : OrderedMap α) (names : List String) (other : String) (value : α) :
    (map.insertAll names value).get? other =
      if other ∈ names then some value else map.get? other := by
  induction names generalizing map with
  | nil => simp [insertAll]
  | cons name rest ih =>
    have hrest := ih (map.insert name value)
    simp only [insertAll, List.foldl_cons] at hrest ⊢
    rw [hrest, get?_insert]
    by_cases hr : other ∈ rest
    · simp [hr]
    · by_cases hn : other = name
      · simp [hn]
      · simp [hr, hn]

end OrderedMap

end ChainExpr
