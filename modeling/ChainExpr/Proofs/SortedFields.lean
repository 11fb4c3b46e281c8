import ChainExpr.Json.Tree
import ChainExpr.OrderedMap
import Mathlib.Data.List.Nodup

namespace ChainExpr

namespace Json

variable {α β : Type}

theorem lookup_insertField (name other : String) (value : α) (fields : List (String × α)) :
    (insertField name value fields).lookup other =
      if other = name then some value else fields.lookup other := by
  induction fields with
  | nil => rw [insertField, Entries.lookup_cons]
  | cons field rest ih =>
    obtain ⟨k, v⟩ := field
    rw [insertField]
    split
    · rw [Entries.lookup_cons]
    · split
      · rename_i hk
        subst hk
        by_cases h : other = name <;> simp [Entries.lookup_cons, h]
      · rename_i hk
        by_cases h : other = k
        · simp [h, Ne.symm hk]
        · simp [Entries.lookup_cons, h, ih]

theorem mem_names_insertField {name other : String} {value : α} {fields : List (String × α)}
    (h : other ∈ Entries.names (insertField name value fields)) :
    other = name ∨ other ∈ Entries.names fields := by
  induction fields with
  | nil => simpa [insertField, Entries.names] using h
  | cons field rest ih =>
    obtain ⟨k, v⟩ := field
    rw [insertField] at h
    split at h
    · simpa [Entries.names] using h
    · split at h
      · rename_i hk
        subst hk
        simpa [Entries.names] using h
      · simp only [Entries.names, List.map_cons, List.mem_cons] at h ih ⊢
        rcases h with rfl | h
        · exact .inr (.inl rfl)
        · rcases ih h with rfl | h
          · exact .inl rfl
          · exact .inr (.inr h)

theorem increasing_insertField {fields : List (String × α)}
    (h : (Entries.names fields).Pairwise (· < ·)) (name : String) (value : α) :
    (Entries.names (insertField name value fields)).Pairwise (· < ·) := by
  induction fields with
  | nil => simp [insertField, Entries.names]
  | cons field rest ih =>
    obtain ⟨k, v⟩ := field
    obtain ⟨hfirst, hrest⟩ := List.pairwise_cons.mp h
    rw [insertField]
    split
    · rename_i hlt
      refine List.pairwise_cons.mpr ⟨?_, h⟩
      intro other hother
      rcases List.mem_cons.mp hother with rfl | hmem
      · exact hlt
      · exact String.lt_trans hlt (hfirst other hmem)
    · rename_i hge
      split
      · rename_i hk
        subst hk
        exact h
      · rename_i hne
        refine List.pairwise_cons.mpr ⟨?_, ih hrest⟩
        intro other hother
        rcases mem_names_insertField hother with rfl | hmem
        · exact Std.lt_of_le_of_ne (String.not_lt.mp hge) (Ne.symm hne)
        · exact hfirst other hmem

theorem increasing_sortFields (fields : List (String × α)) :
    (Entries.names (sortFields fields)).Pairwise (· < ·) := by
  have hfold : ∀ sorted : List (String × α), (Entries.names sorted).Pairwise (· < ·) →
      (Entries.names (fields.foldl (fun sorted field => insertField field.1 field.2 sorted)
        sorted)).Pairwise (· < ·) := by
    induction fields with
    | nil => exact fun _ h => h
    | cons field rest ih => exact fun _ h => ih _ (increasing_insertField h field.1 field.2)
  exact hfold [] .nil

/-- If putting in an entry is what a lookup makes of it, then of several entries of one name the one that
was put in last is found. -/
theorem lookup_foldl {put : String → α → List (String × α) → List (String × α)}
    (hput : ∀ name value entries other,
      (put name value entries).lookup other = if other = name then some value else entries.lookup other)
    (name : String) (fields entries : List (String × α)) :
    (fields.foldl (fun entries (name, value) => put name value entries) entries).lookup name =
      (fields.reverse.lookup name).or (entries.lookup name) := by
  induction fields generalizing entries with
  | nil => simp
  | cons field rest ih =>
    obtain ⟨k, v⟩ := field
    rw [List.foldl_cons, ih, hput, List.reverse_cons, List.lookup_append, Option.or_assoc]
    by_cases h : name = k <;> simp [Entries.lookup_cons, h]

theorem lookup_sortFields (name : String) (fields : List (String × α)) :
    (sortFields fields).lookup name = fields.reverse.lookup name := by
  have hput (name : String) (value : α) entries other :=
    lookup_insertField name other value entries
  simpa [sortFields] using lookup_foldl hput name fields []

theorem lookup_ofList (name : String) (fields : List (String × α)) :
    (Entries.ofList fields).lookup name = fields.reverse.lookup name := by
  have hput (name : String) (value : α) entries other :=
    Entries.lookup_insert name other value entries
  simpa [Entries.ofList] using lookup_foldl hput name fields []

theorem nodup_names_ofList (fields : List (String × α)) :
    (Entries.names (Entries.ofList fields)).Nodup := by
  have hfold : ∀ entries : List (String × α), (Entries.names entries).Nodup →
      (Entries.names (fields.foldl (fun map (name, value) => Entries.insert name value map)
        entries)).Nodup := by
    induction fields with
    | nil => exact fun _ h => h
    | cons field rest ih => exact fun _ h => ih _ (Entries.nodup_names_insert h field.1 field.2)
  exact hfold [] .nil

theorem lookup_eq_none {name : String} {entries : List (String × α)}
    (h : name ∉ Entries.names entries) : entries.lookup name = none := by
  induction entries with
  | nil => rfl
  | cons entry rest ih =>
    obtain ⟨k, v⟩ := entry
    simp only [Entries.names, List.map_cons, List.mem_cons, not_or] at h ih
    simp [Entries.lookup_cons, h.1, ih h.2]

/-- Where no name comes twice, it does not matter from which end a name is looked up. -/
theorem lookup_reverse (name : String) {entries : List (String × α)}
    (h : (Entries.names entries).Nodup) : entries.reverse.lookup name = entries.lookup name := by
  induction entries with
  | nil => rfl
  | cons entry rest ih =>
    obtain ⟨k, v⟩ := entry
    obtain ⟨hnew, hrest⟩ := List.nodup_cons.mp h
    rw [List.reverse_cons, List.lookup_append, ih hrest, Entries.lookup_cons, Entries.lookup_cons]
    by_cases hk : name = k
    · subst hk
      simp [lookup_eq_none hnew]
    · simp [hk]

theorem mem_of_lookup {name : String} {value : α} {entries : List (String × α)}
    (h : entries.lookup name = some value) : (name, value) ∈ entries := by
  induction entries with
  | nil => cases h
  | cons entry rest ih =>
    obtain ⟨k, v⟩ := entry
    rw [Entries.lookup_cons] at h
    by_cases hk : name = k
    · simp_all
    · rw [if_neg hk] at h
      exact List.mem_cons_of_mem _ (ih h)

theorem mem_iff_lookup {name : String} {value : α} {entries : List (String × α)}
    (h : (Entries.names entries).Nodup) :
    (name, value) ∈ entries ↔ entries.lookup name = some value := by
  induction entries with
  | nil => simp
  | cons entry rest ih =>
    obtain ⟨k, v⟩ := entry
    obtain ⟨hnew, hrest⟩ := List.nodup_cons.mp h
    rw [List.mem_cons, ih hrest, Entries.lookup_cons]
    by_cases hk : name = k
    · subst hk
      simp [lookup_eq_none hnew, eq_comm]
    · simp [hk]

theorem nodup_of_increasing {entries : List (String × α)}
    (h : (Entries.names entries).Pairwise (· < ·)) : (Entries.names entries).Nodup :=
  h.imp fun hlt => Std.ne_of_lt hlt

/-- Entries in increasing order are known by what is found in them. -/
theorem eq_of_lookup {entries entries' : List (String × α)}
    (h : (Entries.names entries).Pairwise (· < ·)) (h' : (Entries.names entries').Pairwise (· < ·))
    (hlookup : ∀ name, entries.lookup name = entries'.lookup name) : entries = entries' := by
  have hnodup := nodup_of_increasing h
  have hnodup' := nodup_of_increasing h'
  have hperm : entries.Perm entries' := by
    refine (List.perm_ext_iff_of_nodup (.of_map _ hnodup) (.of_map _ hnodup')).mpr ?_
    rintro ⟨name, value⟩
    rw [mem_iff_lookup hnodup, mem_iff_lookup hnodup', hlookup]
  refine hperm.eq_of_pairwise ?_ (List.pairwise_map.mp h) (List.pairwise_map.mp h')
  intro a b _ _ hab hba
  exact absurd (String.lt_trans hab hba) (String.lt_irrefl _)

theorem sortFields_of_increasing {fields : List (String × α)}
    (h : (Entries.names fields).Pairwise (· < ·)) : sortFields fields = fields := by
  apply eq_of_lookup (increasing_sortFields fields) h
  intro name
  rw [lookup_sortFields, lookup_reverse name (nodup_of_increasing h)]

theorem lookup_map (f : α → β) (name : String) (entries : List (String × α)) :
    (entries.map fun (name, value) => (name, f value)).lookup name = (entries.lookup name).map f := by
  induction entries with
  | nil => rfl
  | cons entry rest ih =>
    obtain ⟨k, v⟩ := entry
    by_cases h : name = k <;> simp [Entries.lookup_cons, h, ih]

/-- It does not matter whether fields are sorted as they come or after repeated ones are dropped. -/
theorem sortFields_map_ofList (f : α → β) (fields : List (String × α)) :
    sortFields (fields.map fun (name, value) => (name, f value)) =
      sortFields ((Entries.ofList fields).map fun (name, value) => (name, f value)) := by
  apply eq_of_lookup (increasing_sortFields _) (increasing_sortFields _)
  intro name
  rw [lookup_sortFields, lookup_sortFields, ← List.map_reverse, ← List.map_reverse, lookup_map,
    lookup_map, lookup_reverse name (nodup_names_ofList fields), lookup_ofList]

/-- Reading what has been rearranged item by item rearranges what is read item by item. -/
theorem mapM_map {read : α → Option β} {f : α → α} {g : β → β} {items : List α}
    (h : ∀ item ∈ items, read (f item) = (read item).map g) :
    (items.map f).mapM read = (items.mapM read).map (List.map g) := by
  induction items with
  | nil => rfl
  | cons item rest ih =>
    have hitem := h item List.mem_cons_self
    have hrest := ih fun other hother => h other (List.mem_cons_of_mem item hother)
    rw [List.map_cons, List.mapM_cons, List.mapM_cons, hitem, hrest]
    cases read item <;> cases rest.mapM read <;> simp

/-- Reads the value of a field. -/
def readField? (read : α → Option β) : String × α → Option (String × β)
  | (name, value) => (read value).map (name, ·)

theorem mapM_insertField (read : α → Option β) {name : String} (value : α)
    {fields : List (String × α)} (hnew : name ∉ Entries.names fields) :
    (insertField name value fields).mapM (readField? read) =
      (read value).bind fun value =>
        (fields.mapM (readField? read)).map (insertField name value) := by
  induction fields with
  | nil => cases h : read value <;> simp [insertField, readField?, h]
  | cons field rest ih =>
    obtain ⟨k, v⟩ := field
    simp only [Entries.names, List.map_cons, List.mem_cons, not_or] at hnew ih
    by_cases hlt : name < k
    · cases hvalue : read value <;> cases hv : read v <;>
        cases hrest : rest.mapM (readField? read) <;>
        simp [insertField, hlt, readField?, List.mapM_cons, hvalue, hv, hrest]
    · cases hvalue : read value <;> cases hv : read v <;>
        cases hrest : rest.mapM (readField? read) <;>
        simp [insertField, hlt, hnew.1, readField?, List.mapM_cons, hvalue, hv, hrest, ih hnew.2]

theorem mapM_sortFields (read : α → Option β) {fields : List (String × α)}
    (h : (Entries.names fields).Nodup) :
    (sortFields fields).mapM (readField? read) =
      (fields.mapM (readField? read)).map sortFields := by
  have hfold : ∀ sorted : List (String × α),
      (∀ name ∈ Entries.names fields, name ∉ Entries.names sorted) →
      (fields.foldl (fun sorted (name, value) => insertField name value sorted) sorted).mapM
          (readField? read) =
        (sorted.mapM (readField? read)).bind fun sorted =>
          (fields.mapM (readField? read)).map fun fields =>
            fields.foldl (fun sorted (name, value) => insertField name value sorted) sorted := by
    induction fields with
    | nil => simp
    | cons field rest ih =>
      obtain ⟨k, v⟩ := field
      obtain ⟨hk, hrest⟩ := List.nodup_cons.mp h
      intro sorted hnew
      have hsorted : k ∉ Entries.names sorted := hnew k List.mem_cons_self
      have hlater : ∀ name ∈ Entries.names rest,
          name ∉ Entries.names (insertField k v sorted) := by
        intro name hname hmem
        rcases mem_names_insertField hmem with rfl | hmem
        · exact hk hname
        · exact hnew name (List.mem_cons_of_mem _ hname) hmem
      rw [List.foldl_cons, ih hrest _ hlater, mapM_insertField read v hsorted, List.mapM_cons]
      cases hv : read v <;> cases sorted.mapM (readField? read) <;>
        cases rest.mapM (readField? read) <;> simp [readField?, hv]
  have hsorted : (sortFields fields).mapM (readField? read) =
      (some []).bind fun sorted => (fields.mapM (readField? read)).map fun fields =>
        fields.foldl (fun sorted (name, value) => insertField name value sorted) sorted :=
    hfold [] (by simp [Entries.names])
  exact hsorted

mutual

/-- The document with the fields of every object sorted by name. -/
def sorted : Json → Json
  | .null => .null
  | .bool b => .bool b
  | .number n => .number n
  | .string s => .string s
  | .array items => .array (sortedItems items)
  | .object fields => .object (sortFields (sortedFields fields))

def sortedItems : List Json → List Json
  | [] => []
  | item :: rest => item.sorted :: sortedItems rest

def sortedFields : List (String × Json) → List (String × Json)
  | [] => []
  | (name, value) :: rest => (name, value.sorted) :: sortedFields rest

end

theorem sortedItems_eq (items : List Json) : sortedItems items = items.map sorted := by
  induction items with
  | nil => rfl
  | cons item rest ih => rw [sortedItems, ih, List.map_cons]

theorem sortedFields_eq (fields : List (String × Json)) :
    sortedFields fields = fields.map fun (name, value) => (name, value.sorted) := by
  induction fields with
  | nil => rfl
  | cons field rest ih =>
    obtain ⟨name, value⟩ := field
    rw [sortedFields, ih, List.map_cons]

/-- No object has two fields of one name. -/
inductive Distinct : Json → Prop
  | null : Distinct .null
  | bool (b : Bool) : Distinct (.bool b)
  | number (n : JsonNumber) : Distinct (.number n)
  | string (s : String) : Distinct (.string s)
  | array {items : List Json} (inside : ∀ item ∈ items, Distinct item) : Distinct (.array items)
  | object {fields : List (String × Json)} (names : (Entries.names fields).Nodup)
      (inside : ∀ field ∈ fields, Distinct field.2) : Distinct (.object fields)

namespace Tree

mutual

/-- The document of a tree as it is written: its objects keep the order of their fields. A repeated
field has its first place and its last value. -/
def written? : Nat → Tree → Option Json
  | _, .null => some .null
  | _, .bool b => some (.bool b)
  | _, .number n => n.value?.map .number
  | _, .string pieces => (piecesString? pieces).map .string
  | 0, .array _ => none
  | depth + 1, .array items => (writtenItems? depth items).map .array
  | 0, .object _ => none
  | depth + 1, .object fields =>
    (writtenFields? depth fields).map fun fields => .object (Entries.ofList fields)

def writtenItems? : Nat → List Tree → Option (List Json)
  | _, [] => some []
  | depth, item :: rest => do
    let item ← written? depth item
    let rest ← writtenItems? depth rest
    return item :: rest

def writtenFields? : Nat → List (List Piece × Tree) → Option (List (String × Json))
  | _, [] => some []
  | depth, (name, value) :: rest => do
    let name ← piecesString? name
    let value ← written? depth value
    let rest ← writtenFields? depth rest
    return (name, value) :: rest

end

mutual

theorem toJson?_eq (depth : Nat) (tree : Tree) :
    tree.toJson? depth = (tree.written? depth).map sorted := by
  cases tree with
  | null => rfl
  | bool b => rfl
  | number n =>
    rw [toJson?, written?, Option.map_map]
    rfl
  | string pieces =>
    rw [toJson?, written?, Option.map_map]
    rfl
  | array items =>
    cases depth with
    | zero => rfl
    | succ depth =>
      rw [toJson?, written?, itemsJson?_eq, Option.map_map, Option.map_map]
      rfl
  | object fields =>
    cases depth with
    | zero => rfl
    | succ depth =>
      rw [toJson?, written?, fieldsJson?_eq, Option.map_map, Option.map_map]
      refine Option.map_congr fun fields _ => ?_
      have hdropped := sortFields_map_ofList sorted fields
      simp only [Function.comp_apply, ofFields, sorted, sortedFields_eq, hdropped]

theorem itemsJson?_eq (depth : Nat) (items : List Tree) :
    itemsJson? depth items = (writtenItems? depth items).map sortedItems := by
  cases items with
  | nil => rfl
  | cons item rest =>
    rw [itemsJson?, writtenItems?, toJson?_eq, itemsJson?_eq]
    cases written? depth item with
    | none => rfl
    | some item => cases writtenItems? depth rest <;> rfl

theorem fieldsJson?_eq (depth : Nat) (fields : List (List Piece × Tree)) :
    fieldsJson? depth fields = (writtenFields? depth fields).map sortedFields := by
  cases fields with
  | nil => rfl
  | cons field rest =>
    obtain ⟨name, value⟩ := field
    rw [fieldsJson?, writtenFields?, toJson?_eq, fieldsJson?_eq]
    cases piecesString? name with
    | none => rfl
    | some name =>
      cases written? depth value with
      | none => rfl
      | some value => cases writtenFields? depth rest <;> rfl

end

mutual

theorem distinct_of_written {depth : Nat} {tree : Tree} {document : Json}
    (h : tree.written? depth = some document) : document.Distinct := by
  cases tree with
  | null =>
    cases h
    exact .null
  | bool b =>
    cases h
    exact .bool b
  | number n =>
    obtain ⟨_, _, rfl⟩ := Option.map_eq_some_iff.mp h
    exact .number _
  | string pieces =>
    obtain ⟨_, _, rfl⟩ := Option.map_eq_some_iff.mp h
    exact .string _
  | array items =>
    cases depth with
    | zero => cases h
    | succ depth =>
      obtain ⟨_, hitems, rfl⟩ := Option.map_eq_some_iff.mp h
      exact .array (distinct_items_of_written hitems)
  | object fields =>
    cases depth with
    | zero => cases h
    | succ depth =>
      obtain ⟨fields', hfields, rfl⟩ := Option.map_eq_some_iff.mp h
      have hnodup := nodup_names_ofList fields'
      refine .object hnodup ?_
      rintro ⟨name, value⟩ hmem
      rw [mem_iff_lookup hnodup, lookup_ofList] at hmem
      have hgiven := mem_of_lookup hmem
      rw [List.mem_reverse] at hgiven
      exact distinct_fields_of_written hfields _ hgiven

theorem distinct_items_of_written {depth : Nat} {items : List Tree} {documents : List Json}
    (h : writtenItems? depth items = some documents) : ∀ item ∈ documents, item.Distinct := by
  cases items with
  | nil =>
    cases h
    simp
  | cons item rest =>
    simp only [writtenItems?, Option.bind_eq_bind, Option.bind_eq_some_iff] at h
    obtain ⟨first, hfirst, later, hlater, hsame⟩ := h
    cases hsame
    intro document hmem
    rcases List.mem_cons.mp hmem with rfl | hmem
    · exact distinct_of_written hfirst
    · exact distinct_items_of_written hlater document hmem

theorem distinct_fields_of_written {depth : Nat} {fields : List (List Piece × Tree)}
    {documents : List (String × Json)} (h : writtenFields? depth fields = some documents) :
    ∀ field ∈ documents, field.2.Distinct := by
  cases fields with
  | nil =>
    cases h
    simp
  | cons field rest =>
    obtain ⟨pieces, value⟩ := field
    simp only [writtenFields?, Option.bind_eq_bind, Option.bind_eq_some_iff] at h
    obtain ⟨name, _, first, hfirst, later, hlater, hsame⟩ := h
    cases hsame
    intro document hmem
    rcases List.mem_cons.mp hmem with rfl | hmem
    · exact distinct_of_written hfirst
    · exact distinct_fields_of_written hlater document hmem

end

end Tree

/-- The document of a whole text as it is written. -/
def written? (text : String) : Option Json :=
  (Tree.parse? text).bind (Tree.written? depthLimit)

theorem distinct_of_written {text : String} {document : Json} (h : written? text = some document) :
    document.Distinct := by
  obtain ⟨tree, _, htree⟩ := Option.bind_eq_some_iff.mp h
  exact Tree.distinct_of_written htree

/-- A document that is read is the written one, sorted. -/
theorem parse?_eq (text : String) : parse? text = (written? text).map sorted := by
  rw [parse?, written?]
  cases Tree.parse? text with
  | none => rfl
  | some tree => exact tree.toJson?_eq depthLimit

end Json

end ChainExpr
