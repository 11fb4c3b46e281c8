import ChainExpr.OrderedMap
import ChainExpr.Proofs.Fitting
import ChainExpr.Proofs.SortedFields
import Mathlib.Data.List.Induction

namespace ChainExpr

/-- One more name at the end changes the distinct names only if it is new. -/
theorem eraseDups_append_singleton (names : List String) (name : String) :
    (names ++ [name]).eraseDups =
      if name ∈ names then names.eraseDups else names.eraseDups ++ [name] := by
  rw [List.eraseDups_append]
  by_cases h : name ∈ names <;> simp [List.removeAll, h, List.eraseDups_cons]

namespace OrderedMap

variable {α : Type}

theorem ofList_append_singleton (entries : List (String × α)) (name : String) (value : α) :
    ofList (entries ++ [(name, value)]) = (ofList entries).insert name value := by
  simp [ofList]

theorem entries_ofList (entries : List (String × α)) :
    (ofList entries).entries = Entries.ofList entries := by
  induction entries using List.reverseRecOn with
  | nil => rfl
  | append_singleton before entry ih =>
    obtain ⟨name, value⟩ := entry
    rw [ofList_append_singleton]
    change Entries.insert name value (ofList before).entries = _
    rw [ih]
    simp [Entries.ofList]

theorem names_ofList (entries : List (String × α)) :
    (ofList entries).names = (Entries.names entries).eraseDups := by
  induction entries using List.reverseRecOn with
  | nil => rfl
  | append_singleton before entry ih =>
    obtain ⟨name, value⟩ := entry
    have hnames : Entries.names (before ++ [(name, value)]) = Entries.names before ++ [name] :=
      List.map_append
    rw [ofList_append_singleton, names_insert, ih, hnames, eraseDups_append_singleton]
    simp only [List.mem_eraseDups]

theorem get?_ofList (entries : List (String × α)) (name : String) :
    (ofList entries).get? name = entries.reverse.lookup name := by
  rw [get?, entries_ofList, Json.lookup_ofList]

/-- Entries of distinct names are put in one behind the other. -/
theorem entries_ofList_of_nodup {entries : List (String × α)} (h : (Entries.names entries).Nodup) :
    (ofList entries).entries = entries := by
  induction entries using List.reverseRecOn with
  | nil => rfl
  | append_singleton before entry ih =>
    obtain ⟨name, value⟩ := entry
    rw [Entries.names, List.map_append, List.nodup_append] at h
    obtain ⟨hbefore, -, hapart⟩ := h
    have hnew : name ∉ Entries.names before := fun hold => hapart name hold name (by simp) rfl
    have hsame := ih hbefore
    rw [ofList_append_singleton]
    change Entries.insert name value (ofList before).entries = _
    rw [hsame, Entries.insert_of_not_mem hnew]

/-- A map is made again of its own entries. -/
theorem ofList_entries (map : OrderedMap α) : ofList map.entries = map := by
  have hentries := entries_ofList_of_nodup map.nodup_names
  generalize ofList map.entries = other at hentries
  cases map
  cases other
  cases hentries
  rfl

end OrderedMap

end ChainExpr
