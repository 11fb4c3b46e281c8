import ChainExpr.Proofs.NearestNumber
import ChainExpr.Proofs.WireGrammar

namespace ChainExpr

namespace JsonNumber

/-- What a number of a document is meant to be. -/
def value : JsonNumber → ℚ
  | .integer n => n
  | .float x => Number.value x

def WellFormed : JsonNumber → Prop
  | .integer n => -2 ^ 63 ≤ n ∧ n < 2 ^ 64
  | .float x => Number.rank x < Number.infinityRank

theorem toFloat_isNearest {n : JsonNumber} (h : n.WellFormed) :
    Number.IsNearest n.value n.toFloat := by
  cases n with
  | integer n => exact Number.ofInt_isNearest h.1 h.2
  | float x => exact Number.isNearest_self h

end JsonNumber

namespace Json

section

variable {α : Type} {fields : List (String × α)}

theorem perm_sortFields (names : (Entries.names fields).Nodup) : (sortFields fields).Perm fields := by
  have hsorted := nodup_of_increasing (increasing_sortFields fields)
  refine (List.perm_ext_iff_of_nodup (.of_map _ hsorted) (.of_map _ names)).mpr ?_
  rintro ⟨name, value⟩
  rw [mem_iff_lookup hsorted, mem_iff_lookup names, lookup_sortFields, lookup_reverse name names]

theorem mem_of_mem_sortFields {field : String × α} (h : field ∈ sortFields fields) :
    field ∈ fields := by
  have hsorted := nodup_of_increasing (increasing_sortFields fields)
  obtain ⟨name, value⟩ := field
  rw [mem_iff_lookup hsorted, lookup_sortFields] at h
  exact List.mem_reverse.mp (mem_of_lookup h)

end

/-- A document as it is read: its numbers are in range and the fields of every object are sorted by name. -/
inductive WellFormed : Json → Prop
  | null : WellFormed .null
  | bool (b : Bool) : WellFormed (.bool b)
  | number {n : JsonNumber} (range : n.WellFormed) : WellFormed (.number n)
  | string (s : String) : WellFormed (.string s)
  | array {items : List Json} (inside : ∀ item ∈ items, WellFormed item) : WellFormed (.array items)
  | object {fields : List (String × Json)} (names : (Entries.names fields).Pairwise (· < ·))
      (inside : ∀ field ∈ fields, WellFormed field.2) : WellFormed (.object fields)

theorem WellFormed.distinct {document : Json} (h : document.WellFormed) : document.Distinct := by
  induction h with
  | null => exact .null
  | bool b => exact .bool b
  | number range => exact .number _
  | string s => exact .string s
  | array _ ih => exact .array ih
  | object names _ ih => exact .object (nodup_of_increasing names) ih

theorem WellFormed.sorted_eq {document : Json} (h : document.WellFormed) : document.sorted = document := by
  induction h with
  | null | bool | number | string => rfl
  | array _ ih =>
    rw [sorted, sortedItems_eq, List.map_congr_left ih, List.map_id']
  | @object fields names _ ih =>
    have hfields : sortedFields fields = fields := by
      rw [sortedFields_eq]
      refine (List.map_congr_left fun field hfield => ?_).trans (List.map_id fields)
      exact Prod.ext rfl (ih field hfield)
    rw [sorted, hfields, sortFields_of_increasing names]

theorem wellFormed_sorted_string (s : String) : (string s).sorted.WellFormed := .string s

theorem wellFormed_sorted_array {items : List Json} (inside : ∀ item ∈ items, item.sorted.WellFormed) :
    (array items).sorted.WellFormed := by
  rw [sorted, sortedItems_eq]
  exact .array (List.forall_mem_map.mpr inside)

theorem wellFormed_sorted_object {fields : List (String × Json)}
    (inside : ∀ field ∈ fields, field.2.sorted.WellFormed) : (object fields).sorted.WellFormed := by
  rw [sorted, sortedFields_eq]
  refine .object (increasing_sortFields _) fun field hfield => ?_
  obtain ⟨given, hgiven, rfl⟩ := List.mem_map.mp (mem_of_mem_sortFields hfield)
  exact inside given hgiven

end Json

namespace Node

mutual

/-- The document of a node, its fields and the arguments of its links as they come. -/
def toJson : Node → Json
  | .expression chain => .object [("type", .string "expression"), ("chain", .array (chainJson chain))]
  | .deferred chain => .object [("type", .string "partial"), ("chain", .array (chainJson chain))]
  | .reference name => .object [("type", .string "function"), ("name", .string name)]
  | .literal value => value.toJson

def chainJson : List (LinkOf Node) → List Json
  | [] => []
  | link :: rest => linkJson link :: chainJson rest

def linkJson : LinkOf Node → Json
  | ⟨function, arguments⟩ =>
    .object [("function", .string function), ("arguments", .object (argumentsJson arguments))]

def argumentsJson : List (String × List Node) → List (String × Json)
  | [] => []
  | (name, values) :: rest => (name, .array (valuesJson values)) :: argumentsJson rest

def valuesJson : List Node → List Json
  | [] => []
  | value :: rest => value.toJson :: valuesJson rest

end

theorem chainJson_eq (chain : Chain) : chainJson chain = chain.map linkJson := by
  induction chain with
  | nil => rfl
  | cons link rest ih => rw [chainJson, ih, List.map_cons]

theorem valuesJson_eq (values : List Node) : valuesJson values = values.map toJson := by
  induction values with
  | nil => rfl
  | cons value rest ih => rw [valuesJson, ih, List.map_cons]

theorem argumentsJson_eq (arguments : List (String × List Node)) :
    argumentsJson arguments = arguments.map fun (name, values) => (name, .array (valuesJson values)) := by
  induction arguments with
  | nil => rfl
  | cons argument rest ih =>
    obtain ⟨name, values⟩ := argument
    rw [argumentsJson, ih, List.map_cons]

/-- All numbers are finite, and no link is given an argument twice. -/
inductive Writable : Node → Prop
  | expression {chain : List (LinkOf Node)}
      (names : ∀ link ∈ chain, (Entries.names link.arguments).Nodup)
      (inside : ∀ link ∈ chain, ∀ argument ∈ link.arguments, ∀ value ∈ argument.2, Writable value) :
      Writable (.expression chain)
  | deferred {chain : List (LinkOf Node)}
      (names : ∀ link ∈ chain, (Entries.names link.arguments).Nodup)
      (inside : ∀ link ∈ chain, ∀ argument ∈ link.arguments, ∀ value ∈ argument.2, Writable value) :
      Writable (.deferred chain)
  | reference (name : String) : Writable (.reference name)
  | literal {value : Literal}
      (finite : ∀ x, value = .number x → Number.rank x < Number.infinityRank) :
      Writable (.literal value)

section

variable {chain : Chain}

theorem spells_chainJson
    (inside : ∀ link ∈ chain, ∀ argument ∈ link.arguments, ∀ value ∈ argument.2,
      Spells value.toJson value) : List.Forall₂ SpellsLink (chainJson chain) chain := by
  rw [chainJson_eq, List.forall₂_map_left_iff, List.forall₂_same]
  rintro ⟨function, arguments⟩ hlink
  refine .given rfl rfl ?_
  rw [argumentsJson_eq, List.forall₂_map_left_iff, List.forall₂_same]
  rintro ⟨name, values⟩ hargument
  refine .values ?_
  rw [valuesJson_eq, List.forall₂_map_left_iff, List.forall₂_same]
  exact inside _ hlink _ hargument

theorem distinct_chainJson (names : ∀ link ∈ chain, (Entries.names link.arguments).Nodup)
    (inside : ∀ link ∈ chain, ∀ argument ∈ link.arguments, ∀ value ∈ argument.2,
      value.toJson.Distinct) : (Json.array (chainJson chain)).Distinct := by
  rw [chainJson_eq]
  refine .array (List.forall_mem_map.mpr ?_)
  rintro ⟨function, arguments⟩ hlink
  have harguments : (Json.object (argumentsJson arguments)).Distinct := by
    rw [argumentsJson_eq]
    refine .object ?_ (List.forall_mem_map.mpr ?_)
    · rw [Entries.names, List.map_map]
      exact names _ hlink
    · rintro ⟨name, values⟩ hargument
      change (Json.array (valuesJson values)).Distinct
      rw [valuesJson_eq]
      exact .array (List.forall_mem_map.mpr (inside _ hlink _ hargument))
  exact .object (by simp [Entries.names]) (by simp [harguments, Json.Distinct.string])

theorem wellFormed_chainJson
    (inside : ∀ link ∈ chain, ∀ argument ∈ link.arguments, ∀ value ∈ argument.2,
      value.toJson.sorted.WellFormed) : (Json.array (chainJson chain)).sorted.WellFormed := by
  rw [chainJson_eq]
  refine Json.wellFormed_sorted_array (List.forall_mem_map.mpr ?_)
  rintro ⟨function, arguments⟩ hlink
  have harguments : (Json.object (argumentsJson arguments)).sorted.WellFormed := by
    rw [argumentsJson_eq]
    refine Json.wellFormed_sorted_object (List.forall_mem_map.mpr ?_)
    rintro ⟨name, values⟩ hargument
    change (Json.array (valuesJson values)).sorted.WellFormed
    rw [valuesJson_eq]
    exact Json.wellFormed_sorted_array (List.forall_mem_map.mpr (inside _ hlink _ hargument))
  exact Json.wellFormed_sorted_object (by simp [harguments, Json.wellFormed_sorted_string])

end

theorem Writable.spells {node : Node} (h : node.Writable) : Spells node.toJson node := by
  induction h with
  | expression _ _ ih => exact .expression rfl rfl (spells_chainJson ih)
  | deferred _ _ ih => exact .deferred rfl rfl (spells_chainJson ih)
  | reference name => exact .reference rfl rfl
  | @literal value _ =>
    cases value with
    | null => exact .null
    | boolean b => exact .bool b
    | number x => exact .number (.float x)
    | string s => exact .string s

theorem Writable.distinct {node : Node} (h : node.Writable) : node.toJson.Distinct := by
  induction h with
  | expression names _ ih | deferred names _ ih =>
    have hchain := distinct_chainJson names ih
    exact .object (by simp [Entries.names]) (by simp [hchain, Json.Distinct.string])
  | reference name => exact .object (by simp [Entries.names]) (by simp [Json.Distinct.string])
  | @literal value _ => cases value <;> constructor

theorem Writable.wellFormed {node : Node} (h : node.Writable) : node.toJson.sorted.WellFormed := by
  induction h with
  | expression _ _ ih | deferred _ _ ih =>
    have hchain := wellFormed_chainJson ih
    exact Json.wellFormed_sorted_object (by simp [hchain, Json.wellFormed_sorted_string])
  | reference name =>
    exact Json.wellFormed_sorted_object (by simp [Json.wellFormed_sorted_string])
  | @literal value finite =>
    cases value with
    | number x => exact .number (finite x rfl)
    | _ => constructor

theorem beqNodes_iff {as bs : List Node} :
    beqNodes as bs = true ↔ List.Forall₂ (fun a b => (a == b) = true) as bs := by
  induction as generalizing bs with
  | nil => cases bs <;> simp [beqNodes]
  | cons a as ih =>
    cases bs with
    | nil => simp [beqNodes]
    | cons b bs =>
      rw [beqNodes, Bool.and_eq_true, ih, List.forall₂_cons]
      rfl

theorem beqArguments_iff {arguments others : List (String × List Node)} :
    beqArguments arguments others = true ↔ ∀ argument ∈ arguments, ∃ values,
      others.lookup argument.1 = some values ∧ beqNodes argument.2 values = true := by
  induction arguments with
  | nil => simp [beqArguments]
  | cons argument rest ih =>
    obtain ⟨name, values⟩ := argument
    rw [beqArguments, Bool.and_eq_true, ih, List.forall_mem_cons]
    cases others.lookup name <;> simp

/-- Two links are equal if they call one function and have as many arguments, and each argument of the
one is equal to that of its name in the other. -/
structure EqualLinks (a b : Link) : Prop where
  function : a.function = b.function
  count : a.arguments.length = b.arguments.length
  arguments : ∀ argument ∈ a.arguments, ∃ values, b.arguments.lookup argument.1 = some values ∧
    List.Forall₂ (fun a b => (a == b) = true) argument.2 values

theorem beqChain_iff {as bs : Chain} : beqChain as bs = true ↔ List.Forall₂ EqualLinks as bs := by
  induction as generalizing bs with
  | nil => cases bs <;> simp [beqChain]
  | cons a as ih =>
    cases bs with
    | nil => simp [beqChain]
    | cons b bs =>
      obtain ⟨function, arguments⟩ := a
      have hlinks : EqualLinks ⟨function, arguments⟩ b ↔ (function == b.function) = true ∧
          (arguments.length == b.arguments.length) = true ∧
            beqArguments arguments b.arguments = true := by
        rw [beqArguments_iff, beq_iff_eq, beq_iff_eq]
        simp only [beqNodes_iff]
        exact ⟨fun h => ⟨h.function, h.count, h.arguments⟩, fun h => ⟨h.1, h.2.1, h.2.2⟩⟩
      simp only [beqChain, Bool.and_eq_true, ih, List.forall₂_cons, hlinks, and_assoc]

/-- Every argument of the node is found in the sorted one with its values sorted, and the other way
round. -/
theorem perm_sortedLink {link : Link} (names : (Entries.names link.arguments).Nodup) :
    (sortedLink link).arguments.Perm
      (link.arguments.map fun (name, values) => (name, values.map sorted)) := by
  obtain ⟨function, arguments⟩ := link
  rw [sortedLink, sortedArguments_eq, funext sortedValues_eq]
  -- Sorting drops an argument only where its name comes again.
  apply Json.perm_sortFields
  rw [Entries.names, List.map_map]
  exact names

section

variable {link : Link} (names : (Entries.names link.arguments).Nodup)

include names

theorem equalLinks_sorted (inside : ∀ argument ∈ link.arguments, ∀ value ∈ argument.2,
    (value == value.sorted) = true) : EqualLinks link (sortedLink link) := by
  have hperm := perm_sortedLink names
  refine ⟨by cases link; rfl, by simpa using hperm.length_eq.symm, ?_⟩
  rintro ⟨name, values⟩ hargument
  refine ⟨values.map sorted, ?_, ?_⟩
  · rw [← Json.mem_iff_lookup (Json.nodup_of_increasing (sortedLink_increasing link)), hperm.mem_iff]
    exact List.mem_map_of_mem hargument
  · rw [List.forall₂_map_right_iff, List.forall₂_same]
    exact inside _ hargument

theorem sorted_equalLinks (inside : ∀ argument ∈ link.arguments, ∀ value ∈ argument.2,
    (value.sorted == value) = true) : EqualLinks (sortedLink link) link := by
  have hperm := perm_sortedLink names
  refine ⟨by cases link; rfl, by simpa using hperm.length_eq, fun argument hargument => ?_⟩
  obtain ⟨⟨name, values⟩, hgiven, rfl⟩ := List.mem_map.mp (hperm.mem_iff.mp hargument)
  refine ⟨values, (Json.mem_iff_lookup names).mp hgiven, ?_⟩
  rw [List.forall₂_map_left_iff, List.forall₂_same]
  exact inside _ hgiven

end

section

variable {chain : Chain} (names : ∀ link ∈ chain, (Entries.names link.arguments).Nodup)

include names

theorem beqChain_sorted (inside : ∀ link ∈ chain, ∀ argument ∈ link.arguments, ∀ value ∈ argument.2,
    (value == value.sorted) = true) : beqChain chain (sortedChain chain) = true := by
  rw [beqChain_iff, sortedChain_eq, List.forall₂_map_right_iff, List.forall₂_same]
  exact fun link hlink => equalLinks_sorted (names link hlink) (inside link hlink)

theorem sorted_beqChain (inside : ∀ link ∈ chain, ∀ argument ∈ link.arguments, ∀ value ∈ argument.2,
    (value.sorted == value) = true) : beqChain (sortedChain chain) chain = true := by
  rw [beqChain_iff, sortedChain_eq, List.forall₂_map_left_iff, List.forall₂_same]
  exact fun link hlink => sorted_equalLinks (names link hlink) (inside link hlink)

end

theorem Literal.beq_self {value : Literal}
    (finite : ∀ x, value = .number x → Number.rank x < Number.infinityRank) : (value == value) = true := by
  cases value with
  | null => rfl
  | boolean b => exact beq_self_eq_true b
  | number x => exact Number.beq_self (finite x rfl)
  | string s => exact beq_self_eq_true s

theorem Writable.beq_sorted {node : Node} (h : node.Writable) : (node == node.sorted) = true := by
  induction h with
  | expression names _ ih | deferred names _ ih => exact beqChain_sorted names ih
  | reference name => exact beq_self_eq_true name
  | literal finite => exact Literal.beq_self finite

theorem Writable.sorted_beq {node : Node} (h : node.Writable) : (node.sorted == node) = true := by
  induction h with
  | expression names _ ih | deferred names _ ih => exact sorted_beqChain names ih
  | reference name => exact beq_self_eq_true name
  | literal finite => exact Literal.beq_self finite

/-- The documents of nodes are those of the grammar, and a document is decoded to the node that it stands
for: links and values in the order of their arrays, arguments in the order of their fields, which is that
of their names, and numbers as the nearest ones. A node with finite numbers can be written, and however it
is written, it is read again as an equal one. -/
theorem wire_grammar :
    (∀ document, (∃ node, ofJson document = .ok node) ↔ IsNode document) ∧
    (∀ document node, ofJson document = .ok node ↔ Spells document node) ∧
    (∀ document node, document.WellFormed → ofJson document = .ok node → node.sorted = node) ∧
    (∀ n : JsonNumber, n.WellFormed → Number.IsNearest n.value n.toFloat) ∧
    ∀ node : Node, node.Writable →
      (node.toJson.Distinct ∧ Spells node.toJson node ∧ node.toJson.sorted.WellFormed) ∧
      ∀ document, document.Distinct → Spells document node → ∃ decoded,
        ofJson document.sorted = .ok decoded ∧ (decoded == node) = true ∧ (node == decoded) = true := by
  refine ⟨fun document => isNode_iff.symm, fun document node => ofJson_eq_ok_iff, ?_,
    fun n => JsonNumber.toFloat_isNearest, ?_⟩
  · intro document node hdocument hnode
    have hsorted := ofJson_sorted hdocument.distinct hnode
    rw [hdocument.sorted_eq, hnode] at hsorted
    exact (Except.ok.inj hsorted).symm
  · intro node hnode
    refine ⟨⟨hnode.distinct, hnode.spells, hnode.wellFormed⟩, fun document hdistinct hspells => ?_⟩
    have hdecoded := ofJson_sorted hdistinct (ofJson_eq_ok_iff.mpr hspells)
    exact ⟨node.sorted, hdecoded, hnode.sorted_beq, hnode.beq_sorted⟩

/-- The arguments are given against the order of their names, and a value of one is a chain. -/
theorem wire_grammar_nested : ∃ decoded,
    ofJson (expression [⟨"pair", [("y", [.literal (.number 1)]),
      ("x", [.deferred [⟨"id", []⟩]])]⟩]).toJson.sorted = .ok decoded ∧
    (decoded == expression [⟨"pair", [("y", [.literal (.number 1)]),
      ("x", [.deferred [⟨"id", []⟩]])]⟩]) = true := by
  have hone : Number.rank 1 < Number.infinityRank := by decide +kernel
  have hinner : Writable (.deferred [⟨"id", []⟩]) := .deferred (by simp [Entries.names]) (by simp)
  have hnumber : Writable (.literal (.number 1)) := .literal (by simp [hone])
  have houter : Writable (.expression [⟨"pair", [("y", [.literal (.number 1)]),
      ("x", [.deferred [⟨"id", []⟩]])]⟩]) :=
    .expression (by simp [Entries.names]) (by simp +contextual [or_imp, hinner, hnumber])
  obtain ⟨⟨hdistinct, hspells, _⟩, hreads⟩ := wire_grammar.2.2.2.2 _ houter
  obtain ⟨decoded, hdecoded, hequal, _⟩ := hreads _ hdistinct hspells
  exact ⟨decoded, hdecoded, hequal⟩

end Node

end ChainExpr
