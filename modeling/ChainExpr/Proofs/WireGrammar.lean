import ChainExpr.Proofs.WrittenOrder
import Mathlib.Logic.Relation
import Mathlib.Order.WellFounded

namespace ChainExpr

section Traversal

variable {ε α β : Type} {f : α → Except ε β} {items : List α}

/-- Going through a list succeeds with what comes of every item. -/
theorem mapM_eq_ok_iff {results : List β} :
    items.mapM f = .ok results ↔
      List.Forall₂ (fun item result => f item = .ok result) items results := by
  induction items generalizing results with
  | nil => cases results <;> simp [pure, Except.pure]
  | cons item rest ih =>
    rw [List.mapM_cons]
    cases hitem : f item with
    | error error => cases results <;> simp [bind, Except.bind, hitem]
    | ok result =>
      cases hrest : rest.mapM f with
      | error error => cases results <;> simp [bind, Except.bind, hitem, hrest, ← ih]
      | ok later =>
        cases results <;> simp [bind, Except.bind, pure, Except.pure, hitem, hrest, ← ih]

/-- Going through a list fails with the first item that does. -/
theorem mapM_eq_error_iff {error : ε} :
    items.mapM f = .error error ↔ ∃ before item after, items = before ++ item :: after ∧
      (∀ earlier ∈ before, ∃ result, f earlier = .ok result) ∧ f item = .error error := by
  induction items with
  | nil => simp [pure, Except.pure]
  | cons first rest ih =>
    rw [List.mapM_cons]
    cases hfirst : f first with
    | error reason =>
      constructor
      · intro h
        obtain rfl : reason = error := by simpa [bind, Except.bind] using h
        exact ⟨[], first, rest, rfl, by simp, hfirst⟩
      · rintro ⟨before, item, after, hsplit, hbefore, hitem⟩
        cases before with
        | nil =>
          obtain ⟨rfl, _⟩ := List.cons.inj hsplit
          cases hfirst.symm.trans hitem
          rfl
        | cons other others =>
          obtain ⟨result, hresult⟩ := hbefore first (by simp [(List.cons.inj hsplit).1])
          cases hfirst.symm.trans hresult
    | ok result =>
      have hrest : (do let later ← rest.mapM f; pure (result :: later) : Except ε (List β)) =
          .error error ↔ rest.mapM f = .error error := by
        cases rest.mapM f <;> simp [bind, Except.bind, pure, Except.pure]
      refine hrest.trans (ih.trans ⟨?_, ?_⟩)
      · rintro ⟨before, item, after, rfl, hbefore, hitem⟩
        exact ⟨first :: before, item, after, rfl,
          List.forall_mem_cons.mpr ⟨⟨result, hfirst⟩, hbefore⟩, hitem⟩
      · rintro ⟨before, item, after, hsplit, hbefore, hitem⟩
        cases before with
        | nil =>
          obtain ⟨rfl, _⟩ := List.cons.inj hsplit
          cases hfirst.symm.trans hitem
        | cons other others =>
          obtain ⟨rfl, rfl⟩ := List.cons.inj hsplit
          exact ⟨others, item, after, rfl, (List.forall_mem_cons.mp hbefore).2, hitem⟩

/-- Relations that agree on the items of a list relate it to the same lists. -/
theorem forall₂_congr_of_mem {R S : α → β → Prop} {results : List β}
    (h : ∀ item ∈ items, ∀ result, R item result ↔ S item result) :
    List.Forall₂ R items results ↔ List.Forall₂ S items results := by
  induction items generalizing results with
  | nil => cases results <;> simp
  | cons item rest ih =>
    obtain ⟨hitem, hrest⟩ := List.forall_mem_cons.mp h
    cases results with
    | nil => simp
    | cons result later => rw [List.forall₂_cons, List.forall₂_cons, hitem result, ih hrest]

theorem exists_forall₂_iff {R : α → β → Prop} :
    (∃ results, List.Forall₂ R items results) ↔ ∀ item ∈ items, ∃ result, R item result := by
  induction items with
  | nil => simp
  | cons item rest ih =>
    rw [List.forall_mem_cons, ← ih]
    constructor
    · rintro ⟨_, _ | ⟨hitem, hrest⟩⟩
      exact ⟨⟨_, hitem⟩, _, hrest⟩
    · rintro ⟨⟨result, hitem⟩, later, hrest⟩
      exact ⟨result :: later, .cons hitem hrest⟩

end Traversal

namespace Json

/-- The items of an array and the values of an object. -/
inductive Child : Json → Json → Prop
  | item {items : List Json} {item : Json} (among : item ∈ items) : Child item (.array items)
  | field {fields : List (String × Json)} {name : String} {value : Json}
      (among : (name, value) ∈ fields) : Child value (.object fields)

theorem wellFounded_child : WellFounded Child := by
  refine Subrelation.wf (fun {part whole} h => ?_) (measure sizeOf).wf
  change sizeOf part < sizeOf whole
  cases h with
  | item among =>
    have hitem := List.sizeOf_lt_of_mem among
    rw [array.sizeOf_spec]
    omega
  | @field fields name value among =>
    have hfield := List.sizeOf_lt_of_mem among
    rw [Prod.mk.sizeOf_spec] at hfield
    rw [object.sizeOf_spec]
    omega

/-- To show something of every document, take it for granted of all parts of one. -/
theorem partInduction {motive : Json → Prop}
    (step : ∀ document, (∀ part, Relation.TransGen Child part document → motive part) →
      motive document) (document : Json) : motive document :=
  wellFounded_child.transGen.induction document step

/-- A document below the values of an object. -/
theorem below_lookup {fields : List (String × Json)} {name : String} {value part : Json}
    (h : fields.lookup name = some value) (hpart : Relation.ReflTransGen Child part value) :
    Relation.TransGen Child part (.object fields) :=
  .tail' hpart (.field (mem_of_lookup h))

end Json

namespace Node

mutual

/-- The grammar of nodes: scalars, references by name, and chains of links. Other fields do not
matter. -/
inductive IsNode : Json → Prop
  | null : IsNode .null
  | bool (b : Bool) : IsNode (.bool b)
  | number (n : JsonNumber) : IsNode (.number n)
  | string (s : String) : IsNode (.string s)
  | reference {fields : List (String × Json)} {name : String}
      (type : fields.lookup "type" = some (.string "function"))
      (named : fields.lookup "name" = some (.string name)) : IsNode (.object fields)
  | chain {fields : List (String × Json)} {kind : String} {links : List Json}
      (type : fields.lookup "type" = some (.string kind))
      (kinds : kind = "expression" ∨ kind = "partial")
      (chained : fields.lookup "chain" = some (.array links))
      (inside : ∀ link ∈ links, IsLink link) : IsNode (.object fields)

/-- The grammar of links: a function by name, and an object of arguments or none. -/
inductive IsLink : Json → Prop
  | bare {fields : List (String × Json)} {function : String}
      (called : fields.lookup "function" = some (.string function))
      (without : fields.lookup "arguments" = none ∨ fields.lookup "arguments" = some .null) :
      IsLink (.object fields)
  | given {fields arguments : List (String × Json)} {function : String}
      (called : fields.lookup "function" = some (.string function))
      (given : fields.lookup "arguments" = some (.object arguments))
      (inside : ∀ argument ∈ arguments, IsArgument argument.2) : IsLink (.object fields)

/-- The grammar of what an argument is given: an array of nodes. -/
inductive IsArgument : Json → Prop
  | values {values : List Json} (inside : ∀ value ∈ values, IsNode value) :
      IsArgument (.array values)

end

mutual

/-- A document stands for a node: a scalar for a literal, an object for what its `type` says. -/
inductive Spells : Json → Node → Prop
  | null : Spells .null (.literal .null)
  | bool (b : Bool) : Spells (.bool b) (.literal (.boolean b))
  | number (n : JsonNumber) : Spells (.number n) (.literal (.number n.toFloat))
  | string (s : String) : Spells (.string s) (.literal (.string s))
  | reference {fields : List (String × Json)} {name : String}
      (type : fields.lookup "type" = some (.string "function"))
      (named : fields.lookup "name" = some (.string name)) :
      Spells (.object fields) (.reference name)
  | expression {fields : List (String × Json)} {links : List Json} {chain : List (LinkOf Node)}
      (type : fields.lookup "type" = some (.string "expression"))
      (chained : fields.lookup "chain" = some (.array links))
      (inside : List.Forall₂ SpellsLink links chain) :
      Spells (.object fields) (.expression chain)
  | deferred {fields : List (String × Json)} {links : List Json} {chain : List (LinkOf Node)}
      (type : fields.lookup "type" = some (.string "partial"))
      (chained : fields.lookup "chain" = some (.array links))
      (inside : List.Forall₂ SpellsLink links chain) :
      Spells (.object fields) (.deferred chain)

/-- A document stands for a link, its arguments in the order of their fields. -/
inductive SpellsLink : Json → LinkOf Node → Prop
  | bare {fields : List (String × Json)} {function : String}
      (called : fields.lookup "function" = some (.string function))
      (without : fields.lookup "arguments" = none ∨ fields.lookup "arguments" = some .null) :
      SpellsLink (.object fields) ⟨function, []⟩
  | given {fields documents : List (String × Json)} {function : String}
      {arguments : List (String × List Node)}
      (called : fields.lookup "function" = some (.string function))
      (given : fields.lookup "arguments" = some (.object documents))
      (inside : List.Forall₂ SpellsArgument documents arguments) :
      SpellsLink (.object fields) ⟨function, arguments⟩

/-- A field stands for an argument of its name, with one node for each item of its array. -/
inductive SpellsArgument : String × Json → String × List Node → Prop
  | values {name : String} {documents : List Json} {nodes : List Node}
      (inside : List.Forall₂ Spells documents nodes) :
      SpellsArgument (name, .array documents) (name, nodes)

end

theorem linksOfJson_eq_mapM (documents : List Json) :
    linksOfJson documents = documents.mapM linkOfJson := by
  induction documents with
  | nil => rfl
  | cons document rest ih =>
    rw [linksOfJson, ih, List.mapM_cons]

theorem valuesOfJson_eq_mapM (documents : List Json) :
    valuesOfJson documents = documents.mapM ofJson := by
  induction documents with
  | nil => rfl
  | cons document rest ih =>
    rw [valuesOfJson, ih, List.mapM_cons]

/-- One argument of a link. -/
def argumentOfJson : String × Json → Except Json (String × List Node)
  | (name, .array values) => (values.mapM ofJson).map (name, ·)
  | (_, document) => .error document

theorem argumentsOfJson_eq_mapM (fields : List (String × Json)) :
    argumentsOfJson fields = fields.mapM argumentOfJson := by
  induction fields with
  | nil => rfl
  | cons field rest ih =>
    obtain ⟨name, document⟩ := field
    rw [List.mapM_cons]
    cases document with
    | array values =>
      rw [argumentsOfJson, ih, valuesOfJson_eq_mapM, argumentOfJson]
      cases values.mapM ofJson <;> rfl
    | _ => rfl

theorem map_eq_ok_iff {ε α β : Type} {f : α → β} {first : Except ε α} {result : β} :
    first.map f = .ok result ↔ ∃ value, first = .ok value ∧ f value = result := by
  cases first <;> simp [Except.map]

theorem map_eq_error_iff {ε α β : Type} {f : α → β} {first : Except ε α} {error : ε} :
    first.map f = .error error ↔ first = .error error := by
  cases first <;> simp [Except.map]

theorem linkOfJson_object (fields : List (String × Json)) :
    linkOfJson (.object fields) =
      match fields.lookup "function" with
      | some (.string function) => (argumentsField fields).map (⟨function, ·⟩)
      | _ => .error (.object fields) := by
  rw [linkOfJson]
  cases fields.lookup "function" with
  | none => rfl
  | some document =>
    cases document with
    | string function => cases argumentsField fields <;> rfl
    | _ => rfl

/-- What the grammar says of a document, as a node and as a link, is what it is decoded to. -/
structure DecodesAsSpelled (document : Json) : Prop where
  node : ∀ node, ofJson document = .ok node ↔ Spells document node
  link : ∀ link, linkOfJson document = .ok link ↔ SpellsLink document link

section

variable {fields : List (String × Json)}
  (below : ∀ part, Relation.TransGen Json.Child part (.object fields) → DecodesAsSpelled part)

include below

theorem chainField_ok_iff {node : Json} {chain : Chain} :
    chainField node fields = .ok chain ↔ ∃ links, fields.lookup "chain" = some (.array links) ∧
      List.Forall₂ SpellsLink links chain := by
  rw [chainField_eq]
  split
  · rename_i links hchain
    have hinside : ∀ document ∈ links, ∀ link, linkOfJson document = .ok link ↔
        SpellsLink document link := fun document hdocument =>
      (below document (Json.below_lookup hchain (.single (.item hdocument)))).link
    rw [linksOfJson_eq_mapM, mapM_eq_ok_iff, forall₂_congr_of_mem hinside]
    simp [hchain]
  · rename_i hchain
    simpa using fun links hlinks => absurd hlinks (hchain links)

theorem argumentsOfJson_ok_iff {documents : List (String × Json)}
    {arguments : List (String × List Node)}
    (given : fields.lookup "arguments" = some (.object documents)) :
    argumentsOfJson documents = .ok arguments ↔
      List.Forall₂ SpellsArgument documents arguments := by
  rw [argumentsOfJson_eq_mapM, mapM_eq_ok_iff]
  apply forall₂_congr_of_mem
  rintro ⟨name, document⟩ hdocument argument
  cases document with
  | array values =>
    have hinside : ∀ value ∈ values, ∀ node, ofJson value = .ok node ↔ Spells value node :=
      fun value hvalue => (below value (Json.below_lookup given
        (.tail (.single (.item hvalue)) (.field hdocument)))).node
    rw [argumentOfJson, map_eq_ok_iff]
    simp only [mapM_eq_ok_iff, forall₂_congr_of_mem hinside]
    constructor
    · rintro ⟨nodes, hnodes, rfl⟩
      exact .values hnodes
    · intro h
      cases h with
      | values inside => exact ⟨_, inside, rfl⟩
  | _ => exact iff_of_false (by simp [argumentOfJson]) (by rintro ⟨⟩)

theorem DecodesAsSpelled.of_object : DecodesAsSpelled (.object fields) := by
  refine ⟨fun node => ⟨?_, ?_⟩, fun link => ⟨?_, ?_⟩⟩
  · intro h
    rw [ofJson] at h
    split at h
    · rename_i htype
      obtain ⟨chain, hchain, rfl⟩ := map_eq_ok_iff.mp h
      obtain ⟨links, hlinks, hinside⟩ := (chainField_ok_iff below).mp hchain
      exact .expression htype hlinks hinside
    · rename_i htype
      obtain ⟨chain, hchain, rfl⟩ := map_eq_ok_iff.mp h
      obtain ⟨links, hlinks, hinside⟩ := (chainField_ok_iff below).mp hchain
      exact .deferred htype hlinks hinside
    · rename_i htype
      split at h
      · rename_i name hname
        cases h
        exact .reference htype hname
      · cases h
    · cases h
  · intro h
    cases h with
    | reference type named => simp [ofJson, type, named]
    | expression type chained inside =>
      have hchain : chainField (.object fields) fields = .ok _ :=
        (chainField_ok_iff below).mpr ⟨_, chained, inside⟩
      simp [ofJson, type, hchain, Except.map]
    | deferred type chained inside =>
      have hchain : chainField (.object fields) fields = .ok _ :=
        (chainField_ok_iff below).mpr ⟨_, chained, inside⟩
      simp [ofJson, type, hchain, Except.map]
  · intro h
    rw [linkOfJson_object, argumentsField_eq] at h
    split at h
    · rename_i function hfunction
      obtain ⟨arguments, harguments, rfl⟩ := map_eq_ok_iff.mp h
      split at harguments
      · rename_i hnone
        cases harguments
        exact .bare hfunction (.inl hnone)
      · rename_i hnull
        cases harguments
        exact .bare hfunction (.inr hnull)
      · rename_i documents hgiven
        exact .given hfunction hgiven ((argumentsOfJson_ok_iff below hgiven).mp harguments)
      · cases harguments
    · cases h
  · intro h
    rw [linkOfJson_object, argumentsField_eq]
    cases h with
    | bare called without =>
      rcases without with hnone | hnull
      · simp [called, hnone, Except.map]
      · simp [called, hnull, Except.map]
    | given called given inside =>
      simp [called, given, (argumentsOfJson_ok_iff below given).mpr inside, Except.map]

end

theorem decodesAsSpelled (document : Json) : DecodesAsSpelled document := by
  induction document using Json.partInduction with
  | step document below =>
    cases document with
    | object fields => exact .of_object below
    | array items => exact ⟨fun node => iff_of_false nofun nofun, fun link => iff_of_false nofun nofun⟩
    | null | bool b | number n | string s =>
      refine ⟨fun node => ⟨?_, ?_⟩, fun link => iff_of_false nofun nofun⟩
      · rintro ⟨⟩
        constructor
      · rintro ⟨⟩
        rfl

/-- The grammar lets a document through, as a node or as a link, just where it stands for one. -/
structure IsWhatItSpells (document : Json) : Prop where
  node : IsNode document ↔ ∃ node, Spells document node
  link : IsLink document ↔ ∃ link, SpellsLink document link

section

variable {fields : List (String × Json)}
  (below : ∀ part, Relation.TransGen Json.Child part (.object fields) → IsWhatItSpells part)

include below

theorem isLink_chain_iff {links : List Json} (chained : fields.lookup "chain" = some (.array links)) :
    (∀ link ∈ links, IsLink link) ↔ ∃ chain, List.Forall₂ SpellsLink links chain := by
  rw [exists_forall₂_iff]
  refine forall₂_congr fun link hlink => ?_
  exact (below link (Json.below_lookup chained (.single (.item hlink)))).link

theorem isArgument_given_iff {documents : List (String × Json)}
    (given : fields.lookup "arguments" = some (.object documents)) :
    (∀ argument ∈ documents, IsArgument argument.2) ↔
      ∃ arguments, List.Forall₂ SpellsArgument documents arguments := by
  rw [exists_forall₂_iff]
  refine forall₂_congr fun argument hargument => ?_
  obtain ⟨name, document⟩ := argument
  have hinside (values : List Json) (hvalues : document = .array values) :
      (∀ value ∈ values, IsNode value) ↔ ∃ nodes, List.Forall₂ Spells values nodes := by
    rw [exists_forall₂_iff]
    refine forall₂_congr fun value hvalue => ?_
    exact (below value (Json.below_lookup given
      (.tail (.single (.item hvalue)) (hvalues ▸ .field hargument)))).node
  constructor
  · rintro ⟨inside⟩
    obtain ⟨nodes, hnodes⟩ := (hinside _ rfl).mp inside
    exact ⟨(name, nodes), .values hnodes⟩
  · rintro ⟨_, ⟨hnodes⟩⟩
    exact .values ((hinside _ rfl).mpr ⟨_, hnodes⟩)

theorem IsWhatItSpells.of_object : IsWhatItSpells (.object fields) := by
  refine ⟨⟨?_, ?_⟩, ⟨?_, ?_⟩⟩
  · intro h
    cases h with
    | reference type named => exact ⟨_, .reference type named⟩
    | chain type kinds chained inside =>
      obtain ⟨chain, hchain⟩ := (isLink_chain_iff below chained).mp inside
      rcases kinds with rfl | rfl
      · exact ⟨_, .expression type chained hchain⟩
      · exact ⟨_, .deferred type chained hchain⟩
  · rintro ⟨node, h⟩
    cases h with
    | reference type named => exact .reference type named
    | expression type chained inside =>
      exact .chain type (.inl rfl) chained ((isLink_chain_iff below chained).mpr ⟨_, inside⟩)
    | deferred type chained inside =>
      exact .chain type (.inr rfl) chained ((isLink_chain_iff below chained).mpr ⟨_, inside⟩)
  · intro h
    cases h with
    | bare called without => exact ⟨_, .bare called without⟩
    | given called given inside =>
      obtain ⟨arguments, harguments⟩ := (isArgument_given_iff below given).mp inside
      exact ⟨_, .given called given harguments⟩
  · rintro ⟨link, h⟩
    cases h with
    | bare called without => exact .bare called without
    | given called given inside =>
      exact .given called given ((isArgument_given_iff below given).mpr ⟨_, inside⟩)

end

theorem isWhatItSpells (document : Json) : IsWhatItSpells document := by
  induction document using Json.partInduction with
  | step document below =>
    cases document with
    | object fields => exact .of_object below
    | array items => exact ⟨iff_of_false nofun nofun, iff_of_false nofun nofun⟩
    | null | bool b | number n | string s =>
      exact ⟨iff_of_true (by constructor) ⟨_, by constructor⟩, iff_of_false nofun nofun⟩

theorem ofJson_eq_ok_iff {document : Json} {node : Node} :
    ofJson document = .ok node ↔ Spells document node := (decodesAsSpelled document).node node

theorem linkOfJson_eq_ok_iff {document : Json} {link : Link} :
    linkOfJson document = .ok link ↔ SpellsLink document link := (decodesAsSpelled document).link link

/-- A document is decoded to some node just where the grammar lets it through. -/
theorem isNode_iff {document : Json} : IsNode document ↔ ∃ node, ofJson document = .ok node := by
  simp only [ofJson_eq_ok_iff, (isWhatItSpells document).node]

theorem isLink_iff {document : Json} : IsLink document ↔ ∃ link, linkOfJson document = .ok link := by
  simp only [linkOfJson_eq_ok_iff, (isWhatItSpells document).link]

end Node

end ChainExpr
