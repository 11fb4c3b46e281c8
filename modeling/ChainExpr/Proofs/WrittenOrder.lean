import ChainExpr.Proofs.Folding
import ChainExpr.Proofs.SortedFields
import ChainExpr.Stock

namespace ChainExpr

namespace Node

mutual

/-- The node with the arguments of every link sorted by name. -/
def sorted : Node → Node
  | .expression chain => .expression (sortedChain chain)
  | .deferred chain => .deferred (sortedChain chain)
  | .reference name => .reference name
  | .literal value => .literal value

def sortedChain : List (LinkOf Node) → List (LinkOf Node)
  | [] => []
  | link :: rest => sortedLink link :: sortedChain rest

def sortedLink : LinkOf Node → LinkOf Node
  | ⟨function, arguments⟩ => ⟨function, Json.sortFields (sortedArguments arguments)⟩

def sortedArguments : List (String × List Node) → List (String × List Node)
  | [] => []
  | (name, values) :: rest => (name, sortedValues values) :: sortedArguments rest

def sortedValues : List Node → List Node
  | [] => []
  | value :: rest => value.sorted :: sortedValues rest

end

theorem sortedChain_eq (chain : Chain) : sortedChain chain = chain.map sortedLink := by
  induction chain with
  | nil => rfl
  | cons link rest ih => rw [sortedChain, ih, List.map_cons]

theorem sortedValues_eq (values : List Node) : sortedValues values = values.map sorted := by
  induction values with
  | nil => rfl
  | cons value rest ih => rw [sortedValues, ih, List.map_cons]

theorem sortedArguments_eq (arguments : List (String × List Node)) :
    sortedArguments arguments = arguments.map fun (name, values) => (name, sortedValues values) := by
  induction arguments with
  | nil => rfl
  | cons argument rest ih =>
    obtain ⟨name, values⟩ := argument
    rw [sortedArguments, ih, List.map_cons]

theorem toOption_bind {ε α β : Type} (first : Except ε α) (next : α → Except ε β) :
    (first >>= next).toOption = first.toOption.bind fun a => (next a).toOption := by
  cases first <;> rfl

theorem toOption_map {ε α β : Type} (f : α → β) (first : Except ε α) :
    (first.map f).toOption = first.toOption.map f := by
  cases first <;> rfl

theorem chainField_eq (node : Json) (fields : List (String × Json)) :
    chainField node fields =
      match fields.lookup "chain" with
      | some (.array links) => linksOfJson links
      | _ => .error node := by
  induction fields with
  | nil => rfl
  | cons field rest ih =>
    obtain ⟨name, value⟩ := field
    by_cases h : name = "chain"
    · subst h
      cases value <;> simp [chainField]
    · rw [Entries.lookup_cons, if_neg (Ne.symm h), ← ih]
      cases value <;> simp [chainField, h]

theorem argumentsField_eq (fields : List (String × Json)) :
    argumentsField fields =
      match fields.lookup "arguments" with
      | none | some .null => .ok []
      | some (.object arguments) => argumentsOfJson arguments
      | some document => .error document := by
  induction fields with
  | nil => rfl
  | cons field rest ih =>
    obtain ⟨name, value⟩ := field
    by_cases h : name = "arguments"
    · subst h
      cases value <;> simp [argumentsField]
    · rw [Entries.lookup_cons, if_neg (Ne.symm h), ← ih]
      cases value <;> simp [argumentsField, h]

theorem linksOfJson_eq (documents : List Json) :
    (linksOfJson documents).toOption = documents.mapM fun document => (linkOfJson document).toOption := by
  induction documents with
  | nil => rfl
  | cons document rest ih =>
    simp only [linksOfJson, toOption_bind, ih, List.mapM_cons]
    rfl

theorem valuesOfJson_eq (documents : List Json) :
    (valuesOfJson documents).toOption = documents.mapM fun document => (ofJson document).toOption := by
  induction documents with
  | nil => rfl
  | cons document rest ih =>
    simp only [valuesOfJson, toOption_bind, ih, List.mapM_cons]
    rfl

/-- The values of one argument, which are those of an array. -/
def argumentValues? (document : Json) : Option (List Node) :=
  document.array?.bind fun values => (valuesOfJson values).toOption

theorem argumentsOfJson_eq (fields : List (String × Json)) :
    (argumentsOfJson fields).toOption = fields.mapM (Json.readField? argumentValues?) := by
  induction fields with
  | nil => rfl
  | cons field rest ih =>
    obtain ⟨name, document⟩ := field
    cases document with
    | array values =>
      simp only [argumentsOfJson, toOption_bind, ih, List.mapM_cons]
      cases hvalues : (valuesOfJson values).toOption with
      | none => simp [Json.readField?, argumentValues?, Json.array?, hvalues]
      | some nodes =>
        have hread : Json.readField? argumentValues? (name, .array values) = some (name, nodes) := by
          simp [Json.readField?, argumentValues?, Json.array?, hvalues]
        rw [hread]
        rfl
    | _ =>
      simp [argumentsOfJson, List.mapM_cons, Json.readField?, argumentValues?, Json.array?,
        Except.toOption]

/-- A document, read as whatever it may stand for, makes the same when it is sorted, but sorted. -/
structure ReadsSorted (document : Json) : Prop where
  node : (ofJson document.sorted).toOption = (ofJson document).toOption.map sorted
  link : (linkOfJson document.sorted).toOption = (linkOfJson document).toOption.map sortedLink
  links : ∀ items, document = .array items →
    (linksOfJson (Json.sortedItems items)).toOption = (linksOfJson items).toOption.map sortedChain
  values : argumentValues? document.sorted = (argumentValues? document).map sortedValues
  arguments : ∀ fields, document = .object fields →
    (argumentsOfJson (Json.sortFields (Json.sortedFields fields))).toOption =
      (argumentsOfJson fields).toOption.map fun arguments =>
        Json.sortFields (sortedArguments arguments)

theorem ReadsSorted.of_array {items : List Json} (h : ∀ item ∈ items, ReadsSorted item) :
    ReadsSorted (.array items) := by
  have hlinks : (linksOfJson (Json.sortedItems items)).toOption =
      (linksOfJson items).toOption.map sortedChain := by
    rw [linksOfJson_eq, linksOfJson_eq, Json.sortedItems_eq, funext sortedChain_eq]
    exact Json.mapM_map fun item hitem => (h item hitem).link
  have hvalues : (valuesOfJson (Json.sortedItems items)).toOption =
      (valuesOfJson items).toOption.map sortedValues := by
    rw [valuesOfJson_eq, valuesOfJson_eq, Json.sortedItems_eq, funext sortedValues_eq]
    exact Json.mapM_map fun item hitem => (h item hitem).node
  refine ⟨rfl, rfl, ?_, hvalues, by simp⟩
  intro others hsame
  cases hsame
  exact hlinks

section

variable {fields : List (String × Json)} (names : (Entries.names fields).Nodup)

include names

theorem lookup_sorted (name : String) :
    (Json.sortFields (Json.sortedFields fields)).lookup name = (fields.lookup name).map Json.sorted := by
  rw [Json.lookup_sortFields, Json.sortedFields_eq, ← List.map_reverse, Json.lookup_map,
    Json.lookup_reverse name names]

variable (inside : ∀ field ∈ fields, ReadsSorted field.2)

include inside

theorem chainField_sorted (node node' : Json) :
    (chainField node' (Json.sortFields (Json.sortedFields fields))).toOption =
      (chainField node fields).toOption.map sortedChain := by
  rw [chainField_eq, chainField_eq, lookup_sorted names]
  cases hchain : fields.lookup "chain" with
  | none => rfl
  | some document =>
    cases document with
    | array links => exact (inside _ (Json.mem_of_lookup hchain)).links links rfl
    | _ => rfl

theorem argumentsField_sorted :
    (argumentsField (Json.sortFields (Json.sortedFields fields))).toOption =
      (argumentsField fields).toOption.map fun arguments =>
        Json.sortFields (sortedArguments arguments) := by
  rw [argumentsField_eq, argumentsField_eq, lookup_sorted names]
  cases harguments : fields.lookup "arguments" with
  | none => rfl
  | some document =>
    cases document with
    | object arguments => exact (inside _ (Json.mem_of_lookup harguments)).arguments arguments rfl
    | _ => rfl

theorem argumentsOfJson_sorted :
    (argumentsOfJson (Json.sortFields (Json.sortedFields fields))).toOption =
      (argumentsOfJson fields).toOption.map fun arguments =>
        Json.sortFields (sortedArguments arguments) := by
  have hnames : (Entries.names (Json.sortedFields fields)).Nodup := by
    rw [Json.sortedFields_eq, Entries.names, List.map_map]
    exact names
  have hread : (Json.sortedFields fields).mapM (Json.readField? argumentValues?) =
      (fields.mapM (Json.readField? argumentValues?)).map sortedArguments := by
    rw [Json.sortedFields_eq, funext sortedArguments_eq]
    apply Json.mapM_map
    rintro ⟨name, value⟩ hfield
    rw [Json.readField?, Json.readField?, (inside _ hfield).values]
    simp only [Option.map_map]
    rfl
  rw [argumentsOfJson_eq, argumentsOfJson_eq, Json.mapM_sortFields _ hnames, hread, Option.map_map]
  rfl

theorem ReadsSorted.of_object : ReadsSorted (.object fields) := by
  refine ⟨?_, ?_, by simp, rfl, ?_⟩
  · have hchain (node node' : Json) := chainField_sorted names inside node node'
    rw [Json.sorted, ofJson, ofJson, lookup_sorted names, lookup_sorted names]
    cases htype : fields.lookup "type" with
    | none => rfl
    | some document =>
      cases document with
      | string type =>
        simp only [Option.map_some, Json.sorted]
        split
        · rw [toOption_map, toOption_map, hchain (.object fields), Option.map_map, Option.map_map]
          rfl
        · rw [toOption_map, toOption_map, hchain (.object fields), Option.map_map, Option.map_map]
          rfl
        · cases hname : fields.lookup "name" with
          | none => rfl
          | some document => cases document <;> rfl
        · rfl
      | _ => rfl
  · rw [Json.sorted, linkOfJson, linkOfJson, lookup_sorted names]
    cases hfunction : fields.lookup "function" with
    | none => rfl
    | some document =>
      cases document with
      | string function =>
        have harguments := argumentsField_sorted names inside
        simp only [Option.map_some, Json.sorted, toOption_bind, harguments]
        cases (argumentsField fields).toOption <;> rfl
      | _ => rfl
  · intro others hsame
    cases hsame
    exact argumentsOfJson_sorted names inside

end

theorem readsSorted_of_distinct {document : Json} (h : document.Distinct) : ReadsSorted document := by
  induction h with
  | null => exact ⟨rfl, rfl, by simp, rfl, by simp⟩
  | bool b => exact ⟨rfl, rfl, by simp, rfl, by simp⟩
  | number n => exact ⟨rfl, rfl, by simp, rfl, by simp⟩
  | string s => exact ⟨rfl, rfl, by simp, rfl, by simp⟩
  | array _ ih => exact .of_array ih
  | object names _ ih => exact .of_object names ih

/-- A sorted document stands for the sorted node. -/
theorem ofJson_sorted {document : Json} {node : Node} (h : document.Distinct)
    (hnode : ofJson document = .ok node) : ofJson document.sorted = .ok node.sorted := by
  have hread := (readsSorted_of_distinct h).node
  rw [hnode] at hread
  cases hsorted : ofJson document.sorted with
  | ok other =>
    rw [hsorted] at hread
    cases hread
    rfl
  | error fragment =>
    rw [hsorted] at hread
    cases hread

theorem ofJson_sorted_error {document fragment : Json} (h : document.Distinct)
    (hfragment : ofJson document = .error fragment) :
    ∃ fragment', ofJson document.sorted = .error fragment' := by
  have hread := (readsSorted_of_distinct h).node
  rw [hfragment] at hread
  cases hsorted : ofJson document.sorted with
  | ok other =>
    rw [hsorted] at hread
    cases hread
  | error fragment' => exact ⟨fragment', rfl⟩

theorem sortedLink_increasing (link : Link) :
    (Entries.names (sortedLink link).arguments).Pairwise (· < ·) := by
  obtain ⟨function, arguments⟩ := link
  exact Json.increasing_sortFields _

/-- Arguments that are given in the order of their names keep that order. -/
theorem sortedLink_names {link : Link} (h : (Entries.names link.arguments).Pairwise (· < ·)) :
    Entries.names (sortedLink link).arguments = Entries.names link.arguments := by
  obtain ⟨function, arguments⟩ := link
  have hnames : Entries.names (sortedArguments arguments) = Entries.names arguments := by
    rw [sortedArguments_eq, Entries.names, List.map_map]
    rfl
  have hsame : Json.sortFields (sortedArguments arguments) = sortedArguments arguments := by
    apply Json.sortFields_of_increasing
    rw [hnames]
    exact h
  rw [← hnames, ← hsame]
  rfl

end Node

namespace Towers

/-- A text whose objects are written in any order is run as the node that it describes with the arguments
of every link sorted by name. Each argument that a function receives is bound to the values of all names
at the call that stand for it, in that sorted order, which is the order of the text where the text is
sorted already. -/
theorem arguments_bound_in_name_order (text : String) (written : Json)
    (hwritten : Json.written? text = some written) :
    ∃ document, Json.parse? text = some document ∧
      (∀ original, Node.ofJson written = .ok original → ∀ (interpreter : Interpreter) context,
        interpreter.interpretJson document context = interpreter.interpret original.sorted context) ∧
      (∀ fragment, Node.ofJson written = .error fragment → ∃ fragment', ∀ (interpreter : Interpreter) context,
        interpreter.interpretJson document context = .fail (.unknownNode fragment')) ∧
      ∀ link : Link,
        (Entries.names (Node.sortedLink link).arguments).Pairwise (· < ·) ∧
        ((Entries.names link.arguments).Pairwise (· < ·) →
          Entries.names (Node.sortedLink link).arguments = Entries.names link.arguments) ∧
        ∀ (towers : Towers) (interpreter : Interpreter) definition context world polls bound world',
          towers.Ends (interpreter.resolveArguments definition context (Node.sortedLink link).arguments)
            world polls (.ok bound) world' →
          ∃ lists middle before after, polls = before + after ∧
            towers.Ends (interpreter.site.interpretArguments (Node.sortedLink link).arguments context)
              world before (.ok lists) middle ∧
            List.Forall₂ (fun declared bound => bound.1 = declared.1 ∧
                declared.2.Binds interpreter.types (definition.valuesGiven declared.1 declared.2
                  (Entries.names (Node.sortedLink link).arguments) lists) bound.2)
              definition.signature.arguments.entries bound.entries := by
  have hparse : Json.parse? text = some written.sorted := by rw [Json.parse?_eq, hwritten]; rfl
  have hdistinct := Json.distinct_of_written hwritten
  refine ⟨written.sorted, hparse, ?_, ?_, ?_⟩
  · intro original horiginal interpreter context
    rw [Interpreter.interpretJson, Node.ofJson_sorted hdistinct horiginal]
  · intro fragment hfragment
    obtain ⟨fragment', hsorted⟩ := Node.ofJson_sorted_error hdistinct hfragment
    exact ⟨fragment', fun interpreter context => by rw [Interpreter.interpretJson, hsorted]⟩
  · intro link
    refine ⟨Node.sortedLink_increasing link, Node.sortedLink_names, ?_⟩
    intro towers interpreter definition context world polls bound world' hends
    exact Site.ends_resolve hends

end Towers

namespace Stock

/-- A function that lists what it is given under one of two names. -/
def lister : FunctionDefinition where
  name := "list"
  returns := none
  contextTypes := none
  signature := .ofList [⟨"items", [], none, true, ["more"], ""⟩]
  aliases := []
  help := ""
  implementation := fun context arguments => Body.arguments.run "list" context arguments

def listing : Interpreter := .mk ⟨.ofList [lister], .standard, .standard, 0⟩ .rejecting

/-- The text of a call of the lister that gives the alias of its argument before the name. -/
def aliasFirst : String :=
  "\x7b\"type\":\"expression\",\"chain\":[\x7b\"function\":\"list\"," ++
    "\"arguments\":\x7b\"more\":[\"first\"],\"items\":[\"second\"]\x7d\x7d]\x7d"

def aliasFirstDocument : Json :=
  .object [("type", .string "expression"),
    ("chain", .array [.object [("function", .string "list"),
      ("arguments", .object
        [("more", .array [.string "first"]), ("items", .array [.string "second"])])]])]

theorem written_aliasFirst : Json.written? aliasFirst = some aliasFirstDocument := by cbv

end Stock

namespace Towers

/-- The name of the argument is put before its alias. -/
theorem arguments_bound_in_name_order_alias_first :
    ∃ document, Json.parse? Stock.aliasFirst = some document ∧
      Stock.listing.interpretJson document .null =
        Stock.listing.interpret (.expression [⟨"list", [("items", [.literal (.string "second")]),
          ("more", [.literal (.string "first")])]⟩]) .null := by
  obtain ⟨document, hparse, hrun, _⟩ :=
    arguments_bound_in_name_order Stock.aliasFirst _ Stock.written_aliasFirst
  have hnode : Node.ofJson Stock.aliasFirstDocument =
      .ok (.expression [⟨"list", [("more", [.literal (.string "first")]),
        ("items", [.literal (.string "second")])]⟩]) := rfl
  exact ⟨document, hparse, hrun _ hnode Stock.listing .null⟩

/-- The alias comes first in the text, and its value comes last in the list that the function is called
with and returns. -/
theorem call_site_order_lost :
    Json.written? Stock.aliasFirst = some Stock.aliasFirstDocument ∧
    ∃ document world', Json.parse? Stock.aliasFirst = some document ∧
      Stock.listing.alone.Ends (Stock.listing.interpretJson document .null) .start 0
        (.ok (.object [("items", .object [("0", .string "second"), ("1", .string "first")])])) world' ∧
      ∃ arguments, world'.history = [.call "list" .null arguments] ∧
        Arguments.multi? arguments "items" = some [.string "second", .string "first"] := by
  have hparse : Json.parse? Stock.aliasFirst = some Stock.aliasFirstDocument.sorted := by
    rw [Json.parse?_eq, Stock.written_aliasFirst, Option.map_some]
  exact ⟨Stock.written_aliasFirst, _, _, hparse, .now ⟨by simp, 0, rfl⟩, _, rfl, rfl⟩

end Towers

end ChainExpr
