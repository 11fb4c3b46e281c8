import ChainExpr.Interpreter.Run
import ChainExpr.Proofs.WireGrammar

namespace ChainExpr

namespace Node

mutual

/-- The first fault of a document that is no node, by its fragment: the document itself where it has no
shape of a node, and otherwise that of the first link of its chain that has one. -/
inductive Fault : Json → Json → Prop
  | array (items : List Json) : Fault (.array items) (.array items)
  | untyped {fields : List (String × Json)}
      (type : ∀ kind, fields.lookup "type" ≠ some (.string kind)) : Fault (.object fields) (.object fields)
  | unknown {fields : List (String × Json)} {kind : String}
      (type : fields.lookup "type" = some (.string kind))
      (kinds : kind ≠ "expression" ∧ kind ≠ "partial" ∧ kind ≠ "function") :
      Fault (.object fields) (.object fields)
  | nameless {fields : List (String × Json)} (type : fields.lookup "type" = some (.string "function"))
      (named : ∀ name, fields.lookup "name" ≠ some (.string name)) :
      Fault (.object fields) (.object fields)
  | chainless {fields : List (String × Json)} {kind : String}
      (type : fields.lookup "type" = some (.string kind))
      (kinds : kind = "expression" ∨ kind = "partial")
      (chained : ∀ links, fields.lookup "chain" ≠ some (.array links)) :
      Fault (.object fields) (.object fields)
  | link {fields : List (String × Json)} {kind : String} {before after : List Json}
      {link fragment : Json} (type : fields.lookup "type" = some (.string kind))
      (kinds : kind = "expression" ∨ kind = "partial")
      (chained : fields.lookup "chain" = some (.array (before ++ link :: after)))
      (earlier : ∀ earlier ∈ before, IsLink earlier) (fault : LinkFault link fragment) :
      Fault (.object fields) fragment

/-- The first fault of a link: its function comes before its arguments, and these in order. -/
inductive LinkFault : Json → Json → Prop
  | uncalled {link : Json} (called : ∀ function, link.field? "function" ≠ some (.string function)) :
      LinkFault link link
  | arguments {fields : List (String × Json)} {function : String} {document : Json}
      (called : fields.lookup "function" = some (.string function))
      (given : fields.lookup "arguments" = some document) (something : document ≠ .null)
      (shape : ∀ arguments, document ≠ .object arguments) : LinkFault (.object fields) document
  | argument {fields before after : List (String × Json)} {function name : String}
      {document fragment : Json} (called : fields.lookup "function" = some (.string function))
      (given : fields.lookup "arguments" = some (.object (before ++ (name, document) :: after)))
      (earlier : ∀ argument ∈ before, IsArgument argument.2) (fault : ArgumentFault document fragment) :
      LinkFault (.object fields) fragment

/-- The first fault of what an argument is given. -/
inductive ArgumentFault : Json → Json → Prop
  | values {document : Json} (shape : ∀ values, document ≠ .array values) :
      ArgumentFault document document
  | value {before after : List Json} {value fragment : Json}
      (earlier : ∀ earlier ∈ before, IsNode earlier) (fault : Fault value fragment) :
      ArgumentFault (.array (before ++ value :: after)) fragment

end

mutual

/-- The fragment that is to blame is a part of the document. -/
theorem Fault.part {document fragment : Json} :
    Fault document fragment → Relation.ReflTransGen Json.Child fragment document
  | .array _ | .untyped _ | .unknown _ _ | .nameless _ _ | .chainless _ _ _ => .refl
  | @Fault.link _ _ before after link _ _ _ chained _ fault =>
    have hlink : Json.Child link (.array (before ++ link :: after)) :=
      .item (List.mem_append_right before List.mem_cons_self)
    (Json.below_lookup chained (fault.part.tail hlink)).to_reflTransGen

theorem LinkFault.part {link fragment : Json} :
    LinkFault link fragment → Relation.ReflTransGen Json.Child fragment link
  | .uncalled _ => .refl
  | .arguments _ given _ _ => (Json.below_lookup given .refl).to_reflTransGen
  | @LinkFault.argument _ before after _ name document _ _ given _ fault =>
    have hdocument : Json.Child document (.object (before ++ (name, document) :: after)) :=
      .field (List.mem_append_right before List.mem_cons_self)
    (Json.below_lookup given (fault.part.tail hdocument)).to_reflTransGen

theorem ArgumentFault.part {document fragment : Json} :
    ArgumentFault document fragment → Relation.ReflTransGen Json.Child fragment document
  | .values _ => .refl
  | .value _ fault => fault.part.tail (.item (List.mem_append_right _ List.mem_cons_self))

end

/-- A document is refused, as a node and as a link, with the fragment of its first fault. -/
structure FailsAtFault (document : Json) : Prop where
  node : ∀ fragment, ofJson document = .error fragment ↔ Fault document fragment
  link : ∀ fragment, linkOfJson document = .error fragment ↔ LinkFault document fragment

theorem isArgument_iff {argument : String × Json} :
    IsArgument argument.2 ↔ ∃ result, argumentOfJson argument = .ok result := by
  obtain ⟨name, document⟩ := argument
  have hvalues (values : List Json) : (∀ value ∈ values, IsNode value) ↔
      ∃ nodes, values.mapM ofJson = .ok nodes := by
    simp only [mapM_eq_ok_iff, exists_forall₂_iff, isNode_iff]
  constructor
  · rintro ⟨inside⟩
    obtain ⟨nodes, hnodes⟩ := (hvalues _).mp inside
    exact ⟨(name, nodes), map_eq_ok_iff.mpr ⟨nodes, hnodes, rfl⟩⟩
  · rintro ⟨result, hresult⟩
    cases document with
    | array values =>
      obtain ⟨nodes, hnodes, _⟩ := map_eq_ok_iff.mp hresult
      exact .values ((hvalues values).mpr ⟨nodes, hnodes⟩)
    | _ => cases hresult

theorem argumentOfJson_error_iff {name : String} {document fragment : Json}
    (below : ∀ part, Json.Child part document → FailsAtFault part) :
    argumentOfJson (name, document) = .error fragment ↔ ArgumentFault document fragment := by
  constructor
  · intro h
    cases document with
    | array values =>
      rw [argumentOfJson, map_eq_error_iff, mapM_eq_error_iff] at h
      obtain ⟨before, value, after, rfl, hbefore, hvalue⟩ := h
      exact .value (fun earlier hearlier => isNode_iff.mpr (hbefore earlier hearlier))
        (((below value (.item (by simp))).node fragment).mp hvalue)
    | _ =>
      cases h
      exact .values (by simp)
  · intro h
    cases h with
    | values shape =>
      cases document with
      | array values => exact absurd rfl (shape values)
      | _ => rfl
    | @value before after value _ earlier fault =>
      rw [argumentOfJson, map_eq_error_iff, mapM_eq_error_iff]
      exact ⟨before, value, after, rfl, fun other hother => isNode_iff.mp (earlier other hother),
        ((below value (.item (by simp))).node fragment).mpr fault⟩

section

variable {fields : List (String × Json)}
  (below : ∀ part, Relation.TransGen Json.Child part (.object fields) → FailsAtFault part)

include below

theorem linksOfJson_error_iff {links : List Json} {fragment : Json}
    (chained : fields.lookup "chain" = some (.array links)) :
    linksOfJson links = .error fragment ↔ ∃ before link after, links = before ++ link :: after ∧
      (∀ earlier ∈ before, IsLink earlier) ∧ LinkFault link fragment := by
  rw [linksOfJson_eq_mapM, mapM_eq_error_iff]
  simp only [← isLink_iff]
  refine exists₃_congr fun before link after => and_congr_right fun hsplit => and_congr_right fun _ => ?_
  have hlink : link ∈ links := by simp [hsplit]
  exact (below link (Json.below_lookup chained (.single (.item hlink)))).link fragment

theorem argumentsOfJson_error_iff {documents : List (String × Json)} {fragment : Json}
    (given : fields.lookup "arguments" = some (.object documents)) :
    argumentsOfJson documents = .error fragment ↔ ∃ before argument after,
      documents = before ++ argument :: after ∧ (∀ earlier ∈ before, IsArgument earlier.2) ∧
        ArgumentFault argument.2 fragment := by
  rw [argumentsOfJson_eq_mapM, mapM_eq_error_iff]
  simp only [← isArgument_iff]
  refine exists₃_congr fun before argument after =>
    and_congr_right fun hsplit => and_congr_right fun _ => ?_
  obtain ⟨name, document⟩ := argument
  have hargument : (name, document) ∈ documents := by simp [hsplit]
  exact argumentOfJson_error_iff fun part hpart =>
    below part (Json.below_lookup given (.tail (.single hpart) (.field hargument)))

theorem chainField_error_iff {kind : String} {fragment : Json}
    (type : fields.lookup "type" = some (.string kind))
    (kinds : kind = "expression" ∨ kind = "partial") :
    chainField (.object fields) fields = .error fragment ↔ Fault (.object fields) fragment := by
  have hreference : kind ≠ "function" := by rcases kinds with rfl | rfl <;> decide
  rw [chainField_eq]
  constructor
  · intro h
    split at h
    · rename_i links hchain
      obtain ⟨before, link, after, rfl, hbefore, hlink⟩ := (linksOfJson_error_iff below hchain).mp h
      exact .link type kinds hchain hbefore hlink
    · rename_i hchain
      cases h
      exact .chainless type kinds hchain
  · intro h
    cases h with
    | untyped untyped => exact absurd type (untyped kind)
    | unknown other unknown =>
      cases type.symm.trans other
      rcases kinds with rfl | rfl
      · exact absurd rfl unknown.1
      · exact absurd rfl unknown.2.1
    | nameless other =>
      cases type.symm.trans other
      exact absurd rfl hreference
    | chainless _ _ chained =>
      split
      · rename_i links hchain
        exact absurd hchain (chained links)
      · rfl
    | link _ _ chained earlier fault =>
      rw [chained]
      exact (linksOfJson_error_iff below chained).mpr ⟨_, _, _, rfl, earlier, fault⟩

theorem FailsAtFault.of_object : FailsAtFault (.object fields) := by
  refine ⟨fun fragment => ?_, fun fragment => ⟨?_, ?_⟩⟩
  · rw [ofJson]
    split
    · rename_i htype
      rw [map_eq_error_iff]
      exact chainField_error_iff below htype (.inl rfl)
    · rename_i htype
      rw [map_eq_error_iff]
      exact chainField_error_iff below htype (.inr rfl)
    · rename_i htype
      constructor
      · intro h
        split at h
        · cases h
        · rename_i hname
          cases h
          exact .nameless htype hname
      · intro h
        cases h with
        | nameless _ named =>
          split
          · rename_i name hname
            exact absurd hname (named name)
          · rfl
        | _ => simp_all
    · -- Of the documents of no known type some have a type and others none.
      rename_i hexpression hpartial hfunction
      constructor
      · intro h
        cases h
        by_cases htype : ∃ kind, fields.lookup "type" = some (.string kind)
        · obtain ⟨kind, htype⟩ := htype
          refine .unknown htype ⟨?_, ?_, ?_⟩
          · rintro rfl
            exact hexpression htype
          · rintro rfl
            exact hpartial htype
          · rintro rfl
            exact hfunction htype
        · exact .untyped fun kind h => htype ⟨kind, h⟩
      · intro h
        cases h with
        | link type kinds | chainless type kinds => rcases kinds with rfl | rfl <;> simp_all
        | nameless type => exact absurd type hfunction
        | _ => rfl
  · intro h
    rw [linkOfJson_object, argumentsField_eq] at h
    split at h
    · rename_i function hfunction
      rw [map_eq_error_iff] at h
      split at h
      · cases h
      · cases h
      · rename_i documents hgiven
        obtain ⟨before, ⟨name, document⟩, after, rfl, hbefore, hfault⟩ :=
          (argumentsOfJson_error_iff below hgiven).mp h
        exact .argument hfunction hgiven hbefore hfault
      · rename_i document hnull hobject hgiven
        cases h
        exact .arguments hfunction hgiven hnull hobject
    · rename_i hfunction
      cases h
      exact .uncalled hfunction
  · intro h
    rw [linkOfJson_object, argumentsField_eq]
    cases h with
    | uncalled called =>
      split
      · rename_i function hfunction
        exact absurd hfunction (called function)
      · rfl
    | arguments called given something shape =>
      rw [called, given]
      cases fragment with
      | null => exact absurd rfl something
      | object arguments => exact absurd rfl (shape arguments)
      | _ => rfl
    | argument called given earlier fault =>
      rw [called, given]
      exact map_eq_error_iff.mpr
        ((argumentsOfJson_error_iff below given).mpr ⟨_, _, _, rfl, earlier, fault⟩)

end

theorem failsAtFault (document : Json) : FailsAtFault document := by
  induction document using Json.partInduction with
  | step document below =>
    cases document with
    | object fields => exact .of_object below
    | array items =>
      refine ⟨fun fragment => ⟨?_, ?_⟩, fun fragment => ⟨?_, ?_⟩⟩
      · rintro ⟨⟩
        exact .array items
      · rintro ⟨⟩
        rfl
      · rintro ⟨⟩
        exact .uncalled nofun
      · rintro ⟨⟩
        rfl
    | null | bool b | number n | string s =>
      refine ⟨fun fragment => iff_of_false nofun nofun, fun fragment => ⟨?_, ?_⟩⟩
      · rintro ⟨⟩
        exact .uncalled nofun
      · rintro ⟨⟩
        rfl

theorem ofJson_eq_error_iff {document fragment : Json} :
    ofJson document = .error fragment ↔ Fault document fragment :=
  (failsAtFault document).node fragment

theorem not_isNode_iff {document : Json} : ¬IsNode document ↔ ∃ fragment, Fault document fragment := by
  simp only [isNode_iff, ← ofJson_eq_error_iff]
  cases ofJson document <;> simp

end Node

namespace Towers

/-- A document that is no node has one first fault, and the error quotes the fragment that is to blame, a
part of the document. Nothing is run of such a document, wherever the fault is. -/
theorem refused_at_first_fault (document : Json) :
    (¬Node.IsNode document ↔ ∃ fragment, Node.Fault document fragment) ∧
    (∀ fragment, Node.ofJson document = .error fragment ↔ Node.Fault document fragment) ∧
    ∀ fragment, Node.Fault document fragment →
      Relation.ReflTransGen Json.Child fragment document ∧
      (∀ other, Node.Fault document other → other = fragment) ∧
      (RuntimeError.unknownNode fragment).message = "Unknown AST object: " ++ fragment.text ∧
      ∀ (towers : Towers) (interpreter : Interpreter) (context : Value) (world : World),
        interpreter.interpretJson document context = .fail (.unknownNode fragment) ∧
        towers.evaluate (interpreter.interpretJson document context) world =
          (.done (.error (.unknownNode fragment)), world) := by
  refine ⟨Node.not_isNode_iff, fun fragment => Node.ofJson_eq_error_iff, fun fragment hfault => ?_⟩
  have hrefused := Node.ofJson_eq_error_iff.mpr hfault
  refine ⟨hfault.part, fun other hother => ?_, rfl, fun towers interpreter context world => ?_⟩
  · have hsame := hrefused.symm.trans (Node.ofJson_eq_error_iff.mpr hother)
    exact (Except.error.inj hsame).symm
  · have hfails : interpreter.interpretJson document context = .fail (.unknownNode fragment) := by
      rw [Interpreter.interpretJson, hrefused]
    rw [hfails]
    exact ⟨rfl, rfl⟩

/-- The link in a deferred chain that calls no function is to blame, not the one behind it. -/
theorem refused_at_first_fault_in_partial :
    Stock.listing.alone.evaluate (Stock.listing.interpretJson
      (.object [("chain", .array [
        .object [("arguments", .object [("body", .array [.null,
            .object [("chain", .array [.object [("name", .string "g")]]), ("type", .string "partial")]])]),
          ("function", .string "f")],
        .null]), ("type", .string "expression")]) .null) .start =
      (.done (.error (.unknownNode (.object [("name", .string "g")]))), .start) := by
  obtain ⟨-, hfault, hrefused⟩ := refused_at_first_fault (.object [("chain", .array [
        .object [("arguments", .object [("body", .array [.null,
            .object [("chain", .array [.object [("name", .string "g")]]), ("type", .string "partial")]])]),
          ("function", .string "f")],
        .null]), ("type", .string "expression")])
  obtain ⟨-, -, -, hrun⟩ := hrefused _ ((hfault _).mp rfl)
  exact (hrun Stock.listing.alone Stock.listing .null .start).2

end Towers

end ChainExpr
