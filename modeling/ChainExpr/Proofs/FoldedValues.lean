import ChainExpr.Proofs.OrderFree
import ChainExpr.Proofs.Regrouping
import ChainExpr.Proofs.StockWaits

namespace ChainExpr

variable {α : Type}

/-- Items that are related one by one are related in lists of equal lengths. -/
theorem forall₂_of_flatten {R : α → α → Prop} {lists lists' : List (List α)}
    (hlengths : List.Forall₂ (fun list list' => list.length = list'.length) lists lists')
    (h : List.Forall₂ R lists.flatten lists'.flatten) : List.Forall₂ (List.Forall₂ R) lists lists' := by
  induction hlengths with
  | nil => exact .nil
  | @cons list list' _ _ hlength _ ih =>
    rw [List.flatten_cons, List.flatten_cons] at h
    have hfirst := List.forall₂_take list.length h
    have hrest := List.forall₂_drop list.length h
    rw [List.take_left, hlength, List.take_left] at hfirst
    rw [List.drop_left, hlength, List.drop_left] at hrest
    exact .cons hfirst (ih hrest)

namespace FunctionDefinition

variable {definition : FunctionDefinition}

theorem valuesGiven_eq_folded (name : String) (argument : ArgumentDefinition)
    (given : List (String × List Value)) :
    definition.valuesGiven name argument (Entries.names given) (given.map Prod.snd) =
      if definition.signature.folded name given = [] then [argument.default?.getD .null]
      else (definition.signature.folded name given).flatten := by
  have hgathered : definition.gathered name (Entries.names given) (given.map Prod.snd) =
      definition.signature.folded name given := by
    rw [gathered, Entries.names, List.zip_map', List.map_id'' fun entry => rfl]
    rfl
  rw [valuesGiven, hgathered]

/-- Calls that give an argument the same values have the same values count for it. -/
theorem valuesGiven_of_sameFolding (argument : ArgumentDefinition) {name : String}
    {given given' : List (String × List Value)} (h : definition.signature.SameFolding given given')
    (hname : name ∈ definition.signature.arguments.names) :
    definition.valuesGiven name argument (Entries.names given) (given.map Prod.snd) =
      definition.valuesGiven name argument (Entries.names given') (given'.map Prod.snd) := by
  obtain ⟨hmentions, hitems⟩ := h name hname
  simp only [valuesGiven_eq_folded, hmentions, hitems]

/-- What counts for an argument stays the same if the values of a call go to the places of another one that
gives the same, whatever numbers they have there. -/
theorem valuesGiven_placed (argument : ArgumentDefinition) {n : Nat} {name : String}
    {pairs placed : List (String × List (α × Value))} {lists : List (List Value)}
    (h : definition.signature.SameFolding pairs placed)
    (hknows : definition.signature.Knows (Entries.mapItems Prod.fst placed))
    (hname : name ∈ definition.signature.arguments.names)
    (hsame : List.Forall₂ (List.Forall₂ (Value.Same n))
      ((Entries.mapItems Prod.snd placed).map Prod.snd) lists) :
    List.Forall₂ (Value.Same n)
      (definition.valuesGiven name argument (Entries.names (Entries.mapItems Prod.fst pairs))
        ((Entries.mapItems Prod.snd pairs).map Prod.snd))
      (definition.valuesGiven name argument (Entries.names (Entries.mapItems Prod.fst placed)) lists) := by
  have hcounts := valuesGiven_same name argument hknows hsame
  have hvalues := valuesGiven_of_sameFolding argument (h.mapItems Prod.snd) hname
  simp only [Entries.names_mapItems] at hcounts hvalues ⊢
  rw [hvalues]
  exact hcounts

end FunctionDefinition

namespace Towers

variable {towers : Towers} {interpreter : Interpreter} {definition : FunctionDefinition} {context : Value}
  {world : World}

theorem ComesTo.onError {task : Task α} {value : α} (h : towers.ComesTo task world value)
    (entry : RuntimeError → LogEntry) : towers.ComesTo (task.onError entry) world value := by
  obtain ⟨polls, world', hends⟩ := h
  have hafter : towers.Ends (Task.ok value) world' 0 (.ok value) world' :=
    .now (polls_finish (.ok value) world')
  exact ⟨polls, world', ends_andThen.mpr ⟨_, _, polls, 0, rfl, hends, hafter⟩⟩

theorem comesTo_emitAll (events : List Event) (value : α) :
    towers.ComesTo (Task.emitAll events (.finish (.ok value))) world value := by
  induction events generalizing world with
  | nil => exact ⟨0, world, .now (polls_finish (.ok value) world)⟩
  | cons entry rest ih =>
    obtain ⟨polls, world', hends⟩ := @ih (world.record entry)
    cases hends with
    | now done => exact ⟨0, world', .now (polls_emit.mpr done)⟩
    | later waits ends => exact ⟨_, world', .later (polls_emit.mpr waits) ends⟩

/-- The arguments of a call whose names are known are what the values of its nodes bind. -/
theorem comesTo_resolveArguments_iff {given : List (String × List Node)}
    (hknows : definition.signature.Knows given) {bound : Arguments} :
    towers.ComesTo (interpreter.resolveArguments definition context given) world bound ↔
      ∃ lists, towers.ComesTo (interpreter.site.interpretArguments given context) world lists ∧
        definition.Resolves interpreter.types (Entries.names given) lists bound := by
  constructor
  · rintro ⟨polls, world', hends⟩
    obtain ⟨lists, middle, before, _, _, hlists, hresolves⟩ := Site.ends_resolve hends
    exact ⟨lists, ⟨before, middle, hlists⟩, hresolves⟩
  · rintro ⟨lists, hlists, hresolves⟩
    obtain ⟨names, hnames⟩ := FunctionDefinition.resolveNames_of_knows hknows
    obtain ⟨before, middle, hvalues⟩ := hlists.onError (.argumentEvaluationFailed definition.name)
    obtain ⟨events, outcome, hbinding, htask⟩ :=
      FunctionDefinition.bindArguments_ends interpreter.types hnames lists
    obtain ⟨_, rfl⟩ := hbinding.unique (.bound hresolves)
    obtain ⟨after, world', hbound⟩ : towers.ComesTo _ middle bound := comesTo_emitAll events bound
    rw [Interpreter.resolveArguments, Site.resolve, hnames]
    refine ⟨before + after, world', ends_bind.mpr (.inr ⟨lists, middle, before, after, rfl, hvalues, ?_⟩)⟩
    rw [← htask] at hbound
    exact hbound

/-- The arguments of the call are resolved to these ones, but for the numbers of chains set aside on the
way. -/
def ResolvesTo (towers : Towers) (interpreter : Interpreter) (definition : FunctionDefinition)
    (context : Value)
    (world : World) (given : List (String × List Node)) (bound : Arguments) : Prop :=
  ∃ reached, towers.ComesTo (interpreter.resolveArguments definition context given) world reached ∧
    Arguments.Same world.serial bound reached

theorem ComesTo.lengths {given : List (String × List Node)} {lists : List (List Value)}
    (h : towers.ComesTo (interpreter.site.interpretArguments given context) world lists) :
    List.Forall₂ (fun entry list => entry.2.length = list.length) given lists := by
  obtain ⟨_, _, hends⟩ := h
  exact (Site.elements_ok hends.runs).imp fun _ _ hvalues => hvalues.length_eq

/-- Nodes take the values that they have come to along to their places in another call. -/
theorem OrderFree.comesTo_placed {pairs placed : List (String × List (Node × Value))}
    (hfree : towers.OrderFree interpreter context world ((pairs.flatMap Prod.snd).map Prod.fst))
    (hperm : (pairs.flatMap Prod.snd).Perm (placed.flatMap Prod.snd))
    (h : towers.ComesTo (interpreter.site.interpretArguments (Entries.mapItems Prod.fst pairs) context)
      world ((Entries.mapItems Prod.snd pairs).map Prod.snd)) :
    ∃ lists, towers.ComesTo
        (interpreter.site.interpretArguments (Entries.mapItems Prod.fst placed) context) world lists ∧
      List.Forall₂ (List.Forall₂ (Value.Same world.serial))
        ((Entries.mapItems Prod.snd placed).map Prod.snd) lists := by
  have hflat := Site.comesTo_interpretArguments_iff.mp ⟨_, rfl, h⟩
  rw [← List.flatMap_def, Entries.flatMap_mapItems, Entries.flatMap_mapItems, List.map_map] at hflat
  obtain ⟨values, hvalues, hother⟩ := hfree _ _ (List.Perm.refl _) hperm hflat
  obtain ⟨lists, rfl, hlists⟩ : ∃ lists, lists.flatten = values ∧
      towers.ComesTo (interpreter.site.interpretArguments (Entries.mapItems Prod.fst placed) context)
        world lists := by
    rw [Site.comesTo_interpretArguments_iff, Entries.flatMap_mapItems, List.map_map]
    exact hother
  refine ⟨lists, hlists, forall₂_of_flatten ?_ ?_⟩
  · have hlengths := hlists.lengths
    rw [Entries.mapItems, List.forall₂_map_left_iff] at hlengths
    rw [Entries.mapItems, List.forall₂_map_left_iff, List.forall₂_map_left_iff]
    exact hlengths.imp fun entry list hlength => by simpa using hlength
  · rw [← List.flatMap_def, Entries.flatMap_mapItems]
    exact hvalues

/-- Nodes that are given to the same arguments in another call resolve them to the same. -/
theorem ResolvesTo.regroup {first second : List (String × List Node)} {bound : Arguments}
    (huniform : interpreter.types.Uniform world.serial) (hfirst : definition.signature.Knows first)
    (hsecond : definition.signature.Knows second)
    (hsame : definition.signature.SameFolding first second)
    (hfree : towers.OrderFree interpreter context world (first.flatMap Prod.snd))
    (h : towers.ResolvesTo interpreter definition context world first bound) :
    towers.ResolvesTo interpreter definition context world second bound := by
  obtain ⟨reached, hreached, hbound⟩ := h
  obtain ⟨lists, hlists, hresolves⟩ := (comesTo_resolveArguments_iff hfirst).mp hreached
  -- The values stay beside their nodes while these are put in their places in the other call.
  obtain ⟨pairs, rfl, rfl⟩ := Entries.exists_pairs hlists.lengths
  obtain ⟨placed, rfl, hplaced⟩ := hsame.exists_placed hsecond
  have hperm : (pairs.flatMap Prod.snd).Perm (placed.flatMap Prod.snd) :=
    hplaced.perm (Signature.knows_mapItems.mp hfirst) (Signature.knows_mapItems.mp hsecond)
  rw [Entries.flatMap_mapItems] at hfree
  obtain ⟨lists', hlists', hrelated⟩ := hfree.comesTo_placed hperm hlists
  obtain ⟨bound', hresolves', hbound'⟩ := hresolves.same huniform fun name hname argument =>
    FunctionDefinition.valuesGiven_placed argument hplaced hsecond hname hrelated
  exact ⟨bound', (comesTo_resolveArguments_iff hsecond).mpr ⟨lists', hlists', hresolves'⟩,
    hbound.trans hbound'⟩

end Towers

theorem FunctionDefinition.resolveNames_replace {definition : FunctionDefinition} {name other primary : String}
    (hname : definition.signature.resolve? name = some primary)
    (hother : definition.signature.resolve? other = some primary) (before after : List String) :
    definition.resolveNames (before ++ name :: after) =
      definition.resolveNames (before ++ other :: after) := by
  induction before with
  | nil => simp only [List.nil_append, resolveNames, hname, hother]
  | cons first rest ih => simp only [List.cons_append, resolveNames, ih]

namespace Towers

variable {interpreter : Interpreter} {definition : FunctionDefinition}

/-- A name at a call can be written as any other that stands for the same argument. -/
theorem resolveArguments_replace {name other primary : String}
    (hname : definition.signature.resolve? name = some primary)
    (hother : definition.signature.resolve? other = some primary) (context : Value)
    (before after : List (String × List Node)) (nodes : List Node) :
    interpreter.resolveArguments definition context (before ++ (name, nodes) :: after) =
      interpreter.resolveArguments definition context (before ++ (other, nodes) :: after) := by
  have hnames := FunctionDefinition.resolveNames_replace hname hother (Entries.names before)
    (Entries.names after)
  simp only [Entries.names] at hnames
  simp only [Interpreter.resolveArguments, Site.resolve, Site.interpretArguments_eq, Entries.names,
    List.map_append, List.map_cons, hnames]

/-- Of a call with known names, only what it gives to each declared argument matters. If it makes no
difference to the nodes of the call in which order they stand side by side, and no conversion looks at
the numbers of chains that are yet to be set aside, any other call that mentions the same arguments, and
gives each of them the same nodes in the same order, resolves its arguments just where this one does, and
to the same ones in the same order, but for these numbers. So names that stand for different arguments can
change places; and a name can be written as another one for the same argument, which does not even change
the evaluation. -/
theorem folded_nodes_resolve (towers : Towers) (interpreter : Interpreter) (definition : FunctionDefinition)
    (context : Value) (world : World) (uniform : interpreter.types.Uniform world.serial) :
    (∀ first second : List (String × List Node), definition.signature.Knows first →
      definition.signature.Knows second → definition.signature.SameFolding first second →
        towers.OrderFree interpreter context world (first.flatMap Prod.snd) → ∀ bound,
          towers.ResolvesTo interpreter definition context world first bound ↔
            towers.ResolvesTo interpreter definition context world second bound) ∧
    (∀ first second : List (String × List Node), definition.signature.Knows first →
      first.Perm second → ((Entries.names first).map definition.signature.resolve?).Nodup →
        towers.OrderFree interpreter context world (first.flatMap Prod.snd) → ∀ bound,
          towers.ResolvesTo interpreter definition context world first bound ↔
            towers.ResolvesTo interpreter definition context world second bound) ∧
    ∀ name other primary, definition.signature.resolve? name = some primary →
      definition.signature.resolve? other = some primary →
        ∀ (before after : List (String × List Node)) (nodes : List Node),
          interpreter.resolveArguments definition context (before ++ (name, nodes) :: after) =
            interpreter.resolveArguments definition context (before ++ (other, nodes) :: after) := by
  have hregroup : ∀ first second : List (String × List Node), definition.signature.Knows first →
      definition.signature.Knows second → definition.signature.SameFolding first second →
        towers.OrderFree interpreter context world (first.flatMap Prod.snd) → ∀ bound,
          towers.ResolvesTo interpreter definition context world first bound ↔
            towers.ResolvesTo interpreter definition context world second bound := by
    intro first second hfirst hsecond hsame hfree bound
    have hfree' := hfree.perm (hsame.perm hfirst hsecond)
    exact ⟨ResolvesTo.regroup uniform hfirst hsecond hsame hfree,
      ResolvesTo.regroup uniform hsecond hfirst hsame.symm hfree'⟩
  refine ⟨hregroup, ?_, ?_⟩
  · intro first second hfirst hperm hnames hfree
    have hsecond : definition.signature.Knows second :=
      fun name hname => hfirst name ((hperm.map Prod.fst).mem_iff.mpr hname)
    exact hregroup first second hfirst hsecond (.of_perm hperm hnames) hfree
  · intro name other primary hname hother before after nodes
    exact resolveArguments_replace hname hother context before after nodes

end Towers

namespace Stock

/-- Takes any number of series, and one legend. -/
def plot : FunctionDefinition where
  name := "plot"
  returns := none
  contextTypes := none
  signature := .ofList [⟨"series", [], none, true, ["s"], ""⟩, ⟨"legend", [], none, false, [], ""⟩]
  aliases := []
  help := ""
  implementation := fun context arguments => Body.arguments.run "plot" context arguments

/-- A chain set aside as the first series, another one as the legend, and a second series. -/
def apart : List (String × List Node) :=
  [("series", [.deferred [⟨"act", []⟩]]), ("legend", [.deferred []]), ("s", [.literal (.string "b")])]

/-- The same series under one name, behind the legend. -/
def together : List (String × List Node) :=
  [("legend", [.deferred []]), ("s", [.deferred [⟨"act", []⟩], .literal (.string "b")])]

/-- Nodes that run nothing can stand in any order. -/
theorem orderFree_idle {nodes : List Node}
    (h : ∀ node ∈ nodes, (∃ chain, node = .deferred chain) ∨ ∃ literal, node = .literal literal) :
    (acting .context).alone.OrderFree (acting .context) .null .start nodes := by
  have hplain : Body.context.DiffersInWaits World.start.serial .context := .same trivial trivial
  apply Towers.orderFree_of_settles (fun _ => acting_differs hplain) ⟨0, .top⟩
  · simp [Value.MadeBefore, Value.numbers]
  · intro node hnode
    rcases h node hnode with ⟨chain, rfl⟩ | ⟨literal, rfl⟩
    · exact ⟨_, _, .create (.finish _ _)⟩
    · exact ⟨_, _, .finish _ _⟩

/-- What the arguments of a plot are resolved to. -/
abbrev Plots (given : List (String × List Node)) (bound : Arguments) : Prop :=
  (acting .context).alone.ResolvesTo (acting .context) plot .null .start given bound

end Stock

namespace Towers

/-- The chain that is set aside for the legend is the second one in the one call and the first one in the
other. -/
theorem folded_nodes_resolve_plot :
    (Stock.acting .context).types.Uniform World.start.serial ∧
    Stock.plot.signature.Knows Stock.apart ∧ Stock.plot.signature.Knows Stock.together ∧
    Stock.plot.signature.SameFolding Stock.apart Stock.together ∧
    (Stock.acting .context).alone.OrderFree (Stock.acting .context) .null .start
      (Stock.apart.flatMap Prod.snd) ∧
    (∃ bound, Stock.Plots Stock.apart bound ∧ Stock.Plots Stock.together bound ∧
      Arguments.single? bound "legend" = some (.function (.deferred ⟨0, 0⟩ 1 []))) ∧
    (∀ bound, Stock.Plots [("s", [.deferred []]), ("legend", [.deferred []])] bound ↔
      Stock.Plots [("legend", [.deferred []]), ("s", [.deferred []])] bound) ∧
    (Stock.acting .context).resolveArguments Stock.plot .null [("s", [.deferred []])] =
      (Stock.acting .context).resolveArguments Stock.plot .null [("series", [.deferred []])] := by
  have huniform : (Stock.acting .context).types.Uniform World.start.serial :=
    TypeRegistry.uniform_standard 0
  have hapart : Stock.plot.signature.Knows Stock.apart := by decide
  have htogether : Stock.plot.signature.Knows Stock.together := by decide
  have hsame : Stock.plot.signature.SameFolding Stock.apart Stock.together := by
    have hnames : Stock.plot.signature.arguments.names = ["series", "legend"] := rfl
    intro name hname
    rw [hnames] at hname
    simp only [List.mem_cons, List.not_mem_nil, or_false] at hname
    rcases hname with rfl | rfl
    · exact ⟨iff_of_false (List.cons_ne_nil _ _) (List.cons_ne_nil _ _), rfl⟩
    · exact ⟨iff_of_false (List.cons_ne_nil _ _) (List.cons_ne_nil _ _), rfl⟩
  have hfree : (Stock.acting .context).alone.OrderFree (Stock.acting .context) .null .start
      (Stock.apart.flatMap Prod.snd) := Stock.orderFree_idle (by simp [Stock.apart])
  have hplots : Stock.Plots Stock.apart
      ⟨[("series", .multi [.function (.deferred ⟨0, 0⟩ 0 [⟨"act", []⟩]), .string "b"]),
        ("legend", .single (.function (.deferred ⟨0, 0⟩ 1 [])))], by decide⟩ :=
    ⟨_, ⟨0, _, .now ⟨by simp, 0, rfl⟩⟩, .refl _⟩
  have hfolded := folded_nodes_resolve (Stock.acting .context).alone (Stock.acting .context) Stock.plot
    .null .start huniform
  refine ⟨huniform, hapart, htogether, hsame, hfree, ⟨_, hplots, ?_, rfl⟩, ?_, ?_⟩
  · exact (hfolded.1 _ _ hapart htogether hsame hfree _).mp hplots
  · exact hfolded.2.1 _ _ (by decide) (.swap _ _ []) (by decide) (Stock.orderFree_idle (by simp))
  · exact hfolded.2.2 "s" "series" "series" rfl rfl [] [] [.deferred []]

end Towers

end ChainExpr
