import ChainExpr.Proofs.Plan

namespace ChainExpr

/-- A link of a node. -/
structure CallSite where
  place : Place
  function : String
  /-- Whether it is set aside, as part of a chain that becomes a function value. -/
  aside : Bool
  /-- The nodes that are the values of its arguments. -/
  elements : List Place
  /-- The links that come before: the earlier ones of its chain, and those in its own arguments. -/
  before : List Place
deriving DecidableEq

namespace CallSite

/-- The links that are not set aside. -/
def active (sites : List CallSite) : List CallSite := sites.filter fun site => !site.aside

def places (sites : List CallSite) : List Place := sites.map CallSite.place

theorem mem_active {sites : List CallSite} {call : CallSite} :
    call ∈ active sites ↔ call ∈ sites ∧ call.aside = false := by
  simp [active]

@[simp] theorem active_append (a b : List CallSite) : active (a ++ b) = active a ++ active b :=
  List.filter_append ..

@[simp] theorem places_append (a b : List CallSite) : places (a ++ b) = places a ++ places b :=
  List.map_append

end CallSite

namespace Node

/-- The values of an argument that stands at a place, from some index on. -/
def valuePlaces (place : Place) (index : Nat) : List Node → List Place
  | [] => []
  | _ :: rest => (index :: place) :: valuePlaces place (index + 1) rest

/-- The values of the arguments of a link, from the argument at some index on. -/
def elementPlaces (place : Place) (index : Nat) : List (String × List Node) → List Place
  | [] => []
  | (_, values) :: rest => valuePlaces (index :: place) 0 values ++ elementPlaces place (index + 1) rest

mutual

/-- The links of a node that stands at a place. -/
def callSites (aside : Bool) (place : Place) : Node → List CallSite
  | .expression chain => chainSites aside place 0 chain
  | .deferred chain => chainSites true place 0 chain
  | .reference _ => []
  | .literal _ => []

def chainSites (aside : Bool) (place : Place) (index : Nat) : List (LinkOf Node) → List CallSite
  | [] => []
  | ⟨function, arguments⟩ :: rest =>
    ⟨index :: place, function, aside, elementPlaces (index :: place) 0 arguments,
        (List.range index).map (· :: place) ++
          CallSite.places (CallSite.active (argumentSites aside (index :: place) 0 arguments))⟩ ::
      (argumentSites aside (index :: place) 0 arguments ++ chainSites aside place (index + 1) rest)

def argumentSites (aside : Bool) (place : Place) (index : Nat) :
    List (String × List Node) → List CallSite
  | [] => []
  | (_, values) :: rest =>
    valueSites aside (index :: place) 0 values ++ argumentSites aside place (index + 1) rest

def valueSites (aside : Bool) (place : Place) (index : Nat) : List Node → List CallSite
  | [] => []
  | node :: rest => node.callSites aside (index :: place) ++ valueSites aside place (index + 1) rest

end

end Node

/-- All links of a chain that is set aside are set aside. -/
theorem Node.active_aside (node : Node) :
    ∀ place, CallSite.active (node.callSites true place) = [] := by
  refine @Node.induction (fun node => ∀ place, CallSite.active (node.callSites true place) = [])
    (fun chain => ∀ place index, CallSite.active (Node.chainSites true place index chain) = [])
    (fun given => ∀ place index, CallSite.active (Node.argumentSites true place index given) = [])
    (fun given => ∀ place index, CallSite.active (Node.valueSites true place index given) = [])
    (fun links ih place => ih place 0) (fun links ih place => ih place 0) (fun _ _ => rfl)
    (fun _ _ => rfl) (fun _ _ => rfl) ?link (fun _ _ => rfl) ?argument (fun _ _ => rfl) ?value node
  case link =>
    intro name given rest hgiven hrest place index
    have hboth : CallSite.active (Node.argumentSites true (index :: place) 0 given ++
        Node.chainSites true place (index + 1) rest) = [] := by simp [hgiven, hrest]
    simpa [Node.chainSites, CallSite.active] using hboth
  case argument =>
    intro name given rest hgiven hrest place index
    simp [Node.argumentSites, hgiven, hrest]
  case value =>
    intro given rest hgiven hrest place index
    simp [Node.valueSites, hgiven, hrest]

namespace Site

variable {site : Site}

/-- Every link that is not set aside is known. -/
def Knows (site : Site) (sites : List CallSite) : Prop :=
  ∀ call ∈ sites, call.aside = false → site.equipment.functions.contains call.function = true

instance (sites : List CallSite) : Decidable (site.Knows sites) :=
  inferInstanceAs (Decidable (∀ call ∈ sites, _ → _))

theorem knows_append {sites sites' : List CallSite} :
    site.Knows (sites ++ sites') ↔ site.Knows sites ∧ site.Knows sites' :=
  List.forall_mem_append

/-- Induction on nodes whose links are known, at their places. -/
theorem induction (site : Site) (onNode : Place → Node → Prop)
    (onChain : Place → Nat → List (LinkOf Node) → Prop)
    (onArguments : Place → Nat → List (String × List Node) → Prop)
    (onValues : Place → Nat → List Node → Prop)
    (expression : ∀ place links, onChain place 0 links → onNode place (.expression links))
    (deferred : ∀ place links, onNode place (.deferred links))
    (reference : ∀ place name, onNode place (.reference name))
    (literal : ∀ place literal, onNode place (.literal literal))
    (noLink : ∀ place index, onChain place index [])
    (link : ∀ place index name definition given rest,
      site.equipment.functions.lookup name = some definition → onArguments (index :: place) 0 given →
      onChain place (index + 1) rest → onChain place index (⟨name, given⟩ :: rest))
    (noArgument : ∀ place index, onArguments place index [])
    (argument : ∀ place index name values rest, onValues (index :: place) 0 values →
      onArguments place (index + 1) rest → onArguments place index ((name, values) :: rest))
    (noValue : ∀ place index, onValues place index [])
    (value : ∀ place index node rest, onNode (index :: place) node →
      onValues place (index + 1) rest → onValues place index (node :: rest))
    (node : Node) : ∀ place, site.Knows (node.callSites false place) → onNode place node := by
  refine @Node.induction
    (fun node => ∀ place, site.Knows (node.callSites false place) → onNode place node)
    (fun chain => ∀ place index, site.Knows (Node.chainSites false place index chain) →
      onChain place index chain)
    (fun given => ∀ place index, site.Knows (Node.argumentSites false place index given) →
      onArguments place index given)
    (fun given => ∀ place index, site.Knows (Node.valueSites false place index given) →
      onValues place index given)
    (fun links ih place known => expression place links (ih place 0 known))
    (fun links _ place _ => deferred place links) (fun name place _ => reference place name)
    (fun value place _ => literal place value) (fun place index _ => noLink place index) ?link
    (fun place index _ => noArgument place index) ?argument (fun place index _ => noValue place index)
    ?value node
  case link =>
    intro name given rest hgiven hrest place index known
    obtain ⟨definition, hlookup⟩ :=
      FunctionRegistry.contains_iff.mp (known _ List.mem_cons_self rfl)
    have hinside : site.Knows (Node.argumentSites false (index :: place) 0 given ++
        Node.chainSites false place (index + 1) rest) := fun call hcall =>
      known call (List.mem_cons_of_mem _ hcall)
    obtain ⟨harguments, hlater⟩ := knows_append.mp hinside
    exact link place index name definition given rest hlookup (hgiven _ 0 harguments)
      (hrest place _ hlater)
  case argument =>
    intro name values rest hvalues hrest place index known
    obtain ⟨hhere, hlater⟩ := knows_append.mp known
    exact argument place index name values rest (hvalues _ 0 hhere) (hrest place _ hlater)
  case value =>
    intro first rest hfirst hrest place index known
    obtain ⟨hhere, hlater⟩ := knows_append.mp known
    exact value place index first rest (hfirst _ hhere) (hrest place _ hlater)

end Site

end ChainExpr
