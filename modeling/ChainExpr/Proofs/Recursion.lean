import ChainExpr.Proofs.Relay

namespace ChainExpr

mutual

/-- How many nodes, arguments and links a node consists of. -/
def Node.size : Node → Nat
  | .expression chain => chainSize chain + 1
  | .deferred chain => chainSize chain + 1
  | .reference _ => 1
  | .literal _ => 1

def chainSize : List (LinkOf Node) → Nat
  | [] => 0
  | ⟨_, arguments⟩ :: rest => argumentsSize arguments + chainSize rest + 1

def argumentsSize : List (String × List Node) → Nat
  | [] => 0
  | (_, values) :: rest => valuesSize values + argumentsSize rest + 1

def valuesSize : List Node → Nat
  | [] => 0
  | node :: rest => node.size + valuesSize rest

end

theorem Node.size_pos (node : Node) : 0 < node.size := by
  cases node <;> simp [size]

theorem size_le_valuesSize {values : List Node} {node : Node} (h : node ∈ values) :
    node.size ≤ valuesSize values := by
  induction values with
  | nil => cases h
  | cons first rest ih =>
    rw [valuesSize]
    rcases List.mem_cons.mp h with rfl | hrest
    · omega
    · have hsize := ih hrest
      omega

theorem size_le_argumentsSize {arguments : List (String × List Node)} {entry : String × List Node}
    (hentry : entry ∈ arguments) {node : Node} (hnode : node ∈ entry.2) :
    node.size ≤ argumentsSize arguments := by
  induction arguments with
  | nil => cases hentry
  | cons first rest ih =>
    obtain ⟨name, values⟩ := first
    rw [argumentsSize]
    rcases List.mem_cons.mp hentry with rfl | hrest
    · have hsize : node.size ≤ valuesSize values := size_le_valuesSize hnode
      omega
    · have hsize := ih hrest
      omega

namespace Interpreter

/-- The links of a chain one after the other, with other ways to resolve arguments and to hand over. -/
def follow (interpreter : Interpreter)
    (resolve : FunctionDefinition → Value → List (String × List Node) → Task Arguments)
    (handOver : Chain → Value → Task Value) : Chain → Value → Task Value
  | [], context => .ok context
  | link :: rest, context =>
    match interpreter.functions.lookup link.function with
    | none =>
      .emit (.log (.handingOver link.function (rest.length + 1))) (handOver (link :: rest) context)
    | some definition =>
      ((resolve definition context link.arguments).bind fun bound =>
        interpreter.site.announce definition bound context
          (definition.invoke interpreter.types context bound)).bind
        (interpreter.follow resolve handOver rest)

/-- As long as the arguments of its links and the hand-over are evaluated as they are, a chain is. -/
theorem follow_eq {interpreter : Interpreter}
    {resolve : FunctionDefinition → Value → List (String × List Node) → Task Arguments}
    {handOver : Chain → Value → Task Value} (bound : Nat)
    (hresolve : ∀ definition context arguments, argumentsSize arguments ≤ bound →
      resolve definition context arguments = interpreter.resolveArguments definition context arguments)
    (hhandOver : ∀ chain context, chainSize chain ≤ bound →
      handOver chain context = interpreter.host.answer chain context)
    {chain : Chain} (hchain : chainSize chain ≤ bound) (context : Value) :
    interpreter.follow resolve handOver chain context = interpreter.invokeChain chain context := by
  induction chain generalizing context with
  | nil => rw [follow, invokeChain_nil]
  | cons link rest ih =>
    have hlink : argumentsSize link.arguments + chainSize rest + 1 ≤ bound := hchain
    rw [follow]
    cases hlookup : interpreter.functions.lookup link.function with
    | none =>
      rw [invokeChain_unknown hlookup, hhandOver _ _ hchain, Host.answer_eq]
    | some definition =>
      rw [invokeChain_known hlookup, runLink, Site.runLink]
      dsimp only
      rw [hresolve _ _ link.arguments (by omega), resolveArguments]
      exact congrArg _ (funext fun value => ih (by omega) value)

section Depth

variable (beyond : {α : Type} → Task α)

mutual

/-- The value of a node where evaluations are nested at most so deep. What is deeper is left open. -/
def interpretTo : Nat → Interpreter → Node → Value → Task Value
  | 0, _, _, _ => beyond
  | depth + 1, interpreter, .expression chain, context =>
    invokeChainTo depth interpreter chain context
  | _ + 1, interpreter, .deferred chain, _ =>
    .create fun serial => .ok (.function (.deferred interpreter.home serial chain))
  | _ + 1, _, .reference name, _ => .ok (.function (.reference name))
  | _ + 1, _, .literal literal, _ => .ok (.ofLiteral literal)

def invokeChainTo : Nat → Interpreter → Chain → Value → Task Value
  | 0, _, _, _ => beyond
  | depth + 1, interpreter, chain, context =>
    interpreter.follow (resolveArgumentsTo depth interpreter) (answerTo depth interpreter.host) chain
      context

def resolveArgumentsTo : Nat → Interpreter → FunctionDefinition → Value →
    List (String × List Node) → Task Arguments
  | 0, _, _, _, _ => beyond
  | depth + 1, interpreter, definition, context, arguments =>
    interpreter.site.resolve definition (Entries.names arguments)
      (Task.join (arguments.map fun entry =>
        Task.join (entry.2.map fun node => interpretTo depth interpreter node context)))

def answerTo : Nat → Host → Chain → Value → Task Value
  | 0, _, _, _ => beyond
  | depth + 1, .delegating fallback, chain, context =>
    .emit (.request (.delegating fallback.home) chain context)
      (.emit (.log (.delegating ((Chain.head? chain).getD "") chain.length))
        (invokeChainTo depth fallback chain context))
  | _ + 1, host, chain, context => host.answer chain context

end

/-- Deep enough calls are the calls that evaluation makes. A node costs three of them, and an interpreter
of its tower two. -/
theorem calls_to_depth (depth : Nat) :
    (∀ interpreter node context, 3 * node.size + 2 * interpreter.level ≤ depth →
      interpretTo beyond depth interpreter node context = interpreter.interpret node context) ∧
    (∀ interpreter chain context, 3 * chainSize chain + 2 * interpreter.level + 2 ≤ depth →
      invokeChainTo beyond depth interpreter chain context = interpreter.invokeChain chain context) ∧
    (∀ interpreter definition context arguments,
      3 * argumentsSize arguments + 2 * interpreter.level + 1 ≤ depth →
        resolveArgumentsTo beyond depth interpreter definition context arguments =
          interpreter.resolveArguments definition context arguments) ∧
    (∀ host chain context, 3 * chainSize chain + 2 * host.height + 1 ≤ depth →
      answerTo beyond depth host chain context = host.answer chain context) := by
  induction depth with
  | zero =>
    refine ⟨fun interpreter node context h => ?_, fun _ _ _ h => ?_, fun _ _ _ _ h => ?_,
      fun _ _ _ h => ?_⟩
    · have hpos := node.size_pos
      omega
    · omega
    · omega
    · omega
  | succ depth ih =>
    obtain ⟨ihnode, ihchain, iharguments, ihhost⟩ := ih
    refine ⟨?node, ?chain, ?arguments, ?host⟩
    case node =>
      intro interpreter node context h
      cases node with
      | expression chain =>
        rw [Node.size] at h
        rw [interpretTo, ihchain _ _ _ (by omega), invokeChain_eq, interpret, Site.interpret]
      | deferred chain =>
        rw [interpretTo, interpret, Site.interpret]
        rfl
      | reference name => rw [interpretTo, interpret, Site.interpret]
      | literal literal => rw [interpretTo, interpret, Site.interpret]
    case chain =>
      intro interpreter chain context h
      have hlevel : interpreter.level = interpreter.host.height := by cases interpreter; rfl
      rw [invokeChainTo]
      apply follow_eq (chainSize chain) _ _ (le_refl _)
      · intro definition context arguments harguments
        exact iharguments _ _ _ _ (by omega)
      · intro rest context hrest
        exact ihhost _ _ _ (by omega)
    case arguments =>
      intro interpreter definition context arguments h
      rw [resolveArgumentsTo, resolveArguments, Site.interpretArguments_eq]
      congr 2
      refine List.map_congr_left fun entry hentry => congrArg Task.join ?_
      refine List.map_congr_left fun node hnode => ?_
      have hsize := size_le_argumentsSize hentry hnode
      exact ihnode interpreter node context (by omega)
    case host =>
      intro host chain context h
      cases host with
      | rejecting => rfl
      | custom name answer => rfl
      | delegating fallback =>
        have hheight : (Host.delegating fallback).height = fallback.level + 1 := rfl
        rw [answerTo, ihchain _ _ _ (by omega)]
        rfl

end Depth

end Interpreter

end ChainExpr
