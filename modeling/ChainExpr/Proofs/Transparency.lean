import ChainExpr.Proofs.Portable

namespace ChainExpr

/-- The observer of an interpreter and of its fallback: log entries are hidden, and so are requests to
the fallback; what was set aside by the upper one counts as set aside by the lower one. -/
def View.above (upper lower : Home) : View where
  move home := if home = upper then lower else home
  hidden entry :=
    match entry with
    | .log _ => true
    | .request host _ _ => host = .delegating lower
    | _ => false
  hidden_kin := by
    intro entry entry' h
    cases h <;> rfl

theorem View.above_hidesLinks (upper lower : Home) : (View.above upper lower).HidesLinks :=
  fun _ _ _ => rfl

/-- Homes that are moved to one place are the same, or that of the upper and that of the lower. -/
theorem View.above_move {upper lower home home' : Home}
    (h : (View.above upper lower).move home = (View.above upper lower).move home') :
    home = home' ∨ (home = upper ∧ home' = lower) ∨ (home = lower ∧ home' = upper) :=
  Home.cases_of_moved h

namespace Stock

/-- An interpreter that acts and calls. -/
def actingOrCalling : Interpreter :=
  .mk ⟨.ofList [caller "call", act .context], .standard, .standard, 0⟩ .rejecting

/-- An interpreter that calls, and leaves acting to another one. -/
def calling : Interpreter :=
  .mk ⟨.ofList [caller "call"], .standard, .standard, 0⟩ (.delegating actingOrCalling)

theorem act_portable (move : Home → Home) : (act .context).Portable move :=
  fun _ _ contexts _ _ _ => .finish (.ok contexts)

theorem actingOrCalling_portable (move : Home → Home) : actingOrCalling.alone.Portable move := by
  apply Towers.portable_mk
  · intro name definition hlookup
    rcases List.mem_pair.mp (FunctionRegistry.mem_of_lookup_ofList hlookup) with rfl | rfl
    · exact caller_portable "call" move
    · exact act_portable move
  · exact TypeRegistry.portable_standard move
  · simp
  · simp

theorem calling_portable (move : Home → Home) : calling.alone.Portable move := by
  apply Towers.portable_mk
  · intro name definition hlookup
    rw [List.mem_singleton.mp (FunctionRegistry.mem_of_lookup_ofList hlookup)]
    exact caller_portable "call" move
  · exact TypeRegistry.portable_standard move
  · rintro fallback ⟨⟩
    exact actingOrCalling_portable move
  · simp

/-- Whatever the upper interpreter knows, the lower one knows just so. -/
theorem calling_common {name : String} {definition : FunctionDefinition}
    (h : calling.functions.lookup name = some definition) :
    actingOrCalling.functions.lookup name = some definition := by
  have hget : calling.functions.functions.get? name =
      if name == "call" then some (caller "call") else none := by
    change [("call", caller "call")].lookup name = _
    rw [List.lookup_cons]
    cases name == "call" <;> rfl
  rw [FunctionRegistry.lookup, hget] at h
  cases hname : name == "call" with
  | true =>
    rw [hname] at h
    cases h
    rw [beq_iff_eq.mp hname]
    rfl
  | false =>
    rw [hname] at h
    cases h

end Stock

namespace Towers

variable {towers : Towers} {upper fallback : Interpreter}

/-- A node looks the same on an interpreter and on its fallback. -/
theorem Portable.delegating_kin (h : towers.Portable (View.above upper.home fallback.home).move)
    (hwithin : towers.Within upper) (delegates : upper.host = .delegating fallback)
    (types : upper.types = fallback.types)
    (common : ∀ name definition, upper.functions.lookup name = some definition →
      fallback.functions.lookup name = some definition) (node : Node) {context context' : Value}
    (contexts : context.Kin (View.above upper.home fallback.home).move context') :
    (upper.interpret node context).Kin (View.above upper.home fallback.home)
      (Value.Kin (View.above upper.home fallback.home).move) (fallback.interpret node context') := by
  have hlinks := View.above_hidesLinks upper.home fallback.home
  have hfallback : towers.Within fallback := hwithin.fallback delegates
  have hfollows : upper.site.Follows (View.above upper.home fallback.home) fallback.site := by
    refine ⟨?_, types, h.types _ hwithin, ?_, ?_⟩
    · change (View.above upper.home fallback.home).move upper.home = _
      simp only [View.above, if_pos]
      split <;> rfl
    · intro name definition hlookup
      exact ⟨common name definition hlookup, h.functions _ hwithin name definition hlookup⟩
    · intro link rest hlookup context context' contexts
      have hunknown : upper.functions.lookup link.function = none := hlookup
      have hlower := h.interpret_kin hlinks hfallback (.expression (link :: rest)) contexts
      have hrequest : (View.above upper.home fallback.home).hidden
          (.request (.delegating fallback.home) (link :: rest) context) = true := by
        simp [View.above]
      rw [← Interpreter.invokeChain_eq, Interpreter.invokeChain_unknown hunknown, delegates]
      refine .hidden_left rfl (.hidden_left hrequest (.hidden_left rfl ?_))
      rw [Interpreter.invokeChain_eq]
      exact hlower
  exact hfollows.interpret hlinks node context context' contexts

/-- Function values look the same when they are called, wherever they were set aside. -/
theorem Portable.calls_kin (h : towers.Portable (View.above upper.home fallback.home).move)
    (hwithin : towers.Within upper) (delegates : upper.host = .delegating fallback)
    (types : upper.types = fallback.types)
    (common : ∀ name definition, upper.functions.lookup name = some definition →
      fallback.functions.lookup name = some definition) :
    CallsKin (View.above upper.home fallback.home) towers towers :=
  h.calls_kin_of_moved (View.above_hidesLinks _ _) (fun _ _ => View.above_move) hwithin
    (hwithin.fallback delegates) fun node _ _ => h.delegating_kin hwithin delegates types common node

/-- The same where each of the two is the top of a tower of its own. -/
theorem Portable.calls_kin_alone (h : upper.alone.Portable (View.above upper.home fallback.home).move)
    (delegates : upper.host = .delegating fallback) (types : upper.types = fallback.types)
    (common : ∀ name definition, upper.functions.lookup name = some definition →
      fallback.functions.lookup name = some definition) :
    CallsKin (View.above upper.home fallback.home) upper.alone fallback.alone := by
  intro callee callee' callees context context' contexts
  have htop : upper.alone.Within upper := ⟨0, .top⟩
  have hbelow : upper.level = fallback.level + 1 := Interpreter.level_of_delegating delegates
  rcases callees.cases with ⟨home, home', serial, chain, rfl, rfl, hhomes⟩ | ⟨name, rfl, rfl⟩
  · rw [callTask, callTask, Interpreter.invokeChain_eq, Interpreter.invokeChain_eq]
    have hresident : upper.alone.resident home = upper.atLevel home.level := rfl
    have hresident' : fallback.alone.resident home' = fallback.atLevel home'.level := rfl
    rw [hresident, hresident']
    by_cases hhome : home.level ≤ fallback.level
    · have hsame : fallback.atLevel home'.level = fallback.atLevel home.level := by
        rcases View.above_move hhomes with rfl | ⟨rfl, _⟩ | ⟨rfl, rfl⟩
        · rfl
        · exact absurd hhome (by simp only [Interpreter.home, hbelow]; omega)
        · simp only [Interpreter.home]
          rw [Interpreter.atLevel_of_le (by omega), Interpreter.atLevel_of_le (Nat.le_refl _)]
      rw [Interpreter.atLevel_of_delegating delegates hhome, hsame]
      exact h.interpret_kin (View.above_hidesLinks _ _)
        ((htop.fallback delegates).imp fun _ hwithin => hwithin.atLevel home.level)
        (.expression chain) contexts
    · have hfallback : fallback.atLevel home'.level = fallback := by
        apply Interpreter.atLevel_of_le
        rcases View.above_move hhomes with rfl | ⟨_, rfl⟩ | ⟨rfl, _⟩
        · exact Nat.le_of_not_le hhome
        · exact Nat.le_refl _
        · exact absurd (Nat.le_refl _) hhome
      rw [Interpreter.atLevel_of_le (by omega), hfallback]
      exact h.delegating_kin htop delegates types common (.expression chain) contexts
  · exact .fail _

/-- An interpreter whose functions its fallback knows just so, over the same types, is transparent: what
comes of a node, round by round, and everything that an observer of the two sees on the way is the same
as on the fallback. It is so where each of them is the top of a tower of its own, and among all the
interpreters that there are, where function values may have been set aside by any of them. -/
theorem delegation_transparent (towers : Towers) (upper fallback : Interpreter)
    (within : towers.Within upper) (delegates : upper.host = .delegating fallback)
    (types : upper.types = fallback.types)
    (common : ∀ name definition, upper.functions.lookup name = some definition →
      fallback.functions.lookup name = some definition)
    (portable : towers.Portable (View.above upper.home fallback.home).move) (node : Node)
    (context context' : Value)
    (contexts : context.Kin (View.above upper.home fallback.home).move context')
    (world world' : World) (worlds : world.Kin (View.above upper.home fallback.home) world')
    (depth rounds : Nat) :
    Ending.Kin (View.above upper.home fallback.home)
      (Value.Kin (View.above upper.home fallback.home).move)
      (upper.alone.drive depth rounds (upper.interpret node context) world)
      (fallback.alone.drive depth rounds (fallback.interpret node context') world') ∧
    Ending.Kin (View.above upper.home fallback.home)
      (Value.Kin (View.above upper.home fallback.home).move)
      (towers.drive depth rounds (upper.interpret node context) world)
      (towers.drive depth rounds (fallback.interpret node context') world') := by
  have hnode := portable.delegating_kin within delegates types common node contexts
  have hcalls := (portable.alone within).calls_kin_alone delegates types common
  exact ⟨hcalls.drive hnode worlds depth rounds,
    (portable.calls_kin within delegates types common).drive hnode worlds depth rounds⟩

/-- What the upper interpreter sets aside and calls runs on the lower one, as it does when the lower one
sets it aside. -/
theorem delegation_transparent_calling :
    Stock.calling.alone.Within Stock.calling ∧
    Stock.calling.alone.Portable (View.above Stock.calling.home Stock.actingOrCalling.home).move ∧
    ∃ world world',
      Stock.calling.alone.drive 1 1 (Stock.calling.interpret
        (.expression [⟨"call", [("fn", [.deferred [⟨"act", []⟩]])]⟩]) .null) .start =
          (.done (.ok (.string "")), world) ∧
      Stock.actingOrCalling.alone.drive 1 1 (Stock.actingOrCalling.interpret
        (.expression [⟨"call", [("fn", [.deferred [⟨"act", []⟩]])]⟩]) .null) .start =
          (.done (.ok (.string "")), world') ∧
      world.Kin (View.above Stock.calling.home Stock.actingOrCalling.home) world' := by
  have hwithin : Stock.calling.alone.Within Stock.calling := ⟨0, .top⟩
  have hportable :=
    Stock.calling_portable (View.above Stock.calling.home Stock.actingOrCalling.home).move
  have hstart : World.start.Kin (View.above Stock.calling.home Stock.actingOrCalling.home) .start :=
    ⟨rfl, rfl, rfl, .nil⟩
  have hsame := (delegation_transparent Stock.calling.alone Stock.calling Stock.actingOrCalling
    hwithin rfl rfl (fun _ _ => Stock.calling_common) hportable
    (.expression [⟨"call", [("fn", [.deferred [⟨"act", []⟩]])]⟩]) .null .null (.refl .null)
    .start .start hstart 1 1).1
  have hupper : ∃ world, Stock.calling.alone.drive 1 1 (Stock.calling.interpret
      (.expression [⟨"call", [("fn", [.deferred [⟨"act", []⟩]])]⟩]) .null) .start =
        (.done (.ok (.string "")), world) := ⟨_, rfl⟩
  have hlower : ∃ world, Stock.actingOrCalling.alone.drive 1 1 (Stock.actingOrCalling.interpret
      (.expression [⟨"call", [("fn", [.deferred [⟨"act", []⟩]])]⟩]) .null) .start =
        (.done (.ok (.string "")), world) := ⟨_, rfl⟩
  obtain ⟨world, hupper⟩ := hupper
  obtain ⟨world', hlower⟩ := hlower
  rw [hupper, hlower] at hsame
  refine ⟨hwithin, hportable, world, world', hupper, hlower, ?_⟩
  cases hsame with
  | done _ worlds => exact worlds

end Towers

end ChainExpr
