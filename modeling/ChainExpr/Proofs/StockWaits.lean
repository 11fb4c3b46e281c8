import ChainExpr.Proofs.Waitless
import ChainExpr.Proofs.Waits
import ChainExpr.Stock

namespace ChainExpr

open Likeness (Like)

namespace Value

variable {p : Pairing} {a b : Value}

mutual

/-- Nobody is shown a creation number. -/
theorem shown_shape (value : Value) : value.shape.shown = value.shown := by
  cases value with
  | object fields =>
    rw [shape]
    exact congrArg (fun texts => "\x7b" ++ ", ".intercalate texts ++ "\x7d") (shownFields_shapes fields)
  | function callable =>
    cases callable with
    | deferred home serial chain =>
      rw [shape]
      rfl
    | reference name => rw [shape]
  | render renderer value =>
    rw [shape]
    exact congrArg (fun text => "#<render as " ++ renderer ++ ": " ++ text ++ ">") (shown_shape value)
  | _ => rw [shape]

theorem shownFields_shapes (fields : List (String × Value)) :
    shownFields (fieldShapes fields) = shownFields fields := by
  cases fields with
  | nil => rw [fieldShapes]
  | cons field rest =>
    obtain ⟨name, value⟩ := field
    rw [fieldShapes]
    exact congrArg₂ (fun text rest => (name ++ ": " ++ text) :: rest) (shown_shape value)
      (shownFields_shapes rest)

end

namespace Like

theorem shown (h : Like p a b) : a.shown = b.shown := by
  rw [← shown_shape a, h.1, shown_shape]

theorem number? (h : Like p a b) : a.number? = b.number? := by
  have hshape (value : Value) : value.shape.number? = value.number? := by
    cases value with
    | function callable => cases callable <;> simp only [shape, Value.number?]
    | _ => simp only [shape, Value.number?]
  rw [← hshape a, h.1, hshape]

theorem string? (h : Like p a b) : a.string? = b.string? := by
  have hshape (value : Value) : value.shape.string? = value.string? := by
    cases value with
    | function callable => cases callable <;> simp only [shape, Value.string?]
    | _ => simp only [shape, Value.string?]
  rw [← hshape a, h.1, hshape]

theorem render (h : Like p a b) (renderer : String) :
    Like p (.render renderer a) (.render renderer b) := by
  refine ⟨by rw [shape, shape, h.1], ?_⟩
  rw [numbers, numbers]
  exact h.2

theorem object {fields fields' : List (String × Value)}
    (h : Likeness.Like p fields fields') : Like p (.object fields) (.object fields') := by
  have hfields : fieldShapes fields = fieldShapes fields' ∧
      List.Forall₂ p (fieldNumbers fields) (fieldNumbers fields') := by
    induction h with
    | nil => exact ⟨rfl, .nil⟩
    | @cons field field' _ _ hfield _ ih =>
      obtain ⟨name, value⟩ := field
      obtain ⟨_, value'⟩ := field'
      obtain ⟨rfl, hvalue⟩ := hfield
      have hlike : Like p value value' := hvalue
      simp only [fieldShapes, fieldNumbers]
      rw [hlike.1, ih.1]
      exact ⟨rfl, List.rel_append hlike.2 ih.2⟩
  refine ⟨by rw [shape, shape, hfields.1], ?_⟩
  rw [numbers, numbers]
  exact hfields.2

theorem callable? (h : Like p a b) :
    Option.Rel (fun callee callee' => Like p (.function callee) (.function callee')) a.callable?
      b.callable? := by
  have hshape := h.1
  cases a with
  | function callee =>
    cases b with
    | function callee' => exact .some h
    | _ => cases callee <;> simp [shape] at hshape
  | _ =>
    cases b with
    | function callee' => cases callee' <;> simp [shape] at hshape
    | _ => exact .none

end Like

end Value

namespace Arguments

variable {p : Pairing} {arguments arguments' : Arguments}

theorem single?_like (h : Like p arguments arguments') (name : String) :
    Option.Rel (Like p) (single? arguments name) (single? arguments' name) := by
  have hfound := Entries.lookup_like h name
  rw [single?, single?, OrderedMap.get?, OrderedMap.get?]
  generalize arguments.entries.lookup name = found at hfound ⊢
  generalize arguments'.entries.lookup name = found' at hfound ⊢
  cases hfound with
  | none => exact .none
  | some hvalue =>
    cases hvalue with
    | single hvalue => exact .some hvalue
    | multi hvalues => exact .none

theorem multi?_like (h : Like p arguments arguments') (name : String) :
    Option.Rel (Like p) (multi? arguments name) (multi? arguments' name) := by
  have hfound := Entries.lookup_like h name
  rw [multi?, multi?, OrderedMap.get?, OrderedMap.get?]
  generalize arguments.entries.lookup name = found at hfound ⊢
  generalize arguments'.entries.lookup name = found' at hfound ⊢
  cases hfound with
  | none => exact .none
  | some hvalue =>
    cases hvalue with
    | single hvalue => exact .none
    | multi hvalues => exact .some hvalues

theorem number?_like (h : Like p arguments arguments') (name : String) :
    number? arguments name = number? arguments' name := by
  have hfound := single?_like h name
  rw [number?, number?]
  generalize single? arguments name = found at hfound ⊢
  generalize single? arguments' name = found' at hfound ⊢
  cases hfound with
  | none => rfl
  | some hvalue => exact Value.Like.number? hvalue

theorem string?_like (h : Like p arguments arguments') (name : String) :
    string? arguments name = string? arguments' name := by
  have hfound := single?_like h name
  rw [string?, string?]
  generalize single? arguments name = found at hfound ⊢
  generalize single? arguments' name = found' at hfound ⊢
  cases hfound with
  | none => rfl
  | some hvalue => exact Value.Like.string? hvalue

theorem callable?_like (h : Like p arguments arguments') (name : String) :
    Option.Rel (fun callee callee' => Like p (Value.function callee) (.function callee'))
      (callable? arguments name) (callable? arguments' name) := by
  have hfound := single?_like h name
  rw [callable?, callable?]
  generalize single? arguments name = found at hfound ⊢
  generalize single? arguments' name = found' at hfound ⊢
  cases hfound with
  | none => exact .none
  | some hvalue => exact Value.Like.callable? hvalue

end Arguments

namespace Routine.Alike

variable {p : Pairing} {body body' : Routine}

theorem ok {a b : Value} (h : Like p a b) : (Routine.ok a).Alike p (Routine.ok b) :=
  .finish rfl rfl (.ok h)

theorem fail (error error' : RuntimeError) : (Routine.fail error).Alike p (Routine.fail error') :=
  .finish rfl rfl (.error error error')

theorem wait_left (h : body.Alike p body') (polls : Nat) : (Routine.wait polls body).Alike p body' := by
  cases h with
  | finish left right outcomes => exact .finish left right outcomes
  | call left right callees contexts later => exact .call left right callees contexts later

theorem wait_right (h : body.Alike p body') (polls : Nat) :
    body.Alike p (Routine.wait polls body') := by
  cases h with
  | finish left right outcomes => exact .finish left right outcomes
  | call left right callees contexts later => exact .call left right callees contexts later

end Routine.Alike

namespace Stock

open Routine

variable {n : Nat} {p : Pairing} {context context' : Value} {arguments arguments' : Arguments}

/-- Neither waits nor ticks nor meets. -/
def Body.Plain : Body → Prop
  | .tick => False
  | .yield _ _ => False
  | .meet _ _ _ => False
  | _ => True

/-- Returns no constant with numbers from `n` on. -/
def Body.MadeBefore (n : Nat) : Body → Prop
  | .constant value => value.MadeBefore n
  | _ => True

/-- Two bodies that are the same one behind waits. -/
inductive Body.DiffersInWaits (n : Nat) : Body → Body → Prop
  | same {body : Body} (plain : body.Plain) (made : body.MadeBefore n) : DiffersInWaits n body body
  | yield_left {body body' : Body} (polls : Nat) (behind : DiffersInWaits n body body') :
      DiffersInWaits n (.yield polls body) body'
  | yield_right {body body' : Body} (polls : Nat) (behind : DiffersInWaits n body body') :
      DiffersInWaits n body (.yield polls body')

theorem argumentField_like {value value' : ArgumentValue} (h : Like p value value') :
    Like p (argumentField value) (argumentField value') := by
  cases h with
  | single hvalue => exact hvalue
  | multi hvalues =>
    apply Value.Like.object
    generalize 0 = first
    induction hvalues generalizing first with
    | nil => exact .nil
    | cons hvalue _ ih => exact .cons ⟨rfl, hvalue⟩ (ih (first + 1))

theorem pipe_alike (name name' : String) {values values' : List Value} (h : Like p values values')
    {result result' : Value} (hresult : Like p result result') :
    (pipe name values result).Alike p (pipe name' values' result') := by
  induction values generalizing p values' result result' with
  | nil =>
    cases h
    exact .ok hresult
  | cons value rest ih =>
    cases h with
    | @cons _ value' _ rest' hvalue hrest =>
      have hgoesOn : ∀ callee callee' : Callable, Like p (Value.function callee) (.function callee') →
          (pipe name (.function callee :: rest) result).Alike p
            (pipe name' (.function callee' :: rest') result') := by
        intro callee callee' hcallee
        refine .call rfl rfl hcallee hresult fun q hle _ outcome outcome' houtcome => ?_
        cases houtcome with
        | ok hlike => exact ih (Likeness.mono hle hrest) hlike
        | error error error' => exact .fail error error'
      have htype : value.type = value'.type := Value.Like.type hvalue
      cases value with
      | function callee =>
        cases value' with
        | function callee' => exact hgoesOn callee callee' hvalue
        | _ => simp [Value.type] at htype
      | _ =>
        cases value' with
        | function callee' => simp [Value.type] at htype
        | _ => exact .fail _ _

theorem Body.Plain.alike {body : Body} (h : body.Plain) (hmade : body.MadeBefore n)
    (hkeeps : p.Keeps n) (name name' : String) (hcontext : Like p context context')
    (harguments : Like p arguments arguments') :
    (body.run name context arguments).Alike p (body.run name' context' arguments') := by
  have hlike : Value.Like p context context' := hcontext
  cases body with
  | context => exact .ok hcontext
  | wrap => exact .ok (Value.Like.object (.cons ⟨rfl, hcontext⟩ .nil))
  | type =>
    rw [run, run, hlike.type]
    exact .ok ⟨rfl, .nil⟩
  | shown =>
    rw [run, run, hlike.shown]
    exact .ok ⟨rfl, .nil⟩
  | double =>
    rw [run, run, operand, operand, hlike.number?]
    exact .ok ⟨rfl, .nil⟩
  | add =>
    rw [run, run, operand, operand, hlike.number?, Arguments.number?_like harguments "n"]
    exact .ok ⟨rfl, .nil⟩
  | greet =>
    rw [run, run, hlike.shown, Arguments.string?_like harguments "s"]
    exact .ok ⟨rfl, .nil⟩
  | tick => exact h.elim
  | arguments =>
    apply Routine.Alike.ok
    apply Value.Like.object
    have hentries : Like p arguments.entries arguments'.entries := harguments
    generalize arguments.entries = entries at hentries ⊢
    generalize arguments'.entries = entries' at hentries ⊢
    induction hentries with
    | nil => exact .nil
    | cons hentry _ ih => exact .cons ⟨hentry.1, argumentField_like hentry.2⟩ ih
  | call =>
    have hfound := Arguments.callable?_like harguments "fn"
    rw [run, run]
    generalize arguments.callable? "fn" = found at hfound ⊢
    generalize arguments'.callable? "fn" = found' at hfound ⊢
    cases hfound with
    | none => exact .fail _ _
    | some hcallee =>
      refine .call rfl rfl hcallee hcontext fun q _ _ outcome outcome' houtcome => ?_
      exact .finish rfl rfl houtcome
  | pipe =>
    have hfound := Arguments.multi?_like harguments "fn"
    rw [run, run]
    generalize arguments.multi? "fn" = found at hfound ⊢
    generalize arguments'.multi? "fn" = found' at hfound ⊢
    cases hfound with
    | none => exact pipe_alike name name' .nil hcontext
    | some hvalues => exact pipe_alike name name' hvalues hcontext
  | constant value => exact .ok (Value.Like.refl hkeeps hmade)
  | argument key =>
    have hfound := Arguments.single?_like harguments key
    rw [run, run]
    generalize arguments.single? key = found at hfound ⊢
    generalize arguments'.single? key = found' at hfound ⊢
    cases hfound with
    | none => exact .ok ⟨rfl, .nil⟩
    | some hvalue => exact .ok hvalue
  | render renderer => exact .ok (hlike.render renderer)
  | fail message => exact .fail _ _
  | failAs function message => exact .fail _ _
  | yield polls body => exact h.elim
  | meet point count body => exact h.elim

theorem pipe_ready (name : String) (values : List Value) (result : Value) :
    (pipe name values result).Ready := by
  induction values generalizing result with
  | nil => trivial
  | cons value rest ih =>
    cases value with
    | function callee =>
      intro outcome
      cases outcome with
      | ok value => exact ih value
      | error error => trivial
    | _ => trivial

theorem Body.Plain.ready {body : Body} (h : body.Plain) (name : String) (context : Value)
    (arguments : Arguments) : (body.run name context arguments).Ready := by
  cases body with
  | tick => exact h.elim
  | yield polls body => exact h.elim
  | meet point count body => exact h.elim
  | call =>
    rw [run]
    split
    · exact fun _ => trivial
    · trivial
  | pipe => exact pipe_ready name _ context
  | _ => trivial

theorem Body.DiffersInWaits.alike {body body' : Body} (h : body.DiffersInWaits n body')
    (hkeeps : p.Keeps n) (name name' : String) (hcontext : Like p context context')
    (harguments : Like p arguments arguments') :
    (body.run name context arguments).Alike p (body'.run name' context' arguments') := by
  induction h with
  | same plain made => exact plain.alike made hkeeps name name' hcontext harguments
  | yield_left polls _ ih => exact ih.wait_left polls
  | yield_right polls _ ih => exact ih.wait_right polls

/-- Functions of one declaration with such bodies. -/
theorem Body.DiffersInWaits.functions {body body' : Body} (h : body.DiffersInWaits n body')
    (name : String) (declaration : FunctionDefinition)
    (hdefaults : ∀ entry ∈ declaration.signature.arguments.entries, ∀ value,
      entry.2.default? = some value → value.MadeBefore n) :
    FunctionDefinition.Alike n { declaration with implementation := (body.run name · ·) }
      { declaration with implementation := (body'.run name · ·) } where
  returns := rfl
  contexts := rfl
  signature := rfl
  defaults := hdefaults
  bodies _ _ hkeeps _ _ hcontext _ _ harguments := h.alike hkeeps name name hcontext harguments

theorem lookup_acting (body : Body) (name : String) :
    (acting body).functions.lookup name = if name == "act" then some (act body) else none := by
  have hfound : (acting body).functions.functions.get? name =
      if name == "act" then some (act body) else none := by
    change [("act", act body)].lookup name = _
    rw [List.lookup_cons]
    cases name == "act" <;> rfl
  rw [FunctionRegistry.lookup, hfound]
  cases name == "act" <;> rfl

theorem acting_never_waits {body : Body} (h : body.Plain) : (acting body).alone.NeverWaits where
  functions := by
    intro interpreter hwithin name definition hlookup context arguments
    rcases Interpreter.within_mk.mp (Interpreter.within_alone.mp hwithin) with hsame | ⟨_, hhost, _⟩
    · rw [hsame] at hlookup
      have hknown : (acting body).functions.lookup name = some definition := hlookup
      rw [lookup_acting] at hknown
      split at hknown
      · cases hknown
        exact h.ready "act" context arguments
      · cases hknown
    · cases hhost
  answers := by
    intro equipment name answer hwithin
    rcases Interpreter.within_mk.mp (Interpreter.within_alone.mp hwithin) with hsame | ⟨_, hhost, _⟩
    · cases hsame
    · cases hhost

/-- Interpreters that act with such bodies. -/
theorem acting_differs {body body' : Body} (h : body.DiffersInWaits n body') :
    (acting body).DiffersInWaits n (acting body') := by
  refine .rejecting ⟨fun name => ?_, rfl, TypeRegistry.uniform_standard n, rfl, rfl⟩
  have hact : (act body).Alike n (act body') :=
    h.functions "act" (act body) fun entry hentry => absurd hentry List.not_mem_nil
  change Option.Rel _ ((acting body).functions.lookup name) ((acting body').functions.lookup name)
  rw [lookup_acting, lookup_acting]
  split
  · exact .some hact
  · exact .none

end Stock

end ChainExpr
