import ChainExpr.Stock
import ChainExpr.Types.Cast

namespace ChainExpr

/-- One way to bring a value to a type. -/
inductive Move
  /-- The value is of that type already. -/
  | keep
  /-- A conversion that one of the two types declares. -/
  | convert (side : Side) (target : TypeName) (conversion : Conversion)

namespace Move

/-- What the move makes of a value. -/
def outcome (value : Value) : Move → Except RuntimeError Value
  | .keep => .ok value
  | .convert _ _ conversion => conversion.convert value

/-- The conversions that run in the move: none or one, on the value itself. -/
def attempts (value : Value) : Move → List Attempt
  | .keep => []
  | .convert side target conversion => [⟨side, value.type, target, value, conversion.reported⟩]

/-- The message of a move that fails. -/
def failure? (value : Value) (move : Move) : Option String :=
  match move.outcome value with
  | .ok _ => none
  | .error error => some error.message

/-- The move does not bring the value to its type. -/
def Misses (value : Value) (move : Move) : Prop := ∃ error, move.outcome value = .error error

end Move

namespace TypeRegistry

/-- The conversion between two types that is declared on one side. -/
def declared? (types : TypeRegistry) : Side → TypeName → TypeName → Option Conversion
  | .source, source, target => (types.get? source).bind (·.toType target)
  | .target, source, target => (types.get? target).bind (·.fromType source)

/-- A type is its own goal; to another one lead what its source declares and then what it declares
itself. -/
def movesTo (types : TypeRegistry) (source target : TypeName) : List Move :=
  if target = source then [.keep]
  else
    [Side.source, .target].filterMap fun side =>
      (types.declared? side source target).map (.convert side target)

/-- The moves for acceptable types in their order. -/
def moves (types : TypeRegistry) (source : TypeName) (acceptable : List TypeName) : List Move :=
  acceptable.flatMap (types.movesTo source)

end TypeRegistry

/-- Moves made one after the other up to the first that succeeds. If none does, the reason is the message
of the last one. -/
inductive FirstSuccess (value : Value) (moves : List Move) :
    List Attempt → Except (Option String) Value → Prop
  | reached {before after : List Move} {move : Move} {converted : Value}
      (split : moves = before ++ move :: after) (missed : ∀ earlier ∈ before, earlier.Misses value)
      (succeeds : move.outcome value = .ok converted) :
      FirstSuccess value moves ((before ++ [move]).flatMap (Move.attempts value)) (.ok converted)
  | missed (missed : ∀ move ∈ moves, move.Misses value) :
      FirstSuccess value moves (moves.flatMap (Move.attempts value))
        (.error (moves.filterMap (Move.failure? value)).getLast?)

/-- There is one first item that is not good. -/
theorem first_bad_unique {ι : Type} {good : ι → Prop} {before before' after after' : List ι}
    {item item' : ι} (h : before ++ item :: after = before' ++ item' :: after')
    (hbefore : ∀ earlier ∈ before, good earlier) (hitem : ¬ good item)
    (hbefore' : ∀ earlier ∈ before', good earlier) (hitem' : ¬ good item') :
    before = before' ∧ item = item' := by
  induction before generalizing before' with
  | nil =>
    cases before' with
    | nil => exact ⟨rfl, (List.cons.inj h).1⟩
    | cons other later => exact absurd (hbefore' item (by simp [(List.cons.inj h).1])) hitem
  | cons first rest ih =>
    cases before' with
    | nil => exact absurd (hbefore item' (by simp [← (List.cons.inj h).1])) hitem'
    | cons other later =>
      obtain ⟨rfl, hrest⟩ := List.cons.inj h
      obtain ⟨rfl, rfl⟩ := ih hrest (fun earlier hearlier => hbefore earlier (by simp [hearlier]))
        fun earlier hearlier => hbefore' earlier (by simp [hearlier])
      exact ⟨rfl, rfl⟩

@[simp] theorem mapError_ok {α ε ε' : Type} (f : ε → ε') (a : α) :
    (Except.ok a : Except ε α).mapError f = .ok a := rfl

@[simp] theorem mapError_error {α ε ε' : Type} (f : ε → ε') (error : ε) :
    (Except.error error : Except ε α).mapError f = .error (f error) := rfl

variable {value converted : Value} {moves later : List Move} {attempts : List Attempt}
  {outcome : Except (Option String) Value}

namespace FirstSuccess

theorem nothing : FirstSuccess value [] [] (.error none) := .missed (by simp)

/-- A move that succeeds is the last. -/
theorem found {move : Move} (h : move.outcome value = .ok converted) (rest : List Move) :
    FirstSuccess value (move :: rest) (move.attempts value) (.ok converted) := by
  have hsplit : move :: rest = [] ++ move :: rest := rfl
  have hfound : FirstSuccess value (move :: rest) _ (.ok converted) := .reached hsplit (by simp) h
  rwa [List.nil_append, List.flatMap_singleton] at hfound

theorem miss {move : Move} {error : RuntimeError} (h : move.outcome value = .error error) :
    FirstSuccess value [move] (move.attempts value) (.error (some error.message)) := by
  have hmissed : FirstSuccess value [move] _ (.error _) :=
    .missed (List.forall_mem_singleton.mpr ⟨error, h⟩)
  rwa [List.flatMap_singleton, List.filterMap_cons_some (b := error.message)
    (by simp only [Move.failure?, h]), List.filterMap_nil, List.getLast?_singleton] at hmissed

/-- Moves behind a success are not made. -/
theorem append_ok (h : FirstSuccess value moves attempts (.ok converted)) (later : List Move) :
    FirstSuccess value (moves ++ later) attempts (.ok converted) := by
  cases h with
  | @reached before after move _ split missed succeeds =>
    have hsplit : moves ++ later = before ++ move :: (after ++ later) := by
      rw [split, List.append_assoc, List.cons_append]
    exact .reached hsplit missed succeeds

/-- Behind moves that all miss the search goes on, and a later reason counts before an earlier one. -/
theorem append_error {reason : Option String} {attempts' : List Attempt}
    (h : FirstSuccess value moves attempts (.error reason))
    (hlater : FirstSuccess value later attempts' outcome) :
    FirstSuccess value (moves ++ later) (attempts ++ attempts')
      (outcome.mapError fun last => last <|> reason) := by
  cases h with
  | missed missed =>
    cases hlater with
    | @reached before after move _ split missed' succeeds =>
      have hsplit : moves ++ later = (moves ++ before) ++ move :: after := by
        rw [split, List.append_assoc]
      rw [← List.flatMap_append, ← List.append_assoc]
      refine .reached hsplit ?_ succeeds
      exact fun earlier hearlier => (List.mem_append.mp hearlier).elim (missed earlier) (missed' earlier)
    | missed missed' =>
      have hall : ∀ move ∈ moves ++ later, move.Misses value := fun move hmove =>
        (List.mem_append.mp hmove).elim (missed move) (missed' move)
      have hnone := FirstSuccess.missed hall
      rw [List.flatMap_append, List.filterMap_append, List.getLast?_append] at hnone
      simpa only [mapError_error, Option.orElse_eq_orElse, Option.orElse_eq_or] using hnone

theorem mem_attempts {attempt : Attempt} (h : FirstSuccess value moves attempts outcome)
    (hattempt : attempt ∈ attempts) : ∃ move ∈ moves, attempt ∈ move.attempts value := by
  cases h with
  | reached split _ _ =>
    obtain ⟨made, hmade, hattempt⟩ := List.mem_flatMap.mp hattempt
    refine ⟨made, ?_, hattempt⟩
    rw [split, List.append_cons]
    exact List.mem_append_left _ hmade
  | missed _ => exact List.mem_flatMap.mp hattempt

/-- There is one first success, or there is none. -/
theorem unique {attempts' : List Attempt} {outcome' : Except (Option String) Value}
    (h : FirstSuccess value moves attempts outcome) (h' : FirstSuccess value moves attempts' outcome') :
    attempts = attempts' ∧ outcome = outcome' := by
  have hgood : ∀ {move : Move} {converted : Value}, move.outcome value = .ok converted →
      ¬ move.Misses value := by
    rintro move converted hsucceeds ⟨error, hfails⟩
    cases hsucceeds.symm.trans hfails
  cases h with
  | @reached before after move _ split missed succeeds =>
    cases h' with
    | reached split' missed' succeeds' =>
      obtain ⟨rfl, rfl⟩ := first_bad_unique (split.symm.trans split') missed (hgood succeeds) missed'
        (hgood succeeds')
      cases succeeds.symm.trans succeeds'
      exact ⟨rfl, rfl⟩
    | missed missed' => exact absurd (missed' move (by simp [split])) (hgood succeeds)
  | missed missed =>
    cases h' with
    | @reached _ _ move _ split _ succeeds =>
      exact absurd (missed move (by simp [split])) (hgood succeeds)
    | missed _ => exact ⟨rfl, rfl⟩

end FirstSuccess

namespace TypeRegistry

variable {types : TypeRegistry} {acceptable : List TypeName}

theorem movesTo_of_ne {source target : TypeName} (h : target ≠ source) :
    types.movesTo source target =
      (types.conversions source target).map fun entry => .convert entry.1 target entry.2 := by
  rw [movesTo, if_neg h, conversions]
  cases hto : (types.get? source).bind (·.toType target) <;>
    cases hfrom : (types.get? target).bind (·.fromType source) <;>
      simp [declared?, hto, hfrom]

/-- Conversions to one type, tried one after the other. -/
theorem tryConversions_firstSuccess (value : Value) (target : TypeName)
    (conversions : List (Side × Conversion)) :
    FirstSuccess value (conversions.map fun entry => .convert entry.1 target entry.2)
      (tryConversions value target conversions).1 (tryConversions value target conversions).2 := by
  induction conversions with
  | nil => exact .nothing
  | cons entry rest ih =>
    obtain ⟨side, conversion⟩ := entry
    rw [tryConversions, List.map_cons]
    cases hconvert : conversion.convert value with
    | ok converted =>
      have hone : (Move.convert side target conversion).outcome value = .ok converted := hconvert
      exact .found hone _
    | error error =>
      have hone : (Move.convert side target conversion).outcome value = .error error := hconvert
      have hall := (FirstSuccess.miss hone).append_error ih
      cases hrest : tryConversions value target rest with
      | mk later outcome =>
        rw [hrest] at hall
        cases outcome with
        | ok converted => exact hall
        | error reason => exact hall

/-- The search for a type is the search for the first success among its moves. -/
theorem search_firstSuccess (types : TypeRegistry) (value : Value) (acceptable : List TypeName) :
    FirstSuccess value (types.moves value.type acceptable) (types.search value acceptable).1
      (types.search value acceptable).2 := by
  induction acceptable with
  | nil => exact .nothing
  | cons target rest ih =>
    rw [search, moves, List.flatMap_cons]
    split
    · rename_i hown
      have hkeep : Move.keep.outcome value = .ok value := rfl
      rw [movesTo, if_pos hown]
      exact .found hkeep _
    · rename_i hother
      have hfirst := tryConversions_firstSuccess value target (types.conversions value.type target)
      rw [movesTo_of_ne hother]
      cases htry : tryConversions value target (types.conversions value.type target) with
      | mk attempts outcome =>
        rw [htry] at hfirst
        cases outcome with
        | ok converted => exact hfirst.append_ok _
        | error reason =>
          have hall := hfirst.append_error ih
          cases hrest : types.search value rest with
          | mk later outcome =>
            rw [hrest] at hall
            cases outcome with
            | ok converted => exact hall
            | error last => exact hall

theorem search_iff {attempts : List Attempt} {outcome : Except (Option String) Value} :
    types.search value acceptable = (attempts, outcome) ↔
      FirstSuccess value (types.moves value.type acceptable) attempts outcome := by
  have hsearch := search_firstSuccess types value acceptable
  constructor
  · intro h
    rwa [h] at hsearch
  · intro h
    obtain ⟨hattempts, houtcome⟩ := hsearch.unique h
    exact Prod.ext hattempts houtcome

theorem cast_eq (h : acceptable ≠ []) :
    types.cast value acceptable = ((types.search value acceptable).1,
      (types.search value acceptable).2.mapError fun reason => ⟨value.type, acceptable, reason⟩) := by
  rw [cast, if_neg h]
  cases types.search value acceptable with
  | mk attempts outcome => cases outcome <;> rfl

theorem cast_ok_iff (h : acceptable ≠ []) {attempts : List Attempt} :
    types.cast value acceptable = (attempts, .ok converted) ↔
      FirstSuccess value (types.moves value.type acceptable) attempts (.ok converted) := by
  rw [← search_iff, cast_eq h]
  cases types.search value acceptable with
  | mk attempts' outcome => cases outcome <;> simp

theorem cast_error_iff (h : acceptable ≠ []) {attempts : List Attempt} {error : CastError} :
    types.cast value acceptable = (attempts, .error error) ↔
      ∃ reason, FirstSuccess value (types.moves value.type acceptable) attempts (.error reason) ∧
        error = ⟨value.type, acceptable, reason⟩ := by
  simp only [← search_iff, cast_eq h]
  cases types.search value acceptable with
  | mk attempts' outcome => cases outcome <;> simp [and_assoc, eq_comm]

theorem mem_moves {source : TypeName} {move : Move} :
    move ∈ types.moves source acceptable ↔
      (source ∈ acceptable ∧ move = .keep) ∨ ∃ target ∈ acceptable, target ≠ source ∧
        ∃ side conversion, types.declared? side source target = some conversion ∧
          move = .convert side target conversion := by
  have hone (target : TypeName) : move ∈ types.movesTo source target ↔
      (target = source ∧ move = .keep) ∨ target ≠ source ∧
        ∃ side conversion, types.declared? side source target = some conversion ∧
          move = .convert side target conversion := by
    rw [movesTo]
    split
    · rename_i hown
      simp [hown]
    · rename_i hother
      have hside (side : Side) : side ∈ [Side.source, .target] := by cases side <;> simp
      simp [hother, hside, List.mem_filterMap, eq_comm (a := move)]
  simp only [moves, List.mem_flatMap, hone]
  constructor
  · rintro ⟨target, htarget, ⟨rfl, hkeep⟩ | ⟨hother, hconvert⟩⟩
    · exact .inl ⟨htarget, hkeep⟩
    · exact .inr ⟨target, htarget, hother, hconvert⟩
  · rintro (⟨hown, hkeep⟩ | ⟨target, htarget, hother, hconvert⟩)
    · exact ⟨source, hown, .inl ⟨rfl, hkeep⟩⟩
    · exact ⟨target, htarget, .inr ⟨hother, hconvert⟩⟩

/-- What a cast runs is declared between the type of its value and an acceptable one, and runs on the
value. -/
theorem mem_cast_attempts {attempt : Attempt} (h : attempt ∈ (types.cast value acceptable).1) :
    attempt.value = value ∧ attempt.source = value.type ∧ attempt.target ∈ acceptable ∧
      ∃ conversion, types.declared? attempt.side attempt.source attempt.target = some conversion := by
  by_cases hempty : acceptable = []
  · rw [cast, if_pos hempty] at h
    cases h
  · rw [cast_eq hempty] at h
    obtain ⟨move, hmove, hattempt⟩ :=
      (search_firstSuccess types value acceptable).mem_attempts h
    rcases mem_moves.mp hmove with ⟨_, rfl⟩ | ⟨target, htarget, _, side, conversion, hdeclared, rfl⟩
    · cases hattempt
    · obtain rfl := List.mem_singleton.mp hattempt
      exact ⟨rfl, rfl, htarget, conversion, hdeclared⟩

/-- A cast fails where all its moves miss, for the reason that the last of them gives. -/
theorem cast_fails_iff (h : acceptable ≠ []) {error : CastError} :
    (types.cast value acceptable).2 = .error error ↔
      (∀ move ∈ types.moves value.type acceptable, move.Misses value) ∧
        error = ⟨value.type, acceptable,
          ((types.moves value.type acceptable).filterMap (Move.failure? value)).getLast?⟩ := by
  constructor
  · intro hfails
    have hcast : types.cast value acceptable = ((types.cast value acceptable).1, .error error) :=
      Prod.ext rfl hfails
    obtain ⟨reason, hfirst, rfl⟩ := (cast_error_iff h).mp hcast
    generalize (types.cast value acceptable).1 = attempts at hfirst
    cases hfirst with
    | missed missed => exact ⟨missed, rfl⟩
  · rintro ⟨hmissed, rfl⟩
    have hcast := (cast_error_iff h).mpr ⟨_, .missed hmissed, rfl⟩
    rw [hcast]

/-- A cast makes the moves for its acceptable types in their order, all of them on the value itself, up
to the first that succeeds: a type that the value has is reached without a conversion, and to another
one lead first what its source declares and then what it declares itself. If no move succeeds, the error
names the two sides and gives the message of the last conversion, if any ran. So a cast to the types of
two lists is the cast to the first, conversions included, unless that fails; otherwise it is the cast
to the second behind it, with the reason of the first where that gives none. -/
theorem cast_searches (types : TypeRegistry) (value : Value) (acceptable : List TypeName)
    (h : acceptable ≠ []) :
    (∀ attempts converted, types.cast value acceptable = (attempts, .ok converted) ↔
      FirstSuccess value (types.moves value.type acceptable) attempts (.ok converted)) ∧
    (∀ attempts error, types.cast value acceptable = (attempts, .error error) ↔
      ∃ reason, FirstSuccess value (types.moves value.type acceptable) attempts (.error reason) ∧
        error = ⟨value.type, acceptable, reason⟩) ∧
    ∀ more, more ≠ [] →
      (∀ attempts converted, types.cast value acceptable = (attempts, .ok converted) →
        types.cast value (acceptable ++ more) = (attempts, .ok converted)) ∧
      ∀ attempts error, types.cast value acceptable = (attempts, .error error) →
        (∀ later converted, types.cast value more = (later, .ok converted) →
          types.cast value (acceptable ++ more) = (attempts ++ later, .ok converted)) ∧
        ∀ later error', types.cast value more = (later, .error error') →
          types.cast value (acceptable ++ more) =
            (attempts ++ later,
              .error ⟨value.type, acceptable ++ more, error'.reason <|> error.reason⟩) := by
  refine ⟨fun _ _ => cast_ok_iff h, fun _ _ => cast_error_iff h, ?_⟩
  intro more hmore
  have hboth : acceptable ++ more ≠ [] := List.append_ne_nil_of_left_ne_nil h more
  have hmoves : types.moves value.type (acceptable ++ more) =
      types.moves value.type acceptable ++ types.moves value.type more := List.flatMap_append
  constructor
  · intro attempts converted hcast
    rw [cast_ok_iff hboth, hmoves]
    exact ((cast_ok_iff h).mp hcast).append_ok _
  · intro attempts error hcast
    obtain ⟨reason, hfirst, rfl⟩ := (cast_error_iff h).mp hcast
    constructor
    · intro later converted hlater
      rw [cast_ok_iff hboth, hmoves]
      exact hfirst.append_error ((cast_ok_iff hmore).mp hlater)
    · intro later error' hlater
      obtain ⟨last, hsecond, rfl⟩ := (cast_error_iff hmore).mp hlater
      rw [cast_error_iff hboth, hmoves]
      exact ⟨_, hfirst.append_error hsecond, rfl⟩

/-- Booleans refuse to become strings, and strings to be made from booleans. -/
def refusing : TypeRegistry :=
  empty.registerAll
    [(TypeDescriptor.bare .boolean).castTo .string (Stock.conversion .string (.fail "refused")),
      (TypeDescriptor.bare .string).castFrom .boolean (Stock.conversion .string (.fail "unwilling"))]

/-- Two conversions fail before the value passes for its own type; and where it is not acceptable, the
reason outlasts a type without conversions. -/
theorem cast_searches_refused :
    ([.string] : List TypeName) ≠ [] ∧ ([.number, .boolean] : List TypeName) ≠ [] ∧
    refusing.cast (.boolean true) ([.string] ++ [.number, .boolean]) =
      ([⟨.source, .boolean, .string, .boolean true, true⟩,
        ⟨.target, .boolean, .string, .boolean true, true⟩], .ok (.boolean true)) ∧
    refusing.cast (.boolean true) ([.string] ++ [.number]) =
      ([⟨.source, .boolean, .string, .boolean true, true⟩,
        ⟨.target, .boolean, .string, .boolean true, true⟩],
        .error ⟨.boolean, [.string, .number], some "Function cast:string failed: unwilling"⟩) := by
  have hfirst := (cast_searches refusing (.boolean true) [.string] (by decide)).2.2
  have hfails : refusing.cast (.boolean true) [.string] = (_, .error _) := rfl
  refine ⟨by decide, by decide, ?_, ?_⟩
  · exact ((hfirst [.number, .boolean] (by decide)).2 _ _ hfails).1 [] (.boolean true) rfl
  · exact ((hfirst [.number] (by decide)).2 _ _ hfails).2 [] ⟨.boolean, [.number], none⟩ rfl

end TypeRegistry

end ChainExpr
