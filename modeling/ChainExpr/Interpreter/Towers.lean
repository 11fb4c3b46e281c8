import ChainExpr.Interpreter.Basic

namespace ChainExpr

/-- Induction on a tower, from an interpreter to the one that its host delegates to. -/
theorem Interpreter.induction {holds : Interpreter → Prop}
    (step : ∀ equipment host, (∀ fallback, host = .delegating fallback → holds fallback) →
      holds (.mk equipment host)) (interpreter : Interpreter) : holds interpreter :=
  @Interpreter.rec holds (fun host => ∀ fallback, host = .delegating fallback → holds fallback)
    step (by simp) (fun fallback hfallback other hother => Host.delegating.inj hother ▸ hfallback)
    (by simp) interpreter

/-- The interpreters of a tower: its top, and below one that delegates the one it delegates to. -/
inductive Interpreter.Within (tower : Interpreter) : Interpreter → Prop
  | top : Within tower tower
  | under {equipment : Equipment} {fallback : Interpreter}
      (above : Within tower (.mk equipment (.delegating fallback))) : Within tower fallback

namespace Interpreter

variable {tower : Interpreter}

theorem Within.atLevel {interpreter : Interpreter} (h : tower.Within interpreter) (level : Nat) :
    tower.Within (interpreter.atLevel level) := by
  induction interpreter using Interpreter.induction with
  | step equipment host ih =>
    cases host with
    | rejecting => exact h
    | custom name answer => exact h
    | delegating fallback =>
      rw [Interpreter.atLevel, Host.atLevel?]
      by_cases hlevel : level ≤ fallback.level
      · rw [if_pos hlevel]
        exact ih fallback rfl h.under
      · rw [if_neg hlevel]
        exact h

/-- Below the top of a tower stands the tower of the interpreter that it delegates to. -/
theorem within_mk {equipment : Equipment} {host : Host} {interpreter : Interpreter} :
    (mk equipment host).Within interpreter ↔
      interpreter = mk equipment host ∨
        ∃ fallback, host = .delegating fallback ∧ fallback.Within interpreter := by
  constructor
  · intro h
    induction h with
    | top => exact .inl rfl
    | @under _ fallback _ ih =>
      rcases ih with hsame | ⟨lower, rfl, hwithin⟩
      · cases hsame
        exact .inr ⟨fallback, rfl, .top⟩
      · exact .inr ⟨lower, rfl, hwithin.under⟩
  · rintro (rfl | ⟨fallback, rfl, hwithin⟩)
    · exact .top
    · induction hwithin with
      | top => exact .under .top
      | under _ ih => exact ih.under

/-- An interpreter that rejects what it does not know stands alone. -/
theorem within_rejecting {equipment : Equipment} {interpreter : Interpreter} :
    (mk equipment .rejecting).Within interpreter ↔ interpreter = mk equipment .rejecting := by
  rw [within_mk]
  exact or_iff_left fun ⟨_, hhost, _⟩ => nomatch hhost

/-- Two interpreters stand in a tower whose top delegates to one that rejects. -/
theorem within_delegating_rejecting {equipment lower : Equipment} {interpreter : Interpreter} :
    (mk equipment (.delegating (mk lower .rejecting))).Within interpreter ↔
      interpreter = mk equipment (.delegating (mk lower .rejecting)) ∨
        interpreter = mk lower .rejecting := by
  rw [within_mk]
  refine or_congr_right ⟨?_, fun hlower => ⟨_, rfl, within_rejecting.mpr hlower⟩⟩
  rintro ⟨fallback, hfallback, hwithin⟩
  cases hfallback
  exact within_rejecting.mp hwithin

theorem Within.trans {interpreter lower : Interpreter} (h : tower.Within interpreter)
    (h' : interpreter.Within lower) : tower.Within lower := by
  induction h' with
  | top => exact h
  | under _ ih => exact ih.under

theorem atLevel_of_le {interpreter : Interpreter} {level : Nat} (h : interpreter.level ≤ level) :
    interpreter.atLevel level = interpreter := by
  cases interpreter with
  | mk equipment host =>
    cases host with
    | rejecting => rfl
    | custom name answer => rfl
    | delegating fallback =>
      have habove : ¬ level ≤ fallback.level := Nat.not_le_of_lt h
      rw [Interpreter.atLevel, Host.atLevel?, if_neg habove]

theorem within_atLevel (level : Nat) : tower.Within (tower.atLevel level) :=
  Within.top.atLevel level

theorem level_of_delegating {fallback : Interpreter} (h : tower.host = .delegating fallback) :
    tower.level = fallback.level + 1 := by
  obtain ⟨equipment, host⟩ := tower
  obtain rfl : host = .delegating fallback := h
  rfl

/-- Levels of the fallback are found there. -/
theorem atLevel_of_delegating {fallback : Interpreter} (h : tower.host = .delegating fallback)
    {level : Nat} (hlevel : level ≤ fallback.level) : tower.atLevel level = fallback.atLevel level := by
  obtain ⟨equipment, host⟩ := tower
  obtain rfl : host = .delegating fallback := h
  rw [Interpreter.atLevel, Host.atLevel?, if_pos hlevel]

theorem Within.level_le {interpreter : Interpreter} (h : tower.Within interpreter) :
    interpreter.level ≤ tower.level := by
  induction h with
  | top => exact Nat.le_refl _
  | under _ ih => exact Nat.le_of_succ_le ih

/-- An interpreter of a tower is found at its level. -/
theorem Within.atLevel_level {interpreter : Interpreter} (h : tower.Within interpreter) :
    tower.atLevel interpreter.level = interpreter := by
  induction tower using Interpreter.induction with
  | step equipment host ih =>
    rcases within_mk.mp h with rfl | ⟨fallback, rfl, hwithin⟩
    · exact atLevel_of_le (Nat.le_refl _)
    · rw [Interpreter.atLevel, Host.atLevel?, if_pos hwithin.level_le]
      exact ih fallback rfl hwithin

end Interpreter

/-- All interpreters that there are, in numbered towers. Two towers may stand on one interpreter. -/
structure Towers where
  top : Nat → Interpreter
  /-- Every interpreter is found where its home says. -/
  found : ∀ number interpreter, (top number).Within interpreter →
    (top interpreter.home.tower).atLevel interpreter.home.level = interpreter

namespace Towers

variable {towers : Towers}

/-- The interpreter at a home. -/
def resident (towers : Towers) (home : Home) : Interpreter :=
  (towers.top home.tower).atLevel home.level

/-- The interpreters that stand in one of the towers. -/
def Within (towers : Towers) (interpreter : Interpreter) : Prop :=
  ∃ number, (towers.top number).Within interpreter

theorem Within.under {equipment : Equipment} {fallback : Interpreter}
    (h : towers.Within (.mk equipment (.delegating fallback))) : towers.Within fallback :=
  h.imp fun _ above => above.under

theorem Within.fallback {upper fallback : Interpreter} (h : towers.Within upper)
    (delegates : upper.host = .delegating fallback) : towers.Within fallback := by
  obtain ⟨equipment, host⟩ := upper
  obtain rfl : host = .delegating fallback := delegates
  exact h.under

theorem Within.trans {interpreter lower : Interpreter} (h : towers.Within interpreter)
    (h' : interpreter.Within lower) : towers.Within lower :=
  h.imp fun _ above => above.trans h'

theorem Within.resident {interpreter : Interpreter} (h : towers.Within interpreter) :
    towers.resident interpreter.home = interpreter := by
  obtain ⟨number, hwithin⟩ := h
  exact towers.found number interpreter hwithin

theorem within_resident (home : Home) : towers.Within (towers.resident home) :=
  ⟨home.tower, Interpreter.within_atLevel home.level⟩

end Towers

/-- The tower of an interpreter alone. -/
def Interpreter.alone (interpreter : Interpreter) : Towers where
  top := fun _ => interpreter
  found := fun _ _ h => h.atLevel_level

/-- Two towers, each of which has its number. -/
def Interpreter.beside (first second : Interpreter)
    (hfirst : ∀ interpreter, first.Within interpreter → interpreter.home.tower = 0)
    (hsecond : ∀ interpreter, second.Within interpreter → interpreter.home.tower = 1) : Towers where
  top number := if number = 1 then second else first
  found := by
    intro number interpreter hwithin
    by_cases hnumber : number = 1
    · rw [if_pos hnumber] at hwithin
      rw [hsecond interpreter hwithin, if_pos rfl]
      exact hwithin.atLevel_level
    · rw [if_neg hnumber] at hwithin
      rw [hfirst interpreter hwithin, if_neg Nat.zero_ne_one]
      exact hwithin.atLevel_level

theorem Interpreter.within_beside {first second interpreter : Interpreter}
    {hfirst : ∀ interpreter, first.Within interpreter → interpreter.home.tower = 0}
    {hsecond : ∀ interpreter, second.Within interpreter → interpreter.home.tower = 1} :
    (first.beside second hfirst hsecond).Within interpreter ↔
      first.Within interpreter ∨ second.Within interpreter := by
  constructor
  · rintro ⟨number, hwithin⟩
    rw [beside] at hwithin
    dsimp only at hwithin
    split at hwithin
    · exact .inr hwithin
    · exact .inl hwithin
  · rintro (hwithin | hwithin)
    · exact ⟨0, hwithin⟩
    · exact ⟨1, hwithin⟩

theorem Interpreter.within_alone {tower interpreter : Interpreter} :
    tower.alone.Within interpreter ↔ tower.Within interpreter :=
  ⟨fun ⟨_, h⟩ => h, fun h => ⟨0, h⟩⟩

end ChainExpr
