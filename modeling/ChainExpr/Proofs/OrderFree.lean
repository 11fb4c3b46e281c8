import ChainExpr.Proofs.Agreement
import ChainExpr.Proofs.Conduct
import ChainExpr.Proofs.Renumbering
import ChainExpr.Proofs.Siblings

namespace ChainExpr

namespace Towers

variable {towers : Towers} {interpreter : Interpreter} {context : Value} {world : World} {n : Nat}

/-- The values that nodes come to side by side do not depend on their order: in any other order they
succeed as well, each of them with its value. -/
def OrderFree (towers : Towers) (interpreter : Interpreter) (context : Value) (world : World)
    (nodes : List Node) :
    Prop :=
  ∀ entries other : List (Node × Value), (entries.map Prod.fst).Perm nodes → entries.Perm other →
    towers.ComesTo (Task.join (entries.map fun entry => interpreter.interpret entry.1 context)) world
      (entries.map Prod.snd) →
    ∃ values, List.Forall₂ (Value.Same world.serial) (other.map Prod.snd) values ∧
      towers.ComesTo (Task.join (other.map fun entry => interpreter.interpret entry.1 context)) world
        values

theorem OrderFree.perm {nodes nodes' : List Node} (h : towers.OrderFree interpreter context world nodes)
    (hperm : nodes.Perm nodes') : towers.OrderFree interpreter context world nodes' :=
  fun entries other hentries => h entries other (hentries.trans hperm.symm)

/-- The outcome of parts side by side from what each of them comes to by itself: their values, or the
error of one of them. -/
inductive Collects (n : Nat) (outcomes : List (Except RuntimeError Value)) :
    Except RuntimeError (List Value) → Prop
  | values {values : List Value}
      (each : List.Forall₂ (fun outcome value => OutcomeLike (Value.Same n) outcome (.ok value)) outcomes
        values) : Collects n outcomes (.ok values)
  | fails {failure : RuntimeError} (failed : .error failure ∈ outcomes) (error : RuntimeError) :
      Collects n outcomes (.error error)

/-- Two parts that end each by itself end side by side, with what their outcomes give. -/
theorem finishes_together {α β γ : Type} (mode : JoinMode) {left : Task β} {right : Task γ} {f : β → γ → α}
    {meetsl : Except RuntimeError β → Prop} {meetsr : Except RuntimeError γ → Prop}
    {meets : Except RuntimeError α → Prop}
    (hleft : ∀ world : World, n ≤ world.serial →
      towers.Finishes (fun result _ _ => meetsl result) ∅ left world)
    (hright : ∀ world : World, n ≤ world.serial →
      towers.Finishes (fun result _ _ => meetsr result) ∅ right world)
    (hok : ∀ a b, meetsl (.ok a) → meetsr (.ok b) → meets (.ok (f a b)))
    (herror : ∀ error, meetsl (.error error) ∨ meetsr (.error error) → meets (.error error))
    (world : World) (hworld : n ≤ world.serial) :
    towers.Finishes (fun result _ _ => meets result) ∅ (.both mode left right (Task.together f)) world := by
  refine Finishes.both (fun _ _ _ _ _ hmet => hmet) (fun _ _ _ _ _ hmet => hmet) ?_ ?_ hworld
    (hleft world hworld) (fun other hother => hright other (hworld.trans hother))
    (.empty ∅ world.serial)
  · exact fun a b _ _ _ middle _ ha hb => .finish (hok a b ha hb)
  · rintro error all middle _ (⟨_, _, hfails⟩ | ⟨_, _, hfails⟩)
    · exact .finish (herror error (.inl hfails))
    · exact .finish (herror error (.inr hfails))

/-- Parts that end each by itself end side by side. -/
theorem finishes_join {tasks : List (Task Value)} {outcomes : List (Except RuntimeError Value)}
    (h : List.Forall₂ (fun task outcome => ∀ world : World, n ≤ world.serial →
      towers.Finishes (fun result _ _ => OutcomeLike (Value.Same n) outcome result) ∅ task world)
        tasks outcomes)
    (hworld : n ≤ world.serial) :
    towers.Finishes (fun result _ _ => Collects n outcomes result) ∅ (Task.join tasks) world := by
  refine Task.join_gathered (motive := fun joined outcomes => ∀ world : World, n ≤ world.serial →
    towers.Finishes (fun result _ _ => Collects n outcomes result) ∅ joined world) ?none ?cons ?append h
    world hworld
  case none => exact fun _ _ => .finish (.values .nil)
  case cons =>
    intro task rest outcome outcomes hfirst hrest
    refine finishes_together .eager hfirst hrest ?_ ?_
    · rintro value values hvalue ⟨each⟩
      exact .values (.cons hvalue each)
    · rintro error (hfails | hfails)
      · cases hfails with
        | error failure => exact .fails List.mem_cons_self error
      · cases hfails with
        | fails failed => exact .fails (List.mem_cons_of_mem outcome failed) error
  case append =>
    intro before task outcomes outcome hbefore hlast
    refine finishes_together .inOrder hbefore hlast ?_ ?_
    · rintro values value ⟨each⟩ hvalue
      exact .values (List.rel_append each (.cons hvalue .nil))
    · rintro error (hfails | hfails)
      · cases hfails with
        | fails failed => exact .fails (List.mem_append_left _ failed) error
      · cases hfails with
        | error failure => exact .fails (List.mem_append_right outcomes List.mem_cons_self) error

/-- A node all of whose parts end comes to one outcome, whenever it is evaluated. -/
theorem Settles.finishes_same (hdiffer : towers.DiffersInWaits n towers) (hwithin : towers.Within interpreter)
    (hcontext : context.MadeBefore n) {node : Node} {outcome : Except RuntimeError Value} {last : Nat}
    (h : towers.Settles (interpreter.interpret node context) n outcome last)
    (hworld : n ≤ world.serial) :
    towers.Finishes (fun result _ _ => OutcomeLike (Value.Same n) outcome result) ∅
      (interpreter.interpret node context) world := by
  have hp : (Pairing.same n).Faithful := Pairing.same_faithful n
  have hkeeps : (Pairing.same n).Keeps n := Pairing.same_keeps n
  have hself := hdiffer.resident interpreter.home
  rw [hwithin.resident] at hself
  have halike := hself.interpret hp hkeeps node (Value.Like.refl hkeeps hcontext)
  have hfinishes : towers.Finishes _ ∅ _ world :=
    h.finishes hdiffer halike hp hkeeps ((Pairing.same_below n).mono le_rfl hworld)
  apply hfinishes.weaken
  rintro result numbers bound _ _ ⟨q, hgrows, _, hlike⟩
  cases hlike with
  | ok hvalues => exact .ok ⟨q, hgrows.faithful, hkeeps.mono hgrows.le, hvalues⟩
  | error error error' => exact .error error error'

/-- The order of nodes makes no difference if implementations are functions of contexts and arguments
and all parts of the nodes end. -/
theorem orderFree_of_settles (hdiffer : towers.DiffersInWaits world.serial towers)
    (hwithin : towers.Within interpreter) (hcontext : context.MadeBefore world.serial) {nodes : List Node}
    (hsettles : ∀ node ∈ nodes, ∃ outcome last,
      towers.Settles (interpreter.interpret node context) world.serial outcome last) :
    towers.OrderFree interpreter context world nodes := by
  choose! outcome last hsettles using hsettles
  have hfinishes : ∀ entries : List (Node × Value), (∀ entry ∈ entries, entry.1 ∈ nodes) →
      towers.Finishes (fun result _ _ =>
          Collects world.serial (entries.map fun entry => outcome entry.1) result) ∅
        (Task.join (entries.map fun entry => interpreter.interpret entry.1 context)) world := by
    intro entries hentries
    refine finishes_join ?_ le_rfl
    rw [List.forall₂_map_left_iff, List.forall₂_map_right_iff, List.forall₂_same]
    exact fun entry hentry other hother =>
      (hsettles entry.1 (hentries entry hentry)).finishes_same hdiffer hwithin hcontext hother
  intro entries other hentries hother ⟨polls, world', hends⟩
  have hmem : ∀ entry ∈ entries, entry.1 ∈ nodes :=
    fun entry hentry => hentries.subset (List.mem_map_of_mem hentry)
  have hsame : ∀ entry ∈ other, OutcomeLike (Value.Same world.serial) (outcome entry.1) (.ok entry.2) := by
    obtain ⟨_, _, _, hown, _, hcollects⟩ := (hfinishes entries hmem).ends
    obtain ⟨_, rfl, _⟩ := hends.unique hown
    cases hcollects with
    | values each =>
      rw [List.forall₂_map_left_iff, List.forall₂_map_right_iff, List.forall₂_same] at each
      exact fun entry hentry => each entry (hother.mem_iff.mpr hentry)
  obtain ⟨polls', result, world'', hends', _, hcollects⟩ :=
    (hfinishes other fun entry hentry => hmem entry (hother.mem_iff.mpr hentry)).ends
  cases hcollects with
  | values each =>
    refine ⟨_, ?_, polls', world'', hends'⟩
    rw [List.forall₂_map_left_iff] at each ⊢
    refine ((List.forall₂_and_left _ _).mpr ⟨hsame, each⟩).imp ?_
    rintro entry value ⟨hvalue, hvalue'⟩
    generalize outcome entry.1 = result at hvalue hvalue'
    cases hvalue with
    | ok hvalue =>
      cases hvalue' with
      | ok hvalue' => exact hvalue.between hvalue'
  | fails failed =>
    obtain ⟨entry, hentry, hfailure⟩ := List.mem_map.mp failed
    have hvalue := hsame entry hentry
    rw [hfailure] at hvalue
    cases hvalue

end Towers

end ChainExpr
