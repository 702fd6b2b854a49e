import Mathlib.Data.List.Basic
import Mathlib.Data.List.Induction
import Mathlib.Data.Nat.Init
import TurtleGraphics.Proofs.Session

/-! What a turtle draws, told from the history of its actions. -/
namespace TurtleGraphics

namespace Action

/-- Whether an action moves or turns. -/
def steers : Action → Bool
  | move _ | turn _ => true
  | penUp | penDown | setColor _ => false

/-- Whether the pen is down after an action that is about the pen. -/
def pen? : Action → Option Bool
  | penUp => some false
  | penDown => some true
  | move _ | turn _ | setColor _ => none

/-- The color after an action that is about the color. -/
def color? : Action → Option Color
  | setColor color => some color
  | move _ | turn _ | penUp | penDown => none

section

universe u

variable {α : Type u} {effect : Action → Option α} {initial : α} {actions : List Action}
  {action : Action}

/-- The effect of the last action that has one, `initial` if none of them does. -/
def latest (effect : Action → Option α) (initial : α) (actions : List Action) : α :=
  (actions.filterMap effect).getLast?.getD initial

theorem latest_nil : latest effect initial [] = initial := rfl

theorem latest_concat :
    latest effect initial (actions ++ [action]) =
      (effect action).getD (latest effect initial actions) := by
  cases h : effect action <;> simp [latest, h]

end

end Action

namespace Turtle

variable {turtle other : Turtle} {actions others : List Action} {action : Action} {i j : Nat}
  {first second : Segment}

/-- Where a turtle is and where it heads. -/
def pose (turtle : Turtle) : Point × Int64 :=
  (turtle.position, turtle.heading)

/-- Whether the pen is down after some actions, by the latest one about it. -/
def penAfter (turtle : Turtle) (actions : List Action) : Bool :=
  Action.latest Action.pen? turtle.penDown actions

/-- The color after some actions, by the latest one about it. -/
def colorAfter (turtle : Turtle) (actions : List Action) : Color :=
  Action.latest Action.color? turtle.color actions

/-- The line that the action at index `i` draws: it has to be a movement, and the pen has to be
down by then. -/
def stroke? (turtle : Turtle) (actions : List Action) (i : Nat) : Option Segment :=
  match actions[i]? with
  | some (.move distance) =>
    let earlier := actions.take i
    let here := agent.actAll earlier turtle
    if turtle.penAfter earlier then
      some ⟨turtle.colorAfter earlier, here.position, here.position.travel here.heading distance⟩
    else none
  | _ => none

/-- The lines that actions draw, one for each of the movements with the pen down. -/
def strokes (turtle : Turtle) (actions : List Action) : List Segment :=
  (List.range actions.length).filterMap (turtle.stroke? actions)

/-- Whether the action at index `i` is a movement with the pen up. -/
def drifts (turtle : Turtle) (actions : List Action) (i : Nat) : Bool :=
  match actions[i]? with
  | some (.move _) => !turtle.penAfter (actions.take i)
  | _ => false

/-! ### The pose -/

theorem pose_act_of_not_steers (h : action.steers = false) :
    (agent.act action turtle).pose = turtle.pose := by
  cases action with
  | move distance | turn degrees => cases h
  | penUp | penDown | setColor color => rfl

theorem pose_act_congr (h : turtle.pose = other.pose) :
    (agent.act action turtle).pose = (agent.act action other).pose := by
  obtain ⟨hposition, hheading⟩ := Prod.mk.inj h
  cases action with
  | move distance => simp only [pose, Agent.act, agent, move, hposition, hheading]
  | turn degrees => simp only [pose, Agent.act, agent, turn, hposition, hheading]
  | penUp | penDown | setColor color => exact h

theorem pose_actAll_congr (h : turtle.pose = other.pose) :
    (agent.actAll actions turtle).pose = (agent.actAll actions other).pose := by
  induction actions generalizing turtle other with
  | nil => exact h
  | cons action actions ih => exact ih (pose_act_congr h)

/-- Actions of the pen and of the color can be left out. -/
theorem pose_actAll_filter :
    (agent.actAll (actions.filter Action.steers) turtle).pose =
      (agent.actAll actions turtle).pose := by
  induction actions generalizing turtle with
  | nil => rfl
  | cons action actions ih =>
    cases h : action.steers with
    | true =>
      rw [List.filter_cons_of_pos h]
      exact ih
    | false =>
      rw [List.filter_cons_of_neg (by simp [h]), ih]
      exact pose_actAll_congr (pose_act_of_not_steers h).symm

theorem pose_actAll_eq (hpose : other.pose = turtle.pose)
    (h : others.filter Action.steers = actions.filter Action.steers) :
    (agent.actAll others other).pose = (agent.actAll actions turtle).pose := by
  rw [← pose_actAll_filter, h, pose_actAll_filter, pose_actAll_congr hpose]

/-! ### The pen and the color -/

theorem penDown_act :
    (agent.act action turtle).penDown = action.pen?.getD turtle.penDown := by
  cases action <;> rfl

theorem color_act : (agent.act action turtle).color = action.color?.getD turtle.color := by
  cases action <;> rfl

theorem actAll_concat :
    agent.actAll (actions ++ [action]) turtle = agent.act action (agent.actAll actions turtle) :=
  Agent.actAll_append

theorem penDown_actAll (turtle : Turtle) (actions : List Action) :
    (agent.actAll actions turtle).penDown = turtle.penAfter actions := by
  induction actions using List.reverseRecOn with
  | nil => rfl
  | append_singleton actions action ih =>
    rw [actAll_concat, penDown_act, ih]
    exact Action.latest_concat.symm

theorem color_actAll (turtle : Turtle) (actions : List Action) :
    (agent.actAll actions turtle).color = turtle.colorAfter actions := by
  induction actions using List.reverseRecOn with
  | nil => rfl
  | append_singleton actions action ih =>
    rw [actAll_concat, color_act, ih]
    exact Action.latest_concat.symm

/-! ### The segments -/

/-- What an action draws depends on no later one. -/
theorem stroke?_concat_of_lt (h : i < actions.length) :
    turtle.stroke? (actions ++ [action]) i = turtle.stroke? actions i := by
  simp only [stroke?, List.getElem?_append_left h, List.take_append_of_le_length (Nat.le_of_lt h)]

theorem stroke?_concat_length :
    turtle.stroke? (actions ++ [action]) actions.length =
      (agent.actAll actions turtle).stroke? [action] 0 := by
  cases action <;>
    simp [stroke?, penAfter, colorAfter, Action.latest_nil, penDown_actAll, color_actAll]

theorem segments_act (action : Action) (turtle : Turtle) :
    (agent.act action turtle).segments.toList =
      turtle.segments.toList ++ (turtle.stroke? [action] 0).toList := by
  cases action with
  | move distance =>
    rw [act_move, toList_segments_move]
    cases h : turtle.penDown <;> simp [stroke?, penAfter, colorAfter, Action.latest_nil, h]
  | turn degrees | penUp | penDown | setColor color => exact (List.append_nil _).symm

theorem strokes_concat :
    turtle.strokes (actions ++ [action]) =
      turtle.strokes actions ++ (turtle.stroke? (actions ++ [action]) actions.length).toList := by
  have hearlier : (List.range actions.length).filterMap (turtle.stroke? (actions ++ [action])) =
      turtle.strokes actions :=
    List.filterMap_congr fun i hi => stroke?_concat_of_lt (List.mem_range.1 hi)
  rw [strokes, List.length_append, List.length_singleton, List.range_succ, List.filterMap_append,
    hearlier]
  rfl

theorem segments_actAll (turtle : Turtle) (actions : List Action) :
    (agent.actAll actions turtle).segments.toList =
      turtle.segments.toList ++ turtle.strokes actions := by
  induction actions using List.reverseRecOn with
  | nil => simp [strokes]
  | append_singleton actions action ih =>
    rw [actAll_concat, segments_act, ih, strokes_concat, stroke?_concat_length, List.append_assoc]

theorem segments_take_prefix (turtle : Turtle) (actions : List Action) (i : Nat) :
    (agent.actAll (actions.take i) turtle).segments.toList <+:
      (agent.actAll actions turtle).segments.toList := by
  have h := segments_prefix_actAll (actions.drop i) (agent.actAll (actions.take i) turtle)
  rwa [← Agent.actAll_append, List.take_append_drop] at h

/-! ### Neighbors -/

theorem ends_of_stroke? (h : turtle.stroke? actions i = some first) :
    first.start = (agent.actAll (actions.take i) turtle).position ∧
      first.stop = (agent.actAll (actions.take (i + 1)) turtle).position := by
  unfold stroke? at h
  split at h
  case h_2 => cases h
  case h_1 distance hmove =>
    cases hpen : turtle.penAfter (actions.take i) with
    | false => simp [hpen] at h
    | true =>
      simp only [hpen, if_true, Option.some.injEq] at h
      subst h
      refine ⟨rfl, ?_⟩
      rw [List.take_add_one, hmove, Option.toList_some, actAll_concat]
      rfl

/-- A movement draws or drifts. -/
theorem getElem?_ne_move (hdraw : turtle.stroke? actions i = none)
    (hdrift : turtle.drifts actions i = false) (distance : Int64) :
    actions[i]? ≠ some (.move distance) := by
  intro hmove
  cases hpen : turtle.penAfter (actions.take i) with
  | true => simp [stroke?, hmove, hpen] at hdraw
  | false => simp [drifts, hmove, hpen] at hdrift

theorem position_act_of_ne_move (h : ∀ distance, action ≠ .move distance) :
    (agent.act action turtle).position = turtle.position := by
  cases action with
  | move distance => exact (h distance rfl).elim
  | turn degrees | penUp | penDown | setColor color => rfl

/-- A turtle stays where it is until it is told to move. -/
theorem position_take_eq (hij : i ≤ j)
    (h : ∀ k, i ≤ k → k < j → ∀ distance, actions[k]? ≠ some (.move distance)) :
    (agent.actAll (actions.take j) turtle).position =
      (agent.actAll (actions.take i) turtle).position := by
  induction j, hij using Nat.le_induction with
  | base => rfl
  | succ j hij ih =>
    rw [← ih fun k hik hkj => h k hik (by omega), List.take_add_one]
    cases haction : actions[j]? with
    | none => simp
    | some action =>
      rw [Option.toList_some, actAll_concat]
      apply position_act_of_ne_move
      rintro distance rfl
      exact h j hij (by omega) distance haction

theorem start_eq_stop (hij : i < j) (hfirst : turtle.stroke? actions i = some first)
    (hsecond : turtle.stroke? actions j = some second)
    (h : ∀ k, i < k → k < j → ∀ distance, actions[k]? ≠ some (.move distance)) :
    second.start = first.stop := by
  rw [(ends_of_stroke? hsecond).1, (ends_of_stroke? hfirst).2]
  exact position_take_eq hij h

/-- Lines one after another come from two movements with none between them that draws. -/
theorem exists_of_strokes {k : Nat} (hfirst : (turtle.strokes actions)[k]? = some first)
    (hsecond : (turtle.strokes actions)[k + 1]? = some second) :
    ∃ i j, i < j ∧ turtle.stroke? actions i = some first ∧
      turtle.stroke? actions j = some second ∧
      ∀ m, i < m → m < j → turtle.stroke? actions m = none := by
  obtain ⟨hk, rfl⟩ := List.getElem?_eq_some_iff.1 hfirst
  obtain ⟨hk', rfl⟩ := List.getElem?_eq_some_iff.1 hsecond
  have hcut := List.take_append_drop k (turtle.strokes actions)
  rw [List.drop_eq_getElem_cons hk, List.drop_eq_getElem_cons hk'] at hcut
  obtain ⟨before, after, hrange, _, hafter⟩ := List.filterMap_eq_append_iff.1 hcut.symm
  obtain ⟨skipped, i, rest, rfl, _, hi, hrest⟩ := List.filterMap_eq_cons_iff.1 hafter
  obtain ⟨between, j, later, rfl, hbetween, hj, _⟩ := List.filterMap_eq_cons_iff.1 hrest
  have hsorted := List.pairwise_lt_range (n := actions.length)
  rw [hrange] at hsorted
  have hmem : ∀ m, m ∈ List.range actions.length ↔ m < actions.length := fun m => List.mem_range
  rw [hrange] at hmem
  simp only [List.pairwise_append, List.pairwise_cons, List.mem_append, List.mem_cons]
    at hsorted hmem
  have hij : i < j := by grind
  refine ⟨i, j, hij, hi, hj, ?_⟩
  intro m him hmj
  -- The indices are sorted, so that one between `i` and `j` stands between them.
  have hm : m ∈ between := by grind
  exact hbetween m hm

/-- A turtle's segments are the lines that the history of its actions tells. The pen and the color
do not matter for where it goes, and later lines leave earlier ones as they are. A line starts
where the one before it stops unless the turtle drifts in between. -/
theorem segments_eq_strokes (turtle : Turtle) (actions : List Action) :
    (∀ other others, other.position = turtle.position → other.heading = turtle.heading →
      others.filter Action.steers = actions.filter Action.steers →
      (agent.actAll others other).position = (agent.actAll actions turtle).position ∧
        (agent.actAll others other).heading = (agent.actAll actions turtle).heading) ∧
    (agent.actAll actions turtle).segments.toList =
      turtle.segments.toList ++ turtle.strokes actions ∧
    (∀ i, (agent.actAll (actions.take i) turtle).segments.toList <+:
      (agent.actAll actions turtle).segments.toList) ∧
    (∀ k first second, (turtle.strokes actions)[k]? = some first →
      (turtle.strokes actions)[k + 1]? = some second →
      ∃ i j, i < j ∧ turtle.stroke? actions i = some first ∧
        turtle.stroke? actions j = some second ∧
        (∀ m, i < m → m < j → turtle.stroke? actions m = none) ∧
        ((∀ m, i < m → m < j → turtle.drifts actions m = false) → second.start = first.stop)) ∧
    initial.penDown = false ∧ initial.color.text = "#0000FF" ∧ initial.segments = #[] := by
  refine ⟨?_, segments_actAll turtle actions, segments_take_prefix turtle actions, ?_, rfl, ?_, rfl⟩
  · intro other others hposition hheading hsteers
    have hpose : other.pose = turtle.pose := by rw [pose, hposition, hheading, ← pose]
    exact Prod.mk.inj (pose_actAll_eq hpose hsteers)
  · intro k first second hfirst hsecond
    obtain ⟨i, j, hij, hi, hj, hnone⟩ := exists_of_strokes hfirst hsecond
    refine ⟨i, j, hij, hi, hj, hnone, ?_⟩
    intro hdrifts
    apply start_eq_stop hij hi hj
    intro m him hmj
    exact getElem?_ne_move (hnone m him hmj) (hdrifts m him hmj)
  · decide +kernel

/-- Two sides of a square in two colors, and the same way without a pen. -/
theorem segments_eq_strokes_corner :
    let corner : List Action :=
      [.turn 45, .penDown, .move 10, .setColor (.ofText "red"), .turn 90, .move (-10)]
    let way : List Action := [.setColor (.ofText "red"), .turn 45, .move 10, .turn 90, .penUp,
      .move (-10)]
    (agent.actAll way initial).position = (agent.actAll corner initial).position ∧
      ∃ first second : Segment, (agent.actAll corner initial).segments = #[first, second] ∧
        first.color = default ∧ second.color = .ofText "red" ∧ first.start = ⟨0.0, 0.0⟩ ∧
        second.start = first.stop := by
  intro corner way
  obtain ⟨hway, _, _, hneighbors, _⟩ := segments_eq_strokes initial corner
  refine ⟨(hway initial way rfl rfl rfl).1, _, _, rfl, rfl, rfl, rfl, ?_⟩
  obtain ⟨_, _, _, _, _, _, hjoin⟩ := hneighbors 0 _ _ rfl rfl
  apply hjoin
  intro m _ _
  match m with
  | 0 | 1 | 2 | 3 | 4 | 5 => rfl
  | _ + 6 => rfl

end Turtle

end TurtleGraphics
