import TurtleGraphics.Agent
import TurtleGraphics.Proofs.Spelling

/-! What a tree tells an agent, action by action. -/
namespace TurtleGraphics

universe u

/-- The amount of a movement with its sign: forward and to the left it counts up. -/
def Direction.signed (direction : Direction) (amount : UInt32) : Int :=
  match direction with
  | forward | left => amount.toNat
  | backward | right => -amount.toNat

/-- A movement as an agent is told it. -/
def Direction.action (direction : Direction) (amount : UInt32) : Action :=
  match direction with
  | forward | backward => .move (.ofInt (direction.signed amount))
  | left | right => .turn (.ofInt (direction.signed amount))

/-- The number that an agent is told with an action. -/
def Action.number : Action → Int
  | move distance => distance.toInt
  | turn degrees => degrees.toInt
  | _ => 0

/-- The end marker tells nothing. -/
def Instruction.actions : Instruction → List Action
  | move direction amount => [direction.action amount]
  | penUp => [.penUp]
  | penDown => [.penDown]
  | setColor color => [.setColor color]
  | endMarker => []

/-- What a tree tells, the actions of a loop's body as often as the loop counts. -/
def Tree.actions : Tree → List Action
  | seq current rest => current.actions ++ rest.actions
  | last current => current.actions
  | loop count body => (List.replicate count.toNat body.actions).flatten
  | leaf instruction => instruction.actions

/-- The instructions that a walk visits, in order. -/
def Tree.visits : Tree → List Instruction
  | seq current rest => current.visits ++ rest.visits
  | last current => current.visits
  | loop count body => (List.replicate count.toNat body.visits).flatten
  | leaf instruction => [instruction]

theorem Direction.natAbs_signed (direction : Direction) (amount : UInt32) :
    (direction.signed amount).natAbs = amount.toNat := by
  cases direction <;> simp [signed]

/-- 64 bits hold an amount of either sign. -/
theorem Direction.number_action (direction : Direction) (amount : UInt32) :
    (direction.action amount).number = direction.signed amount := by
  have hsmall := amount.toNat_lt
  have habs := natAbs_signed direction amount
  have hexact : (Int64.ofInt (direction.signed amount)).toInt = direction.signed amount := by
    apply Int64.toInt_ofInt_of_le <;> omega
  cases direction <;> exact hexact

theorem foldl_flatten_replicate {α : Type} {σ : Type u} (f : σ → α → σ) (items : List α) (n : Nat)
    (state : σ) :
    (List.replicate n items).flatten.foldl f state =
      Nat.repeat (fun state => items.foldl f state) n state := by
  induction n with
  | zero => rfl
  | succ n ih =>
    rw [List.replicate_succ', List.flatten_append, List.foldl_append, ih, List.flatten_singleton]
    rfl

namespace Tree

variable {σ : Type u} {tree body : Tree} {statements : List Tree}

theorem walk_eq_foldl (visit : Instruction → σ → σ) (tree : Tree) (state : σ) :
    tree.walk visit state =
      tree.visits.foldl (fun state instruction => visit instruction state) state := by
  induction tree generalizing state with
  | seq current rest ihc ihr => rw [visits, List.foldl_append, ← ihc, ← ihr, walk]
  | last current ih => exact ih state
  | loop count body ih => rw [visits, foldl_flatten_replicate, walk, funext ih]
  | leaf instruction => rfl

theorem actions_eq_flatMap_visits (tree : Tree) :
    tree.actions = tree.visits.flatMap Instruction.actions := by
  induction tree with
  | seq current rest ihc ihr => rw [actions, visits, List.flatMap_append, ihc, ihr]
  | last current ih => exact ih
  | loop count body ih =>
    rw [actions, visits, ih, List.flatMap_def, List.flatMap_def, List.map_flatten,
      List.map_replicate, List.flatten_flatten, List.map_replicate]
  | leaf instruction => exact (List.flatMap_singleton _ _).symm

theorem visits_program (statements : List Tree) :
    (program statements).visits = statements.flatMap visits ++ [.endMarker] := by
  induction statements with
  | nil => rfl
  | cons tree statements ih =>
    rw [List.flatMap_cons, List.append_assoc, ← ih]
    rfl

theorem visits_body? (h : body? statements = some body) :
    body.visits = statements.flatMap visits := by
  induction statements, body, h using body?_induction with
  | single tree => simp [visits]
  | more tree statements body _ ih => rw [visits, ih, List.flatMap_cons]

theorem gathers_actions : Gathers actions actions :=
  ⟨fun _ _ => rfl, fun _ => rfl, fun _ _ => rfl, rfl⟩

theorem actions_program (statements : List Tree) :
    (program statements).actions = statements.flatMap actions :=
  gathers_actions.program_eq statements

theorem actions_body? (h : body? statements = some body) :
    body.actions = statements.flatMap actions :=
  gathers_actions.body?_eq h

end Tree

section

variable {tree : Tree} {text : String} {error : SyntaxError}

/-- What a text tells an agent. One that is no program tells nothing. -/
def actionsOfText (text : String) : List Action :=
  match Tree.ofText text with
  | .ok tree => tree.actions
  | .error _ => []

theorem actionsOfText_of_ok (h : Tree.ofText text = .ok tree) :
    actionsOfText text = tree.actions := by
  simp only [actionsOfText, h]

theorem actionsOfText_of_error (h : Tree.ofText text = .error error) :
    actionsOfText text = [] := by
  simp only [actionsOfText, h]

end

namespace Agent

variable {σ : Type u} {agent : Agent σ} {state : σ} {action : Action} {actions others : List Action}
  {direction : Direction} {amount : UInt32} {instruction : Instruction} {tree : Tree}
  {text : String} {error : SyntaxError}

/-- Takes actions one after another. -/
def actAll (agent : Agent σ) (actions : List Action) (state : σ) : σ :=
  actions.foldl (fun state action => agent.act action state) state

@[simp] theorem actAll_nil : agent.actAll [] state = state := rfl

@[simp] theorem actAll_cons :
    agent.actAll (action :: actions) state = agent.actAll actions (agent.act action state) := rfl

@[simp] theorem actAll_append :
    agent.actAll (actions ++ others) state = agent.actAll others (agent.actAll actions state) :=
  List.foldl_append

theorem act_direction_action :
    agent.act (direction.action amount) state = agent.perform (.move direction amount) state := by
  cases direction <;>
    simp [Direction.action, Direction.signed, act, perform, Int64.ofInt_neg, Int64.ofInt_eq_ofNat]

theorem perform_eq_actAll :
    agent.perform instruction state = agent.actAll instruction.actions state := by
  cases instruction with
  | move direction amount => exact act_direction_action.symm
  | _ => rfl

theorem evaluate_seq (current rest : Tree) (state : σ) :
    agent.evaluate (.seq current rest) state =
      agent.evaluate rest (agent.evaluate current state) := rfl

theorem evaluate_loop (count : UInt32) (body : Tree) (state : σ) :
    agent.evaluate (.loop count body) state =
      Nat.repeat (agent.evaluate body) count.toNat state := rfl

theorem evaluate_eq_actAll : agent.evaluate tree state = agent.actAll tree.actions state := by
  rw [evaluate, Tree.walk_eq_foldl, Tree.actions_eq_flatMap_visits, actAll, List.foldl_flatMap]
  simp only [perform_eq_actAll]
  rfl

theorem execute_of_ok (h : Tree.ofText text = .ok tree) :
    agent.execute text state = (.ok (), agent.actAll tree.actions state) := by
  simp only [execute, h, evaluate_eq_actAll]

theorem execute_of_error (h : Tree.ofText text = .error error) :
    agent.execute text state = (.error error, state) := by
  simp only [execute, h]

theorem execute_eq (agent : Agent σ) (text : String) (state : σ) :
    agent.execute text state =
      ((Tree.ofText text).map fun _ => (), agent.actAll (actionsOfText text) state) := by
  cases hread : Tree.ofText text with
  | ok tree =>
    rw [execute_of_ok hread, actionsOfText_of_ok hread]
    rfl
  | error error =>
    rw [execute_of_error hread, actionsOfText_of_error hread]
    rfl

theorem recorder_actAll (actions : List Action) (taken : Array Action) :
    recorder.actAll actions taken = taken ++ actions := by
  induction actions generalizing taken with
  | nil => simp
  | cons action actions ih =>
    have hact : recorder.act action taken = taken.push action := by cases action <;> rfl
    rw [actAll_cons, ih, hact]
    simp

/-- A tree does to every agent what its actions do in order, and nothing else. A movement is told
as the amount with its sign, which 64 bits hold. -/
theorem evaluate_eq_foldl_act (agent : Agent σ) (tree : Tree) (state : σ) :
    agent.evaluate tree state =
        tree.actions.foldl (fun state action => agent.act action state) state ∧
      recorder.evaluate tree #[] = tree.actions.toArray ∧
      ∀ direction amount, (Direction.action direction amount).number = direction.signed amount ∧
        (direction.signed amount).natAbs < UInt32.size := by
  refine ⟨evaluate_eq_actAll, ?_, ?_⟩
  · rw [evaluate_eq_actAll, recorder_actAll]
    simp
  · intro direction amount
    refine ⟨direction.number_action amount, ?_⟩
    rw [Direction.natAbs_signed]
    exact amount.toNat_lt

end Agent

end TurtleGraphics
