import TurtleGraphics.Proofs.Actions
import TurtleGraphics.Proofs.Grammar

/-! A spine and its statements: neither loses what the other holds, and both mean the same. -/
namespace TurtleGraphics.Tree

universe u

variable {σ : Type u} {tree body : Tree} {statements : List Tree} {tokens : List Token}

theorem filter_isEnd (statements : List Tree) :
    statements.filter (!·.isEnd) = statements.filter (· ≠ endMarker) := by
  apply List.filter_congr
  intro tree _
  rw [Bool.eq_iff_iff, Bool.not_eq_true', decide_eq_true_iff, Bool.eq_false_iff, ne_eq, isEnd_iff]

theorem statements_body? (h : body? statements = some body) :
    body.statements = statements.filter (!·.isEnd) := by
  induction statements, body, h using body?_induction with
  | single tree =>
    rw [Tree.statements]
    cases hend : tree.isEnd <;> simp [hend]
  | more tree statements body _ ih =>
    rw [Tree.statements, ih]
    cases hend : tree.isEnd <;> simp [hend]

theorem program_statements_of_ofTokens (h : ofTokens tokens = .ok tree) :
    program tree.statements = tree := by
  obtain ⟨statements, rfl, hstatements, _⟩ := exists_statements_of_ofTokens h
  rw [statements_program_of_isStatement fun statement hs => (hstatements statement hs).1]

theorem foldl_evaluate (agent : Agent σ) (statements : List Tree) (state : σ) :
    statements.foldl (fun state statement => agent.evaluate statement state) state =
      agent.actAll (statements.flatMap actions) state := by
  rw [Agent.actAll, List.foldl_flatMap]
  simp only [Agent.evaluate_eq_actAll]
  rfl

theorem evaluate_eq_foldl_statements (agent : Agent σ) (tree : Tree) (state : σ) :
    agent.evaluate tree state =
      tree.statements.foldl (fun state statement => agent.evaluate statement state) state := by
  rw [foldl_evaluate, gathers_actions.flatMap_statements, Agent.evaluate_eq_actAll]

theorem evaluate_program_statements (agent : Agent σ) (tree : Tree) (state : σ) :
    agent.evaluate (program tree.statements) state = agent.evaluate tree state := by
  rw [Agent.evaluate_eq_actAll, actions_program, gathers_actions.flatMap_statements,
    Agent.evaluate_eq_actAll]

theorem toList_recorder_evaluate (tree : Tree) :
    (Agent.recorder.evaluate tree #[]).toList = tree.actions := by
  rw [Agent.evaluate_eq_actAll, Agent.recorder_actAll]
  simp

/-- The statements of a list made into a spine are those of the list but for the end markers, each
as it is. A tree of any shape tells every agent what its statements tell one after another, and so
does the program that they make; of a tree that has been read, this program is the tree itself. -/
theorem statements_of_spine :
    (∀ statements, (program statements).statements = statements.filter (· ≠ endMarker)) ∧
    (∀ statements, statements ≠ [] → ∃ body, body? statements = some body ∧
      body.statements = statements.filter (· ≠ endMarker)) ∧
    (∀ {σ : Type u} (agent : Agent σ) (tree : Tree) (state : σ),
      agent.evaluate tree state =
        tree.statements.foldl (fun state statement => agent.evaluate statement state) state ∧
      agent.evaluate (program tree.statements) state = agent.evaluate tree state) ∧
    (∀ tree, (Agent.recorder.evaluate tree #[]).toList =
      tree.statements.flatMap fun statement => (Agent.recorder.evaluate statement #[]).toList) ∧
    ∀ tokens tree, ofTokens tokens = .ok tree → program tree.statements = tree := by
  refine ⟨?_, ?_, ?_, ?_, fun tokens tree => program_statements_of_ofTokens⟩
  · intro statements
    rw [statements_program, filter_isEnd]
  · intro statements hne
    obtain ⟨body, hbody⟩ := Option.ne_none_iff_exists'.1 (mt body?_eq_none_iff.1 hne)
    refine ⟨body, hbody, ?_⟩
    rw [statements_body? hbody, filter_isEnd]
  · intro σ agent tree state
    exact ⟨evaluate_eq_foldl_statements agent tree state,
      evaluate_program_statements agent tree state⟩
  · intro tree
    simp only [toList_recorder_evaluate, gathers_actions.flatMap_statements]

/-- A spine inside of a body stays one statement. -/
theorem statements_of_spine_nested :
    let inner : Tree := .program [.leaf .penUp, .leaf .penDown]
    (∃ body, body? [endMarker, inner, endMarker, .leaf .penUp] = some body ∧
      body.statements = [inner, .leaf .penUp]) ∧
    ofTokens [⟨.penUp, 1⟩, ⟨.period, 1⟩, ⟨.penDown, 2⟩, ⟨.period, 2⟩] = .ok inner ∧
    program inner.statements = inner := by
  intro inner
  obtain ⟨_, hbody, _, _, hread⟩ := statements_of_spine.{0}
  exact ⟨hbody [endMarker, inner, endMarker, .leaf .penUp] (List.cons_ne_nil _ _), rfl,
    hread [⟨.penUp, 1⟩, ⟨.period, 1⟩, ⟨.penDown, 2⟩, ⟨.period, 2⟩] inner rfl⟩

end TurtleGraphics.Tree
