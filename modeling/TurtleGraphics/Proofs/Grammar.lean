import TurtleGraphics.Proofs.Invariant

/-! Reading accepts the token lists that spell a program, and gives that program. -/
namespace TurtleGraphics

namespace Token

variable {kind other : Kind} {kinds : List Kind} {text : String} {tokens : List Token}

def Kind.isColorLiteral : Kind → Bool
  | colorLiteral _ => true
  | _ => false

theorem Kind.eq_of_normal_eq (h : kind.normal = other) (hother : other.isColorLiteral = false) :
    kind = other := by
  cases kind with
  | colorLiteral text =>
    subst other
    cases hother
  | _ => exact h

theorem exists_cons_of_map_normal (h : tokens.map (·.kind.normal) = kind :: kinds)
    (hkind : kind.isColorLiteral = false) :
    ∃ line rest, tokens = ⟨kind, line⟩ :: rest ∧ rest.map (·.kind.normal) = kinds := by
  obtain ⟨⟨first, line⟩, rest, rfl, hfirst, hrest⟩ := List.map_eq_cons_iff.1 h
  obtain rfl : first = kind := Kind.eq_of_normal_eq hfirst hkind
  exact ⟨line, rest, rfl, hrest⟩

theorem exists_quoted_of_map_normal (h : tokens.map (·.kind.normal) = [.quote] ++ kinds ++ [.quote]) :
    ∃ line inner last, tokens = ⟨.quote, line⟩ :: (inner ++ [⟨.quote, last⟩]) ∧
      inner.map (·.kind.normal) = kinds := by
  rw [List.append_assoc, List.singleton_append] at h
  obtain ⟨line, rest, rfl, hrest⟩ := exists_cons_of_map_normal h rfl
  obtain ⟨inner, after, rfl, hinner, hafter⟩ := List.map_eq_append_iff.1 hrest
  obtain ⟨last, after, rfl, hnil⟩ := exists_cons_of_map_normal hafter rfl
  obtain rfl := List.map_eq_nil_iff.1 hnil
  exact ⟨line, inner, last, rfl, hinner⟩

theorem exists_cons_of_map_normal_color
    (h : tokens.map (·.kind.normal) = .colorLiteral text :: kinds) :
    ∃ written line rest, tokens = ⟨.colorLiteral written, line⟩ :: rest ∧
      Color.ofText written = ⟨text⟩ ∧ rest.map (·.kind.normal) = kinds := by
  obtain ⟨⟨first, line⟩, rest, rfl, hfirst, hrest⟩ := List.map_eq_cons_iff.1 h
  cases first with
  | colorLiteral written =>
    have hcolor : (Color.ofText written).text = text := Kind.colorLiteral.inj hfirst
    exact ⟨written, line, rest, rfl, by rw [← hcolor], hrest⟩
  | _ => cases hfirst

end Token

namespace Parse.State

variable {state : State} {token : Token} {tokens : List Token} {tree statement body : Tree}
  {statements : List Tree} {count : UInt32} {instruction : Instruction}

/-- Reading takes the statement in, wherever it fits and whatever lines its tokens stand on. -/
def TakesIn (statement : Tree) : Prop :=
  ∀ scope tokens, scope.depth + statement.nesting ≤ nestingLimit →
    tokens.map (·.kind.normal) = statement.spelling →
    run? ⟨.statement, scope⟩ tokens = some ⟨.statement, scope.add statement⟩

theorem run?_period {scope : Scope} {pen : Option Nat}
    (h : tokens.map (·.kind.normal) = [.period]) :
    run? ⟨.period instruction pen, scope⟩ tokens =
      some ⟨.statement, scope.add (.leaf instruction)⟩ := by
  obtain ⟨_, tokens, rfl, hrest⟩ := Token.exists_cons_of_map_normal h rfl
  obtain rfl := List.map_eq_nil_iff.1 hrest
  rw [run?_cons_of_step .period]
  rfl

theorem run?_leaf {scope : Scope} (h : instruction ≠ .endMarker)
    (hspelling : tokens.map (·.kind.normal) = instruction.spelling) :
    run? ⟨.statement, scope⟩ tokens = some ⟨.statement, scope.add (.leaf instruction)⟩ := by
  cases instruction with
  | move direction amount =>
    obtain ⟨_, tokens, rfl, h₁⟩ := Token.exists_cons_of_map_normal hspelling rfl
    obtain ⟨_, tokens, rfl, h₂⟩ := Token.exists_cons_of_map_normal h₁ rfl
    rw [run?_cons_of_step .move, run?_cons_of_step .amount, run?_period h₂]
  | penUp =>
    obtain ⟨_, tokens, rfl, h₁⟩ := Token.exists_cons_of_map_normal hspelling rfl
    rw [run?_cons_of_step .penUp, run?_period h₁]
  | penDown =>
    obtain ⟨_, tokens, rfl, h₁⟩ := Token.exists_cons_of_map_normal hspelling rfl
    rw [run?_cons_of_step .penDown, run?_period h₁]
  | setColor color =>
    obtain ⟨_, tokens, rfl, h₁⟩ := Token.exists_cons_of_map_normal hspelling rfl
    obtain ⟨_, _, tokens, rfl, hcolor, h₂⟩ := Token.exists_cons_of_map_normal_color h₁
    rw [run?_cons_of_step .color, run?_cons_of_step .literal, hcolor, run?_period h₂]
  | endMarker => exact (h rfl).elim

theorem takesIn_leaf (h : instruction ≠ .endMarker) : TakesIn (.leaf instruction) := by
  intro scope tokens _ hspelling
  exact run?_leaf h hspelling

theorem run?_statements (h : ∀ statement ∈ statements, TakesIn statement) {scope : Scope}
    (hfit : ∀ statement ∈ statements, scope.depth + statement.nesting ≤ nestingLimit)
    (hspelling : tokens.map (·.kind.normal) = statements.flatMap Tree.spelling) :
    run? ⟨.statement, scope⟩ tokens = some ⟨.statement, statements.foldl Scope.add scope⟩ := by
  induction statements generalizing scope tokens with
  | nil =>
    obtain rfl := List.map_eq_nil_iff.1 hspelling
    rfl
  | cons statement statements ih =>
    obtain ⟨hfirst, hrest⟩ := List.forall_mem_cons.1 h
    obtain ⟨hfitFirst, hfitRest⟩ := List.forall_mem_cons.1 hfit
    rw [List.flatMap_cons] at hspelling
    obtain ⟨first, rest, rfl, hs, hr⟩ := List.map_eq_append_iff.1 hspelling
    rw [run?_append, hfirst scope first hfitFirst hs, Option.bind_some]
    refine ih hrest ?_ hr
    intro other hother
    have hdepth := Scope.depth_add_le scope statement
    have hfitOther := hfitRest other hother
    omega

/-- A loop's keyword and count open the loop, before the loop's body. -/
theorem exists_run?_loop {scope : Scope} {kinds : List Token.Kind}
    (hdepth : scope.depth < nestingLimit)
    (h : tokens.map (·.kind.normal) = .loop :: .number count :: kinds) :
    ∃ rest, run? ⟨.statement, scope⟩ tokens = run? ⟨.statement, .bare count scope⟩ rest ∧
      rest.map (·.kind.normal) = kinds := by
  obtain ⟨_, tokens, rfl, h₁⟩ := Token.exists_cons_of_map_normal h rfl
  obtain ⟨_, rest, rfl, h₂⟩ := Token.exists_cons_of_map_normal h₁ rfl
  refine ⟨rest, ?_, h₂⟩
  rw [run?_cons_of_step (.loop hdepth), run?_cons_of_step .count]

theorem takesIn_bare (hbody : body.IsStatement) (h : TakesIn body) :
    TakesIn (.loop count body) := by
  intro scope tokens hfit hspelling
  simp only [Tree.nesting] at hfit
  simp only [Tree.spelling, hbody.isSpine_eq_false, Bool.false_eq_true, if_false,
    List.cons_append, List.nil_append] at hspelling
  have hdepth : scope.depth < nestingLimit := by omega
  obtain ⟨rest, hloop, hrest⟩ := exists_run?_loop hdepth hspelling
  rw [hloop]
  refine h (.bare count scope) rest ?_ hrest
  simp only [Scope.depth]
  omega

theorem foldl_add_quoted (count : UInt32) (done : List Tree) (outer : Scope)
    (statements : List Tree) :
    statements.foldl Scope.add (.quoted count done outer) =
      .quoted count (statements.reverse ++ done) outer := by
  induction statements generalizing done with
  | nil => rfl
  | cons statement statements ih =>
    rw [List.foldl_cons, Scope.add, ih, List.reverse_cons, List.append_assoc]
    rfl

theorem foldl_add_program (done statements : List Tree) :
    statements.foldl Scope.add (.program done) = .program (statements.reverse ++ done) := by
  induction statements generalizing done with
  | nil => rfl
  | cons statement statements ih =>
    rw [List.foldl_cons, Scope.add, ih, List.reverse_cons, List.append_assoc]
    rfl

theorem takesIn_quoted (h : ∀ statement ∈ statements, TakesIn statement)
    (hbody : Tree.body? statements = some body) : TakesIn (.loop count body) := by
  intro scope tokens hfit hspelling
  simp only [Tree.nesting] at hfit
  rw [Tree.spelling, Tree.isSpine_of_body? hbody, if_pos rfl, Tree.spelling_body? hbody]
    at hspelling
  have hdepth : scope.depth < nestingLimit := by omega
  obtain ⟨quotes, hloop, hquotes⟩ := exists_run?_loop hdepth hspelling
  obtain ⟨_, inner, _, rfl, hinner⟩ := Token.exists_quoted_of_map_normal hquotes
  have hread : run? ⟨.statement, .quoted count [] scope⟩ inner =
      some ⟨.statement, .quoted count statements.reverse scope⟩ := by
    rw [run?_statements h ?_ hinner, foldl_add_quoted, List.append_nil]
    intro statement hs
    have := (Tree.nesting_body?_le_iff hbody).1 (Nat.le_refl _) statement hs
    simp only [Scope.depth]
    omega
  -- The scope holds what it has read last statement first.
  have hclose : Tree.body? statements.reverse.reverse = some body := by
    rw [List.reverse_reverse, hbody]
  rw [hloop, run?_cons_of_step .opening, run?_append, hread, Option.bind_some,
    run?_cons_of_step (.closing hclose)]
  rfl

theorem takesIn_of_isStatement (h : statement.IsStatement) : TakesIn statement := by
  induction h with
  | leaf h => exact takesIn_leaf h
  | bare hbody ih => exact takesIn_bare hbody ih
  | quoted _ hbody ih => exact takesIn_quoted ih hbody

theorem finish_eq_ok_iff :
    state.finish token = .ok tree ↔
      ∃ done : List Tree, state = ⟨.statement, .program done⟩ ∧ tree = .program done.reverse := by
  obtain ⟨need, scope⟩ := state
  constructor
  · intro h
    unfold finish at h
    split at h
    · rename_i done hneed hscope
      cases hneed
      cases hscope
      cases h
      exact ⟨done, rfl, rfl⟩
    · cases h
  · rintro ⟨done, hstate, rfl⟩
    cases hstate
    rfl

end Parse.State

namespace Tree

variable {tokens : List Token} {tree : Tree} {statements : List Tree}

theorem exists_statements_of_ofTokens (h : ofTokens tokens = .ok tree) :
    ∃ statements, tree = program statements ∧
      (∀ statement ∈ statements, statement.IsStatement ∧ statement.nesting ≤ nestingLimit) ∧
      (Token.beforeEnd tokens).map (·.kind.normal) = statements.flatMap spelling := by
  rcases Parse.State.parse_cases .initial tokens with
    ⟨last, hrun, hparse⟩ | ⟨_, _, _, _, _, _, _, hparse⟩
  · obtain ⟨done, rfl, rfl⟩ := Parse.State.finish_eq_ok_iff.1 (hparse.symm.trans h)
    obtain ⟨⟨hdone, _⟩, hspelling⟩ :=
      Parse.State.invariant_run? Parse.State.wellFormed_initial hrun
    refine ⟨done.reverse, rfl, ?_, ?_⟩
    · intro statement hs
      obtain ⟨hstatement, hnesting⟩ := hdone statement (List.mem_reverse.1 hs)
      exact ⟨hstatement, by omega⟩
    · exact (hspelling.symm.trans (List.append_nil _))
  · cases hparse.symm.trans h

theorem ofTokens_eq_ok_of_spelling
    (h : ∀ statement ∈ statements, statement.IsStatement ∧ statement.nesting ≤ nestingLimit)
    (hspelling : (Token.beforeEnd tokens).map (·.kind.normal) = statements.flatMap spelling) :
    ofTokens tokens = .ok (program statements) := by
  have htake : ∀ statement ∈ statements, Parse.State.TakesIn statement := by
    intro statement hs
    exact Parse.State.takesIn_of_isStatement (h statement hs).1
  have hfit : ∀ statement ∈ statements,
      (Parse.Scope.program []).depth + statement.nesting ≤ nestingLimit := by
    intro statement hs
    have := (h statement hs).2
    simp only [Parse.Scope.depth]
    omega
  have hrun := Parse.State.run?_statements htake hfit hspelling
  rw [Parse.State.foldl_add_program, List.append_nil] at hrun
  refine (Parse.State.parse_eq_finish hrun).trans (Parse.State.finish_eq_ok_iff.2 ⟨_, rfl, ?_⟩)
  rw [List.reverse_reverse]

/-- Reading accepts the spellings of programs, up to the first end of input, and nothing else; the
tree it gives is the program spelled. -/
theorem ofTokens_eq_ok_iff (tokens : List Token) (tree : Tree) :
    ofTokens tokens = .ok tree ↔
      ∃ statements, tree = program statements ∧
        (∀ statement ∈ statements, statement.IsStatement ∧ statement.nesting ≤ nestingLimit) ∧
        (Token.beforeEnd tokens).map (·.kind.normal) = statements.flatMap spelling := by
  constructor
  · exact exists_statements_of_ofTokens
  · rintro ⟨statements, rfl, h, hspelling⟩
    exact ofTokens_eq_ok_of_spelling h hspelling

end Tree

end TurtleGraphics
