import TurtleGraphics.Proofs.Grammar

/-! Where a token list is no program, the error is about the first token that no program has there.
What stands before that token can always be completed. -/
namespace TurtleGraphics

/-- The line of a pen command. -/
def Token.penLine? (token : Token) : Option Nat :=
  match token.kind with
  | .penUp | .penDown => some token.line
  | _ => none

namespace Parse.State

variable {state next : State} {token : Token} {tokens : List Token} {tree : Tree}
  {error : SyntaxError}

/-- Any state can still end in a program, however many loops are open. -/
theorem exists_parse_statement (n : Nat) (scope : Scope) (h : scope.depth ≤ n) :
    ∃ tokens tree, parse ⟨.statement, scope⟩ tokens = .ok tree := by
  induction n generalizing scope with
  | zero =>
    cases scope with
    | program done => exact ⟨[], _, rfl⟩
    | quoted count done outer => cases h
    | bare count outer => cases h
  | succ n ih =>
    cases scope with
    | program done => exact ⟨[], _, rfl⟩
    | quoted count done outer =>
      -- One more statement, so that the closing quote fits also where the quotes are still empty.
      obtain ⟨body, hbody⟩ : ∃ body, Tree.body? (.leaf .penUp :: done).reverse = some body := by
        apply Option.ne_none_iff_exists'.1
        intro hnone
        exact absurd (List.reverse_eq_nil_iff.1 (Tree.body?_eq_none_iff.1 hnone))
          (List.cons_ne_nil _ _)
      have hdepth := Scope.depth_add_le outer (.loop count body)
      obtain ⟨tokens, tree, hparse⟩ := ih (outer.add (.loop count body))
        (Nat.le_trans hdepth (Nat.le_of_succ_le_succ h))
      refine ⟨⟨.penUp, 0⟩ :: ⟨.period, 0⟩ :: ⟨.quote, 0⟩ :: tokens, tree, ?_⟩
      rw [parse_cons_of_step .penUp, parse_cons_of_step .period, Scope.add,
        parse_cons_of_step (.closing hbody), hparse]
    | bare count outer =>
      have hdepth := Scope.depth_add_le outer (.loop count (.leaf .penUp))
      obtain ⟨tokens, tree, hparse⟩ := ih (outer.add (.loop count (.leaf .penUp)))
        (Nat.le_trans hdepth (Nat.le_of_succ_le_succ h))
      refine ⟨⟨.penUp, 0⟩ :: ⟨.period, 0⟩ :: tokens, tree, ?_⟩
      rw [parse_cons_of_step .penUp, parse_cons_of_step .period, Scope.add, hparse]

theorem exists_parse_eq_ok (state : State) : ∃ tokens tree, state.parse tokens = .ok tree := by
  obtain ⟨need, scope⟩ := state
  have period : ∀ instruction pen, ∃ tokens tree,
      parse ⟨.period instruction pen, scope⟩ tokens = .ok tree := by
    intro instruction pen
    obtain ⟨tokens, tree, h⟩ :=
      exists_parse_statement _ (scope.add (.leaf instruction)) (Nat.le_refl _)
    exact ⟨⟨.period, 0⟩ :: tokens, tree, by rw [parse_cons_of_step .period, h]⟩
  cases need with
  | statement => exact exists_parse_statement _ scope (Nat.le_refl _)
  | amount direction =>
    obtain ⟨tokens, tree, h⟩ := period (.move direction 0) none
    exact ⟨⟨.number 0, 0⟩ :: tokens, tree, by rw [parse_cons_of_step .amount, h]⟩
  | color =>
    obtain ⟨tokens, tree, h⟩ := period (.setColor (.ofText "")) none
    exact ⟨⟨.colorLiteral "", 0⟩ :: tokens, tree, by rw [parse_cons_of_step .literal, h]⟩
  | count =>
    obtain ⟨tokens, tree, h⟩ := exists_parse_statement _ (.bare 0 scope) (Nat.le_refl _)
    exact ⟨⟨.number 0, 0⟩ :: tokens, tree, by rw [parse_cons_of_step .count, h]⟩
  | period instruction pen => exact period instruction pen

/-- The line of the pen command whose period is missing. -/
def penLine? (state : State) : Option Nat :=
  match state.need with
  | .period _ line => line
  | _ => none

theorem penLine?_of_step (h : Step state token next) : next.penLine? = token.penLine? := by
  cases h <;> rfl

theorem penLine?_of_run? (h : state.run? tokens = some next) :
    next.penLine? = (tokens.getLast?.map Token.penLine?).getD state.penLine? := by
  induction tokens generalizing state with
  | nil =>
    cases h
    rfl
  | cons token tokens ih =>
    obtain ⟨middle, hnext, hrun⟩ := Option.bind_eq_some_iff.1 h
    rw [ih hrun, penLine?_of_step (next?_eq_some_iff.1 hnext), List.getLast?_cons]
    cases tokens.getLast? <;> rfl

theorem refuse_line (state : State) (token : Token) :
    (state.refuse token).line = state.penLine?.getD token.line := by
  obtain ⟨need, scope⟩ := state
  cases need with
  | period instruction line => cases line <;> rfl
  | _ => rfl

theorem finish_eq_error (h : state.finish token = .error error) : error = state.refuse token := by
  unfold finish at h
  split at h
  · cases h
  · cases h
    rfl

end Parse.State

namespace Token

variable {tokens read rest : List Token}

theorem map_kind_beforeEnd (tokens : List Token) :
    (beforeEnd tokens).map kind = (tokens.map kind).takeWhile (· ≠ .endOfInput) := by
  rw [List.takeWhile_map, beforeEnd]
  congr 2
  funext token
  simp [isEnd]

theorem take_of_beforeEnd (h : beforeEnd tokens = read ++ rest) :
    tokens.take read.length = read := by
  have hprefix : read <+: tokens :=
    (List.prefix_append read rest).trans (h ▸ List.takeWhile_prefix _)
  exact (List.prefix_iff_eq_take.1 hprefix).symm

theorem getD_of_beforeEnd {token : Token} (h : beforeEnd tokens = read ++ token :: rest) :
    tokens.getD read.length pastEnd = token := by
  have htake := take_of_beforeEnd (h.trans (List.append_cons read token rest))
  have hget := congrArg (·.getD read.length pastEnd) htake
  simpa [List.getElem?_take] using hget

end Token

namespace Tree

variable {tokens others : List Token} {tree : Tree}

/-- What a token list spells does not depend on the lines of its tokens. -/
theorem ofTokens_eq_ok_of_kinds (hkinds : tokens.map Token.kind = others.map Token.kind)
    (h : ofTokens tokens = .ok tree) : ofTokens others = .ok tree := by
  obtain ⟨statements, rfl, hstatements, hspelling⟩ := exists_statements_of_ofTokens h
  refine ofTokens_eq_ok_of_spelling hstatements ?_
  have hbefore : (Token.beforeEnd tokens).map Token.kind =
      (Token.beforeEnd others).map Token.kind := by
    rw [Token.map_kind_beforeEnd, Token.map_kind_beforeEnd, hkinds]
  have hnormal := congrArg (List.map Token.Kind.normal) hbefore
  rw [List.map_map, List.map_map] at hnormal
  exact hnormal.symm.trans hspelling

end Tree

/-- The token at `index`, or the end of the input, is the first that no program has there, and the
error is about that token alone. -/
structure SyntaxError.Blames (error : SyntaxError) (tokens : List Token) (index : Nat) : Prop where
  index_le : index ≤ (Token.beforeEnd tokens).length
  viable : ∃ rest tree, Tree.ofTokens (tokens.take index ++ rest) = .ok tree
  misfit : index < (Token.beforeEnd tokens).length → ∀ others tree,
    Tree.ofTokens others = .ok tree →
    ¬ (tokens.take (index + 1)).map Token.kind <+: others.map Token.kind
  unfinished : index = (Token.beforeEnd tokens).length → ∀ tree,
    Tree.ofTokens (tokens.take index) ≠ .ok tree
  found_eq : error.found = (tokens.getD index Token.pastEnd).kind
  line_eq : error.line = ((tokens.take index).getLast?.bind Token.penLine?).getD
    (tokens.getD index Token.pastEnd).line
  stable : index < (Token.beforeEnd tokens).length → ∀ others,
    tokens.take (index + 1) <+: others → Tree.ofTokens others = .error error

namespace Parse.State

variable {next : State} {token : Token} {tokens others read rest : List Token} {tree : Tree}
  {error : SyntaxError}

theorem exists_ofTokens_append (h : initial.run? read = some next) :
    ∃ rest tree, Tree.ofTokens (read ++ rest) = .ok tree := by
  obtain ⟨rest, tree, hparse⟩ := exists_parse_eq_ok next
  exact ⟨rest, tree, (parse_append_of_run? h).trans hparse⟩

/-- A pen command is the last token read exactly when its period is missing. -/
theorem refuse_line_of_run? (h : initial.run? read = some next) (token : Token) :
    (next.refuse token).line = (read.getLast?.bind Token.penLine?).getD token.line := by
  rw [refuse_line, penLine?_of_run? h]
  cases read.getLast? <;> rfl

theorem blames_of_finish (hrun : initial.run? (Token.beforeEnd tokens) = some next)
    (h : next.finish (tokens.getD (Token.beforeEnd tokens).length Token.pastEnd) = .error error) :
    error.Blames tokens (Token.beforeEnd tokens).length := by
  have htake := Token.take_of_beforeEnd (List.append_nil (Token.beforeEnd tokens)).symm
  obtain rfl := finish_eq_error h
  refine ⟨Nat.le_refl _, ?_, ?_, ?_, rfl, ?_, ?_⟩
  · rw [htake]
    exact exists_ofTokens_append hrun
  · intro hlt
    exact (Nat.lt_irrefl _ hlt).elim
  · intro _ tree hok
    rw [htake, ← List.append_nil (Token.beforeEnd tokens)] at hok
    have hfinish : next.finish Token.pastEnd = .ok tree :=
      (parse_append_of_run? hrun).symm.trans hok
    obtain ⟨done, hnext, hprogram⟩ := finish_eq_ok_iff.1 hfinish
    have hok' := h.symm.trans (finish_eq_ok_iff.2 ⟨done, hnext, hprogram⟩)
    cases hok'
  · rw [htake]
    exact refuse_line_of_run? hrun _
  · intro hlt
    exact (Nat.lt_irrefl _ hlt).elim

/-- Whatever follows, a token that does not fit ends the reading. -/
theorem ofTokens_eq_error_of_misfit (hrun : initial.run? read = some next)
    (hend : token.isEnd = false) (hnext : next.next? token = none) (rest : List Token) :
    Tree.ofTokens (read ++ token :: rest) = .error (next.refuse token) :=
  (parse_append_of_run? hrun).trans (parse_cons_of_next?_eq_none hend hnext)

/-- Nor do other lines for the same tokens help. -/
theorem not_prefix_of_misfit (hrun : initial.run? read = some next) (hend : token.isEnd = false)
    (hnext : next.next? token = none) (hok : Tree.ofTokens others = .ok tree) :
    ¬ (read ++ [token]).map Token.kind <+: others.map Token.kind := by
  intro hprefix
  have hread := (List.prefix_iff_eq_take.1 hprefix).symm
  rw [List.length_map, ← List.map_take] at hread
  have hkinds : others.map Token.kind =
      (read ++ token :: others.drop (read ++ [token]).length).map Token.kind := by
    rw [List.append_cons, List.map_append, ← hread, ← List.map_append, List.take_append_drop]
  have hsame := Tree.ofTokens_eq_ok_of_kinds hkinds hok
  rw [ofTokens_eq_error_of_misfit hrun hend hnext] at hsame
  cases hsame

theorem blames_of_misfit (heq : Token.beforeEnd tokens = read ++ token :: rest)
    (hrun : initial.run? read = some next) (hnext : next.next? token = none) :
    (next.refuse token).Blames tokens read.length := by
  have htake := Token.take_of_beforeEnd heq
  have htakeNext : tokens.take (read.length + 1) = read ++ [token] := by
    have h := Token.take_of_beforeEnd (heq.trans (List.append_cons read token rest))
    rwa [List.length_append] at h
  have hget := Token.getD_of_beforeEnd heq
  have hend : token.isEnd = false := by
    have hmem : token ∈ Token.beforeEnd tokens := by
      rw [heq]
      exact List.mem_append_right _ List.mem_cons_self
    exact Token.isEnd_eq_false_of_mem_beforeEnd hmem
  have hlength : read.length < (Token.beforeEnd tokens).length := by
    simp [heq]
  refine ⟨Nat.le_of_lt hlength, ?_, ?_, ?_, ?_, ?_, ?_⟩
  · rw [htake]
    exact exists_ofTokens_append hrun
  · intro _ others tree hok
    rw [htakeNext]
    exact not_prefix_of_misfit hrun hend hnext hok
  · intro hn
    exact (Nat.ne_of_lt hlength hn).elim
  · rw [hget]
    rfl
  · rw [htake, hget]
    exact refuse_line_of_run? hrun token
  · intro _ others ⟨after, hafter⟩
    rw [← hafter, htakeNext, List.append_assoc]
    exact ofTokens_eq_error_of_misfit hrun hend hnext after

end Parse.State

namespace Tree

/-- An error is about the first token that no program has there. -/
theorem exists_blames_of_ofTokens (tokens : List Token) (error : SyntaxError)
    (h : ofTokens tokens = .error error) : ∃ index, error.Blames tokens index := by
  rcases Parse.State.parse_cases .initial tokens with
    ⟨next, hrun, hparse⟩ | ⟨read, token, rest, next, heq, hrun, hnext, hparse⟩
  · exact ⟨_, Parse.State.blames_of_finish hrun (hparse.symm.trans h)⟩
  · cases hparse.symm.trans h
    exact ⟨_, Parse.State.blames_of_misfit heq hrun hnext⟩

/-- A pen command in a loop's quotes, on line 3, without its period. -/
theorem exists_blames_of_missing_period :
    ofTokens [⟨.loop, 1⟩, ⟨.number 2, 2⟩, ⟨.quote, 2⟩, ⟨.penUp, 3⟩, ⟨.quote, 4⟩, ⟨.endOfInput, 4⟩] =
        .error ⟨.missingPeriod, 3, .quote⟩ ∧
      ∃ index, SyntaxError.Blames ⟨.missingPeriod, 3, .quote⟩
        [⟨.loop, 1⟩, ⟨.number 2, 2⟩, ⟨.quote, 2⟩, ⟨.penUp, 3⟩, ⟨.quote, 4⟩, ⟨.endOfInput, 4⟩] index :=
  ⟨rfl, exists_blames_of_ofTokens _ _ rfl⟩

end Tree

end TurtleGraphics
