import TurtleGraphics.Proofs.ViablePrefix

/-! The cause of a syntax error, told by the token it is about and the tokens before that one. -/
namespace TurtleGraphics

namespace Token

/-- The body of a loop, from the loop's keyword on. -/
inductive Body
  | bare
  | quoted
deriving DecidableEq, Repr

/-- The bodies that are open after a token, innermost first. A statement is the end of all bare
bodies that it stands in. A quote where a bare body starts makes it a quoted one. -/
def Kind.bodies (outer : List Body) : Kind → List Body
  | loop => .bare :: outer
  | period => outer.dropWhile (· = .bare)
  | quote =>
    match outer with
    | [] => []
    | .bare :: outer => .quoted :: outer
    | .quoted :: outer => outer.dropWhile (· = .bare)
  | _ => outer

/-- The bodies that are open after tokens of some kinds. -/
def openBodies (kinds : List Kind) : List Body :=
  kinds.foldl Kind.bodies []

/-- Whether the kinds, last first, end with a quote that opens a body. -/
def endsWithOpening : List Kind → Bool
  | .quote :: .number _ :: .loop :: _ => true
  | _ => false

/-- Whether the kinds, last first, end with a statement. -/
def endsWithStatement : List Kind → Bool
  | .period :: _ => true
  | .quote :: before => !endsWithOpening (.quote :: before)
  | _ => false

/-- The token at `index`, or the end of the input, is the first that no program goes on with. -/
structure BreaksOff (tokens : List Token) (index : Nat) : Prop where
  index_le : index ≤ (beforeEnd tokens).length
  viable : ∃ rest tree, Tree.ofTokens (tokens.take index ++ rest) = .ok tree
  misfit : index < (beforeEnd tokens).length →
    ∀ rest tree, Tree.ofTokens (tokens.take (index + 1) ++ rest) ≠ .ok tree
  unfinished : index = (beforeEnd tokens).length →
    ∀ tree, Tree.ofTokens (tokens.take index) ≠ .ok tree

variable {tokens : List Token} {i j : Nat}

theorem BreaksOff.le (hi : BreaksOff tokens i) (hj : BreaksOff tokens j) : j ≤ i := by
  -- Otherwise a program goes on from before `j`, and so with the token at `i`.
  refine Nat.le_of_not_lt fun hlt => ?_
  obtain ⟨rest, tree, hok⟩ := hj.viable
  have hle := hj.index_le
  have hsplit := List.take_append_drop (i + 1) (tokens.take j)
  rw [List.take_take, Nat.min_eq_left (by omega)] at hsplit
  rw [← hsplit, List.append_assoc] at hok
  exact hi.misfit (by omega) _ tree hok

theorem isEnd_getD_beforeEnd (tokens : List Token) :
    (tokens.getD (beforeEnd tokens).length pastEnd).isEnd = true := by
  induction tokens with
  | nil => rfl
  | cons token tokens ih =>
    cases hend : token.isEnd with
    | true => rwa [beforeEnd_cons_of_isEnd hend]
    | false => rwa [beforeEnd_cons_of_not_isEnd hend]

theorem BreaksOff.index_eq (hi : BreaksOff tokens i) (hj : BreaksOff tokens j) : j = i :=
  Nat.le_antisymm (hi.le hj) (hj.le hi)

end Token

namespace SyntaxError

/-- What the kinds before a token, last first, lack. -/
def Cause.lacking? : List Token.Kind → Option Cause
  | .penUp :: _ | .penDown :: _ | .colorLiteral _ :: _ | .number _ :: .move _ :: _ =>
    some missingPeriod
  | .move _ :: _ | .loop :: _ => some missingNumber
  | .color :: _ => some missingColor
  | _ => none

/-- Why a token is none that a statement begins or ends with. -/
def Cause.betweenStatements (before : List Token.Kind) : Token.Kind → Cause
  | .loop => nestedTooDeep
  | .endOfInput =>
    if Token.endsWithOpening before.reverse ∨
        Token.endsWithStatement before.reverse ∧ .quoted ∈ Token.openBodies before then openLoop
    else missingStatement
  | .quote =>
    if Token.endsWithStatement before.reverse ∧ .quoted ∉ Token.openBodies before then surplus
    else missingStatement
  | _ => missingStatement

/-- The cause of the error that a token of kind `found` makes after tokens of the kinds `before`. -/
def Cause.ofPosition (before : List Token.Kind) (found : Token.Kind) : Cause :=
  if found = .unrecognized then unrecognized
  else (lacking? before.reverse).getD (betweenStatements before found)

theorem Blames.breaksOff {error : SyntaxError} {tokens : List Token} {index : Nat}
    (h : error.Blames tokens index) : Token.BreaksOff tokens index := by
  refine ⟨h.index_le, h.viable, ?_, h.unfinished⟩
  intro hlt rest tree hok
  cases (h.stable hlt _ (List.prefix_append _ rest)).symm.trans hok

end SyntaxError

namespace Parse

namespace Scope

/-- The loops around a statement, by the bodies they have. -/
def bodies : Scope → List Token.Body
  | program _ => []
  | quoted _ _ outer => .quoted :: outer.bodies
  | bare _ outer => .bare :: outer.bodies

/-- Whether a body in quotes holds no statement yet. -/
def isFresh : Scope → Bool
  | quoted _ [] _ => true
  | _ => false

/-- Whether a statement of the program, or of a body in quotes, is read. -/
def isUnderway : Scope → Bool
  | program (_ :: _) | quoted _ (_ :: _) _ => true
  | _ => false

theorem length_bodies (scope : Scope) : scope.bodies.length = scope.depth := by
  induction scope with
  | program done => rfl
  | quoted count done outer ih | bare count outer ih => exact congrArg (· + 1) ih

theorem bodies_add (scope : Scope) (statement : Tree) :
    (scope.add statement).bodies = scope.bodies.dropWhile (· = .bare) := by
  induction scope generalizing statement with
  | program done => rfl
  | quoted count done outer _ => rfl
  | bare count outer ih => exact ih (.loop count statement)

end Scope

namespace State

variable {state next : State} {token : Token} {tokens : List Token} {before : List Token.Kind}
  {scope : Scope} {statement : Tree} {found : Token.Kind}

/-- The kinds read, last first, end as the state tells. -/
def Ends (state : State) (kinds : List Token.Kind) : Prop :=
  match state.need, state.scope with
  | .period _ _, _ => SyntaxError.Cause.lacking? kinds = some .missingPeriod
  | .amount direction, _ => ∃ earlier, kinds = .move direction :: earlier
  | .count, _ => ∃ earlier, kinds = .loop :: earlier
  | .color, _ => ∃ earlier, kinds = .color :: earlier
  | .statement, .program [] => kinds = []
  | .statement, .bare count _ => ∃ earlier, kinds = .number count :: .loop :: earlier
  | .statement, .quoted count [] _ =>
    ∃ earlier, kinds = .quote :: .number count :: .loop :: earlier
  | .statement, .program (_ :: _) | .statement, .quoted _ (_ :: _) _ =>
    Token.endsWithStatement kinds = true

/-- The bodies around what comes next. A loop's body is open before the loop's count is read. -/
def bodies (state : State) : List Token.Body :=
  match state.need with
  | .count => .bare :: state.scope.bodies
  | _ => state.scope.bodies

/-- The state is the one after the kinds `before`, as far as their order tells. -/
structure Follows (state : State) (before : List Token.Kind) : Prop where
  openBodies_eq : Token.openBodies before = state.bodies
  ends : state.Ends before.reverse

theorem ends_add {kinds : List Token.Kind} (h : Token.endsWithStatement kinds = true)
    (scope : Scope) (statement : Tree) : Ends ⟨.statement, scope.add statement⟩ kinds := by
  induction scope generalizing statement with
  | program done => exact h
  | quoted count done outer _ => exact h
  | bare count outer ih => exact ih (.loop count statement)

theorem endsWithStatement_quote {kinds : List Token.Kind}
    (h : Token.endsWithStatement kinds = true) :
    Token.endsWithStatement (.quote :: kinds) = true := by
  cases kinds with
  | nil => cases h
  | cons kind kinds =>
    cases kind with
    | number value => cases h
    | _ => rfl

theorem ends_step {kinds : List Token.Kind} (hs : state.Ends kinds) (h : Step state token next) :
    next.Ends (token.kind :: kinds) := by
  cases h with
  | move | loop | color => exact ⟨_, rfl⟩
  | penUp | penDown | literal => rfl
  | amount =>
    obtain ⟨earlier, rfl⟩ := hs
    rfl
  | count | opening =>
    obtain ⟨earlier, rfl⟩ := hs
    exact ⟨_, rfl⟩
  | @closing count done outer body line hbody =>
    apply ends_add
    cases done with
    | nil => cases hbody
    | cons statement done => exact endsWithStatement_quote hs
  | period => exact ends_add rfl _ _

theorem bodies_step (h : Step state token next) :
    next.bodies = token.kind.bodies state.bodies := by
  cases h with
  | closing | period => exact Scope.bodies_add _ _
  | _ => rfl

theorem follows_initial : initial.Follows [] :=
  ⟨rfl, rfl⟩

theorem follows_step (hs : state.Follows before) (h : Step state token next) :
    next.Follows (before ++ [token.kind]) := by
  refine ⟨?_, ?_⟩
  · rw [bodies_step h, ← hs.openBodies_eq, Token.openBodies, List.foldl_append]
    rfl
  · rw [List.reverse_concat]
    exact ends_step hs.ends h

theorem follows_run? (hs : state.Follows before) (h : state.run? tokens = some next) :
    next.Follows (before ++ tokens.map Token.kind) := by
  induction tokens generalizing state before with
  | nil =>
    cases h
    rwa [List.map_nil, List.append_nil]
  | cons token tokens ih =>
    obtain ⟨middle, hnext, hrun⟩ := Option.bind_eq_some_iff.1 h
    have hfollows := ih (follows_step hs (next?_eq_some_iff.1 hnext)) hrun
    rwa [List.append_assoc] at hfollows

theorem lacking?_eq_none {kinds : List Token.Kind} (h : Token.endsWithStatement kinds = true) :
    SyntaxError.Cause.lacking? kinds = none := by
  unfold Token.endsWithStatement at h
  split at h
  · rfl
  · rfl
  · cases h

theorem endsWithOpening_eq_false {kinds : List Token.Kind}
    (h : Token.endsWithStatement kinds = true) : Token.endsWithOpening kinds = false := by
  unfold Token.endsWithStatement at h
  split at h
  · rfl
  · simpa using h
  · cases h

/-- How the kinds before a statement end tells how far its scope is read. -/
theorem ends_statement {kinds : List Token.Kind} (h : Ends ⟨.statement, scope⟩ kinds) :
    SyntaxError.Cause.lacking? kinds = none ∧ Token.endsWithOpening kinds = scope.isFresh ∧
      Token.endsWithStatement kinds = scope.isUnderway := by
  rcases scope with (_ | ⟨statement, done⟩) | ⟨count, _ | ⟨statement, done⟩, outer⟩ | ⟨count, outer⟩
  · obtain rfl : kinds = [] := h
    exact ⟨rfl, rfl, rfl⟩
  · exact ⟨lacking?_eq_none h, endsWithOpening_eq_false h, h⟩
  · obtain ⟨earlier, rfl⟩ := h
    exact ⟨rfl, rfl, rfl⟩
  · exact ⟨lacking?_eq_none h, endsWithOpening_eq_false h, h⟩
  · obtain ⟨earlier, rfl⟩ := h
    exact ⟨rfl, rfl, rfl⟩

/-- Between statements only the scope matters, and the kinds before tell as much of it. -/
theorem cause_statement (hs : Follows ⟨.statement, scope⟩ before) :
    cause ⟨.statement, scope⟩ found = .betweenStatements before found := by
  obtain ⟨_, hopening, hended⟩ := ends_statement hs.ends
  have hbodies : Token.openBodies before = scope.bodies := hs.openBodies_eq
  rcases scope with (_ | ⟨statement, done⟩) | ⟨count, _ | ⟨statement, done⟩, outer⟩ | ⟨count, outer⟩ <;>
    cases found <;>
      simp [cause, SyntaxError.Cause.betweenStatements, hopening, hended, hbodies, Scope.isFresh,
        Scope.isUnderway, Scope.bodies]

/-- The state gives the cause that the kinds before the token tell. -/
theorem cause_eq_ofPosition (hs : state.Follows before) (hfound : found ≠ .unrecognized) :
    state.cause found = .ofPosition before found := by
  rw [SyntaxError.Cause.ofPosition, if_neg hfound]
  obtain ⟨need, scope⟩ := state
  cases need with
  | statement =>
    rw [(ends_statement hs.ends).1, cause_statement hs]
    rfl
  | period instruction line =>
    have hlacking : SyntaxError.Cause.lacking? before.reverse = some .missingPeriod := hs.ends
    rw [hlacking]
    rfl
  | amount direction | count | color =>
    obtain ⟨earlier, hkinds⟩ := hs.ends
    rw [hkinds]
    rfl

theorem next?_eq_none_of_isEnd (h : token.isEnd = true) : state.next? token = none := by
  cases hnext : state.next? token with
  | none => rfl
  | some next => cases h.symm.trans (isEnd_eq_false_of_step (next?_eq_some_iff.1 hnext))

/-- An error is the refusal of a token, or of the end of the input, in the state before it. -/
theorem exists_refuse_of_ofTokens {error : SyntaxError} (h : Tree.ofTokens tokens = .error error) :
    ∃ index state, error.Blames tokens index ∧ initial.run? (tokens.take index) = some state ∧
      state.next? (tokens.getD index Token.pastEnd) = none ∧
      error = state.refuse (tokens.getD index Token.pastEnd) := by
  rcases parse_cases .initial tokens with
    ⟨state, hrun, hparse⟩ | ⟨read, token, rest, state, heq, hrun, hnext, hparse⟩
  · have hfinish := hparse.symm.trans h
    have htake := Token.take_of_beforeEnd (List.append_nil (Token.beforeEnd tokens)).symm
    exact ⟨_, state, blames_of_finish hrun hfinish, by rwa [htake],
      next?_eq_none_of_isEnd (Token.isEnd_getD_beforeEnd tokens), finish_eq_error hfinish⟩
  · cases hparse.symm.trans h
    refine ⟨_, state, blames_of_misfit heq hrun hnext, ?_, ?_, ?_⟩
    · rwa [Token.take_of_beforeEnd heq]
    · rwa [Token.getD_of_beforeEnd heq]
    · rw [Token.getD_of_beforeEnd heq]

theorem cause_refuse (hs : state.Follows before) (token : Token) :
    (state.refuse token).cause = .ofPosition before token.kind := by
  by_cases hkind : token.kind = .unrecognized
  · simp [refuse, SyntaxError.ofToken, SyntaxError.Cause.ofPosition, hkind]
  · rw [← cause_eq_ofPosition hs hkind]
    simp [refuse, SyntaxError.ofToken, hkind]

theorem eq_loop_of_nestedTooDeep (h : (state.refuse token).cause = .nestedTooDeep) :
    state.need = .statement ∧ token.kind = .loop := by
  simp only [refuse, SyntaxError.ofToken] at h
  split at h
  · cases h
  · unfold cause at h
    split at h <;> cases h
    exact ⟨‹_›, ‹_›⟩

/-- A loop is refused where as many loops are open as may be. -/
theorem length_bodies_of_nestedTooDeep (hs : state.WellFormed) (hnext : state.next? token = none)
    (hcause : (state.refuse token).cause = .nestedTooDeep) :
    state.bodies.length = nestingLimit := by
  obtain ⟨hneed, hkind⟩ := eq_loop_of_nestedTooDeep hcause
  have hbodies : state.bodies.length = state.scope.depth := by
    rw [bodies, hneed]
    exact state.scope.length_bodies
  have hdeep : ¬ state.scope.depth < nestingLimit := by
    intro hlt
    simp [next?, hneed, hkind, hlt] at hnext
  rw [hbodies]
  exact Nat.le_antisymm (Scope.depth_le_of_wellFormed hs.1) (Nat.le_of_not_lt hdeep)

end State

end Parse

namespace SyntaxError.Cause

variable {before kinds : List Token.Kind} {found : Token.Kind} {cause : Cause}

/-- The tokens that make an error of a cause. -/
def Admits (cause : Cause) (found : Token.Kind) : Prop :=
  match cause with
  | unrecognized => found = .unrecognized
  | nestedTooDeep => found = .loop
  | openLoop => found = .endOfInput
  | surplus => found = .quote
  | missingPeriod | missingNumber | missingColor | missingStatement => found ≠ .unrecognized

theorem admits_of_lacking? (h : lacking? kinds = some cause) (hfound : found ≠ .unrecognized) :
    cause.Admits found := by
  unfold lacking? at h
  split at h <;> cases h <;> exact hfound

theorem admits_betweenStatements (before : List Token.Kind) (hfound : found ≠ .unrecognized) :
    (betweenStatements before found).Admits found := by
  unfold betweenStatements
  split
  · rfl
  · split <;> trivial
  · split <;> trivial
  · exact hfound

theorem admits_ofPosition (before : List Token.Kind) (found : Token.Kind) :
    (ofPosition before found).Admits found := by
  unfold ofPosition
  split
  · assumption
  · rename_i hfound
    cases hlacking : lacking? before.reverse with
    | some cause => exact admits_of_lacking? hlacking hfound
    | none => exact admits_betweenStatements before hfound

theorem Admits.eq_unrecognized_iff (h : cause.Admits found) :
    cause = .unrecognized ↔ found = .unrecognized := by
  cases cause <;> simp_all [Admits]

end SyntaxError.Cause

namespace Tree

/-- The cause of an error is told by the first token that no program goes on with and by the kinds
of the tokens before it. -/
theorem cause_of_ofTokens (tokens : List Token) (error : SyntaxError)
    (h : ofTokens tokens = .error error) :
    ∃ index, Token.BreaksOff tokens index ∧
      (∀ other, Token.BreaksOff tokens other → other = index) ∧
      error.found = (tokens.getD index Token.pastEnd).kind ∧
      error.cause = .ofPosition ((tokens.take index).map Token.kind) error.found ∧
      (error.cause = .unrecognized ↔ error.found = .unrecognized) ∧
      (error.cause = .nestedTooDeep → error.found = .loop ∧
        (Token.openBodies ((tokens.take index).map Token.kind)).length = 256) ∧
      (error.cause = .openLoop → error.found = .endOfInput) ∧
      (error.cause = .surplus → error.found = .quote) := by
  obtain ⟨index, state, hblames, hrun, hnext, rfl⟩ := Parse.State.exists_refuse_of_ofTokens h
  have hfollows := Parse.State.follows_run? Parse.State.follows_initial hrun
  have hwell := (Parse.State.invariant_run? Parse.State.wellFormed_initial hrun).1
  have hcause := Parse.State.cause_refuse hfollows (tokens.getD index Token.pastEnd)
  refine ⟨index, hblames.breaksOff, fun other hother => hblames.breaksOff.index_eq hother, rfl,
    hcause, ?_⟩
  have hadmits := SyntaxError.Cause.admits_ofPosition
    ([] ++ (tokens.take index).map Token.kind) (tokens.getD index Token.pastEnd).kind
  rw [← hcause] at hadmits
  refine ⟨hadmits.eq_unrecognized_iff, ?_, ?_, ?_⟩
  · intro hdeep
    refine ⟨?_, ?_⟩
    · rwa [hdeep] at hadmits
    · have hlength := Parse.State.length_bodies_of_nestedTooDeep hwell hnext hdeep
      rwa [← hfollows.openBodies_eq] at hlength
  · intro hopen
    rwa [hopen] at hadmits
  · intro hsurplus
    rwa [hsurplus] at hadmits

/-- A loop's body that lacks its closing quote. -/
theorem cause_of_missing_quote :
    ofTokens [⟨.loop, 1⟩, ⟨.number 2, 1⟩, ⟨.quote, 1⟩, ⟨.penUp, 1⟩, ⟨.period, 1⟩,
        ⟨.endOfInput, 3⟩] = .error ⟨.openLoop, 3, .endOfInput⟩ ∧
      ∃ index, Token.BreaksOff [⟨.loop, 1⟩, ⟨.number 2, 1⟩, ⟨.quote, 1⟩, ⟨.penUp, 1⟩,
          ⟨.period, 1⟩, ⟨.endOfInput, 3⟩] index ∧
        .openLoop = SyntaxError.Cause.ofPosition ((List.take index [⟨.loop, 1⟩, ⟨.number 2, 1⟩,
          ⟨.quote, 1⟩, ⟨.penUp, 1⟩, ⟨.period, 1⟩, ⟨.endOfInput, 3⟩]).map Token.kind)
          .endOfInput :=
  ⟨rfl, (cause_of_ofTokens _ _ rfl).imp fun _ h => ⟨h.1, h.2.2.2.1⟩⟩

end Tree

end TurtleGraphics
