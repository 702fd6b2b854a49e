import TurtleGraphics.Parse
import TurtleGraphics.Proofs.Spelling

/-! How a program is read, one token after another. -/
namespace TurtleGraphics

namespace Token

variable {token : Token} {tokens : List Token}

theorem beforeEnd_cons_of_isEnd (h : token.isEnd = true) : beforeEnd (token :: tokens) = [] := by
  simp [beforeEnd, h]

theorem beforeEnd_cons_of_not_isEnd (h : token.isEnd = false) :
    beforeEnd (token :: tokens) = token :: beforeEnd tokens := by
  simp [beforeEnd, h]

end Token

namespace Parse

/-- What one token does to a state it fits. -/
inductive Step : State → Token → State → Prop
  | move {scope : Scope} {direction : Direction} {line : Nat} :
    Step ⟨.statement, scope⟩ ⟨.move direction, line⟩ ⟨.amount direction, scope⟩
  | penUp {scope : Scope} {line : Nat} :
    Step ⟨.statement, scope⟩ ⟨.penUp, line⟩ ⟨.period .penUp (some line), scope⟩
  | penDown {scope : Scope} {line : Nat} :
    Step ⟨.statement, scope⟩ ⟨.penDown, line⟩ ⟨.period .penDown (some line), scope⟩
  | color {scope : Scope} {line : Nat} :
    Step ⟨.statement, scope⟩ ⟨.color, line⟩ ⟨.color, scope⟩
  | loop {scope : Scope} {line : Nat} : scope.depth < nestingLimit →
    Step ⟨.statement, scope⟩ ⟨.loop, line⟩ ⟨.count, scope⟩
  | opening {count : UInt32} {outer : Scope} {line : Nat} :
    Step ⟨.statement, .bare count outer⟩ ⟨.quote, line⟩ ⟨.statement, .quoted count [] outer⟩
  | closing {count : UInt32} {done : List Tree} {outer : Scope} {body : Tree} {line : Nat} :
    Tree.body? done.reverse = some body →
    Step ⟨.statement, .quoted count done outer⟩ ⟨.quote, line⟩
      ⟨.statement, outer.add (.loop count body)⟩
  | amount {scope : Scope} {direction : Direction} {amount : UInt32} {line : Nat} :
    Step ⟨.amount direction, scope⟩ ⟨.number amount, line⟩
      ⟨.period (.move direction amount) none, scope⟩
  | literal {scope : Scope} {text : String} {line : Nat} :
    Step ⟨.color, scope⟩ ⟨.colorLiteral text, line⟩
      ⟨.period (.setColor (.ofText text)) none, scope⟩
  | count {scope : Scope} {count : UInt32} {line : Nat} :
    Step ⟨.count, scope⟩ ⟨.number count, line⟩ ⟨.statement, .bare count scope⟩
  | period {scope : Scope} {instruction : Instruction} {pen : Option Nat} {line : Nat} :
    Step ⟨.period instruction pen, scope⟩ ⟨.period, line⟩
      ⟨.statement, scope.add (.leaf instruction)⟩

namespace State

variable {state next : State} {token : Token} {tokens rest : List Token}

theorem step_of_next? (h : state.next? token = some next) : Step state token next := by
  obtain ⟨need, scope⟩ := state
  obtain ⟨kind, line⟩ := token
  unfold next? at h
  split at h
  case h_5 =>
    rename_i hneed hkind
    cases hneed
    cases hkind
    split at h
    · rename_i hdepth
      cases h
      exact .loop hdepth
    · cases h
  case h_6 =>
    rename_i hneed hkind
    cases hneed
    cases hkind
    obtain ⟨inner, hquote, rfl⟩ := Option.map_eq_some_iff.1 h
    cases scope with
    | program done => cases hquote
    | quoted count done outer =>
      obtain ⟨body, hbody, rfl⟩ := Option.map_eq_some_iff.1 hquote
      exact .closing hbody
    | bare count outer =>
      cases hquote
      exact .opening
  case h_11 => cases h
  all_goals
    rename_i hneed hkind
    cases hneed
    cases hkind
    cases h
    constructor

theorem next?_eq_some_iff : state.next? token = some next ↔ Step state token next := by
  constructor
  · exact step_of_next?
  · intro h
    cases h <;> simp_all [next?, Scope.quote?]

/-- The state after a token list, unless one of the tokens fits no program. -/
def run? (state : State) : List Token → Option State
  | [] => some state
  | token :: tokens => (state.next? token).bind (run? · tokens)

theorem run?_append :
    state.run? (tokens ++ rest) = (state.run? tokens).bind (run? · rest) := by
  induction tokens generalizing state with
  | nil => rfl
  | cons token tokens ih =>
    simp only [List.cons_append, run?]
    cases state.next? token with
    | none => rfl
    | some next => exact ih

theorem run?_cons_of_step (h : Step state token next) :
    state.run? (token :: tokens) = next.run? tokens := by
  simp only [run?, next?_eq_some_iff.2 h, Option.bind_some]

/-- The end of the input takes no state to another. -/
theorem isEnd_eq_false_of_step (h : Step state token next) : token.isEnd = false := by
  cases h <;> rfl

theorem parse_cons_of_isEnd (h : token.isEnd = true) :
    state.parse (token :: tokens) = state.finish token := by
  simp only [parse, h, if_true]

theorem parse_cons_of_step (h : Step state token next) :
    state.parse (token :: tokens) = next.parse tokens := by
  simp only [parse, isEnd_eq_false_of_step h, next?_eq_some_iff.2 h]
  rfl

theorem parse_cons_of_next?_eq_none (hend : token.isEnd = false) (h : state.next? token = none) :
    state.parse (token :: tokens) = .error (state.refuse token) := by
  simp only [parse, hend, h]
  rfl

theorem parse_append_of_run? (h : state.run? tokens = some next) :
    state.parse (tokens ++ rest) = next.parse rest := by
  induction tokens generalizing state with
  | nil =>
    cases h
    rfl
  | cons token tokens ih =>
    obtain ⟨middle, hstep, hrun⟩ := Option.bind_eq_some_iff.1 h
    rw [List.cons_append, parse_cons_of_step (next?_eq_some_iff.1 hstep), ih hrun]

/-- Reading ends where the input does, or at a token that does not fit the state before it. -/
theorem parse_cases (state : State) (tokens : List Token) :
    (∃ next, state.run? (Token.beforeEnd tokens) = some next ∧
      state.parse tokens =
        next.finish (tokens.getD (Token.beforeEnd tokens).length Token.pastEnd)) ∨
    ∃ read token rest next, Token.beforeEnd tokens = read ++ token :: rest ∧
      state.run? read = some next ∧ next.next? token = none ∧
      state.parse tokens = .error (next.refuse token) := by
  induction tokens generalizing state with
  | nil => exact Or.inl ⟨state, rfl, rfl⟩
  | cons token tokens ih =>
    cases hend : token.isEnd with
    | true =>
      left
      refine ⟨state, ?_, ?_⟩
      · rw [Token.beforeEnd_cons_of_isEnd hend]
        rfl
      · rw [Token.beforeEnd_cons_of_isEnd hend, parse_cons_of_isEnd hend]
        rfl
    | false =>
      rw [Token.beforeEnd_cons_of_not_isEnd hend]
      cases hnext : state.next? token with
      | none =>
        right
        exact ⟨[], token, Token.beforeEnd tokens, state, rfl, rfl, hnext,
          parse_cons_of_next?_eq_none hend hnext⟩
      | some next =>
        have hstep := next?_eq_some_iff.1 hnext
        rw [parse_cons_of_step hstep]
        rcases ih next with ⟨last, hrun, hparse⟩ | ⟨read, bad, rest, last, heq, hrun, hbad, hparse⟩
        · left
          exact ⟨last, (run?_cons_of_step hstep).trans hrun, hparse⟩
        · right
          exact ⟨token :: read, bad, rest, last, congrArg (token :: ·) heq,
            (run?_cons_of_step hstep).trans hrun, hbad, hparse⟩

/-- A list all of whose tokens fit is read to its end. -/
theorem parse_eq_finish (h : state.run? (Token.beforeEnd tokens) = some next) :
    state.parse tokens =
      next.finish (tokens.getD (Token.beforeEnd tokens).length Token.pastEnd) := by
  rcases parse_cases state tokens with
    ⟨last, hrun, hparse⟩ | ⟨read, bad, rest, last, heq, hrun, hbad, _⟩
  · rw [h] at hrun
    cases hrun
    exact hparse
  · rw [heq, run?_append, hrun, Option.bind_some, run?, hbad] at h
    cases h

end State

end Parse

end TurtleGraphics
