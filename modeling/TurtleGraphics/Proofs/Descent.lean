import TurtleGraphics.Descent
import TurtleGraphics.Proofs.Step

/-! Reading by phrases finds the same program, or the same error, as reading token by token. -/
namespace TurtleGraphics

namespace Descent

open Parse (State Scope Step)

variable {state next : State} {scope outer : Scope} {cursor : Cursor} {depth : Nat}
  {count : UInt32}

theorem parse_of_next? (h : state.next? cursor.peek = some next) :
    state.parse cursor.remaining = next.parse cursor.advance.2.remaining := by
  obtain ⟨tokens⟩ := cursor
  have hstep := State.step_of_next? h
  cases tokens with
  | nil => cases (State.isEnd_eq_false_of_step hstep).symm.trans rfl
  | cons token tokens => exact State.parse_cons_of_step hstep

theorem parse_of_isEnd (h : cursor.peek.isEnd = true) :
    state.parse cursor.remaining = state.finish cursor.peek := by
  obtain ⟨tokens⟩ := cursor
  cases tokens with
  | nil => rfl
  | cons token tokens => exact State.parse_cons_of_isEnd h

theorem isEnd_iff : cursor.peek.isEnd = true ↔ cursor.peek.kind = .endOfInput :=
  decide_eq_true_iff

theorem isEnd_eq_false (h : cursor.peek.kind ≠ .endOfInput) : cursor.peek.isEnd = false :=
  decide_eq_false h

theorem parse_of_next?_eq_none (hend : cursor.peek.isEnd = false)
    (h : state.next? cursor.peek = none) :
    state.parse cursor.remaining = .error (state.refuse cursor.peek) := by
  obtain ⟨tokens⟩ := cursor
  cases tokens with
  | nil => cases hend
  | cons token tokens => exact State.parse_cons_of_next?_eq_none hend h

theorem next?_eq_none_of_not_step {token : Token}
    (h : ∀ read next, Step state read next → read.kind ≠ token.kind) :
    state.next? token = none := by
  apply Option.eq_none_iff_forall_ne_some.2
  intro next hnext
  exact h token next (State.step_of_next? hnext) rfl

/-- Inside of a statement the end of the input is one more token that does not fit. -/
theorem parse_of_not_step (hneed : state.need ≠ .statement)
    (h : ∀ read next, Step state read next → read.kind ≠ cursor.peek.kind) :
    state.parse cursor.remaining = .error (state.refuse cursor.peek) := by
  cases hend : cursor.peek.isEnd with
  | false => exact parse_of_next?_eq_none hend (next?_eq_none_of_not_step h)
  | true =>
    rw [parse_of_isEnd hend]
    unfold State.finish
    split
    · rename_i hstatement _
      exact (hneed hstatement).elim
    · rfl

/-! ### Phrases without phrases inside -/

theorem parse_amount (direction : Direction) (scope : Scope) (cursor : Cursor) :
    State.parse ⟨.amount direction, scope⟩ cursor.remaining = number cursor >>= fun amount =>
      State.parse ⟨.period (.move direction amount.value) none, scope⟩ amount.next.remaining := by
  unfold number
  split
  · rename_i value h
    exact parse_of_next? (by simp [State.next?, h])
  · rename_i h
    refine parse_of_not_step (by simp) ?_
    rintro _ _ ⟨⟩ hkind
    exact h _ hkind.symm

theorem parse_count (scope : Scope) (cursor : Cursor) :
    State.parse ⟨.count, scope⟩ cursor.remaining = number cursor >>= fun count =>
      State.parse ⟨.statement, .bare count.value scope⟩ count.next.remaining := by
  unfold number
  split
  · rename_i value h
    exact parse_of_next? (by simp [State.next?, h])
  · rename_i h
    refine parse_of_not_step (by simp) ?_
    rintro _ _ ⟨⟩ hkind
    exact h _ hkind.symm

theorem parse_period (instruction : Instruction) (scope : Scope) (cursor : Cursor) :
    State.parse ⟨.period instruction none, scope⟩ cursor.remaining =
      period cursor >>= fun dot =>
        State.parse ⟨.statement, scope.add (.leaf instruction)⟩ dot.next.remaining := by
  unfold period
  split
  · rename_i h
    exact parse_of_next? (by simp [State.next?, h])
  · rename_i h
    refine parse_of_not_step (by simp) ?_
    rintro _ _ ⟨⟩ hkind
    exact h hkind.symm

theorem parse_pen (instruction : Instruction) (scope : Scope) (cursor : Cursor) :
    State.parse ⟨.period instruction (some cursor.peek.line), scope⟩ cursor.advance.2.remaining =
      pen instruction cursor >>= fun reading =>
        State.parse ⟨.statement, scope.add reading.value⟩ reading.next.remaining := by
  simp only [pen]
  split
  · rename_i h
    exact parse_of_next? (by simp [State.next?, h])
  · rename_i h
    refine parse_of_not_step (by simp) ?_
    rintro _ _ ⟨⟩ hkind
    exact h hkind.symm

theorem parse_color (scope : Scope) (cursor : Cursor) :
    State.parse ⟨.color, scope⟩ cursor.remaining = color cursor >>= fun reading =>
      State.parse ⟨.statement, scope.add reading.value⟩ reading.next.remaining := by
  unfold color
  split
  · rename_i text h
    have hnext : State.next? ⟨.color, scope⟩ cursor.peek =
        some ⟨.period (.setColor (.ofText text)) none, scope⟩ := by
      simp [State.next?, h]
    rw [parse_of_next? hnext, parse_period, bind_assoc]
    rfl
  · rename_i h
    refine parse_of_not_step (by simp) ?_
    rintro _ _ ⟨⟩ hkind
    exact h _ hkind.symm

theorem refuse_statement (scope : Scope) (cursor : Cursor) :
    State.refuse ⟨.statement, scope⟩ cursor.peek =
      refusal (State.cause ⟨.statement, scope⟩ cursor.peek.kind) cursor := rfl

/-- If a quote or the end of the input comes here, it comes in place of a statement. -/
def Due (scope : Scope) (cursor : Cursor) : Prop :=
  cursor.peek.kind = .quote ∨ cursor.peek.kind = .endOfInput →
    State.parse ⟨.statement, scope⟩ cursor.remaining = .error (refusal .missingStatement cursor)

theorem cause_statement {kind : Token.Kind} (hloop : kind ≠ .loop) (hquote : kind ≠ .quote)
    (hend : kind ≠ .endOfInput) : State.cause ⟨.statement, scope⟩ kind = .missingStatement := by
  unfold State.cause
  split <;> simp_all

theorem parse_movement (hdue : Due scope cursor) (hloop : cursor.peek.kind ≠ .loop)
    (hup : cursor.peek.kind ≠ .penUp) (hdown : cursor.peek.kind ≠ .penDown)
    (hcolor : cursor.peek.kind ≠ .color) :
    State.parse ⟨.statement, scope⟩ cursor.remaining = movement cursor >>= fun reading =>
      State.parse ⟨.statement, scope.add reading.value⟩ reading.next.remaining := by
  unfold movement
  split
  · rename_i direction h
    have hnext : State.next? ⟨.statement, scope⟩ cursor.peek =
        some ⟨.amount direction, scope⟩ := by
      simp [State.next?, h]
    rw [parse_of_next? hnext, parse_amount, bind_assoc]
    simp only [parse_period, bind_assoc]
    rfl
  · rename_i hmove
    by_cases hclose : cursor.peek.kind = .quote ∨ cursor.peek.kind = .endOfInput
    · exact hdue hclose
    · obtain ⟨hquote, hend⟩ := not_or.1 hclose
      have hnext : State.next? ⟨.statement, scope⟩ cursor.peek = none := by
        apply next?_eq_none_of_not_step
        intro read next hstep hkind
        cases hstep with
        | move => exact hmove _ hkind.symm
        | penUp => exact hup hkind.symm
        | penDown => exact hdown hkind.symm
        | color => exact hcolor hkind.symm
        | loop => exact hloop hkind.symm
        | opening | closing => exact hquote hkind.symm
      rw [parse_of_next?_eq_none (isEnd_eq_false hend) hnext, refuse_statement,
        cause_statement hloop hquote hend]
      rfl

/-! ### Rows of statements -/

/-- Scopes that hold statements one after another, and how reading goes on behind the last. -/
structure Row (depth : Nat) (scope : List Tree → Scope)
    (close : Tree → Cursor → Except SyntaxError Tree) : Prop where
  depth_eq : ∀ done, (scope done).depth = depth
  add_eq : ∀ done tree, (scope done).add tree = scope (tree :: done)
  parse_empty : ∀ cursor, cursor.peek.kind = .quote →
    State.parse ⟨.statement, scope []⟩ cursor.remaining =
      .error (refusal .missingStatement cursor)
  parse_end : ∀ done cursor, cursor.peek.kind = .endOfInput →
    State.parse ⟨.statement, scope done⟩ cursor.remaining = close (.program done.reverse) cursor
  parse_quote : ∀ done body cursor, cursor.peek.kind = .quote →
    Tree.body? done.reverse = some body →
    State.parse ⟨.statement, scope done⟩ cursor.remaining = close body cursor

/-- Behind a program there is nothing but the end of the input. -/
def closeProgram (program : Tree) (next : Cursor) : Except SyntaxError Tree :=
  if next.peek.isEnd then .ok program else .error (refusal .surplus next)

/-- Behind a loop's statements there is a quote, and then what follows the loop. -/
def closeLoop (count : UInt32) (outer : Scope) (body : Tree) (next : Cursor) :
    Except SyntaxError Tree :=
  if next.peek.kind = .quote then
    State.parse ⟨.statement, outer.add (.loop count body)⟩ next.advance.2.remaining
  else .error (refusal .openLoop next)

theorem row_program : Row 0 .program closeProgram where
  depth_eq _ := rfl
  add_eq _ _ := rfl
  parse_empty cursor h := by
    have hnext : State.next? ⟨.statement, .program []⟩ cursor.peek = none := by
      simp [State.next?, h, Scope.quote?]
    rw [parse_of_next?_eq_none (isEnd_eq_false (by simp [h])) hnext, refuse_statement, h]
    rfl
  parse_end done cursor h := by
    rw [parse_of_isEnd (isEnd_iff.2 h), closeProgram, if_pos (isEnd_iff.2 h)]
    rfl
  parse_quote done body cursor h hbody := by
    have hend : cursor.peek.isEnd = false := isEnd_eq_false (by simp [h])
    have hnext : State.next? ⟨.statement, .program done⟩ cursor.peek = none := by
      simp [State.next?, h, Scope.quote?]
    -- There is a statement before the quote, so that the quote is more than the program.
    cases done with
    | nil => cases hbody
    | cons tree done =>
      rw [parse_of_next?_eq_none hend hnext, closeProgram, hend, refuse_statement, h]
      rfl

theorem row_quoted (count : UInt32) (outer : Scope) :
    Row (outer.depth + 1) (.quoted count · outer) (closeLoop count outer) where
  depth_eq _ := rfl
  add_eq _ _ := rfl
  parse_empty cursor h := by
    have hnext : State.next? ⟨.statement, .quoted count [] outer⟩ cursor.peek = none := by
      simp [State.next?, h, Scope.quote?, Tree.body?]
    rw [parse_of_next?_eq_none (isEnd_eq_false (by simp [h])) hnext, refuse_statement, h]
    rfl
  parse_end done cursor h := by
    have hquote : cursor.peek.kind ≠ .quote := by simp [h]
    rw [parse_of_isEnd (isEnd_iff.2 h), closeLoop, if_neg hquote, State.finish, refuse_statement, h]
    rfl
  parse_quote done body cursor h hbody := by
    have hnext : State.next? ⟨.statement, .quoted count done outer⟩ cursor.peek =
        some ⟨.statement, outer.add (.loop count body)⟩ := by
      simp [State.next?, h, Scope.quote?, hbody]
    rw [parse_of_next? hnext, closeLoop, if_pos h]

theorem due_of_other (hquote : cursor.peek.kind ≠ .quote) (hend : cursor.peek.kind ≠ .endOfInput) :
    Due scope cursor := by
  intro h
  rcases h with h | h
  · exact (hquote h).elim
  · exact (hend h).elim

/-- The body of a loop has to begin, also where the input ends. -/
theorem due_bare (hquote : cursor.peek.kind ≠ .quote) : Due (.bare count outer) cursor := by
  intro h
  have hend := h.resolve_left hquote
  rw [parse_of_isEnd (isEnd_iff.2 hend), State.finish, refuse_statement, hend]
  rfl

theorem Row.due_empty {scopes : List Tree → Scope} {close : Tree → Cursor → Except SyntaxError Tree}
    (hrow : Row depth scopes close) (hend : cursor.peek.kind ≠ .endOfInput) :
    Due (scopes []) cursor := by
  intro h
  exact hrow.parse_empty cursor (h.resolve_right hend)

/-! ### Phrases with phrases inside

A phrase is read the same whatever is open around it, so each equation is for all that may come
behind the phrase. -/

mutual

theorem parse_statement {depth : Nat} {scope : Scope} {cursor : Cursor}
    (hdepth : scope.depth = depth) (hle : depth ≤ nestingLimit) (hdue : Due scope cursor) :
    State.parse ⟨.statement, scope⟩ cursor.remaining =
      statement depth cursor >>= fun reading =>
        State.parse ⟨.statement, scope.add reading.value⟩ reading.next.remaining := by
  rw [statement]
  split
  · rename_i h
    by_cases hlimit : depth = nestingLimit
    · have hnext : State.next? ⟨.statement, scope⟩ cursor.peek = none := by
        simp [State.next?, h, hdepth, hlimit]
      rw [if_pos hlimit, parse_of_next?_eq_none (isEnd_eq_false (by simp [h])) hnext,
        refuse_statement, h]
      rfl
    · have hlt : scope.depth < nestingLimit := by omega
      have hnext : State.next? ⟨.statement, scope⟩ cursor.peek = some ⟨.count, scope⟩ := by
        simp [State.next?, h, hlt]
      rw [if_neg hlimit, parse_of_next? hnext, parse_count, bind_assoc]
      congr 1
      funext count
      have := count.left_lt
      have := cursor.left_advance_le
      rw [parse_body (congrArg (· + 1) hdepth) (by omega), bind_assoc]
      rfl
  · rename_i h
    have hnext : State.next? ⟨.statement, scope⟩ cursor.peek =
        some ⟨.period .penUp (some cursor.peek.line), scope⟩ := by
      simp [State.next?, h]
    rw [parse_of_next? hnext, parse_pen]
  · rename_i h
    have hnext : State.next? ⟨.statement, scope⟩ cursor.peek =
        some ⟨.period .penDown (some cursor.peek.line), scope⟩ := by
      simp [State.next?, h]
    rw [parse_of_next? hnext, parse_pen]
  · rename_i h
    have hnext : State.next? ⟨.statement, scope⟩ cursor.peek = some ⟨.color, scope⟩ := by
      simp [State.next?, h]
    rw [parse_of_next? hnext, parse_color, bind_assoc]
    rfl
  · rename_i hloop hup hdown hcolor
    exact parse_movement hdue hloop hup hdown hcolor
termination_by (cursor.left, 0)

theorem parse_body {depth : Nat} {count : UInt32} {outer : Scope} {cursor : Cursor}
    (hdepth : outer.depth + 1 = depth) (hle : depth ≤ nestingLimit) :
    State.parse ⟨.statement, .bare count outer⟩ cursor.remaining =
      body depth cursor >>= fun reading =>
        State.parse ⟨.statement, outer.add (.loop count reading.value)⟩
          reading.next.remaining := by
  rw [body]
  split
  · rename_i h
    have hnext : State.next? ⟨.statement, .bare count outer⟩ cursor.peek =
        some ⟨.statement, .quoted count [] outer⟩ := by
      simp [State.next?, h, Scope.quote?]
    have := left_advance_lt_of_kind h nofun
    have hrow := row_quoted count outer
    rw [hdepth] at hrow
    rw [parse_of_next? hnext, bind_assoc]
    refine (parse_expression hrow hle).trans ?_
    congr 1
    funext reading
    simp only [closeLoop]
    split <;> rfl
  · rename_i h
    exact parse_statement hdepth hle (due_bare h)
termination_by (cursor.left, 3)

theorem parse_expression {depth : Nat} {scopes : List Tree → Scope}
    {close : Tree → Cursor → Except SyntaxError Tree} {cursor : Cursor}
    (hrow : Row depth scopes close) (hle : depth ≤ nestingLimit) :
    State.parse ⟨.statement, scopes []⟩ cursor.remaining =
      expression depth cursor >>= fun reading => close reading.value reading.next := by
  rw [expression]
  split
  · rename_i h
    exact hrow.parse_end [] cursor (isEnd_iff.1 h)
  · rename_i h
    rw [parse_statements hrow hle (hrow.due_empty (mt isEnd_iff.2 h)), bind_assoc]
    rfl
termination_by (cursor.left, 2)

theorem parse_statements {depth : Nat} {scopes : List Tree → Scope}
    {close : Tree → Cursor → Except SyntaxError Tree} {done : List Tree} {cursor : Cursor}
    (hrow : Row depth scopes close) (hle : depth ≤ nestingLimit) (hdue : Due (scopes done) cursor) :
    State.parse ⟨.statement, scopes done⟩ cursor.remaining =
      statements depth done cursor >>= fun reading => close reading.value reading.next := by
  rw [statements, parse_statement (hrow.depth_eq done) hle hdue, bind_assoc]
  congr 1
  funext reading
  have := reading.left_lt
  rw [hrow.add_eq]
  obtain ⟨tree, next, hnext⟩ := reading
  dsimp only
  split
  · rename_i h
    exact hrow.parse_end _ _ h
  · rename_i h
    have hne : Tree.body? (tree :: done).reverse ≠ none := by simp [Tree.body?_eq_none_iff]
    obtain ⟨body, hbody⟩ := Option.ne_none_iff_exists'.1 hne
    rw [hrow.parse_quote _ _ _ h hbody, hbody]
    rfl
  · rename_i hend hquote
    rw [parse_statements hrow hle (due_of_other hquote hend), bind_assoc]
    rfl
termination_by (cursor.left, 1)

end

end Descent

/-- It makes no difference whether a token list is read phrase by phrase or token by token. -/
theorem Tree.descend_eq_ofTokens (tokens : List Token) : descend tokens = ofTokens tokens := by
  rw [ofTokens, descend]
  exact (Descent.parse_expression Descent.row_program (Nat.zero_le _)).symm

end TurtleGraphics
