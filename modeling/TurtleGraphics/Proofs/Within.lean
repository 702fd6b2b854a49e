import TurtleGraphics.Proofs.Grammar

/-! What is read after something else, or inside a loop, is read as it is alone, but for the lines
and the limit of nesting. -/
namespace TurtleGraphics

/-- The same token further down. -/
def Token.later (lines : Nat) (token : Token) : Token :=
  ⟨token.kind, token.line + lines⟩

def SyntaxError.later (lines : Nat) (error : SyntaxError) : SyntaxError :=
  { error with line := error.line + lines }

namespace Parse

namespace Scope

variable {base : List Tree → Scope} {depth : Nat}

/-- The scope with another one at its bottom in place of the program; `base` makes it of the
statements that the program has. -/
def within (base : List Tree → Scope) : Scope → Scope
  | program done => base done
  | quoted count done outer => quoted count done (outer.within base)
  | bare count outer => bare count (outer.within base)

/-- A scope inside `depth` loops that takes statements in as a program does. -/
structure IsBase (base : List Tree → Scope) (depth : Nat) : Prop where
  add_eq : ∀ done statement, (base done).add statement = base (statement :: done)
  depth_eq : ∀ done, (base done).depth = depth

theorem isBase_program (earlier : List Tree) :
    IsBase (fun done => program (done ++ earlier)) 0 :=
  ⟨fun _ _ => rfl, fun _ => rfl⟩

theorem isBase_quoted (count : UInt32) (outer : Scope) :
    IsBase (fun done => quoted count done outer) (outer.depth + 1) :=
  ⟨fun _ _ => rfl, fun _ => rfl⟩

theorem within_add (h : IsBase base depth) (scope : Scope) (statement : Tree) :
    (scope.add statement).within base = (scope.within base).add statement := by
  induction scope generalizing statement with
  | program done => exact (h.add_eq done statement).symm
  | quoted count done outer _ => rfl
  | bare count outer ih => exact ih (.loop count statement)

theorem depth_within (h : IsBase base depth) (scope : Scope) :
    (scope.within base).depth = scope.depth + depth := by
  induction scope with
  | program done => exact (h.depth_eq done).trans (Nat.zero_add depth).symm
  | quoted count done outer ih | bare count outer ih =>
    simp only [within, Scope.depth, ih]
    omega

end Scope

/-- An instruction that lacks its period is reported further down. -/
def Need.later (lines : Nat) : Need → Need
  | period instruction line => period instruction (line.map (· + lines))
  | need => need

namespace State

variable {base : List Tree → Scope} {depth : Nat} {state next : State} {token : Token}
  {tokens : List Token}

def within (base : List Tree → Scope) (lines : Nat) (state : State) : State :=
  ⟨state.need.later lines, state.scope.within base⟩

/-- A token fits inside another scope as well, unless it begins a loop too deep there. -/
theorem step_within (hbase : Scope.IsBase base depth) (lines : Nat) (h : Step state token next)
    (hloop : token.kind = .loop → state.scope.depth + depth < nestingLimit) :
    Step (state.within base lines) (token.later lines) (next.within base lines) := by
  cases h with
  | loop _ =>
    have hdepth := hloop rfl
    rw [← Scope.depth_within hbase] at hdepth
    exact .loop hdepth
  | @closing count done outer body line hbody =>
    simp only [within, Scope.within_add hbase]
    exact .closing hbody
  | @period scope instruction pen line =>
    simp only [within, Scope.within_add hbase]
    exact .period
  | move => exact .move
  | penUp => exact .penUp
  | penDown => exact .penDown
  | color => exact .color
  | opening => exact .opening
  | amount => exact .amount
  | literal => exact .literal
  | count => exact .count

/-- The token begins a loop that fits where it stands and not inside `depth` loops more. -/
structure TooDeep (depth : Nat) (state : State) (token : Token) : Prop where
  kind_eq : token.kind = .loop
  need_eq : state.need = .statement
  fits_alone : state.scope.depth < nestingLimit
  too_deep : nestingLimit ≤ state.scope.depth + depth

theorem tooDeep_of_step (h : Step state token next) (hkind : token.kind = .loop)
    (hdeep : nestingLimit ≤ state.scope.depth + depth) : TooDeep depth state token := by
  cases h with
  | loop hdepth => exact ⟨rfl, rfl, hdepth, hdeep⟩
  | _ => cases hkind

theorem run?_within (hbase : Scope.IsBase base depth) (lines : Nat)
    (h : state.run? tokens = some next) :
    (state.within base lines).run? (tokens.map (Token.later lines)) =
        some (next.within base lines) ∨
      ∃ read token rest middle, tokens = read ++ token :: rest ∧ TooDeep depth middle token ∧
        (state.within base lines).run? (read.map (Token.later lines)) =
          some (middle.within base lines) := by
  induction tokens generalizing state with
  | nil =>
    cases h
    exact Or.inl rfl
  | cons token tokens ih =>
    obtain ⟨middle, hnext, hrun⟩ := Option.bind_eq_some_iff.1 h
    have hstep := next?_eq_some_iff.1 hnext
    by_cases hdeep : token.kind = .loop ∧ nestingLimit ≤ state.scope.depth + depth
    · right
      exact ⟨[], token, tokens, state, rfl, tooDeep_of_step hstep hdeep.1 hdeep.2, rfl⟩
    · have hfits : token.kind = .loop → state.scope.depth + depth < nestingLimit := by
        intro hkind
        exact Nat.lt_of_not_le fun hle => hdeep ⟨hkind, hle⟩
      have hwithin := step_within hbase lines hstep hfits
      rcases ih hrun with hread | ⟨read, bad, rest, last, rfl, hbad, hread⟩
      · left
        rw [List.map_cons, run?_cons_of_step hwithin, hread]
      · right
        refine ⟨token :: read, bad, rest, last, rfl, hbad, ?_⟩
        rw [List.map_cons, run?_cons_of_step hwithin, hread]

/-- Nothing is too deep where there is no loop around. -/
theorem run?_within_of_isBase_zero (hbase : Scope.IsBase base 0) (lines : Nat)
    (h : state.run? tokens = some next) :
    (state.within base lines).run? (tokens.map (Token.later lines)) =
      some (next.within base lines) := by
  rcases run?_within hbase lines h with hread | ⟨_, _, _, middle, _, hdeep, _⟩
  · exact hread
  · exact absurd hdeep.fits_alone (Nat.not_lt_of_le hdeep.too_deep)

theorem parse_within_of_tooDeep (hbase : Scope.IsBase base depth) (lines : Nat)
    (h : TooDeep depth state token) (rest : List Token) :
    (state.within base lines).parse (token.later lines :: rest) =
      .error ⟨.nestedTooDeep, token.line + lines, .loop⟩ := by
  obtain ⟨need, scope⟩ := state
  obtain ⟨kind, line⟩ := token
  obtain rfl : need = .statement := h.need_eq
  obtain rfl : kind = .loop := h.kind_eq
  have hdepth : ¬ (scope.within base).depth < nestingLimit := by
    rw [Scope.depth_within hbase]
    exact Nat.not_lt_of_le h.too_deep
  apply parse_cons_of_next?_eq_none rfl
  exact if_neg hdepth

end State

end Parse

end TurtleGraphics
