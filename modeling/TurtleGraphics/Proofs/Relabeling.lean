import TurtleGraphics.Proofs.Grammar

/-! Reading looks neither at the lines of tokens nor at the case of a color's letters, save to report
them, and it looks at nothing past the first end of input. -/
namespace TurtleGraphics

/-- Other kinds and lines for tokens. A kind means to a program what it meant before, and what
stands past the end keeps its line. -/
structure Relabeling where
  kind : Token.Kind → Token.Kind
  line : Nat → Nat
  normal_kind : ∀ k, (kind k).normal = k.normal
  line_zero : line 0 = 0

namespace Relabeling

variable {r : Relabeling} {kind : Token.Kind}

def token (r : Relabeling) (token : Token) : Token :=
  ⟨r.kind token.kind, r.line token.line⟩

def error (r : Relabeling) (error : SyntaxError) : SyntaxError :=
  ⟨error.cause, r.line error.line, r.kind error.found⟩

def state (r : Relabeling) (state : Parse.State) : Parse.State :=
  match state.need with
  | .period instruction line => ⟨.period instruction (line.map r.line), state.scope⟩
  | _ => state

/-- Puts all tokens on line 0. -/
def lineless : Relabeling := ⟨id, fun _ => 0, fun _ => rfl, rfl⟩

theorem kind_eq (h : kind.isColorLiteral = false) : r.kind kind = kind := by
  have hnormal : kind.normal = kind := by
    cases kind with
    | colorLiteral text => cases h
    | _ => rfl
  exact Token.Kind.eq_of_normal_eq ((r.normal_kind kind).trans hnormal) h

theorem exists_kind_colorLiteral (r : Relabeling) (text : String) :
    ∃ written, r.kind (.colorLiteral text) = .colorLiteral written ∧
      Color.ofText written = Color.ofText text := by
  have h := r.normal_kind (.colorLiteral text)
  cases hkind : r.kind (.colorLiteral text) with
  | colorLiteral written =>
    rw [hkind] at h
    exact ⟨written, rfl, congrArg Color.mk (Token.Kind.colorLiteral.inj h)⟩
  | _ =>
    rw [hkind] at h
    cases h

theorem kind_eq_iff (h : kind.isColorLiteral = false) (other : Token.Kind) :
    r.kind other = kind ↔ other = kind := by
  constructor
  · intro hother
    cases hliteral : other.isColorLiteral with
    | false => rwa [kind_eq hliteral] at hother
    | true =>
      cases other with
      | colorLiteral text =>
        obtain ⟨written, hwritten, _⟩ := exists_kind_colorLiteral r text
        rw [← hother, hwritten] at h
        cases h
      | _ => cases hliteral
  · rintro rfl
    exact kind_eq h

theorem isEnd_token (r : Relabeling) (token : Token) : (r.token token).isEnd = token.isEnd :=
  decide_eq_decide.2 (kind_eq_iff rfl token.kind)

theorem token_pastEnd (r : Relabeling) : r.token Token.pastEnd = Token.pastEnd := by
  rw [token, Token.pastEnd, kind_eq rfl, r.line_zero]

end Relabeling

namespace Parse.State

theorem next?_relabel (r : Relabeling) (state : State) (token : Token) :
    (r.state state).next? (r.token token) = (state.next? token).map r.state := by
  obtain ⟨need, scope⟩ := state
  obtain ⟨kind, line⟩ := token
  cases hliteral : kind.isColorLiteral with
  | true =>
    cases kind with
    | colorLiteral text =>
      obtain ⟨written, hkind, hcolor⟩ := r.exists_kind_colorLiteral text
      cases need <;> simp [Relabeling.state, Relabeling.token, hkind, next?, hcolor]
    | _ => cases hliteral
  | false =>
    rw [Relabeling.token, Relabeling.kind_eq hliteral]
    cases need with
    | statement =>
      cases kind with
      | loop =>
        by_cases hdepth : scope.depth < nestingLimit <;>
          simp [Relabeling.state, next?, hdepth]
      | quote => simp [Relabeling.state, next?, Function.comp_def]
      | _ => rfl
    | _ => cases kind <;> rfl

theorem cause_relabel (r : Relabeling) (state : State) (kind : Token.Kind) :
    (r.state state).cause (r.kind kind) = state.cause kind := by
  obtain ⟨need, scope⟩ := state
  cases need with
  | statement =>
    cases hliteral : kind.isColorLiteral with
    | false =>
      rw [Relabeling.kind_eq hliteral]
      rfl
    | true =>
      cases kind with
      | colorLiteral text =>
        obtain ⟨written, hkind, _⟩ := r.exists_kind_colorLiteral text
        rw [hkind]
        rcases scope with (_ | _) | _ | _ <;> rfl
      | _ => cases hliteral
  | _ => rfl

theorem refuse_relabel (r : Relabeling) (state : State) (token : Token) :
    (r.state state).refuse (r.token token) = r.error (state.refuse token) := by
  have hcause := cause_relabel r state token.kind
  have hunrecognized : r.kind token.kind = .unrecognized ↔ token.kind = .unrecognized :=
    Relabeling.kind_eq_iff rfl token.kind
  have hline : ((r.state state).refuse (r.token token)).line =
      r.line (state.refuse token).line := by
    obtain ⟨need, scope⟩ := state
    cases need with
    | period instruction line => cases line <;> rfl
    | _ => rfl
  simp only [refuse, SyntaxError.ofToken, Relabeling.token, Relabeling.error, hcause,
    hunrecognized] at hline ⊢
  rw [hline]

theorem finish_relabel (r : Relabeling) (state : State) (token : Token) :
    (r.state state).finish (r.token token) = (state.finish token).mapError r.error := by
  have hrefuse := refuse_relabel r state token
  obtain ⟨need, scope⟩ := state
  cases need with
  | statement =>
    cases scope with
    | program done => rfl
    | _ => exact congrArg Except.error hrefuse
  | _ => exact congrArg Except.error hrefuse

theorem parse_relabel (r : Relabeling) (state : State) (tokens : List Token) :
    (r.state state).parse (tokens.map r.token) = (state.parse tokens).mapError r.error := by
  induction tokens generalizing state with
  | nil =>
    have h := finish_relabel r state Token.pastEnd
    rwa [r.token_pastEnd] at h
  | cons token tokens ih =>
    simp only [List.map_cons, parse, r.isEnd_token, next?_relabel]
    split
    · exact finish_relabel r state token
    · cases state.next? token with
      | none => exact congrArg Except.error (refuse_relabel r state token)
      | some next => exact ih next

/-- Two rests that every state reads alike are read alike after the same tokens. -/
theorem parse_append_congr {rest others : List Token}
    (h : ∀ state : State, state.parse rest = state.parse others) (state : State)
    (tokens : List Token) : state.parse (tokens ++ rest) = state.parse (tokens ++ others) := by
  induction tokens generalizing state with
  | nil => exact h state
  | cons token tokens ih =>
    simp only [List.cons_append, parse]
    split
    · rfl
    · cases state.next? token with
      | none => rfl
      | some next => exact ih next

end Parse.State

namespace Tree

variable {r : Relabeling} {tokens others : List Token} {tree : Tree} {error : SyntaxError}

theorem ofTokens_relabel (r : Relabeling) (tokens : List Token) :
    ofTokens (tokens.map r.token) = (ofTokens tokens).mapError r.error :=
  Parse.State.parse_relabel r .initial tokens

theorem mapError_ofTokens_eq (h : tokens.map r.token = others.map r.token) :
    (ofTokens others).mapError r.error = (ofTokens tokens).mapError r.error := by
  rw [← ofTokens_relabel, ← ofTokens_relabel, h]

/-- Lists that are alike after relabeling spell the same program. -/
theorem ofTokens_eq_ok_of_relabel (h : tokens.map r.token = others.map r.token)
    (hok : ofTokens tokens = .ok tree) : ofTokens others = .ok tree := by
  have hothers := mapError_ofTokens_eq h
  rw [hok] at hothers
  cases hread : ofTokens others with
  | ok other =>
    rw [hread] at hothers
    exact hothers
  | error other =>
    rw [hread] at hothers
    cases hothers

/-- Or the errors are alike as well. -/
theorem exists_ofTokens_eq_error_of_relabel (h : tokens.map r.token = others.map r.token)
    (herror : ofTokens tokens = .error error) :
    ∃ other, ofTokens others = .error other ∧ other.cause = error.cause ∧
      r.line other.line = r.line error.line ∧ r.kind other.found = r.kind error.found := by
  have hothers := mapError_ofTokens_eq h
  rw [herror] at hothers
  cases hread : ofTokens others with
  | ok tree =>
    rw [hread] at hothers
    cases hothers
  | error other =>
    rw [hread] at hothers
    exact ⟨other, rfl, SyntaxError.mk.inj (Except.error.inj hothers)⟩

theorem ofTokens_append_end (tokens rest : List Token) (line : Nat) :
    ofTokens (tokens ++ ⟨.endOfInput, line⟩ :: rest) =
      ofTokens (tokens ++ [⟨.endOfInput, line⟩]) := by
  apply Parse.State.parse_append_congr
  intro state
  have hend : Token.isEnd ⟨.endOfInput, line⟩ = true := rfl
  simp only [Parse.State.parse_cons_of_isEnd hend]

/-- What stands past the end of a list is read as an end of input in the list. -/
theorem ofTokens_append_pastEnd (tokens : List Token) :
    ofTokens (tokens ++ [Token.pastEnd]) = ofTokens tokens := by
  have hfinish : ∀ state : Parse.State, state.parse [Token.pastEnd] = state.parse [] := by
    intro state
    exact Parse.State.parse_cons_of_isEnd rfl
  have h := Parse.State.parse_append_congr hfinish .initial tokens
  rwa [List.append_nil] at h

theorem map_lineless_eq_of_kinds (h : tokens.map Token.kind = others.map Token.kind) :
    tokens.map Relabeling.lineless.token = others.map Relabeling.lineless.token := by
  have hkinds := congrArg (List.map (⟨·, 0⟩ : Token.Kind → Token)) h
  rw [List.map_map, List.map_map] at hkinds
  exact hkinds

/-- The first end of input ends the program, whatever follows it, and a list without one ends past
its last token. Lines change neither the program nor what is wrong with it. -/
theorem ofTokens_reads_kinds_to_end (tokens others rest : List Token) (line : Nat) :
    ofTokens (tokens ++ ⟨.endOfInput, line⟩ :: rest) =
        ofTokens (tokens ++ [⟨.endOfInput, line⟩]) ∧
      ofTokens tokens = ofTokens (tokens ++ [⟨.endOfInput, 0⟩]) ∧
      (tokens.map Token.kind = others.map Token.kind →
        (ofTokens tokens).mapError (fun error => (error.cause, error.found)) =
          (ofTokens others).mapError fun error => (error.cause, error.found)) := by
  refine ⟨ofTokens_append_end tokens rest line, (ofTokens_append_pastEnd tokens).symm, ?_⟩
  intro hkinds
  have hlineless := map_lineless_eq_of_kinds hkinds
  cases hread : ofTokens tokens with
  | ok tree => rw [ofTokens_eq_ok_of_relabel hlineless hread]
  | error error =>
    obtain ⟨other, hother, hcause, _, hfound⟩ :=
      exists_ofTokens_eq_error_of_relabel hlineless hread
    have hkind : other.found = error.found := hfound
    have hpair : (error.cause, error.found) = (other.cause, other.found) := by
      rw [hcause, hkind]
    rw [hother]
    exact congrArg Except.error hpair

/-- A quote in place of a pen command's period, on two lines and on one. -/
theorem ofTokens_reads_kinds_to_end_of_moved :
    ofTokens [⟨.penUp, 1⟩, ⟨.quote, 2⟩] = .error ⟨.missingPeriod, 1, .quote⟩ ∧
      (ofTokens [⟨.penUp, 7⟩, ⟨.quote, 7⟩, ⟨.endOfInput, 7⟩, ⟨.period, 8⟩]).mapError
        (fun error => (error.cause, error.found)) = .error (.missingPeriod, .quote) := by
  have h := ofTokens_reads_kinds_to_end [⟨.penUp, 7⟩, ⟨.quote, 7⟩] [⟨.penUp, 1⟩, ⟨.quote, 2⟩]
    [⟨.period, 8⟩] 7
  refine ⟨rfl, ?_⟩
  exact (congrArg _ h.1).trans (h.2.2 rfl)

end Tree

end TurtleGraphics
