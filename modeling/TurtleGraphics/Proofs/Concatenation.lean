import TurtleGraphics.Proofs.Joined
import TurtleGraphics.Proofs.ViablePrefix

/-! A program followed by another text on the next line. -/
namespace TurtleGraphics

namespace Tree

variable {statement tree : Tree} {statements others : List Tree} {tokens : List Token}

theorem program_injective (h : program statements = program others) : statements = others := by
  induction statements generalizing others with
  | nil =>
    cases others with
    | nil => rfl
    | cons other others => cases h
  | cons statement statements ih =>
    cases others with
    | nil => cases h
    | cons other others =>
      obtain ⟨rfl, hrest⟩ := Tree.seq.inj h
      rw [ih hrest]

theorem unrecognized_not_mem_spelling (tree : Tree) : .unrecognized ∉ tree.spelling := by
  induction tree with
  | seq current rest ihc ihr => simp [spelling, ihc, ihr]
  | last current ih => exact ih
  | loop count body ih =>
    rw [spelling]
    split <;> simp [ih]
  | leaf instruction => cases instruction <;> simp [spelling, Instruction.spelling]

/-- A statement ends with a period or with the quote that closes a loop's body. -/
theorem IsStatement.getLast?_spelling (h : statement.IsStatement) :
    statement.spelling.getLast? = some .period ∨ statement.spelling.getLast? = some .quote := by
  induction h with
  | leaf hend =>
    left
    rw [spelling, ← Instruction.dropLast_spelling hend, List.getLast?_concat]
  | bare hbody ih =>
    rw [spelling, hbody.isSpine_eq_false, if_neg Bool.false_ne_true, List.getLast?_append]
    rcases ih with ih | ih <;> simp [ih]
  | quoted _ hbody _ =>
    right
    rw [spelling, isSpine_of_body? hbody, if_pos rfl, List.getLast?_append, List.getLast?_concat]
    rfl

theorem number_not_last (h : ∀ statement ∈ statements, statement.IsStatement) (value : UInt32) :
    (statements.flatMap spelling).getLast? ≠ some (.number value) := by
  induction statements with
  | nil => nofun
  | cons statement statements ih =>
    obtain ⟨hfirst, hrest⟩ := List.forall_mem_cons.1 h
    rw [List.flatMap_cons, List.getLast?_append]
    cases hlast : (statements.flatMap spelling).getLast? with
    | none => rcases hfirst.getLast?_spelling with h | h <;> simp [h]
    | some kind =>
      intro hnumber
      apply ih hrest
      rw [hlast, ← hnumber]
      rfl

theorem complete_of_ofTokens (h : ofTokens tokens = .ok tree) :
    Token.Complete (Token.beforeEnd tokens) := by
  obtain ⟨statements, rfl, hstatements, hspelling⟩ := exists_statements_of_ofTokens h
  refine ⟨?_, ?_⟩
  · intro token htoken hkind
    have hmem : token.kind.normal ∈ statements.flatMap spelling := by
      rw [← hspelling]
      exact List.mem_map_of_mem htoken
    obtain ⟨statement, _, hmem⟩ := List.mem_flatMap.1 hmem
    rw [hkind] at hmem
    exact unrecognized_not_mem_spelling statement hmem
  · intro token htoken value hkind
    apply number_not_last (fun statement hs => (hstatements statement hs).1) value
    rw [← hspelling, List.getLast?_map, Option.mem_def.1 htoken, Option.map_some, hkind]
    rfl

theorem statements_of_ofTokens (h : ofTokens tokens = .ok (program statements)) :
    (∀ statement ∈ statements, statement.IsStatement ∧ statement.nesting ≤ nestingLimit) ∧
      (Token.beforeEnd tokens).map (·.kind.normal) = statements.flatMap spelling := by
  obtain ⟨others, heq, hstatements, hspelling⟩ := exists_statements_of_ofTokens h
  obtain rfl := program_injective heq
  exact ⟨hstatements, hspelling⟩

end Tree

namespace Token

variable {a b : String} {tokens : List Token}

/-- The end of the input that the tokens of a text end with. -/
def stop (tokens : List Token) : Token :=
  ⟨.endOfInput, (tokens.getLast?.map line).getD 0⟩

theorem ofText_eq (text : String) :
    ofText text = beforeEnd (ofText text) ++ [stop (beforeEnd (ofText text))] := by
  rw [beforeEnd_ofText]
  rfl

theorem beforeEnd_ofText_append (h : Complete (beforeEnd (ofText a))) (b : String) :
    beforeEnd (ofText (a ++ "\n" ++ b)) =
      beforeEnd (ofText a) ++ (beforeEnd (ofText b)).map (later (a.toList.count '\n' + 1)) := by
  rw [beforeEnd_ofText] at h
  have htext : (a ++ "\n" ++ b).toList = a.toList ++ '\n' :: b.toList := by simp
  rw [beforeEnd_ofText, beforeEnd_ofText, beforeEnd_ofText, htext, read_remove_append_newline h,
    Nat.add_assoc, read_later]

theorem stop_append_later (lines : Nat) (hne : tokens ≠ []) (earlier : List Token) :
    stop (earlier ++ tokens.map (later lines)) = (stop tokens).later lines := by
  simp only [stop, List.getLast?_append, List.getLast?_map, List.getLast?_eq_some_getLast hne]
  rfl

/-- Where something follows, the tokens of a program come before those of what follows. -/
theorem ofText_append (h : Complete (beforeEnd (ofText a))) (hne : beforeEnd (ofText b) ≠ []) :
    ofText (a ++ "\n" ++ b) =
      beforeEnd (ofText a) ++ (ofText b).map (later (a.toList.count '\n' + 1)) := by
  rw [ofText_eq, beforeEnd_ofText_append h, stop_append_later _ hne, List.append_assoc]
  refine congrArg (beforeEnd (ofText a) ++ ·) ?_
  rw [ofText_eq b, List.map_append, ← ofText_eq]
  rfl

end Token

namespace Parse.State

variable {state next : State} {token : Token} {tokens : List Token} {earlier statements : List Tree}
  {error : SyntaxError} {kind : Token.Kind}

theorem run?_of_ofTokens (h : Tree.ofTokens tokens = .ok (.program statements)) :
    initial.run? (Token.beforeEnd tokens) = some ⟨.statement, .program statements.reverse⟩ := by
  rcases parse_cases .initial tokens with ⟨next, hrun, hparse⟩ | ⟨_, _, _, _, _, _, _, hparse⟩
  · obtain ⟨done, rfl, heq⟩ := finish_eq_ok_iff.1 (hparse.symm.trans h)
    rw [Tree.program_injective heq, List.reverse_reverse]
    exact hrun
  · cases hparse.symm.trans h

/-- A state as it is after earlier statements of the program, `lines` further down. -/
def after (earlier : List Tree) (lines : Nat) (state : State) : State :=
  state.within (fun done => .program (done ++ earlier)) lines

theorem next?_after (earlier : List Tree) (lines : Nat) (h : state.next? token = none) :
    (state.after earlier lines).next? (token.later lines) = none := by
  obtain ⟨need, scope⟩ := state
  obtain ⟨kind, line⟩ := token
  cases need with
  | statement =>
    cases kind with
    | loop =>
      have hdepth := Scope.depth_within (Scope.isBase_program earlier) scope
      simp only [next?, after, within, Need.later, Token.later, hdepth, Nat.add_zero] at h ⊢
      split at h
      · cases h
      · rename_i hdeep
        exact if_neg hdeep
    | quote =>
      cases scope with
      | program done => rfl
      | quoted count done outer =>
        obtain hbody : Tree.body? done.reverse = none := by simpa [next?, Scope.quote?] using h
        simp [next?, after, within, Need.later, Token.later, Scope.within, Scope.quote?, hbody]
      | bare count outer => cases h
    | _ => first | rfl | cases h
  | _ => cases kind <;> first | rfl | cases h

/-- Only a quote at the start of a program is refused for another reason when statements stand
before it. -/
theorem cause_after (lines : Nat) (h : state = .initial → kind = .quote → earlier = []) :
    (state.after earlier lines).cause kind = state.cause kind := by
  obtain ⟨need, scope⟩ := state
  cases need with
  | statement =>
    rcases scope with (_ | ⟨statement, done⟩) | _ | _
    · by_cases hkind : kind = .quote
      · obtain rfl := h rfl hkind
        rfl
      · cases kind <;> first | rfl | exact (hkind rfl).elim
    all_goals cases kind <;> rfl
  | _ => rfl

theorem refuse_after (lines : Nat) (h : state = .initial → token.kind = .quote → earlier = []) :
    (state.after earlier lines).refuse (token.later lines) =
      (state.refuse token).later lines := by
  have hpen : (state.after earlier lines).penLine? = state.penLine?.map (· + lines) := by
    obtain ⟨need, scope⟩ := state
    cases need <;> rfl
  have hline : ((state.after earlier lines).refuse (token.later lines)).line =
      (state.refuse token).line + lines := by
    rw [refuse_line, refuse_line, hpen]
    cases state.penLine? <;> rfl
  have hcause : (state.after earlier lines).cause (token.later lines).kind =
      state.cause token.kind := cause_after lines h
  have hrefuse : ∀ (state : State) (token : Token),
      state.refuse token = .ofToken (state.cause token.kind) (state.refuse token).line token :=
    fun _ _ => rfl
  rw [hrefuse (state.after earlier lines), hcause, hline]
  rfl

theorem eq_nil_of_run?_initial (h : initial.run? tokens = some initial) : tokens = [] := by
  have hspelling := (invariant_run? wellFormed_initial h).2
  exact List.map_eq_nil_iff.1 (List.self_eq_append_right.1 hspelling)

theorem finish_after (lines : Nat) (hend : token.kind = .endOfInput)
    (h : state.finish token = .error error) :
    (state.after earlier lines).finish (token.later lines) = .error (error.later lines) := by
  obtain rfl := finish_eq_error h
  have hquote : token.kind ≠ .quote := by simp [hend]
  rw [← refuse_after lines fun _ hkind => (hquote hkind).elim]
  obtain ⟨need, scope⟩ := state
  cases need with
  | statement =>
    cases scope with
    | program done => cases h
    | _ => rfl
  | _ => rfl

/-- What a text is refused for is what it is refused for after earlier statements. -/
theorem parse_after (lines : Nat) {stop : Token} (hstop : stop.kind = .endOfInput)
    (htokens : Token.beforeEnd (tokens ++ [stop]) = tokens)
    (hquote : ∀ token ∈ tokens.head?, token.kind = .quote → earlier = [])
    (h : initial.parse (tokens ++ [stop]) = .error error) :
    (initial.after earlier lines).parse ((tokens ++ [stop]).map (Token.later lines)) =
      .error (error.later lines) := by
  have hbase := Scope.isBase_program earlier
  rcases parse_cases .initial (tokens ++ [stop]) with
    ⟨next, hrun, hparse⟩ | ⟨read, token, rest, next, heq, hrun, hnext, hparse⟩
  · rw [htokens] at hrun hparse
    have hget : (tokens ++ [stop]).getD tokens.length Token.pastEnd = stop := by simp
    rw [hget] at hparse
    have hend : (stop.later lines).isEnd = true := decide_eq_true hstop
    rw [List.map_append, after, parse_append_of_run? (run?_within_of_isBase_zero hbase lines hrun),
      List.map_singleton, parse_cons_of_isEnd hend]
    exact finish_after lines hstop (hparse.symm.trans h)
  · obtain rfl : next.refuse token = error := Except.error.inj (hparse.symm.trans h)
    have hmem : token ∈ Token.beforeEnd (tokens ++ [stop]) := by
      rw [heq]
      exact List.mem_append_right _ List.mem_cons_self
    have hend : token.isEnd = false := Token.isEnd_eq_false_of_mem_beforeEnd hmem
    have hfirst : next = .initial → token.kind = .quote → earlier = [] := by
      rintro rfl
      obtain rfl := eq_nil_of_run?_initial hrun
      apply hquote
      rw [← htokens, heq]
      rfl
    rw [htokens] at heq
    subst heq
    rw [List.append_assoc, List.map_append, after,
      parse_append_of_run? (run?_within_of_isBase_zero hbase lines hrun),
      ← refuse_after lines hfirst]
    exact parse_cons_of_next?_eq_none hend (next?_after earlier lines hnext)

theorem parse_after_quote (lines : Nat) (hne : earlier ≠ []) (hkind : token.kind = .quote)
    (rest : List Token) :
    (initial.after earlier lines).parse (token.later lines :: rest) =
      .error ⟨.surplus, token.line + lines, .quote⟩ := by
  obtain ⟨statement, earlier, rfl⟩ := List.exists_cons_of_ne_nil hne
  obtain ⟨kind, line⟩ := token
  obtain rfl : kind = .quote := hkind
  exact parse_cons_of_next?_eq_none rfl rfl

end Parse.State

namespace Tree

variable {a b : String} {statements others : List Tree} {error : SyntaxError}

theorem ofText_append_of_ok (ha : ofText a = .ok (program statements))
    (hb : ofText b = .ok (program others)) :
    ofText (a ++ "\n" ++ b) = .ok (program (statements ++ others)) := by
  obtain ⟨hstatements, hspelling⟩ := statements_of_ofTokens ha
  obtain ⟨hothers, hrest⟩ := statements_of_ofTokens hb
  apply ofTokens_eq_ok_of_spelling
  · exact List.forall_mem_append.2 ⟨hstatements, hothers⟩
  · rw [Token.beforeEnd_ofText_append (complete_of_ofTokens ha), List.map_append, List.map_map,
      List.flatMap_append, ← hspelling, ← hrest]
    rfl

/-- A text that is no program holds tokens. -/
theorem beforeEnd_ne_nil_of_error (hb : ofText b = .error error) :
    Token.beforeEnd (Token.ofText b) ≠ [] := by
  intro hnil
  have hok : ofText b = .ok (program []) := by
    apply ofTokens_eq_ok_of_spelling
    · nofun
    · rw [hnil]
      rfl
  cases hok.symm.trans hb

/-- Reading a text after a program goes on where the program ends. -/
theorem ofText_append_of_error (ha : ofText a = .ok (program statements))
    (hb : ofText b = .error error) :
    ofText (a ++ "\n" ++ b) =
      (Parse.State.initial.after statements.reverse (a.toList.count '\n' + 1)).parse
        ((Token.ofText b).map (Token.later (a.toList.count '\n' + 1))) := by
  rw [ofText, ofTokens,
    Token.ofText_append (complete_of_ofTokens ha) (beforeEnd_ne_nil_of_error hb)]
  exact Parse.State.parse_append_of_run? (Parse.State.run?_of_ofTokens ha)

/-- A program goes on with the program on the next line. Where no program follows, the error is
that of what follows, further down by the lines of the first; only a quote in front of everything
is surplus then, and no missing statement. -/
theorem ofText_append_newline (a b : String) (statements : List Tree)
    (ha : ofText a = .ok (program statements)) :
    (∀ others, ofText b = .ok (program others) →
      ofText (a ++ "\n" ++ b) = .ok (program (statements ++ others))) ∧
    ∀ error, ofText b = .error error →
      ((∀ token ∈ (Token.ofText b).head?, token.kind = .quote → statements = []) →
        ofText (a ++ "\n" ++ b) = .error
          ⟨error.cause, error.line + a.toList.count '\n' + 1, error.found⟩) ∧
      (statements ≠ [] → ∀ token ∈ (Token.ofText b).head?, token.kind = .quote →
        ofText (a ++ "\n" ++ b) = .error
          ⟨.surplus, token.line + a.toList.count '\n' + 1, .quote⟩) := by
  refine ⟨fun others => ofText_append_of_ok ha, ?_⟩
  intro error hb
  have happend := ofText_append_of_error ha hb
  refine ⟨?_, ?_⟩
  · intro hquote
    have hparse := hb
    rw [ofText, ofTokens, Token.ofText_eq] at hparse
    rw [happend, Token.ofText_eq b]
    refine Parse.State.parse_after _ rfl ?_ ?_ hparse
    · rw [← Token.ofText_eq]
    · intro token htoken hkind
      refine List.reverse_eq_nil_iff.2 (hquote token ?_ hkind)
      rw [Token.ofText_eq, List.head?_append, Option.mem_def.1 htoken]
      rfl
  · intro hne token htoken hquote
    obtain ⟨rest, hrest⟩ := List.head?_eq_some_iff.1 htoken
    rw [happend, hrest]
    exact Parse.State.parse_after_quote _ (mt List.reverse_eq_nil_iff.1 hne) hquote _

/-- A comment that nothing closes ends where the next line starts. -/
theorem ofText_append_newline_open_comment :
    ofText ("DOWN. % an open comment" ++ "\n" ++ "UP.") =
        .ok (program [leaf .penDown, leaf .penUp]) ∧
      ofText ("DOWN. % an open comment" ++ "\n" ++ "UP.\nLEFT 5") =
        .error ⟨.missingPeriod, 3, .endOfInput⟩ ∧
      ofText ("DOWN. % an open comment" ++ "\n" ++ "\"") = .error ⟨.surplus, 2, .quote⟩ := by
  have hdown : Token.ofText "DOWN. % an open comment" =
      [⟨.penDown, 1⟩, ⟨.period, 1⟩, ⟨.endOfInput, 1⟩] := by decide +kernel
  have hup : Token.ofText "UP." = [⟨.penUp, 1⟩, ⟨.period, 1⟩, ⟨.endOfInput, 1⟩] := by
    decide +kernel
  have hleft : Token.ofText "UP.\nLEFT 5" = [⟨.penUp, 1⟩, ⟨.period, 1⟩, ⟨.move .left, 2⟩,
      ⟨.number 5, 2⟩, ⟨.endOfInput, 2⟩] := by decide +kernel
  have hquote : Token.ofText "\"" = [⟨.quote, 1⟩, ⟨.endOfInput, 1⟩] := by decide +kernel
  have h := fun b => ofText_append_newline "DOWN. % an open comment" b [leaf .penDown]
    ((congrArg ofTokens hdown).trans rfl)
  refine ⟨(h "UP.").1 [leaf .penUp] ((congrArg ofTokens hup).trans rfl), ?_, ?_⟩
  · refine ((h "UP.\nLEFT 5").2 ⟨.missingPeriod, 2, .endOfInput⟩
      ((congrArg ofTokens hleft).trans rfl)).1 ?_
    rw [hleft]
    rintro token ⟨⟩
    nofun
  · refine ((h "\"").2 ⟨.missingStatement, 1, .quote⟩
      ((congrArg ofTokens hquote).trans rfl)).2 (List.cons_ne_nil _ _) ⟨.quote, 1⟩ ?_ rfl
    rw [hquote]
    rfl

end Tree

end TurtleGraphics
