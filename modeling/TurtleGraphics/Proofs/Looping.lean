import TurtleGraphics.Proofs.Actions
import TurtleGraphics.Proofs.Concatenation
import TurtleGraphics.Proofs.RoundTrip

/-! A program's text in the quotes of a loop. -/
namespace TurtleGraphics

universe u

/-- A loop around a text. The line feed ends a comment that the text leaves open. -/
def looped (count : UInt32) (text : String) : String :=
  "REPEAT " ++ count.toNat.repr ++ " \"" ++ text ++ "\n\""

namespace Token

variable {text : String}

theorem map_later_zero (tokens : List Token) : tokens.map (later 0) = tokens :=
  List.map_id tokens

theorem written_loop_quote (count : UInt32) :
    Written ("REPEAT ".toList ++ Nat.toDigits 10 count.toNat ++ [' '] ++ ['"'])
      [.loop, .number count, .quote] :=
  written_quote.loop (Lexeme.isRun_toDigits _) (Lexeme.value?_toDigits count)

theorem read_quote (line : Nat) : read line ['"'] = [⟨.quote, line⟩] := by
  have h := written_quote.read_append line []
  rwa [read_nil] at h

/-- The quotes take nothing from the text between them and add nothing to it. -/
theorem beforeEnd_ofText_looped (count : UInt32) (h : Complete (beforeEnd (ofText text))) :
    beforeEnd (ofText (looped count text)) =
      ⟨.loop, 1⟩ :: ⟨.number count, 1⟩ :: ⟨.quote, 1⟩ ::
        (beforeEnd (ofText text) ++ [⟨.quote, text.toList.count '\n' + 2⟩]) := by
  have hhead := written_loop_quote count
  generalize hchars : "REPEAT ".toList ++ Nat.toDigits 10 count.toNat ++ [' '] ++ ['"'] = head
    at hhead
  have hreturn : '\r' ∉ head := fun hmem => Bool.false_ne_true (hhead.plain '\r' hmem)
  have hcomment : '%' ∉ head := fun hmem => Bool.false_ne_true (hhead.plain '%' hmem)
  have htext : (looped count text).toList = head ++ (text.toList ++ '\n' :: ['"']) := by
    simp [looped, ← hchars]
  have hquote : Comment.remove ['"'] = ['"'] := rfl
  rw [beforeEnd_ofText] at h
  calc beforeEnd (ofText (looped count text))
      = read 1 (head ++ Comment.remove (text.toList ++ '\n' :: ['"'])) := by
        rw [beforeEnd_ofText, htext, Comment.remove_append hreturn hcomment]
    _ = [⟨.loop, 1⟩, ⟨.number count, 1⟩, ⟨.quote, 1⟩] ++
          read 1 (Comment.remove (text.toList ++ '\n' :: ['"'])) := hhead.read_append 1 _
    _ = [⟨.loop, 1⟩, ⟨.number count, 1⟩, ⟨.quote, 1⟩] ++
          (beforeEnd (ofText text) ++ [⟨.quote, 1 + text.toList.count '\n' + 1⟩]) := by
        rw [read_remove_append_newline h, hquote, read_quote, beforeEnd_ofText]
    _ = _ := by
        rw [show 1 + text.toList.count '\n' + 1 = text.toList.count '\n' + 2 by omega]
        rfl

end Token

namespace Parse.State

variable {tokens : List Token} {statements : List Tree}

/-- The start of a loop's quotes, in front of everything else. -/
def opened (count : UInt32) : State := ⟨.statement, .quoted count [] (.program [])⟩

theorem parse_opened (count : UInt32) (tokens : List Token) :
    initial.parse (⟨.loop, 1⟩ :: ⟨.number count, 1⟩ :: ⟨.quote, 1⟩ :: tokens) =
      (opened count).parse tokens := by
  have hdepth : (Scope.program []).depth < nestingLimit := by decide
  rw [initial, parse_cons_of_step (.loop hdepth), parse_cons_of_step .count,
    parse_cons_of_step .opening, opened]

/-- In a loop's quotes a program is read until one of its loops is too deep. -/
theorem run?_opened_of_ofTokens (count : UInt32)
    (h : Tree.ofTokens tokens = .ok (.program statements)) :
    (∀ statement ∈ statements, statement.nesting < nestingLimit) ∨
      ∃ read token rest middle, Token.beforeEnd tokens = read ++ token :: rest ∧
        TooDeep 1 middle token ∧ (opened count).run? read =
          some (middle.within (fun done => .quoted count done (.program [])) 0) := by
  have hbase := Scope.isBase_quoted count (.program [])
  have hopened : initial.within (fun done => .quoted count done (.program [])) 0 = opened count :=
    rfl
  rcases run?_within hbase 0 (run?_of_ofTokens h) with
    hread | ⟨read, token, rest, middle, heq, hdeep, hread⟩
  · left
    have hwell : (opened count).WellFormed := by
      refine ⟨⟨?_, by decide, ?_⟩, trivial⟩ <;> nofun
    rw [hopened] at hread
    obtain ⟨⟨⟨_, _, hfits⟩, _⟩, _⟩ := invariant_run? hwell hread
    intro statement hs
    have hfit := (hfits statement (List.mem_reverse.2 hs)).2
    simp only [Scope.depth] at hfit
    omega
  · right
    rw [hopened, Token.map_later_zero] at hread
    exact ⟨read, token, rest, middle, heq, hdeep, hread⟩

end Parse.State

namespace Tree

variable {text : String} {statements : List Tree} {body : Tree}

theorem exists_ofText_looped_eq (count : UInt32) (h : ofText text = .ok (program statements)) :
    ∃ stop, ofText (looped count text) = (Parse.State.opened count).parse
      (Token.beforeEnd (Token.ofText text) ++
        [⟨.quote, text.toList.count '\n' + 2⟩, stop]) := by
  obtain ⟨stop, htokens⟩ : ∃ stop, Token.ofText (looped count text) =
      Token.beforeEnd (Token.ofText (looped count text)) ++ [stop] := ⟨_, Token.ofText_eq _⟩
  rw [Token.beforeEnd_ofText_looped count (complete_of_ofTokens h)] at htokens
  refine ⟨stop, ?_⟩
  simp only [ofText, htokens, ofTokens, List.cons_append, List.append_assoc, List.nil_append,
    Parse.State.parse_opened]

theorem ofText_looped_of_body? (count : UInt32) (h : ofText text = .ok (program statements))
    (hbody : body? statements = some body) (hnesting : body.nesting < nestingLimit) :
    ofText (looped count text) = .ok (program [loop count body]) := by
  obtain ⟨hstatements, hspelling⟩ := statements_of_ofTokens h
  have hloop : [loop count body].flatMap spelling =
      .loop :: .number count :: .quote :: (statements.flatMap spelling ++ [.quote]) := by
    simp [spelling, isSpine_of_body? hbody, spelling_body? hbody]
  apply ofTokens_eq_ok_of_spelling
  · intro statement hs
    obtain rfl := List.mem_singleton.1 hs
    exact ⟨.quoted (fun statement hs => (hstatements statement hs).1) hbody, hnesting⟩
  · rw [Token.beforeEnd_ofText_looped count (complete_of_ofTokens h), hloop, ← hspelling]
    simp only [List.map_cons, List.map_append, List.map_nil]
    rfl

theorem ofText_looped_of_nil (count : UInt32) (h : ofText text = .ok (program [])) :
    ofText (looped count text) =
      .error ⟨.missingStatement, text.toList.count '\n' + 2, .quote⟩ := by
  obtain ⟨stop, hparse⟩ := exists_ofText_looped_eq count h
  have hnil : Token.beforeEnd (Token.ofText text) = [] :=
    List.map_eq_nil_iff.1 (statements_of_ofTokens h).2
  rw [hparse, hnil]
  exact Parse.State.parse_cons_of_next?_eq_none rfl rfl

theorem ofText_looped_of_nesting (count : UInt32) (h : ofText text = .ok (program statements))
    (hnesting : (program statements).nesting = nestingLimit) :
    ∃ token ∈ Token.ofText text, token.kind = .loop ∧
      ofText (looped count text) = .error ⟨.nestedTooDeep, token.line, .loop⟩ := by
  rcases Parse.State.run?_opened_of_ofTokens count h with
    hfits | ⟨read, token, rest, middle, heq, hdeep, hread⟩
  · have hle : (program statements).nesting ≤ nestingLimit - 1 := by
      rw [nesting_program_le_iff]
      intro statement hs
      exact Nat.le_sub_one_of_lt (hfits statement hs)
    rw [hnesting] at hle
    exact absurd hle (by decide)
  · obtain ⟨stop, hparse⟩ := exists_ofText_looped_eq count h
    refine ⟨token, ?_, hdeep.kind_eq, ?_⟩
    · rw [Token.ofText_eq, heq]
      simp
    · rw [hparse, heq, List.append_assoc, Parse.State.parse_append_of_run? hread]
      exact Parse.State.parse_within_of_tooDeep
        (Parse.Scope.isBase_quoted count (.program [])) 0 hdeep _

/-- A loop around the text of a program does what the program does as often as it counts. A program
without statements is no loop's body, nor is one that nests as deep as a program may. -/
theorem ofText_looped (count : UInt32) (text : String) (tree : Tree) (h : ofText text = .ok tree) :
    (tree.statements ≠ [] → tree.nesting < nestingLimit →
      ∃ body, body? tree.statements = some body ∧
        ofText (looped count text) = .ok (program [loop count body]) ∧
        ∀ {σ : Type u} (agent : Agent σ) (state : σ),
          agent.execute text state = (.ok (), agent.actAll tree.actions state) ∧
          agent.execute (looped count text) state =
            (.ok (), agent.actAll (List.replicate count.toNat tree.actions).flatten state)) ∧
    (tree.statements = [] → ofText (looped count text) =
      .error ⟨.missingStatement, text.toList.count '\n' + 2, .quote⟩) ∧
    (tree.nesting = nestingLimit → ∃ token ∈ Token.ofText text, token.kind = .loop ∧
      ofText (looped count text) = .error ⟨.nestedTooDeep, token.line, .loop⟩) := by
  obtain ⟨statements, rfl, hstatements, _⟩ := exists_statements_of_ofTokens h
  rw [statements_program_of_isStatement fun statement hs => (hstatements statement hs).1]
  refine ⟨?_, ?_, ofText_looped_of_nesting count h⟩
  · intro hne hnesting
    obtain ⟨body, hbody⟩ := Option.ne_none_iff_exists'.1 (mt body?_eq_none_iff.1 hne)
    have hle : body.nesting ≤ (program statements).nesting :=
      (nesting_body?_le_iff hbody).2 (nesting_program_le_iff.1 (Nat.le_refl _))
    have hlooped := ofText_looped_of_body? count h hbody (Nat.lt_of_le_of_lt hle hnesting)
    have hactions : (program [loop count body]).actions =
        (List.replicate count.toNat (program statements).actions).flatten := by
      rw [actions_program, actions_program, ← actions_body? hbody, List.flatMap_singleton, actions]
    refine ⟨body, hbody, hlooped, ?_⟩
    intro σ agent state
    refine ⟨Agent.execute_of_ok h, ?_⟩
    rw [Agent.execute_of_ok hlooped, hactions]
  · rintro rfl
    exact ofText_looped_of_nil count h

/-- Loops around one another, as many as `depth`. -/
def nest (depth : Nat) : Tree :=
  Nat.repeat (loop 1) depth (leaf .penUp)

theorem isStatement_nest (depth : Nat) : (nest depth).IsStatement := by
  induction depth with
  | zero => exact .leaf nofun
  | succ depth ih => exact .bare ih

theorem nesting_nest (depth : Nat) : (nest depth).nesting = depth := by
  induction depth with
  | zero => rfl
  | succ depth ih => exact congrArg (· + 1) ih

theorem colors_nest (depth : Nat) : (nest depth).colors = [] := by
  induction depth with
  | zero => rfl
  | succ depth ih => exact ih

theorem ofText_source_nest {depth : Nat} (h : depth ≤ nestingLimit) :
    ofText (program [nest depth]).source = .ok (program [nest depth]) := by
  apply ofText_source_of_isCanonical
  refine ⟨_, rfl, ?_⟩
  intro statement hs
  obtain rfl := List.mem_singleton.1 hs
  refine ⟨isStatement_nest depth, Nat.le_trans (Nat.le_of_eq (nesting_nest depth)) h, ?_⟩
  rw [colors_nest]
  nofun

theorem ofText_looped_three :
    ofText (looped 3 "DOWN. % a dash\nREPEAT 2 FORWARD 1. % or two") =
        .ok (program [loop 3 (seq (leaf .penDown) (last (loop 2 (leaf (.move .forward 1)))))]) ∧
      Agent.recorder.execute (looped 3 "DOWN. % a dash\nREPEAT 2 FORWARD 1. % or two") #[] =
        (.ok (), #[.penDown, .move 1, .move 1, .penDown, .move 1, .move 1, .penDown, .move 1,
          .move 1]) ∧
      ofText (looped 3 "% nothing\n") = .error ⟨.missingStatement, 3, .quote⟩ ∧
      ∃ line, ofText (looped 3 (program [nest nestingLimit]).source) =
        .error ⟨.nestedTooDeep, line, .loop⟩ := by
  have hdash : Token.ofText "DOWN. % a dash\nREPEAT 2 FORWARD 1. % or two" =
      [⟨.penDown, 1⟩, ⟨.period, 1⟩, ⟨.loop, 2⟩, ⟨.number 2, 2⟩, ⟨.move .forward, 2⟩,
        ⟨.number 1, 2⟩, ⟨.period, 2⟩, ⟨.endOfInput, 2⟩] := by decide +kernel
  have hnothing : Token.ofText "% nothing\n" = [⟨.endOfInput, 0⟩] := by decide +kernel
  have h := ofText_looped.{0} 3 "DOWN. % a dash\nREPEAT 2 FORWARD 1. % or two"
    (program [leaf .penDown, loop 2 (leaf (.move .forward 1))])
    ((congrArg ofTokens hdash).trans rfl)
  obtain ⟨body, hbody, hlooped, hrun⟩ := h.1 (List.cons_ne_nil _ _) (by decide)
  cases hbody
  refine ⟨hlooped, (hrun Agent.recorder #[]).2.trans (by decide), ?_, ?_⟩
  · exact (ofText_looped.{0} 3 "% nothing\n" (program [])
      ((congrArg ofTokens hnothing).trans rfl)).2.1 rfl
  · have hdeep : (program [nest nestingLimit]).nesting = nestingLimit :=
      (Nat.max_eq_left (Nat.zero_le _)).trans (nesting_nest nestingLimit)
    obtain ⟨token, _, _, hlooped⟩ := (ofText_looped.{0} 3 _ _
      (ofText_source_nest (Nat.le_refl nestingLimit))).2.2 hdeep
    exact ⟨token.line, hlooped⟩

end Tree

end TurtleGraphics
