import Mathlib.Data.List.Forall2
import TurtleGraphics.Journal
import TurtleGraphics.Proofs.Actions
import TurtleGraphics.Proofs.Grammar
import TurtleGraphics.Proofs.Overflow

/-! The journal of a run tells what happened in it, entry by entry. -/
namespace TurtleGraphics

universe u v

namespace Tree

variable {tree : Tree} {instruction : Instruction}

theorem mem_visits_of_loop {count : UInt32} (h : instruction ∈ (loop count tree).visits) :
    instruction ∈ tree.visits := by
  obtain ⟨_, hrepeat, hmem⟩ := List.mem_flatten.1 h
  rwa [List.eq_of_mem_replicate hrepeat] at hmem

/-- No end marker stands inside a statement. -/
theorem IsStatement.ne_endMarker_of_mem_visits (h : tree.IsStatement)
    (hmem : instruction ∈ tree.visits) : instruction ≠ .endMarker := by
  induction h with
  | leaf hleaf =>
    obtain rfl := List.mem_singleton.1 hmem
    exact hleaf
  | bare _ ih => exact ih (mem_visits_of_loop hmem)
  | quoted _ hbody ih =>
    have hmem := mem_visits_of_loop hmem
    rw [visits_body? hbody] at hmem
    obtain ⟨statement, hstatement, hmem⟩ := List.mem_flatMap.1 hmem
    exact ih statement hstatement hmem

end Tree

namespace Journal

variable {instruction : Instruction} {instructions : List Instruction} {statements : List Tree}
  {text : String} {tree : Tree} {error : SyntaxError}

/-- The entry that goes with an action: a movement is noted with its amount before the sign, all
else as the command it is. -/
inductive Records : Entry → Action → Prop
  | move (direction : Direction) (amount : UInt32) :
    Records ⟨.trace, .evaluation, direction.name ++ " " ++ amount.toNat.repr⟩
      (direction.action amount)
  | penUp : Records ⟨.trace, .evaluation, "PenUp"⟩ .penUp
  | penDown : Records ⟨.trace, .evaluation, "PenDown"⟩ .penDown
  | setColor (color : Color) :
    Records ⟨.trace, .evaluation, "SetColor(Color(" ++ Text.quoted color.text ++ "))"⟩
      (.setColor color)

theorem compact_setColor (color : Color) :
    (Outline.wrap "SetColor" color.outline).compact =
      "SetColor(Color(" ++ Text.quoted color.text ++ "))" := by
  rw [← String.toList_inj]
  simp [Outline.compact, Outline.appendCompact, Color.outline]

/-- Every instruction but the end marker is one action and one entry. -/
theorem exists_records (h : instruction ≠ .endMarker) :
    ∃ action, instruction.actions = [action] ∧ Records (Journal.instruction instruction) action := by
  cases instruction with
  | move direction amount => exact ⟨_, rfl, .move direction amount⟩
  | penUp => exact ⟨_, rfl, .penUp⟩
  | penDown => exact ⟨_, rfl, .penDown⟩
  | setColor color =>
    refine ⟨_, rfl, ?_⟩
    rw [Journal.instruction, compact_setColor]
    exact .setColor color
  | endMarker => exact (h rfl).elim

theorem forall₂_records (h : ∀ instruction ∈ instructions, instruction ≠ .endMarker) :
    List.Forall₂ Records (instructions.map Journal.instruction)
      (instructions.flatMap Instruction.actions) := by
  induction instructions with
  | nil => exact .nil
  | cons first instructions ih =>
    obtain ⟨hfirst, hrest⟩ := List.forall_mem_cons.1 h
    obtain ⟨action, haction, hrecords⟩ := exists_records hfirst
    rw [List.flatMap_cons, haction]
    exact .cons hrecords (ih hrest)

theorem ofTree_eq_map_visits (tree : Tree) :
    ofTree tree = tree.visits.map Journal.instruction := by
  rw [ofTree, Tree.walk_eq_foldl, List.foldl_flip_cons_eq_append, List.append_nil,
    List.reverse_reverse]

/-- The end marker comes last and is no action. -/
theorem exists_ofTree_program (h : ∀ statement ∈ statements, statement.IsStatement) :
    ∃ entries, ofTree (.program statements) = entries ++ [⟨.trace, .evaluation, "End"⟩] ∧
      List.Forall₂ Records entries (Tree.program statements).actions := by
  refine ⟨(statements.flatMap Tree.visits).map Journal.instruction, ?_, ?_⟩
  · rw [ofTree_eq_map_visits, Tree.visits_program, List.map_append]
    rfl
  · rw [Tree.actions_eq_flatMap_visits, Tree.visits_program, List.flatMap_append]
    simp only [List.flatMap_singleton, Instruction.actions, List.append_nil]
    apply forall₂_records
    intro instruction hmem
    obtain ⟨statement, hstatement, hmem⟩ := List.mem_flatMap.1 hmem
    exact (h statement hstatement).ne_endMarker_of_mem_visits hmem

/-- What a run notes down after the tokens are read. -/
def afterReading (text : String) : List Entry :=
  match Tree.ofText text with
  | .ok tree => ofTree tree
  | .error error => [refusal error]

theorem afterReading_of_ok (h : Tree.ofText text = .ok tree) : afterReading text = ofTree tree := by
  simp only [afterReading, h]

theorem afterReading_of_error (h : Tree.ofText text = .error error) :
    afterReading text = [refusal error] := by
  simp only [afterReading, h]

theorem ofText_of_ok (h : Tree.ofText text = .ok tree) :
    ofText text = ofPieces (Piece.ofText text) ++ ofTree tree := by
  rw [← afterReading_of_ok h]
  rfl

theorem ofText_of_error (h : Tree.ofText text = .error error) :
    ofText text = ofPieces (Piece.ofText text) ++ [refusal error] := by
  rw [← afterReading_of_error h]
  rfl

theorem ofText_eq (text : String) :
    ofText text = ((Piece.ofText text).filter Piece.isGap).map gap ++
      tokenCount (Token.ofText text) :: afterReading text := by
  rw [ofText, ofPieces, List.append_assoc]
  rfl

/-- The journal of a run is in lockstep with it. First come a note for each gap, none for digits that
32 bits do not hold, and one with the number of tokens. A text that is no program adds the message
of its error and reaches no agent. A program adds a note for each action that it tells every agent,
and one for its end marker. -/
theorem ofText_in_lockstep (text : String) :
    Piece.Segmentation 1 (Comment.remove text.toList) (Piece.ofText text) ∧
    (∀ piece ∈ Piece.ofText text, piece.isGap = false →
      ((∃ token ∈ piece.tokens, token.kind = .unrecognized) ↔
        UInt32.size ≤ Lexeme.worth piece.text)) ∧
    ∃ rest, ofText text =
        ((Piece.ofText text).filter Piece.isGap).map (fun gap =>
          ⟨.debug, .reading, "unrecognized input on line " ++ gap.line.repr⟩) ++
        ⟨.debug, .reading, "tokenized " ++ (Token.ofText text).length.repr ++ " token(s)"⟩ ::
          rest ∧
      (∀ error, Tree.ofText text = .error error →
        rest = [⟨.debug, .parsing, error.message⟩] ∧
        ∀ {σ : Type u} (agent : Agent σ) (state : σ),
          agent.execute text state = (.error error, state)) ∧
      ∀ tree, Tree.ofText text = .ok tree → ∃ entries,
        rest = entries ++ [⟨.trace, .evaluation, "End"⟩] ∧
        List.Forall₂ Records entries tree.actions ∧
        Agent.recorder.execute text #[] = (.ok (), tree.actions.toArray) ∧
        ∀ {σ : Type u} (agent : Agent σ) (state : σ),
          agent.execute text state = (.ok (), agent.actAll tree.actions state) := by
  have hpieces := Piece.segmentation_cutFrom 1 (Comment.remove text.toList)
  refine ⟨hpieces, ?_, _, ofText_eq text, ?_, ?_⟩
  · intro piece hpiece hgap
    exact Piece.exists_unrecognized_iff_worth hpieces hpiece hgap
  · intro error hread
    refine ⟨afterReading_of_error hread, ?_⟩
    intro σ agent state
    exact Agent.execute_of_error hread
  · intro tree hread
    obtain ⟨statements, rfl, hstatements, _⟩ := Tree.exists_statements_of_ofTokens hread
    obtain ⟨entries, hentries, hrecords⟩ :=
      exists_ofTree_program fun statement hs => (hstatements statement hs).1
    refine ⟨entries, (afterReading_of_ok hread).trans hentries, hrecords, ?_, ?_⟩
    · rw [Agent.execute_of_ok hread, Agent.recorder_actAll]
      simp
    · intro σ agent state
      exact Agent.execute_of_ok hread

/-- A gap and a number beyond 32 bits, of which only the gap is noted, and a loop that runs. -/
theorem ofText_in_lockstep_overflow_and_loop :
    (∃ token ∈ Piece.tokens ⟨2, "4294967296".toList, some (.token .unrecognized)⟩,
      token.kind = .unrecognized) ∧
    ofText "?\nUP 4294967296." = [⟨.debug, .reading, "unrecognized input on line 1"⟩,
      ⟨.debug, .reading, "tokenized 5 token(s)"⟩,
      ⟨.debug, .parsing, "syntax error on line 1: unrecognized input"⟩] ∧
    ∃ entries, ofText "REP 2 \"UP. BACK 3.\"" =
        ⟨.debug, .reading, "tokenized 10 token(s)"⟩ :: (entries ++ [⟨.trace, .evaluation, "End"⟩]) ∧
      List.Forall₂ Records entries [.penUp, .move (-3), .penUp, .move (-3)] := by
  have hgap : Piece.ofText "?\nUP 4294967296." = [⟨1, ['?'], none⟩, ⟨1, ['\n'], some .blank⟩,
      ⟨2, "UP".toList, some (.token .penUp)⟩, ⟨2, [' '], some .blank⟩,
      ⟨2, "4294967296".toList, some (.token .unrecognized)⟩,
      ⟨2, ['.'], some (.token .period)⟩] := by decide +kernel
  have hloop : Token.ofText "REP 2 \"UP. BACK 3.\"" = [⟨.loop, 1⟩, ⟨.number 2, 1⟩, ⟨.quote, 1⟩,
      ⟨.penUp, 1⟩, ⟨.period, 1⟩, ⟨.move .backward, 1⟩, ⟨.number 3, 1⟩, ⟨.period, 1⟩, ⟨.quote, 1⟩,
      ⟨.endOfInput, 1⟩] := by decide +kernel
  have hnogap : (Piece.ofText "REP 2 \"UP. BACK 3.\"").filter Piece.isGap = [] := by decide +kernel
  have herror : Tree.ofText "?\nUP 4294967296." = .error ⟨.unrecognized, 1, .unrecognized⟩ := by
    rw [Tree.ofText, Token.ofText, hgap]
    rfl
  have htree : Tree.ofText "REP 2 \"UP. BACK 3.\"" = .ok (.program [.loop 2
      (.seq (.leaf .penUp) (.last (.leaf (.move .backward 3))))]) :=
    (congrArg Tree.ofTokens hloop).trans rfl
  obtain ⟨_, hworth, rest, hjournal, hrest, _⟩ := ofText_in_lockstep.{0} "?\nUP 4294967296."
  obtain ⟨_, _, rest', hjournal', _, hrest'⟩ := ofText_in_lockstep.{0} "REP 2 \"UP. BACK 3.\""
  refine ⟨?_, ?_, ?_⟩
  · exact (hworth _ (by simp [hgap]) rfl).2 (by decide)
  · rw [hjournal, (hrest _ herror).1, Token.ofText, hgap]
    decide +kernel
  · obtain ⟨entries, rfl, hrecords, _⟩ := hrest' _ htree
    refine ⟨entries, ?_, hrecords⟩
    rw [hjournal', hnogap, hloop]
    rfl

end Journal

namespace Agent

variable {σ : Type u} {ω : Type v} (agent : Agent σ) (note : Entry → ω → ω)

/-- Notes do not change what an agent is told, and there is one for each instruction. -/
theorem evaluateNoting_eq (tree : Tree) (state : σ) (notes : ω) :
    agent.evaluateNoting note tree state notes =
      (agent.evaluate tree state, Journal.noteAll note (Journal.ofTree tree) notes) := by
  rw [Journal.ofTree_eq_map_visits, Journal.noteAll, List.foldl_map, evaluateNoting, evaluate,
    Tree.walk_eq_foldl, Tree.walk_eq_foldl]
  induction tree.visits generalizing state notes with
  | nil => rfl
  | cons instruction instructions ih => exact ih _ _

/-- A run that takes notes is the run and its journal in one. -/
theorem executeNoting_eq (text : String) (state : σ) (notes : ω) :
    agent.executeNoting note text state notes =
      (agent.execute text state, Journal.noteAll note (Journal.ofText text) notes) := by
  have hread : Tree.ofTokens (Token.ofPieces (Piece.ofText text)) = Tree.ofText text := rfl
  simp only [executeNoting, Journal.readTokens, Journal.readTree, execute, Journal.ofText, hread,
    evaluateNoting_eq]
  cases Tree.ofText text <;> simp [Journal.noteAll, List.foldl_append]

end Agent

end TurtleGraphics
