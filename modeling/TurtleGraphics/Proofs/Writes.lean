import TurtleGraphics.CommandLine.Run
import TurtleGraphics.Proofs.Lockstep
import TurtleGraphics.Proofs.Rows

/-! What a command line writes, and in which order: the entries of its journal that pass, then its
output, and last why it failed. -/
namespace TurtleGraphics.CommandLine

variable {α β : Type} {passes : Entry → Bool} {entries : List Entry} {text : String} {tree : Tree}
  {error : SyntaxError}

def lines (texts : List String) : String :=
  .join (texts.map (· ++ "\n"))

/-- The writes of the entries that pass. -/
def shown (passes : Entry → Bool) (entries : List Entry) : List Write :=
  (entries.filter passes).map .entry

theorem shown_append (passes : Entry → Bool) (entries others : List Entry) :
    shown passes (entries ++ others) = shown passes entries ++ shown passes others := by
  simp [shown]

theorem note_eq (passes : Entry → Bool) (entry : Entry) (writes : Array Write) :
    note passes entry writes = writes ++ (shown passes [entry]).toArray := by
  unfold note
  split
  · rename_i h
    simp [shown, h]
  · rename_i h
    simp [shown, h]

theorem noteAll_note (passes : Entry → Bool) (entries : List Entry) (writes : Array Write) :
    Journal.noteAll (note passes) entries writes = writes ++ (shown passes entries).toArray := by
  induction entries generalizing writes with
  | nil => simp [Journal.noteAll, shown]
  | cons entry entries ih =>
    have hnote : Journal.noteAll (note passes) (entry :: entries) writes =
      Journal.noteAll (note passes) entries (note passes entry writes) := rfl
    rw [hnote, ih, note_eq]
    simp only [Array.append_assoc, List.append_toArray, ← shown_append, List.singleton_append]

namespace Run

/-- A part of a run comes to a result and adds to the writes before it. -/
def Adds (part : Run α) (result : Except Failure α) (added : List Write) : Prop :=
  ∀ writes : Array Write, part.run.run writes = (result, writes ++ added.toArray)

variable {part : Run α} {next : α → Run β} {value : α} {result : Except Failure β}
  {failure : Failure} {added more : List Write}

theorem adds_pure (value : α) : Adds (pure value) (.ok value) [] := by
  intro writes
  rw [Array.append_empty]
  rfl

theorem adds_throw (failure : Failure) : Adds (throw failure : Run α) (.error failure) [] := by
  intro writes
  rw [Array.append_empty]
  rfl

theorem adds_bind (h : Adds part (.ok value) added) (hnext : Adds (next value) result more) :
    Adds (part >>= next) result (added ++ more) := by
  intro writes
  have hrun : (part >>= next).run.run writes =
      (next value).run.run (writes ++ added.toArray) := by
    simp only [ExceptT.run_bind, StateT.run_bind, h writes]
    rfl
  rw [hrun, hnext]
  simp only [Array.append_assoc, List.append_toArray]

theorem adds_bind_of_nil (h : Adds part (.ok value) []) (hnext : Adds (next value) result added) :
    Adds (part >>= next) result added :=
  adds_bind h hnext

theorem adds_bind_of_error (h : Adds part (.error failure) added) (next : α → Run β) :
    Adds (part >>= next) (.error failure) added := by
  intro writes
  simp only [ExceptT.run_bind, StateT.run_bind, h writes]
  rfl

theorem adds_modifyGet {step : Array Write → α × Array Write}
    (h : ∀ writes, step writes = (value, writes ++ added.toArray)) :
    Adds (modifyGet step) (.ok value) added := by
  intro writes
  have hrun : (modifyGet step : Run α).run.run writes =
      (.ok (step writes).1, (step writes).2) := rfl
  rw [hrun, h]

theorem adds_print (text : String) : Adds (print text) (.ok ()) [.output text] := by
  apply adds_modifyGet
  intro writes
  simp

theorem adds_printLines (texts : List String) :
    Adds (printLines texts) (.ok ()) (texts.map fun text => .output (text ++ "\n")) := by
  induction texts with
  | nil => exact adds_pure ()
  | cons text texts ih => exact adds_bind (adds_print _) ih

theorem adds_readTokens (passes : Entry → Bool) (text : String) :
    Adds (modifyGet (Journal.readTokens (note passes) text)) (.ok (Token.ofText text))
      (shown passes (Journal.ofPieces (Piece.ofText text))) := by
  apply adds_modifyGet
  intro writes
  simp only [Journal.readTokens, noteAll_note, Token.ofText]

theorem adds_readTree_of_ok {tokens : List Token} (passes : Entry → Bool)
    (h : Tree.ofTokens tokens = .ok tree) : Adds (readTree passes tokens) (.ok tree) [] := by
  have hread : ∀ writes, Journal.readTree (note passes) tokens writes =
      (.ok tree, writes ++ ([] : List Write).toArray) := by
    intro writes
    rw [Journal.readTree, h, Array.append_empty]
  exact adds_bind (adds_modifyGet hread) (adds_pure _)

theorem adds_readTree_of_error {tokens : List Token} (passes : Entry → Bool)
    (h : Tree.ofTokens tokens = .error error) :
    Adds (readTree passes tokens) (.error (.parse error))
      (shown passes [Journal.refusal error]) := by
  have hread : ∀ writes, Journal.readTree (note passes) tokens writes =
      (.error error, writes ++ (shown passes [Journal.refusal error]).toArray) := by
    intro writes
    rw [Journal.readTree, h, ← note_eq]
  have hadds : Adds (readTree passes tokens) (.error (.parse error))
      (shown passes [Journal.refusal error] ++ []) :=
    adds_bind (adds_modifyGet hread) (adds_throw (.parse error))
  rwa [List.append_nil] at hadds

theorem adds_evaluate (passes : Entry → Bool) (tree : Tree) (turtle : Turtle) :
    Adds (modifyGet (Turtle.agent.evaluateNoting (note passes) tree turtle))
      (.ok (Turtle.agent.evaluate tree turtle)) (shown passes (Journal.ofTree tree)) := by
  apply adds_modifyGet
  intro writes
  rw [Agent.evaluateNoting_eq, noteAll_note]

theorem adds_note (passes : Entry → Bool) (entry : Entry) :
    Adds (modify (note passes entry)) (.ok ()) (shown passes [entry]) := by
  apply adds_modifyGet
  intro writes
  rw [note_eq]

end Run

/-! ### Whole runs -/

/-- The order of all writes: entries that pass, then output, then errors. -/
def sequence (passes : Entry → Bool) (entries : List Entry) (outputs errors : List String) :
    List Write :=
  shown passes entries ++ (outputs.map .output ++ errors.map .error)

namespace Options

variable {options : Options} {content : Except ReadFailure ByteArray} {failure : Failure}
  {added : List Write}

theorem course_of_ok (h : (options.run passes content).Adds (.ok ()) added) :
    options.course passes content = (0, added) := by
  simp only [course, h #[], Array.empty_append]

theorem course_of_error (h : (options.run passes content).Adds (.error failure) added) :
    options.course passes content = (1, added ++ [.error (failure.message ++ "\n")]) := by
  simp only [course, h #[], Array.empty_append]
  simp

theorem readText_toUTF8 (options : Options) (text : String) :
    options.readText (.ok text.toUTF8) = .ok text := by
  have hbytes : String.fromUTF8? text.toByteArray = some text := dif_pos text.isValidUTF8
  simp [readText, hbytes]

theorem course_of_unreadable (passes : Entry → Bool)
    (h : options.readText content = .error failure) :
    options.course passes content = (1, sequence passes [] [] [failure.message ++ "\n"]) := by
  have hread : Run.Adds (liftM (options.readText content) : Run String) (.error failure) [] := by
    rw [h]
    exact Run.adds_throw failure
  exact course_of_error (Run.adds_bind_of_error hread _)

theorem adds_run {result : Except Failure Unit} (htext : options.readText content = .ok text)
    (h : (options.report passes (Token.ofText text)).Adds result added) :
    (options.run passes content).Adds result
      (shown passes (Journal.ofPieces (Piece.ofText text)) ++ added) := by
  have hread : Run.Adds (liftM (options.readText content) : Run String) (.ok text) [] := by
    rw [htext]
    exact Run.adds_pure text
  exact Run.adds_bind_of_nil hread (Run.adds_bind (Run.adds_readTokens passes text) h)

theorem course_tokens (passes : Entry → Bool) (htext : options.readText content = .ok text)
    (hmode : options.mode = .tokens) :
    options.course passes content =
      (0, sequence passes (Journal.ofPieces (Piece.ofText text))
        ((Token.ofText text).map fun token => token.text ++ "\n") []) := by
  have hreport : (options.report passes (Token.ofText text)).Adds (.ok ())
      (((Token.ofText text).map Token.text).map fun text => .output (text ++ "\n")) := by
    simp only [report, hmode]
    exact Run.adds_printLines _
  rw [course_of_ok (adds_run htext hreport)]
  simp [sequence]

theorem course_of_syntaxError (passes : Entry → Bool) (htext : options.readText content = .ok text)
    (hmode : options.mode ≠ .tokens) (h : Tree.ofText text = .error error) :
    options.course passes content =
      (1, sequence passes (Journal.ofText text) [] [error.message ++ "\n"]) := by
  have hread := Run.adds_readTree_of_error passes h
  have hreport : (options.report passes (Token.ofText text)).Adds (.error (.parse error))
      (shown passes [Journal.refusal error]) := by
    unfold report
    split
    · contradiction
    all_goals exact Run.adds_bind_of_error hread _
  rw [course_of_error (adds_run htext hreport), ← shown_append, Journal.ofText_of_error h]
  rfl

theorem course_tree (passes : Entry → Bool) (htext : options.readText content = .ok text)
    (hmode : options.mode = .tree) (h : Tree.ofText text = .ok tree) :
    options.course passes content =
      (0, sequence passes (Journal.ofPieces (Piece.ofText text)) [tree.outline.indented ++ "\n"]
        []) := by
  have hreport : (options.report passes (Token.ofText text)).Adds (.ok ())
      [.output (tree.outline.indented ++ "\n")] := by
    simp only [report, hmode]
    exact Run.adds_bind_of_nil (Run.adds_readTree_of_ok passes h) (Run.adds_printLines _)
  exact course_of_ok (adds_run htext hreport)

theorem course_source (passes : Entry → Bool) (htext : options.readText content = .ok text)
    (hmode : options.mode = .source) (h : Tree.ofText text = .ok tree) :
    options.course passes content =
      (0, sequence passes (Journal.ofPieces (Piece.ofText text)) [tree.source] []) := by
  have hreport : (options.report passes (Token.ofText text)).Adds (.ok ())
      [.output tree.source] := by
    simp only [report, hmode]
    exact Run.adds_bind_of_nil (Run.adds_readTree_of_ok passes h) (Run.adds_print _)
  exact course_of_ok (adds_run htext hreport)

/-- The rows of a drawing, a segment in each. -/
def rows (places : Option Nat) (tree : Tree) : List String :=
  (Turtle.agent.evaluate tree .initial).segments.toList.map (·.text places)

theorem course_segments (passes : Entry → Bool) (htext : options.readText content = .ok text)
    (hmode : options.mode = .segments) (h : Tree.ofText text = .ok tree) :
    options.course passes content =
      (0, sequence passes
        (Journal.ofText text ++ [drawn (Turtle.agent.evaluate tree .initial)])
        ((rows options.places tree).map (· ++ "\n")) []) := by
  have hdrawn : (options.report passes (Token.ofText text)).Adds (.ok ())
      (shown passes (Journal.ofTree tree) ++
        (shown passes [drawn (Turtle.agent.evaluate tree .initial)] ++
          (rows options.places tree).map fun row => .output (row ++ "\n"))) := by
    simp only [report, hmode]
    exact Run.adds_bind_of_nil (Run.adds_readTree_of_ok passes h)
      (Run.adds_bind (Run.adds_evaluate passes tree .initial)
        (Run.adds_bind (Run.adds_note passes _) (Run.adds_printLines _)))
  rw [course_of_ok (adds_run htext hdrawn), Journal.ofText_of_ok h]
  simp [sequence, shown_append]

end Options

end TurtleGraphics.CommandLine
