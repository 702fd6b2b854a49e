import TurtleGraphics.Turtle
import TurtleGraphics.Proofs.Actions
import TurtleGraphics.Proofs.Concatenation

/-! Texts run one after another on one agent. -/
namespace TurtleGraphics

universe u

section

variable {text : String} {texts : List String} {tree : Tree} {error : SyntaxError}

/-- Whether a text is a program. -/
def isProgram (text : String) : Bool :=
  (Tree.ofText text).isOk

theorem isProgram_of_ok (h : Tree.ofText text = .ok tree) : isProgram text = true := by
  simp only [isProgram, h, Except.isOk, Except.toBool]

theorem isProgram_of_error (h : Tree.ofText text = .error error) : isProgram text = false := by
  simp only [isProgram, h, Except.isOk, Except.toBool]

theorem exists_ofText_of_isProgram (h : isProgram text = true) :
    ∃ statements, Tree.ofText text = .ok (.program statements) := by
  cases hread : Tree.ofText text with
  | ok tree =>
    obtain ⟨statements, rfl, _⟩ := Tree.exists_statements_of_ofTokens hread
    exact ⟨statements, rfl⟩
  | error error => cases h.symm.trans (isProgram_of_error hread)

theorem flatMap_actionsOfText_filter (texts : List String) :
    (texts.filter isProgram).flatMap actionsOfText = texts.flatMap actionsOfText := by
  induction texts with
  | nil => rfl
  | cons text texts ih =>
    cases hread : Tree.ofText text with
    | ok tree => simp [isProgram_of_ok hread, ih]
    | error error => simp [isProgram_of_error hread, actionsOfText_of_error hread, ih]

theorem ofText_empty : Tree.ofText "" = .ok (.program []) := by
  have htokens : Token.ofText "" = [⟨.endOfInput, 0⟩] := by decide +kernel
  exact (congrArg Tree.ofTokens htokens).trans rfl

/-- Programs below one another make one program, which tells what they tell in order. -/
theorem exists_ofText_intercalate (h : ∀ text ∈ texts, isProgram text = true) :
    ∃ statements, Tree.ofText ("\n".intercalate texts) = .ok (.program statements) ∧
      (Tree.program statements).actions = texts.flatMap actionsOfText := by
  induction texts with
  | nil => exact ⟨[], ofText_empty, rfl⟩
  | cons text texts ih =>
    obtain ⟨htext, htexts⟩ := List.forall_mem_cons.1 h
    obtain ⟨first, hfirst⟩ := exists_ofText_of_isProgram htext
    obtain ⟨rest, hrest, hactions⟩ := ih htexts
    have htold := actionsOfText_of_ok hfirst
    by_cases hnil : texts = []
    · subst texts
      refine ⟨first, ?_, ?_⟩
      · rwa [String.intercalate_singleton]
      · rw [List.flatMap_singleton, htold]
    · refine ⟨first ++ rest, ?_, ?_⟩
      · rw [String.intercalate_cons_of_ne_nil hnil]
        exact Tree.ofText_append_of_ok hfirst hrest
      · simp only [List.flatMap_cons, ← hactions, htold, Tree.actions_program,
          List.flatMap_append]

end

namespace Agent

variable {σ : Type u} {agent : Agent σ} {state : σ} {text : String} {before after : List String}
  {error : SyntaxError}

/-- Runs texts one after another and gives what came of each and the state they left the agent in.
-/
def session (agent : Agent σ) : List String → σ → List (Except SyntaxError Unit) × σ
  | [], state => ([], state)
  | text :: texts, state =>
    let (outcome, state) := agent.execute text state
    let (outcomes, state) := agent.session texts state
    (outcome :: outcomes, state)

/-- What comes of a text depends neither on the texts before it nor on the agent. -/
theorem session_eq (agent : Agent σ) (texts : List String) (state : σ) :
    agent.session texts state = (texts.map fun text => (Tree.ofText text).map fun _ => (),
      agent.actAll (texts.flatMap actionsOfText) state) := by
  induction texts generalizing state with
  | nil => rfl
  | cons text texts ih =>
    simp only [session, execute_eq, ih, List.map_cons, List.flatMap_cons, actAll_append]

theorem session_concat (agent : Agent σ) (texts : List String) (text : String) (state : σ) :
    (agent.session (texts ++ [text]) state).2 =
      agent.actAll (actionsOfText text) (agent.session texts state).2 := by
  simp only [session_eq, List.flatMap_append, List.flatMap_singleton, actAll_append]

/-- A text that is no program tells the agent nothing, whatever came before it. -/
theorem session_concat_of_error (agent : Agent σ) (texts : List String) (state : σ)
    (h : Tree.ofText text = .error error) :
    (agent.session (texts ++ [text]) state).2 = (agent.session texts state).2 := by
  rw [session_concat, actionsOfText_of_error h, actAll_nil]

theorem ofText_of_outcome
    (h : (agent.session (before ++ text :: after) state).1[before.length]? =
      some (.error error)) : Tree.ofText text = .error error := by
  have hmap : (Tree.ofText text).map (fun _ => ()) = .error error := by
    simpa [session_eq] using h
  cases hread : Tree.ofText text with
  | ok tree =>
    rw [hread] at hmap
    cases hmap
  | error other =>
    rw [hread] at hmap
    exact congrArg _ (Except.error.inj hmap)

end Agent

namespace Turtle

/-- A turtle draws after what it has drawn. -/
theorem segments_prefix_act (action : Action) (turtle : Turtle) :
    turtle.segments.toList <+: (agent.act action turtle).segments.toList := by
  cases action with
  | move distance =>
    rw [act_move, toList_segments_move]
    exact List.prefix_append _ _
  | _ => exact List.prefix_refl _

theorem segments_prefix_actAll (actions : List Action) (turtle : Turtle) :
    turtle.segments.toList <+: (agent.actAll actions turtle).segments.toList := by
  induction actions generalizing turtle with
  | nil => exact List.prefix_refl _
  | cons action actions ih => exact (segments_prefix_act action turtle).trans (ih _)

end Turtle

namespace Agent

/-- A session does what one run of its programs, joined line by line, does. A text that is no
program leaves the agent as it is, and a turtle's segments stay in front of those drawn later. -/
theorem session_eq_execute_intercalate (texts : List String) :
    (∃ tree, Tree.ofText ("\n".intercalate (texts.filter isProgram)) = .ok tree ∧
      ∀ {σ : Type u} (agent : Agent σ) (state : σ),
        (agent.session texts state).1 = texts.map (fun text => (Tree.ofText text).map fun _ => ()) ∧
        (agent.session texts state).2 = agent.actAll tree.actions state ∧
        agent.execute ("\n".intercalate (texts.filter isProgram)) state =
          (.ok (), (agent.session texts state).2)) ∧
    ∀ before text after, texts = before ++ text :: after →
      (∀ {σ : Type u} (agent : Agent σ) (state : σ) error,
        (agent.session texts state).1[before.length]? = some (.error error) →
        (agent.session (before ++ [text]) state).2 = (agent.session before state).2) ∧
      ∀ turtle, (Turtle.agent.session before turtle).2.segments.toList <+:
        (Turtle.agent.session (before ++ [text]) turtle).2.segments.toList := by
  refine ⟨?_, ?_⟩
  · obtain ⟨statements, hread, hactions⟩ := exists_ofText_intercalate fun text htext =>
      (List.mem_filter.1 htext).2
    rw [flatMap_actionsOfText_filter] at hactions
    refine ⟨_, hread, ?_⟩
    intro σ agent state
    have hsession : (agent.session texts state).2 =
        agent.actAll (Tree.program statements).actions state := by
      rw [session_eq, hactions]
    refine ⟨?_, hsession, ?_⟩
    · rw [session_eq]
    · rw [execute_of_ok hread, hsession]
  · rintro before text after rfl
    refine ⟨?_, ?_⟩
    · intro σ agent state error houtcome
      exact session_concat_of_error agent before state (ofText_of_outcome houtcome)
    · intro turtle
      rw [session_concat]
      exact Turtle.segments_prefix_actAll _ _

/-- The text in the middle breaks off after its first statement. -/
theorem session_around_error :
    (recorder.session ["DOWN. % open", "UP. LEFT 5", "FORWARD 3."] #[]).1[1]? =
        some (.error ⟨.missingPeriod, 1, .endOfInput⟩) ∧
      (recorder.session ["DOWN. % open", "UP. LEFT 5"] #[]).2 =
        (recorder.session ["DOWN. % open"] #[]).2 ∧
      recorder.execute "DOWN. % open\nFORWARD 3." #[] = (.ok (), #[.penDown, .move 3]) := by
  have hopen : Token.ofText "DOWN. % open" = [⟨.penDown, 1⟩, ⟨.period, 1⟩, ⟨.endOfInput, 1⟩] := by
    decide +kernel
  have hleft : Token.ofText "UP. LEFT 5" = [⟨.penUp, 1⟩, ⟨.period, 1⟩, ⟨.move .left, 1⟩,
      ⟨.number 5, 1⟩, ⟨.endOfInput, 1⟩] := by decide +kernel
  have hforward : Token.ofText "FORWARD 3." = [⟨.move .forward, 1⟩, ⟨.number 3, 1⟩, ⟨.period, 1⟩,
      ⟨.endOfInput, 1⟩] := by decide +kernel
  have hdown : Tree.ofText "DOWN. % open" = .ok (.program [.leaf .penDown]) :=
    (congrArg Tree.ofTokens hopen).trans rfl
  have hbroken : Tree.ofText "UP. LEFT 5" = .error ⟨.missingPeriod, 1, .endOfInput⟩ :=
    (congrArg Tree.ofTokens hleft).trans rfl
  have hmove : Tree.ofText "FORWARD 3." = .ok (.program [.leaf (.move .forward 3)]) :=
    (congrArg Tree.ofTokens hforward).trans rfl
  have houtcome : (recorder.session ["DOWN. % open", "UP. LEFT 5", "FORWARD 3."] #[]).1[1]? =
      some (.error ⟨.missingPeriod, 1, .endOfInput⟩) := by
    rw [session_eq]
    simp [hbroken, Except.map]
  have hactions : ["DOWN. % open", "UP. LEFT 5", "FORWARD 3."].flatMap actionsOfText =
      [.penDown, .move 3] := by
    simp only [List.flatMap_cons, List.flatMap_nil, actionsOfText, hdown, hbroken, hmove]
    rfl
  have hjoined : "\n".intercalate
      (["DOWN. % open", "UP. LEFT 5", "FORWARD 3."].filter isProgram) =
        "DOWN. % open\nFORWARD 3." := by
    simp [isProgram_of_ok hdown, isProgram_of_error hbroken, isProgram_of_ok hmove]
  have h := session_eq_execute_intercalate.{0} ["DOWN. % open", "UP. LEFT 5", "FORWARD 3."]
  refine ⟨houtcome, ?_, ?_⟩
  · exact (h.2 ["DOWN. % open"] "UP. LEFT 5" ["FORWARD 3."] rfl).1 recorder #[] _ houtcome
  · obtain ⟨_, _, hrun⟩ := h.1
    have hexecute := (hrun recorder #[]).2.2
    rw [hjoined, session_eq, hactions] at hexecute
    exact hexecute

end Agent

end TurtleGraphics
