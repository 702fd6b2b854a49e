import TurtleGraphics.Proofs.Actions
import TurtleGraphics.Proofs.RoundTrip

/-! Trees that are no programs yet but have the text of one. Putting such a tree in order changes
neither its text nor what it does. -/
namespace TurtleGraphics

universe u

namespace Tree

variable {tree statement : Tree} {n : Nat}

/-- No spine stands as a statement, and every loop's body holds a statement. End markers may stand
anywhere else, and a spine may end in anything. -/
def IsPrintable : Tree → Prop
  | seq current rest => current.isSpine = false ∧ current.IsPrintable ∧ rest.IsPrintable
  | last current => current.isSpine = false ∧ current.IsPrintable
  | loop _ body => body.statements ≠ [] ∧ body.IsPrintable
  | leaf _ => True

/-- The tree with each loop's body that is a spine chained anew from its statements. -/
def tidyLoops : Tree → Tree
  | seq current rest => seq current.tidyLoops rest.tidyLoops
  | last current => last current.tidyLoops
  | loop count body =>
    loop count <|
      if body.isSpine then (body? body.tidyLoops.statements).getD endMarker else body.tidyLoops
  | leaf instruction => leaf instruction

/-- The program of the tree's statements, put in order. -/
def tidy (tree : Tree) : Tree :=
  program tree.tidyLoops.statements

@[simp] theorem isSpine_tidyLoops (tree : Tree) : tree.tidyLoops.isSpine = tree.isSpine := by
  cases tree <;> rfl

@[simp] theorem isEnd_tidyLoops (tree : Tree) : tree.tidyLoops.isEnd = tree.isEnd := by
  cases tree <;> rfl

theorem statements_tidyLoops (tree : Tree) :
    tree.tidyLoops.statements = tree.statements.map tidyLoops := by
  induction tree with
  | seq current rest _ ihr =>
    simp only [tidyLoops, statements, isEnd_tidyLoops, ihr]
    split <;> rfl
  | last current _ =>
    simp only [tidyLoops, statements, isEnd_tidyLoops]
    split <;> rfl
  | loop | leaf =>
    rw [statements_of_isSpine_eq_false ((isSpine_tidyLoops _).trans rfl), isEnd_tidyLoops,
      statements_of_isSpine_eq_false rfl]
    split <;> rfl

theorem exists_body?_tidyLoops (h : tree.statements ≠ []) :
    ∃ body, body? tree.tidyLoops.statements = some body := by
  apply Option.ne_none_iff_exists'.1
  intro hnone
  apply h
  have hnil := body?_eq_none_iff.1 hnone
  rwa [statements_tidyLoops, List.map_eq_nil_iff] at hnil

/-- A loop's body in order is the spine of its statements, or the one statement it was. -/
theorem tidyLoops_loop_cases (count : UInt32) {body : Tree} (h : body.statements ≠ []) :
    (∃ tidied, body.isSpine = true ∧ body? body.tidyLoops.statements = some tidied ∧
      (loop count body).tidyLoops = loop count tidied) ∨
    (body.isSpine = false ∧ body.tidyLoops.statements = [body.tidyLoops] ∧
      (loop count body).tidyLoops = loop count body.tidyLoops) := by
  cases hspine : body.isSpine with
  | true =>
    obtain ⟨tidied, htidied⟩ := exists_body?_tidyLoops h
    left
    refine ⟨tidied, rfl, htidied, ?_⟩
    simp [tidyLoops, hspine, htidied]
  | false =>
    right
    have hend : body.isEnd = false := by
      rw [statements_of_isSpine_eq_false hspine] at h
      by_contra hend
      simp [hend] at h
    refine ⟨rfl, ?_, ?_⟩
    · rw [statements_of_isSpine_eq_false (by simpa using hspine), isEnd_tidyLoops, hend,
        if_neg Bool.false_ne_true]
    · simp [tidyLoops, hspine]

/-- What is gathered from the statements of a spine, and from a loop by way of its body, is the same
once the tree is in order. -/
theorem Gathers.tidyLoops_eq {α : Type u} {f g : Tree → List α} (h : Gathers f g)
    (hspine : ∀ tree other, tree.isSpine = other.isSpine → f tree = f other → g tree = g other)
    (hloop : ∀ count body other, g body = g other → f (loop count body) = f (loop count other))
    (tree : Tree) (hprintable : tree.IsPrintable) : f tree.tidyLoops = f tree := by
  induction tree with
  | seq current rest ihc ihr =>
    rw [tidyLoops, h.seq_eq, h.seq_eq, ihr hprintable.2.2,
      hspine _ _ (isSpine_tidyLoops current) (ihc hprintable.2.1)]
  | last current ih =>
    rw [tidyLoops, h.last_eq, h.last_eq,
      hspine _ _ (isSpine_tidyLoops current) (ih hprintable.2)]
  | loop count body ih =>
    have hbody := ih hprintable.2
    rcases tidyLoops_loop_cases count hprintable.1 with ⟨tidied, hs, htidied, heq⟩ | ⟨_, _, heq⟩
    · have hgathered : f tidied = f body := by
        rw [h.body?_eq htidied, h.flatMap_statements, hbody]
      rw [heq]
      exact hloop _ _ _ (hspine _ _ ((isSpine_of_body? htidied).trans hs.symm) hgathered)
    · rw [heq]
      exact hloop _ _ _ (hspine _ _ (isSpine_tidyLoops body) hbody)
  | leaf instruction => rfl

theorem colors_tidyLoops (h : tree.IsPrintable) : tree.tidyLoops.colors = tree.colors :=
  gathers_colors.tidyLoops_eq (fun _ _ _ heq => heq) (fun _ _ _ heq => heq) tree h

theorem actions_tidyLoops (h : tree.IsPrintable) : tree.tidyLoops.actions = tree.actions := by
  apply gathers_actions.tidyLoops_eq (fun _ _ _ heq => heq) _ tree h
  intro count body other heq
  rw [actions, actions, heq]

theorem statementSources_tidyLoops (h : tree.IsPrintable) :
    tree.tidyLoops.statementSources = tree.statementSources := by
  apply gathers_statementSources.tidyLoops_eq _ _ tree h
  · intro tree other hspine heq
    simp only [enclose, hspine, heq]
  · intro count body other heq
    rw [statementSources, statementSources, heq]

theorem actions_tidy (h : tree.IsPrintable) : tree.tidy.actions = tree.actions := by
  rw [tidy, actions_program, gathers_actions.flatMap_statements, actions_tidyLoops h]

theorem source_tidy (h : tree.IsPrintable) : tree.tidy.source = tree.source := by
  have hsources : tree.tidy.statementSources = tree.statementSources := by
    rw [tidy, gathers_statementSources.program_eq, gathers_statementSources.flatMap_statements,
      statementSources_tidyLoops h]
  rw [source, source, hsources]

theorem statements_seq_of_isSpine_eq_false {current : Tree} (h : current.isSpine = false)
    (rest : Tree) : (seq current rest).statements = current.statements ++ rest.statements := by
  rw [statements, statements_of_isSpine_eq_false h]
  split <;> rfl

theorem statements_last_of_isSpine_eq_false {current : Tree} (h : current.isSpine = false) :
    (last current).statements = current.statements := by
  rw [statements, statements_of_isSpine_eq_false h]

theorem isStatement_of_mem_tidyLoops (h : tree.IsPrintable) :
    ∀ statement ∈ tree.tidyLoops.statements, statement.IsStatement := by
  induction tree with
  | seq current rest ihc ihr =>
    obtain ⟨hspine, hcurrent, hrest⟩ := h
    rw [tidyLoops, statements_seq_of_isSpine_eq_false (by simpa using hspine)]
    exact List.forall_mem_append.2 ⟨ihc hcurrent, ihr hrest⟩
  | last current ih =>
    obtain ⟨hspine, hcurrent⟩ := h
    rw [tidyLoops, statements_last_of_isSpine_eq_false (by simpa using hspine)]
    exact ih hcurrent
  | loop count body ih =>
    obtain ⟨hne, hbody⟩ := h
    have hstatements := ih hbody
    rcases tidyLoops_loop_cases count hne with ⟨tidied, _, htidied, heq⟩ | ⟨_, hsingle, heq⟩
    · rw [heq]
      exact List.forall_mem_singleton.2 (.quoted hstatements htidied)
    · rw [hsingle] at hstatements
      rw [heq]
      exact List.forall_mem_singleton.2 (.bare (hstatements _ List.mem_cons_self))
  | leaf instruction =>
    cases instruction with
    | endMarker => nofun
    | _ => exact List.forall_mem_singleton.2 (.leaf nofun)

theorem nesting_le_of_mem_statements :
    ∀ statement ∈ tree.statements, statement.nesting ≤ tree.nesting := by
  induction tree with
  | seq current rest _ ihr =>
    intro statement hs
    rw [nesting]
    simp only [statements] at hs
    split at hs
    · exact le_max_of_le_right (ihr statement hs)
    · rcases List.mem_cons.1 hs with rfl | hs
      · exact le_max_left _ _
      · exact le_max_of_le_right (ihr statement hs)
  | last current _ =>
    intro statement hs
    simp only [statements] at hs
    split at hs
    · cases hs
    · obtain rfl := List.mem_singleton.1 hs
      exact Nat.le_refl _
  | loop | leaf =>
    intro statement hs
    rw [statements_of_isSpine_eq_false rfl] at hs
    split at hs
    · cases hs
    · obtain rfl := List.mem_singleton.1 hs
      exact Nat.le_refl _

theorem nesting_tidyLoops_le (h : tree.IsPrintable) : tree.tidyLoops.nesting ≤ tree.nesting := by
  induction tree with
  | seq current rest ihc ihr => exact max_le_max (ihc h.2.1) (ihr h.2.2)
  | last current ih => exact ih h.2
  | loop count body ih =>
    have hbody := ih h.2
    rcases tidyLoops_loop_cases count h.1 with ⟨tidied, _, htidied, heq⟩ | ⟨_, _, heq⟩
    · rw [heq]
      refine Nat.succ_le_succ ((nesting_body?_le_iff htidied).2 ?_)
      intro statement hs
      exact Nat.le_trans (nesting_le_of_mem_statements statement hs) hbody
    · rw [heq]
      exact Nat.succ_le_succ hbody
  | leaf instruction => exact Nat.le_refl _

theorem isCanonical_tidy (h : tree.IsPrintable) (hcolors : ∀ color ∈ tree.colors, color.IsCode)
    (hnesting : tree.nesting ≤ nestingLimit) : tree.tidy.IsCanonical := by
  refine ⟨_, rfl, ?_⟩
  intro statement hs
  refine ⟨isStatement_of_mem_tidyLoops h statement hs, ?_, ?_⟩
  · have hle := nesting_le_of_mem_statements statement hs
    have htidy := nesting_tidyLoops_le h
    omega
  · intro color hcolor
    apply hcolors
    rw [← colors_tidyLoops h, ← gathers_colors.flatMap_statements]
    exact List.mem_flatMap_of_mem hs hcolor

theorem ofText_source_of_isPrintable (h : tree.IsPrintable)
    (hcolors : ∀ color ∈ tree.colors, color.IsCode) (hnesting : tree.nesting ≤ nestingLimit) :
    ofText tree.source = .ok tree.tidy := by
  rw [← source_tidy h]
  exact ofText_source_of_isCanonical (isCanonical_tidy h hcolors hnesting)

theorem evaluate_tidy {σ : Type u} (agent : Agent σ) (h : tree.IsPrintable) (state : σ) :
    agent.evaluate tree.tidy state = agent.evaluate tree state := by
  rw [Agent.evaluate_eq_actAll, Agent.evaluate_eq_actAll, actions_tidy h]

/-- Putting a tree in order changes neither its text nor what it tells an agent, and the text is
read as the tree in order. -/
theorem ofText_source_eq_tidy (tree : Tree) (hprintable : tree.IsPrintable)
    (hcolors : ∀ color ∈ tree.colors, color.IsCode) (hnesting : tree.nesting ≤ nestingLimit) :
    tree.source = tree.tidy.source ∧ ofText tree.source = .ok tree.tidy ∧
      tree.tidy.actions = tree.actions ∧
      ∀ {σ : Type u} (agent : Agent σ) (state : σ),
        agent.evaluate tree.tidy state = agent.evaluate tree state :=
  ⟨(source_tidy hprintable).symm, ofText_source_of_isPrintable hprintable hcolors hnesting,
    actions_tidy hprintable, fun agent state => evaluate_tidy agent hprintable state⟩

/-- An end marker before a loop around a program, and a spine that ends in a bare loop. -/
theorem ofText_source_eq_tidy_loose_ends :
    ofText "REPEAT 2 \"COLOR #00FF00. FORWARD 5.\"\nREPEAT 3 LEFT 90.\n" =
        .ok (program [loop 2 (seq (leaf (.setColor ⟨"#00FF00"⟩)) (last (leaf (.move .forward 5)))),
          loop 3 (leaf (.move .left 90))]) ∧
      Agent.recorder.evaluate (seq endMarker
          (seq (loop 2 (program [leaf (.setColor ⟨"#00FF00"⟩), leaf (.move .forward 5)]))
            (loop 3 (leaf (.move .left 90))))) #[] =
        #[.setColor ⟨"#00FF00"⟩, .move 5, .setColor ⟨"#00FF00"⟩, .move 5, .turn 90, .turn 90,
          .turn 90] := by
  have hprintable : (seq endMarker (seq (loop 2 (program [leaf (.setColor ⟨"#00FF00"⟩),
      leaf (.move .forward 5)])) (loop 3 (leaf (.move .left 90))))).IsPrintable := by
    simp [IsPrintable, program, endMarker, isSpine, statements, isEnd]
  have hcolors : ∀ color ∈ (seq endMarker (seq (loop 2 (program [leaf (.setColor ⟨"#00FF00"⟩),
      leaf (.move .forward 5)])) (loop 3 (leaf (.move .left 90))))).colors, color.IsCode := by
    intro color hcolor
    obtain rfl := List.mem_singleton.1 hcolor
    exact ⟨"00FF00".toList, rfl, rfl, by simp⟩
  have hsource : (seq endMarker (seq (loop 2 (program [leaf (.setColor ⟨"#00FF00"⟩),
      leaf (.move .forward 5)])) (loop 3 (leaf (.move .left 90))))).source =
      "REPEAT 2 \"COLOR #00FF00. FORWARD 5.\"\nREPEAT 3 LEFT 90.\n" := by decide
  have h := ofText_source_eq_tidy.{0} _ hprintable hcolors (by decide)
  rw [hsource] at h
  exact ⟨h.2.1, (h.2.2.2 Agent.recorder #[]).symm.trans (by decide)⟩

end Tree

end TurtleGraphics
