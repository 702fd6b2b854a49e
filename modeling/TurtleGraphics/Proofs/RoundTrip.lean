import TurtleGraphics.Proofs.Concatenation
import TurtleGraphics.Proofs.SourceText

/-! The text of a program is read as that program, the k-th statement on the k-th line. -/
namespace TurtleGraphics

namespace Tree

variable {tree statement body : Tree} {statements : List Tree}

theorem hasBodies_program (h : ∀ statement ∈ statements, statement.HasBodies) :
    (program statements).HasBodies := by
  induction statements with
  | nil => trivial
  | cons statement statements ih =>
    obtain ⟨hfirst, hrest⟩ := List.forall_mem_cons.1 h
    exact ⟨hfirst, ih hrest⟩

theorem hasBodies_body? (hbody : body? statements = some body)
    (h : ∀ statement ∈ statements, statement.HasBodies) : body.HasBodies := by
  induction statements, body, hbody using body?_induction with
  | single tree => exact h tree List.mem_cons_self
  | more tree statements body _ ih =>
    obtain ⟨hfirst, hrest⟩ := List.forall_mem_cons.1 h
    exact ⟨hfirst, ih hrest⟩

theorem isEnd_eq_false_of_body? (h : body? statements = some body) : body.isEnd = false := by
  have hspine := isSpine_of_body? h
  cases body with
  | leaf => cases hspine
  | _ => rfl

theorem IsStatement.hasBodies (h : statement.IsStatement) : statement.HasBodies := by
  induction h with
  | leaf => trivial
  | bare hbody ih => exact ⟨hbody.isEnd_eq_false, ih⟩
  | quoted _ hbody ih => exact ⟨isEnd_eq_false_of_body? hbody, hasBodies_body? hbody ih⟩

theorem flatMap_encloseKinds
    (h : ∀ statement ∈ statements, statement.IsStatement ∧
      statement.statementKinds = [statement.spelling]) :
    (statements.flatMap fun statement => statement.encloseKinds statement.statementKinds) =
      statements.map spelling := by
  rw [← List.flatMap_singleton' (statements.map spelling), List.flatMap_map]
  apply List.flatMap_congr
  intro statement hs
  rw [encloseKinds_of_isSpine_eq_false (h statement hs).1.isSpine_eq_false, (h statement hs).2]

theorem statementKinds_of_isStatement (h : statement.IsStatement) :
    statement.statementKinds = [statement.spelling] := by
  induction h with
  | leaf hend => exact statementKinds_leaf hend
  | bare hbody ih =>
    rw [statementKinds, encloseKinds_of_isSpine_eq_false hbody.isSpine_eq_false, ih, spelling,
      hbody.isSpine_eq_false, if_neg Bool.false_ne_true, List.flatten_singleton]
  | quoted hstatements hbody ih =>
    have hspine := isSpine_of_body? hbody
    have hkinds := gathers_statementKinds.body?_eq hbody
    rw [flatMap_encloseKinds fun statement hs => ⟨hstatements statement hs, ih statement hs⟩]
      at hkinds
    rw [statementKinds, encloseKinds_of_isSpine hspine, hkinds, spelling, hspine, if_pos rfl,
      spelling_body? hbody, List.flatten_singleton, List.flatMap_def]

theorem statementKinds_program (h : ∀ statement ∈ statements, statement.IsStatement) :
    (program statements).statementKinds = statements.map spelling := by
  rw [gathers_statementKinds.program_eq]
  exact flatMap_encloseKinds fun statement hs =>
    ⟨h statement hs, statementKinds_of_isStatement (h statement hs)⟩

theorem forall_mem_colors_program
    (h : ∀ statement ∈ statements, ∀ color ∈ statement.colors, color.IsCode) :
    ∀ color ∈ (program statements).colors, color.IsCode := by
  intro color hcolor
  rw [gathers_colors.program_eq] at hcolor
  obtain ⟨statement, hs, hcolor⟩ := List.mem_flatMap.1 hcolor
  exact h statement hs color hcolor

theorem ofText_source_of_isCanonical (h : tree.IsCanonical) : ofText tree.source = .ok tree := by
  obtain ⟨statements, rfl, h⟩ := h
  have hstatements : ∀ statement ∈ statements, statement.IsStatement :=
    fun statement hs => (h statement hs).1
  apply ofTokens_eq_ok_of_spelling
  · intro statement hs
    exact ⟨hstatements statement hs, (h statement hs).2.1⟩
  · rw [Token.beforeEnd_ofText, map_normal_read_source, statementKinds_program hstatements,
      List.flatMap_def]
    · exact hasBodies_program fun statement hs => (hstatements statement hs).hasBodies
    · exact forall_mem_colors_program fun statement hs => (h statement hs).2.2

/-- The trees that are read back from their own text are the canonical ones, and these are also
all that any text gives. -/
theorem ofText_source_eq_ok_iff (tree : Tree) :
    (ofText tree.source = .ok tree ↔ tree.IsCanonical) ∧
      ∀ text, ofText text = .ok tree → tree.IsCanonical ∧ ofText tree.source = .ok tree ∧
        (ofText tree.source).map source = .ok tree.source := by
  refine ⟨⟨isCanonical_of_ofText, ofText_source_of_isCanonical⟩, ?_⟩
  intro text h
  have hcanonical := isCanonical_of_ofText h
  have hread := ofText_source_of_isCanonical hcanonical
  refine ⟨hcanonical, hread, ?_⟩
  rw [hread]
  rfl

theorem ofText_source_two_strokes :
    ofText "REPEAT 2 \"COLOR #00FF00. FORWARD 10.\"\nUP.\n" =
      .ok (program [loop 2 (seq (leaf (.setColor ⟨"#00FF00"⟩)) (last (leaf (.move .forward 10)))),
        leaf .penUp]) := by
  have hsource : (program [loop 2 (seq (leaf (.setColor ⟨"#00FF00"⟩))
      (last (leaf (.move .forward 10)))), leaf .penUp]).source =
      "REPEAT 2 \"COLOR #00FF00. FORWARD 10.\"\nUP.\n" := by decide
  rw [← hsource]
  refine (ofText_source_eq_ok_iff _).1.2 ⟨_, rfl, ?_⟩
  intro statement hs
  simp only [List.mem_cons, List.not_mem_nil, or_false] at hs
  rcases hs with rfl | rfl
  · refine ⟨@IsStatement.quoted 2 [leaf (.setColor ⟨"#00FF00"⟩), leaf (.move .forward 10)] _ ?_ rfl,
      by decide, ?_⟩
    · intro statement hs
      simp only [List.mem_cons, List.not_mem_nil, or_false] at hs
      rcases hs with rfl | rfl <;> exact .leaf nofun
    · intro color hcolor
      obtain rfl := List.mem_singleton.1 hcolor
      exact ⟨"00FF00".toList, rfl, rfl, by simp⟩
  · exact ⟨.leaf nofun, by decide, nofun⟩

end Tree

namespace Token

variable {texts : List (List Kind)}

theorem onLines_eq (line : Nat) (texts : List (List Kind)) :
    onLines line texts =
      (texts.zipIdx line).flatMap fun (kinds, line) => kinds.map (⟨·, line⟩) := by
  induction texts generalizing line with
  | nil => rfl
  | cons kinds others ih =>
    rw [onLines, ih, List.zipIdx_cons, List.flatMap_cons]

theorem line_getLast?_onLines (hne : ∀ kinds ∈ texts, kinds ≠ []) (line : Nat) :
    ((onLines (line + 1) texts).getLast?.map Token.line).getD line = line + texts.length := by
  induction texts generalizing line with
  | nil => rfl
  | cons kinds others ih =>
    obtain ⟨hfirst, hrest⟩ := List.forall_mem_cons.1 hne
    have hlast := ih hrest (line + 1)
    rw [onLines, List.getLast?_append, List.length_cons]
    cases hothers : (onLines (line + 1 + 1) others).getLast? with
    | none =>
      rw [hothers] at hlast
      simp only [Option.map_none, Option.getD_none] at hlast
      simp only [List.getLast?_map, List.getLast?_eq_some_getLast hfirst, Option.map_some,
        Option.or_some, Option.getD_some, Option.getD_none]
      omega
    | some token =>
      rw [hothers] at hlast
      simp only [Option.map_some, Option.getD_some] at hlast
      simp only [Option.some_or, Option.map_some, Option.getD_some]
      omega

theorem stop_onLines (hne : ∀ kinds ∈ texts, kinds ≠ []) :
    stop (onLines 1 texts) = ⟨.endOfInput, texts.length⟩ := by
  have hline := line_getLast?_onLines hne 0
  rw [Nat.zero_add, Nat.zero_add] at hline
  rw [stop, hline]

end Token

namespace Tree

variable {statement : Tree} {statements : List Tree}

theorem IsStatement.spelling_ne_nil (h : statement.IsStatement) : statement.spelling ≠ [] := by
  intro hnil
  rcases h.getLast?_spelling with hlast | hlast <;> simp [hnil] at hlast

theorem read_source_program (h : ∀ statement ∈ statements, statement.IsStatement ∧
      ∀ color ∈ statement.colors, color.IsCode) :
    Token.read 1 (Comment.remove (program statements).source.toList) =
      Token.onLines 1 (statements.map spelling) := by
  rw [← statementKinds_program fun statement hs => (h statement hs).1]
  apply read_source
  · exact hasBodies_program fun statement hs => (h statement hs).1.hasBodies
  · exact forall_mem_colors_program fun statement hs => (h statement hs).2

/-- The text of a program has the k-th of its statements on line k, alone and whole, however deep
its loops nest. -/
theorem ofText_source_line_by_line (statements : List Tree)
    (h : ∀ statement ∈ statements, statement.IsStatement ∧
      ∀ color ∈ statement.colors, color.IsCode) :
    Token.ofText (program statements).source =
        ((statements.zipIdx 1).flatMap fun (statement, line) =>
          statement.spelling.map (⟨·, line⟩)) ++ [⟨.endOfInput, statements.length⟩] ∧
      ∀ token ∈ Token.ofText (program statements).source, token.kind ≠ .unrecognized := by
  have hne : ∀ kinds ∈ statements.map spelling, kinds ≠ [] :=
    List.forall_mem_map.2 fun statement hs => (h statement hs).1.spelling_ne_nil
  have htokens : Token.ofText (program statements).source =
      ((statements.zipIdx 1).flatMap fun (statement, line) =>
        statement.spelling.map (⟨·, line⟩)) ++ [⟨.endOfInput, statements.length⟩] := by
    rw [Token.ofText_eq, Token.beforeEnd_ofText, read_source_program h, Token.stop_onLines hne,
      Token.onLines_eq, List.zipIdx_map, List.flatMap_map, List.length_map]
    rfl
  refine ⟨htokens, ?_⟩
  intro token htoken hkind
  rw [htokens] at htoken
  rcases List.mem_append.1 htoken with htoken | htoken
  · obtain ⟨⟨statement, line⟩, _, htoken⟩ := List.mem_flatMap.1 htoken
    obtain ⟨kind, hmem, rfl⟩ := List.mem_map.1 htoken
    obtain rfl : kind = .unrecognized := hkind
    exact unrecognized_not_mem_spelling statement hmem
  · obtain rfl := List.mem_singleton.1 htoken
    cases hkind

/-- A loop whose quotes hold a loop, on line 1. -/
theorem ofText_source_line_by_line_nested :
    Token.ofText "REPEAT 2 \"COLOR #00FF00. REPEAT 3 \"LEFT 9.\"\"\nUP.\n" =
      [⟨.loop, 1⟩, ⟨.number 2, 1⟩, ⟨.quote, 1⟩, ⟨.color, 1⟩, ⟨.colorLiteral "#00FF00", 1⟩,
        ⟨.period, 1⟩, ⟨.loop, 1⟩, ⟨.number 3, 1⟩, ⟨.quote, 1⟩, ⟨.move .left, 1⟩, ⟨.number 9, 1⟩,
        ⟨.period, 1⟩, ⟨.quote, 1⟩, ⟨.quote, 1⟩, ⟨.penUp, 2⟩, ⟨.period, 2⟩, ⟨.endOfInput, 2⟩] := by
  have hsource : (program [loop 2 (seq (leaf (.setColor ⟨"#00FF00"⟩))
      (last (loop 3 (last (leaf (.move .left 9)))))), leaf .penUp]).source =
      "REPEAT 2 \"COLOR #00FF00. REPEAT 3 \"LEFT 9.\"\"\nUP.\n" := by decide
  have hinner : IsStatement (loop 3 (last (leaf (.move .left 9)))) := by
    refine @IsStatement.quoted 3 [leaf (.move .left 9)] _ ?_ rfl
    intro statement hs
    obtain rfl := List.mem_singleton.1 hs
    exact .leaf nofun
  have hstatements : ∀ statement ∈ [loop 2 (seq (leaf (.setColor ⟨"#00FF00"⟩))
      (last (loop 3 (last (leaf (.move .left 9)))))), leaf .penUp],
      statement.IsStatement ∧ ∀ color ∈ statement.colors, color.IsCode := by
    simp only [List.forall_mem_cons, List.not_mem_nil, false_implies, implies_true, and_true]
    refine ⟨⟨?_, ?_⟩, .leaf nofun, nofun⟩
    · refine @IsStatement.quoted 2 [leaf (.setColor ⟨"#00FF00"⟩), _] _ ?_ rfl
      exact List.forall_mem_cons.2 ⟨.leaf nofun, List.forall_mem_singleton.2 hinner⟩
    · intro color hcolor
      obtain rfl := List.mem_singleton.1 hcolor
      exact ⟨"00FF00".toList, rfl, rfl, by simp⟩
  rw [← hsource]
  exact (ofText_source_line_by_line _ hstatements).1

end Tree

end TurtleGraphics
