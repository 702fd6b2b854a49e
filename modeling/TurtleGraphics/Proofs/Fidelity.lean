import TurtleGraphics.Proofs.Tidy

/-! The text of a tree that holds no loop around the end marker is a program only where the tree is
printable, and a program that does the same. -/
namespace TurtleGraphics

universe u

/-- The number of spines that stand as statements. The quotes around one are no loop's. -/
def Tree.groups : Tree → Nat
  | seq current rest => (if current.isSpine then 1 else 0) + current.groups + rest.groups
  | last current => (if current.isSpine then 1 else 0) + current.groups
  | loop _ body => body.groups
  | leaf _ => 0

namespace Parse

namespace Scope

/-- A loop that waits for its body. -/
def isBare : Scope → Bool
  | bare _ _ => true
  | program _ | quoted _ _ _ => false

/-- The number of bodies whose quotes are open. -/
def quotes : Scope → Nat
  | program _ => 0
  | quoted _ _ outer => outer.quotes + 1
  | bare _ outer => outer.quotes

@[simp] theorem isBare_add (scope : Scope) (statement : Tree) :
    (scope.add statement).isBare = false := by
  induction scope generalizing statement with
  | program done => rfl
  | quoted count done outer _ => rfl
  | bare count outer ih => exact ih _

@[simp] theorem quotes_add (scope : Scope) (statement : Tree) :
    (scope.add statement).quotes = scope.quotes := by
  induction scope generalizing statement with
  | program done => rfl
  | quoted count done outer _ => rfl
  | bare count outer ih => exact ih _

/-- A scope before a tree's text and the scope after it. The quotes around a group close two bodies
that were open before it. -/
structure Passes (tree : Tree) (before after : Scope) : Prop where
  isBare_eq : after.isBare = false
  quotes_eq : after.quotes + 2 * tree.groups = before.quotes
  printable : tree.groups = 0 → tree.IsPrintable

end Scope

namespace State

variable {scope : Scope} {next : State} {tokens : List Token} {tree body current rest : Tree}
  {instruction : Instruction} {line : Nat}

/-- Wherever reading gets through the tree's text, it stands between statements again. A loop that
waits for its body has to find one in the tree. -/
def PassesText (tree : Tree) : Prop :=
  ∀ scope tokens next, (scope.isBare = true → tree.isSpine = false ∧ tree.isEnd = false) →
    tokens.map (·.kind.normal) = tree.statementKinds.flatten →
    run? ⟨.statement, scope⟩ tokens = some next →
    ∃ after, next = ⟨.statement, after⟩ ∧ scope.Passes tree after

theorem depth_lt_of_run?_loop
    (h : run? ⟨.statement, scope⟩ (⟨.loop, line⟩ :: tokens) = some next) :
    scope.depth < nestingLimit := by
  obtain ⟨_, hnext, _⟩ := Option.bind_eq_some_iff.1 h
  cases next?_eq_some_iff.1 hnext with
  | loop hdepth => exact hdepth

/-- Where no loop waits for its body, a quote closes one. -/
theorem exists_scope_of_run?_quote (hscope : scope.isBare = false)
    (h : run? ⟨.statement, scope⟩ (⟨.quote, line⟩ :: tokens) = some next) :
    ∃ after, after.isBare = false ∧ after.quotes + 1 = scope.quotes ∧
      run? ⟨.statement, after⟩ tokens = some next := by
  obtain ⟨middle, hnext, hrun⟩ := Option.bind_eq_some_iff.1 h
  cases next?_eq_some_iff.1 hnext with
  | opening => cases hscope
  | closing hbody => exact ⟨_, Scope.isBare_add _ _, by simp [Scope.quotes], hrun⟩

/-- The quote after a tree's text closes one body more than the text does. -/
theorem PassesText.exists_of_run?_closed (h : PassesText tree) (hscope : scope.isBare = false)
    (hkinds : tokens.map (·.kind.normal) = tree.statementKinds.flatten)
    (hrun : run? ⟨.statement, scope⟩ (tokens ++ [⟨.quote, line⟩]) = some next) :
    ∃ after, next = ⟨.statement, after⟩ ∧ after.isBare = false ∧
      after.quotes + 1 + 2 * tree.groups = scope.quotes ∧
      (tree.groups = 0 → tree.IsPrintable) := by
  rw [run?_append] at hrun
  obtain ⟨middle, hmiddle, hrun⟩ := Option.bind_eq_some_iff.1 hrun
  obtain ⟨closing, rfl, hpasses⟩ := h scope tokens middle (by simp [hscope]) hkinds hmiddle
  obtain ⟨after, hafter, hclose, hrun⟩ := exists_scope_of_run?_quote hpasses.isBare_eq hrun
  cases hrun
  refine ⟨after, rfl, hafter, ?_, hpasses.printable⟩
  have hquotes := hpasses.quotes_eq
  omega

theorem passesText_leaf (instruction : Instruction) : PassesText (.leaf instruction) := by
  intro scope tokens next hscope hkinds hrun
  by_cases hend : instruction = .endMarker
  · subst instruction
    obtain rfl := List.map_eq_nil_iff.1 hkinds
    cases hrun
    have hbare : scope.isBare = false := by
      by_contra h
      cases (hscope (by simpa using h)).2
    exact ⟨scope, rfl, hbare, rfl, fun _ => trivial⟩
  · rw [Tree.statementKinds_leaf hend, List.flatten_singleton] at hkinds
    rw [run?_leaf hend hkinds] at hrun
    cases hrun
    exact ⟨_, rfl, Scope.isBare_add _ _, Scope.quotes_add _ _, fun _ => trivial⟩

theorem passesText_last (h : PassesText current) : PassesText (.last current) := by
  intro scope tokens next hscope hkinds hrun
  have hbare : scope.isBare = false := by
    by_contra hbare
    cases (hscope (by simpa using hbare)).1
  rw [Tree.statementKinds] at hkinds
  cases hspine : current.isSpine with
  | false =>
    rw [Tree.encloseKinds_of_isSpine_eq_false hspine] at hkinds
    obtain ⟨after, rfl, hpasses⟩ := h scope tokens next (by simp [hbare]) hkinds hrun
    refine ⟨after, rfl, hpasses.isBare_eq, ?_, ?_⟩
    · simpa [Tree.groups, hspine] using hpasses.quotes_eq
    · intro hgroups
      refine ⟨hspine, hpasses.printable ?_⟩
      simpa [Tree.groups, hspine] using hgroups
  | true =>
    rw [Tree.encloseKinds_of_isSpine hspine, List.flatten_singleton] at hkinds
    obtain ⟨_, inner, _, rfl, hinner⟩ := Token.exists_quoted_of_map_normal hkinds
    obtain ⟨opened, hopened, hfirst, hrun⟩ := exists_scope_of_run?_quote hbare hrun
    obtain ⟨after, rfl, hafter, hquotes, _⟩ := h.exists_of_run?_closed hopened hinner hrun
    refine ⟨after, rfl, hafter, ?_, ?_⟩
    · simp only [Tree.groups, hspine, if_true]
      omega
    · intro hgroups
      simp only [Tree.groups, hspine, if_true] at hgroups
      omega

theorem passesText_seq (hcurrent : PassesText (.last current)) (hrest : PassesText rest) :
    PassesText (.seq current rest) := by
  intro scope tokens next hscope hkinds hrun
  rw [Tree.statementKinds, List.flatten_append] at hkinds
  obtain ⟨first, others, rfl, hfirst, hothers⟩ := List.map_eq_append_iff.1 hkinds
  rw [run?_append] at hrun
  obtain ⟨middle, hmiddle, hrun⟩ := Option.bind_eq_some_iff.1 hrun
  obtain ⟨between, rfl, hpasses⟩ := hcurrent scope first middle hscope hfirst hmiddle
  obtain ⟨after, rfl, hpasses'⟩ :=
    hrest between others next (by simp [hpasses.isBare_eq]) hothers hrun
  have hgroups : (Tree.seq current rest).groups = (Tree.last current).groups + rest.groups := rfl
  refine ⟨after, rfl, hpasses'.isBare_eq, ?_, ?_⟩
  · have hquotes := hpasses.quotes_eq
    have hquotes' := hpasses'.quotes_eq
    omega
  · intro hnone
    obtain ⟨hspine, hprintable⟩ := hpasses.printable (by omega)
    exact ⟨hspine, hprintable, hpasses'.printable (by omega)⟩

/-- A loop whose quotes hold no statement has kept reading from getting through its text. -/
theorem statements_ne_nil_of_run? {count : UInt32} {opened : Scope} {inner : List Token}
    (hinner : inner.map (·.kind.normal) = body.statementKinds.flatten)
    (hrun : run? ⟨.statement, .quoted count [] opened⟩ (inner ++ ⟨.quote, line⟩ :: tokens) =
      some next) : body.statements ≠ [] := by
  intro hnil
  rw [← Tree.gathers_statementKinds.flatMap_statements, hnil] at hinner
  obtain rfl := List.map_eq_nil_iff.1 hinner
  cases hrun

theorem passesText_loop (count : UInt32) (hend : body.isEnd = false) (h : PassesText body) :
    PassesText (.loop count body) := by
  intro scope tokens next _ hkinds hrun
  rw [Tree.statementKinds, List.flatten_singleton] at hkinds
  have hdepth : scope.depth < nestingLimit := by
    obtain ⟨_, _, rfl, _⟩ := Token.exists_cons_of_map_normal hkinds rfl
    exact depth_lt_of_run?_loop hrun
  obtain ⟨rest, hloop, hrest⟩ := exists_run?_loop hdepth hkinds
  rw [hloop] at hrun
  cases hspine : body.isSpine with
  | false =>
    rw [Tree.encloseKinds_of_isSpine_eq_false hspine] at hrest
    obtain ⟨after, rfl, hpasses⟩ := h _ rest next (fun _ => ⟨hspine, hend⟩) hrest hrun
    refine ⟨after, rfl, hpasses.isBare_eq, hpasses.quotes_eq, ?_⟩
    intro hgroups
    refine ⟨?_, hpasses.printable hgroups⟩
    rw [Tree.statements_of_isSpine_eq_false hspine, hend, if_neg Bool.false_ne_true]
    exact List.cons_ne_nil _ _
  | true =>
    rw [Tree.encloseKinds_of_isSpine hspine, List.flatten_singleton] at hrest
    obtain ⟨_, inner, _, rfl, hinner⟩ := Token.exists_quoted_of_map_normal hrest
    rw [run?_cons_of_step .opening] at hrun
    have hne := statements_ne_nil_of_run? hinner hrun
    obtain ⟨after, rfl, hafter, hquotes, hprintable⟩ := h.exists_of_run?_closed rfl hinner hrun
    refine ⟨after, rfl, hafter, ?_, fun hgroups => ⟨hne, hprintable hgroups⟩⟩
    simp only [Tree.groups, Scope.quotes] at hquotes ⊢
    omega

theorem passesText_of_hasBodies (h : tree.HasBodies) : PassesText tree := by
  induction tree with
  | seq current rest ihc ihr => exact passesText_seq (passesText_last (ihc h.1)) (ihr h.2)
  | last current ih => exact passesText_last (ih h)
  | loop count body ih => exact passesText_loop count h.1 (ih h.2)
  | leaf instruction => exact passesText_leaf instruction

end State

end Parse

namespace Tree

variable {tree other : Tree}

/-- Only a printable tree has a program's text. A group closes quotes that the text has not opened,
and quotes without a statement in them are no body. -/
theorem isPrintable_of_ofText_source (hbodies : tree.HasBodies)
    (hcolors : ∀ color ∈ tree.colors, color.IsCode) (h : ofText tree.source = .ok other) :
    tree.IsPrintable := by
  obtain ⟨statements, rfl, _, _⟩ := exists_statements_of_ofTokens h
  have hrun := Parse.State.run?_of_ofTokens h
  have hkinds := map_normal_read_source hbodies hcolors 1
  rw [← Token.beforeEnd_ofText] at hkinds
  obtain ⟨after, heq, hpasses⟩ :=
    Parse.State.passesText_of_hasBodies hbodies (.program []) _ _ nofun hkinds hrun
  have hquotes := hpasses.quotes_eq
  apply hpasses.printable
  simp only [Parse.Scope.quotes] at hquotes
  omega

/-- Where no loop goes around the end marker, the text of a tree is a program just when the tree is
printable. The program is then the tree in order, and tells every agent what the tree does. -/
theorem ofText_source_eq_ok_iff_tidy (tree other : Tree) (hbodies : tree.HasBodies)
    (hcolors : ∀ color ∈ tree.colors, color.IsCode) (hnesting : tree.nesting ≤ nestingLimit) :
    (ofText tree.source = .ok other ↔ tree.IsPrintable ∧ other = tree.tidy) ∧
      (ofText tree.source = .ok other → other.actions = tree.actions ∧
        ∀ {σ : Type u} (agent : Agent σ) (state : σ),
          agent.evaluate other state = agent.evaluate tree state) := by
  have hiff : ofText tree.source = .ok other ↔ tree.IsPrintable ∧ other = tree.tidy := by
    constructor
    · intro h
      have hprintable := isPrintable_of_ofText_source hbodies hcolors h
      have htidy := ofText_source_of_isPrintable hprintable hcolors hnesting
      exact ⟨hprintable, Except.ok.inj (h.symm.trans htidy)⟩
    · rintro ⟨hprintable, rfl⟩
      exact ofText_source_of_isPrintable hprintable hcolors hnesting
  refine ⟨hiff, ?_⟩
  intro h
  obtain ⟨hprintable, rfl⟩ := hiff.1 h
  exact ⟨actions_tidy hprintable, fun agent state => evaluate_tidy agent hprintable state⟩

/-- A program for a loop's body is read as one. Quotes without a statement in them are refused. -/
theorem ofText_source_eq_ok_iff_tidy_quotes :
    (ofText "REPEAT 2 \"COLOR #00FF00. UP.\"\n" =
        .ok (program [loop 2 (seq (leaf (.setColor ⟨"#00FF00"⟩)) (last (leaf .penUp)))]) ∧
      Agent.recorder.evaluate
          (program [loop 2 (seq (leaf (.setColor ⟨"#00FF00"⟩)) (last (leaf .penUp)))]) #[] =
        Agent.recorder.evaluate
          (loop 2 (program [leaf (.setColor ⟨"#00FF00"⟩), leaf .penUp])) #[]) ∧
      ∀ other, ofText "REPEAT 2 \"\"\n" ≠ .ok other := by
  constructor
  · have hcolors : ∀ color ∈ (loop 2 (program [leaf (.setColor ⟨"#00FF00"⟩), leaf .penUp])).colors,
        color.IsCode := by
      intro color hcolor
      obtain rfl := List.mem_singleton.1 hcolor
      exact ⟨"00FF00".toList, rfl, rfl, by simp⟩
    have hsource : (loop 2 (program [leaf (.setColor ⟨"#00FF00"⟩), leaf .penUp])).source =
        "REPEAT 2 \"COLOR #00FF00. UP.\"\n" := by decide
    have h := ofText_source_eq_ok_iff_tidy.{0} _
      (program [loop 2 (seq (leaf (.setColor ⟨"#00FF00"⟩)) (last (leaf .penUp)))])
      (by simp [HasBodies, program, endMarker, isEnd]) hcolors (by decide)
    have hprogram := h.1.2
      ⟨by simp [IsPrintable, program, endMarker, isSpine, statements, isEnd], by decide⟩
    exact ⟨hsource ▸ hprogram, (h.2 hprogram).2 Agent.recorder #[]⟩
  · intro other hother
    have h := ofText_source_eq_ok_iff_tidy.{0} (loop 2 (last endMarker)) other
      ⟨rfl, trivial⟩ (List.forall_mem_nil _) (by decide)
    have hsource : (loop 2 (last endMarker)).source = "REPEAT 2 \"\"\n" := by decide
    exact (h.1.1 (hsource ▸ hother)).1.1 rfl

/-! ### Loops around the end marker -/

variable {statement : Tree} {statements : List Tree} {count : UInt32}

/-- The line that a loop around the end marker has in a program's text. -/
def loopLine (count : UInt32) : List Char :=
  "REPEAT".toList ++ ([' '] ++ (Nat.toDigits 10 count.toNat ++ [' ', '\n']))

theorem loopLine_eq (count : UInt32) :
    loopLine count =
      "REPEAT".toList ++ ([' '] ++ (Nat.toDigits 10 count.toNat ++ [' ', '\n'])) := rfl

theorem toList_source_loop_endMarker (count : UInt32) (rest : Tree) :
    (seq (loop count endMarker) rest).source.toList = loopLine count ++ rest.source.toList := by
  have hloop : (seq (loop count endMarker) rest).source =
      "REPEAT " ++ count.toNat.repr ++ " " ++ String.join [] ++ "\n" ++ rest.source := by
    rw [source, source]
    simp [statementSources, enclose, isSpine, endMarker]
  rw [hloop, loopLine_eq]
  simp

theorem remove_loopLine_append (count : UInt32) (rest : List Char) :
    Comment.remove (loopLine count ++ rest) = loopLine count ++ Comment.remove rest := by
  have hdigits := Token.isPlain_of_isRun (Lexeme.isRun_toDigits count.toNat)
  have hreturn : '\r' ∉ Nat.toDigits 10 count.toNat := fun h => nomatch hdigits _ h
  have hcomment : '%' ∉ Nat.toDigits 10 count.toNat := fun h => nomatch hdigits _ h
  apply Comment.remove_append
  · simp [loopLine_eq, hreturn]
  · simp [loopLine_eq, hcomment]

/-- The count takes the end of the line along as well. -/
theorem read_loopLine_append (count : UInt32) (line : Nat) {rest : List Char}
    (hrest : Lexeme.StartsApart rest) :
    Token.read line (loopLine count ++ rest) =
      ⟨.loop, line⟩ :: ⟨.number count, line + 1⟩ :: Token.read (line + 1) rest := by
  have hdigits := Lexeme.isRun_toDigits count.toNat
  have hspace : Lexeme.IsRun Lexeme.isSeparator [' '] :=
    ⟨List.cons_ne_nil _ _, List.all_eq_true.1 rfl⟩
  have hbreak : Lexeme.IsRun Lexeme.isSeparator [' ', '\n'] :=
    ⟨List.cons_ne_nil _ _, List.all_eq_true.1 rfl⟩
  have hword : "repeat".toList ∈ Lexeme.loopWords := List.mem_cons_self
  have htyped : "REPEAT".toList.map Char.toLower = "repeat".toList := rfl
  have hmatch := Lexeme.match?_loopWord hword htyped hspace hdigits hbreak hrest
  rw [Lexeme.value?_toDigits] at hmatch
  have hlines : (loopLine count).count '\n' = 1 := by
    rw [loopLine_eq, List.count_append, List.count_append, List.count_append,
      Token.count_newline_of_isPlain (Token.isPlain_of_isRun hdigits)]
    rfl
  have hline : Lexeme.match? (loopLine count ++ rest) =
      some ⟨.loop (some count), (loopLine count).length⟩ := by
    simpa only [loopLine_eq, List.append_assoc] using hmatch
  rw [Token.read_append_of_match hline, hlines]
  rfl

/-- The kinds of a loop that starts a program are those of the program that its body starts, after
the loop's own. -/
theorem flatten_statementKinds_program_loop (count : UInt32) (statement : Tree)
    (statements : List Tree) :
    (program (loop count statement :: statements)).statementKinds.flatten =
      .loop :: .number count :: (program (statement :: statements)).statementKinds.flatten := by
  have hcons : ∀ first, (program (first :: statements)).statementKinds =
      first.encloseKinds first.statementKinds ++ (program statements).statementKinds :=
    fun _ => rfl
  rw [hcons, hcons, encloseKinds_of_isSpine_eq_false rfl, statementKinds, List.flatten_append,
    List.flatten_singleton, List.flatten_append]
  rfl

/-- A loop around the end marker takes what follows for its body: the text is the one of a program
in which the loop goes around that. -/
theorem ofText_source_loop_endMarker
    (h : (program (loop count statement :: statements)).IsCanonical) :
    ofText (program (loop count endMarker :: statement :: statements)).source =
      .ok (program (loop count statement :: statements)) := by
  obtain ⟨others, heq, hothers⟩ := h
  obtain rfl := program_injective heq
  obtain ⟨⟨hloop, hnesting, hcolors⟩, hrest⟩ := List.forall_mem_cons.1 hothers
  have hkinds := statementKinds_program fun statement hs => (hothers statement hs).1
  have hbodies : (program (statement :: statements)).HasBodies := by
    refine ⟨hloop.hasBodies.2, hasBodies_program ?_⟩
    intro statement hs
    exact (hrest statement hs).1.hasBodies
  have hcodes : ∀ color ∈ (program (statement :: statements)).colors, color.IsCode := by
    refine forall_mem_colors_program (List.forall_mem_cons.2 ⟨hcolors, ?_⟩)
    intro statement hs
    exact (hrest statement hs).2.2
  have hsource : (program (loop count endMarker :: statement :: statements)).source.toList =
      loopLine count ++ (program (statement :: statements)).source.toList :=
    toList_source_loop_endMarker count _
  apply ofTokens_eq_ok_of_spelling
  · intro statement hs
    exact ⟨(hothers statement hs).1, (hothers statement hs).2.1⟩
  · rw [List.flatMap_def, ← hkinds, Token.beforeEnd_ofText, hsource, remove_loopLine_append,
      read_loopLine_append count 1 (startsApart_source hbodies hcodes), List.map_cons,
      List.map_cons, map_normal_read_source hbodies hcodes, flatten_statementKinds_program_loop]
    rfl

/-- The move is made three times where the tree makes it once. -/
theorem ofText_source_loop_endMarker_forward :
    (∀ color ∈ (program [loop 3 endMarker, leaf (.move .forward 1)]).colors, color.IsCode) ∧
      (program [loop 3 endMarker, leaf (.move .forward 1)]).nesting ≤ nestingLimit ∧
      ofText (program [loop 3 endMarker, leaf (.move .forward 1)]).source =
        .ok (program [loop 3 (leaf (.move .forward 1))]) ∧
      Agent.recorder.evaluate (program [loop 3 (leaf (.move .forward 1))]) #[] ≠
        Agent.recorder.evaluate (program [loop 3 endMarker, leaf (.move .forward 1)]) #[] := by
  have hcanonical : (program [loop 3 (leaf (.move .forward 1))]).IsCanonical := by
    refine ⟨_, rfl, List.forall_mem_singleton.2 ⟨.bare (.leaf nofun), by decide, nofun⟩⟩
  exact ⟨nofun, by decide, ofText_source_loop_endMarker hcanonical, by decide⟩

end Tree

end TurtleGraphics
