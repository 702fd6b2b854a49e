import TurtleGraphics.Proofs.Segmentation
import TurtleGraphics.Scan

/-! The loop over positions finds the tokens that the pieces of a text have, whatever the units are
that encode its characters. -/
namespace TurtleGraphics

namespace Scan

variable {α : Type} {find : Finder α} {isNewline : α → Bool} {input before after : List α}
  {state next : State} {m : Lexeme.Match}

theorem slice_append (before rest : List α) :
    slice (before ++ rest) before.length (before ++ rest).length = .ok rest := by
  have hle : before.length ≤ (before ++ rest).length := by simp
  rw [slice, if_pos ⟨hle, Nat.le_refl _⟩, List.drop_left]
  simp

theorem slice_middle (before taken rest : List α) :
    slice (before ++ (taken ++ rest)) before.length (before.length + taken.length) =
      .ok taken := by
  have hle : before.length + taken.length ≤ (before ++ (taken ++ rest)).length := by
    simp only [List.length_append]
    omega
  rw [slice, if_pos ⟨Nat.le_add_right _ _, hle⟩, List.drop_left, Nat.add_sub_cancel_left,
    List.take_left]

theorem State.accept_eq (state : State) (lexeme : Lexeme) (newlines : Nat) :
    state.accept lexeme newlines =
      { state with
        line := state.line + newlines
        tokens := state.tokens ++
          Lexeme.tokensBetween state.line (state.line + newlines) (some lexeme) } := by
  rcases lexeme with kind | count | _
  · rfl
  · cases count <;> simp [accept, push, skipLines, Lexeme.tokensBetween]
  · simp [accept, skipLines, Lexeme.tokensBetween]

theorem State.extendGap_extendGap (state : State) (units others : Nat) :
    (state.extendGap units).extendGap others = state.extendGap (units + others) := by
  simp [extendGap, Nat.add_assoc]

theorem State.closeGap_of_inGap (h : state.inGap = true) :
    state.closeGap = { state with
      inGap := false
      tokens := state.tokens ++ [⟨.unrecognized, state.line⟩] } := by
  rw [closeGap, if_pos h]
  rfl

theorem State.closeGap_of_not_inGap (h : state.inGap = false) : state.closeGap = state := by
  rw [closeGap, h, if_neg Bool.false_ne_true]

theorem State.line_closeGap (state : State) : state.closeGap.line = state.line := by
  unfold closeGap
  split <;> rfl

theorem State.inGap_closeGap (state : State) : state.closeGap.inGap = false := by
  cases h : state.inGap with
  | true => rw [closeGap_of_inGap h]
  | false => rw [closeGap_of_not_inGap h, h]

theorem run_of_step (hinside : state.position < input.length)
    (hstep : step find isNewline input state = .ok next)
    (hnext : state.position < next.position) :
    run find isNewline input state = run find isNewline input next := by
  rw [run, if_pos hinside, hstep]
  exact if_pos hnext

theorem run_of_length_le (h : input.length ≤ state.position) :
    run find isNewline input state = .ok state := by
  rw [run, if_neg (Nat.not_lt.2 h)]

theorem step_of_none (hinput : input = before ++ after) (hposition : state.position = before.length)
    (hfind : find after = .ok none) :
    step find isNewline input state = .ok (state.extendGap 1) := by
  subst input
  rw [step, hposition, slice_append]
  simp only [bind, Except.bind, hfind]
  rfl

theorem step_of_some {taken : List α} (hinput : input = before ++ (taken ++ after))
    (hposition : state.position = before.length) (hlength : m.length = taken.length)
    (hfind : find (taken ++ after) = .ok (some m)) :
    step find isNewline input state =
      .ok ((state.closeGap.accept m.lexeme (taken.countP isNewline)).moveTo
        (state.position + taken.length)) := by
  subst input
  rw [step, hposition, slice_append]
  simp only [bind, Except.bind, hfind, hlength, slice_middle]
  rfl

/-- Units that stand for characters: at least one for each, and just one for those that lexemes are
made of. From the first unit of a character on, the lexeme is found that the text starts with there,
and from a later one on none is. -/
structure Encodes (encode : Char → List α) (find : Finder α) (isNewline : α → Bool) : Prop where
  ne_nil : ∀ c, encode c ≠ []
  single : ∀ c, Lexeme.isLexical c = true →
    ∃ unit, encode c = [unit] ∧ isNewline unit = (c == '\n')
  find_eq : ∀ text : List Char, find (text.flatMap encode) = .ok (Lexeme.match? text)
  find_inside : ∀ (c : Char) (read unread : List α) (text : List Char),
    encode c = read ++ unread → read ≠ [] → unread ≠ [] →
    find (unread ++ text.flatMap encode) = .ok none

variable {encode : Char → List α} {text rest gap : List Char} {c : Char} {lexeme : Lexeme}
  {units : List α} {line position : Nat} {pieces : List Piece}

theorem Encodes.length_flatMap (h : Encodes encode find isNewline)
    (htext : ∀ c ∈ text, Lexeme.isLexical c = true) :
    (text.flatMap encode).length = text.length := by
  induction text with
  | nil => rfl
  | cons c text ih =>
    obtain ⟨hc, htext⟩ := List.forall_mem_cons.1 htext
    obtain ⟨unit, hunit, _⟩ := h.single c hc
    rw [List.flatMap_cons, hunit, List.singleton_append, List.length_cons, ih htext,
      List.length_cons]

theorem Encodes.countP_flatMap (h : Encodes encode find isNewline)
    (htext : ∀ c ∈ text, Lexeme.isLexical c = true) :
    (text.flatMap encode).countP isNewline = text.count '\n' := by
  induction text with
  | nil => rfl
  | cons c text ih =>
    obtain ⟨hc, htext⟩ := List.forall_mem_cons.1 htext
    obtain ⟨unit, hunit, hnewline⟩ := h.single c hc
    rw [List.flatMap_cons, hunit, List.singleton_append, List.countP_cons, hnewline, ih htext,
      List.count_cons]

theorem Encodes.step_lexeme (h : Encodes encode find isNewline)
    (hmatch : Lexeme.match? (text ++ rest) = some ⟨lexeme, text.length⟩)
    (hinput : input = before ++ (text ++ rest).flatMap encode)
    (hposition : state.position = before.length) :
    step find isNewline input state =
      .ok ((state.closeGap.accept lexeme (text.count '\n')).moveTo
        (state.position + text.length)) := by
  obtain ⟨more, hform, _⟩ := Lexeme.match?_append_eq_some_iff.1 hmatch
  have hlength := h.length_flatMap hform.isLexical_of_mem
  have hfind := h.find_eq (text ++ rest)
  rw [hmatch, List.flatMap_append] at hfind
  rw [List.flatMap_append] at hinput
  rw [step_of_some hinput hposition hlength.symm hfind, h.countP_flatMap hform.isLexical_of_mem,
    hlength]

/-- A scan goes on through units of which none starts a lexeme, the gap open all the while. -/
theorem run_units (isNewline : α → Bool)
    (hnone : ∀ read unread, units = read ++ unread → unread ≠ [] →
      find (unread ++ after) = .ok none)
    (hne : units ≠ []) (hinput : input = before ++ (units ++ after))
    (hposition : state.position = before.length) :
    run find isNewline input state =
      run find isNewline input (state.extendGap units.length) := by
  induction units generalizing before state with
  | nil => exact (hne rfl).elim
  | cons unit units ih =>
    have hinside : state.position < input.length := by
      rw [hinput, hposition, List.length_append]
      exact Nat.lt_add_of_pos_right (Nat.succ_pos _)
    have hfind := hnone [] (unit :: units) rfl (List.cons_ne_nil _ _)
    rw [run_of_step hinside (step_of_none hinput hposition hfind) (Nat.lt_succ_self _)]
    by_cases hend : units = []
    · subst units
      rfl
    · have hlater : ∀ read unread, units = read ++ unread → unread ≠ [] →
          find (unread ++ after) = .ok none := by
        intro read unread hsplit
        exact hnone (unit :: read) unread (congrArg (unit :: ·) hsplit)
      have hinput : input = (before ++ [unit]) ++ (units ++ after) := by
        rw [hinput, List.append_assoc]
        rfl
      have hposition : (state.extendGap 1).position = (before ++ [unit]).length := by
        rw [State.extendGap, hposition, List.length_append]
        rfl
      rw [ih hlater hend hinput hposition, State.extendGap_extendGap, List.length_cons,
        Nat.add_comm 1]

/-- A character that starts no lexeme lengthens the gap by all of its units. -/
theorem Encodes.run_char (h : Encodes encode find isNewline)
    (hnone : Lexeme.match? (c :: rest) = none)
    (hinput : input = before ++ (c :: rest).flatMap encode)
    (hposition : state.position = before.length) :
    run find isNewline input state =
      run find isNewline input (state.extendGap (encode c).length) := by
  refine run_units isNewline ?_ (h.ne_nil c) hinput hposition
  intro read unread hsplit hunread
  cases read with
  | nil =>
    obtain rfl : encode c = unread := hsplit
    have hfind := h.find_eq (c :: rest)
    rwa [hnone] at hfind
  | cons unit read => exact h.find_inside c _ _ rest hsplit (List.cons_ne_nil _ _) hunread

theorem Encodes.run_gap (h : Encodes encode find isNewline) (hgap : Piece.IsGap gap rest)
    (hinput : input = before ++ (gap ++ rest).flatMap encode)
    (hposition : state.position = before.length) :
    run find isNewline input state =
      run find isNewline input (state.extendGap (gap.flatMap encode).length) := by
  obtain ⟨hne, hnone, hmaximal⟩ := hgap
  induction gap generalizing before state with
  | nil => exact (hne rfl).elim
  | cons c gap ih =>
    rw [h.run_char (hnone [] (c :: gap) rfl (List.cons_ne_nil _ _)) hinput hposition]
    by_cases hend : gap = []
    · subst gap
      simp
    · have hinput : input = (before ++ encode c) ++ (gap ++ rest).flatMap encode := by
        rw [hinput, List.append_assoc, List.cons_append, List.flatMap_cons]
      have hposition : (state.extendGap (encode c).length).position =
          (before ++ encode c).length := by
        rw [State.extendGap, hposition, List.length_append]
      have hlater : ∀ skipped others, gap = skipped ++ others → others ≠ [] →
          Lexeme.match? (others ++ rest) = none := by
        intro skipped others hsplit
        exact hnone (c :: skipped) others (congrArg (c :: ·) hsplit)
      rw [ih hinput hposition hend hlater, State.extendGap_extendGap, List.flatMap_cons,
        List.length_append]

/-- A lexeme closes the gap before it. -/
theorem Encodes.exists_run_lexeme (h : Encodes encode find isNewline)
    (hmatch : Lexeme.match? (text ++ rest) = some ⟨lexeme, text.length⟩)
    (hinput : input = before ++ (text ++ rest).flatMap encode)
    (hposition : state.position = before.length) :
    ∃ next, run find isNewline input state = run find isNewline input next ∧
      next.position = state.position + (text.flatMap encode).length ∧
      next.line = state.line + text.count '\n' ∧ next.inGap = false ∧
      next.tokens = state.closeGap.tokens ++
        Lexeme.tokensBetween state.line (state.line + text.count '\n') (some lexeme) := by
  obtain ⟨more, hform, _⟩ := Lexeme.match?_append_eq_some_iff.1 hmatch
  have hlength := h.length_flatMap hform.isLexical_of_mem
  have hpos : 0 < text.length := Lexeme.match?_pos hmatch
  have hinside : state.position < input.length := by
    rw [hinput, hposition, List.flatMap_append, List.length_append, List.length_append, hlength]
    omega
  have hstep := h.step_lexeme hmatch hinput hposition
  rw [State.accept_eq, State.line_closeGap] at hstep
  exact ⟨_, run_of_step hinside hstep (Nat.lt_add_of_pos_right hpos),
    congrArg (state.position + ·) hlength.symm, rfl, state.inGap_closeGap, rfl⟩

/-- A scan takes in the pieces of a text one after another. -/
theorem Encodes.exists_run_eq_ok (h : Encodes encode find isNewline)
    (hpieces : Piece.Segmentation line text pieces)
    (hinput : input = before ++ text.flatMap encode) (hposition : state.position = before.length)
    (hline : state.line = line)
    (hgap : state.inGap = true → ∀ piece ∈ pieces.head?, piece.isGap = false) :
    ∃ final, run find isNewline input state = .ok final ∧
      final.closeGap.tokens = state.closeGap.tokens ++ pieces.flatMap Piece.tokens := by
  induction pieces generalizing line text before state with
  | nil =>
    obtain rfl := hpieces.text_eq
    refine ⟨state, run_of_length_le ?_, (List.append_nil _).symm⟩
    simp [hinput, hposition]
  | cons piece pieces ih =>
    obtain ⟨rfl, hstands, htail, rfl⟩ := Piece.segmentation_cons_iff.1 hpieces
    have hnextInput : input = (before ++ piece.text.flatMap encode) ++
        (pieces.flatMap Piece.text).flatMap encode := by
      rw [hinput, List.flatMap_append, List.append_assoc]
    have hlength : (before ++ piece.text.flatMap encode).length =
        state.position + (piece.text.flatMap encode).length := by
      rw [List.length_append, hposition]
    rw [List.flatMap_cons, ← List.append_assoc, Piece.tokens_eq, ← hline]
    cases hlexeme : piece.lexeme? with
    | some lexeme =>
      rw [Piece.Stands, hlexeme] at hstands
      obtain ⟨next, hrun, hnextPosition, hnextLine, hnextGap, hnextTokens⟩ :=
        h.exists_run_lexeme hstands hinput hposition
      have hend : next.line = piece.endLine := by rw [hnextLine, hline, Piece.endLine]
      have hopen : next.inGap = true → ∀ piece ∈ pieces.head?, piece.isGap = false := by
        intro hopened
        cases hnextGap.symm.trans hopened
      obtain ⟨final, hfinal, htokens⟩ :=
        ih htail hnextInput (hnextPosition.trans hlength.symm) hend hopen
      refine ⟨final, hrun.trans hfinal, ?_⟩
      rw [htokens, State.closeGap_of_not_inGap hnextGap, hnextTokens, ← hnextLine, hend]
    | none =>
      have hisGap : piece.isGap = true := by rw [Piece.isGap, hlexeme]; rfl
      have hclosed : state.inGap = false := by
        cases hopen : state.inGap with
        | false => rfl
        | true => exact hisGap.symm.trans (hgap hopen piece rfl)
      have hcount : piece.text.count '\n' = 0 :=
        List.count_eq_zero.2
          (Piece.newline_not_mem_of_isGap hpieces List.mem_cons_self hisGap)
      have hend : (state.extendGap (piece.text.flatMap encode).length).line = piece.endLine := by
        rw [State.extendGap, hline, Piece.endLine, hcount, Nat.add_zero]
      have hopen : (state.extendGap (piece.text.flatMap encode).length).inGap = true →
          ∀ next ∈ pieces.head?, next.isGap = false := by
        intro _ next hnext
        obtain ⟨others, rfl⟩ := List.head?_eq_some_iff.1 hnext
        have hsplit : piece :: next :: others = [] ++ piece :: next :: others := rfl
        exact Piece.not_isGap_of_isGap_before hpieces hsplit hisGap
      rw [Piece.Stands, hlexeme] at hstands
      obtain ⟨final, hfinal, htokens⟩ := ih htail hnextInput hlength.symm hend hopen
      refine ⟨final, (h.run_gap hstands hinput hposition).trans hfinal, ?_⟩
      rw [htokens, State.closeGap_of_not_inGap hclosed, State.closeGap_of_inGap rfl]
      rfl

theorem Encodes.tokens_eq (h : Encodes encode find isNewline) (text : List Char) :
    tokens find isNewline (text.flatMap encode) = .ok (Token.ofPieces (Piece.cut text)) := by
  have hpieces := Piece.segmentation_cutFrom 1 text
  have hposition : State.initial.position = ([] : List α).length := rfl
  obtain ⟨final, hfinal, htokens⟩ :=
    h.exists_run_eq_ok hpieces (List.nil_append _).symm hposition rfl nofun
  rw [tokens, hfinal, Except.map, htokens]
  rfl

/-- Every position lies at the start of a character or inside one. -/
theorem exists_split_of_lt (hposition : position < (text.flatMap encode).length) :
    ∃ before c rest read unread, text = before ++ c :: rest ∧ encode c = read ++ unread ∧
      unread ≠ [] ∧ position = (before.flatMap encode).length + read.length := by
  induction text generalizing position with
  | nil => cases hposition
  | cons c text ih =>
    by_cases hfirst : position < (encode c).length
    · refine ⟨[], c, text, (encode c).take position, (encode c).drop position, rfl,
        (List.take_append_drop _ _).symm, ?_, ?_⟩
      · rw [Ne, List.drop_eq_nil_iff]
        exact Nat.not_le.2 hfirst
      · rw [List.length_take, Nat.min_eq_left (Nat.le_of_lt hfirst)]
        exact (Nat.zero_add position).symm
    · have hlater : position - (encode c).length < (text.flatMap encode).length := by
        rw [List.flatMap_cons, List.length_append] at hposition
        omega
      obtain ⟨before, d, rest, read, unread, rfl, hsplit, hunread, heq⟩ := ih hlater
      refine ⟨c :: before, d, rest, read, unread, rfl, hsplit, hunread, ?_⟩
      rw [List.flatMap_cons, List.length_append]
      omega

/-- What is found at a position is a lexeme of the text that starts and ends with whole
characters. -/
theorem Encodes.exists_find (h : Encodes encode find isNewline)
    (hposition : position < (text.flatMap encode).length) :
    ∃ found, find ((text.flatMap encode).drop position) = .ok found ∧
      ∀ m ∈ found, ∃ before taken rest, text = before ++ (taken ++ rest) ∧
        position = (before.flatMap encode).length ∧ m.length = taken.length ∧
        Lexeme.match? (taken ++ rest) = some m := by
  obtain ⟨before, c, rest, read, unread, rfl, hsplit, hunread, rfl⟩ :=
    exists_split_of_lt hposition
  have hdrop : ((before ++ c :: rest).flatMap encode).drop
      ((before.flatMap encode).length + read.length) = unread ++ rest.flatMap encode := by
    rw [List.flatMap_append, List.flatMap_cons, hsplit, ← List.drop_drop, List.drop_left,
      List.append_assoc, List.drop_left]
  rw [hdrop]
  cases read with
  | nil =>
    obtain rfl : encode c = unread := hsplit
    refine ⟨_, h.find_eq (c :: rest), ?_⟩
    intro m hm
    have hle := (Lexeme.match?_isSound hm).length_le
    refine ⟨before, (c :: rest).take m.length, (c :: rest).drop m.length, ?_, rfl, ?_, ?_⟩
    · rw [List.take_append_drop]
    · rw [List.length_take, Nat.min_eq_left hle]
    · rw [List.take_append_drop]
      exact hm
  | cons unit read =>
    exact ⟨none, h.find_inside c _ _ rest hsplit (List.cons_ne_nil _ _) hunread, nofun⟩

/-- In whatever state, a round goes through and moves on, and not past the end. -/
theorem Encodes.exists_step_eq_ok (h : Encodes encode find isNewline)
    (hinside : state.position < (text.flatMap encode).length) :
    ∃ next, step find isNewline (text.flatMap encode) state = .ok next ∧
      state.position < next.position ∧ next.position ≤ (text.flatMap encode).length := by
  obtain ⟨found, hfound, hlexeme⟩ := h.exists_find hinside
  cases found with
  | none =>
    have hinput := (List.take_append_drop state.position (text.flatMap encode)).symm
    have hlength : state.position = ((text.flatMap encode).take state.position).length := by
      rw [List.length_take, Nat.min_eq_left (Nat.le_of_lt hinside)]
    exact ⟨_, step_of_none hinput hlength hfound, Nat.lt_succ_self _, hinside⟩
  | some m =>
    obtain ⟨before, taken, rest, rfl, hposition, hlength, hmatch⟩ := hlexeme m rfl
    obtain ⟨lexeme, length⟩ := m
    obtain rfl : length = taken.length := hlength
    obtain ⟨more, hform, _⟩ := Lexeme.match?_append_eq_some_iff.1 hmatch
    have hunits := h.length_flatMap hform.isLexical_of_mem
    have hpos : 0 < taken.length := Lexeme.match?_pos hmatch
    have hinput : (before ++ (taken ++ rest)).flatMap encode =
        before.flatMap encode ++ (taken ++ rest).flatMap encode := List.flatMap_append
    refine ⟨_, h.step_lexeme hmatch hinput hposition, Nat.lt_add_of_pos_right hpos, ?_⟩
    simp only [State.moveTo, List.flatMap_append, List.length_append]
    omega

end Scan

end TurtleGraphics
