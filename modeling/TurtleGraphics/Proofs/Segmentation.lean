import TurtleGraphics.Piece
import TurtleGraphics.Proofs.Form

/-! A text has one cut into lexemes and gaps, and its tokens are those of the pieces. -/
namespace TurtleGraphics

namespace Piece

variable {line : Nat} {gap text after : List Char} {done pieces : List Piece} {lexeme : Lexeme}
  {piece : Piece}

/-- No lexeme starts in a gap, and the gap goes on to the next lexeme or to the end. -/
structure IsGap (text after : List Char) : Prop where
  ne_nil : text ≠ []
  no_lexeme : ∀ skipped rest, text = skipped ++ rest → rest ≠ [] →
    Lexeme.match? (rest ++ after) = none
  maximal : after ≠ [] → Lexeme.match? after ≠ none

/-- The piece is what stands before `after`. -/
def Stands (piece : Piece) (after : List Char) : Prop :=
  match piece.lexeme? with
  | some lexeme => Lexeme.match? (piece.text ++ after) = some ⟨lexeme, piece.text.length⟩
  | none => IsGap piece.text after

/-- The pieces make up a text that starts on `line`, and each knows the line it starts on. -/
structure Segmentation (line : Nat) (text : List Char) (pieces : List Piece) : Prop where
  text_eq : pieces.flatMap Piece.text = text
  stands : ∀ before piece after, pieces = before ++ piece :: after →
    piece.Stands (after.flatMap Piece.text)
  line_eq : ∀ before piece after, pieces = before ++ piece :: after →
    piece.line = line + (before.flatMap Piece.text).count '\n'

theorem IsGap.newline_not_mem (h : IsGap text after) : '\n' ∉ text := by
  intro hmem
  obtain ⟨skipped, rest, htext⟩ := List.append_of_mem hmem
  have hnone := h.no_lexeme skipped ('\n' :: rest) htext (List.cons_ne_nil _ _)
  cases hnone

/-- Where no lexeme starts, a gap does. -/
theorem exists_isGap (hne : text ≠ []) (h : Lexeme.match? text = none) :
    ∃ gap after, text = gap ++ after ∧ IsGap gap after := by
  induction text with
  | nil => exact (hne rfl).elim
  | cons c text ih =>
    by_cases hend : text ≠ [] ∧ Lexeme.match? text = none
    · obtain ⟨gap, after, rfl, hgap⟩ := ih hend.1 hend.2
      refine ⟨c :: gap, after, rfl, List.cons_ne_nil _ _, ?_, hgap.maximal⟩
      intro skipped rest hsplit hrest
      cases skipped with
      | nil =>
        cases hsplit
        exact h
      | cons d skipped => exact hgap.no_lexeme skipped rest (List.cons.inj hsplit).2 hrest
    · refine ⟨[c], text, rfl, List.cons_ne_nil _ _, ?_, ?_⟩
      · intro skipped rest hsplit hrest
        cases skipped with
        | nil =>
          cases hsplit
          exact h
        | cons d skipped =>
          have hnil := (List.append_eq_nil_iff.1 (List.cons.inj hsplit).2.symm).2
          exact (hrest hnil).elim
      · intro htext hnone
        exact hend ⟨htext, hnone⟩

theorem segmentation_nil (line : Nat) : Segmentation line [] [] := by
  refine ⟨rfl, ?_, ?_⟩
  · intro before piece after h
    exact (List.append_ne_nil_of_right_ne_nil before (List.cons_ne_nil piece after) h.symm).elim
  · intro before piece after h
    exact (List.append_ne_nil_of_right_ne_nil before (List.cons_ne_nil piece after) h.symm).elim

theorem segmentation_cons_iff :
    Segmentation line text (piece :: pieces) ↔
      piece.line = line ∧ piece.Stands (pieces.flatMap Piece.text) ∧
        Segmentation piece.endLine (pieces.flatMap Piece.text) pieces ∧
        text = piece.text ++ pieces.flatMap Piece.text := by
  constructor
  · intro h
    have hline : piece.line = line := by simpa using h.line_eq [] piece pieces rfl
    refine ⟨hline, h.stands [] piece pieces rfl, ⟨rfl, ?_, ?_⟩, h.text_eq.symm⟩
    · intro before other after hsplit
      exact h.stands (piece :: before) other after (congrArg (piece :: ·) hsplit)
    · intro before other after hsplit
      rw [h.line_eq (piece :: before) other after (congrArg (piece :: ·) hsplit), endLine, hline,
        List.flatMap_cons, List.count_append, Nat.add_assoc]
  · rintro ⟨hline, hstands, htail, rfl⟩
    refine ⟨rfl, ?_, ?_⟩
    · intro before other after hsplit
      cases before with
      | nil =>
        cases hsplit
        exact hstands
      | cons first before => exact htail.stands before other after (List.cons.inj hsplit).2
    · intro before other after hsplit
      cases before with
      | nil =>
        cases hsplit
        simpa using hline
      | cons first before =>
        cases hsplit
        rw [htail.line_eq before other after rfl, endLine, hline, List.flatMap_cons,
          List.count_append, Nat.add_assoc]

/-- Every text but the empty one starts with a piece. -/
theorem exists_stands (line : Nat) (htext : text ≠ []) :
    ∃ (piece : Piece) (after : List Char), text = piece.text ++ after ∧ piece.line = line ∧
      piece.Stands after ∧ piece.text ≠ [] := by
  cases hmatch : Lexeme.match? text with
  | none =>
    obtain ⟨gap, after, rfl, hgap⟩ := exists_isGap htext hmatch
    exact ⟨⟨line, gap, none⟩, after, rfl, rfl, hgap, hgap.ne_nil⟩
  | some m =>
    have hle := (Lexeme.match?_isSound hmatch).length_le
    have hpos := Lexeme.match?_pos hmatch
    refine ⟨⟨line, text.take m.length, some m.lexeme⟩, text.drop m.length, ?_, rfl, ?_, ?_⟩
    · exact (List.take_append_drop _ _).symm
    · simp only [Stands, List.take_append_drop, List.length_take, Nat.min_eq_left hle]
      exact hmatch
    · intro hnil
      rcases List.take_eq_nil_iff.1 hnil with hzero | hnil
      · omega
      · exact htext hnil

theorem exists_segmentation (n line : Nat) (text : List Char) (h : text.length ≤ n) :
    ∃ pieces, Segmentation line text pieces := by
  -- A piece may have any length, so the induction is on a bound for the rest.
  induction n generalizing line text with
  | zero =>
    obtain rfl := List.length_eq_zero_iff.1 (Nat.le_zero.1 h)
    exact ⟨[], segmentation_nil line⟩
  | succ n ih =>
    by_cases htext : text = []
    · subst text
      exact ⟨[], segmentation_nil line⟩
    · obtain ⟨piece, after, rfl, hline, hstands, hne⟩ := exists_stands line htext
      have hshort : after.length ≤ n := by
        have hpos := List.length_pos_iff.2 hne
        rw [List.length_append] at h
        omega
      obtain ⟨pieces, hpieces⟩ := ih piece.endLine after hshort
      have hafter := hpieces.text_eq
      subst hafter
      exact ⟨piece :: pieces, segmentation_cons_iff.2 ⟨hline, hstands, hpieces, rfl⟩⟩

theorem cutFrom_nil : cutFrom line gap done [] = (closeGap line gap done).reverse := by
  rw [cutFrom]

theorem cutFrom_of_match (h : Lexeme.match? (text ++ after) = some ⟨lexeme, text.length⟩) :
    cutFrom line gap done (text ++ after) =
      cutFrom (line + text.count '\n') []
        (⟨line, text, some lexeme⟩ :: closeGap line gap done) after := by
  have hpos := Lexeme.match?_pos h
  obtain ⟨c, rest, rfl⟩ := List.exists_cons_of_length_pos hpos
  rw [List.cons_append] at h ⊢
  rw [cutFrom]
  split
  · rename_i hnone
    cases h.symm.trans hnone
  · rename_i m hm
    cases h.symm.trans hm
    rw [← List.cons_append, List.take_left, List.drop_left]

theorem cutFrom_of_no_lexeme (h : ∀ skipped rest, text = skipped ++ rest → rest ≠ [] →
      Lexeme.match? (rest ++ after) = none) :
    cutFrom line gap done (text ++ after) = cutFrom line (text.reverse ++ gap) done after := by
  induction text generalizing gap with
  | nil => rfl
  | cons c text ih =>
    have hnone := h [] (c :: text) rfl (List.cons_ne_nil _ _)
    rw [List.cons_append] at hnone ⊢
    rw [cutFrom]
    split
    · rw [ih, List.reverse_cons, List.append_assoc]
      · rfl
      · intro skipped rest hrest
        exact h (c :: skipped) rest (congrArg (c :: ·) hrest)
    · rename_i m hm
      cases hnone.symm.trans hm

/-- An open gap is closed where it cannot go on. -/
theorem cutFrom_closeGap (h : after ≠ [] → Lexeme.match? after ≠ none) :
    cutFrom line gap done after = cutFrom line [] (closeGap line gap done) after := by
  cases after with
  | nil =>
    rw [cutFrom_nil, cutFrom_nil]
    rfl
  | cons c after =>
    rw [cutFrom, cutFrom]
    split
    · rename_i hnone
      exact (h (List.cons_ne_nil _ _) hnone).elim
    · rfl

/-- What stands at the start of a text is cut off it first. -/
theorem cutFrom_of_stands (hline : piece.line = line) (h : piece.Stands after) :
    cutFrom line [] done (piece.text ++ after) =
      cutFrom piece.endLine [] (piece :: done) after := by
  obtain ⟨start, text, lexeme?⟩ := piece
  obtain rfl : start = line := hline
  cases lexeme? with
  | some lexeme => exact cutFrom_of_match h
  | none =>
    have hgap : IsGap text after := h
    have hcount : text.count '\n' = 0 := List.count_eq_zero.2 hgap.newline_not_mem
    have hclose : closeGap start text.reverse done = ⟨start, text, none⟩ :: done := by
      simp [closeGap, hgap.ne_nil]
    rw [cutFrom_of_no_lexeme hgap.no_lexeme, List.append_nil, cutFrom_closeGap hgap.maximal, hclose,
      endLine, hcount, Nat.add_zero]

theorem cutFrom_of_segmentation (h : Segmentation line text pieces) :
    cutFrom line [] done text = done.reverse ++ pieces := by
  induction pieces generalizing line text done with
  | nil =>
    obtain rfl := h.text_eq
    rw [List.append_nil]
    exact cutFrom_nil
  | cons piece pieces ih =>
    obtain ⟨hline, hstands, htail, rfl⟩ := segmentation_cons_iff.1 h
    rw [cutFrom_of_stands hline hstands, ih htail, List.reverse_cons, List.append_assoc]
    rfl

theorem cutFrom_eq_of_segmentation (h : Segmentation line text pieces) :
    cutFrom line [] [] text = pieces :=
  cutFrom_of_segmentation h

theorem segmentation_cutFrom (line : Nat) (text : List Char) :
    Segmentation line text (cutFrom line [] [] text) := by
  obtain ⟨pieces, h⟩ := exists_segmentation _ line text (Nat.le_refl _)
  rw [cutFrom_eq_of_segmentation h]
  exact h

end Piece

/-- The tokens of a lexeme, or of a gap, from one line to another. -/
def Lexeme.tokensBetween (start stop : Nat) : Option Lexeme → List Token
  | none => [⟨.unrecognized, start⟩]
  | some blank => []
  | some (token kind) => [⟨kind, start⟩]
  | some (loop (some count)) => [⟨.loop, start⟩, ⟨.number count, stop⟩]
  | some (loop none) => [⟨.loop, start⟩, ⟨.unrecognized, stop⟩]

theorem Token.isEnd_eq_false_of_lexical {token : Token} (h : token.kind.Lexical) :
    token.isEnd = false := by
  obtain ⟨kind, line⟩ := token
  cases kind with
  | endOfInput => exact h.elim
  | _ => rfl

namespace Piece

variable {line : Nat} {text after : List Char} {pieces before others : List Piece}
  {piece next : Piece} {token : Token}

theorem tokens_eq (piece : Piece) :
    piece.tokens = Lexeme.tokensBetween piece.line piece.endLine piece.lexeme? := by
  obtain ⟨line, text, lexeme?⟩ := piece
  rcases lexeme? with _ | _ | count | _
  · rfl
  · rfl
  · cases count <;> rfl
  · rfl

theorem lexical_of_mem_tokens (h : piece.Stands after) (ht : token ∈ piece.tokens) :
    token.kind.Lexical := by
  obtain ⟨line, text, lexeme?⟩ := piece
  rcases lexeme? with _ | kind | count | _
  · obtain rfl := List.mem_singleton.1 ht
    trivial
  · obtain rfl := List.mem_singleton.1 ht
    exact (Lexeme.match?_isSound h).lexical kind rfl
  · rcases List.mem_cons.1 ht with rfl | ht
    · trivial
    · obtain rfl := List.mem_singleton.1 ht
      cases count <;> trivial
  · cases ht

theorem lexical_of_segmentation (h : Segmentation line text pieces)
    (ht : token ∈ pieces.flatMap tokens) : token.kind.Lexical := by
  obtain ⟨piece, hpiece, ht⟩ := List.mem_flatMap.1 ht
  obtain ⟨before, after, hsplit⟩ := List.append_of_mem hpiece
  exact lexical_of_mem_tokens (h.stands before piece after hsplit) ht

theorem not_isGap_of_isGap_before (h : Segmentation line text pieces)
    (hsplit : pieces = before ++ piece :: next :: others) (hgap : piece.isGap = true) :
    next.isGap = false := by
  have hpiece := h.stands before piece (next :: others) hsplit
  have hnext := h.stands (before ++ [piece]) next others (by rw [hsplit, List.append_cons])
  cases hnextGap : next.isGap with
  | false => rfl
  | true =>
    simp only [isGap, Option.isNone_iff_eq_none] at hgap hnextGap
    simp only [Stands, hgap] at hpiece
    simp only [Stands, hnextGap] at hnext
    have hnone := hnext.no_lexeme [] next.text rfl hnext.ne_nil
    have hne : next.text ++ others.flatMap Piece.text ≠ [] := by
      intro hnil
      exact hnext.ne_nil (List.append_eq_nil_iff.1 hnil).1
    exact (hpiece.maximal hne hnone).elim

theorem newline_not_mem_of_isGap (h : Segmentation line text pieces) (hpiece : piece ∈ pieces)
    (hgap : piece.isGap = true) : '\n' ∉ piece.text := by
  obtain ⟨before, after, hsplit⟩ := List.append_of_mem hpiece
  have hstands := h.stands before piece after hsplit
  simp only [isGap, Option.isNone_iff_eq_none] at hgap
  simp only [Stands, hgap] at hstands
  exact hstands.newline_not_mem

theorem endLine_eq_of_segmentation (h : Segmentation line text pieces)
    (hsplit : pieces = before ++ piece :: others) :
    piece.endLine = line + ((before ++ [piece]).flatMap Piece.text).count '\n' := by
  rw [endLine, h.line_eq before piece others hsplit, List.flatMap_append, List.count_append,
    List.flatMap_singleton, Nat.add_assoc]

end Piece

/-- A text without its comments is cut into lexemes and gaps in one way, and its tokens are those of
the pieces, on the lines the pieces start on. Only the count of a loop stands on the line its piece
ends on. -/
theorem Token.ofText_eq_of_segmentation (text : String) :
    ∃ pieces, Piece.Segmentation 1 (Comment.remove text.toList) pieces ∧
      (∀ others, Piece.Segmentation 1 (Comment.remove text.toList) others → others = pieces) ∧
      (∀ before piece next after, pieces = before ++ piece :: next :: after →
        piece.isGap = true → next.isGap = false) ∧
      (∀ piece ∈ pieces, piece.isGap = true → '\n' ∉ piece.text) ∧
      (∀ before piece after, pieces = before ++ piece :: after →
        piece.tokens = Lexeme.tokensBetween (1 + (before.flatMap Piece.text).count '\n')
          (1 + ((before ++ [piece]).flatMap Piece.text).count '\n') piece.lexeme?) ∧
      (∀ token ∈ pieces.flatMap Piece.tokens, token.isEnd = false) ∧
      Token.ofText text = pieces.flatMap Piece.tokens ++
        [⟨.endOfInput, ((pieces.flatMap Piece.tokens).getLast?.map Token.line).getD 0⟩] := by
  have h := Piece.segmentation_cutFrom 1 (Comment.remove text.toList)
  refine ⟨_, h, ?_, ?_, ?_, ?_, ?_, rfl⟩
  · intro others hothers
    exact (Piece.cutFrom_eq_of_segmentation hothers).symm
  · intro before piece next after hsplit hgap
    exact Piece.not_isGap_of_isGap_before h hsplit hgap
  · intro piece hpiece hgap
    exact Piece.newline_not_mem_of_isGap h hpiece hgap
  · intro before piece after hsplit
    rw [Piece.tokens_eq, h.line_eq before piece after hsplit,
      Piece.endLine_eq_of_segmentation h hsplit]
  · intro token htoken
    exact Token.isEnd_eq_false_of_lexical (Piece.lexical_of_segmentation h htoken)

end TurtleGraphics
