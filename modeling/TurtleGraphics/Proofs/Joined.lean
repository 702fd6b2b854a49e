import TurtleGraphics.Proofs.Form
import TurtleGraphics.Proofs.Within
import TurtleGraphics.Proofs.Written

/-! The tokens of a text that another one follows on the next line. -/
namespace TurtleGraphics

namespace Piece

variable {line lines : Nat} {text after : List Char} {piece : Piece} {pieces : List Piece}

/-- The same piece further down. -/
def later (lines : Nat) (piece : Piece) : Piece :=
  { piece with line := piece.line + lines }

theorem flatMap_text_later (lines : Nat) (pieces : List Piece) :
    (pieces.map (later lines)).flatMap Piece.text = pieces.flatMap Piece.text := by
  rw [List.flatMap_map]
  rfl

theorem segmentation_later (h : Segmentation line text pieces) :
    Segmentation (line + lines) text (pieces.map (later lines)) := by
  induction pieces generalizing line text with
  | nil =>
    obtain rfl := h.text_eq
    exact segmentation_nil _
  | cons piece pieces ih =>
    obtain ⟨rfl, hstands, htail, rfl⟩ := segmentation_cons_iff.1 h
    have hend : (piece.later lines).endLine = piece.endLine + lines :=
      Nat.add_right_comm piece.line lines _
    rw [List.map_cons, segmentation_cons_iff, flatMap_text_later, hend]
    exact ⟨rfl, hstands, ih htail, rfl⟩

theorem tokens_later (lines : Nat) (piece : Piece) :
    (piece.later lines).tokens = piece.tokens.map (Token.later lines) := by
  obtain ⟨line, text, lexeme?⟩ := piece
  rcases lexeme? with _ | _ | count | _
  · rfl
  · rfl
  · simp [later, tokens, endLine, Token.later, Nat.add_right_comm]
  · rfl

theorem text_ne_nil_of_stands (h : piece.Stands after) : piece.text ≠ [] := by
  obtain ⟨line, text, lexeme?⟩ := piece
  cases lexeme? with
  | none => exact IsGap.ne_nil h
  | some lexeme => exact List.ne_nil_of_length_pos (Lexeme.match?_pos h)

/-- A piece that gives no error token is a lexeme. -/
theorem exists_lexeme_of_recognized (h : ∀ token ∈ piece.tokens, token.kind ≠ .unrecognized) :
    ∃ lexeme, piece.lexeme? = some lexeme := by
  obtain ⟨line, text, lexeme?⟩ := piece
  cases lexeme? with
  | none => exact (h ⟨.unrecognized, line⟩ List.mem_cons_self rfl).elim
  | some lexeme => exact ⟨lexeme, rfl⟩

end Piece

namespace Token

variable {line : Nat} {text before after : List Char} {pieces : List Piece}
  {tokens others : List Token}

/-- Known tokens of which the last is no number, such as those of a program. -/
structure Complete (tokens : List Token) : Prop where
  recognized : ∀ token ∈ tokens, token.kind ≠ .unrecognized
  not_number : ∀ token ∈ tokens.getLast?, ∀ value, token.kind ≠ .number value

theorem Complete.of_append_left (h : Complete (tokens ++ others)) : Complete others := by
  refine ⟨fun token htoken => h.recognized token (List.mem_append_right _ htoken), ?_⟩
  intro token htoken
  apply h.not_number
  rw [List.getLast?_append, Option.mem_def.1 htoken]
  rfl

theorem read_later (line lines : Nat) (text : List Char) :
    read (line + lines) text = (read line text).map (later lines) := by
  have h := Piece.segmentation_cutFrom line text
  rw [read, Piece.cutFrom_eq_of_segmentation (Piece.segmentation_later h), read, List.flatMap_map,
    List.map_flatMap]
  exact congrArg (List.flatMap · _) (funext (Piece.tokens_later lines))

/-- The last piece of a text whose tokens are complete holds no count, which would take the line
feed on. -/
theorem not_loop_of_complete {piece : Piece} (h : Complete piece.tokens) (count : Option UInt32) :
    piece.lexeme? ≠ some (.loop count) := by
  obtain ⟨line, text, lexeme?⟩ := piece
  rintro rfl
  cases count with
  | none => exact h.recognized ⟨.unrecognized, _⟩ (List.mem_cons_of_mem _ List.mem_cons_self) rfl
  | some value => exact h.not_number _ rfl value rfl

theorem read_append_newline_of_segmentation (h : Piece.Segmentation line text pieces)
    (hcomplete : Complete (pieces.flatMap Piece.tokens)) (after : List Char) :
    read line (text ++ '\n' :: after) =
      pieces.flatMap Piece.tokens ++ read (line + text.count '\n' + 1) after := by
  induction pieces generalizing line text with
  | nil =>
    obtain rfl := h.text_eq
    exact read_newline line after
  | cons piece pieces ih =>
    obtain ⟨rfl, hstands, htail, rfl⟩ := Piece.segmentation_cons_iff.1 h
    rw [List.flatMap_cons] at hcomplete
    obtain ⟨lexeme, hlexeme⟩ := Piece.exists_lexeme_of_recognized fun token htoken =>
      hcomplete.recognized token (List.mem_append_left _ htoken)
    have hmatch := hstands
    rw [Piece.Stands, hlexeme] at hmatch
    obtain ⟨more, hform, hstop⟩ := Lexeme.match?_append_eq_some_iff.1 hmatch
    have hstop' : ∀ c ∈ (pieces.flatMap Piece.text ++ '\n' :: after).head?, more c = false := by
      cases pieces with
      | nil =>
        intro c hc
        cases hc
        apply hform.not_more_newline
        intro count hcount
        rw [List.flatMap_nil, List.append_nil] at hcomplete
        exact not_loop_of_complete hcomplete count (hcount ▸ hlexeme)
      | cons next pieces =>
        obtain ⟨_, hnext, _, _⟩ := Piece.segmentation_cons_iff.1 htail
        obtain ⟨c, text, htext⟩ := List.exists_cons_of_ne_nil (Piece.text_ne_nil_of_stands hnext)
        simpa [htext] using hstop
    have hmatch' := Lexeme.match?_append_eq_some_iff.2 ⟨more, hform, hstop'⟩
    rw [List.append_assoc, read_append_of_match hmatch', ← Piece.endLine,
      ih htail hcomplete.of_append_left, List.flatMap_cons, Piece.tokens_eq, hlexeme,
      List.append_assoc, List.count_append, ← Nat.add_assoc]
    rfl

/-- A line feed ends every lexeme that a program ends with. -/
theorem read_append_newline (h : Complete (read line text)) (after : List Char) :
    read line (text ++ '\n' :: after) =
      read line text ++ read (line + text.count '\n' + 1) after :=
  read_append_newline_of_segmentation (Piece.segmentation_cutFrom line text) h after

theorem return_not_mem_of_complete (h : Complete (read line text)) : '\r' ∉ text := by
  have hpieces := Piece.segmentation_cutFrom line text
  intro hreturn
  rw [← hpieces.text_eq] at hreturn
  obtain ⟨piece, hpiece, hreturn⟩ := List.mem_flatMap.1 hreturn
  obtain ⟨lexeme, hlexeme⟩ := Piece.exists_lexeme_of_recognized fun token htoken =>
    h.recognized token (List.mem_flatMap_of_mem hpiece htoken)
  obtain ⟨before, after, hsplit⟩ := List.append_of_mem hpiece
  have hmatch := hpieces.stands before piece after hsplit
  rw [Piece.Stands, hlexeme] at hmatch
  obtain ⟨more, hform, _⟩ := Lexeme.match?_append_eq_some_iff.1 hmatch
  cases hform.isLexical_of_mem '\r' hreturn

/-- Nor does a text undo the line break before it or the comment on the line before. -/
theorem read_remove_append_newline (h : Complete (read line (Comment.remove before)))
    (after : List Char) :
    read line (Comment.remove (before ++ '\n' :: after)) =
      read line (Comment.remove before) ++
        read (line + before.count '\n' + 1) (Comment.remove after) := by
  have hlast : (Comment.remove before).getLast? ≠ some '\r' := by
    intro hreturn
    exact return_not_mem_of_complete h (List.mem_of_getLast? hreturn)
  rw [Comment.remove_append_newline hlast, read_append_newline h, Comment.count_newline_remove]

end Token

end TurtleGraphics
