import Mathlib.Data.List.Forall2
import TurtleGraphics.Piece
import TurtleGraphics.Proofs.Comments

/-! Comments are cut line by line, and line breaks of either kind are the same. -/
namespace TurtleGraphics

namespace Comment

variable {c : Char} {text line other first : List Char} {a b rest : List (List Char)}

/-- The lines of a text, without the line feeds between them. -/
def lines (text : List Char) : List (List Char) :=
  text.splitOn '\n'

/-- What a line holds before its first comment. -/
def code (line : List Char) : List Char :=
  line.takeWhile (· ≠ '%')

/-- A line without the carriage return that it may end with. -/
def withoutReturn (line : List Char) : List Char :=
  if line.getLast? = some '\r' then line.dropLast else line

/-- Lines without the carriage returns of their line breaks. No break ends the last line. -/
def withoutReturns : List (List Char) → List (List Char)
  | [] => []
  | [last] => [last]
  | line :: next :: rest => withoutReturn line :: withoutReturns (next :: rest)

/-- A text with a carriage return in front of each line feed. -/
def withReturns (text : List Char) : List Char :=
  text.flatMap fun c => if c = '\n' then ['\r', '\n'] else [c]

/-- Two lines that differ in the text of a comment, if at all. -/
def SameCode (line other : List Char) : Prop :=
  line = other ∨ ∃ before remark changed,
    line = before ++ '%' :: remark ∧ other = before ++ '%' :: changed

@[simp] theorem lines_nil : lines [] = [[]] := rfl

@[simp] theorem lines_newline (text : List Char) : lines ('\n' :: text) = [] :: lines text := by
  simp [lines, List.splitOn_cons_eq_if_modifyHead]

theorem lines_cons (hc : c ≠ '\n') (h : lines text = first :: rest) :
    lines (c :: text) = (c :: first) :: rest := by
  rw [lines] at h ⊢
  simp [List.splitOn_cons_eq_if_modifyHead, hc, h]

theorem exists_lines_eq_cons (text : List Char) : ∃ first rest, lines text = first :: rest :=
  List.exists_cons_of_ne_nil (List.splitOn_ne_nil '\n' text)

theorem head?_eq_newline_of_lines {next : List Char} (h : lines text = [] :: next :: rest) :
    text.head? = some '\n' := by
  cases text with
  | nil => simp at h
  | cons c text =>
    by_cases hc : c = '\n'
    · simp [hc]
    · obtain ⟨first, others, hlines⟩ := exists_lines_eq_cons text
      simp [lines_cons hc hlines] at h

theorem eq_of_lines_eq (h : lines text = lines other) : text = other := by
  have hjoined := congrArg ['\n'].intercalate h
  simpa only [lines, List.intercalate_splitOn] using hjoined

/-! ### Line breaks -/

theorem unifyBreaks_newline (text : List Char) :
    unifyBreaks [] ('\n' :: text) = '\n' :: unifyBreaks [] text :=
  unifyBreaks_cons nofun

theorem unifyBreaks_return_newline (text : List Char) :
    unifyBreaks [] ('\r' :: '\n' :: text) = '\n' :: unifyBreaks [] text := by
  rw [unifyBreaks, unifyBreaks_eq ['\n']]
  rfl

theorem withoutReturn_cons (h : c = '\r' → line ≠ []) :
    withoutReturn (c :: line) = c :: withoutReturn line := by
  cases line with
  | nil =>
    have hc : c ≠ '\r' := fun hc => h hc rfl
    simp [withoutReturn, hc]
  | cons d line =>
    simp only [withoutReturn, List.getLast?_cons_cons]
    split <;> rfl

theorem lines_unifyBreaks (text : List Char) :
    lines (unifyBreaks [] text) = withoutReturns (lines text) := by
  induction text with
  | nil => rfl
  | cons c text ih =>
    obtain ⟨first, rest, hlines⟩ := exists_lines_eq_cons text
    rw [hlines] at ih
    by_cases hnewline : c = '\n'
    · subst c
      rw [unifyBreaks_newline, lines_newline, lines_newline, ih, hlines]
      rfl
    · rw [lines_cons hnewline hlines]
      by_cases hbreak : c = '\r' ∧ text.head? = some '\n'
      · -- The break makes one line feed with or without its carriage return.
        obtain ⟨rfl, hhead⟩ := hbreak
        obtain ⟨text, rfl⟩ := List.head?_eq_some_iff.1 hhead
        rw [lines_newline] at hlines
        obtain ⟨rfl, rfl⟩ := List.cons.inj hlines
        obtain ⟨next, others, hnext⟩ := exists_lines_eq_cons text
        rw [unifyBreaks_newline] at ih
        rw [unifyBreaks_return_newline, ih, hnext]
        rfl
      · rw [unifyBreaks_cons fun hc hhead => hbreak ⟨hc, hhead⟩]
        cases rest with
        | nil => exact lines_cons hnewline ih
        | cons next rest =>
          have hfirst : c = '\r' → first ≠ [] := by
            rintro hc rfl
            exact hbreak ⟨hc, head?_eq_newline_of_lines hlines⟩
          rw [lines_cons hnewline ih, withoutReturns, withoutReturn_cons hfirst]

theorem unifyBreaks_of_not_mem (h : '\r' ∉ text) : unifyBreaks [] text = text := by
  induction text with
  | nil => rfl
  | cons c text ih =>
    simp only [List.mem_cons, not_or] at h
    obtain ⟨hc, htext⟩ := h
    rw [unifyBreaks_cons fun hreturn => (hc hreturn.symm).elim, ih htext]

theorem unifyBreaks_withReturns (h : '\r' ∉ text) : unifyBreaks [] (withReturns text) = text := by
  induction text with
  | nil => rfl
  | cons c text ih =>
    simp only [List.mem_cons, not_or] at h
    obtain ⟨hc, htext⟩ := h
    have ih : unifyBreaks [] (withReturns text) = text := ih htext
    by_cases hnewline : c = '\n'
    · subst c
      exact (unifyBreaks_return_newline (withReturns text)).trans (congrArg ('\n' :: ·) ih)
    · have hcons : withReturns (c :: text) = c :: withReturns text := by
        simp [withReturns, hnewline]
      rw [hcons, unifyBreaks_cons fun hreturn => (hc hreturn.symm).elim, ih]

/-! ### Comments -/

/-- A comment that is open at the start takes the first line. -/
theorem lines_cutComments (inside : Bool) (h : lines text = first :: rest) :
    lines (cutComments inside [] text) = (if inside then [] else code first) :: rest.map code := by
  induction text generalizing inside first rest with
  | nil =>
    obtain ⟨rfl, rfl⟩ := List.cons.inj h
    cases inside <;> rfl
  | cons c text ih =>
    obtain ⟨next, others, hlines⟩ := exists_lines_eq_cons text
    by_cases hnewline : c = '\n'
    · subst c
      rw [lines_newline, hlines] at h
      obtain ⟨rfl, rfl⟩ := List.cons.inj h
      rw [cutComments_newline, lines_newline, ih false hlines]
      cases inside <;> rfl
    · rw [lines_cons hnewline hlines] at h
      obtain ⟨rfl, rfl⟩ := List.cons.inj h
      rw [cutComments, if_neg hnewline]
      by_cases hcomment : c = '%'
      · simp [hcomment, ih true hlines, code]
      · cases inside with
        | true => simp [ih true hlines]
        | false =>
          have hkeep : cutComments false [c] text = c :: cutComments false [] text :=
            cutComments_append_kept false [] [c] text
          have hcut := lines_cons hnewline (ih false hlines)
          simpa [hcomment, hkeep, code] using hcut

theorem lines_remove (text : List Char) :
    lines (remove text) = (lines (unifyBreaks [] text)).map code := by
  obtain ⟨first, rest, hlines⟩ := exists_lines_eq_cons (unifyBreaks [] text)
  rw [remove, lines_cutComments false hlines, hlines]
  rfl

theorem code_append_comment (before remark : List Char) :
    code (before ++ '%' :: remark) = code before := by
  induction before with
  | nil => rfl
  | cons c before ih =>
    simp only [code, List.cons_append, List.takeWhile_cons] at ih ⊢
    rw [ih]

theorem code_withoutReturn_comment (before remark : List Char) :
    code (withoutReturn (before ++ '%' :: remark)) = code before := by
  rw [withoutReturn]
  split
  · cases remark with
    | nil => simp_all
    | cons c remark =>
      rw [List.dropLast_append_of_ne_nil (List.cons_ne_nil _ _), List.dropLast_cons_of_ne_nil]
      · exact code_append_comment before _
      · exact List.cons_ne_nil _ _
  · exact code_append_comment before remark

theorem SameCode.code_eq (h : SameCode line other) : code line = code other := by
  rcases h with rfl | ⟨before, remark, changed, rfl, rfl⟩
  · rfl
  · rw [code_append_comment, code_append_comment]

theorem SameCode.code_withoutReturn_eq (h : SameCode line other) :
    code (withoutReturn line) = code (withoutReturn other) := by
  rcases h with rfl | ⟨before, remark, changed, rfl, rfl⟩
  · rfl
  · rw [code_withoutReturn_comment, code_withoutReturn_comment]

theorem map_code_withoutReturns_eq (h : List.Forall₂ SameCode a b) :
    (withoutReturns a).map code = (withoutReturns b).map code := by
  induction h with
  | nil => rfl
  | @cons line other a b hline hrest ih =>
    cases hrest with
    | nil => simp [withoutReturns, hline.code_eq]
    | cons _ _ => simp [withoutReturns, hline.code_withoutReturn_eq, ih]

theorem remove_eq_of_sameCode (h : List.Forall₂ SameCode (lines text) (lines other)) :
    remove other = remove text := by
  apply eq_of_lines_eq
  rw [lines_remove, lines_remove, lines_unifyBreaks, lines_unifyBreaks,
    map_code_withoutReturns_eq h]

theorem remove_withReturns (h : '\r' ∉ text) : remove (withReturns text) = remove text := by
  rw [remove, unifyBreaks_withReturns h, remove, unifyBreaks_of_not_mem h]

theorem ofText_eq_of_remove_eq {text other : String}
    (h : remove other.toList = remove text.toList) : Token.ofText other = Token.ofText text := by
  rw [Token.ofText, Token.ofText, Piece.ofText, Piece.ofText, h]

/-- Line breaks lose their carriage returns, then each line ends before its first `%`. So the tokens
of a text depend neither on what its comments say nor on the kind of its line breaks. -/
theorem remove_line_by_line (text : String) :
    (lines (remove text.toList)).length = (lines (unifyBreaks [] text.toList)).length ∧
    lines (remove text.toList) = (lines (unifyBreaks [] text.toList)).map code ∧
    lines (unifyBreaks [] text.toList) = withoutReturns (lines text.toList) ∧
    (∀ other : String, List.Forall₂ SameCode (lines text.toList) (lines other.toList) →
      Token.ofText other = Token.ofText text) ∧
    ('\r' ∉ text.toList →
      Token.ofText (.ofList (withReturns text.toList)) = Token.ofText text) := by
  refine ⟨?_, lines_remove _, lines_unifyBreaks _, ?_, ?_⟩
  · rw [lines_remove, List.length_map]
  · intro other hcode
    exact ofText_eq_of_remove_eq (remove_eq_of_sameCode hcode)
  · intro hreturn
    apply ofText_eq_of_remove_eq
    rw [String.toList_ofList, remove_withReturns hreturn]

/-- A comment that ends with a line break of two characters, and a carriage return elsewhere. -/
theorem remove_line_by_line_remark :
    Token.ofText "UP.% not % now\n\rDOWN." = Token.ofText "UP.%up\r\n\rDOWN." ∧
      Token.ofText "UP. % up\r\n\r\nDOWN." = Token.ofText "UP. % up\n\nDOWN." := by
  have hlines : lines "UP.%up\r\n\rDOWN.".toList = ["UP.%up\r".toList, "\rDOWN.".toList] := rfl
  have hchanged : lines "UP.% not % now\n\rDOWN.".toList =
      ["UP.% not % now".toList, "\rDOWN.".toList] := rfl
  have hremark : SameCode "UP.%up\r".toList "UP.% not % now".toList :=
    Or.inr ⟨"UP.".toList, "up\r".toList, " not % now".toList, rfl, rfl⟩
  have hreturns : String.ofList (withReturns "UP. % up\n\nDOWN.".toList) =
      "UP. % up\r\n\r\nDOWN." := by decide +kernel
  have hbreaks := (remove_line_by_line "UP. % up\n\nDOWN.").2.2.2.2 (by decide +kernel)
  refine ⟨(remove_line_by_line _).2.2.2.1 _ ?_, ?_⟩
  · rw [hlines, hchanged]
    exact .cons hremark (.cons (Or.inl rfl) .nil)
  · rwa [hreturns] at hbreaks

end Comment

end TurtleGraphics
