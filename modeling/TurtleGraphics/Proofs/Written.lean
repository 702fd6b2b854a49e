import Mathlib.Data.List.Forall2
import TurtleGraphics.Proofs.Comments
import TurtleGraphics.Proofs.Recognition
import TurtleGraphics.Proofs.Segmentation
import TurtleGraphics.Proofs.Spelling

/-! Texts that are read the same whatever follows them. -/
namespace TurtleGraphics

theorem Comment.remove_of_not_mem {text : List Char} (hreturn : '\r' ∉ text)
    (hcomment : '%' ∉ text) : remove text = text := by
  have h : remove (text ++ []) = text ++ remove [] := remove_append hreturn hcomment
  rwa [List.append_nil, show remove [] = [] from rfl, List.append_nil] at h

namespace Token

variable {line : Nat} {text other rest run digits : List Char} {kind : Kind} {kinds others : List Kind}
  {lexeme : Lexeme} {c : Char} {count : UInt32}

/-- The tokens of a text without comments that starts on `line`. -/
def read (line : Nat) (text : List Char) : List Token :=
  (Piece.cutFrom line [] [] text).flatMap Piece.tokens

theorem read_nil (line : Nat) : read line [] = [] := by
  rw [read, Piece.cutFrom_nil]
  rfl

theorem beforeEnd_ofText (text : String) :
    beforeEnd (ofText text) = read 1 (Comment.remove text.toList) := by
  have hpieces := Piece.segmentation_cutFrom 1 (Comment.remove text.toList)
  have htokens : ofText text = read 1 (Comment.remove text.toList) ++
      [⟨.endOfInput, ((read 1 (Comment.remove text.toList)).getLast?.map Token.line).getD 0⟩] := rfl
  rw [beforeEnd, htokens, List.takeWhile_append_of_pos]
  · exact List.append_nil _
  · intro token htoken
    rw [isEnd_eq_false_of_lexical (Piece.lexical_of_segmentation hpieces htoken)]
    rfl

theorem read_append_of_match (h : Lexeme.match? (text ++ rest) = some ⟨lexeme, text.length⟩) :
    read line (text ++ rest) =
      Lexeme.tokensBetween line (line + text.count '\n') (some lexeme) ++
        read (line + text.count '\n') rest := by
  have hrest := Piece.segmentation_cutFrom (line + text.count '\n') rest
  have hcut : Piece.cutFrom line [] [] (text ++ rest) =
      ⟨line, text, some lexeme⟩ :: Piece.cutFrom (line + text.count '\n') [] [] rest := by
    rw [Piece.cutFrom_of_match h]
    exact Piece.cutFrom_of_segmentation hrest
  rw [read, hcut, List.flatMap_cons, Piece.tokens_eq]
  rfl

/-- Neither starts a comment nor belongs to a line break. -/
def isPlain (c : Char) : Bool :=
  c ≠ '%' && c ≠ '\r' && c ≠ '\n'

theorem isPlain_of_isAlphanum (h : c.isAlphanum = true) : isPlain c = true := by
  simp only [isPlain, Bool.and_eq_true, decide_eq_true_eq]
  refine ⟨⟨?_, ?_⟩, ?_⟩ <;> rintro rfl <;> cases h

theorem isPlain_of_isRun (h : Lexeme.IsRun Char.isDigit digits) :
    ∀ c ∈ digits, isPlain c = true := by
  intro c hc
  apply isPlain_of_isAlphanum
  rw [Char.isAlphanum, h.all c hc, Bool.or_true]

theorem count_newline_of_isPlain (h : ∀ c ∈ text, isPlain c = true) : text.count '\n' = 0 := by
  rw [List.count_eq_zero]
  intro hmem
  cases h '\n' hmem

/-- Text on one line whose tokens are of the given kinds, whatever follows it. -/
structure Written (text : List Char) (kinds : List Kind) : Prop where
  startsApart : ∀ rest, Lexeme.StartsApart (text ++ rest)
  plain : ∀ c ∈ text, isPlain c = true
  read_append : ∀ line rest, read line (text ++ rest) = kinds.map (⟨·, line⟩) ++ read line rest

theorem written_of_match (hapart : Lexeme.isSeparator c = false)
    (hplain : (c :: text).all isPlain = true)
    (hmatch : ∀ rest, Lexeme.match? (c :: text ++ rest) = some ⟨.token kind, (c :: text).length⟩) :
    Written (c :: text) [kind] := by
  have hplain := List.all_eq_true.1 hplain
  refine ⟨?_, hplain, ?_⟩
  · intro rest d hd
    cases hd
    exact hapart
  · intro line rest
    rw [read_append_of_match (hmatch rest), count_newline_of_isPlain hplain, Nat.add_zero]
    rfl

theorem written_period : Written ['.'] [.period] :=
  written_of_match rfl rfl fun _ => rfl

theorem written_quote : Written ['"'] [.quote] :=
  written_of_match rfl rfl fun _ => rfl

theorem Written.append_of_read (h : Written text kinds) (hplain : ∀ c ∈ other, isPlain c = true)
    (hread : ∀ line rest, read line (other ++ rest) = others.map (⟨·, line⟩) ++ read line rest) :
    Written (text ++ other) (kinds ++ others) := by
  refine ⟨?_, ?_, ?_⟩
  · intro rest
    rw [List.append_assoc]
    exact h.startsApart (other ++ rest)
  · exact List.forall_mem_append.2 ⟨h.plain, hplain⟩
  · intro line rest
    rw [List.append_assoc, h.read_append, hread, List.map_append, List.append_assoc]

theorem Written.append (h : Written text kinds) (hother : Written other others) :
    Written (text ++ other) (kinds ++ others) :=
  h.append_of_read hother.plain hother.read_append

theorem read_run (hrun : ∀ c ∈ run, Lexeme.isBlank c = true)
    (hrest : ∀ c ∈ rest.head?, Lexeme.isBlank c = false) :
    read line (run ++ rest) = read line rest := by
  by_cases hnil : run = []
  · subst run
    rfl
  · have hcount : run.count '\n' = 0 := by
      rw [List.count_eq_zero]
      intro hmem
      cases hrun '\n' hmem
    rw [read_append_of_match (Lexeme.match?_blanks ⟨hnil, hrun⟩ hrest), hcount, Nat.add_zero]
    rfl

/-- A space or a tab gives no token, also where the next character is one. -/
theorem read_blank (hc : Lexeme.isBlank c = true) : read line (c :: rest) = read line rest := by
  have hrun : ∀ d ∈ rest.takeWhile Lexeme.isBlank, Lexeme.isBlank d = true :=
    List.all_eq_true.1 List.all_takeWhile
  have hrest := Lexeme.head?_dropWhile Lexeme.isBlank rest
  calc read line (c :: rest)
      = read line (c :: rest.takeWhile Lexeme.isBlank ++ rest.dropWhile Lexeme.isBlank) := by
        rw [List.cons_append, List.takeWhile_append_dropWhile]
    _ = read line (rest.dropWhile Lexeme.isBlank) :=
        read_run (List.forall_mem_cons.2 ⟨hc, hrun⟩) hrest
    _ = read line (rest.takeWhile Lexeme.isBlank ++ rest.dropWhile Lexeme.isBlank) :=
        (read_run hrun hrest).symm
    _ = read line rest := by rw [List.takeWhile_append_dropWhile]

/-- A space between two texts gives no token. -/
theorem Written.spaced (h : Written text kinds) (hother : Written other others) :
    Written (text ++ ' ' :: other) (kinds ++ others) := by
  apply h.append_of_read
  · exact List.forall_mem_cons.2 ⟨rfl, hother.plain⟩
  · intro line rest
    rw [List.cons_append, read_blank rfl, hother.read_append]

theorem written_intercalate {texts : List (List Char)} {spellings : List (List Kind)}
    (h : List.Forall₂ Written texts spellings) (hne : texts ≠ []) :
    Written ([' '].intercalate texts) spellings.flatten := by
  induction h with
  | nil => exact (hne rfl).elim
  | @cons text kinds texts spellings hfirst hrest ih =>
    by_cases hend : texts = []
    · subst texts
      cases hrest
      simpa using hfirst
    · rw [List.intercalate_cons_of_ne_nil hend, List.flatten_cons, List.append_assoc]
      exact hfirst.spaced (ih hend)

theorem Written.quoted (h : Written text kinds) :
    Written (['"'] ++ text ++ ['"']) ([.quote] ++ kinds ++ [.quote]) :=
  (written_quote.append h).append written_quote

theorem read_digits (hdigits : Lexeme.IsRun Char.isDigit digits)
    (hrest : ∀ c ∈ rest.head?, c.isDigit = false) :
    read line (digits ++ rest) =
      ⟨(Lexeme.value? digits).elim .unrecognized .number, line⟩ :: read line rest := by
  rw [read_append_of_match (Lexeme.match?_digits hdigits hrest),
    count_newline_of_isPlain (isPlain_of_isRun hdigits), Nat.add_zero]
  rfl

/-- A number ends at the period after it. Alone it would go on with a digit that follows. -/
theorem written_amount (hdigits : Lexeme.IsRun Char.isDigit digits)
    (hvalue : Lexeme.value? digits = some count) :
    Written (digits ++ ['.']) [.number count, .period] := by
  refine ⟨?_, ?_, ?_⟩
  · intro rest
    rw [List.append_assoc]
    refine Lexeme.forall_head?_append hdigits.ne_nil ?_ _
    intro c hc
    exact Lexeme.isSeparator_of_isDigit (hdigits.all c hc)
  · exact List.forall_mem_append.2 ⟨isPlain_of_isRun hdigits, written_period.plain⟩
  · intro line rest
    have hperiod : ∀ c ∈ ('.' :: rest).head?, c.isDigit = false := by
      intro c hc
      cases hc
      rfl
    have hnumber : read line (digits ++ '.' :: rest) = _ := read_digits hdigits hperiod
    rw [hvalue] at hnumber
    rw [List.append_assoc]
    exact hnumber.trans
      (congrArg (⟨.number count, line⟩ :: ·) (written_period.read_append line rest))

/-- A loop's keyword takes its count along and the space before the body. -/
theorem Written.loop (hdigits : Lexeme.IsRun Char.isDigit digits)
    (hvalue : Lexeme.value? digits = some count) (h : Written text kinds) :
    Written ("REPEAT ".toList ++ digits ++ [' '] ++ text) ([.loop, .number count] ++ kinds) := by
  have hword : ∀ c ∈ "REPEAT ".toList, isPlain c = true := List.all_eq_true.1 rfl
  have hspace : ∀ c ∈ [' '], isPlain c = true := List.all_eq_true.1 rfl
  have hhead : ∀ c ∈ "REPEAT ".toList ++ digits ++ [' '], isPlain c = true :=
    List.forall_mem_append.2 ⟨List.forall_mem_append.2 ⟨hword, isPlain_of_isRun hdigits⟩, hspace⟩
  refine ⟨?_, ?_, ?_⟩
  · intro rest c hc
    cases hc
    rfl
  · exact List.forall_mem_append.2 ⟨hhead, h.plain⟩
  · intro line rest
    have hmatch := Lexeme.match?_loop hdigits (h.startsApart rest)
    rw [hvalue] at hmatch
    rw [List.append_assoc _ text, read_append_of_match hmatch, count_newline_of_isPlain hhead,
      Nat.add_zero, h.read_append, List.map_append, List.append_assoc]
    rfl

/-- The tokens of texts one to a line, from `line` on. -/
def onLines : Nat → List (List Kind) → List Token
  | _, [] => []
  | line, kinds :: others => kinds.map (⟨·, line⟩) ++ onLines (line + 1) others

theorem map_kind_onLines (line : Nat) (texts : List (List Kind)) :
    (onLines line texts).map Token.kind = texts.flatten := by
  induction texts generalizing line with
  | nil => rfl
  | cons kinds others ih => simp [onLines, ih, Function.comp_def]

theorem read_newline (line : Nat) (rest : List Char) :
    read line ('\n' :: rest) = read (line + 1) rest := by
  have hmatch : Lexeme.match? (['\n'] ++ rest) = some ⟨.blank, ['\n'].length⟩ := rfl
  exact read_append_of_match hmatch

theorem startsApart_lines {texts : List (List Char)} {spellings : List (List Kind)}
    (h : List.Forall₂ Written texts spellings) :
    Lexeme.StartsApart (texts.flatMap (· ++ ['\n'])) := by
  cases h with
  | nil => nofun
  | cons hfirst _ =>
    rw [List.flatMap_cons, List.append_assoc]
    exact hfirst.startsApart _

theorem read_lines {texts : List (List Char)} {spellings : List (List Kind)}
    (h : List.Forall₂ Written texts spellings) (line : Nat) :
    read line (texts.flatMap (· ++ ['\n'])) = onLines line spellings := by
  induction h generalizing line with
  | nil => exact read_nil line
  | cons hfirst _ ih =>
    rw [List.flatMap_cons, List.append_assoc, hfirst.read_append, List.singleton_append,
      read_newline, ih]
    rfl

end Token

end TurtleGraphics
