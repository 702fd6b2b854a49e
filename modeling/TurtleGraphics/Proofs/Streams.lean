import TurtleGraphics.Proofs.Canonical
import TurtleGraphics.Proofs.Causes
import TurtleGraphics.Proofs.Concatenation
import TurtleGraphics.Proofs.Overflow

/-! The tokens of a text stand on its lines, in order, and every loop has its count. So an error
stands on a line of the text, too. -/
namespace TurtleGraphics

namespace Token

variable {start last : Nat} {tokens others : List Token} {token : Token}

/-- The tokens stand on the lines from one to another, in order. -/
structure Ascending (start last : Nat) (tokens : List Token) : Prop where
  sorted : tokens.Pairwise (·.line ≤ ·.line)
  between : ∀ token ∈ tokens, start ≤ token.line ∧ token.line ≤ last

theorem ascending_nil (start last : Nat) : Ascending start last [] :=
  ⟨List.Pairwise.nil, fun _ h => nomatch h⟩

theorem Ascending.append {middle : Nat} (h : Ascending start middle tokens)
    (hothers : Ascending middle last others) (hstart : start ≤ middle) (hlast : middle ≤ last) :
    Ascending start last (tokens ++ others) := by
  refine ⟨List.pairwise_append.2 ⟨h.sorted, hothers.sorted, ?_⟩, ?_⟩
  · intro token htoken other hother
    exact Nat.le_trans (h.between token htoken).2 (hothers.between other hother).1
  · intro token htoken
    rcases List.mem_append.1 htoken with htoken | htoken
    · have hbetween := h.between token htoken
      omega
    · have hbetween := hothers.between token htoken
      omega

/-- The end of the input stands on the line of the last token. -/
theorem Ascending.append_stop (h : Ascending start last tokens) (hne : tokens ≠ []) :
    Ascending start last (tokens ++ [stop tokens]) := by
  obtain ⟨before, token, rfl⟩ : ∃ before token, tokens = before ++ [token] :=
    ⟨_, _, (List.dropLast_concat_getLast hne).symm⟩
  have hstop : (stop (before ++ [token])).line = token.line := by
    simp [stop]
  have hsorted := List.pairwise_append.1 h.sorted
  refine ⟨List.pairwise_append.2 ⟨h.sorted, List.pairwise_singleton _ _, ?_⟩, ?_⟩
  · intro earlier hearlier other hother
    obtain rfl := List.mem_singleton.1 hother
    rw [hstop]
    rcases List.mem_append.1 hearlier with hearlier | hearlier
    · exact hsorted.2.2 earlier hearlier token List.mem_cons_self
    · obtain rfl := List.mem_singleton.1 hearlier
      exact Nat.le_refl _
  · intro other hother
    rcases List.mem_append.1 hother with hother | hother
    · exact h.between other hother
    · obtain rfl := List.mem_singleton.1 hother
      rw [hstop]
      exact h.between token (List.mem_append_right _ List.mem_cons_self)

end Token

namespace Lexeme

variable {lexeme : Lexeme} {text digits : List Char} {more : Char → Bool} {count : Option UInt32}

/-- A loop's keyword and its count, with the separators around that. -/
def IsLoop (text digits : List Char) : Prop :=
  ∃ typed lead trail, text = typed ++ (lead ++ (digits ++ trail)) ∧
    typed.map Char.toLower ∈ loopWords ∧ IsRun isSeparator lead ∧ IsRun Char.isDigit digits ∧
    IsRun isSeparator trail

/-- No lexeme is a loop's keyword alone. -/
theorem Form.ne_loop (h : Form lexeme text more) : lexeme ≠ .token .loop := by
  intro hloop
  cases h with
  | separatedWord hmem =>
    simp only [separatedWords, List.mem_cons, List.not_mem_nil, or_false] at hmem
    rcases hmem with rfl | rfl | rfl | rfl | rfl | rfl | rfl <;> cases hloop
  | standaloneWord hmem =>
    simp only [standaloneWords, List.mem_cons, List.not_mem_nil, or_false] at hmem
    rcases hmem with rfl | rfl <;> cases hloop
  | number => cases hvalue : value? text <;> simp [hvalue] at hloop
  | _ => cases hloop

theorem Form.exists_isLoop (h : Form lexeme text more) (hloop : lexeme = .loop count) :
    ∃ digits, IsLoop text digits ∧ count = value? digits := by
  cases h with
  | @loop word typed lead digits trail hmem htyped hlead hdigits htrail =>
    cases hloop
    exact ⟨digits, ⟨typed, lead, trail, rfl, htyped ▸ hmem, hlead, hdigits, htrail⟩, rfl⟩
  | _ => cases hloop

/-- The token that a count gives. -/
def countKind (digits : List Char) : Token.Kind :=
  (value? digits).elim .unrecognized .number

theorem toNat_of_value? {value : UInt32} (h : value? digits = some value) :
    value.toNat = Nat.ofDigitChars 10 digits 0 := by
  simp only [value?, fits?] at h
  split at h
  · cases h
    rfl
  · cases h

theorem countKind_eq_unrecognized_iff (digits : List Char) :
    countKind digits = .unrecognized ↔ 4294967295 < Nat.ofDigitChars 10 digits 0 := by
  have hvalue : value? digits = none ↔ 4294967295 < Nat.ofDigitChars 10 digits 0 :=
    value?_eq_none_iff
  rw [← hvalue, countKind]
  cases value? digits <;> simp

theorem exists_number_of_countKind (h : countKind digits ≠ .unrecognized) :
    ∃ count, countKind digits = .number count ∧ count.toNat = Nat.ofDigitChars 10 digits 0 := by
  unfold countKind at h ⊢
  cases hvalue : value? digits with
  | some count => exact ⟨count, rfl, toNat_of_value? hvalue⟩
  | none => simp [hvalue] at h

theorem countKind_ne_loop (digits : List Char) : countKind digits ≠ .loop := by
  unfold countKind
  cases value? digits <;> exact Token.Kind.noConfusion

end Lexeme

namespace Piece

variable {line : Nat} {text after : List Char} {pieces : List Piece} {piece : Piece}
  {token : Token} {before rest : List Token}

theorem line_le_endLine (piece : Piece) : piece.line ≤ piece.endLine :=
  Nat.le_add_right _ _

theorem ascending_tokens (piece : Piece) :
    Token.Ascending piece.line piece.endLine piece.tokens := by
  have hle := piece.line_le_endLine
  rw [tokens_eq]
  rcases piece.lexeme? with _ | kind | count | _
  · exact ⟨List.pairwise_singleton _ _, by simpa [Lexeme.tokensBetween] using hle⟩
  · exact ⟨List.pairwise_singleton _ _, by simpa [Lexeme.tokensBetween] using hle⟩
  · cases count <;> exact ⟨by simpa [Lexeme.tokensBetween] using hle,
      by simpa [Lexeme.tokensBetween] using hle⟩
  · exact Token.ascending_nil _ _

theorem ascending_of_segmentation (h : Segmentation line text pieces) :
    Token.Ascending line (line + text.count '\n') (pieces.flatMap tokens) := by
  induction pieces generalizing line text with
  | nil => exact Token.ascending_nil _ _
  | cons piece pieces ih =>
    obtain ⟨rfl, _, htail, rfl⟩ := segmentation_cons_iff.1 h
    have hcount : piece.line + (piece.text ++ pieces.flatMap Piece.text).count '\n' =
        piece.endLine + (pieces.flatMap Piece.text).count '\n' := by
      rw [List.count_append, endLine, Nat.add_assoc]
    rw [hcount, List.flatMap_cons]
    exact piece.ascending_tokens.append (ih htail) piece.line_le_endLine (Nat.le_add_right _ _)

theorem eq_nil_of_pair_eq_append {digits : List Char} (hkind : token.kind = .loop)
    (h : [token, ⟨Lexeme.countKind digits, line⟩] = before ++ token :: rest) :
    before = [] ∧ rest = [⟨Lexeme.countKind digits, line⟩] := by
  rcases before with _ | ⟨first, _ | ⟨second, before⟩⟩
  · cases h
    exact ⟨rfl, rfl⟩
  · obtain ⟨rfl, _⟩ := List.cons.inj (List.cons.inj h).2
    exact (Lexeme.countKind_ne_loop digits hkind).elim
  · simp at h

/-- A loop's keyword and its count are the tokens of one piece. -/
theorem tokens_of_loop (h : piece.Stands after) (htoken : token ∈ piece.tokens)
    (hkind : token.kind = .loop) :
    ∃ digits, Lexeme.IsLoop piece.text digits ∧
      piece.tokens = [token, ⟨Lexeme.countKind digits, piece.endLine⟩] := by
  obtain ⟨line, text, lexeme?⟩ := piece
  rcases lexeme? with _ | kind | count | _
  · obtain rfl := List.mem_singleton.1 htoken
    cases hkind
  · obtain ⟨more, hform, _⟩ := Lexeme.match?_append_eq_some_iff.1 h
    obtain rfl := List.mem_singleton.1 htoken
    exact (hform.ne_loop (congrArg Lexeme.token hkind)).elim
  · obtain ⟨more, hform, _⟩ := Lexeme.match?_append_eq_some_iff.1 h
    obtain ⟨digits, hdigits, rfl⟩ := hform.exists_isLoop rfl
    refine ⟨digits, hdigits, ?_⟩
    rcases List.mem_cons.1 htoken with rfl | htoken
    · rfl
    · obtain rfl := List.mem_singleton.1 htoken
      exact (Lexeme.countKind_ne_loop digits hkind).elim
  · cases htoken

/-- Where a loop's keyword is among the tokens, its piece is among the pieces, and the token after
it is its count. -/
theorem exists_piece_of_loop (h : Segmentation line text pieces)
    (hsplit : pieces.flatMap tokens = before ++ token :: rest) (hkind : token.kind = .loop) :
    ∃ (earlier : List Piece) (piece : Piece) (later : List Piece) (digits : List Char)
      (next : Token) (others : List Token), pieces = earlier ++ piece :: later ∧
      earlier.flatMap tokens = before ∧ Lexeme.IsLoop piece.text digits ∧
      rest = next :: others ∧ next.kind = Lexeme.countKind digits := by
  induction pieces generalizing line text before with
  | nil => cases before <;> cases hsplit
  | cons piece pieces ih =>
    obtain ⟨_, hstands, htail, _⟩ := segmentation_cons_iff.1 h
    rw [List.flatMap_cons] at hsplit
    rcases List.append_eq_append_iff.1 hsplit with
      ⟨between, rfl, hlater⟩ | ⟨own, htokens, hrest⟩
    · obtain ⟨earlier, other, later, digits, next, others, rfl, rfl, hloop⟩ := ih htail hlater
      exact ⟨piece :: earlier, other, later, digits, next, others, rfl, rfl, hloop⟩
    · cases own with
      | nil =>
        -- The keyword is the first token after those of this piece.
        obtain ⟨earlier, other, later, digits, next, others, rfl, hnil, hloop⟩ :=
          @ih _ _ [] htail hrest.symm
        refine ⟨piece :: earlier, other, later, digits, next, others, rfl, ?_, hloop⟩
        rw [List.flatMap_cons, hnil, htokens, List.append_nil, List.append_nil]
      | cons _ own =>
        obtain ⟨rfl, rfl⟩ := List.cons.inj hrest
        have hmem : token ∈ piece.tokens := by
          rw [htokens]
          exact List.mem_append_right _ List.mem_cons_self
        obtain ⟨digits, hloop, hpair⟩ := tokens_of_loop hstands hmem hkind
        obtain ⟨rfl, rfl⟩ := eq_nil_of_pair_eq_append hkind (hpair.symm.trans htokens)
        exact ⟨[], piece, pieces, digits, _, _, rfl, rfl, hloop, rfl, rfl⟩

end Piece

namespace Token

variable {text : String} {tokens before rest : List Token} {token : Token} {error : SyntaxError}

theorem ascending_beforeEnd (text : String) :
    Ascending 1 (1 + text.toList.count '\n') (beforeEnd (ofText text)) := by
  have h := Piece.ascending_of_segmentation
    (Piece.segmentation_cutFrom 1 (Comment.remove text.toList))
  rw [Comment.count_newline_remove] at h
  rwa [beforeEnd_ofText]

/-- A text without tokens has its end on no line. -/
theorem ofText_cases (text : String) :
    ofText text = [⟨.endOfInput, 0⟩] ∨ Ascending 1 (1 + text.toList.count '\n') (ofText text) := by
  by_cases hnil : beforeEnd (ofText text) = []
  · left
    rw [ofText_eq, hnil]
    rfl
  · right
    rw [ofText_eq]
    exact (ascending_beforeEnd text).append_stop hnil

theorem sorted_ofText (text : String) : (ofText text).Pairwise (·.line ≤ ·.line) := by
  rcases ofText_cases text with hnil | h
  · rw [hnil]
    exact List.pairwise_singleton _ _
  · exact h.sorted

theorem mem_beforeEnd_of_kind (h : token ∈ ofText text) (hend : token.kind ≠ .endOfInput) :
    token ∈ beforeEnd (ofText text) := by
  rw [ofText_eq] at h
  rcases List.mem_append.1 h with h | h
  · exact h
  · obtain rfl := List.mem_singleton.1 h
    exact (hend rfl).elim

theorem exists_count_of_loop (h : ofText text = before ++ token :: rest)
    (hkind : token.kind = .loop) :
    ∃ (earlier : List Piece) (piece : Piece) (later : List Piece) (digits : List Char)
      (next : Token) (others : List Token), Piece.ofText text = earlier ++ piece :: later ∧
      earlier.flatMap Piece.tokens = before ∧ Lexeme.IsLoop piece.text digits ∧
      rest = next :: others ∧ next.kind = Lexeme.countKind digits := by
  have hpieces := Piece.segmentation_cutFrom 1 (Comment.remove text.toList)
  have hofText : (Piece.ofText text).flatMap Piece.tokens ++
      [stop ((Piece.ofText text).flatMap Piece.tokens)] = before ++ token :: rest := h
  rcases List.append_eq_append_iff.1 hofText with ⟨between, _, hstop⟩ | ⟨own, htokens, hrest⟩
  · have hmem : token ∈ [stop ((Piece.ofText text).flatMap Piece.tokens)] := by
      rw [hstop]
      exact List.mem_append_right _ List.mem_cons_self
    obtain rfl := List.mem_singleton.1 hmem
    cases hkind
  · cases own with
    | nil =>
      obtain ⟨rfl, _⟩ := List.cons.inj hrest
      cases hkind
    | cons _ own =>
      obtain ⟨rfl, rfl⟩ := List.cons.inj hrest
      obtain ⟨earlier, piece, later, digits, next, others, hpiece, hearlier, hloop, rfl, hnext⟩ :=
        Piece.exists_piece_of_loop hpieces htokens hkind
      exact ⟨earlier, piece, later, digits, next, _, hpiece, hearlier, hloop, rfl, hnext⟩

theorem line_eq_of_penLine? {line : Nat} (h : token.penLine? = some line) : token.line = line := by
  unfold penLine? at h
  split at h <;> cases h <;> rfl

theorem getD_mem_ofText {index : Nat} (h : index ≤ (beforeEnd (ofText text)).length) :
    (ofText text).getD index pastEnd ∈ ofText text := by
  have hlt : index < (ofText text).length := by
    rw [ofText_eq, List.length_append]
    exact Nat.lt_succ_of_le h
  rw [List.getD_eq_getElem _ _ hlt]
  exact List.getElem_mem hlt

/-- An error takes its line from a token, at fault or before the one at fault. -/
theorem exists_line_of_blames {index : Nat} (h : error.Blames (ofText text) index) :
    ∃ token ∈ ofText text, error.line = token.line := by
  have hline := h.line_eq
  cases hpen : ((ofText text).take index).getLast?.bind penLine? with
  | none =>
    rw [hpen] at hline
    exact ⟨_, getD_mem_ofText h.index_le, hline⟩
  | some line =>
    obtain ⟨pen, hlast, hpenLine⟩ := Option.bind_eq_some_iff.1 hpen
    refine ⟨pen, List.mem_of_mem_take (List.mem_of_getLast? hlast), ?_⟩
    rw [hline, hpen, Option.getD_some, line_eq_of_penLine? hpenLine]

end Token

namespace Parse.State

variable {state : State} {tokens before : List Token} {token next : Token}

theorem need_of_loop (h : initial.run? (before ++ [token]) = some state)
    (hkind : token.kind = .loop) : state.need = .count := by
  rw [run?_append] at h
  obtain ⟨middle, _, hrun⟩ := Option.bind_eq_some_iff.1 h
  obtain ⟨last, hnext, hlast⟩ := Option.bind_eq_some_iff.1 hrun
  obtain rfl : last = state := Option.some.inj hlast
  cases next?_eq_some_iff.1 hnext <;> cases hkind
  rfl

/-- A count is no number exactly if it is unrecognized. -/
theorem cause_ne_missingNumber (hneed : state.need = .count) (hnext : state.next? token = none)
    (hcount : token.kind = .unrecognized ∨ ∃ count, token.kind = .number count) :
    (state.refuse token).cause ≠ .missingNumber := by
  rcases hcount with hkind | ⟨count, hkind⟩
  · simp [refuse, SyntaxError.ofToken, hkind]
  · simp [next?, hneed, hkind] at hnext

end Parse.State

namespace Token

variable {text : String} {error : SyntaxError}

theorem exists_blames_of_ofText (h : Tree.ofText text = .error error) :
    ∃ index, error.Blames (ofText text) index ∧ (error.cause = .missingNumber →
      ∀ token ∈ ((ofText text).take index).getLast?, token.kind ≠ .loop) := by
  obtain ⟨index, state, hblames, hrun, hnext, rfl⟩ := Parse.State.exists_refuse_of_ofTokens h
  refine ⟨index, hblames, ?_⟩
  intro hcause token htoken hkind
  obtain ⟨before, hbefore⟩ := List.getLast?_eq_some_iff.1 htoken
  have hsplit := List.take_append_drop index (ofText text)
  rw [hbefore, List.append_assoc] at hsplit
  obtain ⟨_, _, _, digits, next, others, _, _, _, hdrop, hcount⟩ :=
    exists_count_of_loop hsplit.symm hkind
  have hget : (ofText text).getD index pastEnd = next := by
    have hhead := congrArg List.head? hdrop
    simpa using congrArg (·.getD pastEnd) hhead
  rw [hbefore] at hrun
  rw [hget] at hnext hcause
  refine Parse.State.cause_ne_missingNumber (Parse.State.need_of_loop hrun hkind) hnext ?_ hcause
  rw [hcount]
  by_cases hkind : Lexeme.countKind digits = .unrecognized
  · exact Or.inl hkind
  · obtain ⟨count, hnumber, _⟩ := Lexeme.exists_number_of_countKind hkind
    exact Or.inr ⟨count, hnumber⟩

/-- The tokens of a text stand on its lines in order, color literals are hash signs with six letters
or digits, and a loop's keyword is followed by its count, which is unrecognized if 32 bits do not
hold it. So an error stands on a line of the text, and never lacks a number after a loop's keyword.
-/
theorem wellFormed_ofText (text : String) :
    (ofText text).Pairwise (·.line ≤ ·.line) ∧
    (ofText text = [⟨.endOfInput, 0⟩] ∨
      ∀ token ∈ ofText text, 1 ≤ token.line ∧ token.line ≤ 1 + text.toList.count '\n') ∧
    (∀ token ∈ ofText text, ∀ literal, token.kind = .colorLiteral literal →
      ∃ digits, literal.toList = '#' :: digits ∧ digits.length = 6 ∧
        ∀ c ∈ digits, c.isAlphanum = true) ∧
    (∀ (before : List Token) (token : Token) (rest : List Token),
      ofText text = before ++ token :: rest → token.kind = .loop →
      ∃ (earlier : List Piece) (piece : Piece) (later : List Piece) (digits : List Char)
        (next : Token) (others : List Token), Piece.ofText text = earlier ++ piece :: later ∧
        earlier.flatMap Piece.tokens = before ∧ Lexeme.IsLoop piece.text digits ∧
        rest = next :: others ∧
        (next.kind = .unrecognized ↔ 4294967295 < Nat.ofDigitChars 10 digits 0) ∧
        (next.kind ≠ .unrecognized → ∃ count : UInt32, next.kind = .number count ∧
          count.toNat = Nat.ofDigitChars 10 digits 0)) ∧
    ∀ error, Tree.ofText text = .error error →
      (1 ≤ error.line ∧ error.line ≤ 1 + text.toList.count '\n') ∧
      ∃ index, error.Blames (ofText text) index ∧ (error.cause = .missingNumber →
        ∀ token ∈ ((ofText text).take index).getLast?, token.kind ≠ .loop) := by
  refine ⟨sorted_ofText text, ?_, ?_, ?_, ?_⟩
  · rcases ofText_cases text with hnil | h
    · exact Or.inl hnil
    · exact Or.inr h.between
  · intro token htoken literal hkind
    have hmem : token ∈ beforeEnd (ofText text) := by
      apply mem_beforeEnd_of_kind htoken
      simp [hkind]
    have hlexical := lexical_of_mem_beforeEnd hmem
    rwa [hkind] at hlexical
  · intro before token rest hsplit hkind
    obtain ⟨earlier, piece, later, digits, next, others, hpieces, hbefore, hloop, hrest, hcount⟩ :=
      exists_count_of_loop hsplit hkind
    refine ⟨earlier, piece, later, digits, next, others, hpieces, hbefore, hloop, hrest, ?_, ?_⟩
    · rw [hcount]
      exact Lexeme.countKind_eq_unrecognized_iff digits
    · rw [hcount]
      exact Lexeme.exists_number_of_countKind
  · intro error herror
    obtain ⟨index, hblames, hnumber⟩ := exists_blames_of_ofText herror
    refine ⟨?_, index, hblames, hnumber⟩
    obtain ⟨token, htoken, hline⟩ := exists_line_of_blames hblames
    rw [hline]
    rcases ofText_cases text with hnil | h
    · rw [Tree.ofText, hnil] at herror
      cases herror
    · exact h.between token htoken

/-- A count that 32 bits do not hold, on the line after its keyword. -/
theorem wellFormed_ofText_large_count :
    Tree.ofText "REPEAT\n4294967296 UP." = .error ⟨.unrecognized, 2, .unrecognized⟩ ∧
      (∃ index, SyntaxError.Blames ⟨.unrecognized, 2, .unrecognized⟩
        (ofText "REPEAT\n4294967296 UP.") index) ∧
      ∃ piece ∈ Piece.ofText "REPEAT\n4294967296 UP.", ∃ digits,
        Lexeme.IsLoop piece.text digits ∧ 4294967295 < Nat.ofDigitChars 10 digits 0 := by
  have htokens : ofText "REPEAT\n4294967296 UP." =
      [] ++ ⟨.loop, 1⟩ :: [⟨.unrecognized, 2⟩, ⟨.penUp, 2⟩, ⟨.period, 2⟩, ⟨.endOfInput, 2⟩] := by
    decide +kernel
  have herror : Tree.ofText "REPEAT\n4294967296 UP." = .error ⟨.unrecognized, 2, .unrecognized⟩ :=
    (congrArg Tree.ofTokens htokens).trans rfl
  obtain ⟨_, _, _, hloops, herrors⟩ := wellFormed_ofText "REPEAT\n4294967296 UP."
  obtain ⟨_, index, hblames, _⟩ := herrors _ herror
  obtain ⟨earlier, piece, later, digits, next, others, hpieces, _, hloop, hrest, hcount, _⟩ :=
    hloops _ _ _ htokens rfl
  obtain ⟨rfl, rfl⟩ := List.cons.inj hrest
  refine ⟨herror, ⟨index, hblames⟩, piece, ?_, digits, hloop, hcount.1 rfl⟩
  rw [hpieces]
  exact List.mem_append_right _ List.mem_cons_self

end Token

end TurtleGraphics
