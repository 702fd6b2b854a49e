import TurtleGraphics.Proofs.Segmentation

/-! Unrecognized tokens stand for gaps or for digits that 32 bits do not hold. -/
namespace TurtleGraphics

namespace Lexeme

variable {lexeme : Lexeme} {text typed word digits : List Char} {more : Char → Bool}
  {keyword : Keyword}

/-- The number that the digits in a text make. -/
def worth (text : List Char) : Nat :=
  Nat.ofDigitChars 10 (text.filter Char.isDigit) 0

/-- Whether the number or the count of a lexeme is missing. -/
def lacksValue (lexeme : Lexeme) : Bool :=
  lexeme = .token .unrecognized || lexeme = .loop none

theorem filter_isDigit_eq_nil (h : ∀ c ∈ text, c.isDigit = false) :
    text.filter Char.isDigit = [] := by
  rw [List.filter_eq_nil_iff]
  intro c hc
  simp [h c hc]

theorem worth_eq_zero (h : ∀ c ∈ text, c.isDigit = false) : worth text = 0 := by
  rw [worth, filter_isDigit_eq_nil h, Nat.ofDigitChars_nil]

theorem IsRun.filter_isDigit (h : IsRun Char.isDigit digits) :
    digits.filter Char.isDigit = digits :=
  List.filter_eq_self.2 h.all

theorem IsRun.filter_isDigit_of_isSeparator (h : IsRun isSeparator text) :
    text.filter Char.isDigit = [] :=
  filter_isDigit_eq_nil fun c hc => isDigit_of_isSeparator (h.all c hc)

theorem isDigit_of_mem_typed (hword : isWord word = true) (htyped : typed.map Char.toLower = word) :
    ∀ c ∈ typed, c.isDigit = false := by
  intro c hc
  subst word
  have halpha := List.all_eq_true.1 hword _ (List.mem_map_of_mem hc)
  cases hdigit : c.isDigit with
  | false => rfl
  | true =>
    rw [toLower_of_isDigit hdigit] at halpha
    cases (isAlpha_of_isDigit hdigit).symm.trans halpha

theorem ofDigitChars_lt_pow (h : ∀ c ∈ digits, c.isDigit = true) :
    Nat.ofDigitChars 10 digits 0 < Nat.pow 10 digits.length := by
  induction digits with
  | nil => decide
  | cons c digits ih =>
    obtain ⟨hc, hdigits⟩ := List.forall_mem_cons.1 h
    have hdigit : c.toNat - '0'.toNat ≤ 9 := by
      simp only [Char.isDigit, Bool.and_eq_true, decide_eq_true_eq, UInt32.le_iff_toNat_le] at hc
      exact Nat.sub_le_of_le_add hc.2
    calc Nat.ofDigitChars 10 (c :: digits) 0
        = Nat.pow 10 digits.length * (c.toNat - '0'.toNat) + Nat.ofDigitChars 10 digits 0 := by
          rw [Nat.ofDigitChars_cons, Nat.ofDigitChars_eq_ofDigitChars_zero, Nat.mul_zero,
            Nat.zero_add]
          rfl
      _ < Nat.pow 10 digits.length * 9 + Nat.pow 10 digits.length :=
          Nat.add_lt_add_of_le_of_lt (Nat.mul_le_mul_left _ hdigit) (ih hdigits)
      _ = Nat.pow 10 (digits.length + 1) := rfl

theorem value?_eq_none_iff :
    value? digits = none ↔ UInt32.size ≤ Nat.ofDigitChars 10 digits 0 := by
  simp [value?, fits?]

theorem kind_ne_of_mem_separatedWords (h : keyword ∈ separatedWords) :
    keyword.kind ≠ .unrecognized := by
  simp only [separatedWords, List.mem_cons, List.not_mem_nil, or_false] at h
  rcases h with rfl | rfl | rfl | rfl | rfl | rfl | rfl <;> exact Token.Kind.noConfusion

theorem kind_ne_of_mem_standaloneWords (h : keyword ∈ standaloneWords) :
    keyword.kind ≠ .unrecognized := by
  simp only [standaloneWords, List.mem_cons, List.not_mem_nil, or_false] at h
  rcases h with rfl | rfl <;> exact Token.Kind.noConfusion

/-- Six places are too few for a number beyond 32 bits. -/
theorem worth_colorLiteral_lt (hlength : digits.length = 6) :
    worth ('#' :: digits) < UInt32.size := by
  have hfilter : ('#' :: digits).filter Char.isDigit = digits.filter Char.isDigit := rfl
  have hshort : (digits.filter Char.isDigit).length ≤ 6 := hlength ▸ List.length_filter_le _ _
  calc worth ('#' :: digits)
      < Nat.pow 10 (digits.filter Char.isDigit).length := by
        rw [worth, hfilter]
        exact ofDigitChars_lt_pow fun c hc => (List.mem_filter.1 hc).2
    _ ≤ Nat.pow 10 6 := Nat.pow_le_pow_right (by decide) hshort
    _ < UInt32.size := by decide

theorem lacksValue_iff_of_not_isDigit (hlexeme : lexeme.lacksValue = false)
    (htext : ∀ c ∈ text, c.isDigit = false) :
    lexeme.lacksValue = true ↔ UInt32.size ≤ worth text := by
  rw [hlexeme, worth_eq_zero htext]
  decide

/-- A lexeme lacks its value exactly if 32 bits do not hold it. -/
theorem Form.lacksValue_iff (h : Form lexeme text more) :
    lexeme.lacksValue = true ↔ UInt32.size ≤ worth text := by
  cases h with
  | separatedWord hmem htyped hc =>
    apply lacksValue_iff_of_not_isDigit
    · simp [lacksValue, kind_ne_of_mem_separatedWords hmem]
    · exact List.forall_mem_append.2 ⟨isDigit_of_mem_typed (isWord_of_mem_separatedWords _ hmem)
        htyped, List.forall_mem_singleton.2 (isDigit_of_isSeparator hc)⟩
  | standaloneWord hmem htyped =>
    apply lacksValue_iff_of_not_isDigit
    · simp [lacksValue, kind_ne_of_mem_standaloneWords hmem]
    · exact isDigit_of_mem_typed (isWord_of_mem_standaloneWords _ hmem) htyped
  | @loop word typed lead digits trail hmem htyped hlead hdigits htrail =>
    have htyped := isDigit_of_mem_typed (isWord_of_mem_loopWords _ hmem) htyped
    have hworth : worth (typed ++ (lead ++ (digits ++ trail))) = Nat.ofDigitChars 10 digits 0 := by
      simp only [worth, List.filter_append, filter_isDigit_eq_nil htyped,
        hlead.filter_isDigit_of_isSeparator, hdigits.filter_isDigit,
        htrail.filter_isDigit_of_isSeparator, List.nil_append, List.append_nil]
    rw [hworth, ← value?_eq_none_iff]
    simp [lacksValue]
  | number hdigits =>
    rw [worth, hdigits.filter_isDigit, ← value?_eq_none_iff]
    cases hvalue : value? text <;> simp [lacksValue]
  | colorLiteral hlength =>
    have hworth := worth_colorLiteral_lt hlength
    simp [lacksValue, Nat.not_le.2 hworth]
  | period | quote | newline =>
    exact lacksValue_iff_of_not_isDigit rfl (List.forall_mem_singleton.2 rfl)
  | blanks hrun =>
    apply lacksValue_iff_of_not_isDigit rfl
    intro c hc
    exact isDigit_of_isSeparator (isSeparator_of_isBlank (hrun.all c hc))

end Lexeme

namespace Piece

variable {line : Nat} {text : List Char} {pieces : List Piece} {piece : Piece}

theorem exists_unrecognized_iff :
    (∃ token ∈ piece.tokens, token.kind = .unrecognized) ↔
      piece.isGap = true ∨ ∃ lexeme, piece.lexeme? = some lexeme ∧ lexeme.lacksValue = true := by
  obtain ⟨line, text, lexeme?⟩ := piece
  rcases lexeme? with _ | kind | count | _
  · simp [tokens, isGap]
  · simp [tokens, isGap, Lexeme.lacksValue]
  · cases count <;> simp [tokens, isGap, Lexeme.lacksValue]
  · simp [tokens, isGap, Lexeme.lacksValue]

/-- Where there is no gap, a token is unrecognized for the worth of its digits alone. -/
theorem exists_unrecognized_iff_worth (h : Segmentation line text pieces) (hpiece : piece ∈ pieces)
    (hgap : piece.isGap = false) :
    (∃ token ∈ piece.tokens, token.kind = .unrecognized) ↔
      UInt32.size ≤ Lexeme.worth piece.text := by
  obtain ⟨before, after, hsplit⟩ := List.append_of_mem hpiece
  have hstands := h.stands before piece after hsplit
  cases hlexeme : piece.lexeme? with
  | none => simp [isGap, hlexeme] at hgap
  | some lexeme =>
    rw [Stands, hlexeme] at hstands
    obtain ⟨more, hform, _⟩ := Lexeme.match?_append_eq_some_iff.1 hstands
    rw [exists_unrecognized_iff, ← hform.lacksValue_iff, hgap, hlexeme]
    simp

end Piece

end TurtleGraphics
