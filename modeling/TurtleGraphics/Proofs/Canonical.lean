import Mathlib
import TurtleGraphics.Proofs.Grammar
import TurtleGraphics.Proofs.Written

/-! The trees that program text can give. -/
namespace TurtleGraphics

namespace Color

variable {color : Color} {text : String} {c : Char}

/-- A hash sign and six upper-case letters or digits. -/
def IsCode (color : Color) : Prop :=
  ∃ digits, color.text.toList = '#' :: digits ∧ digits.length = 6 ∧
    ∀ c ∈ digits, c.isUpper = true ∨ c.isDigit = true

theorem toUpper_of_isDigit (h : c.isDigit = true) : c.toUpper = c := by
  apply Char.toUpper_eq_of_not_isLower
  intro hlower
  rw [Char.isDigit_iff_toNat] at h
  simp only [Char.isLower, Bool.and_eq_true, decide_eq_true_eq] at hlower
  have hle : 'a'.toNat ≤ '9'.toNat := Nat.le_trans hlower.1 h.2
  cases Nat.not_le_of_lt (by decide) hle

theorem isUpper_or_isDigit_toUpper (h : c.isAlphanum = true) :
    c.toUpper.isUpper = true ∨ c.toUpper.isDigit = true := by
  rcases Bool.or_eq_true_iff.1 h with halpha | hdigit
  · rw [Char.isUpper_toUpper_eq_isAlpha]
    exact Or.inl halpha
  · rw [toUpper_of_isDigit hdigit]
    exact Or.inr hdigit

theorem toUpper_of_isUpper_or_isDigit (h : c.isUpper = true ∨ c.isDigit = true) :
    c.toUpper = c := by
  rcases h with hupper | hdigit
  · exact Char.toUpper_eq_of_not_isLower (Char.not_isLower_of_isUpper hupper)
  · exact toUpper_of_isDigit hdigit

theorem IsCode.ofText_text (h : color.IsCode) : ofText color.text = color := by
  obtain ⟨digits, htext, _, hdigits⟩ := h
  have hupper : color.text.map Char.toUpper = color.text := by
    apply String.toList_inj.1
    rw [String.toList_map, htext]
    have hmap : digits.map Char.toUpper = digits.map id := by
      apply List.map_congr_left
      intro c hc
      exact toUpper_of_isUpper_or_isDigit (hdigits c hc)
    rw [List.map_id] at hmap
    exact congrArg (List.cons '#') hmap
  rw [ofText, hupper]

theorem isCode_ofText (h : (Token.Kind.colorLiteral text).Lexical) : (ofText text).IsCode := by
  obtain ⟨digits, htext, hlength, hdigits⟩ := h
  refine ⟨digits.map Char.toUpper, ?_, ?_, ?_⟩
  · rw [ofText, String.toList_map, htext]
    rfl
  · rw [List.length_map, hlength]
  · intro c hc
    obtain ⟨d, hd, rfl⟩ := List.mem_map.1 hc
    exact isUpper_or_isDigit_toUpper (hdigits d hd)

end Color

theorem Token.lexical_of_mem_beforeEnd {token : Token} {text : String}
    (h : token ∈ beforeEnd (ofText text)) : token.kind.Lexical := by
  rw [beforeEnd_ofText] at h
  exact Piece.lexical_of_segmentation (Piece.segmentation_cutFrom _ _) h

/-- The color it sets. -/
def Instruction.color? : Instruction → Option Color
  | setColor color => some color
  | _ => none

namespace Tree

variable {tree : Tree} {color : Color} {text : String}

/-- The colors that the tree's instructions set. -/
def colors : Tree → List Color
  | seq current rest => current.colors ++ rest.colors
  | last current => current.colors
  | loop _ body => body.colors
  | leaf instruction => instruction.color?.toList

theorem mem_colors_iff : color ∈ tree.colors ↔ .colorLiteral color.text ∈ tree.spelling := by
  induction tree with
  | seq current rest ihc ihr => simp [colors, spelling, ihc, ihr]
  | last current ih => simpa [colors, spelling] using ih
  | loop count body ih =>
    rw [colors, ih, spelling]
    split <;> simp
  | leaf instruction =>
    cases instruction with
    | setColor other =>
      obtain ⟨text⟩ := color
      obtain ⟨others⟩ := other
      simp [colors, spelling, Instruction.color?, Instruction.spelling]
    | _ => simp [colors, spelling, Instruction.color?, Instruction.spelling]

/-- A program of statements within the limit of nesting, whose colors are codes. -/
def IsCanonical (tree : Tree) : Prop :=
  ∃ statements, tree = program statements ∧
    ∀ statement ∈ statements, statement.IsStatement ∧ statement.nesting ≤ nestingLimit ∧
      ∀ color ∈ statement.colors, color.IsCode

theorem isCode_of_mem_beforeEnd
    (h : .colorLiteral color.text ∈ (Token.beforeEnd (Token.ofText text)).map (·.kind.normal)) :
    color.IsCode := by
  obtain ⟨token, htoken, hkind⟩ := List.mem_map.1 h
  have hlexical : token.kind.Lexical := Token.lexical_of_mem_beforeEnd htoken
  cases htext : token.kind with
  | colorLiteral written =>
    rw [htext] at hkind hlexical
    have hcolor : Color.ofText written = color :=
      congrArg Color.mk (Token.Kind.colorLiteral.inj hkind)
    rw [← hcolor]
    exact Color.isCode_ofText hlexical
  | _ =>
    rw [htext] at hkind
    cases hkind

theorem isCanonical_of_ofText (h : ofText text = .ok tree) : tree.IsCanonical := by
  obtain ⟨statements, rfl, hstatements, hspelling⟩ := exists_statements_of_ofTokens h
  refine ⟨statements, rfl, ?_⟩
  intro statement hs
  obtain ⟨hstatement, hnesting⟩ := hstatements statement hs
  refine ⟨hstatement, hnesting, ?_⟩
  intro color hcolor
  apply isCode_of_mem_beforeEnd
  rw [hspelling]
  exact List.mem_flatMap_of_mem hs (mem_colors_iff.1 hcolor)

end Tree

end TurtleGraphics
