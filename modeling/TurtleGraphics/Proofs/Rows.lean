import TurtleGraphics.Proofs.Actions
import TurtleGraphics.Proofs.Streams
import TurtleGraphics.Turtle

/-! A drawing has a segment for each move made with the pen down. The texts of segments and of
errors are lines. -/
namespace TurtleGraphics

/-- A text without line feeds. -/
def IsLine (text : String) : Prop :=
  '\n' ∉ text.toList

instance (text : String) : Decidable (IsLine text) :=
  inferInstanceAs (Decidable ('\n' ∉ text.toList))

section

variable {a b text : String} {digits : List Char}

theorem isLine_append : IsLine (a ++ b) ↔ IsLine a ∧ IsLine b := by
  simp [IsLine]

theorem not_mem_repr {c : Char} (hc : c.isDigit = false) (n : Nat) : c ∉ n.repr.toList := by
  intro hmem
  rw [Nat.toList_repr] at hmem
  cases hc.symm.trans (Nat.isDigit_of_mem_toDigits (by decide) (by decide) hmem)

theorem isLine_repr (n : Nat) : IsLine n.repr :=
  not_mem_repr rfl n

theorem isLine_intercalate {texts : List String} (h : ∀ text ∈ texts, IsLine text) :
    IsLine (" ".intercalate texts) := by
  induction texts with
  | nil => decide
  | cons text texts ih =>
    obtain ⟨htext, htexts⟩ := List.forall_mem_cons.1 h
    cases texts with
    | nil => rwa [String.intercalate_singleton]
    | cons next texts =>
      rw [String.intercalate_cons_cons]
      exact isLine_append.2 ⟨isLine_append.2 ⟨htext, by decide⟩, ih htexts⟩

theorem newline_not_mem_digits (zeros n : Nat) :
    '\n' ∉ List.replicate zeros '0' ++ Nat.toDigits 10 n := by
  intro hmem
  rcases List.mem_append.1 hmem with hmem | hmem
  · cases List.eq_of_mem_replicate hmem
  · rw [← Nat.toList_repr] at hmem
    exact isLine_repr n hmem

theorem Decimal.isLine_text (decimal : Decimal) (zeros : Nat) : IsLine (decimal.text zeros) := by
  intro hmem
  simp only [Decimal.text, String.toList_ofList] at hmem
  split at hmem
  · exact newline_not_mem_digits _ _ (List.mem_of_mem_take hmem)
  · rcases List.mem_append.1 hmem with hwhole | hmem
    · exact newline_not_mem_digits _ _ (List.mem_of_mem_take hwhole)
    · rcases List.mem_append.1 (List.mem_of_ne_of_mem (by decide) hmem) with hfraction | hzero
      · exact newline_not_mem_digits _ _ (List.mem_of_mem_drop hfraction)
      · cases List.eq_of_mem_replicate hzero

theorem Coordinate.isLine_text (places : Option Nat) (x : Float) :
    IsLine (Coordinate.text places x) := by
  have hsign : IsLine (if x.toBits < 0x8000000000000000 then "" else "-") := by
    split <;> decide
  simp only [Coordinate.text]
  generalize (if x.toBits < 0x8000000000000000 then "" else "-") = sign at hsign ⊢
  split
  · decide
  · exact isLine_append.2 ⟨hsign, by decide⟩
  · refine isLine_append.2 ⟨hsign, ?_⟩
    cases places <;> exact Decimal.isLine_text _ _

theorem Color.IsCode.isLine_text {color : Color} (h : color.IsCode) : IsLine color.text := by
  obtain ⟨digits, htext, _, hdigits⟩ := h
  intro hmem
  rw [htext] at hmem
  rcases List.mem_cons.1 hmem with heq | hmem
  · cases heq
  · have hcode := hdigits _ hmem
    revert hcode
    decide

theorem Segment.isLine_text {segment : Segment} (h : IsLine segment.color.text)
    (places : Option Nat) : IsLine (segment.text places) := by
  apply isLine_intercalate
  refine List.forall_mem_cons.2 ⟨h, ?_⟩
  intro text htext
  obtain ⟨x, _, rfl⟩ := List.mem_map.1 htext
  exact Coordinate.isLine_text places x

end

namespace Tree

variable {tree : Tree} {color : Color} {statements : List Tree} {text : String}

theorem mem_colors_of_mem_actions (h : .setColor color ∈ tree.actions) : color ∈ tree.colors := by
  induction tree with
  | seq current rest ihc ihr =>
    rcases List.mem_append.1 h with h | h
    · exact List.mem_append_left _ (ihc h)
    · exact List.mem_append_right _ (ihr h)
  | last current ih => exact ih h
  | loop count body ih =>
    obtain ⟨_, hrepeat, hmem⟩ := List.mem_flatten.1 h
    rw [List.eq_of_mem_replicate hrepeat] at hmem
    exact ih hmem
  | leaf instruction =>
    cases instruction with
    | move direction amount =>
      cases direction <;> simp [actions, Instruction.actions, Direction.action] at h
    | setColor other =>
      obtain rfl : color = other := by simpa [actions, Instruction.actions] using h
      exact List.mem_cons_self
    | _ => simp [actions, Instruction.actions] at h

theorem exists_mem_colors_of_program (h : color ∈ (program statements).colors) :
    ∃ statement ∈ statements, color ∈ statement.colors := by
  induction statements with
  | nil => cases h
  | cons statement statements ih =>
    rcases List.mem_append.1 h with h | h
    · exact ⟨statement, List.mem_cons_self, h⟩
    · obtain ⟨other, hother, hcolor⟩ := ih h
      exact ⟨other, List.mem_cons_of_mem _ hother, hcolor⟩

/-- A program's text sets colors by their codes. -/
theorem isCode_of_mem_actions (h : ofText text = .ok tree)
    (hcolor : .setColor color ∈ tree.actions) : color.IsCode := by
  obtain ⟨statements, rfl, hstatements⟩ := isCanonical_of_ofText h
  obtain ⟨statement, hstatement, hmem⟩ :=
    exists_mem_colors_of_program (mem_colors_of_mem_actions hcolor)
  exact (hstatements statement hstatement).2.2 color hmem

end Tree

namespace Turtle

variable {turtle : Turtle} {action : Action} {actions : List Action}

/-- How many of the actions are moves that are made with the pen down. -/
def penMoves (down : Bool) : List Action → Nat
  | [] => 0
  | .move _ :: actions => (if down then 1 else 0) + penMoves down actions
  | .penUp :: actions => penMoves false actions
  | .penDown :: actions => penMoves true actions
  | .turn _ :: actions | .setColor _ :: actions => penMoves down actions

theorem size_segments_actAll (turtle : Turtle) (actions : List Action) :
    (agent.actAll actions turtle).segments.size =
      turtle.segments.size + penMoves turtle.penDown actions := by
  induction actions generalizing turtle with
  | nil => rfl
  | cons action actions ih =>
    rw [Agent.actAll_cons, ih]
    cases action with
    | move distance =>
      have hpen : (turtle.move distance).penDown = turtle.penDown := rfl
      rw [act_move, size_segments_move, hpen, penMoves, Nat.add_assoc]
    | _ => rfl

/-- The color in hand and the colors of all segments are lines. -/
structure Lined (turtle : Turtle) : Prop where
  color : IsLine turtle.color.text
  segments : ∀ segment ∈ turtle.segments, IsLine segment.color.text

theorem lined_initial : initial.Lined :=
  ⟨by decide +kernel, fun _ h => nomatch h⟩

theorem lined_act (h : turtle.Lined)
    (haction : ∀ color, action = .setColor color → IsLine color.text) :
    (agent.act action turtle).Lined := by
  cases action with
  | move distance =>
    refine ⟨h.color, ?_⟩
    intro segment hsegment
    rw [act_move, ← Array.mem_toList_iff, toList_segments_move] at hsegment
    rcases List.mem_append.1 hsegment with hmem | hmem
    · exact h.segments segment (Array.mem_toList_iff.1 hmem)
    · split at hmem
      · obtain rfl := List.mem_singleton.1 hmem
        exact h.color
      · cases hmem
  | setColor color => exact ⟨haction color rfl, h.segments⟩
  | _ => exact ⟨h.color, h.segments⟩

theorem lined_actAll (h : turtle.Lined)
    (hactions : ∀ color, .setColor color ∈ actions → IsLine color.text) :
    (agent.actAll actions turtle).Lined := by
  induction actions generalizing turtle with
  | nil => exact h
  | cons action actions ih =>
    rw [Agent.actAll_cons]
    apply ih
    · apply lined_act h
      rintro color rfl
      exact hactions color List.mem_cons_self
    · intro color hcolor
      exact hactions color (List.mem_cons_of_mem _ hcolor)

end Turtle

theorem Token.Kind.isLine_text {kind : Token.Kind} (h : kind.Lexical ∨ kind = .endOfInput) :
    IsLine kind.text := by
  cases kind with
  | move direction => cases direction <;> decide
  | number value => exact isLine_append.2 ⟨by decide, isLine_repr _⟩
  | colorLiteral text =>
    obtain ⟨digits, htext, _, hdigits⟩ := h.resolve_right nofun
    refine isLine_append.2 ⟨by decide, ?_⟩
    intro hmem
    rw [htext] at hmem
    cases hdigits _ (List.mem_of_ne_of_mem (by decide) hmem)
  | _ => decide

theorem Token.isLine_text_of_mem {token : Token} {text : String} (h : token ∈ ofText text) :
    IsLine token.kind.text := by
  apply Kind.isLine_text
  by_cases hend : token.kind = .endOfInput
  · exact Or.inr hend
  · exact Or.inl (lexical_of_mem_beforeEnd (mem_beforeEnd_of_kind h hend))

namespace SyntaxError

variable {error : SyntaxError} {text : String}

theorem Cause.isLine_text (cause : Cause) : IsLine cause.text := by
  cases cause <;> decide +kernel

theorem isLine_message (h : Tree.ofText text = .error error) : IsLine error.message := by
  obtain ⟨index, _, hblames, _⟩ := Parse.State.exists_refuse_of_ofTokens h
  have hfound : IsLine error.found.text := by
    rw [hblames.found_eq]
    exact Token.isLine_text_of_mem (Token.getD_mem_ofText hblames.index_le)
  have hline : IsLine ("syntax error on line " ++ error.line.repr ++ ": ") :=
    isLine_append.2 ⟨isLine_append.2 ⟨by decide, isLine_repr _⟩, by decide⟩
  refine isLine_append.2 ⟨hline, ?_⟩
  split
  · exact Cause.isLine_text _
  · exact isLine_append.2 ⟨isLine_append.2 ⟨Cause.isLine_text _, by decide⟩, hfound⟩

end SyntaxError

end TurtleGraphics
