import TurtleGraphics.Source
import TurtleGraphics.Proofs.Canonical

/-! The text of any tree whose loops have bodies, read line by line. -/
namespace TurtleGraphics

namespace Token

variable {color : Color}

theorem written_move (direction : Direction) :
    Written (direction.keyword.toList ++ [' ']) [.move direction] := by
  cases direction <;> exact written_of_match rfl rfl fun _ => rfl

theorem written_color (h : color.IsCode) :
    Written color.text.toList [.colorLiteral color.text] := by
  obtain ⟨digits, htext, hlength, hdigits⟩ := h
  have halphanum : ∀ c ∈ digits, c.isAlphanum = true := by
    intro c hc
    rcases hdigits c hc with h | h <;> simp [Char.isAlphanum, Char.isAlpha, h]
  have hkind : color.text = .ofList ('#' :: digits) := by
    rw [← htext, String.ofList_toList]
  rw [htext, hkind]
  apply written_of_match rfl
  · apply List.all_eq_true.2
    refine List.forall_mem_cons.2 ⟨rfl, ?_⟩
    intro c hc
    exact isPlain_of_isAlphanum (halphanum c hc)
  · intro rest
    exact Lexeme.match?_color hlength halphanum

theorem written_instruction {instruction : Instruction} (hend : instruction ≠ .endMarker)
    (hcolor : ∀ color ∈ instruction.color?, color.IsCode) :
    Written instruction.source.toList instruction.spelling := by
  cases instruction with
  | move direction amount =>
    have hamount := written_amount (Lexeme.isRun_toDigits _) (Lexeme.value?_toDigits amount)
    have h := (written_move direction).append hamount
    simpa [Instruction.source, Instruction.spelling] using h
  | penUp =>
    have h : Written "UP".toList [.penUp] := written_of_match rfl rfl fun _ => rfl
    exact h.append written_period
  | penDown =>
    have h : Written "DOWN".toList [.penDown] := written_of_match rfl rfl fun _ => rfl
    exact h.append written_period
  | setColor color =>
    have hword : Written "COLOR ".toList [.color] := written_of_match rfl rfl fun _ => rfl
    have h := (hword.append (written_color (hcolor color rfl))).append written_period
    simpa [Instruction.source, Instruction.spelling] using h
  | endMarker => exact (hend rfl).elim

end Token

namespace Tree

variable {tree body : Tree} {texts : List String} {kind : Token.Kind}
  {kinds : List (List Token.Kind)} {color : Color}

/-- The kinds that the quotes around a spine's statements make of theirs. -/
def encloseKinds (tree : Tree) (kinds : List (List Token.Kind)) : List (List Token.Kind) :=
  if tree.isSpine then [[.quote] ++ kinds.flatten ++ [.quote]] else kinds

/-- The token kinds that the text of each of the tree's statements is read as. -/
def statementKinds : Tree → List (List Token.Kind)
  | seq current rest => current.encloseKinds current.statementKinds ++ rest.statementKinds
  | last current => current.encloseKinds current.statementKinds
  | loop count body => [[.loop, .number count] ++ (body.encloseKinds body.statementKinds).flatten]
  | leaf .endMarker => []
  | leaf instruction => [instruction.spelling]

/-- No loop goes around the end marker. -/
def HasBodies : Tree → Prop
  | seq current rest => current.HasBodies ∧ rest.HasBodies
  | last current => current.HasBodies
  | loop _ body => body.isEnd = false ∧ body.HasBodies
  | leaf _ => True

theorem statementSources_leaf {instruction : Instruction} (h : instruction ≠ .endMarker) :
    (leaf instruction).statementSources = [instruction.source] := by
  cases instruction with
  | endMarker => exact (h rfl).elim
  | _ => rfl

theorem statementKinds_leaf {instruction : Instruction} (h : instruction ≠ .endMarker) :
    (leaf instruction).statementKinds = [instruction.spelling] := by
  cases instruction with
  | endMarker => exact (h rfl).elim
  | _ => rfl

theorem enclose_of_isSpine (h : tree.isSpine = true) :
    tree.enclose texts = ["\"" ++ " ".intercalate texts ++ "\""] := by
  rw [enclose, if_pos h]

theorem enclose_of_isSpine_eq_false (h : tree.isSpine = false) : tree.enclose texts = texts := by
  rw [enclose, h, if_neg Bool.false_ne_true]

theorem encloseKinds_of_isSpine (h : tree.isSpine = true) :
    tree.encloseKinds kinds = [[.quote] ++ kinds.flatten ++ [.quote]] := by
  rw [encloseKinds, if_pos h]

theorem encloseKinds_of_isSpine_eq_false (h : tree.isSpine = false) :
    tree.encloseKinds kinds = kinds := by
  rw [encloseKinds, h, if_neg Bool.false_ne_true]

theorem gathers_statementSources :
    Gathers statementSources fun tree => tree.enclose tree.statementSources :=
  ⟨fun _ _ => rfl, fun _ => rfl, fun _ h => (enclose_of_isSpine_eq_false h).symm, rfl⟩

theorem gathers_statementKinds :
    Gathers statementKinds fun tree => tree.encloseKinds tree.statementKinds :=
  ⟨fun _ _ => rfl, fun _ => rfl, fun _ h => (encloseKinds_of_isSpine_eq_false h).symm, rfl⟩

theorem gathers_colors : Gathers colors colors :=
  ⟨fun _ _ => rfl, fun _ => rfl, fun _ _ => rfl, rfl⟩

/-- What stands as one statement has one text. -/
theorem exists_enclose_eq_singleton (h : tree.isEnd = false) :
    ∃ text, tree.enclose tree.statementSources = [text] := by
  cases tree with
  | seq current rest => exact ⟨_, enclose_of_isSpine rfl⟩
  | last current => exact ⟨_, enclose_of_isSpine rfl⟩
  | loop count body => exact ⟨_, enclose_of_isSpine_eq_false rfl⟩
  | leaf instruction =>
    rw [enclose_of_isSpine_eq_false rfl]
    refine ⟨_, statementSources_leaf ?_⟩
    rintro rfl
    cases h

theorem forall₂_enclose (tree : Tree)
    (h : List.Forall₂ Token.Written (texts.map String.toList) kinds) :
    List.Forall₂ Token.Written ((tree.enclose texts).map String.toList)
      (tree.encloseKinds kinds) := by
  cases hspine : tree.isSpine with
  | false => rwa [enclose_of_isSpine_eq_false hspine, encloseKinds_of_isSpine_eq_false hspine]
  | true =>
    rw [enclose_of_isSpine hspine, encloseKinds_of_isSpine hspine]
    refine .cons ?_ .nil
    rw [String.toList_append, String.toList_append, String.toList_intercalate]
    by_cases hempty : texts = []
    · subst texts
      cases h
      exact Token.written_quote.append Token.written_quote
    · have hne : texts.map String.toList ≠ [] := by simpa using hempty
      exact (Token.written_intercalate h hne).quoted

theorem toList_loop_source (count : UInt32) (text : String) :
    ("REPEAT " ++ count.toNat.repr ++ " " ++ text).toList =
      "REPEAT ".toList ++ Nat.toDigits 10 count.toNat ++ [' '] ++ text.toList := by
  simp

/-- No statement's text depends on what follows, since even a bare loop ends in a period. -/
theorem forall₂_written (tree : Tree) (hbodies : tree.HasBodies)
    (hcolors : ∀ color ∈ tree.colors, color.IsCode) :
    List.Forall₂ Token.Written (tree.statementSources.map String.toList) tree.statementKinds := by
  induction tree with
  | seq current rest ihc ihr =>
    obtain ⟨hcurrent, hrest⟩ := List.forall_mem_append.1 hcolors
    rw [statementSources, statementKinds, List.map_append]
    exact List.rel_append (forall₂_enclose current (ihc hbodies.1 hcurrent))
      (ihr hbodies.2 hrest)
  | last current ih => exact forall₂_enclose current (ih hbodies hcolors)
  | loop count body ih =>
    have hbody := forall₂_enclose body (ih hbodies.2 hcolors)
    obtain ⟨text, htext⟩ := exists_enclose_eq_singleton hbodies.1
    rw [statementSources, statementKinds]
    rw [htext] at hbody ⊢
    generalize body.encloseKinds body.statementKinds = kinds at hbody ⊢
    cases hbody with
    | cons hwritten hnil =>
      cases hnil
      refine .cons ?_ .nil
      rw [String.join_cons, String.join_nil, String.append_empty, toList_loop_source,
        List.flatten_singleton]
      exact hwritten.loop (Lexeme.isRun_toDigits _) (Lexeme.value?_toDigits count)
  | leaf instruction =>
    by_cases hend : instruction = .endMarker
    · subst instruction
      exact .nil
    · rw [statementSources_leaf hend, statementKinds_leaf hend]
      refine .cons (Token.written_instruction hend ?_) .nil
      intro color hcolor
      exact hcolors color (Option.mem_toList.2 hcolor)

theorem toList_source (tree : Tree) :
    tree.source.toList = (tree.statementSources.map String.toList).flatMap (· ++ ['\n']) := by
  simp [source, String.toList_join, List.flatMap_map]

theorem remove_flatMap_newline {texts : List (List Char)}
    (h : List.Forall₂ Token.Written texts kinds) :
    Comment.remove (texts.flatMap (· ++ ['\n'])) = texts.flatMap (· ++ ['\n']) := by
  have hchars : ∀ c ∈ texts.flatMap (· ++ ['\n']), Token.isPlain c = true ∨ c = '\n' := by
    induction h with
    | nil => nofun
    | cons hfirst _ ih =>
      simp only [List.flatMap_cons, List.forall_mem_append]
      refine ⟨⟨fun c hc => Or.inl (hfirst.plain c hc), ?_⟩, ih⟩
      intro c hc
      exact Or.inr (List.mem_singleton.1 hc)
  apply Comment.remove_of_not_mem
  · intro hmem
    rcases hchars _ hmem with hc | hc <;> cases hc
  · intro hmem
    rcases hchars _ hmem with hc | hc <;> cases hc

theorem mem_flatten_encloseKinds (tree : Tree) (hkind : kind ≠ .quote) :
    kind ∈ (tree.encloseKinds kinds).flatten ↔ kind ∈ kinds.flatten := by
  rw [encloseKinds]
  split <;> simp [hkind]

theorem mem_colors_of_mem_statementKinds
    (h : .colorLiteral color.text ∈ tree.statementKinds.flatten) : color ∈ tree.colors := by
  have hquote : Token.Kind.colorLiteral color.text ≠ .quote := nofun
  induction tree with
  | seq current rest ihc ihr =>
    rw [statementKinds, List.flatten_append, List.mem_append,
      mem_flatten_encloseKinds current hquote] at h
    exact List.mem_append.2 (h.imp ihc ihr)
  | last current ih => exact ih ((mem_flatten_encloseKinds current hquote).1 h)
  | loop count body ih =>
    apply ih
    rw [← mem_flatten_encloseKinds body hquote]
    simpa [statementKinds] using h
  | leaf instruction =>
    obtain ⟨text⟩ := color
    cases instruction with
    | setColor other =>
      obtain ⟨other⟩ := other
      simpa [statementKinds, colors, Instruction.spelling, Instruction.color?] using h
    | _ => simp [statementKinds, Instruction.spelling] at h

theorem normal_of_mem_statementKinds (hcolors : ∀ color ∈ tree.colors, color.IsCode)
    (h : kind ∈ tree.statementKinds.flatten) : kind.normal = kind := by
  cases kind with
  | colorLiteral text =>
    have hcode := hcolors ⟨text⟩ (mem_colors_of_mem_statementKinds h)
    rw [Token.Kind.normal, hcode.ofText_text]
  | _ => rfl

theorem startsApart_source (hbodies : tree.HasBodies)
    (hcolors : ∀ color ∈ tree.colors, color.IsCode) :
    Lexeme.StartsApart (Comment.remove tree.source.toList) := by
  have hwritten := forall₂_written tree hbodies hcolors
  rw [toList_source, remove_flatMap_newline hwritten]
  exact Token.startsApart_lines hwritten

/-- Each statement stands on a line of its own. -/
theorem read_source (hbodies : tree.HasBodies) (hcolors : ∀ color ∈ tree.colors, color.IsCode)
    (line : Nat) :
    Token.read line (Comment.remove tree.source.toList) =
      Token.onLines line tree.statementKinds := by
  have hwritten := forall₂_written tree hbodies hcolors
  rw [toList_source, remove_flatMap_newline hwritten, Token.read_lines hwritten]

theorem map_normal_read_source (hbodies : tree.HasBodies)
    (hcolors : ∀ color ∈ tree.colors, color.IsCode) (line : Nat) :
    (Token.read line (Comment.remove tree.source.toList)).map (·.kind.normal) =
      tree.statementKinds.flatten := by
  have hkinds : (Token.read line (Comment.remove tree.source.toList)).map Token.kind =
      tree.statementKinds.flatten := by
    rw [read_source hbodies hcolors, Token.map_kind_onLines]
  have hnormal : tree.statementKinds.flatten.map Token.Kind.normal =
      tree.statementKinds.flatten.map id := by
    apply List.map_congr_left
    intro kind hkind
    exact normal_of_mem_statementKinds hcolors hkind
  rw [List.map_id, ← hkinds, List.map_map] at hnormal
  exact hnormal.trans hkinds

end Tree

end TurtleGraphics
