import TurtleGraphics.Proofs.Outcome

/-! Printed tokens and error messages tell all of what they are about. -/
namespace TurtleGraphics

section

variable {c : Char} {a b rest other : List Char}

/-- A mark that stands in neither first part tells where both end. -/
theorem eq_of_append_cons_eq (ha : c ∉ a) (hb : c ∉ b) (h : a ++ c :: rest = b ++ c :: other) :
    a = b ∧ rest = other := by
  have hsplit := congrArg (List.splitOn c) h
  rw [List.splitOn_append_cons_self_of_not_mem ha, List.splitOn_append_cons_self_of_not_mem hb]
    at hsplit
  obtain rfl := (List.cons.inj hsplit).1
  exact ⟨rfl, (List.cons.inj (List.append_cancel_left h)).2⟩

theorem eq_of_repr_append_eq {m n : Nat} {a b : String}
    (h : m.repr ++ (": " ++ a) = n.repr ++ (": " ++ b)) : m = n ∧ a = b := by
  have hlist := congrArg String.toList h
  simp only [String.toList_append] at hlist
  obtain ⟨hrepr, htext⟩ := eq_of_append_cons_eq (not_mem_repr rfl m) (not_mem_repr rfl n) hlist
  exact ⟨Nat.repr_inj.1 (String.toList_inj.1 hrepr), String.toList_inj.1 (List.cons.inj htext).2⟩

end

namespace CommandLine

theorem toList_lines_cons (text : String) (texts : List String) :
    (lines (text :: texts)).toList = text.toList ++ '\n' :: (lines texts).toList := by
  simp [lines]

/-- Lines one below another are told apart by their ends. -/
theorem lines_injective {texts others : List String} (htexts : ∀ text ∈ texts, IsLine text)
    (hothers : ∀ text ∈ others, IsLine text) (h : lines texts = lines others) :
    texts = others := by
  replace h := congrArg String.toList h
  induction texts generalizing others with
  | nil =>
    cases others with
    | nil => rfl
    | cons other others => simp [lines] at h
  | cons text texts ih =>
    cases others with
    | nil => simp [lines] at h
    | cons other others =>
      obtain ⟨htext, htexts⟩ := List.forall_mem_cons.1 htexts
      obtain ⟨hother, hothers⟩ := List.forall_mem_cons.1 hothers
      rw [toList_lines_cons, toList_lines_cons] at h
      obtain ⟨hfirst, hrest⟩ := eq_of_append_cons_eq htext hother h
      rw [String.toList_inj.1 hfirst, ih htexts hothers hrest]

end CommandLine

namespace Token

namespace Kind

variable {kind other : Kind} {value : UInt32} {literal : String}

/-- The kinds whose text is one fixed word. -/
def fixedKinds : List Kind :=
  [.move .forward, .move .backward, .move .left, .move .right, .penUp, .penDown, .color, .loop,
    .period, .quote, .unrecognized, .endOfInput]

theorem mem_fixedKinds_or (kind : Kind) :
    kind ∈ fixedKinds ∨ (∃ value, kind = .number value) ∨
      ∃ literal, kind = .colorLiteral literal := by
  cases kind with
  | move direction => cases direction <;> exact Or.inl (by decide)
  | number value => exact Or.inr (Or.inl ⟨value, rfl⟩)
  | colorLiteral literal => exact Or.inr (Or.inr ⟨literal, rfl⟩)
  | _ => exact Or.inl (by decide)

theorem eq_of_mem_fixedKinds : ∀ kind ∈ fixedKinds, ∀ other ∈ fixedKinds,
    kind.text = other.text → kind = other := by
  decide +kernel

theorem eq_number_of_text (h : kind.text = (number value).text) : kind = .number value := by
  cases kind with
  | number other =>
    have hrepr := (String.append_right_inj _).1 h
    rw [UInt32.toNat_inj.1 (Nat.repr_inj.1 hrepr)]
  | _ =>
    have hhead := congrArg (fun text => text.toList.head?) h
    simp [text] at hhead

theorem eq_colorLiteral_of_text (h : kind.text = (colorLiteral literal).text) :
    kind = .colorLiteral literal := by
  cases kind with
  | colorLiteral other => rw [(String.append_right_inj _).1 h]
  | _ =>
    have hhead := congrArg (fun text => text.toList.head?) h
    simp [text] at hhead

theorem text_injective (h : kind.text = other.text) : kind = other := by
  rcases mem_fixedKinds_or other with hother | ⟨value, rfl⟩ | ⟨literal, rfl⟩
  · rcases mem_fixedKinds_or kind with hkind | ⟨value, rfl⟩ | ⟨literal, rfl⟩
    · exact eq_of_mem_fixedKinds kind hkind other hother h
    · exact (eq_number_of_text h.symm).symm
    · exact (eq_colorLiteral_of_text h.symm).symm
  · exact eq_number_of_text h
  · exact eq_colorLiteral_of_text h

end Kind

variable {token other : Token} {text : String}

theorem text_injective (h : token.text = other.text) : token = other := by
  rw [Token.text, Token.text, String.append_assoc, String.append_assoc] at h
  obtain ⟨kind, line⟩ := token
  obtain ⟨hline, hkind⟩ := eq_of_repr_append_eq h
  obtain rfl := hline
  obtain rfl := Kind.text_injective hkind
  rfl

theorem isLine_of_mem_map_text {row : String} (h : row ∈ (ofText text).map Token.text) :
    IsLine row := by
  obtain ⟨token, htoken, rfl⟩ := List.mem_map.1 h
  exact isLine_append.2 ⟨isLine_append.2 ⟨isLine_repr _, by decide⟩, isLine_text_of_mem htoken⟩

end Token

namespace SyntaxError

namespace Cause

def causes : List Cause :=
  [missingPeriod, missingNumber, missingColor, openLoop, missingStatement, surplus, unrecognized,
    nestedTooDeep]

theorem mem_causes (cause : Cause) : cause ∈ causes := by
  cases cause <;> decide

/-- No cause's words begin with those of another. -/
theorem eq_of_text_prefix : ∀ cause ∈ causes, ∀ other ∈ causes,
    cause.text.toList <+: other.text.toList → cause = other := by
  decide +kernel

end Cause

variable {error other : SyntaxError} {tokens : List Token}

/-- What a message says behind the line. -/
def detail (error : SyntaxError) : String :=
  match error.cause with
  | .unrecognized => error.cause.text
  | cause => cause.text ++ ", found " ++ error.found.text

theorem detail_of_unrecognized (h : error.cause = .unrecognized) :
    error.detail = error.cause.text := by
  simp only [detail, h]

theorem detail_of_ne_unrecognized (h : error.cause ≠ .unrecognized) :
    error.detail = error.cause.text ++ (", found " ++ error.found.text) := by
  rw [detail, ← String.append_assoc]
  split
  · rename_i hcause
    exact (h hcause).elim
  · rfl

theorem cause_prefix_detail (error : SyntaxError) :
    error.cause.text.toList <+: error.detail.toList := by
  by_cases hcause : error.cause = .unrecognized
  · rw [detail_of_unrecognized hcause]
  · rw [detail_of_ne_unrecognized hcause, String.toList_append]
    exact List.prefix_append _ _

theorem cause_eq_of_detail_eq (h : error.detail = other.detail) : error.cause = other.cause := by
  have herror := cause_prefix_detail error
  rw [h] at herror
  -- Both begin the same text, so that one of them begins the other.
  rcases List.prefix_or_prefix_of_prefix herror (cause_prefix_detail other) with hprefix | hprefix
  · exact Cause.eq_of_text_prefix _ error.cause.mem_causes _ other.cause.mem_causes hprefix
  · exact (Cause.eq_of_text_prefix _ other.cause.mem_causes _ error.cause.mem_causes hprefix).symm

/-- A message that leaves out what was found has no choice of it. -/
theorem found_of_unrecognized (h : Tree.ofTokens tokens = .error error)
    (hcause : error.cause = .unrecognized) : error.found = .unrecognized := by
  obtain ⟨index, state, _, hrun, _, rfl⟩ := Parse.State.exists_refuse_of_ofTokens h
  have hfollows := Parse.State.follows_run? Parse.State.follows_initial hrun
  rw [Parse.State.cause_refuse hfollows] at hcause
  exact (Cause.admits_ofPosition _ _).eq_unrecognized_iff.1 hcause

theorem message_eq (error : SyntaxError) :
    error.message = "syntax error on line " ++ error.line.repr ++ ": " ++ error.detail := rfl

theorem message_injective {others : List Token} (h : Tree.ofTokens tokens = .error error)
    (hother : Tree.ofTokens others = .error other) (hmessage : error.message = other.message) :
    error = other := by
  simp only [message_eq, String.append_assoc, String.append_right_inj] at hmessage
  obtain ⟨hline, hdetail⟩ := eq_of_repr_append_eq hmessage
  have hcause := cause_eq_of_detail_eq hdetail
  have hfound : error.found = other.found := by
    by_cases hunrecognized : error.cause = .unrecognized
    · rw [found_of_unrecognized h hunrecognized,
        found_of_unrecognized hother (hcause.symm.trans hunrecognized)]
    · rw [detail_of_ne_unrecognized hunrecognized,
        detail_of_ne_unrecognized (hcause ▸ hunrecognized), hcause, String.append_right_inj,
        String.append_right_inj] at hdetail
      exact Token.Kind.text_injective hdetail
  obtain ⟨cause, line, found⟩ := error
  obtain rfl := hline
  obtain rfl := hcause
  obtain rfl := hfound
  rfl

end SyntaxError

namespace CommandLine

variable {options : Options}

theorem output_tokens (h : options.mode = .tokens) (text : String) :
    (options.outcome (.ok text.toUTF8)).output = lines ((Token.ofText text).map Token.text) := by
  have hcourse := fun passes =>
    Options.course_tokens passes (Options.readText_toUTF8 options text) h
  rw [Options.outcome, Logger.outcome_of_course (hcourse _), lines, List.map_map]
  rfl

/-- Two texts are printed as the same tokens only if they have the same tokens, and two errors have
the same message only if they are the same. -/
theorem reports_eq_iff :
    (∀ (options others : Options) (a b : String), options.mode = .tokens →
      others.mode = .tokens →
      ((options.outcome (.ok a.toUTF8)).output = (others.outcome (.ok b.toUTF8)).output ↔
        Token.ofText a = Token.ofText b)) ∧
    ∀ (tokens others : List Token) (error other : SyntaxError),
      Tree.ofTokens tokens = .error error → Tree.ofTokens others = .error other →
      (error.message = other.message ↔ error = other) := by
  refine ⟨?_, ?_⟩
  · intro options others a b hoptions hothers
    rw [output_tokens hoptions, output_tokens hothers]
    refine ⟨?_, fun h => by rw [h]⟩
    intro houtput
    have hrows := lines_injective (fun _ => Token.isLine_of_mem_map_text)
      (fun _ => Token.isLine_of_mem_map_text) houtput
    exact List.map_injective_iff.2 (fun _ _ => Token.text_injective) hrows
  · intro tokens others error other h hother
    exact ⟨SyntaxError.message_injective h hother, congrArg SyntaxError.message⟩

/-- The same word on another line, and a number for a color's literal. -/
theorem reports_eq_iff_line_and_kind :
    let options : Options := ⟨none, some .tokens, none, 0⟩
    (options.outcome (.ok "UP".toUTF8)).output ≠ (options.outcome (.ok "\nUP".toUTF8)).output ∧
      Tree.ofTokens [⟨.penUp, 1⟩, ⟨.number 1, 2⟩] = .error ⟨.missingPeriod, 1, .number 1⟩ ∧
      Tree.ofTokens [⟨.penUp, 1⟩, ⟨.colorLiteral "1", 2⟩] =
        .error ⟨.missingPeriod, 1, .colorLiteral "1"⟩ ∧
      SyntaxError.message ⟨.missingPeriod, 1, .number 1⟩ ≠
        SyntaxError.message ⟨.missingPeriod, 1, .colorLiteral "1"⟩ := by
  intro options
  have hfirst : Token.ofText "UP" = [⟨.penUp, 1⟩, ⟨.endOfInput, 1⟩] := by decide +kernel
  have hlater : Token.ofText "\nUP" = [⟨.penUp, 2⟩, ⟨.endOfInput, 2⟩] := by decide +kernel
  obtain ⟨htokens, herrors⟩ := reports_eq_iff
  have hnumber : Tree.ofTokens [⟨.penUp, 1⟩, ⟨.number 1, 2⟩] =
      .error ⟨.missingPeriod, 1, .number 1⟩ := rfl
  have hliteral : Tree.ofTokens [⟨.penUp, 1⟩, ⟨.colorLiteral "1", 2⟩] =
      .error ⟨.missingPeriod, 1, .colorLiteral "1"⟩ := rfl
  refine ⟨?_, hnumber, hliteral, ?_⟩
  · rw [ne_eq, htokens options options "UP" "\nUP" rfl rfl, hfirst, hlater]
    decide
  · rw [ne_eq, herrors _ _ _ _ hnumber hliteral]
    decide

end CommandLine

end TurtleGraphics
