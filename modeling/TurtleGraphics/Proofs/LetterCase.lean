import Mathlib
import TurtleGraphics.Agent
import TurtleGraphics.Proofs.Canonical
import TurtleGraphics.Proofs.Concatenation
import TurtleGraphics.Proofs.Relabeling

/-! Texts that differ in the case of letters alone are read alike. -/
namespace TurtleGraphics

universe u

variable {c d : Char} {a b text other rest : List Char}

/-- The texts have the same letters, in one case or the other, and all else in common. -/
def SameLetters (a b : List Char) : Prop :=
  a.map Char.toLower = b.map Char.toLower

instance : Decidable (SameLetters a b) :=
  inferInstanceAs (Decidable (a.map Char.toLower = b.map Char.toLower))

theorem isAlpha_eq_of_toLower_eq (h : c.toLower = d.toLower) : c.isAlpha = d.isAlpha := by
  rw [← Char.isAlpha_toLower_eq_isAlpha c, h, Char.isAlpha_toLower_eq_isAlpha]

theorem toLower_of_not_isAlpha (hc : c.isAlpha = false) : c.toLower = c := by
  apply Char.toLower_eq_of_not_isUpper
  intro hupper
  simp [Char.isAlpha, hupper] at hc

theorem eq_of_toLower_eq (h : c.toLower = d.toLower) (hc : c.isAlpha = false) : c = d := by
  have hd := (isAlpha_eq_of_toLower_eq h).symm.trans hc
  rwa [toLower_of_not_isAlpha hc, toLower_of_not_isAlpha hd] at h

/-- Lower case is no other character that is not a letter. -/
theorem toLower_eq_iff (hc : c.isAlpha = false) : d.toLower = c ↔ d = c := by
  constructor
  · intro h
    exact (eq_of_toLower_eq ((toLower_of_not_isAlpha hc).trans h.symm) hc).symm
  · rintro rfl
    exact toLower_of_not_isAlpha hc

/-- What holds of no letter does not depend on letter case. -/
theorem eq_of_not_of_isAlpha {p : Char → Bool} (hp : ∀ c, p c = true → c.isAlpha = false)
    (h : c.toLower = d.toLower) : p c = p d := by
  cases halpha : c.isAlpha with
  | false => rw [eq_of_toLower_eq h halpha]
  | true =>
    have hc : p c = false := Bool.eq_false_iff.2 fun hc => by simp [hp c hc] at halpha
    have hd : p d = false := Bool.eq_false_iff.2 fun hd => by
      rw [isAlpha_eq_of_toLower_eq h, hp d hd] at halpha
      cases halpha
    rw [hc, hd]

namespace SameLetters

theorem symm (h : SameLetters a b) : SameLetters b a := Eq.symm h

theorem length_eq (h : SameLetters a b) : a.length = b.length := by
  simpa using congrArg List.length h

theorem append (h : SameLetters a b) (hrest : SameLetters text other) :
    SameLetters (a ++ text) (b ++ other) := by
  rw [SameLetters, List.map_append, List.map_append, h, hrest]

theorem exists_append (h : SameLetters (a ++ text) b) :
    ∃ other rest, b = other ++ rest ∧ SameLetters a other ∧ SameLetters text rest := by
  rw [SameLetters, List.map_append] at h
  obtain ⟨other, rest, hb, hother, hrest⟩ := List.map_eq_append_iff.1 h.symm
  exact ⟨other, rest, hb, hother.symm, hrest.symm⟩

theorem exists_cons (h : SameLetters (c :: text) b) :
    ∃ d rest, b = d :: rest ∧ c.toLower = d.toLower ∧ SameLetters text rest := by
  obtain ⟨d, rest, hb, hd, hrest⟩ := List.map_eq_cons_iff.1 (Eq.symm h)
  exact ⟨d, rest, hb, hd.symm, hrest.symm⟩

theorem exists_mem (h : SameLetters a b) (hd : d ∈ b) : ∃ c ∈ a, c.toLower = d.toLower := by
  have hmem : d.toLower ∈ a.map Char.toLower := by
    rw [h]
    exact List.mem_map_of_mem hd
  exact List.mem_map.1 hmem

theorem map_toUpper_eq (h : SameLetters a b) : a.map Char.toUpper = b.map Char.toUpper := by
  have hupper : ∀ text : List Char, (text.map Char.toLower).map Char.toUpper =
      text.map Char.toUpper := by simp
  rw [← hupper a, h, hupper]

theorem eq_nil (h : SameLetters [] b) : b = [] :=
  List.map_eq_nil_iff.1 (Eq.symm h)

theorem eq_of_not_isAlpha (h : SameLetters a b) (ha : ∀ c ∈ a, c.isAlpha = false) : a = b := by
  induction a generalizing b with
  | nil => exact h.eq_nil.symm
  | cons c a ih =>
    obtain ⟨d, rest, rfl, hd, hrest⟩ := h.exists_cons
    obtain ⟨hc, ha⟩ := List.forall_mem_cons.1 ha
    rw [eq_of_toLower_eq hd hc, ih hrest ha]

theorem count_newline_eq (h : SameLetters a b) : a.count '\n' = b.count '\n' := by
  induction a generalizing b with
  | nil => rw [h.eq_nil]
  | cons c a ih =>
    obtain ⟨d, rest, rfl, hd, hrest⟩ := h.exists_cons
    have hnewline : c = '\n' ↔ d = '\n' := by
      rw [← toLower_eq_iff rfl, hd, toLower_eq_iff rfl]
    rw [List.count_cons, List.count_cons, ih hrest]
    simp only [beq_iff_eq, hnewline]

end SameLetters

namespace Comment

theorem unifyBreaks_map_toLower (kept text : List Char) :
    unifyBreaks (kept.map Char.toLower) (text.map Char.toLower) =
      (unifyBreaks kept text).map Char.toLower := by
  fun_induction unifyBreaks kept text with
  | case1 kept => rw [List.map_nil, unifyBreaks, List.map_reverse]
  | case2 kept text ih => exact ih
  | case3 kept c text hbreak ih =>
    rw [List.map_cons, unifyBreaks]
    · exact ih
    · intro rest hc hrest
      obtain ⟨d, tail, rfl, hd, _⟩ := List.map_eq_cons_iff.1 hrest
      exact hbreak tail ((toLower_eq_iff rfl).1 hc) (by rw [(toLower_eq_iff rfl).1 hd])

theorem cutComments_map_toLower (inside : Bool) (kept text : List Char) :
    cutComments inside (kept.map Char.toLower) (text.map Char.toLower) =
      (cutComments inside kept text).map Char.toLower := by
  induction text generalizing inside kept with
  | nil => rw [List.map_nil, cutComments, cutComments, List.map_reverse]
  | cons c text ih =>
    have hnewline : c.toLower = '\n' ↔ c = '\n' := toLower_eq_iff rfl
    have hcomment : c.toLower = '%' ↔ c = '%' := toLower_eq_iff rfl
    simp only [List.map_cons, cutComments, hnewline, hcomment]
    split
    · exact ih false (c :: kept)
    · split
      · exact ih true kept
      · exact ih false (c :: kept)

theorem remove_sameLetters (h : SameLetters a b) : SameLetters (remove a) (remove b) := by
  have hremove : ∀ text, remove (text.map Char.toLower) = (remove text).map Char.toLower := by
    intro text
    have hbreaks := unifyBreaks_map_toLower [] text
    rw [List.map_nil] at hbreaks
    have hcut := cutComments_map_toLower false [] (unifyBreaks [] text)
    rw [List.map_nil, ← hbreaks] at hcut
    exact hcut
  rw [SameLetters, ← hremove, ← hremove, h]

end Comment

/-- A color literal counts as the color it stands for. -/
def Lexeme.normal : Lexeme → Lexeme
  | token kind => token kind.normal
  | lexeme => lexeme

theorem Token.Kind.normal_normal (kind : Kind) : kind.normal.normal = kind.normal := by
  cases kind with
  | colorLiteral text =>
    have htext : ((text.map Char.toUpper).map Char.toUpper) = text.map Char.toUpper := by
      rw [String.map_map]
      exact congrArg (String.map · text) (funext Char.toUpper_toUpper_eq_toUpper)
    exact congrArg colorLiteral htext
  | _ => rfl

/-- Writes all colors in upper case. -/
def Relabeling.upperCase : Relabeling :=
  ⟨Token.Kind.normal, id, Token.Kind.normal_normal, rfl⟩

namespace Lexeme

variable {lexeme : Lexeme} {more : Char → Bool} {m : Match} {p : Char → Bool}

theorem isAlpha_of_isSeparator (hc : isSeparator c = true) : c.isAlpha = false := by
  simp only [isSeparator, Bool.or_eq_true, decide_eq_true_eq] at hc
  rcases hc with (rfl | rfl) | rfl <;> rfl

theorem isAlpha_of_isBlank (hc : isBlank c = true) : c.isAlpha = false :=
  isAlpha_of_isSeparator (isSeparator_of_isBlank hc)

theorem isAlphanum_eq_of_toLower_eq (h : c.toLower = d.toLower) : c.isAlphanum = d.isAlphanum := by
  rw [Char.isAlphanum, Char.isAlphanum, isAlpha_eq_of_toLower_eq h,
    eq_of_not_of_isAlpha (fun _ => isAlpha_of_isDigit) h]

theorem normal_colorLiteral (h : SameLetters a b) :
    (Token.Kind.colorLiteral (.ofList b)).normal = (Token.Kind.colorLiteral (.ofList a)).normal := by
  refine congrArg Token.Kind.colorLiteral (String.toList_inj.1 ?_)
  simp only [Color.ofText, String.toList_map, String.toList_ofList]
  exact h.symm.map_toUpper_eq

theorem IsRun.eq_of_sameLetters (hrun : IsRun p text) (hp : ∀ c, p c = true → c.isAlpha = false)
    (h : SameLetters text other) : text = other :=
  h.eq_of_not_isAlpha fun c hc => hp c (hrun.all c hc)

theorem Form.more_eq (h : Form lexeme text more) (hc : c.toLower = d.toLower) :
    more c = more d := by
  cases h with
  | loop => exact eq_of_not_of_isAlpha (fun _ => isAlpha_of_isSeparator) hc
  | number => exact eq_of_not_of_isAlpha (fun _ => isAlpha_of_isDigit) hc
  | blanks => exact eq_of_not_of_isAlpha (fun _ => isAlpha_of_isBlank) hc
  | _ => rfl

/-- The same lexeme in other cases, but for the text of a color. -/
theorem Form.exists_sameLetters (h : Form lexeme text more) (hother : SameLetters text other) :
    ∃ lexeme', Form lexeme' other more ∧ lexeme'.normal = lexeme.normal := by
  cases h with
  | @separatedWord keyword typed c hmem htyped hc =>
    obtain ⟨typed', rest, rfl, htyped', hrest⟩ := hother.exists_append
    obtain rfl := hrest.eq_of_not_isAlpha
      (List.forall_mem_singleton.2 (isAlpha_of_isSeparator hc))
    exact ⟨_, .separatedWord hmem (htyped'.symm.trans htyped) hc, rfl⟩
  | @standaloneWord keyword typed hmem htyped =>
    exact ⟨_, .standaloneWord hmem (hother.symm.trans htyped), rfl⟩
  | @loop word typed lead digits trail hmem htyped hlead hdigits htrail =>
    obtain ⟨typed', rest, rfl, htyped', hrest⟩ := hother.exists_append
    obtain ⟨lead', rest, rfl, hlead', hrest⟩ := hrest.exists_append
    obtain ⟨digits', trail', rfl, hdigits', htrail'⟩ := hrest.exists_append
    obtain rfl := hlead.eq_of_sameLetters (fun _ => isAlpha_of_isSeparator) hlead'
    obtain rfl := hdigits.eq_of_sameLetters (fun _ => isAlpha_of_isDigit) hdigits'
    obtain rfl := htrail.eq_of_sameLetters (fun _ => isAlpha_of_isSeparator) htrail'
    exact ⟨_, .loop hmem (htyped'.symm.trans htyped) hlead hdigits htrail, rfl⟩
  | number hdigits =>
    obtain rfl := hdigits.eq_of_sameLetters (fun _ => isAlpha_of_isDigit) hother
    exact ⟨_, .number hdigits, rfl⟩
  | blanks hrun =>
    obtain rfl := hrun.eq_of_sameLetters (fun _ => isAlpha_of_isBlank) hother
    exact ⟨_, .blanks hrun, rfl⟩
  | @colorLiteral digits hlength hdigits =>
    obtain ⟨d, digits', rfl, hd, hdigits'⟩ := hother.exists_cons
    obtain rfl := eq_of_toLower_eq hd rfl
    refine ⟨_, .colorLiteral (hdigits'.length_eq.symm.trans hlength) ?_,
      congrArg token (normal_colorLiteral hother)⟩
    intro c hc
    obtain ⟨d, hmem, hd⟩ := hdigits'.exists_mem hc
    rw [← isAlphanum_eq_of_toLower_eq hd]
    exact hdigits d hmem
  | period =>
    obtain rfl := hother.eq_of_not_isAlpha (List.forall_mem_singleton.2 rfl)
    exact ⟨_, .period, rfl⟩
  | quote =>
    obtain rfl := hother.eq_of_not_isAlpha (List.forall_mem_singleton.2 rfl)
    exact ⟨_, .quote, rfl⟩
  | newline =>
    obtain rfl := hother.eq_of_not_isAlpha (List.forall_mem_singleton.2 rfl)
    exact ⟨_, .newline, rfl⟩

theorem exists_match?_of_sameLetters (hother : SameLetters text other)
    (h : match? text = some m) :
    ∃ lexeme, match? other = some ⟨lexeme, m.length⟩ ∧ lexeme.normal = m.lexeme.normal := by
  obtain ⟨taken, rest, more, rfl, hlength, hform, hrest⟩ := match?_isWhole h
  obtain ⟨taken', rest', rfl, htaken, hrest'⟩ := hother.exists_append
  obtain ⟨lexeme, hform', hnormal⟩ := hform.exists_sameLetters htaken
  have hstop : ∀ c ∈ rest'.head?, more c = false := by
    cases rest with
    | nil =>
      rw [hrest'.eq_nil]
      nofun
    | cons c rest =>
      obtain ⟨d, tail, rfl, hd, _⟩ := hrest'.exists_cons
      rintro _ ⟨⟩
      rw [← hform.more_eq hd]
      exact hrest c rfl
  refine ⟨lexeme, ?_, hnormal⟩
  rw [hlength, htaken.length_eq]
  exact match?_of_form hform' hstop

theorem match?_eq_none_of_sameLetters (hother : SameLetters text other)
    (h : match? text = none) : match? other = none := by
  cases hmatch : match? other with
  | none => rfl
  | some m =>
    obtain ⟨lexeme, hlexeme, _⟩ := exists_match?_of_sameLetters hother.symm hmatch
    cases h.symm.trans hlexeme

end Lexeme

namespace Piece

variable {line : Nat} {after : List Char} {piece : Piece} {pieces others : List Piece}

/-- The pieces stand on one line and are the same but for letter case. -/
structure Alike (piece other : Piece) : Prop where
  line_eq : other.line = piece.line
  text : SameLetters piece.text other.text
  normal_eq : other.lexeme?.map Lexeme.normal = piece.lexeme?.map Lexeme.normal

theorem Alike.endLine_eq {alike : Piece} (h : piece.Alike alike) :
    alike.endLine = piece.endLine := by
  rw [endLine, h.line_eq, ← h.text.count_newline_eq, endLine]

theorem IsGap.sameLetters (h : IsGap text after) (hother : SameLetters text other)
    (hrest : SameLetters after rest) : IsGap other rest := by
  refine ⟨?_, ?_, ?_⟩
  · intro hnil
    subst hnil
    exact h.ne_nil hother.symm.eq_nil
  · rintro skipped tail rfl htail
    obtain ⟨skipped', tail', rfl, _, htail'⟩ := hother.symm.exists_append
    have hne : tail' ≠ [] := by
      rintro rfl
      exact htail htail'.symm.eq_nil
    exact Lexeme.match?_eq_none_of_sameLetters (htail'.symm.append hrest)
      (h.no_lexeme skipped' tail' rfl hne)
  · intro hne hnone
    have hafter : after ≠ [] := by
      rintro rfl
      exact hne hrest.eq_nil
    exact h.maximal hafter (Lexeme.match?_eq_none_of_sameLetters hrest.symm hnone)

theorem exists_alike_of_stands (h : piece.Stands after) (hother : SameLetters piece.text other)
    (hrest : SameLetters after rest) :
    ∃ alike : Piece, alike.Stands rest ∧ alike.text = other ∧ piece.Alike alike := by
  obtain ⟨line, text, lexeme?⟩ := piece
  cases lexeme? with
  | none => exact ⟨⟨line, other, none⟩, IsGap.sameLetters h hother hrest, rfl, rfl, hother, rfl⟩
  | some lexeme =>
    obtain ⟨lexeme', hmatch, hnormal⟩ :=
      Lexeme.exists_match?_of_sameLetters (hother.append hrest) h
    refine ⟨⟨line, other, some lexeme'⟩, ?_, rfl, rfl, hother, congrArg some hnormal⟩
    rw [hother.length_eq] at hmatch
    exact hmatch

/-- Texts with the same letters are cut at the same places. -/
theorem exists_segmentation_of_sameLetters (h : Segmentation line text pieces)
    (hother : SameLetters text other) :
    ∃ others, Segmentation line other others ∧ List.Forall₂ Alike pieces others := by
  induction pieces generalizing line text other with
  | nil =>
    obtain rfl := h.text_eq
    obtain rfl := hother.eq_nil
    exact ⟨[], segmentation_nil line, .nil⟩
  | cons piece pieces ih =>
    obtain ⟨rfl, hstands, htail, rfl⟩ := segmentation_cons_iff.1 h
    obtain ⟨taken, rest, rfl, htaken, hrest⟩ := hother.exists_append
    obtain ⟨alike, hstands', rfl, halike⟩ := exists_alike_of_stands hstands htaken hrest
    obtain ⟨others, hothers, hpieces⟩ := ih htail hrest
    obtain rfl := hothers.text_eq
    refine ⟨alike :: others, segmentation_cons_iff.2 ⟨halike.line_eq, hstands', ?_, rfl⟩,
      .cons halike hpieces⟩
    rw [halike.endLine_eq]
    exact hothers

theorem map_upperCase_tokensBetween (start stop : Nat) (lexeme? : Option Lexeme) :
    (Lexeme.tokensBetween start stop lexeme?).map Relabeling.upperCase.token =
      Lexeme.tokensBetween start stop (lexeme?.map Lexeme.normal) := by
  rcases lexeme? with _ | _ | count | _
  · rfl
  · rfl
  · cases count <;> rfl
  · rfl

theorem Alike.map_tokens_eq {alike : Piece} (h : piece.Alike alike) :
    alike.tokens.map Relabeling.upperCase.token =
      piece.tokens.map Relabeling.upperCase.token := by
  rw [tokens_eq, tokens_eq, map_upperCase_tokensBetween, map_upperCase_tokensBetween, h.endLine_eq,
    h.line_eq, h.normal_eq]

theorem map_flatMap_tokens_eq (h : List.Forall₂ Alike pieces others) :
    (others.flatMap tokens).map Relabeling.upperCase.token =
      (pieces.flatMap tokens).map Relabeling.upperCase.token := by
  induction h with
  | nil => rfl
  | cons halike _ ih =>
    simp only [List.flatMap_cons, List.map_append, halike.map_tokens_eq, ih]

end Piece

namespace Token

variable {line : Nat} {tokens others : List Token} {a b : String}

theorem map_read_of_sameLetters (h : SameLetters text other) :
    (read line other).map Relabeling.upperCase.token =
      (read line text).map Relabeling.upperCase.token := by
  obtain ⟨others, hothers, hpieces⟩ :=
    Piece.exists_segmentation_of_sameLetters (Piece.segmentation_cutFrom line text) h
  rw [read, Piece.cutFrom_eq_of_segmentation hothers]
  exact Piece.map_flatMap_tokens_eq hpieces

theorem stop_upperCase (tokens : List Token) :
    stop (tokens.map Relabeling.upperCase.token) = stop tokens := by
  rw [stop, stop, List.getLast?_map, Option.map_map]
  rfl

theorem map_ofText_of_sameLetters (h : SameLetters a.toList b.toList) :
    (ofText b).map Relabeling.upperCase.token = (ofText a).map Relabeling.upperCase.token := by
  have hread : (beforeEnd (ofText b)).map Relabeling.upperCase.token =
      (beforeEnd (ofText a)).map Relabeling.upperCase.token := by
    rw [beforeEnd_ofText, beforeEnd_ofText]
    exact map_read_of_sameLetters (Comment.remove_sameLetters h)
  rw [ofText_eq a, ofText_eq b, List.map_append, List.map_append, hread,
    ← stop_upperCase (beforeEnd (ofText b)), hread, stop_upperCase]

/-- Texts with the same letters have the same tokens on the same lines, but for the case of colors,
and spell the same program or the same error. -/
theorem ofText_of_sameLetters (a b : String) (h : SameLetters a.toList b.toList) :
    List.Forall₂ (fun token other => other.line = token.line ∧
        other.kind.normal = token.kind.normal) (ofText a) (ofText b) ∧
    (∀ tree, Tree.ofText a = .ok tree → Tree.ofText b = .ok tree ∧
      ∀ {σ : Type u} (agent : Agent σ) (state : σ),
        agent.execute b state = agent.execute a state) ∧
    ∀ error, Tree.ofText a = .error error →
      ∃ found, Tree.ofText b = .error ⟨error.cause, error.line, found⟩ ∧
        found.normal = error.found.normal := by
  have htokens := map_ofText_of_sameLetters h
  refine ⟨?_, ?_, ?_⟩
  · rw [← List.forall₂_eq_eq_eq, List.forall₂_map_left_iff, List.forall₂_map_right_iff] at htokens
    refine htokens.flip.imp ?_
    intro token other hsame
    obtain ⟨hkind, hline⟩ := Token.mk.inj hsame
    exact ⟨hline, hkind⟩
  · intro tree hok
    have hother : Tree.ofText b = .ok tree := Tree.ofTokens_eq_ok_of_relabel htokens.symm hok
    refine ⟨hother, ?_⟩
    intro σ agent state
    rw [Agent.execute, Agent.execute, hok, hother]
  · intro error herror
    obtain ⟨other, hother, hcause, hline, hfound⟩ :=
      Tree.exists_ofTokens_eq_error_of_relabel htokens.symm herror
    have hline : other.line = error.line := hline
    refine ⟨other.found, hother.trans ?_, hfound⟩
    rw [← hcause, ← hline]

theorem ofText_of_sameLetters_mixed :
    Tree.ofText "COLOR #ABCDEF. rep 2 UP. % A DOT" =
        .ok (.program [.leaf (.setColor ⟨"#ABCDEF"⟩), .loop 2 (.leaf .penUp)]) ∧
      ∃ found, Tree.ofText "UP #abcdef." = .error ⟨.missingPeriod, 1, found⟩ ∧
        found.normal = .colorLiteral "#ABCDEF" := by
  have hmixed : ofText "Color #aBcDeF. Rep 2 Up. % a dot" =
      [⟨.color, 1⟩, ⟨.colorLiteral "#aBcDeF", 1⟩, ⟨.period, 1⟩, ⟨.loop, 1⟩, ⟨.number 2, 1⟩,
        ⟨.penUp, 1⟩, ⟨.period, 1⟩, ⟨.endOfInput, 1⟩] := by decide +kernel
  have hbroken : ofText "Up #AbCdEf." =
      [⟨.penUp, 1⟩, ⟨.colorLiteral "#AbCdEf", 1⟩, ⟨.period, 1⟩, ⟨.endOfInput, 1⟩] := by
    decide +kernel
  have hok := ofText_of_sameLetters.{0} "Color #aBcDeF. Rep 2 Up. % a dot"
    "COLOR #ABCDEF. rep 2 UP. % A DOT" (by decide +kernel)
  have herror := ofText_of_sameLetters.{0} "Up #AbCdEf." "UP #abcdef." (by decide +kernel)
  have hcolor : Color.ofText "#aBcDeF" = ⟨"#ABCDEF"⟩ := by decide +kernel
  refine ⟨(hok.2.1 _ ?_).1, ?_⟩
  · rw [← hcolor]
    exact (congrArg Tree.ofTokens hmixed).trans rfl
  · obtain ⟨found, hfound, hnormal⟩ := herror.2.2 ⟨.missingPeriod, 1, .colorLiteral "#AbCdEf"⟩
      ((congrArg Tree.ofTokens hbroken).trans rfl)
    have hupper : (Kind.colorLiteral "#AbCdEf").normal = .colorLiteral "#ABCDEF" := by
      decide +kernel
    exact ⟨found, hfound, hnormal.trans hupper⟩

end Token

end TurtleGraphics
