import Mathlib.Data.List.Forall2
import TurtleGraphics.Proofs.Concatenation
import TurtleGraphics.Proofs.Relabeling

/-! Layout between the lexemes of a text gives no tokens and changes none. -/
namespace TurtleGraphics

namespace Comment

variable {remark text kept : List Char} {c : Char}

/-- Spaces, tabs, line feeds, and comments with the line feed that ends each. -/
inductive IsLayout : List Char → Prop
  | nil : IsLayout []
  | separator {c : Char} {text : List Char} :
    Lexeme.isSeparator c = true → IsLayout text → IsLayout (c :: text)
  | comment {remark text : List Char} :
    '\n' ∉ remark → IsLayout text → IsLayout ('%' :: remark ++ '\n' :: text)

theorem cutComments_of_open (h : '\n' ∉ text) : cutComments true kept text = kept.reverse := by
  induction text with
  | nil => rfl
  | cons c text ih =>
    have hc : c ≠ '\n' := Ne.symm (List.ne_of_not_mem_cons h)
    rw [cutComments, if_neg hc]
    exact ih (List.not_mem_of_not_mem_cons h)

theorem remove_comment (h : '\n' ∉ remark) : remove ('%' :: remark) = [] := by
  have hbreaks : '\n' ∉ unifyBreaks [] remark := by
    rw [← List.count_eq_zero, count_newline_unifyBreaks, List.count_eq_zero.2 h]
    rfl
  have hpercent : '%' = '\r' → remark.head? ≠ some '\n' := fun h => absurd h (by decide)
  rw [remove, unifyBreaks_cons hpercent]
  exact cutComments_of_open hbreaks

theorem remove_cons_of_isSeparator (hc : Lexeme.isSeparator c = true) (text : List Char) :
    remove (c :: text) = c :: remove text := by
  have hreturn : '\r' ∉ [c] := by
    intro hmem
    obtain rfl := List.mem_singleton.1 hmem
    cases hc
  have hcomment : '%' ∉ [c] := by
    intro hmem
    obtain rfl := List.mem_singleton.1 hmem
    cases hc
  exact remove_append hreturn hcomment

/-- Of layout the separators stay, and the line feed of each comment. -/
theorem IsLayout.exists_remove_append (h : IsLayout text) :
    ∃ blanks, (∀ c ∈ blanks, Lexeme.isSeparator c = true) ∧
      blanks.count '\n' = text.count '\n' ∧
      ∀ after, remove (text ++ after) = blanks ++ remove after := by
  induction h with
  | nil => exact ⟨[], nofun, rfl, fun _ => rfl⟩
  | @separator c text hc _ ih =>
    obtain ⟨blanks, hblanks, hcount, hremove⟩ := ih
    refine ⟨c :: blanks, List.forall_mem_cons.2 ⟨hc, hblanks⟩, ?_, ?_⟩
    · rw [List.count_cons, List.count_cons, hcount]
    · intro after
      rw [List.cons_append, remove_cons_of_isSeparator hc, hremove, List.cons_append]
  | @comment remark text hremark _ ih =>
    obtain ⟨blanks, hblanks, hcount, hremove⟩ := ih
    have hempty := remove_comment hremark
    refine ⟨'\n' :: blanks, List.forall_mem_cons.2 ⟨rfl, hblanks⟩, ?_, ?_⟩
    · simp [List.count_eq_zero.2 hremark, hcount]
    · intro after
      have hsplit : '%' :: remark ++ '\n' :: text ++ after =
          '%' :: remark ++ '\n' :: (text ++ after) := List.append_assoc _ _ _
      rw [hsplit, remove_append_newline, hempty, hremove]
      · rfl
      · rw [hempty]
        nofun

end Comment

namespace Lexeme

variable {lexeme : Lexeme} {text rest blanks : List Char} {more : Char → Bool} {c : Char}
  {count : Option UInt32}

theorem Form.isSeparator_of_mem (h : Form lexeme text more) (hblank : lexeme = .blank) :
    ∀ c ∈ text, isSeparator c = true := by
  cases h with
  | newline => exact List.forall_mem_singleton.2 rfl
  | blanks hrun => exact fun c hc => isSeparator_of_isBlank (hrun.all c hc)
  | _ => cases hblank

/-- Separators prolong neither words nor signs nor numbers. -/
theorem Form.not_more_separator (h : Form lexeme text more) {kind : Token.Kind}
    (hkind : lexeme = .token kind) (hc : isSeparator c = true) : more c = false := by
  cases h with
  | number => exact isDigit_of_isSeparator hc
  | loop | newline | blanks => cases hkind
  | _ => rfl

theorem Form.match?_token (h : Form lexeme text more) {kind : Token.Kind}
    (hkind : lexeme = .token kind) (hrest : ∀ c ∈ rest.head?, more c = false)
    (hblanks : ∀ c ∈ blanks, isSeparator c = true) :
    match? (text ++ (blanks ++ rest)) = some ⟨lexeme, text.length⟩ := by
  apply match?_of_form h
  cases blanks with
  | nil => exact hrest
  | cons first blanks =>
    intro c hc
    cases hc
    exact h.not_more_separator hkind (hblanks first List.mem_cons_self)

/-- Separators after a loop's count become part of the loop's lexeme. -/
theorem Form.match?_loop (h : Form lexeme text more) (hloop : lexeme = .loop count)
    (hrest : ∀ c ∈ rest.head?, more c = false) (hblanks : ∀ c ∈ blanks, isSeparator c = true) :
    match? (text ++ blanks ++ rest) = some ⟨lexeme, (text ++ blanks).length⟩ := by
  cases h with
  | @loop word typed lead digits trail hmem htyped hlead hdigits htrail =>
    have hlonger : IsRun isSeparator (trail ++ blanks) :=
      ⟨List.append_ne_nil_of_left_ne_nil htrail.ne_nil blanks,
        List.forall_mem_append.2 ⟨htrail.all, hblanks⟩⟩
    have hform := Form.loop hmem htyped hlead hdigits hlonger
    have hmatch := match?_of_form hform hrest
    simpa only [List.append_assoc] using hmatch
  | _ => cases hloop

end Lexeme

namespace Token

variable {line lines : Nat} {text rest blanks : List Char} {c : Char} {tokens others : List Token}
  {lexeme : Lexeme} {more : Char → Bool}

theorem read_separators (h : ∀ c ∈ blanks, Lexeme.isSeparator c = true) :
    read line (blanks ++ rest) = read (line + blanks.count '\n') rest := by
  induction blanks generalizing line with
  | nil => rfl
  | cons c blanks ih =>
    obtain ⟨hc, hblanks⟩ := List.forall_mem_cons.1 h
    by_cases hnewline : c = '\n'
    · subst c
      rw [List.cons_append, read_newline, ih hblanks, List.count_cons_self, Nat.add_assoc,
        Nat.add_comm 1]
    · have hblank : Lexeme.isBlank c = true := by
        simpa [Lexeme.isSeparator, Lexeme.isBlank, hnewline] using hc
      rw [List.cons_append, read_blank hblank, ih hblanks, List.count_cons_of_ne hnewline]

/-- The same kind of token, in its place or further down. -/
def MayMove (lines : Nat) (token moved : Token) : Prop :=
  moved.kind = token.kind ∧ (moved.line = token.line ∨ moved.line = token.line + lines)

theorem forall₂_mayMove_self (lines : Nat) (tokens : List Token) :
    List.Forall₂ (MayMove lines) tokens tokens :=
  List.forall₂_same.2 fun _ _ => ⟨rfl, Or.inl rfl⟩

theorem forall₂_mayMove_later (lines : Nat) (tokens : List Token) :
    List.Forall₂ (MayMove lines) tokens (tokens.map (later lines)) :=
  List.forall₂_map_right_iff.2 (List.forall₂_same.2 fun _ _ => ⟨rfl, Or.inr rfl⟩)

theorem forall₂_read_separators (h : ∀ c ∈ blanks, Lexeme.isSeparator c = true) :
    List.Forall₂ (MayMove (blanks.count '\n')) (read line rest) (read line (blanks ++ rest)) := by
  rw [read_separators h, read_later]
  exact forall₂_mayMove_later _ _

/-- Separators after a lexeme leave its tokens, save that a loop's count stands where they end. -/
theorem forall₂_read_lexeme (hform : Lexeme.Form lexeme text more)
    (hrest : ∀ c ∈ rest.head?, more c = false)
    (hblanks : ∀ c ∈ blanks, Lexeme.isSeparator c = true) :
    List.Forall₂ (MayMove (blanks.count '\n')) (read line (text ++ rest))
      (read line (text ++ (blanks ++ rest))) := by
  rw [read_append_of_match (Lexeme.match?_of_form hform hrest)]
  cases hlexeme : lexeme with
  | blank =>
    rw [read_separators (hform.isSeparator_of_mem hlexeme)]
    exact forall₂_read_separators hblanks
  | token kind =>
    rw [read_append_of_match (hform.match?_token hlexeme hrest hblanks), hlexeme]
    exact List.rel_append (forall₂_mayMove_self _ _) (forall₂_read_separators hblanks)
  | loop count =>
    have hlater := read_later (line + text.count '\n') (blanks.count '\n') rest
    rw [← List.append_assoc, read_append_of_match (hform.match?_loop hlexeme hrest hblanks),
      hlexeme, List.count_append, ← Nat.add_assoc, hlater]
    refine List.rel_append ?_ (forall₂_mayMove_later _ _)
    cases count <;> exact .cons ⟨rfl, Or.inl rfl⟩ (.cons ⟨rfl, Or.inr rfl⟩ .nil)

/-- Separators may stand after any piece of a text without gaps before them. -/
theorem forall₂_read_insert {before after : List Piece}
    (h : Piece.Segmentation line text (before ++ after))
    (hgaps : ∀ piece ∈ before, piece.isGap = false)
    (hblanks : ∀ c ∈ blanks, Lexeme.isSeparator c = true) :
    List.Forall₂ (MayMove (blanks.count '\n')) (read line text)
      (read line (before.flatMap Piece.text ++ (blanks ++ after.flatMap Piece.text))) := by
  induction before generalizing line text with
  | nil =>
    obtain rfl := h.text_eq
    exact forall₂_read_separators hblanks
  | cons piece before ih =>
    rw [List.cons_append] at h
    obtain ⟨rfl, hstands, htail, rfl⟩ := Piece.segmentation_cons_iff.1 h
    obtain ⟨hgap, hgaps⟩ := List.forall_mem_cons.1 hgaps
    obtain ⟨lexeme, hlexeme⟩ : ∃ lexeme, piece.lexeme? = some lexeme := by
      simpa [Piece.isGap, Option.isSome_iff_exists] using hgap
    rw [Piece.Stands, hlexeme] at hstands
    obtain ⟨more, hform, hstop⟩ := Lexeme.match?_append_eq_some_iff.1 hstands
    rw [List.flatMap_append] at hstop ⊢
    cases before with
    | nil =>
      rw [List.flatMap_singleton]
      exact forall₂_read_lexeme hform hstop hblanks
    | cons next before =>
      -- The piece goes on with the same character as before.
      obtain ⟨_, hnext, _, _⟩ := Piece.segmentation_cons_iff.1 htail
      obtain ⟨c, text, htext⟩ := List.exists_cons_of_ne_nil (Piece.text_ne_nil_of_stands hnext)
      have hstop' : ∀ c ∈ ((next :: before).flatMap Piece.text ++
          (blanks ++ after.flatMap Piece.text)).head?, more c = false := by
        simpa [htext] using hstop
      have hsplit : (piece :: next :: before).flatMap Piece.text ++
          (blanks ++ after.flatMap Piece.text) = piece.text ++
            ((next :: before).flatMap Piece.text ++ (blanks ++ after.flatMap Piece.text)) :=
        List.append_assoc _ _ _
      rw [hsplit, read_append_of_match (Lexeme.match?_of_form hform hstop),
        read_append_of_match (Lexeme.match?_of_form hform hstop')]
      refine List.rel_append (forall₂_mayMove_self _ _) ?_
      rw [← List.flatMap_append]
      exact ih htail hgaps

theorem forall₂_ofText {a b : String}
    (h : List.Forall₂ (MayMove lines) (beforeEnd (ofText a)) (beforeEnd (ofText b))) :
    List.Forall₂ (fun token moved => moved.kind = token.kind ∧ (token.isEnd = false →
      moved.line = token.line ∨ moved.line = token.line + lines)) (ofText a) (ofText b) := by
  rw [ofText_eq a, ofText_eq b]
  refine List.rel_append (h.imp ?_) (.cons ⟨rfl, nofun⟩ .nil)
  intro token moved hmoved
  exact ⟨hmoved.1, fun _ => hmoved.2⟩

theorem map_lineless_eq_of_forall₂
    (h : List.Forall₂ (fun token moved => moved.kind = token.kind) tokens others) :
    tokens.map Relabeling.lineless.token = others.map Relabeling.lineless.token := by
  rw [← List.forall₂_eq_eq_eq, List.forall₂_map_left_iff, List.forall₂_map_right_iff]
  refine h.imp ?_
  intro token moved hkind
  exact congrArg (Token.mk · 0) hkind.symm

/-- Layout may stand in front of a text without gaps, behind it, or between two of its lexemes. The
tokens remain, each where it was or further down by the lines of the layout, and so does what they
spell. -/
theorem ofText_insert_layout (before layout after : String)
    (hcomment : '%' ∉ (before ++ after).toList) (hreturn : '\r' ∉ (before ++ after).toList)
    (hgaps : ∀ piece ∈ Piece.ofText (before ++ after), piece.isGap = false)
    (hsplit : ∃ earlier later, Piece.ofText (before ++ after) = earlier ++ later ∧
      earlier.flatMap Piece.text = before.toList)
    (hlayout : Comment.IsLayout layout.toList) :
    List.Forall₂ (fun token moved => moved.kind = token.kind ∧ (token.isEnd = false →
        moved.line = token.line ∨ moved.line = token.line + layout.toList.count '\n'))
      (ofText (before ++ after)) (ofText (before ++ layout ++ after)) ∧
    (∀ tree, Tree.ofText (before ++ after) = .ok tree →
      Tree.ofText (before ++ layout ++ after) = .ok tree) ∧
    ∀ error, Tree.ofText (before ++ after) = .error error →
      ∃ line, Tree.ofText (before ++ layout ++ after) =
        .error ⟨error.cause, line, error.found⟩ := by
  obtain ⟨earlier, later, hpieces, hearlier⟩ := hsplit
  obtain ⟨blanks, hblanks, hcount, hlayout⟩ := hlayout.exists_remove_append
  have htext := Comment.remove_of_not_mem hreturn hcomment
  have hsegmentation := Piece.segmentation_cutFrom 1 (Comment.remove (before ++ after).toList)
  rw [show Piece.cutFrom 1 [] [] _ = earlier ++ later from hpieces] at hsegmentation
  rw [hpieces] at hgaps
  have hlater : later.flatMap Piece.text = after.toList := by
    have h := hsegmentation.text_eq
    rw [htext, List.flatMap_append, hearlier, String.toList_append] at h
    exact List.append_cancel_left h
  simp only [String.toList_append, List.mem_append, not_or] at hcomment hreturn
  have hread : beforeEnd (ofText (before ++ layout ++ after)) =
      read 1 (before.toList ++ (blanks ++ after.toList)) := by
    rw [beforeEnd_ofText, String.toList_append, String.toList_append, List.append_assoc,
      Comment.remove_append hreturn.1 hcomment.1, hlayout,
      Comment.remove_of_not_mem hreturn.2 hcomment.2]
  have hmoved := forall₂_read_insert hsegmentation
    (fun piece hpiece => hgaps piece (List.mem_append_left _ hpiece)) hblanks
  rw [hearlier, hlater, ← hread, ← beforeEnd_ofText, hcount] at hmoved
  have htokens := forall₂_ofText hmoved
  have hkinds := map_lineless_eq_of_forall₂ (htokens.imp fun _ _ h => h.1)
  refine ⟨htokens, fun tree hok => Tree.ofTokens_eq_ok_of_relabel hkinds hok, ?_⟩
  intro error herror
  obtain ⟨other, hother, hcause, _, hfound⟩ :=
    Tree.exists_ofTokens_eq_error_of_relabel hkinds herror
  have hfound : other.found = error.found := hfound
  refine ⟨other.line, hother.trans ?_⟩
  rw [← hcause, ← hfound]

/-- After a loop's count the layout becomes part of the loop's lexeme. Where a period is missing,
it is missing as before. -/
theorem ofText_insert_layout_comment :
    Tree.ofText ("REPEAT 2 " ++ "% twice\n\t" ++ "UP.") =
        .ok (.program [.loop 2 (.leaf .penUp)]) ∧
      ∃ line, Tree.ofText ("REPEAT 2 UP" ++ "% twice\n\t" ++ " LEFT 5.") =
        .error ⟨.missingPeriod, line, .move .left⟩ := by
  have hlayout : Comment.IsLayout "% twice\n\t".toList := by
    have hremark : '\n' ∉ " twice".toList := by decide
    exact .comment hremark (.separator rfl .nil)
  have hpieces : Piece.ofText ("REPEAT 2 " ++ "UP.") =
      [⟨1, "REPEAT 2 ".toList, some (.loop (some 2))⟩, ⟨1, "UP".toList, some (.token .penUp)⟩,
        ⟨1, ['.'], some (.token .period)⟩] := by decide +kernel
  have hbroken : Piece.ofText ("REPEAT 2 UP" ++ " LEFT 5.") =
      [⟨1, "REPEAT 2 ".toList, some (.loop (some 2))⟩, ⟨1, "UP".toList, some (.token .penUp)⟩,
        ⟨1, [' '], some .blank⟩, ⟨1, "LEFT ".toList, some (.token (.move .left))⟩,
        ⟨1, ['5'], some (.token (.number 5))⟩, ⟨1, ['.'], some (.token .period)⟩] := by
    decide +kernel
  have hok := ofText_insert_layout "REPEAT 2 " "% twice\n\t" "UP." (by decide +kernel)
    (by decide +kernel) (by rw [hpieces]; decide) ⟨[_], _, hpieces, by decide +kernel⟩ hlayout
  have herror := ofText_insert_layout "REPEAT 2 UP" "% twice\n\t" " LEFT 5." (by decide +kernel)
    (by decide +kernel) (by rw [hbroken]; decide) ⟨[_, _], _, hbroken, by decide +kernel⟩ hlayout
  refine ⟨hok.2.1 _ ?_, herror.2.2 ⟨.missingPeriod, 1, .move .left⟩ ?_⟩
  · exact (congrArg (fun pieces => Tree.ofTokens (ofPieces pieces)) hpieces).trans rfl
  · exact (congrArg (fun pieces => Tree.ofTokens (ofPieces pieces)) hbroken).trans rfl

end Token

end TurtleGraphics
