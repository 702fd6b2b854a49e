import TurtleGraphics.Proofs.Reading

/-! A scan of UTF-8 bytes. Bytes of characters that take several belong to no lexeme, so what is
found is whole characters, and the tokens are those of the text. -/
namespace TurtleGraphics

namespace Lexeme

variable {c : Char} {text taken rest : List Char} {m : Match} {lexeme : Lexeme}
  {more : Char → Bool}

theorem lt_of_isAlphanum (hc : c.isAlphanum = true) : c.toNat < 128 := by
  simp only [Char.isAlphanum, Char.isAlpha, Char.isUpper, Char.isLower, Char.isDigit,
    Bool.or_eq_true, Bool.and_eq_true, decide_eq_true_eq, ge_iff_le] at hc
  have hle : c.val ≤ 122 := by
    rcases hc with (hupper | hlower) | hdigit
    · exact UInt32.le_trans hupper.2 (by decide)
    · exact hlower.2
    · exact UInt32.le_trans hdigit.2 (by decide)
  exact Nat.lt_of_le_of_lt (UInt32.le_iff_toNat_le.1 hle) (by decide)

theorem lt_of_isLexical (hc : isLexical c = true) : c.toNat < 128 := by
  simp only [isLexical, isSeparator, Bool.or_eq_true, decide_eq_true_eq] at hc
  rcases hc with (((hc | (rfl | rfl) | rfl) | rfl) | rfl) | rfl
  · exact lt_of_isAlphanum hc
  all_goals decide

/-- What prolongs a lexeme can itself stand in one. -/
theorem Form.isLexical_of_more (h : Form lexeme text more) (hc : more c = true) :
    isLexical c = true := by
  cases h with
  | loop => exact isLexical_of_isSeparator hc
  | number => simp [isLexical, Char.isAlphanum, hc]
  | blanks => exact isLexical_of_isSeparator (isSeparator_of_isBlank hc)
  | _ => cases hc

theorem Form.eq_ofList {color : String} (h : Form lexeme text more)
    (hcolor : lexeme = .token (.colorLiteral color)) : color = .ofList text := by
  cases h with
  | separatedWord hmem =>
    simp only [separatedWords, List.mem_cons, List.not_mem_nil, or_false] at hmem
    rcases hmem with rfl | rfl | rfl | rfl | rfl | rfl | rfl <;> cases hcolor
  | standaloneWord hmem =>
    simp only [standaloneWords, List.mem_cons, List.not_mem_nil, or_false] at hmem
    rcases hmem with rfl | rfl <;> cases hcolor
  | number => cases hvalue : value? text <;> rw [hvalue] at hcolor <;> cases hcolor
  | colorLiteral =>
    cases hcolor
    rfl
  | _ => cases hcolor

theorem match?_of_not_isLexical (hc : isLexical c = false) (rest : List Char) :
    match? (c :: rest) = none := by
  refine Option.eq_none_iff_forall_ne_some.2 ?_
  intro m hm
  obtain ⟨taken, after, more, hsplit, hlength, hform, _⟩ := match?_isWhole hm
  cases taken with
  | nil => exact absurd (match?_pos hm) (Nat.not_lt.2 (Nat.le_of_eq hlength))
  | cons d taken =>
    obtain ⟨rfl, _⟩ := List.cons_eq_cons.1 hsplit
    cases hc.symm.trans (hform.isLexical_of_mem c List.mem_cons_self)

/-- Characters that lexemes are made of are kept, and others give way to others. -/
structure Blurs (blur : Char → List Char) : Prop where
  lexical : ∀ c, isLexical c = true → blur c = [c]
  other : ∀ c, isLexical c = false → blur c ≠ [] ∧ ∀ d ∈ blur c, isLexical d = false

variable {blur : Char → List Char}

theorem Blurs.exists_cons (h : Blurs blur) (hc : isLexical c = false) :
    ∃ d others, blur c = d :: others ∧ isLexical d = false := by
  obtain ⟨hne, hothers⟩ := h.other c hc
  obtain ⟨d, others, hblur⟩ := List.exists_cons_of_ne_nil hne
  refine ⟨d, others, hblur, hothers d ?_⟩
  rw [hblur]
  exact List.mem_cons_self

theorem Blurs.flatMap_of_isLexical (h : Blurs blur) (htext : ∀ c ∈ text, isLexical c = true) :
    text.flatMap blur = text := by
  induction text with
  | nil => rfl
  | cons c text ih =>
    obtain ⟨hc, htext⟩ := List.forall_mem_cons.1 htext
    rw [List.flatMap_cons, h.lexical c hc, ih htext]
    rfl

theorem Blurs.exists_of_flatMap_eq_append (h : Blurs blur) {after : List Char}
    (htaken : ∀ c ∈ taken, isLexical c = true) (heq : text.flatMap blur = taken ++ after) :
    ∃ rest, text = taken ++ rest ∧ after = rest.flatMap blur := by
  induction taken generalizing text with
  | nil => exact ⟨text, rfl, heq.symm⟩
  | cons d taken ih =>
    obtain ⟨hd, hlater⟩ := List.forall_mem_cons.1 htaken
    cases text with
    | nil => cases heq
    | cons c text =>
      rw [List.flatMap_cons, List.cons_append] at heq
      cases hc : isLexical c with
      | true =>
        rw [h.lexical c hc] at heq
        obtain ⟨rfl, htext⟩ := List.cons_eq_cons.1 heq
        obtain ⟨rest, rfl, hafter⟩ := ih hlater htext
        exact ⟨rest, rfl, hafter⟩
      | false =>
        obtain ⟨e, others, hblur, he⟩ := h.exists_cons hc
        rw [hblur] at heq
        obtain ⟨rfl, _⟩ := List.cons_eq_cons.1 heq
        cases he.symm.trans hd

/-- The lexeme goes on after it where it did before. -/
theorem Blurs.head?_flatMap (h : Blurs blur) (hform : Form lexeme taken more) :
    (∀ c ∈ (text.flatMap blur).head?, more c = false) ↔ ∀ c ∈ text.head?, more c = false := by
  cases text with
  | nil => exact Iff.rfl
  | cons c text =>
    cases hc : isLexical c with
    | true =>
      rw [List.flatMap_cons, h.lexical c hc]
      exact Iff.rfl
    | false =>
      obtain ⟨e, others, hblur, he⟩ := h.exists_cons hc
      have hend : ∀ {d}, isLexical d = false → more d = false := by
        intro d hd
        cases hmore : more d with
        | false => rfl
        | true => cases hd.symm.trans (hform.isLexical_of_more hmore)
      rw [List.flatMap_cons, hblur]
      simp [hend he, hend hc]

/-- Lexemes are seen all the same. -/
theorem Blurs.match?_eq (h : Blurs blur) (text : List Char) :
    match? (text.flatMap blur) = match? text := by
  refine Option.ext ?_
  intro m
  constructor
  · intro hm
    obtain ⟨taken, after, more, hsplit, hlength, hform, hafter⟩ := match?_isWhole hm
    obtain ⟨rest, rfl, rfl⟩ := h.exists_of_flatMap_eq_append hform.isLexical_of_mem hsplit
    have hmatch := match?_of_form hform ((h.head?_flatMap hform).1 hafter)
    rw [hmatch, ← hlength]
  · intro hm
    obtain ⟨taken, rest, more, rfl, hlength, hform, hrest⟩ := match?_isWhole hm
    have hmatch := match?_of_form hform ((h.head?_flatMap hform).2 hrest)
    rw [List.flatMap_append, h.flatMap_of_isLexical hform.isLexical_of_mem, hmatch, ← hlength]

end Lexeme

namespace Octets

open Lexeme (isLexical)

variable {c : Char} {b : UInt8} {text taken before : List Char}

theorem le_ofNat {n : Nat} (hle : 128 ≤ n) (hlt : n < 256) : 128 ≤ UInt8.ofNat n := by
  rw [UInt8.le_iff_toNat_le, UInt8.toNat_ofNat_of_lt' hlt]
  exact hle

/-- A character that takes several bytes has none below 128. -/
theorem le_of_mem_utf8EncodeChar (hc : 128 ≤ c.toNat) :
    ∀ b ∈ String.utf8EncodeChar c, 128 ≤ b := by
  have hlarge : ¬ c.val.toNat ≤ 127 := Nat.not_le.2 hc
  simp only [String.utf8EncodeChar, hlarge, if_false]
  split
  · simp only [List.forall_mem_cons, List.not_mem_nil]
    refine ⟨le_ofNat ?_ ?_, le_ofNat ?_ ?_, nofun⟩ <;> omega
  · split
    · simp only [List.forall_mem_cons, List.not_mem_nil]
      refine ⟨le_ofNat ?_ ?_, le_ofNat ?_ ?_, le_ofNat ?_ ?_, nofun⟩ <;> omega
    · simp only [List.forall_mem_cons, List.not_mem_nil]
      refine ⟨le_ofNat ?_ ?_, le_ofNat ?_ ?_, le_ofNat ?_ ?_, le_ofNat ?_ ?_, nofun⟩ <;> omega

theorem lt_of_isLexical_ofUInt8 : ∀ b, isLexical (Char.ofUInt8 b) = true → b < 128 :=
  forall_octet (by decide +kernel)

theorem not_isLexical_of_le (hb : 128 ≤ b) : isLexical (Char.ofUInt8 b) = false := by
  cases hlexical : isLexical (Char.ofUInt8 b) with
  | false => rfl
  | true => exact absurd (lt_of_isLexical_ofUInt8 b hlexical) (UInt8.not_lt.2 hb)

theorem isNewline_eq : ∀ b : UInt8, (b == 10) = (Char.ofUInt8 b == '\n') :=
  forall_octet (by decide +kernel)

theorem append_ne_singleton {α : Type} {before after : List α} {a : α} (hbefore : before ≠ [])
    (hafter : after ≠ []) : before ++ after ≠ [a] := by
  intro h
  rcases List.append_eq_singleton_iff.1 h with ⟨hnil, _⟩ | ⟨_, hnil⟩
  · exact hbefore hnil
  · exact hafter hnil

theorem blurs_utf8 : Lexeme.Blurs fun c => characters (String.utf8EncodeChar c) where
  lexical c hc := by
    obtain ⟨b, hb, hchar⟩ := utf8EncodeChar_of_lt (Lexeme.lt_of_isLexical hc)
    rw [hb, ← hchar]
    rfl
  other c hc := by
    refine ⟨mt List.map_eq_nil_iff.1 String.utf8EncodeChar_ne_nil, List.forall_mem_map.2 ?_⟩
    intro b hb
    by_cases hascii : c.toNat < 128
    · obtain ⟨d, hd, rfl⟩ := utf8EncodeChar_of_lt hascii
      rw [hd, List.mem_singleton] at hb
      rw [hb, hc]
    · exact not_isLexical_of_le (le_of_mem_utf8EncodeChar (Nat.not_lt.1 hascii) b hb)

theorem match?_of_le (repair : List UInt8 → String) (hb : 128 ≤ b) (bytes : List UInt8) :
    match? repair (b :: bytes) = .ok none := by
  rw [reads_match?]
  exact congrArg _ (Lexeme.match?_of_not_isLexical (not_isLexical_of_le hb) (characters bytes))

/-- At no byte of a character that takes several is anything found. -/
theorem match?_of_multibyte (repair : List UInt8 → String) (hc : 128 ≤ c.toNat)
    {read unread : List UInt8} (hsplit : String.utf8EncodeChar c = read ++ unread)
    (hunread : unread ≠ []) (after : List UInt8) :
    match? repair (unread ++ after) = .ok none := by
  obtain ⟨b, others, rfl⟩ := List.exists_cons_of_ne_nil hunread
  refine match?_of_le repair (le_of_mem_utf8EncodeChar hc b ?_) (others ++ after)
  rw [hsplit]
  exact List.mem_append_right _ List.mem_cons_self

theorem encodes_utf8 (repair : List UInt8 → String) :
    Scan.Encodes String.utf8EncodeChar (match? repair) (· == 10) where
  ne_nil _ := String.utf8EncodeChar_ne_nil
  single c hc := by
    obtain ⟨b, hb, rfl⟩ := utf8EncodeChar_of_lt (Lexeme.lt_of_isLexical hc)
    exact ⟨b, hb, isNewline_eq b⟩
  find_eq text := by
    have hchars : characters (text.flatMap String.utf8EncodeChar) =
        text.flatMap fun c => characters (String.utf8EncodeChar c) := List.map_flatMap ..
    rw [reads_match?, hchars, blurs_utf8.match?_eq]
  find_inside c read unread text hsplit hread hunread := by
    by_cases hascii : c.toNat < 128
    · obtain ⟨b, hb, _⟩ := utf8EncodeChar_of_lt hascii
      exact (append_ne_singleton hread hunread (hsplit.symm.trans hb)).elim
    · exact match?_of_multibyte repair (Nat.not_lt.1 hascii) hsplit hunread _

theorem encodes_characters :
    Scan.Encodes (fun c => [c]) (fun text => .ok (Lexeme.match? text)) (· == '\n') where
  ne_nil _ := List.cons_ne_nil _ _
  single c _ := ⟨c, rfl, rfl⟩
  find_eq text := by rw [List.flatMap_singleton']
  find_inside _ _ _ _ hsplit hread hunread := (append_ne_singleton hread hunread hsplit.symm).elim

theorem utf8_append (before after : List Char) :
    utf8 (before ++ after) = utf8 before ++ utf8 after := by
  simp only [utf8_eq, List.flatMap_append]

/-- The bytes of whole characters end on a boundary of the text. -/
theorem isValid_length_utf8 (before after : List Char) :
    String.Pos.Raw.IsValid (.ofList (before ++ after)) ⟨(utf8 before).length⟩ :=
  String.Pos.Raw.isValid_iff_exists_append.2
    ⟨.ofList before, .ofList after, String.ofList_append, rfl⟩

theorem lt_of_mem_utf8 (htext : ∀ c ∈ text, c.toNat < 128) : ∀ b ∈ utf8 text, b < 128 := by
  rw [utf8_eq]
  intro b hb
  obtain ⟨c, hc, hb⟩ := List.mem_flatMap.1 hb
  obtain ⟨d, hd, rfl⟩ := utf8EncodeChar_of_lt (htext c hc)
  rw [hd, List.mem_singleton] at hb
  subst d
  exact htext _ hc

theorem take_drop_utf8 (htaken : ∀ c ∈ taken, c.toNat < 128) (before after : List Char) :
    ((utf8 (before ++ (taken ++ after))).drop (utf8 before).length).take taken.length =
      utf8 taken := by
  rw [utf8_append, utf8_append, List.drop_left, ← length_utf8 htaken, List.take_left]

/-- The match at a byte of the text takes one byte or more and none past the end, all of them ASCII,
from one boundary of the text to another. A color's text is just the bytes taken. -/
structure TakesAscii (text : List Char) (position : Nat) (m : Lexeme.Match) : Prop where
  length_pos : 0 < m.length
  length_le : position + m.length ≤ (utf8 text).length
  ascii : ∀ b ∈ ((utf8 text).drop position).take m.length, b < 128
  start : String.Pos.Raw.IsValid (.ofList text) ⟨position⟩
  stop : String.Pos.Raw.IsValid (.ofList text) ⟨position + m.length⟩
  color : ∀ color, m.lexeme = .token (.colorLiteral color) →
    color.toUTF8.data.toList = ((utf8 text).drop position).take m.length

theorem exists_takesAscii (repair : List UInt8 → String) {position : Nat}
    (hposition : position < (utf8 text).length) :
    ∃ found, match? repair ((utf8 text).drop position) = .ok found ∧
      ∀ m ∈ found, TakesAscii text position m := by
  have hsplit := (encodes_utf8 repair).exists_find (by rwa [utf8_eq] at hposition)
  rw [← utf8_eq] at hsplit
  obtain ⟨found, hfound, hlexeme⟩ := hsplit
  refine ⟨found, hfound, ?_⟩
  intro m hm
  obtain ⟨before, taken, after, rfl, rfl, hlength, hmatch⟩ := hlexeme m hm
  obtain ⟨lexeme, length⟩ := m
  obtain rfl : length = taken.length := hlength
  obtain ⟨more, hform, _⟩ := Lexeme.match?_append_eq_some_iff.1 hmatch
  have hascii : ∀ c ∈ taken, c.toNat < 128 := by
    intro c hc
    exact Lexeme.lt_of_isLexical (hform.isLexical_of_mem c hc)
  have hend : (utf8 before).length + taken.length = (utf8 (before ++ taken)).length := by
    rw [utf8_append, List.length_append, length_utf8 hascii]
  have htake := take_drop_utf8 hascii before after
  rw [← utf8_eq]
  refine ⟨Lexeme.match?_pos hmatch, ?_, ?_, isValid_length_utf8 _ _, ?_, ?_⟩
  · rw [hend, ← List.append_assoc, utf8_append (before ++ taken), List.length_append]
    exact Nat.le_add_right _ _
  · rw [htake]
    exact lt_of_mem_utf8 hascii
  · rw [hend, ← List.append_assoc]
    exact isValid_length_utf8 (before ++ taken) after
  · intro color hcolor
    rw [htake, hform.eq_ofList hcolor]
    rfl

/-- A scan goes over a character that takes several bytes without leaving the gap. -/
theorem run_multibyte (repair : List UInt8 → String) (hc : 128 ≤ c.toNat) {state : Scan.State}
    (hposition : state.position = (utf8 before).length) (after : List Char) :
    Scan.run (match? repair) (· == 10) (utf8 (before ++ c :: after)) state =
      Scan.run (match? repair) (· == 10) (utf8 (before ++ c :: after))
        (state.extendGap c.utf8Size) := by
  have hinput : utf8 (before ++ c :: after) =
      utf8 before ++ (String.utf8EncodeChar c ++ utf8 after) := by
    rw [utf8_append, utf8_eq (c :: after), List.flatMap_cons, utf8_eq after]
  rw [← String.length_utf8EncodeChar]
  refine Scan.run_units (· == 10) ?_ String.utf8EncodeChar_ne_nil hinput hposition
  intro read unread hsplit hunread
  exact match?_of_multibyte repair hc hsplit hunread _

/-- A text is scanned in bytes as it is in characters. Whatever is found at a byte is whole ASCII
characters, every round of the scan goes through and moves on, and a character of several bytes
lengthens a gap and never ends it. -/
theorem tokens_utf8 (repair : List UInt8 → String) (text : List Char) :
    (∀ position < (utf8 text).length,
      ∃ found, match? repair ((utf8 text).drop position) = .ok found ∧
        ∀ m ∈ found, TakesAscii text position m) ∧
    (∀ state : Scan.State, state.position < (utf8 text).length →
      ∃ next, Scan.step (match? repair) (· == 10) (utf8 text) state = .ok next ∧
        state.position < next.position ∧ next.position ≤ (utf8 text).length) ∧
    (∀ before c after, text = before ++ c :: after → 128 ≤ c.toNat →
      (∀ read unread, String.utf8EncodeChar c = read ++ unread → unread ≠ [] →
        match? repair (unread ++ utf8 after) = .ok none) ∧
      ∀ state : Scan.State, state.position = (utf8 before).length →
        Scan.run (match? repair) (· == 10) (utf8 text) state =
          Scan.run (match? repair) (· == 10) (utf8 text) (state.extendGap c.utf8Size)) ∧
    Scan.tokens (match? repair) (· == 10) (utf8 text) =
      Scan.tokens (fun text => .ok (Lexeme.match? text)) (· == '\n') text ∧
    ∀ program : String, text = Comment.remove program.toList →
      Scan.tokens (match? repair) (· == 10) (utf8 text) = .ok (Token.ofText program) := by
  have hbytes := encodes_utf8 repair
  refine ⟨?_, ?_, ?_, ?_, ?_⟩
  · intro position hposition
    exact exists_takesAscii repair hposition
  · intro state hinside
    rw [utf8_eq] at hinside ⊢
    exact hbytes.exists_step_eq_ok hinside
  · rintro before c after rfl hc
    refine ⟨?_, ?_⟩
    · intro read unread hsplit hunread
      exact match?_of_multibyte repair hc hsplit hunread (utf8 after)
    · intro state hposition
      exact run_multibyte repair hc hposition after
  · have hcharacters := encodes_characters.tokens_eq text
    rw [List.flatMap_singleton'] at hcharacters
    rw [utf8_eq, hbytes.tokens_eq, hcharacters]
  · rintro program rfl
    rw [utf8_eq, hbytes.tokens_eq]
    rfl

theorem tokens_utf8_color :
    match? (fun _ => "\uFFFD") ((utf8 "å#A1b2C3å".toList).drop 2) =
        .ok (some ⟨.token (.colorLiteral "#A1b2C3"), 7⟩) ∧
      String.Pos.Raw.IsValid "å#A1b2C3å" ⟨9⟩ ∧
      128 ≤ 'å'.toNat ∧
      match? (fun _ => "\uFFFD") (165 :: utf8 "#A1b2C3å".toList) = .ok none ∧
      Scan.run (match? fun _ => "\uFFFD") (· == 10) (utf8 "å#A1b2C3å".toList) .initial =
        Scan.run (match? fun _ => "\uFFFD") (· == 10) (utf8 "å#A1b2C3å".toList)
          ⟨2, 1, true, []⟩ ∧
      Scan.tokens (match? fun _ => "\uFFFD") (· == 10) (utf8 "å#A1b2C3å".toList) =
        .ok [⟨.unrecognized, 1⟩, ⟨.colorLiteral "#A1b2C3", 1⟩, ⟨.unrecognized, 1⟩,
          ⟨.endOfInput, 1⟩] := by
  obtain ⟨hfind, _, hletter, _, htokens⟩ := tokens_utf8 (fun _ => "\uFFFD") "å#A1b2C3å".toList
  have hmatch : match? (fun _ => "\uFFFD") ((utf8 "å#A1b2C3å".toList).drop 2) =
      .ok (some ⟨.token (.colorLiteral "#A1b2C3"), 7⟩) := by
    rw [reads_match?, utf8_eq]
    rfl
  have hinside : 2 < (utf8 "å#A1b2C3å".toList).length := by
    rw [utf8_eq]
    decide
  obtain ⟨found, hfound, hlexeme⟩ := hfind 2 hinside
  obtain rfl := Except.ok.inj (hmatch.symm.trans hfound)
  have hend : String.Pos.Raw.IsValid "å#A1b2C3å" ⟨9⟩ := (hlexeme _ rfl).stop
  obtain ⟨hnone, hrun⟩ := hletter [] 'å' "#A1b2C3å".toList rfl (by decide)
  have hprogram : Token.ofText "å#A1b2C3å" =
      [⟨.unrecognized, 1⟩, ⟨.colorLiteral "#A1b2C3", 1⟩, ⟨.unrecognized, 1⟩, ⟨.endOfInput, 1⟩] := by
    decide +kernel
  refine ⟨hmatch, hend, by decide, hnone [195] [165] rfl (List.cons_ne_nil _ _), hrun _ ?_, ?_⟩
  · rfl
  · rw [← hprogram]
    exact htokens "å#A1b2C3å" (by decide)

end Octets

end TurtleGraphics
