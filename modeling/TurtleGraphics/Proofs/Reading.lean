import Mathlib.Data.List.Forall2
import TurtleGraphics.Proofs.Octets
import TurtleGraphics.Proofs.Scan

/-! Every reader of bytes finds what the reader of characters does. -/
namespace TurtleGraphics

/-- A loop keyword and the count that has to follow it. -/
def Lexeme.counted? (word text : List Char) : Option Match :=
  (afterWord? word text).bind (countAfter? word.length)

namespace Octets

open Lexeme (Match Keyword)
open Scan (Finder slice slice_append slice_middle)

variable {bytes typed after digits : List UInt8} {text word : List Char} {length : Nat}
  {keyword : Keyword}

/-- Bytes that end before the word does cannot equal it. -/
theorem keyword?_eq_some_iff :
    keyword? word bytes = some length ↔
      length = (utf8 word).length ∧
        (bytes.take length).map toLower = (utf8 word).map toLower := by
  by_cases hle : (utf8 word).length ≤ bytes.length
  · simp only [keyword?, slice, Nat.zero_le, true_and, if_pos hle, List.drop_zero, Nat.sub_zero,
      Option.ite_none_right_eq_some, Option.some_inj]
    constructor
    · rintro ⟨hstart, rfl⟩
      exact ⟨rfl, hstart⟩
    · rintro ⟨rfl, hstart⟩
      exact ⟨hstart, rfl⟩
  · simp only [keyword?, slice, Nat.zero_le, true_and, if_neg hle]
    constructor
    · intro hfound
      cases hfound
    · rintro ⟨rfl, hstart⟩
      have hlength := congrArg List.length hstart
      simp only [List.length_map, List.length_take] at hlength
      omega

/-- A word in lower case stands at the start of the bytes just where it stands at the start of their
characters. -/
theorem keyword?_cases (hword : word.all Char.isLower = true) (bytes : List UInt8) :
    (keyword? word bytes = none ∧ Lexeme.afterWord? word (characters bytes) = none) ∨
    ∃ typed after, bytes = typed ++ after ∧ typed.length = word.length ∧
      keyword? word bytes = some typed.length ∧
      Lexeme.afterWord? word (characters bytes) = some (characters after) := by
  have hascii : ∀ c ∈ word, c.toNat < 128 := by
    intro c hc
    exact lt_of_isLower (List.all_eq_true.1 hword c hc)
  have hletters : characters ((utf8 word).map toLower) = word := by
    rw [characters_map_toLower, characters_utf8 hascii, map_toLower_of_isLower hword]
  have hlength := length_utf8 hascii
  cases hafter : Lexeme.afterWord? word (characters bytes) with
  | some rest =>
    obtain ⟨start, hsplit, hstart⟩ := Lexeme.afterWord?_eq_some hafter
    obtain ⟨typed, after, rfl, rfl, rfl⟩ := List.map_eq_append_iff.1 hsplit
    have htyped : typed.length = word.length := by
      rw [← hstart, List.length_map, List.length_map]
    refine .inr ⟨typed, after, rfl, htyped, ?_, rfl⟩
    refine keyword?_eq_some_iff.2 ⟨htyped.trans hlength.symm, ?_⟩
    rw [List.take_left]
    apply List.map_injective_iff.2 ofUInt8_injective
    exact (characters_map_toLower typed).trans (hstart.trans hletters.symm)
  | none =>
    refine .inl ⟨Option.eq_none_iff_forall_ne_some.2 ?_, rfl⟩
    intro length hfound
    obtain ⟨_, hstart⟩ := keyword?_eq_some_iff.1 hfound
    have htyped : (characters (bytes.take length)).map Char.toLower = word := by
      rw [← characters_map_toLower, hstart, hletters]
    have hsome : Lexeme.afterWord? word
        (characters (bytes.take length) ++ characters (bytes.drop length)) =
          some (characters (bytes.drop length)) := Lexeme.afterWord?_append htyped
    rw [← characters_append, List.take_append_drop] at hsome
    cases hafter.symm.trans hsome

/-- The bytes read just as their characters are, without a fault. -/
def Reads (finder : Finder UInt8) (reader : List Char → Option Match) : Prop :=
  ∀ bytes, finder bytes = .ok (reader (characters bytes))

variable {finders : List (Finder UInt8)} {tried : List (List Char → Option Match)}

theorem Reads.first (h : List.Forall₂ Reads finders tried) :
    Reads (Scan.first finders) fun text => tried.findSome? (· text) := by
  intro bytes
  induction h with
  | nil => rfl
  | @cons finder reader finders tried hfinder hfinders ih =>
    simp only [Scan.first, hfinder bytes, bind, Except.bind, List.findSome?_cons]
    cases reader (characters bytes) with
    | some m => rfl
    | none => exact ih

theorem reads_separated? (hword : keyword.word.all Char.isLower = true) :
    Reads (separated? keyword) fun text => keyword.separated? text := by
  intro bytes
  rcases keyword?_cases hword bytes with
    ⟨hfound, hafter⟩ | ⟨typed, after, rfl, hlength, hfound, hafter⟩
  · simp only [separated?, Keyword.separated?, hfound, hafter]
    rfl
  · simp only [separated?, Keyword.separated?, hfound, hafter, Option.bind_some, hlength]
    cases after with
    | nil => simp [characters, hlength]
    | cons b after => simp [characters, hlength, isSeparator_eq]

theorem reads_standalone? (hword : keyword.word.all Char.isLower = true) :
    Reads (standalone? keyword) fun text => keyword.standalone? text := by
  intro bytes
  rcases keyword?_cases hword bytes with
    ⟨hfound, hafter⟩ | ⟨typed, after, rfl, hlength, hfound, hafter⟩
  · simp only [standalone?, Keyword.standalone?, hfound, hafter]
    rfl
  · simp only [standalone?, Keyword.standalone?, hfound, hafter, hlength]
    rfl

/-- A run of digits has no sign. -/
theorem parse?_digits (hdigits : Lexeme.IsRun Char.isDigit text) :
    parse? text = Lexeme.value? text := by
  obtain ⟨c, tail, rfl⟩ := List.exists_cons_of_ne_nil hdigits.ne_nil
  have hsign : c ≠ '+' := Lexeme.ne_of_isDigit (hdigits.all c List.mem_cons_self) rfl
  have hall : (c :: tail).all Char.isDigit = true := List.all_eq_true.2 hdigits.all
  rw [← Lexeme.foldlM_appendDigit?_eq_value?]
  simp only [parse?, List.head?_cons, Option.some_inj, if_neg hsign, hall]
  rfl

theorem value?_digits (hne : digits ≠ []) (hdigits : ∀ b ∈ digits, isDigit b = true) :
    value? digits = Lexeme.value? (characters digits) := by
  have hascii : ∀ b ∈ digits, b < 128 := by
    intro b hb
    exact lt_of_isDigit b (hdigits b hb)
  have hrun : Lexeme.IsRun Char.isDigit (characters digits) := by
    refine ⟨mt List.map_eq_nil_iff.1 hne, List.forall_mem_map.2 ?_⟩
    intro b hb
    rw [← isDigit_eq, hdigits b hb]
  rw [value?, fromUTF8?_of_lt hascii, Option.bind_some, String.toList_ofList, parse?_digits hrun]

theorem isEmpty_characters (bytes : List UInt8) :
    (characters bytes).isEmpty = decide (bytes.length = 0) := by
  cases bytes <;> rfl

theorem countAfter?_append (typed after : List UInt8) :
    countAfter? typed.length (typed ++ after) =
      .ok (Lexeme.countAfter? typed.length (characters after)) := by
  obtain ⟨lead, unread, rfl, _, hlead, hleadChars, hunread⟩ := exists_run isSeparator_eq after
  obtain ⟨digits, others, rfl, hdigits, hcount, hdigitChars, hothers⟩ :=
    exists_run isDigit_eq unread
  obtain ⟨trail, rest, rfl, _, htrail, htrailChars, _⟩ := exists_run isSeparator_eq others
  have hafterWord := slice_append typed (lead ++ (digits ++ (trail ++ rest)))
  have hafterLead := slice_append (typed ++ lead) (digits ++ (trail ++ rest))
  have hbetween := slice_middle (typed ++ lead) digits (trail ++ rest)
  have hafterDigits := slice_append (typed ++ lead ++ digits) (trail ++ rest)
  simp only [List.append_assoc, List.length_append,
    ← Nat.add_assoc] at hafterWord hafterLead hbetween hafterDigits
  simp only [countAfter?, Lexeme.countAfter?, List.length_append, ← Nat.add_assoc, hafterWord,
    hlead, hafterLead, hcount, hafterDigits, htrail, hbetween, hleadChars, hunread, hdigitChars,
    hothers, htrailChars, isEmpty_characters, bind, Except.bind]
  by_cases hnoLead : lead.length = 0
  · simp [hnoLead, pure, Except.pure]
  · by_cases hnoDigits : digits.length = 0
    · simp [hnoLead, hnoDigits, pure, Except.pure]
    · by_cases hnoTrail : trail.length = 0
      · simp [hnoLead, hnoDigits, hnoTrail, pure, Except.pure]
      · have hvalue := value?_digits (mt List.length_eq_zero_iff.2 hnoDigits) hdigits
        simp [hnoLead, hnoDigits, hnoTrail, pure, Except.pure, hvalue, characters]

theorem reads_counted? (hword : word.all Char.isLower = true) :
    Reads (counted? word) (Lexeme.counted? word) := by
  intro bytes
  rcases keyword?_cases hword bytes with
    ⟨hfound, hafter⟩ | ⟨typed, after, rfl, hlength, hfound, hafter⟩
  · simp only [counted?, Lexeme.counted?, hfound, hafter]
    rfl
  · simp only [counted?, Lexeme.counted?, hfound, hafter, countAfter?_append, ← hlength]
    rfl

theorem isLower_of_mem_separatedWords :
    ∀ keyword ∈ Lexeme.separatedWords, keyword.word.all Char.isLower = true :=
  List.all_eq_true.1 rfl

theorem isLower_of_mem_standaloneWords :
    ∀ keyword ∈ Lexeme.standaloneWords, keyword.word.all Char.isLower = true :=
  List.all_eq_true.1 rfl

theorem isLower_of_mem_loopWords : ∀ word ∈ Lexeme.loopWords, word.all Char.isLower = true :=
  List.all_eq_true.1 rfl

variable {α : Type} {items : List α} {finder : α → Finder UInt8}
  {reader : α → List Char → Option Match}

theorem forall₂_reads_map (h : ∀ item ∈ items, Reads (finder item) (reader item)) :
    List.Forall₂ Reads (items.map finder) (items.map reader) := by
  rw [List.forall₂_map_left_iff, List.forall₂_map_right_iff, List.forall₂_same]
  exact h

theorem Reads.of_map {chosen : Finder UInt8}
    (h : Reads chosen fun text => (items.map reader).findSome? (· text)) :
    Reads chosen fun text => items.findSome? (reader · text) := by
  simp only [List.findSome?_map] at h
  exact h

theorem reads_separatedWords :
    List.Forall₂ Reads (Lexeme.separatedWords.map separated?)
      (Lexeme.separatedWords.map fun keyword text => keyword.separated? text) :=
  forall₂_reads_map fun keyword hmem =>
    reads_separated? (isLower_of_mem_separatedWords keyword hmem)

theorem reads_standaloneWords :
    List.Forall₂ Reads (Lexeme.standaloneWords.map standalone?)
      (Lexeme.standaloneWords.map fun keyword text => keyword.standalone? text) :=
  forall₂_reads_map fun keyword hmem =>
    reads_standalone? (isLower_of_mem_standaloneWords keyword hmem)

theorem reads_loopWords :
    List.Forall₂ Reads (Lexeme.loopWords.map counted?) (Lexeme.loopWords.map Lexeme.counted?) :=
  forall₂_reads_map fun word hmem => reads_counted? (isLower_of_mem_loopWords word hmem)

/-- Where no keyword starts a later one, going by the first that is found loses no count. A later
one with a count ends at a separator, where the first would go on. -/
theorem countAfter?_findSome? {words : List (List Char)}
    (hwords : ∀ word ∈ words, word ∈ Lexeme.loopWords)
    (hapart : words.Pairwise fun word other => ¬ word <+: other) (bytes : List UInt8) :
    (match words.findSome? (keyword? · bytes) with
      | some length => countAfter? length bytes
      | none => .ok none) = Scan.first (words.map counted?) bytes := by
  induction words with
  | nil => rfl
  | cons word words ih =>
    obtain ⟨hmem, hothers⟩ := List.forall_mem_cons.1 hwords
    obtain ⟨hword, hapart⟩ := List.pairwise_cons.1 hapart
    rcases keyword?_cases (isLower_of_mem_loopWords word hmem) bytes with
      ⟨hfound, hafter⟩ | ⟨typed, after, rfl, hlength, hfound, hafter⟩
    · simp only [List.findSome?_cons, List.map_cons, Scan.first, counted?, hfound]
      exact ih hothers hapart
    · simp only [List.findSome?_cons, List.map_cons, Scan.first, counted?, hfound,
        countAfter?_append, bind, Except.bind]
      cases Lexeme.countAfter? typed.length (characters after) with
      | some m => rfl
      | none =>
        have hnone :
            words.findSome? (Lexeme.counted? · (characters (typed ++ after))) = none := by
          refine List.findSome?_eq_none_iff.2 ?_
          intro other hother
          refine Option.eq_none_iff_forall_ne_some.2 ?_
          intro m hm
          have hprefix := Lexeme.prefix_firstWord (Lexeme.isWord_of_mem_loopWords word hmem) hafter
          rw [Lexeme.firstWord_of_countAfter? (hothers other hother) hm] at hprefix
          exact hword other hother hprefix
        have hreads : ∀ other ∈ words, Reads (counted? other) (Lexeme.counted? other) := by
          intro other hother
          exact reads_counted? (isLower_of_mem_loopWords other (hothers other hother))
        have hfirst := (Reads.first (forall₂_reads_map hreads)).of_map (typed ++ after)
        exact (hfirst.trans (congrArg Except.ok hnone)).symm

theorem loop?_eq (bytes : List UInt8) :
    loop? bytes = Scan.first (Lexeme.loopWords.map counted?) bytes :=
  countAfter?_findSome? (fun _ hmem => hmem) (by decide) bytes

theorem reads_loop? : Reads loop? Lexeme.loop? := by
  intro bytes
  rw [loop?_eq]
  exact (Reads.first reads_loopWords).of_map bytes

theorem reads_separatedWord? : Reads separatedWord? Lexeme.separatedWord? :=
  (Reads.first reads_separatedWords).of_map

theorem reads_standaloneWord? : Reads standaloneWord? Lexeme.standaloneWord? :=
  (Reads.first reads_standaloneWords).of_map

theorem reads_punctuation? : Reads punctuation? Lexeme.punctuation? := by
  rintro (_ | ⟨b, bytes⟩)
  · rfl
  · by_cases hperiod : b = 46
    · subst b
      rfl
    · by_cases hquote : b = 34
      · subst b
        rfl
      · have hnone : punctuation? (b :: bytes) = .ok none := by
          simp [punctuation?, hperiod, hquote]
        rw [hnone, Lexeme.punctuation?]
        · exact characters_ne_cons hperiod
        · exact characters_ne_cons hquote

theorem reads_newline? : Reads newline? Lexeme.newline? := by
  rintro (_ | ⟨b, bytes⟩)
  · rfl
  · by_cases hnewline : b = 10
    · subst b
      rfl
    · have hnone : newline? (b :: bytes) = .ok none := by simp [newline?, hnewline]
      rw [hnone, Lexeme.newline?]
      exact characters_ne_cons hnewline

theorem all_isAlphanum_characters (bytes : List UInt8) :
    (characters bytes).all Char.isAlphanum = bytes.all isAlphanum := by
  obtain h : isAlphanum = Char.isAlphanum ∘ Char.ofUInt8 := funext isAlphanum_eq
  rw [h]
  exact List.all_map

/-- Letters and digits are valid UTF-8, so nothing needs repair. -/
theorem colorLiteral?_append (repair : List UInt8 → String) (hlength : digits.length = 6)
    (rest : List UInt8) :
    colorLiteral? repair (35 :: (digits ++ rest)) =
      .ok (if digits.all isAlphanum then
        some ⟨.token (.colorLiteral (.ofList ('#' :: characters digits))), 7⟩ else none) := by
  have hdigits : slice ([35] ++ (digits ++ rest)) 1 (1 + digits.length) = .ok digits :=
    slice_middle [35] digits rest
  have hliteral : slice ([] ++ (35 :: digits ++ rest)) 0 (0 + (35 :: digits).length) =
      .ok (35 :: digits) := slice_middle [] (35 :: digits) rest
  rw [hlength] at hdigits
  rw [List.length_cons, hlength] at hliteral
  have hdigits : slice (35 :: (digits ++ rest)) 1 7 = .ok digits := hdigits
  have hliteral : slice (35 :: (digits ++ rest)) 0 7 = .ok (35 :: digits) := hliteral
  simp only [colorLiteral?, List.head?_cons, ne_eq, not_true_eq_false, if_false, hdigits, hliteral]
  by_cases hall : digits.all isAlphanum = true
  · have hascii : ∀ b ∈ 35 :: digits, b < 128 := by
      refine List.forall_mem_cons.2 ⟨by decide, ?_⟩
      intro b hb
      exact lt_of_isAlphanum b (List.all_eq_true.1 hall b hb)
    simp only [if_pos hall, bind, Except.bind, fromUTF8?_of_lt hascii]
    rfl
  · rw [if_neg hall, if_neg hall]

theorem colorLiteral?_of_length_lt (repair : List UInt8 → String) (hlength : bytes.length < 6) :
    colorLiteral? repair (35 :: bytes) = .ok none := by
  have hslice : slice (35 :: bytes) 1 7 = .error (.outside 1 7) := by
    rw [slice, if_neg]
    rw [List.length_cons]
    omega
  simp only [colorLiteral?, hslice]
  rfl

theorem reads_colorLiteral? (repair : List UInt8 → String) :
    Reads (colorLiteral? repair) Lexeme.colorLiteral? := by
  rintro (_ | ⟨b, bytes⟩)
  · rfl
  · by_cases hhash : b = 35
    · subst b
      have hchars : characters (35 :: bytes) = '#' :: characters bytes := rfl
      have htakeChars : (characters bytes).take 6 = characters (bytes.take 6) := List.map_take.symm
      simp only [hchars, Lexeme.colorLiteral?, htakeChars, all_isAlphanum_characters]
      by_cases hlength : 6 ≤ bytes.length
      · have htake : (bytes.take 6).length = 6 := List.length_take_of_le hlength
        have hfound := colorLiteral?_append repair htake (bytes.drop 6)
        rw [List.take_append_drop] at hfound
        simp [hfound, characters, hlength]
      · rw [colorLiteral?_of_length_lt repair (Nat.not_le.1 hlength)]
        simp [characters, hlength]
    · have hnone : colorLiteral? repair (b :: bytes) = .ok none := by simp [colorLiteral?, hhash]
      rw [hnone, Lexeme.colorLiteral?]
      exact characters_ne_cons hhash

theorem reads_number? : Reads number? Lexeme.number? := by
  intro bytes
  obtain ⟨digits, rest, rfl, hdigits, hcount, hdigitChars, _⟩ := exists_run isDigit_eq bytes
  have hslice := slice_middle [] digits rest
  rw [List.nil_append, List.length_nil, Nat.zero_add] at hslice
  simp only [number?, Lexeme.number?, hcount, hdigitChars, isEmpty_characters, hslice, bind,
    Except.bind]
  by_cases hnoDigits : digits.length = 0
  · simp [hnoDigits, pure, Except.pure]
  · have hvalue := value?_digits (mt List.length_eq_zero_iff.2 hnoDigits) hdigits
    simp [hnoDigits, pure, Except.pure, hvalue, characters]

theorem reads_blank? : Reads blank? Lexeme.blank? := by
  intro bytes
  obtain ⟨run, rest, rfl, _, hcount, hrun, _⟩ := exists_run isBlank_eq bytes
  have hrun : (characters (run ++ rest)).takeWhile (fun c => c = ' ' || c = '\t') =
      characters run := hrun
  simp only [blank?, Lexeme.blank?, hcount, hrun, isEmpty_characters]
  by_cases hnone : run.length = 0
  · simp [hnone]
  · simp [hnone, Nat.pos_of_ne_zero hnone, characters]

theorem forall₂_reads {separated standalone loops : Finder UInt8} (repair : List UInt8 → String)
    (hseparated : Reads separated Lexeme.separatedWord?)
    (hstandalone : Reads standalone Lexeme.standaloneWord?) (hloops : Reads loops Lexeme.loop?) :
    List.Forall₂ Reads
      [separated, standalone, loops, punctuation?, number?, colorLiteral? repair, newline?, blank?]
      Lexeme.readers :=
  .cons hseparated <| .cons hstandalone <| .cons hloops <| .cons reads_punctuation? <|
    .cons reads_number? <| .cons (reads_colorLiteral? repair) <| .cons reads_newline? <|
      .cons reads_blank? .nil

theorem reads_readers (repair : List UInt8 → String) :
    List.Forall₂ Reads (readers repair) Lexeme.readers :=
  forall₂_reads repair reads_separatedWord? reads_standaloneWord? reads_loop?

/-- Any bytes, UTF-8 or not, are read as the characters that have them for numbers. -/
theorem reads_match? (repair : List UInt8 → String) : Reads (match? repair) Lexeme.match? :=
  Reads.first (reads_readers repair)

end Octets

end TurtleGraphics
