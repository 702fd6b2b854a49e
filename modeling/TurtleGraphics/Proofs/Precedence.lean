import Mathlib.Data.List.MinMax
import TurtleGraphics.Proofs.Encoding

/-! The order of the readers. No text suits two of them, so any order gives the same, and so does
taking the longest match. -/
namespace TurtleGraphics

namespace Lexeme

variable {text rest word : List Char}
  {reader other : List Char → Option Match} {tried : List (List Char → Option Match)}

/-- There is no text for both readers. -/
def Apart (reader other : List Char → Option Match) : Prop :=
  ∀ text, reader text = none ∨ other text = none

theorem apart_of_eq_none (h : ∀ text m, other text = some m → reader text = none) :
    Apart reader other := by
  intro text
  cases hfound : other text with
  | none => exact .inr rfl
  | some m => exact .inl (h text m hfound)

theorem apart_of_not_both
    (h : ∀ text m n, reader text = some m → other text = some n → False) :
    Apart reader other := by
  refine apart_of_eq_none ?_
  intro text n hn
  refine Option.eq_none_iff_forall_ne_some.2 ?_
  intro m hm
  exact h text m n hm hn

theorem length_filterMap_le_one (h : tried.Pairwise Apart) (text : List Char) :
    (tried.filterMap (· text)).length ≤ 1 := by
  induction tried with
  | nil => exact Nat.zero_le 1
  | cons reader tried ih =>
    obtain ⟨hreader, hothers⟩ := List.pairwise_cons.1 h
    rw [List.filterMap_cons]
    cases hfound : reader text with
    | none => exact ih hothers
    | some m =>
      have hnone : tried.filterMap (· text) = [] := by
        refine List.filterMap_eq_nil_iff.2 ?_
        intro other hother
        rcases hreader other hother text with hmissed | hmissed
        · cases hfound.symm.trans hmissed
        · exact hmissed
      simp [hnone]

/-- The sorts of characters that lexemes start with. -/
inductive Start
  | letter
  | sign
  | digit
  | hash
  | lineFeed
  | blank
deriving DecidableEq

def start? (c : Char) : Option Start :=
  if c.isAlpha then some .letter
  else if c = '.' || c = '"' then some .sign
  else if c.isDigit then some .digit
  else if c = '#' then some .hash
  else if c = '\n' then some .lineFeed
  else if isBlank c then some .blank
  else none

/-- Whatever the reader finds starts with a character of the sort. -/
def StartsWith (start : Start) (reader : List Char → Option Match) : Prop :=
  ∀ text m, reader text = some m → text.head?.bind start? = some start

theorem apart_of_startsWith {start otherStart : Start} (h : StartsWith start reader)
    (hother : StartsWith otherStart other) (hne : start ≠ otherStart) : Apart reader other := by
  refine apart_of_not_both ?_
  intro text m n hm hn
  exact hne (Option.some_inj.1 ((h text m hm).symm.trans (hother text n hn)))

theorem head?_of_afterWord? (hword : word.head?.any Char.isAlpha = true)
    (h : afterWord? word text = some rest) : text.head?.bind start? = some .letter := by
  obtain ⟨typed, rfl, rfl⟩ := afterWord?_eq_some h
  cases typed with
  | nil => cases hword
  | cons c typed =>
    have hc : c.isAlpha = true := (Char.isAlpha_toLower_eq_isAlpha c).symm.trans hword
    simp [start?, hc]

theorem startsWith_separatedWord? : StartsWith .letter separatedWord? := by
  intro text m h
  obtain ⟨keyword, hmem, h⟩ := List.exists_of_findSome?_eq_some h
  have hword : ∀ keyword ∈ separatedWords, keyword.word.head?.any Char.isAlpha = true :=
    List.all_eq_true.1 rfl
  unfold Keyword.separated? at h
  split at h
  · rename_i hafter
    exact head?_of_afterWord? (hword keyword hmem) hafter
  · cases h

theorem startsWith_standaloneWord? : StartsWith .letter standaloneWord? := by
  intro text m h
  obtain ⟨keyword, hmem, h⟩ := List.exists_of_findSome?_eq_some h
  have hword : ∀ keyword ∈ standaloneWords, keyword.word.head?.any Char.isAlpha = true :=
    List.all_eq_true.1 rfl
  obtain ⟨rest, hafter, _⟩ := Option.map_eq_some_iff.1 h
  exact head?_of_afterWord? (hword keyword hmem) hafter

theorem startsWith_loop? : StartsWith .letter loop? := by
  intro text m h
  obtain ⟨word, hmem, h⟩ := List.exists_of_findSome?_eq_some h
  have hword : ∀ word ∈ loopWords, word.head?.any Char.isAlpha = true := List.all_eq_true.1 rfl
  obtain ⟨rest, hafter, _⟩ := Option.bind_eq_some_iff.1 h
  exact head?_of_afterWord? (hword word hmem) hafter

theorem startsWith_punctuation? : StartsWith .sign punctuation? := by
  intro text m h
  unfold punctuation? at h
  split at h
  · rfl
  · rfl
  · cases h

theorem exists_cons_of_takeWhile {p : Char → Bool} (h : ¬ (text.takeWhile p).isEmpty = true) :
    ∃ c rest, text = c :: rest ∧ p c = true := by
  cases text with
  | nil => exact (h rfl).elim
  | cons c rest =>
    cases hc : p c with
    | true => exact ⟨c, rest, rfl, hc⟩
    | false => simp [hc] at h

theorem startsWith_number? : StartsWith .digit number? := by
  intro text m h
  simp only [number?] at h
  split at h
  · cases h
  · rename_i hne
    obtain ⟨c, rest, rfl, hc⟩ := exists_cons_of_takeWhile hne
    have hperiod : c ≠ '.' := ne_of_isDigit hc rfl
    have hquote : c ≠ '"' := ne_of_isDigit hc rfl
    simp [start?, isAlpha_of_isDigit hc, hperiod, hquote, hc]

theorem startsWith_colorLiteral? : StartsWith .hash colorLiteral? := by
  intro text m h
  unfold colorLiteral? at h
  split at h
  · rfl
  · cases h

theorem startsWith_newline? : StartsWith .lineFeed newline? := by
  intro text m h
  unfold newline? at h
  split at h
  · rfl
  · cases h

theorem startsWith_blank? : StartsWith .blank blank? := by
  intro text m h
  simp only [blank?] at h
  split at h
  · cases h
  · rename_i hne
    obtain ⟨c, rest, rfl, hc⟩ := exists_cons_of_takeWhile hne
    simp only [Bool.or_eq_true, decide_eq_true_eq] at hc
    rcases hc with rfl | rfl <;> rfl

/-- The readers of one word after another, told apart by the words they read. -/
theorem pairwise_apart_words : [separatedWord?, standaloneWord?, loop?].Pairwise Apart := by
  have hstandalone : Apart separatedWord? standaloneWord? :=
    apart_of_eq_none fun _ _ => separatedWord?_eq_none_of_standaloneWord?
  have hloop : Apart separatedWord? loop? :=
    apart_of_eq_none fun _ _ => separatedWord?_eq_none_of_loop?
  have hstandaloneLoop : Apart standaloneWord? loop? :=
    apart_of_eq_none fun _ _ => standaloneWord?_eq_none_of_loop?
  simp [hstandalone, hloop, hstandaloneLoop]

/-- The other readers with the sorts of characters they start with. -/
def otherReaders : List (Start × (List Char → Option Match)) :=
  [(.sign, punctuation?), (.digit, number?), (.hash, colorLiteral?), (.lineFeed, newline?),
    (.blank, blank?)]

theorem startsWith_of_mem_otherReaders : ∀ other ∈ otherReaders, StartsWith other.1 other.2 := by
  simp only [otherReaders, List.forall_mem_cons]
  exact ⟨startsWith_punctuation?, startsWith_number?, startsWith_colorLiteral?,
    startsWith_newline?, startsWith_blank?, nofun⟩

theorem pairwise_apart_readers : readers.Pairwise Apart := by
  have hstarts : otherReaders.Pairwise fun reader other => reader.1 ≠ other.1 := by decide
  have hletters :
      ∀ reader ∈ [separatedWord?, standaloneWord?, loop?], StartsWith .letter reader := by
    simp only [List.forall_mem_cons]
    exact ⟨startsWith_separatedWord?, startsWith_standaloneWord?, startsWith_loop?, nofun⟩
  have hother : ∀ other ∈ otherReaders, .letter ≠ other.1 := by decide
  have hreaders : readers =
      [separatedWord?, standaloneWord?, loop?] ++ otherReaders.map Prod.snd := rfl
  rw [hreaders, List.pairwise_append, List.pairwise_map]
  refine ⟨pairwise_apart_words, hstarts.imp_of_mem ?_, ?_⟩
  · intro reader other hreader hmem hne
    exact apart_of_startsWith (startsWith_of_mem_otherReaders reader hreader)
      (startsWith_of_mem_otherReaders other hmem) hne
  · simp only [List.forall_mem_map]
    intro reader hreader other hmem
    exact apart_of_startsWith (hletters reader hreader) (startsWith_of_mem_otherReaders other hmem)
      (hother other hmem)

theorem pairwise_apart_separatedWords :
    (separatedWords.map fun keyword text => keyword.separated? text).Pairwise Apart := by
  have hnodup : separatedWords.Nodup := by decide
  rw [List.pairwise_map]
  refine hnodup.imp_of_mem ?_
  intro keyword other hmem hother hne
  refine apart_of_not_both ?_
  intro text m n hm hn
  apply hne
  apply eq_of_word_eq keyword hmem other hother
  rw [← firstWord_of_separated? hmem hm, firstWord_of_separated? hother hn]

theorem pairwise_apart_standaloneWords :
    (standaloneWords.map fun keyword text => keyword.standalone? text).Pairwise Apart := by
  have hnodup : standaloneWords.Nodup := by decide
  rw [List.pairwise_map]
  refine hnodup.imp_of_mem ?_
  intro keyword other hmem hother hne
  refine apart_of_not_both ?_
  intro text m n hm hn
  apply hne
  rcases List.prefix_or_prefix_of_prefix (prefix_firstWord_of_standalone? hmem hm)
    (prefix_firstWord_of_standalone? hother hn) with hprefix | hprefix
  · exact eq_of_prefix_word keyword hmem other hother hprefix
  · exact (eq_of_prefix_word other hother keyword hmem hprefix).symm

theorem pairwise_apart_loopWords : (loopWords.map counted?).Pairwise Apart := by
  have hnodup : loopWords.Nodup := by decide
  rw [List.pairwise_map]
  refine hnodup.imp_of_mem ?_
  intro word other hmem hother hne
  refine apart_of_not_both ?_
  intro text m n hm hn
  apply hne
  rw [← firstWord_of_countAfter? hmem hm, firstWord_of_countAfter? hother hn]

end Lexeme

namespace Scan

variable {α : Type}

/-- All that the finders find, each tried on its own. -/
def all : List (Finder α) → List α → Except Fault (List Lexeme.Match)
  | [], _ => .ok []
  | finder :: finders, input => do
    let found ← finder input
    return found.toList ++ (← all finders input)

/-- No more than one of the finders finds something. -/
def AtMostOne (finders : List (Finder α)) (input : List α) : Prop :=
  ∃ found, all finders input = .ok found ∧ found.length ≤ 1

/-- The longest of what the finders find. -/
def longest (finders : List (Finder α)) : Finder α := fun input => do
  return (← all finders input).argmax Lexeme.Match.length

/-- A way to go by the finders: the first that finds something, in whatever order, or the one with
the longest match. -/
inductive Picks (finders : List (Finder α)) : Finder α → Prop
  | first {order : List (Finder α)} : order.Perm finders → Picks finders (first order)
  | longest {order : List (Finder α)} : order.Perm finders → Picks finders (longest order)

end Scan

namespace Octets

open Lexeme (Match Apart)
open Scan (Finder Picks)

variable {finders order : List (Finder UInt8)} {chosen : Finder UInt8}
  {tried : List (List Char → Option Match)}

theorem all_eq (h : List.Forall₂ Reads finders tried) (bytes : List UInt8) :
    Scan.all finders bytes = .ok (tried.filterMap (· (characters bytes))) := by
  induction h with
  | nil => rfl
  | @cons finder reader finders tried hfinder hfinders ih =>
    simp only [Scan.all, hfinder bytes, ih, bind, Except.bind, List.filterMap_cons]
    cases reader (characters bytes) with
    | none => rfl
    | some m => rfl

/-- The finders in another order find the same, since they find one thing at most. -/
theorem exists_sorted (h : List.Forall₂ Reads finders tried) (hapart : tried.Pairwise Apart)
    (horder : order.Perm finders) (bytes : List UInt8) :
    ∃ sorted, List.Forall₂ Reads order sorted ∧
      sorted.filterMap (· (characters bytes)) = tried.filterMap (· (characters bytes)) := by
  obtain ⟨sorted, hsorted, hperm⟩ := List.perm_comp_forall₂ horder h
  have hfound := hperm.filterMap (· (characters bytes))
  have hle := Lexeme.length_filterMap_le_one hapart (characters bytes)
  refine ⟨sorted, hsorted, ?_⟩
  rcases Nat.le_one_iff_eq_zero_or_eq_one.1 hle with hnone | hone
  · rw [List.length_eq_zero_iff] at hnone
    rw [hnone] at hfound ⊢
    exact hfound.eq_nil
  · obtain ⟨m, hm⟩ := List.length_eq_one_iff.1 hone
    rw [hm] at hfound ⊢
    exact List.perm_singleton.1 hfound

theorem argmax_of_length_le_one {found : List Match} (h : found.length ≤ 1) :
    found.argmax Match.length = found.head? := by
  cases found with
  | nil => rfl
  | cons m rest =>
    obtain rfl : rest = [] := List.length_eq_zero_iff.1 (Nat.le_zero.1 (Nat.le_of_succ_le_succ h))
    rfl

/-- However the finders are gone by, what is found is what the readers read. -/
theorem reads_of_picks (h : List.Forall₂ Reads finders tried) (hapart : tried.Pairwise Apart)
    (hchosen : Picks finders chosen) : Reads chosen fun text => tried.findSome? (· text) := by
  intro bytes
  have hle := Lexeme.length_filterMap_le_one hapart (characters bytes)
  cases hchosen with
  | first horder =>
    obtain ⟨sorted, hsorted, hsame⟩ := exists_sorted h hapart horder bytes
    rw [Reads.first hsorted bytes]
    simp only [← List.head?_filterMap, hsame]
  | longest horder =>
    obtain ⟨sorted, hsorted, hsame⟩ := exists_sorted h hapart horder bytes
    simp only [Scan.longest, all_eq hsorted bytes, hsame, bind, Except.bind, pure, Except.pure,
      argmax_of_length_le_one hle, List.head?_filterMap]

theorem atMostOne (h : List.Forall₂ Reads finders tried) (hapart : tried.Pairwise Apart)
    (bytes : List UInt8) : Scan.AtMostOne finders bytes :=
  ⟨_, all_eq h bytes, Lexeme.length_filterMap_le_one hapart (characters bytes)⟩

/-- In any bytes at most one of the readers finds something, and at most one of the words of a
reader does, a loop's keyword being tried together with the count that has to follow it. So words
and readers can be tried in any order, or the longest match be taken: the same is found, and
programs give the same tokens. -/
theorem match?_any_order (repair : List UInt8 → String) :
    (∀ bytes, Scan.AtMostOne (readers repair) bytes ∧
      Scan.AtMostOne (Lexeme.separatedWords.map separated?) bytes ∧
      Scan.AtMostOne (Lexeme.standaloneWords.map standalone?) bytes ∧
      Scan.AtMostOne (Lexeme.loopWords.map counted?) bytes) ∧
    ∀ separated standalone loops chosen : Finder UInt8,
      Picks (Lexeme.separatedWords.map separated?) separated →
      Picks (Lexeme.standaloneWords.map standalone?) standalone →
      Picks (Lexeme.loopWords.map counted?) loops →
      Picks [separated, standalone, loops, punctuation?, number?, colorLiteral? repair, newline?,
        blank?] chosen →
      (∀ bytes, separated bytes = separatedWord? bytes ∧ standalone bytes = standaloneWord? bytes ∧
        loops bytes = loop? bytes ∧ chosen bytes = match? repair bytes ∧
        match? repair bytes = .ok (Lexeme.match? (characters bytes))) ∧
      ∀ program : String,
        Scan.tokens chosen (· == 10) (utf8 (Comment.remove program.toList)) =
          .ok (Token.ofText program) := by
  refine ⟨?_, ?_⟩
  · intro bytes
    exact ⟨atMostOne (reads_readers repair) Lexeme.pairwise_apart_readers bytes,
      atMostOne reads_separatedWords Lexeme.pairwise_apart_separatedWords bytes,
      atMostOne reads_standaloneWords Lexeme.pairwise_apart_standaloneWords bytes,
      atMostOne reads_loopWords Lexeme.pairwise_apart_loopWords bytes⟩
  · intro separated standalone loops chosen hseparated hstandalone hloops hchosen
    have hreadsSeparated : Reads separated Lexeme.separatedWord? :=
      (reads_of_picks reads_separatedWords Lexeme.pairwise_apart_separatedWords hseparated).of_map
    have hreadsStandalone : Reads standalone Lexeme.standaloneWord? :=
      (reads_of_picks reads_standaloneWords Lexeme.pairwise_apart_standaloneWords
        hstandalone).of_map
    have hreadsLoops : Reads loops Lexeme.loop? :=
      (reads_of_picks reads_loopWords Lexeme.pairwise_apart_loopWords hloops).of_map
    have hreads : Reads chosen Lexeme.match? :=
      reads_of_picks (forall₂_reads repair hreadsSeparated hreadsStandalone hreadsLoops)
        Lexeme.pairwise_apart_readers hchosen
    refine ⟨?_, ?_⟩
    · intro bytes
      exact ⟨(hreadsSeparated bytes).trans (reads_separatedWord? bytes).symm,
        (hreadsStandalone bytes).trans (reads_standaloneWord? bytes).symm,
        (hreadsLoops bytes).trans (reads_loop? bytes).symm,
        (hreads bytes).trans (reads_match? repair bytes).symm, reads_match? repair bytes⟩
    · intro program
      have hsame : chosen = match? repair := by
        funext bytes
        rw [hreads, reads_match?]
      rw [hsame, utf8_eq, (encodes_utf8 repair).tokens_eq]
      rfl

theorem match?_any_order_reversed :
    Scan.first [blank?, newline?, colorLiteral? fun _ => "\uFFFD", number?, punctuation?,
        Scan.first (Lexeme.loopWords.map counted?).reverse,
        Scan.longest (Lexeme.standaloneWords.map standalone?),
        Scan.longest (Lexeme.separatedWords.map separated?)] (utf8 "Repeat 2 \"UP.\"".toList) =
        .ok (some ⟨.loop (some 2), 9⟩) ∧
      Scan.tokens (Scan.longest [separatedWord?, standaloneWord?, loop?, punctuation?, number?,
        colorLiteral? fun _ => "\uFFFD", newline?, blank?]) (· == 10)
        (utf8 (Comment.remove "Rep 2 \"UP.\" % all".toList)) =
        .ok (Token.ofText "Rep 2 \"UP.\" % all") := by
  have hloops : loop? = Scan.first (Lexeme.loopWords.map counted?) := funext loop?_eq
  obtain ⟨_, hany⟩ := match?_any_order fun _ => "\uFFFD"
  refine ⟨?_, ?_⟩
  · obtain ⟨hsame, _⟩ := hany _ _ _ _ (.longest (.refl _)) (.longest (.refl _))
      (.first (List.reverse_perm _)) (.first (List.reverse_perm _))
    obtain ⟨_, _, _, hchosen, hread⟩ := hsame (utf8 "Repeat 2 \"UP.\"".toList)
    refine hchosen.trans (hread.trans ?_)
    rw [utf8_eq]
    rfl
  · rw [hloops]
    obtain ⟨_, htokens⟩ := hany _ _ _ _ (.first (.refl _)) (.first (.refl _)) (.first (.refl _))
      (.longest (.refl _))
    exact htokens "Rep 2 \"UP.\" % all"

end Octets

end TurtleGraphics
