import TurtleGraphics.Lexeme

/-! The keywords. No text lets one be taken for another. -/
namespace TurtleGraphics.Lexeme

section Unique

variable {α β : Type} {f : α → Option β} {items : List α} {a : α} {b : β}

/-- Where at most one item gives something, the order of the items does not matter. -/
theorem findSome?_eq_some_of_unique (hunique : ∀ x ∈ items, ∀ c, f x = some c → x = a)
    (ha : a ∈ items) (h : f a = some b) : items.findSome? f = some b := by
  cases hfirst : items.findSome? f with
  | none => cases (List.findSome?_eq_none_iff.1 hfirst a ha).symm.trans h
  | some c =>
    obtain ⟨x, hx, hc⟩ := List.exists_of_findSome?_eq_some hfirst
    obtain rfl := hunique x hx c hc
    exact hc.symm.trans h

end Unique

variable {c : Char} {word typed text rest : List Char} {m : Match} {n : Nat}
  {keyword other : Keyword}

theorem afterWord?_eq_some (h : afterWord? word text = some rest) :
    ∃ typed, text = typed ++ rest ∧ typed.map Char.toLower = word := by
  induction word generalizing text with
  | nil =>
    cases h
    exact ⟨[], rfl, rfl⟩
  | cons w word ih =>
    cases text with
    | nil => cases h
    | cons c text =>
      simp only [afterWord?] at h
      split at h
      · rename_i hc
        obtain ⟨typed, rfl, rfl⟩ := ih h
        exact ⟨c :: typed, rfl, by rw [List.map_cons, hc]⟩
      · cases h

theorem afterWord?_append (h : typed.map Char.toLower = word) :
    afterWord? word (typed ++ rest) = some rest := by
  subst word
  induction typed with
  | nil => rfl
  | cons c typed ih => rw [List.map_cons, List.cons_append, afterWord?, if_pos rfl, ih]

theorem isAlpha_toLower_of_isSeparator (hc : isSeparator c = true) : c.toLower.isAlpha = false := by
  simp only [isSeparator, Bool.or_eq_true, decide_eq_true_eq] at hc
  rcases hc with (rfl | rfl) | rfl <;> rfl

def isWord (word : List Char) : Bool :=
  word.all Char.isAlpha

theorem isWord_of_mem_separatedWords : ∀ keyword ∈ separatedWords, isWord keyword.word = true :=
  List.all_eq_true.1 rfl

theorem isWord_of_mem_standaloneWords : ∀ keyword ∈ standaloneWords, isWord keyword.word = true :=
  List.all_eq_true.1 rfl

theorem isWord_of_mem_loopWords : ∀ word ∈ loopWords, isWord word = true :=
  List.all_eq_true.1 rfl

/-- What stands before the first separator, in lower case. -/
def firstWord (text : List Char) : List Char :=
  (text.takeWhile (!isSeparator ·)).map Char.toLower

theorem firstWord_append (hword : isWord (typed.map Char.toLower) = true) :
    firstWord (typed ++ rest) = typed.map Char.toLower ++ firstWord rest := by
  rw [firstWord, List.takeWhile_append_of_pos, List.map_append]
  · rfl
  · intro c hc
    cases hsep : isSeparator c with
    | false => rfl
    | true =>
      have halpha := List.all_eq_true.1 hword c.toLower (List.mem_map_of_mem hc)
      cases halpha.symm.trans (isAlpha_toLower_of_isSeparator hsep)

theorem prefix_firstWord (hword : isWord word = true) (h : afterWord? word text = some rest) :
    word <+: firstWord text := by
  obtain ⟨typed, rfl, rfl⟩ := afterWord?_eq_some h
  rw [firstWord_append hword]
  exact List.prefix_append _ _

theorem firstWord_eq (hword : isWord word = true) (h : afterWord? word text = some (c :: rest))
    (hc : isSeparator c = true) : firstWord text = word := by
  obtain ⟨typed, rfl, rfl⟩ := afterWord?_eq_some h
  have hrest : firstWord (c :: rest) = [] := by simp [firstWord, hc]
  rw [firstWord_append hword, hrest, List.append_nil]

theorem firstWord_of_separated? (hmem : keyword ∈ separatedWords)
    (h : keyword.separated? text = some m) : firstWord text = keyword.word := by
  unfold Keyword.separated? at h
  split at h
  · rename_i c rest hafter
    split at h
    · rename_i hc
      exact firstWord_eq (isWord_of_mem_separatedWords keyword hmem) hafter hc
    · cases h
  · cases h

theorem prefix_firstWord_of_standalone? (hmem : keyword ∈ standaloneWords)
    (h : keyword.standalone? text = some m) : keyword.word <+: firstWord text := by
  obtain ⟨rest, hafter, _⟩ := Option.map_eq_some_iff.1 h
  exact prefix_firstWord (isWord_of_mem_standaloneWords keyword hmem) hafter

/-- A count needs a separator before it. -/
theorem exists_separator_of_countAfter? (h : countAfter? n text = some m) :
    ∃ c rest, text = c :: rest ∧ isSeparator c = true := by
  cases text with
  | nil => cases h
  | cons c rest =>
    cases hc : isSeparator c with
    | true => exact ⟨c, rest, rfl, hc⟩
    | false => simp [countAfter?, hc] at h

theorem firstWord_of_countAfter? (hmem : word ∈ loopWords)
    (h : (afterWord? word text).bind (countAfter? n) = some m) : firstWord text = word := by
  obtain ⟨rest, hafter, hcount⟩ := Option.bind_eq_some_iff.1 h
  obtain ⟨c, rest, rfl, hc⟩ := exists_separator_of_countAfter? hcount
  exact firstWord_eq (isWord_of_mem_loopWords word hmem) hafter hc

theorem eq_of_word_eq : ∀ keyword ∈ separatedWords, ∀ other ∈ separatedWords,
    keyword.word = other.word → keyword = other := by
  decide

theorem eq_of_prefix_word : ∀ keyword ∈ standaloneWords, ∀ other ∈ standaloneWords,
    keyword.word <+: other.word → keyword = other := by
  decide

theorem word_ne_of_mem_loopWords : ∀ keyword ∈ separatedWords, ∀ word ∈ loopWords,
    keyword.word ≠ word := by
  decide

theorem not_prefix_of_mem_separatedWords : ∀ keyword ∈ standaloneWords, ∀ other ∈ separatedWords,
    ¬ keyword.word <+: other.word := by
  decide

theorem not_prefix_of_mem_loopWords : ∀ keyword ∈ standaloneWords, ∀ word ∈ loopWords,
    ¬ keyword.word <+: word := by
  decide

theorem separatedWord?_of_separated? (hmem : keyword ∈ separatedWords)
    (h : keyword.separated? text = some m) : separatedWord? text = some m := by
  refine findSome?_eq_some_of_unique ?_ hmem h
  intro other hother _ hm
  apply eq_of_word_eq other hother keyword hmem
  rw [← firstWord_of_separated? hother hm, firstWord_of_separated? hmem h]

theorem standaloneWord?_of_standalone? (hmem : keyword ∈ standaloneWords)
    (h : keyword.standalone? text = some m) : standaloneWord? text = some m := by
  refine findSome?_eq_some_of_unique ?_ hmem h
  intro other hother _ hm
  rcases List.prefix_or_prefix_of_prefix (prefix_firstWord_of_standalone? hother hm)
    (prefix_firstWord_of_standalone? hmem h) with hprefix | hprefix
  · exact eq_of_prefix_word other hother keyword hmem hprefix
  · exact (eq_of_prefix_word keyword hmem other hother hprefix).symm

theorem loop?_of_countAfter? (hmem : word ∈ loopWords)
    (h : (afterWord? word text).bind (countAfter? word.length) = some m) : loop? text = some m := by
  refine findSome?_eq_some_of_unique ?_ hmem h
  intro other hother _ hm
  rw [← firstWord_of_countAfter? hother hm, firstWord_of_countAfter? hmem h]

theorem separatedWord?_eq_none_of_standaloneWord? (h : standaloneWord? text = some m) :
    separatedWord? text = none := by
  obtain ⟨keyword, hmem, hk⟩ := List.exists_of_findSome?_eq_some h
  have hprefix := prefix_firstWord_of_standalone? hmem hk
  refine Option.eq_none_iff_forall_ne_some.2 ?_
  intro m hm
  obtain ⟨other, hother, hs⟩ := List.exists_of_findSome?_eq_some hm
  rw [firstWord_of_separated? hother hs] at hprefix
  exact not_prefix_of_mem_separatedWords keyword hmem other hother hprefix

theorem separatedWord?_eq_none_of_loop? (h : loop? text = some m) : separatedWord? text = none := by
  obtain ⟨word, hmem, hw⟩ := List.exists_of_findSome?_eq_some h
  refine Option.eq_none_iff_forall_ne_some.2 ?_
  intro m hm
  obtain ⟨keyword, hk, hs⟩ := List.exists_of_findSome?_eq_some hm
  apply word_ne_of_mem_loopWords keyword hk word hmem
  rw [← firstWord_of_separated? hk hs, firstWord_of_countAfter? hmem hw]

theorem standaloneWord?_eq_none_of_loop? (h : loop? text = some m) :
    standaloneWord? text = none := by
  obtain ⟨word, hmem, hw⟩ := List.exists_of_findSome?_eq_some h
  refine Option.eq_none_iff_forall_ne_some.2 ?_
  intro m hm
  obtain ⟨keyword, hk, hs⟩ := List.exists_of_findSome?_eq_some hm
  have hprefix := prefix_firstWord_of_standalone? hk hs
  rw [firstWord_of_countAfter? hmem hw] at hprefix
  exact not_prefix_of_mem_loopWords keyword hk word hmem hprefix

end TurtleGraphics.Lexeme
