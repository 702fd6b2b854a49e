import TurtleGraphics.Lexeme

/-! Every lexeme takes at least one character, so a text can be cut into finitely many. -/
namespace TurtleGraphics.Lexeme

variable {text : List Char} {m : Match} {n : Nat}

theorem length_pos_of_not_isEmpty (h : ¬ text.isEmpty = true) : 0 < text.length := by
  cases text with
  | nil => simp at h
  | cons c text => simp

theorem separatedWord?_pos (h : separatedWord? text = some m) : 0 < m.length := by
  obtain ⟨keyword, _, h⟩ := List.exists_of_findSome?_eq_some h
  unfold Keyword.separated? at h
  split at h
  · split at h
    · cases h
      exact Nat.succ_pos _
    · cases h
  · cases h

theorem standaloneWord?_pos (h : standaloneWord? text = some m) : 0 < m.length := by
  obtain ⟨keyword, hk, h⟩ := List.exists_of_findSome?_eq_some h
  obtain ⟨_, _, rfl⟩ := Option.map_eq_some_iff.1 h
  simp only [standaloneWords, List.mem_cons, List.not_mem_nil, or_false] at hk
  rcases hk with rfl | rfl <;> decide

theorem countAfter?_pos (h : countAfter? n text = some m) : 0 < m.length := by
  simp only [countAfter?] at h
  split at h
  · cases h
  · rename_i hne
    cases h
    have := length_pos_of_not_isEmpty fun he => hne (by rw [he]; rfl)
    simp only
    omega

theorem loop?_pos (h : loop? text = some m) : 0 < m.length := by
  obtain ⟨word, _, h⟩ := List.exists_of_findSome?_eq_some h
  obtain ⟨_, _, h⟩ := Option.bind_eq_some_iff.1 h
  exact countAfter?_pos h

theorem punctuation?_pos (h : punctuation? text = some m) : 0 < m.length := by
  unfold punctuation? at h
  split at h <;> cases h <;> exact Nat.one_pos

theorem number?_pos (h : number? text = some m) : 0 < m.length := by
  simp only [number?] at h
  split at h
  · cases h
  · rename_i hne
    cases h
    exact length_pos_of_not_isEmpty hne

theorem colorLiteral?_pos (h : colorLiteral? text = some m) : 0 < m.length := by
  unfold colorLiteral? at h
  split at h
  · simp only at h
    split at h <;> cases h
    exact Nat.succ_pos _
  · cases h

theorem newline?_pos (h : newline? text = some m) : 0 < m.length := by
  unfold newline? at h
  split at h <;> cases h
  exact Nat.one_pos

theorem blank?_pos (h : blank? text = some m) : 0 < m.length := by
  simp only [blank?] at h
  split at h
  · cases h
  · rename_i hne
    cases h
    exact length_pos_of_not_isEmpty hne

theorem match?_pos (h : match? text = some m) : 0 < m.length := by
  obtain ⟨reader, hr, h⟩ := List.exists_of_findSome?_eq_some h
  simp only [readers, List.mem_cons, List.not_mem_nil, or_false] at hr
  rcases hr with rfl | rfl | rfl | rfl | rfl | rfl | rfl | rfl
  · exact separatedWord?_pos h
  · exact standaloneWord?_pos h
  · exact loop?_pos h
  · exact punctuation?_pos h
  · exact number?_pos h
  · exact colorLiteral?_pos h
  · exact newline?_pos h
  · exact blank?_pos h

end TurtleGraphics.Lexeme
