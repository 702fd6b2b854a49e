import TurtleGraphics.Comment

/-! Texts joined by a line feed lose their comments each for itself. -/
namespace TurtleGraphics.Comment

variable {c : Char} {inside : Bool} {text before after kept earlier : List Char}

theorem unifyBreaks_append_kept (kept earlier text : List Char) :
    unifyBreaks (kept ++ earlier) text = earlier.reverse ++ unifyBreaks kept text := by
  fun_induction unifyBreaks kept text with
  | case1 kept => rw [unifyBreaks, List.reverse_append]
  | case2 kept text ih => rw [unifyBreaks, ← ih, List.cons_append]
  | case3 kept c text hbreak ih =>
    rw [unifyBreaks, ← ih, List.cons_append]
    exact hbreak

theorem unifyBreaks_eq (kept text : List Char) :
    unifyBreaks kept text = kept.reverse ++ unifyBreaks [] text :=
  unifyBreaks_append_kept [] kept text

theorem unifyBreaks_cons (h : c = '\r' → text.head? ≠ some '\n') :
    unifyBreaks [] (c :: text) = c :: unifyBreaks [] text := by
  rw [unifyBreaks, unifyBreaks_eq [c]]
  · rfl
  · rintro rest rfl rfl
    exact h rfl rfl

/-- A text may be cut anywhere but inside a line break. -/
theorem unifyBreaks_append (kept : List Char)
    (h : before.getLast? = some '\r' → after.head? ≠ some '\n') :
    unifyBreaks kept (before ++ after) = unifyBreaks kept before ++ unifyBreaks [] after := by
  fun_induction unifyBreaks kept before with
  | case1 kept => exact unifyBreaks_eq kept after
  | case2 kept before ih =>
    rw [List.cons_append, List.cons_append, unifyBreaks, ih]
    intro hlast
    exact h (by simp [List.getLast?_cons, hlast])
  | case3 kept c before hbreak ih =>
    rw [List.cons_append, unifyBreaks, ih]
    · intro hlast
      exact h (by simp [List.getLast?_cons, hlast])
    · rintro rest rfl hrest
      cases before with
      | nil => exact h rfl (by rw [← List.nil_append after, hrest, List.head?_cons])
      | cons d before =>
        cases hrest
        exact hbreak before rfl rfl

theorem cutComments_append_kept (inside : Bool) (kept earlier text : List Char) :
    cutComments inside (kept ++ earlier) text =
      earlier.reverse ++ cutComments inside kept text := by
  induction text generalizing inside kept with
  | nil => rw [cutComments, cutComments, List.reverse_append]
  | cons c text ih =>
    simp only [cutComments, ← List.cons_append, ih]
    split
    · rfl
    · split <;> rfl

theorem cutComments_newline (inside : Bool) (text : List Char) :
    cutComments inside [] ('\n' :: text) = '\n' :: cutComments false [] text := by
  rw [cutComments, if_pos rfl]
  exact cutComments_append_kept false [] ['\n'] text

/-- What a text leaves behind is whether a comment is open at its end. -/
theorem exists_cutComments_append (inside : Bool) (kept before : List Char) :
    ∃ isOpen, ∀ after, cutComments inside kept (before ++ after) =
      cutComments inside kept before ++ cutComments isOpen [] after := by
  induction before generalizing inside kept with
  | nil => exact ⟨inside, fun after => cutComments_append_kept inside [] kept after⟩
  | cons c before ih =>
    by_cases hnewline : c = '\n'
    · simpa only [List.cons_append, cutComments, if_pos hnewline] using ih false (c :: kept)
    · by_cases hcomment : (inside || c = '%') = true
      · simpa only [List.cons_append, cutComments, if_neg hnewline, if_pos hcomment] using
          ih true kept
      · simpa only [List.cons_append, cutComments, if_neg hnewline, if_neg hcomment] using
          ih false (c :: kept)

theorem cutComments_append_newline (inside : Bool) (before after : List Char) :
    cutComments inside [] (before ++ '\n' :: after) =
      cutComments inside [] before ++ '\n' :: cutComments false [] after := by
  obtain ⟨isOpen, happend⟩ := exists_cutComments_append inside [] before
  rw [happend, cutComments_newline]

/-- A carriage return at the end makes a line break with the line feed, so it must not count as
text. -/
theorem remove_append_newline (h : (remove before).getLast? ≠ some '\r') :
    remove (before ++ '\n' :: after) = remove before ++ '\n' :: remove after := by
  have hnewline : unifyBreaks [] ('\n' :: after) = '\n' :: unifyBreaks [] after :=
    unifyBreaks_cons nofun
  by_cases hreturn : before.getLast? = some '\r'
  · obtain ⟨start, rfl⟩ := List.getLast?_eq_some_iff.1 hreturn
    have hstart : unifyBreaks [] (start ++ ['\r']) = unifyBreaks [] start ++ ['\r'] :=
      unifyBreaks_append [] fun _ => nofun
    have hjoined : unifyBreaks [] (start ++ '\r' :: '\n' :: after) =
        unifyBreaks [] start ++ '\n' :: unifyBreaks [] after := by
      rw [unifyBreaks_append [] (by simp), unifyBreaks, unifyBreaks_eq ['\n']]
      rfl
    obtain ⟨isOpen, happend⟩ := exists_cutComments_append false [] (unifyBreaks [] start)
    cases isOpen with
    | true =>
      have hremove : remove (start ++ ['\r']) = cutComments false [] (unifyBreaks [] start) := by
        rw [remove, hstart, happend]
        exact List.append_nil _
      rw [hremove, List.append_assoc, List.singleton_append, remove, hjoined,
        cutComments_append_newline]
      rfl
    | false =>
      refine (h ?_).elim
      rw [remove, hstart, happend]
      exact List.getLast?_concat
  · rw [remove, unifyBreaks_append [] fun h => (hreturn h).elim, hnewline,
      cutComments_append_newline]
    rfl

/-- Text without comments and line breaks stays in front of a text. -/
theorem remove_append (hreturn : '\r' ∉ before) (hcomment : '%' ∉ before) :
    remove (before ++ after) = before ++ remove after := by
  induction before with
  | nil => rfl
  | cons c before ih =>
    have hc := List.ne_of_not_mem_cons hreturn
    have hd := List.ne_of_not_mem_cons hcomment
    have hkeep : ∀ text, cutComments false [] (c :: text) = c :: cutComments false [] text := by
      intro text
      have h := cutComments_append_kept false [] [c] text
      simpa [cutComments, Ne.symm hd] using h
    rw [List.cons_append, remove, unifyBreaks_cons (fun h => (hc h.symm).elim), hkeep]
    exact congrArg (c :: ·)
      (ih (List.not_mem_of_not_mem_cons hreturn) (List.not_mem_of_not_mem_cons hcomment))

theorem count_newline_unifyBreaks (kept text : List Char) :
    (unifyBreaks kept text).count '\n' = kept.count '\n' + text.count '\n' := by
  fun_induction unifyBreaks kept text with
  | case1 kept => simp
  | case2 kept text ih =>
    rw [ih]
    simp
    omega
  | case3 kept c text _ ih =>
    rw [ih]
    simp only [List.count_cons]
    omega

theorem count_newline_cutComments (inside : Bool) (kept text : List Char) :
    (cutComments inside kept text).count '\n' = kept.count '\n' + text.count '\n' := by
  induction text generalizing inside kept with
  | nil => simp [cutComments]
  | cons c text ih =>
    by_cases hnewline : c = '\n'
    · rw [cutComments, if_pos hnewline, ih, List.count_cons, List.count_cons]
      omega
    · have hcount : (c :: text).count '\n' = text.count '\n' := List.count_cons_of_ne hnewline
      rw [cutComments, if_neg hnewline, hcount]
      split
      · exact ih true kept
      · rw [ih, List.count_cons_of_ne hnewline]

/-- Lines keep their numbers. -/
theorem count_newline_remove (text : List Char) : (remove text).count '\n' = text.count '\n' := by
  rw [remove, count_newline_cutComments, count_newline_unifyBreaks]
  simp

end TurtleGraphics.Comment
