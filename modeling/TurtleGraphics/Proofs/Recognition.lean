import TurtleGraphics.Proofs.Words

/-! Which lexeme a text starts with, where its first characters tell. -/
namespace TurtleGraphics.Lexeme

variable {c : Char} {word typed text rest run lead digits trail : List Char} {m : Match}
  {p : Char → Bool} {keyword : Keyword}

/-- A separator before the text ends there. -/
def StartsApart (text : List Char) : Prop :=
  ∀ c ∈ text.head?, isSeparator c = false

/-- One or more characters of one sort. -/
structure IsRun (p : Char → Bool) (text : List Char) : Prop where
  ne_nil : text ≠ []
  all : ∀ c ∈ text, p c = true

theorem IsRun.takeWhile_append (hrun : IsRun p run) (hrest : ∀ c ∈ rest.head?, p c = false) :
    (run ++ rest).takeWhile p = run := by
  rw [List.takeWhile_append_of_pos hrun.all]
  cases rest with
  | nil => exact List.append_nil run
  | cons c rest =>
    have hc : p c = false := hrest c rfl
    simp [hc]

theorem IsRun.dropWhile_append (hrun : IsRun p run) (hrest : ∀ c ∈ rest.head?, p c = false) :
    (run ++ rest).dropWhile p = rest := by
  rw [List.dropWhile_append_of_pos hrun.all]
  cases rest with
  | nil => rfl
  | cons c rest =>
    have hc : p c = false := hrest c rfl
    simp [hc]

theorem forall_head?_append (hne : run ≠ []) (h : ∀ c ∈ run, p c = false) (rest : List Char) :
    ∀ c ∈ (run ++ rest).head?, p c = false := by
  obtain ⟨first, tail, rfl⟩ := List.exists_cons_of_ne_nil hne
  intro c hc
  cases hc
  exact h first List.mem_cons_self

theorem ne_of_isDigit {w : Char} (hc : c.isDigit = true) (hw : w.isDigit = false) : c ≠ w := by
  rintro rfl
  cases hc.symm.trans hw

theorem isSeparator_of_isDigit (hc : c.isDigit = true) : isSeparator c = false := by
  simp [isSeparator, ne_of_isDigit hc]

theorem isDigit_of_isSeparator (hc : isSeparator c = true) : c.isDigit = false := by
  cases hdigit : c.isDigit with
  | false => rfl
  | true => cases (isSeparator_of_isDigit hdigit).symm.trans hc

/-- Spaces and tabs stand next to one another in one lexeme, line feeds do not. -/
def isBlank (c : Char) : Bool :=
  c = ' ' || c = '\t'

theorem isSeparator_of_isBlank (hc : isBlank c = true) : isSeparator c = true := by
  rw [show isSeparator c = (isBlank c || c = '\n') from rfl, hc, Bool.true_or]

theorem toLower_of_isDigit (hc : c.isDigit = true) : c.toLower = c := by
  unfold Char.toLower
  split
  · rename_i hupper
    simp only [Char.isDigit, Bool.and_eq_true, decide_eq_true_eq] at hc
    exact absurd (UInt32.le_trans hupper.1 hc.2) (by decide)
  · rfl

theorem isAlpha_of_isDigit (hc : c.isDigit = true) : c.isAlpha = false := by
  simp only [Char.isDigit, Bool.and_eq_true, decide_eq_true_eq] at hc
  cases halpha : c.isAlpha with
  | false => rfl
  | true =>
    have hletter : (decide (65 ≤ c.val ∧ c.val ≤ 90) ||
        decide (97 ≤ c.val) && decide (c.val ≤ 122)) = true := halpha
    simp only [Bool.or_eq_true, Bool.and_eq_true, decide_eq_true_eq] at hletter
    rcases hletter with hupper | hlower
    · exact absurd (UInt32.le_trans hupper.1 hc.2) (by decide)
    · exact absurd (UInt32.le_trans hlower.1 hc.2) (by decide)

theorem afterWord?_of_isDigit (hc : c.isDigit = true)
    (hword : ∃ w rest, word = w :: rest ∧ w.isDigit = false) :
    afterWord? word (c :: text) = none := by
  obtain ⟨w, rest, rfl, hw⟩ := hword
  rw [afterWord?, toLower_of_isDigit hc, if_neg (ne_of_isDigit hc hw)]

theorem separatedWord?_of_isDigit (hc : c.isDigit = true) : separatedWord? (c :: text) = none := by
  refine List.findSome?_eq_none_iff.2 ?_
  intro keyword hmem
  have hword : ∃ w rest, keyword.word = w :: rest ∧ w.isDigit = false := by
    simp only [separatedWords, List.mem_cons, List.not_mem_nil, or_false] at hmem
    rcases hmem with rfl | rfl | rfl | rfl | rfl | rfl | rfl <;> exact ⟨_, _, rfl, rfl⟩
  rw [Keyword.separated?, afterWord?_of_isDigit hc hword]

theorem standaloneWord?_of_isDigit (hc : c.isDigit = true) :
    standaloneWord? (c :: text) = none := by
  refine List.findSome?_eq_none_iff.2 ?_
  intro keyword hmem
  have hword : ∃ w rest, keyword.word = w :: rest ∧ w.isDigit = false := by
    simp only [standaloneWords, List.mem_cons, List.not_mem_nil, or_false] at hmem
    rcases hmem with rfl | rfl <;> exact ⟨_, _, rfl, rfl⟩
  rw [Keyword.standalone?, afterWord?_of_isDigit hc hword]
  rfl

theorem loop?_of_isDigit (hc : c.isDigit = true) : loop? (c :: text) = none := by
  refine List.findSome?_eq_none_iff.2 ?_
  intro word hmem
  have hword : ∃ w rest, word = w :: rest ∧ w.isDigit = false := by
    simp only [loopWords, List.mem_cons, List.not_mem_nil, or_false] at hmem
    rcases hmem with rfl | rfl <;> exact ⟨_, _, rfl, rfl⟩
  rw [afterWord?_of_isDigit hc hword]
  rfl

theorem punctuation?_of_isDigit (hc : c.isDigit = true) : punctuation? (c :: text) = none := by
  unfold punctuation?
  split
  · rename_i h
    cases h
    cases hc
  · rename_i h
    cases h
    cases hc
  · rfl

/-- A run of digits is a number, as far as 32 bits hold it. -/
theorem number?_digits (hdigits : IsRun Char.isDigit digits)
    (hrest : ∀ c ∈ rest.head?, c.isDigit = false) :
    number? (digits ++ rest) =
      some ⟨.token ((value? digits).elim .unrecognized .number), digits.length⟩ := by
  simp [number?, hdigits.takeWhile_append hrest, hdigits.ne_nil]

theorem match?_digits (hdigits : IsRun Char.isDigit digits)
    (hrest : ∀ c ∈ rest.head?, c.isDigit = false) :
    match? (digits ++ rest) =
      some ⟨.token ((value? digits).elim .unrecognized .number), digits.length⟩ := by
  have hnumber := number?_digits hdigits hrest
  obtain ⟨c, tail, rfl⟩ := List.exists_cons_of_ne_nil hdigits.ne_nil
  have hc := hdigits.all c List.mem_cons_self
  rw [List.cons_append] at hnumber ⊢
  simp only [match?, readers, List.findSome?_cons, separatedWord?_of_isDigit hc,
    standaloneWord?_of_isDigit hc, loop?_of_isDigit hc, punctuation?_of_isDigit hc, hnumber]

theorem value?_toDigits (n : UInt32) : value? (Nat.toDigits 10 n.toNat) = some n := by
  simp only [value?, fits?, Nat.ofDigitChars_ten_toDigits]
  rw [dif_pos n.toNat_lt, UInt32.ofNatLT_toNat]

theorem isRun_toDigits (n : Nat) : IsRun Char.isDigit (Nat.toDigits 10 n) := by
  refine ⟨Nat.toDigits_ne_nil, ?_⟩
  intro c hc
  exact Nat.isDigit_of_mem_toDigits (by decide) (by decide) hc

/-- A count with the separators before it and after it. -/
theorem countAfter?_runs {lead trail : List Char} {n : Nat}
    (hlead : IsRun isSeparator lead) (hdigits : IsRun Char.isDigit digits)
    (htrail : IsRun isSeparator trail) (hrest : StartsApart rest) :
    countAfter? n (lead ++ (digits ++ (trail ++ rest))) =
      some ⟨.loop (value? digits), n + lead.length + digits.length + trail.length⟩ := by
  have hafterLead : ∀ c ∈ (digits ++ (trail ++ rest)).head?, isSeparator c = false := by
    refine forall_head?_append hdigits.ne_nil ?_ _
    intro c hc
    exact isSeparator_of_isDigit (hdigits.all c hc)
  have hafterDigits : ∀ c ∈ (trail ++ rest).head?, c.isDigit = false := by
    refine forall_head?_append htrail.ne_nil ?_ _
    intro c hc
    exact isDigit_of_isSeparator (htrail.all c hc)
  simp only [countAfter?, hlead.takeWhile_append hafterLead, hlead.dropWhile_append hafterLead,
    hdigits.takeWhile_append hafterDigits, hdigits.dropWhile_append hafterDigits,
    htrail.takeWhile_append hrest]
  simp [hlead.ne_nil, hdigits.ne_nil, htrail.ne_nil]

theorem match?_of_separatedWord? (h : separatedWord? text = some m) : match? text = some m := by
  simp only [match?, readers, List.findSome?_cons, h]

theorem match?_of_standaloneWord? (h : standaloneWord? text = some m) : match? text = some m := by
  simp only [match?, readers, List.findSome?_cons, separatedWord?_eq_none_of_standaloneWord? h, h]

theorem match?_of_loop? (h : loop? text = some m) : match? text = some m := by
  simp only [match?, readers, List.findSome?_cons, separatedWord?_eq_none_of_loop? h,
    standaloneWord?_eq_none_of_loop? h, h]

theorem match?_separatedWord (hmem : keyword ∈ separatedWords)
    (htyped : typed.map Char.toLower = keyword.word) (hc : isSeparator c = true) :
    match? (typed ++ c :: rest) = some ⟨.token keyword.kind, (typed ++ [c]).length⟩ := by
  have hlength : keyword.word.length = typed.length := by rw [← htyped, List.length_map]
  apply match?_of_separatedWord?
  apply separatedWord?_of_separated? hmem
  simp [Keyword.separated?, afterWord?_append htyped, hc, hlength]

theorem match?_standaloneWord (hmem : keyword ∈ standaloneWords)
    (htyped : typed.map Char.toLower = keyword.word) :
    match? (typed ++ rest) = some ⟨.token keyword.kind, typed.length⟩ := by
  have hlength : keyword.word.length = typed.length := by rw [← htyped, List.length_map]
  apply match?_of_standaloneWord?
  apply standaloneWord?_of_standalone? hmem
  simp [Keyword.standalone?, afterWord?_append htyped, hlength]

theorem loop?_loopWord (hmem : word ∈ loopWords) (htyped : typed.map Char.toLower = word)
    (hlead : IsRun isSeparator lead) (hdigits : IsRun Char.isDigit digits)
    (htrail : IsRun isSeparator trail) (hrest : StartsApart rest) :
    loop? (typed ++ (lead ++ (digits ++ (trail ++ rest)))) =
      some ⟨.loop (value? digits), (typed ++ (lead ++ (digits ++ trail))).length⟩ := by
  have hlength : word.length = typed.length := by rw [← htyped, List.length_map]
  apply loop?_of_countAfter? hmem
  rw [afterWord?_append htyped, Option.bind_some, countAfter?_runs hlead hdigits htrail hrest]
  simp [hlength, Nat.add_assoc]

theorem match?_loopWord (hmem : word ∈ loopWords) (htyped : typed.map Char.toLower = word)
    (hlead : IsRun isSeparator lead) (hdigits : IsRun Char.isDigit digits)
    (htrail : IsRun isSeparator trail) (hrest : StartsApart rest) :
    match? (typed ++ (lead ++ (digits ++ (trail ++ rest)))) =
      some ⟨.loop (value? digits), (typed ++ (lead ++ (digits ++ trail))).length⟩ :=
  match?_of_loop? (loop?_loopWord hmem htyped hlead hdigits htrail hrest)

/-- A loop keyword with its count takes the one space before the loop's body. -/
theorem match?_loop (hdigits : IsRun Char.isDigit digits) (hrest : StartsApart rest) :
    match? ("REPEAT ".toList ++ digits ++ [' '] ++ rest) =
      some ⟨.loop (value? digits), ("REPEAT ".toList ++ digits ++ [' ']).length⟩ := by
  have hspace : IsRun isSeparator [' '] := ⟨List.cons_ne_nil _ _, List.all_eq_true.1 rfl⟩
  have hmem : "repeat".toList ∈ loopWords := List.mem_cons_self
  have htyped : "REPEAT".toList.map Char.toLower = "repeat".toList := rfl
  have hword : "REPEAT ".toList = "REPEAT".toList ++ [' '] := rfl
  have h := match?_loopWord hmem htyped hspace hdigits hspace hrest
  simp only [hword, List.append_assoc] at h ⊢
  exact h

theorem match?_of_colorLiteral? (h : colorLiteral? ('#' :: text) = some m) :
    match? ('#' :: text) = some m := by
  have hreaders : match? ('#' :: text) =
      [colorLiteral?, newline?, blank?].findSome? (· ('#' :: text)) := rfl
  rw [hreaders, List.findSome?_cons, h]

theorem match?_color (hlength : digits.length = 6)
    (hdigits : ∀ c ∈ digits, c.isAlphanum = true) :
    match? ('#' :: digits ++ rest) =
      some ⟨.token (.colorLiteral (.ofList ('#' :: digits))), ('#' :: digits).length⟩ := by
  have htake : (digits ++ rest).take 6 = digits := by
    rw [← hlength, List.take_left]
  rw [List.cons_append, List.length_cons, hlength]
  apply match?_of_colorLiteral?
  simp [colorLiteral?, htake, hlength, List.all_eq_true.2 hdigits]

theorem match?_blanks (hrun : IsRun isBlank run) (hrest : ∀ c ∈ rest.head?, isBlank c = false) :
    match? (run ++ rest) = some ⟨.blank, run.length⟩ := by
  have htake : (run ++ rest).takeWhile (fun c => c = ' ' || c = '\t') = run :=
    hrun.takeWhile_append hrest
  have hblank : blank? (run ++ rest) = some ⟨.blank, run.length⟩ := by
    simp [blank?, htake, hrun.ne_nil]
  obtain ⟨c, tail, rfl⟩ := List.exists_cons_of_ne_nil hrun.ne_nil
  have hc := hrun.all c List.mem_cons_self
  simp only [isBlank, Bool.or_eq_true, decide_eq_true_eq] at hc
  rcases hc with rfl | rfl <;> exact hblank

end TurtleGraphics.Lexeme
