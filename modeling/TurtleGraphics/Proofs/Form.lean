import TurtleGraphics.Proofs.Recognition

/-! The texts that lexemes have. What a text starts with depends on nothing after it but the next
character. -/
namespace TurtleGraphics

/-- A kind that text can give. A color literal is a hash sign and six letters or digits. -/
def Token.Kind.Lexical : Kind → Prop
  | endOfInput => False
  | colorLiteral text =>
    ∃ digits, text.toList = '#' :: digits ∧ digits.length = 6 ∧ ∀ c ∈ digits, c.isAlphanum = true
  | _ => True

namespace Lexeme

variable {c : Char} {text taken rest : List Char} {m : Match} {n : Nat} {p : Char → Bool}
  {lexeme : Lexeme} {more : Char → Bool} {keyword : Keyword}

/-- A lexeme and its text; `more` tells the characters that would prolong it. -/
inductive Form : Lexeme → List Char → (Char → Bool) → Prop
  | separatedWord {keyword : Keyword} {typed : List Char} {c : Char} :
    keyword ∈ separatedWords → typed.map Char.toLower = keyword.word → isSeparator c = true →
    Form (.token keyword.kind) (typed ++ [c]) fun _ => false
  | standaloneWord {keyword : Keyword} {typed : List Char} :
    keyword ∈ standaloneWords → typed.map Char.toLower = keyword.word →
    Form (.token keyword.kind) typed fun _ => false
  | loop {word typed lead digits trail : List Char} :
    word ∈ loopWords → typed.map Char.toLower = word → IsRun isSeparator lead →
    IsRun Char.isDigit digits → IsRun isSeparator trail →
    Form (.loop (value? digits)) (typed ++ (lead ++ (digits ++ trail))) isSeparator
  | period : Form (.token .period) ['.'] fun _ => false
  | quote : Form (.token .quote) ['"'] fun _ => false
  | number {digits : List Char} : IsRun Char.isDigit digits →
    Form (.token ((value? digits).elim .unrecognized .number)) digits Char.isDigit
  | colorLiteral {digits : List Char} : digits.length = 6 → (∀ c ∈ digits, c.isAlphanum = true) →
    Form (.token (.colorLiteral (.ofList ('#' :: digits)))) ('#' :: digits) fun _ => false
  | newline : Form .blank ['\n'] fun _ => false
  | blanks {run : List Char} : IsRun isBlank run → Form .blank run isBlank

theorem match?_of_form (h : Form lexeme text more) (hrest : ∀ c ∈ rest.head?, more c = false) :
    match? (text ++ rest) = some ⟨lexeme, text.length⟩ := by
  cases h with
  | separatedWord hmem htyped hc =>
    rw [List.append_assoc]
    exact match?_separatedWord hmem htyped hc
  | standaloneWord hmem htyped => exact match?_standaloneWord hmem htyped
  | loop hmem htyped hlead hdigits htrail =>
    simp only [List.append_assoc]
    exact match?_loopWord hmem htyped hlead hdigits htrail hrest
  | period => rfl
  | quote => rfl
  | number hdigits => exact match?_digits hdigits hrest
  | colorLiteral hlength hdigits => exact match?_color hlength hdigits
  | newline => rfl
  | blanks hrun => exact match?_blanks hrun hrest

/-- The match takes all of a lexeme off the start of the text. -/
def Match.IsWhole (m : Match) (text : List Char) : Prop :=
  ∃ taken rest more, text = taken ++ rest ∧ m.length = taken.length ∧ Form m.lexeme taken more ∧
    ∀ c ∈ rest.head?, more c = false

theorem head?_dropWhile (p : Char → Bool) (text : List Char) :
    ∀ c ∈ (text.dropWhile p).head?, p c = false := by
  intro c hc
  have h := List.head?_dropWhile_not p text
  rw [Option.mem_def.1 hc] at h
  exact h

theorem isRun_takeWhile (h : text.takeWhile p ≠ []) : IsRun p (text.takeWhile p) :=
  ⟨h, List.all_eq_true.1 List.all_takeWhile⟩

theorem separatedWord?_isWhole (h : separatedWord? text = some m) : m.IsWhole text := by
  obtain ⟨keyword, hmem, h⟩ := List.exists_of_findSome?_eq_some h
  unfold Keyword.separated? at h
  split at h
  · rename_i c rest hafter
    split at h
    · rename_i hc
      cases h
      obtain ⟨typed, rfl, htyped⟩ := afterWord?_eq_some hafter
      refine ⟨typed ++ [c], rest, _, List.append_cons typed c rest, ?_,
        .separatedWord hmem htyped hc, fun _ _ => rfl⟩
      rw [← htyped]
      simp
    · cases h
  · cases h

theorem standaloneWord?_isWhole (h : standaloneWord? text = some m) : m.IsWhole text := by
  obtain ⟨keyword, hmem, h⟩ := List.exists_of_findSome?_eq_some h
  obtain ⟨rest, hafter, rfl⟩ := Option.map_eq_some_iff.1 h
  obtain ⟨typed, rfl, htyped⟩ := afterWord?_eq_some hafter
  refine ⟨typed, rest, _, rfl, ?_, .standaloneWord hmem htyped, fun _ _ => rfl⟩
  rw [← htyped]
  simp

theorem exists_runs_of_countAfter? (h : countAfter? n text = some m) :
    ∃ lead digits trail rest, text = lead ++ (digits ++ (trail ++ rest)) ∧
      IsRun isSeparator lead ∧ IsRun Char.isDigit digits ∧ IsRun isSeparator trail ∧
      StartsApart rest ∧
      m = ⟨.loop (value? digits), n + lead.length + digits.length + trail.length⟩ := by
  simp only [countAfter?] at h
  split at h
  · cases h
  · rename_i hne
    cases h
    simp only [Bool.or_eq_true, List.isEmpty_iff, not_or] at hne
    obtain ⟨⟨hlead, hdigits⟩, htrail⟩ := hne
    refine ⟨_, _, _, ((text.dropWhile isSeparator).dropWhile Char.isDigit).dropWhile isSeparator,
      ?_, isRun_takeWhile hlead, isRun_takeWhile hdigits, isRun_takeWhile htrail,
      head?_dropWhile _ _, rfl⟩
    simp only [List.takeWhile_append_dropWhile]

theorem loop?_isWhole (h : loop? text = some m) : m.IsWhole text := by
  obtain ⟨word, hmem, h⟩ := List.exists_of_findSome?_eq_some h
  obtain ⟨after, hafter, hcount⟩ := Option.bind_eq_some_iff.1 h
  obtain ⟨typed, rfl, htyped⟩ := afterWord?_eq_some hafter
  obtain ⟨lead, digits, trail, rest, rfl, hlead, hdigits, htrail, hrest, rfl⟩ :=
    exists_runs_of_countAfter? hcount
  refine ⟨_, rest, _, ?_, ?_, .loop hmem htyped hlead hdigits htrail, hrest⟩
  · simp only [List.append_assoc]
  · rw [← htyped]
    simp [Nat.add_assoc]

theorem punctuation?_isWhole (h : punctuation? text = some m) : m.IsWhole text := by
  unfold punctuation? at h
  split at h
  · cases h
    exact ⟨['.'], _, _, rfl, rfl, .period, fun _ _ => rfl⟩
  · cases h
    exact ⟨['"'], _, _, rfl, rfl, .quote, fun _ _ => rfl⟩
  · cases h

theorem number?_isWhole (h : number? text = some m) : m.IsWhole text := by
  simp only [number?] at h
  split at h
  · cases h
  · rename_i hne
    cases h
    exact ⟨_, _, _, List.takeWhile_append_dropWhile.symm, rfl,
      .number (isRun_takeWhile fun hnil => hne (List.isEmpty_iff.2 hnil)), head?_dropWhile _ _⟩

theorem colorLiteral?_isWhole (h : colorLiteral? text = some m) : m.IsWhole text := by
  unfold colorLiteral? at h
  split at h
  · rename_i text
    simp only at h
    split at h
    · rename_i hdigits
      cases h
      obtain ⟨hlength, hall⟩ : (text.take 6).length = 6 ∧
          (text.take 6).all Char.isAlphanum = true := by
        simpa using hdigits
      refine ⟨'#' :: text.take 6, text.drop 6, _, ?_, ?_,
        .colorLiteral hlength (List.all_eq_true.1 hall), fun _ _ => rfl⟩
      · rw [List.cons_append, List.take_append_drop]
      · rw [List.length_cons, hlength]
    · cases h
  · cases h

theorem newline?_isWhole (h : newline? text = some m) : m.IsWhole text := by
  unfold newline? at h
  split at h
  · cases h
    exact ⟨['\n'], _, _, rfl, rfl, .newline, fun _ _ => rfl⟩
  · cases h

theorem blank?_isWhole (h : blank? text = some m) : m.IsWhole text := by
  simp only [blank?] at h
  split at h
  · cases h
  · rename_i hne
    cases h
    exact ⟨_, _, _, List.takeWhile_append_dropWhile.symm, rfl,
      .blanks (isRun_takeWhile fun hnil => hne (List.isEmpty_iff.2 hnil)), head?_dropWhile _ _⟩

theorem match?_isWhole (h : match? text = some m) : m.IsWhole text := by
  obtain ⟨reader, hmem, h⟩ := List.exists_of_findSome?_eq_some h
  simp only [readers, List.mem_cons, List.not_mem_nil, or_false] at hmem
  rcases hmem with rfl | rfl | rfl | rfl | rfl | rfl | rfl | rfl
  · exact separatedWord?_isWhole h
  · exact standaloneWord?_isWhole h
  · exact loop?_isWhole h
  · exact punctuation?_isWhole h
  · exact number?_isWhole h
  · exact colorLiteral?_isWhole h
  · exact newline?_isWhole h
  · exact blank?_isWhole h

/-- A text is read as a lexeme exactly where it has the lexeme's form and does not go on. -/
theorem match?_append_eq_some_iff :
    match? (text ++ rest) = some ⟨lexeme, text.length⟩ ↔
      ∃ more, Form lexeme text more ∧ ∀ c ∈ rest.head?, more c = false := by
  constructor
  · intro h
    obtain ⟨taken, after, more, hsplit, hlength, hform, hafter⟩ := match?_isWhole h
    obtain ⟨rfl, rfl⟩ := List.append_inj hsplit hlength
    exact ⟨more, hform, hafter⟩
  · rintro ⟨more, hform, hrest⟩
    exact match?_of_form hform hrest

theorem lexical_of_mem_separatedWords (h : keyword ∈ separatedWords) : keyword.kind.Lexical := by
  simp only [separatedWords, List.mem_cons, List.not_mem_nil, or_false] at h
  rcases h with rfl | rfl | rfl | rfl | rfl | rfl | rfl <;> trivial

theorem lexical_of_mem_standaloneWords (h : keyword ∈ standaloneWords) :
    keyword.kind.Lexical := by
  simp only [standaloneWords, List.mem_cons, List.not_mem_nil, or_false] at h
  rcases h with rfl | rfl <;> trivial

theorem Form.lexical (h : Form lexeme text more) (kind : Token.Kind)
    (hkind : lexeme = .token kind) : kind.Lexical := by
  cases h with
  | separatedWord hmem =>
    cases hkind
    exact lexical_of_mem_separatedWords hmem
  | standaloneWord hmem =>
    cases hkind
    exact lexical_of_mem_standaloneWords hmem
  | number =>
    cases hkind
    cases value? text <;> trivial
  | colorLiteral hlength hdigits =>
    cases hkind
    exact ⟨_, String.toList_ofList, hlength, hdigits⟩
  | period | quote =>
    cases hkind
    trivial
  | loop | newline | blanks => cases hkind

structure Match.IsSound (m : Match) (text : List Char) : Prop where
  length_le : m.length ≤ text.length
  lexical : ∀ kind, m.lexeme = .token kind → kind.Lexical

theorem match?_isSound (h : match? text = some m) : m.IsSound text := by
  obtain ⟨taken, rest, more, rfl, hlength, hform, _⟩ := match?_isWhole h
  refine ⟨?_, hform.lexical⟩
  rw [hlength, List.length_append]
  exact Nat.le_add_right _ _

/-- Only a loop's keyword with its count takes a line feed on. -/
theorem Form.not_more_newline (h : Form lexeme text more) (hloop : ∀ count, lexeme ≠ .loop count) :
    more '\n' = false := by
  cases h with
  | loop => exact (hloop _ rfl).elim
  | _ => rfl

/-- Lexemes are made of ASCII letters, digits, separators and three signs. -/
def isLexical (c : Char) : Bool :=
  c.isAlphanum || isSeparator c || c = '.' || c = '"' || c = '#'

theorem isLexical_of_isAlphanum (hc : c.isAlphanum = true) : isLexical c = true := by
  simp [isLexical, hc]

theorem isLexical_of_isSeparator (hc : isSeparator c = true) : isLexical c = true := by
  simp [isLexical, hc]

theorem isAlphanum_of_isAlpha_toLower (hc : c.toLower.isAlpha = true) : c.isAlphanum = true := by
  unfold Char.toLower at hc
  split at hc
  · rename_i hbounds
    have hupper : c.isUpper = true := decide_eq_true hbounds
    change (c.isUpper || c.isLower || c.isDigit) = true
    rw [hupper, Bool.true_or, Bool.true_or]
  · simp [Char.isAlphanum, hc]

theorem isLexical_of_mem_typed {typed word : List Char} (hword : isWord word = true)
    (htyped : typed.map Char.toLower = word) : ∀ c ∈ typed, isLexical c = true := by
  intro c hc
  subst word
  apply isLexical_of_isAlphanum
  exact isAlphanum_of_isAlpha_toLower (List.all_eq_true.1 hword _ (List.mem_map_of_mem hc))

theorem IsRun.isLexical_of_isDigit (h : IsRun Char.isDigit text) :
    ∀ c ∈ text, isLexical c = true := by
  intro c hc
  simp [isLexical, Char.isAlphanum, h.all c hc]

theorem IsRun.isLexical_of_isSeparator (h : IsRun isSeparator text) :
    ∀ c ∈ text, isLexical c = true := by
  intro c hc
  exact Lexeme.isLexical_of_isSeparator (h.all c hc)

theorem Form.isLexical_of_mem (h : Form lexeme text more) : ∀ c ∈ text, isLexical c = true := by
  cases h with
  | separatedWord hmem htyped hc =>
    refine List.forall_mem_append.2
      ⟨isLexical_of_mem_typed (isWord_of_mem_separatedWords _ hmem) htyped, ?_⟩
    intro d hd
    obtain rfl := List.mem_singleton.1 hd
    exact isLexical_of_isSeparator hc
  | standaloneWord hmem htyped =>
    exact isLexical_of_mem_typed (isWord_of_mem_standaloneWords _ hmem) htyped
  | loop hmem htyped hlead hdigits htrail =>
    simp only [List.forall_mem_append]
    exact ⟨isLexical_of_mem_typed (isWord_of_mem_loopWords _ hmem) htyped,
      hlead.isLexical_of_isSeparator, hdigits.isLexical_of_isDigit,
      htrail.isLexical_of_isSeparator⟩
  | number hdigits => exact hdigits.isLexical_of_isDigit
  | colorLiteral _ hdigits =>
    refine List.forall_mem_cons.2 ⟨rfl, ?_⟩
    intro c hc
    exact isLexical_of_isAlphanum (hdigits c hc)
  | blanks hrun =>
    exact fun c hc => isLexical_of_isSeparator (isSeparator_of_isBlank (hrun.all c hc))
  | _ =>
    intro c hc
    obtain rfl := List.mem_singleton.1 hc
    rfl

end Lexeme

end TurtleGraphics
