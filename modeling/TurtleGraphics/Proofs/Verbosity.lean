import TurtleGraphics.CommandLine.Arguments

/-! Arguments that ask for more detail, and what is left of a command line without them. -/
namespace TurtleGraphics.CommandLine

/-- How many times an argument asks for more detail: once for each letter `v`, or once as a word. -/
def verboseCount (argument : String) : Nat :=
  if argument = "--verbose" then 1
  else match argument.toList with
    | '-' :: letters => if letters.all (· = 'v') then letters.length else 0
    | _ => 0

/-- How many times arguments ask for more detail. After a separator none does. -/
def verboseFlags : List String → Nat
  | [] => 0
  | argument :: rest =>
    if argument = "--" then 0 else verboseCount argument + verboseFlags rest

/-- The arguments but for those that ask for more detail. -/
def quiet : List String → List String
  | [] => []
  | argument :: rest =>
    if argument = "--" then argument :: rest
    else if verboseCount argument = 0 then argument :: quiet rest
    else quiet rest

namespace Argument

variable {text name : String} {letters : List Char} {value : Option String}

theorem eq_of_ofText_separator (h : ofText text = .separator) : text = "--" := by
  unfold ofText at h
  split at h <;> cases h
  apply String.toList_inj.1
  assumption

theorem ne_separator_of_ofText {argument : Argument} (h : ofText text = argument)
    (hne : argument ≠ .separator) : text ≠ "--" := by
  rintro rfl
  exact hne (h.symm.trans rfl)

theorem ofText_verbose : ofText "--verbose" = .word "verbose" none := by
  decide +kernel

theorem ne_verbose_of_ofText {argument : Argument} (h : ofText text = argument)
    (hne : argument ≠ .word "verbose" none) : text ≠ "--verbose" := by
  rintro rfl
  exact hne (h.symm.trans ofText_verbose)

theorem eq_of_ofText_verbose (h : ofText text = .word "verbose" none) : text = "--verbose" := by
  unfold ofText at h
  split at h
  · cases h
  · rename_i rest _ htext
    injection h with hname hvalue
    have hdrop : rest.dropWhile (· ≠ '=') = [] := by
      split at hvalue
      · cases hvalue
      · assumption
    have hsplit : rest.takeWhile (· ≠ '=') ++ rest.dropWhile (· ≠ '=') = rest :=
      List.takeWhile_append_dropWhile
    rw [hdrop, List.append_nil] at hsplit
    rw [hsplit] at hname
    apply String.toList_inj.1
    rw [htext, ← @String.toList_ofList rest, hname]
    rfl
  · cases h
  · cases h

theorem verboseCount_of_toList (h : text ≠ "--verbose") (htext : text.toList = '-' :: letters) :
    verboseCount text = if letters.all (· = 'v') then letters.length else 0 := by
  rw [verboseCount, if_neg h, htext]
  rfl

theorem verboseCount_of_plain (h : ofText text = .plain name) : verboseCount text = 0 := by
  have hverbose := ne_verbose_of_ofText h nofun
  unfold ofText at h
  split at h <;> cases h
  rename_i hletters
  rw [verboseCount, if_neg hverbose]
  split
  · rename_i letters htext
    cases letters with
    | nil => rfl
    | cons c rest => exact (hletters c rest htext).elim
  · rfl

theorem verboseCount_of_letters (h : ofText text = .letters letters)
    (hmore : ∀ c ∈ letters, c = 'v') : verboseCount text = letters.length ∧ letters ≠ [] := by
  have hverbose := ne_verbose_of_ofText h nofun
  unfold ofText at h
  split at h <;> cases h
  rename_i htext
  have hall : _ = true := List.all_eq_true.2 fun c hc => decide_eq_true (hmore c hc)
  rw [verboseCount_of_toList hverbose htext, if_pos hall]
  exact ⟨rfl, List.cons_ne_nil _ _⟩

theorem verboseCount_of_word (h : ofText text = .word name value)
    (hne : Argument.word name value ≠ .word "verbose" none) : verboseCount text = 0 := by
  have hverbose := ne_verbose_of_ofText h hne
  unfold ofText at h
  split at h <;> cases h
  rename_i htext
  rw [verboseCount_of_toList hverbose htext]
  rfl

end Argument

namespace Options

variable {options next final : Options} {arguments rest names : List String}
  {argument name value : String} {letters : List Char}

def withVerbosity (options : Options) (verbosity : Nat) : Options :=
  { options with verbosity }

/-- What arguments that are right, and do not ask for the version, make of options. -/
inductive Reads : Options → List String → Options → Prop
  | nil {options : Options} : Reads options [] options
  | separator {options final : Options} {rest : List String} :
    rest.foldlM withInput options = some final → Reads options ("--" :: rest) final
  | plain {options next final : Options} {argument name : String} {rest : List String} :
    Argument.ofText argument = .plain name → options.withInput name = some next →
    Reads next rest final → Reads options (argument :: rest) final
  | letters {options final : Options} {argument : String} {letters : List Char}
    {rest : List String} :
    Argument.ofText argument = .letters letters → (∀ c ∈ letters, c = 'v') →
    Reads (options.withVerbosity (options.verbosity + letters.length)) rest final →
    Reads options (argument :: rest) final
  | verbose {options final : Options} {argument : String} {rest : List String} :
    Argument.ofText argument = .word "verbose" none →
    Reads (options.withVerbosity (options.verbosity + 1)) rest final →
    Reads options (argument :: rest) final
  | joined {options next final : Options} {argument name value : String} {rest : List String} :
    Argument.ofText argument = .word name (some value) →
    options.withValue name value = some next → Reads next rest final →
    Reads options (argument :: rest) final
  | spaced {options next final : Options} {argument name other value : String}
    {rest : List String} :
    Argument.ofText argument = .word name none → name ≠ "version" → name ≠ "verbose" →
    Argument.ofText other = .plain value → options.withValue name value = some next →
    Reads next rest final → Reads options (argument :: other :: rest) final

theorem withLetters_eq_emit_iff :
    options.withLetters letters = some (.emit final) ↔
      (∀ c ∈ letters, c = 'v') ∧
        final = options.withVerbosity (options.verbosity + letters.length) := by
  fun_induction withLetters options letters with
  | case1 options => simp [withVerbosity, eq_comm]
  | case2 options letters ih =>
    rw [ih]
    simp [withVerbosity, moreVerbose, Nat.add_assoc, Nat.add_comm 1]
  | case3 => simp
  | case4 letters options hnil hmore hversion =>
    cases letters with
    | nil => exact (hnil rfl).elim
    | cons c letters =>
      simp only [List.forall_mem_cons, reduceCtorEq, false_iff]
      rintro ⟨⟨rfl, _⟩, _⟩
      exact hmore letters rfl

theorem reads_of_read (h : options.read arguments = some (.emit final)) :
    Reads options arguments final := by
  fun_induction read options arguments with
  | case1 =>
    cases h
    exact .nil
  | case2 options argument rest hargument =>
    obtain ⟨last, hlast, heq⟩ := Option.map_eq_some_iff.1 h
    cases heq
    obtain rfl := Argument.eq_of_ofText_separator hargument
    exact .separator hlast
  | case3 options argument rest name hargument ih =>
    obtain ⟨next, hnext, hrest⟩ := Option.bind_eq_some_iff.1 h
    exact .plain hargument hnext (ih next hrest)
  | case4 options argument rest letters hargument next hletters ih =>
    obtain ⟨hmore, rfl⟩ := withLetters_eq_emit_iff.1 hletters
    exact .letters hargument hmore (ih h)
  | case5 options argument rest letters hargument hletters => exact (hletters final h).elim
  | case7 options argument rest hargument ih => exact .verbose hargument (ih h)
  | case8 options argument rest name value hargument ih =>
    obtain ⟨next, hnext, hrest⟩ := Option.bind_eq_some_iff.1 h
    exact .joined hargument hnext (ih next hrest)
  | case10 options argument name hversion hverbose hargument other rest value hother ih =>
    obtain ⟨next, hnext, hrest⟩ := Option.bind_eq_some_iff.1 h
    exact .spaced hargument hversion hverbose hother hnext (ih next hrest)
  | case6 | case9 | case11 => cases h

theorem read_of_reads (h : Reads options arguments final) :
    options.read arguments = some (.emit final) := by
  induction h with
  | nil => rfl
  | separator hrest =>
    have hargument : Argument.ofText "--" = .separator := rfl
    simp [read, hargument, hrest]
  | plain hargument hnext _ ih => simp [read, hargument, hnext, ih]
  | @letters options final argument letters rest hargument hmore _ ih =>
    have hletters : options.withLetters letters = some
        (.emit (options.withVerbosity (options.verbosity + letters.length))) :=
      withLetters_eq_emit_iff.2 ⟨hmore, rfl⟩
    simp [read, hargument, hletters, ih]
  | verbose hargument _ ih =>
    rw [read, hargument]
    exact ih
  | joined hargument hnext _ ih => simp [read, hargument, hnext, ih]
  | spaced hargument hversion hverbose hother hnext _ ih =>
    simp [read, hargument, hother, hnext, ih]

/-! ### Without verbosity -/

theorem withInput_withVerbosity (n : Nat) (h : options.withInput name = some next) :
    next.verbosity = options.verbosity ∧
      (options.withVerbosity n).withInput name = some (next.withVerbosity n) := by
  unfold withInput at h ⊢
  split at h
  · cases h
  · cases h
    rename_i hfresh
    exact ⟨rfl, if_neg hfresh⟩

theorem foldlM_withInput_withVerbosity (n : Nat)
    (h : names.foldlM withInput options = some final) :
    final.verbosity = options.verbosity ∧
      names.foldlM withInput (options.withVerbosity n) = some (final.withVerbosity n) := by
  induction names generalizing options with
  | nil =>
    cases h
    exact ⟨rfl, rfl⟩
  | cons name names ih =>
    obtain ⟨next, hnext, hrest⟩ := Option.bind_eq_some_iff.1 h
    obtain ⟨hverbosity, hinput⟩ := withInput_withVerbosity n hnext
    obtain ⟨hfinal, hnames⟩ := ih hrest
    refine ⟨hfinal.trans hverbosity, ?_⟩
    rw [List.foldlM_cons, hinput]
    exact hnames

theorem withValue_withVerbosity (n : Nat) (h : options.withValue name value = some next) :
    next.verbosity = options.verbosity ∧
      (options.withVerbosity n).withValue name value = some (next.withVerbosity n) := by
  unfold withValue at h ⊢
  split at h
  · split at h
    · cases h
    · rename_i hfresh
      obtain ⟨emit, hemit, rfl⟩ := Option.map_eq_some_iff.1 h
      exact ⟨rfl, by simp [withVerbosity, hemit, hfresh]⟩
  · split at h
    · cases h
    · rename_i hfresh
      obtain ⟨places, hplaces, rfl⟩ := Option.map_eq_some_iff.1 h
      exact ⟨rfl, by simp [withVerbosity, hplaces, hfresh]⟩
  · cases h

theorem verboseFlags_cons {form : Argument} (rest : List String)
    (h : Argument.ofText argument = form) (hform : form ≠ .separator) :
    verboseFlags (argument :: rest) = verboseCount argument + verboseFlags rest := by
  rw [verboseFlags, if_neg (Argument.ne_separator_of_ofText h hform)]

theorem quiet_cons_of_eq_zero {form : Argument} (rest : List String)
    (h : Argument.ofText argument = form) (hform : form ≠ .separator)
    (hcount : verboseCount argument = 0) : quiet (argument :: rest) = argument :: quiet rest := by
  rw [quiet, if_neg (Argument.ne_separator_of_ofText h hform), if_pos hcount]

theorem quiet_cons_of_ne_zero {form : Argument} (rest : List String)
    (h : Argument.ofText argument = form) (hform : form ≠ .separator)
    (hcount : verboseCount argument ≠ 0) : quiet (argument :: rest) = quiet rest := by
  rw [quiet, if_neg (Argument.ne_separator_of_ofText h hform), if_neg hcount]

/-- Without the arguments that ask for more detail a command line asks for the same otherwise. -/
theorem reads_quiet (n : Nat) (h : Reads options arguments final) :
    final.verbosity = options.verbosity + verboseFlags arguments ∧
      Reads (options.withVerbosity n) (quiet arguments) (final.withVerbosity n) := by
  induction h with
  | nil => exact ⟨rfl, .nil⟩
  | separator hrest =>
    obtain ⟨hfinal, hnames⟩ := foldlM_withInput_withVerbosity n hrest
    exact ⟨hfinal, .separator hnames⟩
  | @plain options next final argument name rest hargument hnext _ ih =>
    obtain ⟨hverbosity, hinput⟩ := withInput_withVerbosity n hnext
    have hcount := Argument.verboseCount_of_plain hargument
    rw [verboseFlags_cons rest hargument nofun, hcount, Nat.zero_add,
      quiet_cons_of_eq_zero rest hargument nofun hcount, ← hverbosity]
    exact ⟨ih.1, .plain hargument hinput ih.2⟩
  | @letters options final argument letters rest hargument hmore _ ih =>
    obtain ⟨hcount, hne⟩ := Argument.verboseCount_of_letters hargument hmore
    -- A hyphen alone is no option, so there is a letter, and the argument is left out.
    have hpos := List.length_pos_iff.2 hne
    rw [verboseFlags_cons rest hargument nofun, hcount,
      quiet_cons_of_ne_zero rest hargument nofun (by omega)]
    exact ⟨ih.1.trans (Nat.add_assoc _ _ _), ih.2⟩
  | @verbose options final argument rest hargument _ ih =>
    obtain rfl := Argument.eq_of_ofText_verbose hargument
    have hcount : verboseCount "--verbose" = 1 := rfl
    rw [verboseFlags_cons rest hargument nofun, hcount,
      quiet_cons_of_ne_zero rest hargument nofun (by decide)]
    exact ⟨ih.1.trans (Nat.add_assoc _ _ _), ih.2⟩
  | @joined options next final argument name value rest hargument hnext _ ih =>
    obtain ⟨hverbosity, hvalue⟩ := withValue_withVerbosity n hnext
    have hcount := Argument.verboseCount_of_word hargument (by simp)
    rw [verboseFlags_cons rest hargument nofun, hcount, Nat.zero_add,
      quiet_cons_of_eq_zero rest hargument nofun hcount, ← hverbosity]
    exact ⟨ih.1, .joined hargument hvalue ih.2⟩
  | @spaced options next final argument name other value rest hargument hversion hverbose hother
      hnext _ ih =>
    obtain ⟨hverbosity, hvalue⟩ := withValue_withVerbosity n hnext
    have hcount := Argument.verboseCount_of_word hargument (by simpa using hverbose)
    have hother' := Argument.verboseCount_of_plain hother
    rw [verboseFlags_cons _ hargument nofun, hcount, Nat.zero_add,
      verboseFlags_cons rest hother nofun, hother', Nat.zero_add,
      quiet_cons_of_eq_zero _ hargument nofun hcount,
      quiet_cons_of_eq_zero rest hother nofun hother', ← hverbosity]
    exact ⟨ih.1, .spaced hargument hversion hverbose hother hvalue ih.2⟩

end Options

theorem ofArguments_quiet {arguments : List String} {options : Options}
    (h : Request.ofArguments arguments = some (.emit options)) :
    options.verbosity = verboseFlags arguments ∧
      Request.ofArguments (quiet arguments) = some (.emit (options.withVerbosity 0)) := by
  obtain ⟨hverbosity, hquiet⟩ := Options.reads_quiet 0 (Options.reads_of_read h)
  exact ⟨hverbosity.trans (Nat.zero_add _), Options.read_of_reads hquiet⟩

end TurtleGraphics.CommandLine
