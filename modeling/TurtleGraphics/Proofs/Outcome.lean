import TurtleGraphics.CommandLine
import TurtleGraphics.Proofs.Verbosity
import TurtleGraphics.Proofs.Writes

/-! What a command line prints does not depend on how much detail it asks for. Only the lines of the
journal do, and they come before all other errors. -/
namespace TurtleGraphics.CommandLine

variable {μ : Type}

namespace Format

/-- The lines of entries, the first of them after what `before` keeps. -/
def textFrom (format : Format μ) (before : μ) : List Entry → String
  | [] => ""
  | entry :: entries =>
    (format.line entry before).1 ++ format.textFrom (format.line entry before).2 entries

/-- The lines of all entries of a run. -/
def text (format : Format μ) (entries : List Entry) : String :=
  format.textFrom format.blank entries

end Format

namespace Logger

variable {logger : Logger μ} {options : Options} {content : Except ReadFailure ByteArray}
  {exit : UInt8} {entries : List Entry} {outputs errors : List String}

theorem foldl_write_entries (logger : Logger μ) (entries : List Entry) (outcome : Outcome)
    (before : μ) :
    ∃ after, (entries.map Write.entry).foldl logger.write (outcome, before) =
      ({ outcome with errors := outcome.errors ++ logger.textFrom before entries }, after) := by
  induction entries generalizing outcome before with
  | nil => exact ⟨before, by simp [Format.textFrom]⟩
  | cons entry entries ih =>
    obtain ⟨after, hafter⟩ := ih
      { outcome with errors := outcome.errors ++ (logger.line entry before).1 }
      (logger.line entry before).2
    refine ⟨after, hafter.trans ?_⟩
    rw [Format.textFrom, ← String.append_assoc]

theorem foldl_write_outputs (logger : Logger μ) (texts : List String) (outcome : Outcome)
    (memory : μ) :
    (texts.map Write.output).foldl logger.write (outcome, memory) =
      ({ outcome with output := outcome.output ++ .join texts }, memory) := by
  induction texts generalizing outcome with
  | nil => simp
  | cons text texts ih =>
    rw [List.map_cons, List.foldl_cons, write, ih, String.join_cons, ← String.append_assoc]

theorem foldl_write_errors (logger : Logger μ) (texts : List String) (outcome : Outcome)
    (memory : μ) :
    (texts.map Write.error).foldl logger.write (outcome, memory) =
      ({ outcome with errors := outcome.errors ++ .join texts }, memory) := by
  induction texts generalizing outcome with
  | nil => simp
  | cons text texts ih =>
    rw [List.map_cons, List.foldl_cons, write, ih, String.join_cons, ← String.append_assoc]

theorem outcome_of_course
    (h : options.course logger.passes content =
      (exit, sequence logger.passes entries outputs errors)) :
    logger.outcome options content =
      ⟨exit, .join outputs,
        logger.opening ++ logger.text (entries.filter logger.passes) ++ .join errors⟩ := by
  obtain ⟨after, hentries⟩ := logger.foldl_write_entries (entries.filter logger.passes)
    ⟨exit, "", logger.opening⟩ logger.blank
  simp only [outcome, h, sequence, shown, List.foldl_append, hentries, foldl_write_outputs,
    foldl_write_errors, String.empty_append, Format.text]

end Logger

/-! ### All that a run writes but for what does not pass -/

def Write.entry? : Write → Option Entry
  | .entry noted => some noted
  | .output _ | .error _ => none

/-- The entries that a run leaves to a logger, whatever passes. -/
def Options.journal (options : Options) (content : Except ReadFailure ByteArray) : List Entry :=
  (options.course (fun _ => true) content).2.filterMap Write.entry?

namespace Options

variable {options : Options} {content : Except ReadFailure ByteArray} {exit : UInt8}
  {entries : List Entry} {outputs errors : List String} {text : String} {tree : Tree}

theorem filterMap_entry?_sequence (entries : List Entry) (outputs errors : List String) :
    (sequence (fun _ => true) entries outputs errors).filterMap Write.entry? = entries := by
  simp [sequence, shown, List.filterMap_append, List.filterMap_map, Function.comp_def, Write.entry?]

theorem journal_eq
    (h : options.course (fun _ => true) content =
      (exit, sequence (fun _ => true) entries outputs errors)) :
    options.journal content = entries := by
  rw [journal, h, filterMap_entry?_sequence]

/-- What is printed of a program, if there is one. -/
theorem exists_course_of_ok (htext : options.readText content = .ok text)
    (h : Tree.ofText text = .ok tree) :
    ∃ entries outputs, ∀ passes,
      options.course passes content = (0, sequence passes entries outputs []) := by
  cases hmode : options.mode with
  | tokens => exact ⟨_, _, fun passes => course_tokens passes htext hmode⟩
  | tree => exact ⟨_, _, fun passes => course_tree passes htext hmode h⟩
  | source => exact ⟨_, _, fun passes => course_source passes htext hmode h⟩
  | segments => exact ⟨_, _, fun passes => course_segments passes htext hmode h⟩

/-- A logger changes nothing but which entries are written, and these come first. There is output
only where there is no error. -/
theorem exists_course (options : Options) (content : Except ReadFailure ByteArray) :
    ∃ exit entries outputs errors, (exit = 0 ∧ errors = [] ∨ exit = 1 ∧ outputs = []) ∧
      ∀ passes, options.course passes content =
        (exit, sequence passes entries outputs errors) := by
  cases htext : options.readText content with
  | error failure =>
    exact ⟨1, _, _, _, Or.inr ⟨rfl, rfl⟩, fun passes => course_of_unreadable passes htext⟩
  | ok text =>
    by_cases hmode : options.mode = .tokens
    · exact ⟨0, _, _, _, Or.inl ⟨rfl, rfl⟩, fun passes => course_tokens passes htext hmode⟩
    · cases hread : Tree.ofText text with
      | error error =>
        exact ⟨1, _, _, _, Or.inr ⟨rfl, rfl⟩,
          fun passes => course_of_syntaxError passes htext hmode hread⟩
      | ok tree =>
        obtain ⟨entries, outputs, hcourse⟩ := exists_course_of_ok htext hread
        exact ⟨0, entries, outputs, [], Or.inl ⟨rfl, rfl⟩, hcourse⟩

end Options

/-! ### Toolkits -/

/-- The least number of requests for more detail that shows entries of a level. -/
def flagsFor : Level → Nat
  | .info => 1
  | .debug => 2
  | .trace => 3

/-- The input that the options ask for. -/
def Options.content (options : Options) (read : Option String → Except ReadFailure ByteArray) :
    Except ReadFailure ByteArray :=
  read (options.input.filter (!isStandardInput ·))

namespace Toolkit

/-- What is documented of filters that name a level: nothing is wrong with them, and entries pass
from that level up. -/
structure PassesByLevel (toolkit : Toolkit μ) : Prop where
  warning : ∀ name ∈ ["warn", "info", "debug", "trace"], toolkit.warning name = ""
  warn : ∀ entry, toolkit.passes "warn" entry = false
  info : ∀ entry, toolkit.passes "info" entry = decide (entry.level = .info)
  debug : ∀ entry, toolkit.passes "debug" entry = decide (entry.level ≠ .trace)
  trace : ∀ entry, toolkit.passes "trace" entry = true

/-- What is documented of the arguments that ask for more detail: they are counted, as far as eight
bits go, and change nothing else. -/
structure CountsVerbose (toolkit : Toolkit μ) : Prop where
  min_verbosity : ∀ arguments options, toolkit.readArguments arguments = .ok options →
    min options.verbosity 255 = min (verboseFlags arguments) 255
  quiet : ∀ arguments options, toolkit.readArguments arguments = .ok options →
    toolkit.readArguments (quiet arguments) = .ok (options.withVerbosity 0)

/-- What a command line prints where `read` tells the contents of all inputs. -/
def reply (toolkit : Toolkit μ) (environment : Option String) (arguments : List String)
    (read : Option String → Except ReadFailure ByteArray) : Outcome :=
  Id.run (toolkit.answer environment arguments fun name => pure (read name))

/-- What a logger writes of entries, with the filters of the environment or else those for the
verbosity. -/
def log (toolkit : Toolkit μ) (environment : Option String) (verbosity : Nat)
    (entries : List Entry) : String :=
  let filters := environment.getD (filters verbosity)
  toolkit.warning filters ++ toolkit.text (entries.filter (toolkit.passes filters))

variable {toolkit : Toolkit μ} {arguments : List String} {options : Options} {exit : UInt8}
  {entries : List Entry} {outputs errors : List String}
  {read : Option String → Except ReadFailure ByteArray} {text : String} {tree : Tree}
  {error : SyntaxError}

theorem passes_filters (h : toolkit.PassesByLevel) (n : Nat) (entry : Entry) :
    toolkit.passes (filters n) entry = decide (flagsFor entry.level ≤ n) := by
  obtain ⟨level, origin, message⟩ := entry
  match n with
  | 0 => cases level <;> exact h.warn _
  | 1 => cases level <;> exact h.info _
  | 2 => cases level <;> exact h.debug _
  | n + 3 =>
    have hfits : flagsFor level ≤ n + 3 := by cases level <;> simp [flagsFor]
    rw [decide_eq_true hfits]
    exact h.trace _

theorem warning_filters (h : toolkit.PassesByLevel) (n : Nat) :
    toolkit.warning (filters n) = "" := by
  apply h.warning
  unfold filters
  split <;> decide

/-- A count in eight bits is as good as any, since there are only three levels. -/
theorem flagsFor_le_iff (hcounts : toolkit.CountsVerbose)
    (h : toolkit.readArguments arguments = .ok options) (level : Level) :
    flagsFor level ≤ options.verbosity ↔ flagsFor level ≤ verboseFlags arguments := by
  have hmin := hcounts.min_verbosity arguments options h
  have hlevel : flagsFor level ≤ 3 := by cases level <;> decide
  omega

theorem log_none (hpasses : toolkit.PassesByLevel) (hcounts : toolkit.CountsVerbose)
    (h : toolkit.readArguments arguments = .ok options) (entries : List Entry) :
    toolkit.log none options.verbosity entries =
      toolkit.text (entries.filter (flagsFor ·.level ≤ verboseFlags arguments)) := by
  have hfilter : ∀ entry ∈ entries, toolkit.passes (filters options.verbosity) entry =
      decide (flagsFor entry.level ≤ verboseFlags arguments) := by
    intro entry _
    rw [passes_filters hpasses]
    exact decide_eq_decide.2 (flagsFor_le_iff hcounts h _)
  rw [log, Option.getD_none, List.filter_congr hfilter, warning_filters hpasses,
    String.empty_append]

theorem log_none_zero (hpasses : toolkit.PassesByLevel) (entries : List Entry) :
    toolkit.log none 0 entries = "" := by
  have hwarn : entries.filter (toolkit.passes (filters 0)) = [] :=
    List.filter_eq_nil_iff.2 fun entry _ => by rw [filters, hpasses.warn]; decide
  rw [log, Option.getD_none, hwarn, warning_filters hpasses]
  rfl

theorem reply_eq (environment : Option String) (h : toolkit.readArguments arguments = .ok options)
    (hcourse : ∀ passes, options.course passes (options.content read) =
      (exit, sequence passes entries outputs errors)) :
    toolkit.reply environment arguments read =
      ⟨exit, .join outputs,
        toolkit.log environment options.verbosity entries ++ .join errors⟩ := by
  have hreply : toolkit.reply environment arguments read =
      (toolkit.logger environment options.verbosity).outcome options (options.content read) := by
    simp only [reply, answer, h]
    rfl
  rw [hreply, Logger.outcome_of_course (hcourse _)]
  rfl

/-- Command lines that differ in the detail they ask for differ in what is logged. There is output
only where there is no error. -/
theorem exists_replies (hcounts : toolkit.CountsVerbose) (environment : Option String)
    (h : toolkit.readArguments arguments = .ok options)
    (read : Option String → Except ReadFailure ByteArray) :
    ∃ exit outputs errors, (exit = 0 ∧ errors = [] ∨ exit = 1 ∧ outputs = []) ∧
      toolkit.reply environment arguments read = ⟨exit, .join outputs,
        toolkit.log environment options.verbosity (options.journal (options.content read)) ++
          .join errors⟩ ∧
      toolkit.reply environment (quiet arguments) read = ⟨exit, .join outputs,
        toolkit.log environment 0 (options.journal (options.content read)) ++ .join errors⟩ := by
  obtain ⟨exit, entries, outputs, errors, hcases, hcourse⟩ :=
    options.exists_course (options.content read)
  rw [Options.journal_eq (hcourse _)]
  exact ⟨exit, outputs, errors, hcases, reply_eq environment h hcourse,
    reply_eq environment (hcounts.quiet arguments options h) hcourse⟩

theorem exit_reply_tokens (environment : Option String)
    (h : toolkit.readArguments arguments = .ok options)
    (htext : options.readText (options.content read) = .ok text) (hmode : options.mode = .tokens) :
    (toolkit.reply environment arguments read).exit = 0 := by
  rw [reply_eq environment h fun passes => Options.course_tokens passes htext hmode]

theorem exit_reply_of_ok (environment : Option String)
    (h : toolkit.readArguments arguments = .ok options)
    (htext : options.readText (options.content read) = .ok text)
    (htree : Tree.ofText text = .ok tree) :
    (toolkit.reply environment arguments read).exit = 0 := by
  obtain ⟨entries, outputs, hcourse⟩ := Options.exists_course_of_ok htext htree
  rw [reply_eq environment h hcourse]

theorem reply_of_syntaxError (environment : Option String)
    (h : toolkit.readArguments arguments = .ok options)
    (htext : options.readText (options.content read) = .ok text) (hmode : options.mode ≠ .tokens)
    (herror : Tree.ofText text = .error error) :
    toolkit.reply environment arguments read = ⟨1, "",
      toolkit.log environment options.verbosity (Journal.ofText text) ++
        (error.message ++ "\n")⟩ := by
  rw [reply_eq environment h fun passes => Options.course_of_syntaxError passes htext hmode herror]
  simp

theorem output_reply_segments (environment : Option String)
    (h : toolkit.readArguments arguments = .ok options)
    (htext : options.readText (options.content read) = .ok text)
    (hmode : options.mode = .segments) (htree : Tree.ofText text = .ok tree) :
    (toolkit.reply environment arguments read).output =
      lines (Options.rows options.places tree) := by
  rw [reply_eq environment h fun passes => Options.course_segments passes htext hmode htree]
  rfl

end Toolkit

theorem ofArguments_of_readArguments {arguments : List String} {options : Options}
    (h : readArguments arguments = .ok options) :
    Request.ofArguments arguments = some (.emit options) := by
  unfold readArguments at h
  split at h
  · cases h
  · cases h
  · rename_i hrequest
    cases h
    exact hrequest

theorem Toolkit.passesByLevel_standard : standard.PassesByLevel where
  warning _ _ := rfl
  warn _ := rfl
  info _ := rfl
  debug _ := rfl
  trace _ := rfl

theorem Toolkit.countsVerbose_standard : standard.CountsVerbose where
  min_verbosity arguments options h := by
    rw [(ofArguments_quiet (ofArguments_of_readArguments h)).1]
  quiet arguments options h := by
    have hquiet := (ofArguments_quiet (ofArguments_of_readArguments h)).2
    change CommandLine.readArguments (quiet arguments) = _
    simp only [CommandLine.readArguments, hquiet]

/-! ### Drawings -/

section

variable {options : Options} {content : Except ReadFailure ByteArray} {text : String} {tree : Tree}
  {entry : Entry}

theorem size_segments_evaluate (tree : Tree) :
    (Turtle.agent.evaluate tree .initial).segments.size =
      Turtle.penMoves false tree.actions := by
  rw [Agent.evaluate_eq_actAll, Turtle.size_segments_actAll]
  exact Nat.zero_add _

theorem length_rows (places : Option Nat) (tree : Tree) :
    (Options.rows places tree).length = Turtle.penMoves false tree.actions := by
  rw [Options.rows, List.length_map, Array.length_toList, size_segments_evaluate]

/-- The output of a drawing has a line for each move made with the pen down. -/
theorem isLine_of_mem_rows (h : Tree.ofText text = .ok tree) (places : Option Nat) :
    ∀ row ∈ Options.rows places tree, IsLine row := by
  have hlined : (Turtle.agent.evaluate tree .initial).Lined := by
    rw [Agent.evaluate_eq_actAll]
    apply Turtle.lined_actAll Turtle.lined_initial
    intro color hcolor
    exact (Tree.isCode_of_mem_actions h hcolor).isLine_text
  intro row hrow
  obtain ⟨segment, hsegment, rfl⟩ := List.mem_map.1 hrow
  exact Segment.isLine_text (hlined.segments segment (Array.mem_toList_iff.1 hsegment)) places

theorem level_of_mem_ofPieces {pieces : List Piece} (h : entry ∈ Journal.ofPieces pieces) :
    entry.level = .debug := by
  rcases List.mem_append.1 h with h | h
  · obtain ⟨piece, _, rfl⟩ := List.mem_map.1 h
    rfl
  · obtain rfl := List.mem_singleton.1 h
    rfl

theorem level_of_mem_ofTree (h : entry ∈ Journal.ofTree tree) : entry.level = .trace := by
  rw [Journal.ofTree_eq_map_visits] at h
  obtain ⟨instruction, _, rfl⟩ := List.mem_map.1 h
  rfl

theorem level_ne_info_of_mem_ofText (h : Tree.ofText text = .ok tree)
    (hentry : entry ∈ Journal.ofText text) : entry.level ≠ .info := by
  rw [Journal.ofText_of_ok h] at hentry
  rcases List.mem_append.1 hentry with hentry | hentry
  · simp [level_of_mem_ofPieces hentry]
  · simp [level_of_mem_ofTree hentry]

theorem filter_info_of_le {flags : Nat} (h : 1 ≤ flags) (entries : List Entry) :
    (entries.filter (flagsFor ·.level ≤ flags)).filter (·.level = .info) =
      entries.filter (·.level = .info) := by
  rw [List.filter_filter]
  apply List.filter_congr
  intro entry _
  by_cases hinfo : entry.level = .info
  · simp [hinfo, flagsFor, h]
  · simp [hinfo]

/-- Of a drawing only its size is worth an entry that is not about details. -/
theorem filter_info_journal (htext : options.readText content = .ok text)
    (hmode : options.mode = .segments) (h : Tree.ofText text = .ok tree) :
    (options.journal content).filter (·.level = .info) =
      [drawn (Turtle.agent.evaluate tree .initial)] := by
  have hnone : (Journal.ofText text).filter (·.level = .info) = [] := by
    apply List.filter_eq_nil_iff.2
    intro entry hentry
    simpa using level_ne_info_of_mem_ofText h hentry
  rw [Options.journal_eq (Options.course_segments _ htext hmode h), List.filter_append, hnone]
  rfl

end

/-- How much detail a command line asks for changes the lines of the journal alone, which come
before all other errors, and not even those where the environment has filters. Nothing is printed of
a run that fails. Tokens are printed of any text; else a text that is no program fails with its
error, and a drawing has a line for each move made with the pen down. -/
theorem reply_quiet (toolkit : Toolkit μ) (hpasses : toolkit.PassesByLevel)
    (hcounts : toolkit.CountsVerbose) (environment : Option String) (arguments : List String)
    (options : Options) (read : Option String → Except ReadFailure ByteArray)
    (h : toolkit.readArguments arguments = .ok options) :
    let loud := toolkit.reply environment arguments read
    let still := toolkit.reply environment (quiet arguments) read
    let journal := options.journal (options.content read)
    loud.exit = still.exit ∧ loud.output = still.output ∧
    (∀ filters, environment = some filters → loud.errors = still.errors) ∧
    (environment = none → loud.errors =
      toolkit.text (journal.filter (flagsFor ·.level ≤ verboseFlags arguments)) ++
        still.errors) ∧
    (environment = none → still.exit = 0 → still.errors = "") ∧
    (loud.exit = 1 → loud.output = "") ∧
    ∀ text : String, options.content read = .ok text.toUTF8 →
      (options.mode = .tokens → loud.exit = 0) ∧
      (∀ tree, Tree.ofText text = .ok tree → loud.exit = 0) ∧
      (options.mode ≠ .tokens → ∀ error, Tree.ofText text = .error error →
        loud.exit = 1 ∧ IsLine error.message ∧
        loud.errors = toolkit.log environment options.verbosity (Journal.ofText text) ++
          (error.message ++ "\n") ∧
        (environment = none → still.errors = error.message ++ "\n")) ∧
      (options.mode = .segments → ∀ tree, Tree.ofText text = .ok tree →
        ∃ rows, loud.output = lines rows ∧ (∀ row ∈ rows, IsLine row) ∧
          rows.length = Turtle.penMoves false tree.actions ∧
          ∀ flags, 1 ≤ flags →
            (journal.filter (flagsFor ·.level ≤ flags)).filter (·.level = .info) =
              [⟨.info, .command, "drew " ++ rows.length.repr ++ " segment(s)"⟩]) := by
  intro loud still journal
  obtain ⟨exit, outputs, errors, hcases, hloud, hstill⟩ :=
    Toolkit.exists_replies hcounts environment h read
  change loud = _ at hloud
  change still = _ at hstill
  refine ⟨?_, ?_, ?_, ?_, ?_, ?_, ?_⟩
  · rw [hloud, hstill]
  · rw [hloud, hstill]
  · rintro filters rfl
    rw [hloud, hstill]
    rfl
  · rintro rfl
    rw [hloud, hstill]
    simp only [Toolkit.log_none hpasses hcounts h, Toolkit.log_none_zero hpasses,
      String.empty_append]
    rfl
  · rintro rfl hexit
    rw [hstill] at hexit ⊢
    rcases hcases with ⟨_, rfl⟩ | ⟨rfl, _⟩
    · simp only [Toolkit.log_none_zero hpasses, String.join_nil, String.empty_append]
    · cases hexit
  · intro hexit
    rw [hloud] at hexit ⊢
    rcases hcases with ⟨rfl, _⟩ | ⟨_, rfl⟩
    · cases hexit
    · rfl
  intro text hcontent
  have htext : options.readText (options.content read) = .ok text := by
    rw [hcontent, Options.readText_toUTF8]
  refine ⟨?_, ?_, ?_, ?_⟩
  · exact Toolkit.exit_reply_tokens environment h htext
  · intro tree htree
    exact Toolkit.exit_reply_of_ok environment h htext htree
  · intro hmode error herror
    have hfails : loud = _ := Toolkit.reply_of_syntaxError environment h htext hmode herror
    refine ⟨?_, SyntaxError.isLine_message herror, ?_, ?_⟩
    · rw [hfails]
    · rw [hfails]
    · rintro rfl
      have hread := hcounts.quiet arguments options h
      have hquiet : still = _ := Toolkit.reply_of_syntaxError none hread htext hmode herror
      rw [hquiet]
      exact (congrArg (· ++ _) (Toolkit.log_none_zero hpasses _)).trans String.empty_append
  · intro hmode tree htree
    refine ⟨Options.rows options.places tree,
      Toolkit.output_reply_segments environment h htext hmode htree, isLine_of_mem_rows htree _,
      length_rows _ tree, ?_⟩
    intro flags hflags
    rw [filter_info_of_le hflags, filter_info_journal htext hmode htree, drawn,
      size_segments_evaluate, length_rows]

/-- One of two moves is made with the pen down, and of the journal only that is shown. The filters
of an environment are the same with a request for more detail and without. -/
theorem reply_quiet_one_stroke :
    let read : Option String → Except ReadFailure ByteArray :=
      fun _ => .ok "FORWARD 1. DOWN. BACK 1.".toUTF8
    let loud := Toolkit.standard.reply none ["-v", "--", "square"] read
    Toolkit.standard.readArguments ["-v", "--", "square"] = .ok ⟨some "square", none, none, 1⟩ ∧
      quiet ["-v", "--", "square"] = ["--", "square"] ∧
      loud.exit = 0 ∧ (∃ row, loud.output = lines [row] ∧ IsLine row) ∧
      loud.errors = " INFO  turtle > drew 1 segment(s)\n" ∧
      (Toolkit.standard.reply (some "debug") ["-v", "--", "square"] read).errors =
        (Toolkit.standard.reply (some "debug") ["--", "square"] read).errors := by
  intro read loud
  have hoptions : Toolkit.standard.readArguments ["-v", "--", "square"] =
      .ok ⟨some "square", none, none, 1⟩ := by
    decide +kernel
  have hquiet : quiet ["-v", "--", "square"] = ["--", "square"] := by decide +kernel
  have hflags : verboseFlags ["-v", "--", "square"] = 1 := by decide +kernel
  have htokens : Token.ofText "FORWARD 1. DOWN. BACK 1." =
      [⟨.move .forward, 1⟩, ⟨.number 1, 1⟩, ⟨.period, 1⟩, ⟨.penDown, 1⟩, ⟨.period, 1⟩,
        ⟨.move .backward, 1⟩, ⟨.number 1, 1⟩, ⟨.period, 1⟩, ⟨.endOfInput, 1⟩] := by
    decide +kernel
  have htree : Tree.ofText "FORWARD 1. DOWN. BACK 1." =
      .ok (.program [.leaf (.move .forward 1), .leaf .penDown, .leaf (.move .backward 1)]) :=
    (congrArg Tree.ofTokens htokens).trans rfl
  obtain ⟨hexit, _, _, hlog, hstill, _, htexts⟩ :=
    reply_quiet Toolkit.standard Toolkit.passesByLevel_standard Toolkit.countsVerbose_standard none
      ["-v", "--", "square"] _ read hoptions
  obtain ⟨_, _, hfilters, _⟩ :=
    reply_quiet Toolkit.standard Toolkit.passesByLevel_standard Toolkit.countsVerbose_standard
      (some "debug") ["-v", "--", "square"] _ read hoptions
  obtain ⟨_, hruns, _, hsegments⟩ := htexts _ rfl
  obtain ⟨rows, houtput, hrows, hlength, hinfo⟩ := hsegments rfl _ htree
  obtain ⟨row, rfl⟩ := List.length_eq_one_iff.1 (hlength.trans rfl)
  refine ⟨hoptions, hquiet, hruns _ htree, ⟨row, houtput, hrows row List.mem_cons_self⟩, ?_, ?_⟩
  · have hone : ∀ entries : List Entry, entries.filter (flagsFor ·.level ≤ 1) =
        entries.filter (·.level = .info) := by
      intro entries
      apply List.filter_congr
      rintro ⟨level, _, _⟩ _
      cases level <;> rfl
    have hshown := hinfo 1 (Nat.le_refl 1)
    rw [filter_info_of_le (Nat.le_refl 1), ← hone] at hshown
    rw [hlog rfl, hflags, hshown, hstill rfl (hexit.symm.trans (hruns _ htree)),
      List.length_singleton]
    decide +kernel
  · rw [hfilters "debug" rfl, hquiet]

end TurtleGraphics.CommandLine
