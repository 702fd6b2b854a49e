import TurtleGraphics.Proofs.Step

/-! What has been read of a program, and that all of it is well formed. -/
namespace TurtleGraphics

namespace Parse

/-- A statement that may stand inside `depth` loops. -/
def Fits (depth : Nat) (statement : Tree) : Prop :=
  statement.IsStatement ∧ depth + statement.nesting ≤ nestingLimit

namespace Scope

variable {scope outer : Scope} {statement body : Tree} {done : List Tree} {count : UInt32}

/-- What has been read of a scope and of those around it. -/
def spelling : Scope → List Token.Kind
  | program done => done.reverse.flatMap Tree.spelling
  | quoted count done outer =>
    outer.spelling ++ [.loop, .number count, .quote] ++ done.reverse.flatMap Tree.spelling
  | bare count outer => outer.spelling ++ [.loop, .number count]

/-- All statements read fit where they stand, and an open loop may hold one. -/
def WellFormed : Scope → Prop
  | program done => ∀ statement ∈ done, Fits 0 statement
  | quoted _ done outer =>
    outer.WellFormed ∧ outer.depth < nestingLimit ∧
      ∀ statement ∈ done, Fits (outer.depth + 1) statement
  | bare _ outer => outer.WellFormed ∧ outer.depth < nestingLimit

theorem depth_add_le (scope : Scope) (statement : Tree) :
    (scope.add statement).depth ≤ scope.depth := by
  induction scope generalizing statement with
  | program done => exact Nat.le_refl _
  | quoted count done outer _ => exact Nat.le_refl _
  | bare count outer ih => exact Nat.le_succ_of_le (ih _)

theorem depth_le_of_wellFormed (hs : scope.WellFormed) : scope.depth ≤ nestingLimit := by
  cases scope with
  | program done => exact Nat.zero_le _
  | quoted count done outer => exact hs.2.1
  | bare count outer => exact hs.2

theorem fits_loop_of_bare (h : Fits (outer.depth + 1) statement) :
    Fits outer.depth (.loop count statement) := by
  refine ⟨.bare h.1, ?_⟩
  have hn := h.2
  simp only [Tree.nesting]
  omega

theorem fits_loop_of_quoted (hdepth : outer.depth < nestingLimit)
    (hdone : ∀ statement ∈ done, Fits (outer.depth + 1) statement)
    (hbody : Tree.body? done.reverse = some body) :
    Fits outer.depth (.loop count body) := by
  have hdone' : ∀ statement ∈ done.reverse, Fits (outer.depth + 1) statement := by
    intro statement hs
    exact hdone statement (List.mem_reverse.1 hs)
  refine ⟨.quoted (fun statement hs => (hdone' statement hs).1) hbody, ?_⟩
  have hnesting : body.nesting ≤ nestingLimit - (outer.depth + 1) := by
    refine (Tree.nesting_body?_le_iff hbody).2 ?_
    intro statement hs
    have := (hdone' statement hs).2
    omega
  simp only [Tree.nesting]
  omega

theorem wellFormed_add (hs : scope.WellFormed) (h : Fits scope.depth statement) :
    (scope.add statement).WellFormed := by
  induction scope generalizing statement with
  | program done => exact List.forall_mem_cons.2 ⟨h, hs⟩
  | quoted count done outer _ => exact ⟨hs.1, hs.2.1, List.forall_mem_cons.2 ⟨h, hs.2.2⟩⟩
  | bare count outer ih => exact ih hs.1 (fits_loop_of_bare h)

theorem spelling_add (h : statement.IsStatement) :
    (scope.add statement).spelling = scope.spelling ++ statement.spelling := by
  induction scope generalizing statement with
  | program done => simp [add, spelling]
  | quoted count done outer _ => simp [add, spelling]
  | bare count outer ih =>
    rw [add, ih (.bare h)]
    simp [spelling, Tree.spelling, h.isSpine_eq_false]

end Scope

/-- What has been read of an unfinished instruction. -/
def Need.spelling : Need → List Token.Kind
  | statement => []
  | amount direction => [.move direction]
  | color => [.color]
  | count => [.loop]
  | period instruction _ => instruction.spelling.dropLast

/-- A loop may only begin where one fits, and an end marker never. -/
def Need.WellFormed (depth : Nat) : Need → Prop
  | count => depth < nestingLimit
  | period instruction _ => instruction ≠ .endMarker
  | _ => True

namespace State

variable {state next : State} {token : Token} {tokens : List Token}

/-- What has been read. -/
def spelling (state : State) : List Token.Kind :=
  state.scope.spelling ++ state.need.spelling

def WellFormed (state : State) : Prop :=
  state.scope.WellFormed ∧ state.need.WellFormed state.scope.depth

theorem wellFormed_initial : initial.WellFormed := by
  refine ⟨?_, trivial⟩
  intro statement h
  cases h

theorem wellFormed_step (hs : state.WellFormed) (h : Step state token next) : next.WellFormed := by
  obtain ⟨hscope, hneed⟩ := hs
  cases h with
  | move => exact ⟨hscope, trivial⟩
  | penUp => exact ⟨hscope, by intro h; cases h⟩
  | penDown => exact ⟨hscope, by intro h; cases h⟩
  | color => exact ⟨hscope, trivial⟩
  | loop hdepth => exact ⟨hscope, hdepth⟩
  | opening => exact ⟨⟨hscope.1, hscope.2, by intro statement h; cases h⟩, trivial⟩
  | closing hbody =>
    obtain ⟨houter, hdepth, hdone⟩ := hscope
    exact ⟨Scope.wellFormed_add houter (Scope.fits_loop_of_quoted hdepth hdone hbody), trivial⟩
  | amount => exact ⟨hscope, by intro h; cases h⟩
  | literal => exact ⟨hscope, by intro h; cases h⟩
  | count => exact ⟨⟨hscope, hneed⟩, trivial⟩
  | period =>
    have hdepth := Scope.depth_le_of_wellFormed hscope
    exact ⟨Scope.wellFormed_add hscope ⟨.leaf hneed, hdepth⟩, trivial⟩

theorem spelling_step (hs : state.WellFormed) (h : Step state token next) :
    next.spelling = state.spelling ++ [token.kind.normal] := by
  obtain ⟨hscope, hneed⟩ := hs
  cases h with
  | closing hbody =>
    obtain ⟨_, hdepth, hdone⟩ := hscope
    simp only [spelling, Scope.spelling_add (Scope.fits_loop_of_quoted hdepth hdone hbody).1,
      Tree.spelling, Tree.isSpine_of_body? hbody, Tree.spelling_body? hbody]
    simp [Scope.spelling, Need.spelling, Token.Kind.normal]
  | period =>
    simp only [spelling, Scope.spelling_add (.leaf hneed), Need.spelling, Tree.spelling,
      Token.Kind.normal, List.append_assoc, List.append_nil]
    rw [Instruction.dropLast_spelling hneed]
  | _ =>
    simp [spelling, Scope.spelling, Need.spelling, Instruction.spelling, Token.Kind.normal]

theorem invariant_run? (hs : state.WellFormed) (h : state.run? tokens = some next) :
    next.WellFormed ∧ next.spelling = state.spelling ++ tokens.map (·.kind.normal) := by
  induction tokens generalizing state with
  | nil =>
    cases h
    exact ⟨hs, by simp⟩
  | cons token tokens ih =>
    obtain ⟨middle, hnext, hrun⟩ := Option.bind_eq_some_iff.1 h
    have hstep := next?_eq_some_iff.1 hnext
    obtain ⟨hwell, hspelling⟩ := ih (wellFormed_step hs hstep) hrun
    refine ⟨hwell, ?_⟩
    rw [hspelling, spelling_step hs hstep]
    simp

end State

end Parse

end TurtleGraphics
