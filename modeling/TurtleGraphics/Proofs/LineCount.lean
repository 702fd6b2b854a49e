import TurtleGraphics.Proofs.Actions
import TurtleGraphics.Turtle

/-! How many lines a tree draws, counted over the tree without running its loops. -/
namespace TurtleGraphics

/-- Where an instruction puts the pen, if it is about the pen. -/
def Instruction.pen? : Instruction → Option Bool
  | penUp => some false
  | penDown => some true
  | move _ _ | setColor _ | endMarker => none

/-- The lines that an instruction draws with the pen down, or up. -/
def Instruction.lineCount (instruction : Instruction) (down : Bool) : Nat :=
  match instruction with
  | move .forward _ | move .backward _ => if down then 1 else 0
  | move .left _ | move .right _ | penUp | penDown | setColor _ | endMarker => 0

namespace Tree

/-- Where a tree puts the pen, unless it leaves the pen alone. All rounds of a loop agree on that.
-/
def pen? : Tree → Option Bool
  | seq current rest => rest.pen?.or current.pen?
  | last current => current.pen?
  | loop count body => if count.toNat = 0 then none else body.pen?
  | leaf instruction => instruction.pen?

/-- The lines that a tree draws from where the pen is. The first round of a loop may find the pen
elsewhere than all the others do. -/
def lineCount : Tree → Bool → Nat
  | seq current rest, down => current.lineCount down + rest.lineCount (current.pen?.getD down)
  | last current, down => current.lineCount down
  | loop count body, down =>
    if count.toNat = 0 then 0
    else body.lineCount down + (count.toNat - 1) * body.lineCount (body.pen?.getD down)
  | leaf instruction, down => instruction.lineCount down

/-- Whether a new turtle, but for where its pen is, has the pen down after a tree. -/
def penAfter (tree : Tree) (down : Bool) : Bool :=
  (Turtle.agent.evaluate tree { Turtle.initial with penDown := down }).penDown

/-- The number of lines that a new turtle, but for where its pen is, draws. -/
def linesDrawn (tree : Tree) (down : Bool) : Nat :=
  (Turtle.agent.evaluate tree { Turtle.initial with penDown := down }).segments.size

end Tree

namespace Turtle

variable {run : Turtle → Turtle} {pen? : Option Bool} {lines : Bool → Nat}

theorem penDown_perform (instruction : Instruction) (turtle : Turtle) :
    (agent.perform instruction turtle).penDown = instruction.pen?.getD turtle.penDown := by
  cases instruction with
  | move direction amount => cases direction <;> rfl
  | _ => rfl

theorem size_segments_perform (instruction : Instruction) (turtle : Turtle) :
    (agent.perform instruction turtle).segments.size =
      turtle.segments.size + instruction.lineCount turtle.penDown := by
  cases instruction with
  | move direction amount =>
    cases direction with
    | forward | backward => exact size_segments_move _ turtle
    | left | right => rfl
  | _ => rfl

/-- After the first round the pen stays where that has put it. -/
theorem penDown_repeat (hpen : ∀ turtle, (run turtle).penDown = pen?.getD turtle.penDown) (n : Nat)
    (turtle : Turtle) :
    (Nat.repeat run (n + 1) turtle).penDown = pen?.getD turtle.penDown := by
  induction n with
  | zero => exact hpen turtle
  | succ n ih => rw [Nat.repeat, hpen, ih, ← Option.getD_or, Option.or_self]

/-- All rounds after the first find the pen in the same place, so they draw as much as another. -/
theorem size_segments_repeat (hpen : ∀ turtle, (run turtle).penDown = pen?.getD turtle.penDown)
    (hsize : ∀ turtle, (run turtle).segments.size = turtle.segments.size + lines turtle.penDown)
    (n : Nat) (turtle : Turtle) :
    (Nat.repeat run (n + 1) turtle).segments.size =
      turtle.segments.size + (lines turtle.penDown + n * lines (pen?.getD turtle.penDown)) := by
  induction n with
  | zero => simpa [Nat.repeat] using hsize turtle
  | succ n ih =>
    rw [Nat.repeat, hsize, ih, penDown_repeat hpen, Nat.succ_mul]
    omega

theorem penDown_evaluate (tree : Tree) (turtle : Turtle) :
    (agent.evaluate tree turtle).penDown = tree.pen?.getD turtle.penDown := by
  induction tree generalizing turtle with
  | seq current rest ihc ihr =>
    rw [Agent.evaluate_seq, ihr, ihc, Tree.pen?, Option.getD_or]
  | last current ih => exact ih turtle
  | loop count body ih =>
    rw [Agent.evaluate_loop, Tree.pen?]
    cases count.toNat with
    | zero => rfl
    | succ n => exact penDown_repeat ih n turtle
  | leaf instruction => exact penDown_perform instruction turtle

theorem size_segments_evaluate_eq (tree : Tree) (turtle : Turtle) :
    (agent.evaluate tree turtle).segments.size =
      turtle.segments.size + tree.lineCount turtle.penDown := by
  induction tree generalizing turtle with
  | seq current rest ihc ihr =>
    rw [Agent.evaluate_seq, ihr, ihc, penDown_evaluate, Tree.lineCount, Nat.add_assoc]
  | last current ih => exact ih turtle
  | loop count body ih =>
    rw [Agent.evaluate_loop, Tree.lineCount]
    cases count.toNat with
    | zero => rfl
    | succ n => exact size_segments_repeat (penDown_evaluate body) ih n turtle
  | leaf instruction => exact size_segments_perform instruction turtle

end Turtle

namespace Tree

variable {tree : Tree} {down : Bool} {count : UInt32}

theorem count_ne_zero_of_one_le (h : 1 ≤ count) : count.toNat ≠ 0 :=
  Nat.ne_of_gt (UInt32.le_iff_toNat_le.1 h)

theorem penAfter_eq (tree : Tree) (down : Bool) : tree.penAfter down = tree.pen?.getD down :=
  Turtle.penDown_evaluate tree _

theorem linesDrawn_eq (tree : Tree) (down : Bool) : tree.linesDrawn down = tree.lineCount down := by
  rw [linesDrawn, Turtle.size_segments_evaluate_eq]
  exact Nat.zero_add _

theorem penAfter_penAfter (tree : Tree) (down : Bool) :
    tree.penAfter (tree.penAfter down) = tree.penAfter down := by
  simp only [penAfter_eq, ← Option.getD_or, Option.or_self]

theorem penAfter_loop (h : 1 ≤ count) : (loop count tree).penAfter down = tree.penAfter down := by
  rw [penAfter_eq, penAfter_eq, pen?, if_neg (count_ne_zero_of_one_le h)]

theorem linesDrawn_loop (h : 1 ≤ count) :
    (loop count tree).linesDrawn down =
      tree.linesDrawn down + (count.toNat - 1) * tree.linesDrawn (tree.penAfter down) := by
  rw [linesDrawn_eq, linesDrawn_eq, linesDrawn_eq, penAfter_eq, lineCount,
    if_neg (count_ne_zero_of_one_le h)]

theorem penAfter_seq (current rest : Tree) (down : Bool) :
    (seq current rest).penAfter down = rest.penAfter (current.penAfter down) := by
  rw [penAfter_eq, penAfter_eq, penAfter_eq, pen?, Option.getD_or]

theorem linesDrawn_seq (current rest : Tree) (down : Bool) :
    (seq current rest).linesDrawn down =
      current.linesDrawn down + rest.linesDrawn (current.penAfter down) := by
  rw [linesDrawn_eq, linesDrawn_eq, linesDrawn_eq, penAfter_eq, lineCount]

/-- What a tree draws and where it leaves the pen depend on nothing of a turtle but where the pen
is. A tree run again leaves the pen where it is, so all rounds of a loop after its first draw
alike, and the lines of a program can be counted without running its loops. -/
theorem linesDrawn_uniform (tree : Tree) :
    (∀ turtle : Turtle,
      (Turtle.agent.evaluate tree turtle).penDown = tree.penAfter turtle.penDown ∧
      (Turtle.agent.evaluate tree turtle).segments.size =
        turtle.segments.size + tree.linesDrawn turtle.penDown) ∧
    (∀ down, tree.penAfter (tree.penAfter down) = tree.penAfter down) ∧
    (∀ (count : UInt32) (down : Bool), 1 ≤ count →
      (loop count tree).linesDrawn down =
        tree.linesDrawn down + (count.toNat - 1) * tree.linesDrawn (tree.penAfter down) ∧
      (loop count tree).penAfter down = tree.penAfter down) ∧
    (∀ turtle, Turtle.agent.evaluate (loop 0 tree) turtle = turtle) ∧
    (∀ (rest : Tree) (down : Bool),
      (seq tree rest).linesDrawn down =
        tree.linesDrawn down + rest.linesDrawn (tree.penAfter down) ∧
      (seq tree rest).penAfter down = rest.penAfter (tree.penAfter down)) ∧
    (∀ down, (last tree).linesDrawn down = tree.linesDrawn down ∧
      (last tree).penAfter down = tree.penAfter down) ∧
    ∀ down, tree.linesDrawn down = tree.lineCount down ∧
      tree.penAfter down = tree.pen?.getD down := by
  refine ⟨?_, tree.penAfter_penAfter, ?_, fun _ => rfl, ?_, fun _ => ⟨rfl, rfl⟩, ?_⟩
  · intro turtle
    rw [penAfter_eq, linesDrawn_eq]
    exact ⟨Turtle.penDown_evaluate tree turtle, Turtle.size_segments_evaluate_eq tree turtle⟩
  · intro count down hcount
    exact ⟨linesDrawn_loop hcount, penAfter_loop hcount⟩
  · intro rest down
    exact ⟨linesDrawn_seq tree rest down, penAfter_seq tree rest down⟩
  · intro down
    exact ⟨tree.linesDrawn_eq down, tree.penAfter_eq down⟩

/-- The first of two moves in a body is made with the pen up in the first round alone. -/
theorem linesDrawn_uniform_late_pen :
    let body : Tree := .seq (.leaf (.move .forward 1))
      (.seq (.leaf .penDown) (.last (.leaf (.move .backward 1))))
    body.linesDrawn false = 1 ∧ body.linesDrawn true = 2 ∧ body.penAfter false = true ∧
      (loop 4294967295 body).linesDrawn false = 8589934589 ∧
      (loop 4294967295 body).penAfter false = true := by
  intro body
  have h := linesDrawn_uniform body
  obtain ⟨_, _, hloop, _, _, _, hcount⟩ := h
  have hfirst : body.linesDrawn false = 1 := (hcount false).1
  have hlater : body.linesDrawn true = 2 := (hcount true).1
  have hpen : body.penAfter false = true := (hcount false).2
  obtain ⟨hlines, hafter⟩ := hloop 4294967295 false (by decide)
  rw [hfirst, hpen, hlater] at hlines
  exact ⟨hfirst, hlater, hpen, hlines, hafter.trans hpen⟩

end Tree

end TurtleGraphics
