import TurtleGraphics.Proofs.Actions
import TurtleGraphics.Turtle

/-! How far a tree turns a turtle, added up over the tree without running it. -/
namespace TurtleGraphics

/-- The degrees that an instruction turns by. To the left they count up. -/
def Instruction.rotation : Instruction → Int
  | move .left amount => amount.toNat
  | move .right amount => -amount.toNat
  | move .forward _ | move .backward _ | penUp | penDown | setColor _ | endMarker => 0

/-- A turn as it is. Anything else is as good as the end marker. -/
def Instruction.turning : Instruction → Instruction
  | move .left amount => move .left amount
  | move .right amount => move .right amount
  | move .forward _ | move .backward _ | penUp | penDown | setColor _ | endMarker => endMarker

namespace Tree

/-- The degrees that a tree turns by in all, exact however many they are. -/
def rotation : Tree → Int
  | seq current rest => current.rotation + rest.rotation
  | last current => current.rotation
  | loop count body => count.toNat * body.rotation
  | leaf instruction => instruction.rotation

/-- What is left of a tree without all that does not turn. -/
def turning : Tree → Tree
  | seq current rest => seq current.turning rest.turning
  | last current => last current.turning
  | loop count body => loop count body.turning
  | leaf instruction => leaf instruction.turning

theorem rotation_turning (tree : Tree) : tree.turning.rotation = tree.rotation := by
  induction tree with
  | seq current rest ihc ihr => simp only [turning, rotation, ihc, ihr]
  | last current ih => exact ih
  | loop count body ih => simp only [turning, rotation, ih]
  | leaf instruction =>
    cases instruction with
    | move direction amount => cases direction <;> rfl
    | _ => rfl

end Tree

namespace Turtle

variable {run : Turtle → Turtle} {degrees : Int}

theorem heading_perform (instruction : Instruction) (turtle : Turtle) :
    (agent.perform instruction turtle).heading =
      turtle.heading + Int64.ofInt instruction.rotation := by
  cases instruction with
  | move direction amount =>
    cases direction with
    | left => rw [Instruction.rotation, Int64.ofInt_eq_ofNat]; rfl
    | right => rw [Instruction.rotation, Int64.ofInt_neg, Int64.ofInt_eq_ofNat]; rfl
    | forward | backward => exact (Int64.add_zero _).symm
  | _ => exact (Int64.add_zero _).symm

/-- Wrapping additions, one for each round, add up to one multiplication. -/
theorem heading_repeat (h : ∀ turtle, (run turtle).heading = turtle.heading + Int64.ofInt degrees)
    (n : Nat) (turtle : Turtle) :
    (Nat.repeat run n turtle).heading = turtle.heading + Int64.ofInt (n * degrees) := by
  induction n with
  | zero => simp [Nat.repeat]
  | succ n ih =>
    have hmul : ((n + 1 : Nat) : Int) * degrees = n * degrees + degrees := by
      rw [Int.natCast_add, Int.add_mul, Int.natCast_one, Int.one_mul]
    rw [Nat.repeat, h, ih, hmul, Int64.ofInt_add, Int64.add_assoc]

theorem heading_evaluate (tree : Tree) (turtle : Turtle) :
    (agent.evaluate tree turtle).heading = turtle.heading + Int64.ofInt tree.rotation := by
  induction tree generalizing turtle with
  | seq current rest ihc ihr =>
    rw [Agent.evaluate_seq, ihr, ihc, Tree.rotation, Int64.ofInt_add, Int64.add_assoc]
  | last current ih => exact ih turtle
  | loop count body ih => exact heading_repeat ih count.toNat turtle
  | leaf instruction => exact heading_perform instruction turtle

theorem toInt_heading_evaluate (tree : Tree) (turtle : Turtle) :
    (agent.evaluate tree turtle).heading.toInt =
      (turtle.heading.toInt + tree.rotation).bmod Int64.size := by
  rw [heading_evaluate, Int64.toInt_add, Int64.toInt_ofInt]
  exact Int.add_bmod_bmod

/-- A tree adds its rotation to the heading, reduced to 64 bits. So the heading is exact wherever
the sum fits in them, whatever the headings on the way, and nothing but turns matters for it. -/
theorem heading_evaluate_eq_bmod (tree : Tree) (turtle : Turtle) :
    (agent.evaluate tree turtle).heading.toInt =
      (turtle.heading.toInt + tree.rotation).bmod Int64.size ∧
    (Int64.minValue.toInt ≤ turtle.heading.toInt + tree.rotation →
      turtle.heading.toInt + tree.rotation ≤ Int64.maxValue.toInt →
      (agent.evaluate tree turtle).heading.toInt = turtle.heading.toInt + tree.rotation) ∧
    ∀ (other : Tree) (start : Turtle), other.turning = tree.turning →
      start.heading = turtle.heading →
      (agent.evaluate other start).heading = (agent.evaluate tree turtle).heading := by
  refine ⟨toInt_heading_evaluate tree turtle, ?_, ?_⟩
  · intro hlow hhigh
    rw [toInt_heading_evaluate, ← Int64.toInt_ofInt]
    exact Int64.toInt_ofInt_of_le hlow (Int.lt_add_one_of_le hhigh)
  · intro other start hturning hheading
    rw [heading_evaluate, heading_evaluate, hheading, ← Tree.rotation_turning other, hturning,
      Tree.rotation_turning]

/-- The heading wraps around on the way there and comes back to what it should be. -/
theorem heading_evaluate_there_and_back :
    let there : Tree := .loop 4294967295 (.loop 4294967295 (.leaf (.move .left 4294967295)))
    let back : Tree := .loop 4294967295 (.loop 4294967295 (.leaf (.move .right 4294967295)))
    let still : Tree := .program [there, .leaf .penUp, back, .leaf (.move .left 90)]
    let moved : Tree := .program [there, .leaf (.move .forward 7), back, .leaf (.move .left 90)]
    there.rotation = 79228162458924105385300197375 ∧
      (agent.evaluate there initial).heading.toInt = 12884901887 ∧
      (agent.evaluate still initial).heading.toInt = 90 ∧
      (agent.evaluate moved { initial with penDown := true }).heading.toInt = 90 := by
  intro there back still moved
  -- The cube of 4294967295 is beyond 64 bits, and its lowest 64 bits are 12884901887.
  have hthere : there.rotation = 79228162458924105385300197375 := rfl
  have hstill : (agent.evaluate still initial).heading.toInt = 90 :=
    (heading_evaluate_eq_bmod still initial).2.1 (by decide) (by decide)
  have hmoved := (heading_evaluate_eq_bmod still initial).2.2 moved
    { initial with penDown := true } rfl rfl
  exact ⟨hthere, (heading_evaluate_eq_bmod there initial).1, hstill,
    (congrArg Int64.toInt hmoved).trans hstill⟩

end Turtle

end TurtleGraphics
