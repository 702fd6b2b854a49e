import TurtleGraphics.SyntaxError
import TurtleGraphics.Tree

/-! The statements that programs are made of, and the token kinds each is written with. -/
namespace TurtleGraphics

universe u

/-- A color literal counts as the color it stands for, in upper case. -/
def Token.Kind.normal : Kind → Kind
  | colorLiteral text => colorLiteral (Color.ofText text).text
  | kind => kind

/-- The tokens before the first end of input. -/
def Token.beforeEnd (tokens : List Token) : List Token :=
  tokens.takeWhile (!·.isEnd)

theorem Token.isEnd_eq_false_of_mem_beforeEnd {token : Token} {tokens : List Token}
    (h : token ∈ beforeEnd tokens) : token.isEnd = false := by
  have hall := List.all_eq_true.1 List.all_takeWhile token h
  simpa using hall

/-- The end marker is not written. -/
def Instruction.spelling : Instruction → List Token.Kind
  | move direction amount => [.move direction, .number amount, .period]
  | penUp => [.penUp, .period]
  | penDown => [.penDown, .period]
  | setColor color => [.color, .colorLiteral color.text, .period]
  | endMarker => []

theorem Instruction.dropLast_spelling {instruction : Instruction} (h : instruction ≠ .endMarker) :
    instruction.spelling.dropLast ++ [.period] = instruction.spelling := by
  cases instruction with
  | endMarker => exact (h rfl).elim
  | _ => rfl

namespace Tree

variable {tree body : Tree} {statements : List Tree} {n : Nat}

/-- A loop's body stands in quotes if it is a spine, whose statements are written one after
another. -/
def spelling : Tree → List Token.Kind
  | seq current rest => current.spelling ++ rest.spelling
  | last current => current.spelling
  | loop count body =>
    [.loop, .number count] ++
      if body.isSpine then [.quote] ++ body.spelling ++ [.quote] else body.spelling
  | leaf instruction => instruction.spelling

/-- The most loops around one another. -/
def nesting : Tree → Nat
  | seq current rest => max current.nesting rest.nesting
  | last current => current.nesting
  | loop _ body => body.nesting + 1
  | leaf _ => 0

/-- An instruction other than the end marker, or a loop around one statement or a quoted list of
them. -/
inductive IsStatement : Tree → Prop
  | leaf {instruction : Instruction} : instruction ≠ .endMarker → IsStatement (leaf instruction)
  | bare {count : UInt32} {body : Tree} : IsStatement body → IsStatement (loop count body)
  | quoted {count : UInt32} {statements : List Tree} {body : Tree} :
    (∀ statement ∈ statements, IsStatement statement) → body? statements = some body →
    IsStatement (loop count body)

theorem body?_cons (tree : Tree) (statements : List Tree) :
    body? (tree :: statements) = some ((body? statements).elim (last tree) (seq tree)) := rfl

theorem body?_eq_none_iff : body? statements = none ↔ statements = [] := by
  cases statements with
  | nil => exact ⟨fun _ => rfl, fun _ => rfl⟩
  | cons tree statements => simp [body?_cons]

theorem body?_cons_of_body? (tree : Tree) (h : body? statements = some body) :
    body? (tree :: statements) = some (seq tree body) := by
  rw [body?_cons, h]
  rfl

/-- A spine in quotes holds one statement or goes on after its first. -/
theorem body?_induction
    {motive : ∀ (statements : List Tree) (body : Tree), body? statements = some body → Prop}
    (single : ∀ tree, motive [tree] (last tree) rfl)
    (more : ∀ tree statements body (h : body? statements = some body), motive statements body h →
      motive (tree :: statements) (seq tree body) (body?_cons_of_body? tree h))
    (statements : List Tree) (body : Tree) (h : body? statements = some body) :
    motive statements body h := by
  induction statements generalizing body with
  | nil => simp [body?] at h
  | cons tree statements ih =>
    cases hrest : body? statements with
    | none =>
      obtain rfl := body?_eq_none_iff.1 hrest
      obtain rfl := Option.some_inj.1 h
      exact single tree
    | some rest =>
      obtain rfl := Option.some_inj.1 ((body?_cons_of_body? tree hrest).symm.trans h)
      exact more tree statements rest hrest (ih rest hrest)

theorem isSpine_of_body? (h : body? statements = some body) : body.isSpine = true := by
  induction statements, body, h using body?_induction with
  | single tree => rfl
  | more tree statements body _ _ => rfl

theorem IsStatement.isSpine_eq_false (h : IsStatement tree) : tree.isSpine = false := by
  cases h <;> rfl

theorem IsStatement.isEnd_eq_false (h : IsStatement tree) : tree.isEnd = false := by
  cases h with
  | @leaf instruction hend =>
    cases instruction with
    | endMarker => exact (hend rfl).elim
    | _ => rfl
  | _ => rfl

theorem statements_program (statements : List Tree) :
    (program statements).statements = statements.filter (!·.isEnd) := by
  induction statements with
  | nil => rfl
  | cons tree statements ih =>
    have hcons : (program (tree :: statements)).statements =
        if tree.isEnd then (program statements).statements
        else tree :: (program statements).statements := rfl
    rw [hcons, ih]
    cases hend : tree.isEnd <;> simp [hend]

theorem statements_program_of_isStatement (h : ∀ statement ∈ statements, IsStatement statement) :
    (program statements).statements = statements := by
  rw [statements_program, List.filter_eq_self]
  intro statement hs
  simp [(h statement hs).isEnd_eq_false]

/-- What `f` gives for a spine is what `g` gives for its statements, one after another. -/
structure Gathers {α : Type u} (f g : Tree → List α) : Prop where
  seq_eq : ∀ current rest, f (seq current rest) = g current ++ f rest
  last_eq : ∀ current, f (last current) = g current
  single_eq : ∀ tree, tree.isSpine = false → f tree = g tree
  end_eq : g endMarker = []

section Gathers

variable {α : Type u} {f g : Tree → List α}

theorem isEnd_iff : tree.isEnd = true ↔ tree = endMarker := by
  constructor
  · intro h
    unfold isEnd at h
    split at h
    · rfl
    · cases h
  · rintro rfl
    rfl

theorem statements_of_isSpine_eq_false (h : tree.isSpine = false) :
    tree.statements = if tree.isEnd then [] else [tree] := by
  cases tree with
  | seq | last => cases h
  | loop | leaf => rfl

theorem Gathers.eq_nil (h : Gathers f g) (hend : tree.isEnd = true) : g tree = [] := by
  rw [isEnd_iff.1 hend, h.end_eq]

theorem Gathers.flatMap_statements (h : Gathers f g) (tree : Tree) :
    tree.statements.flatMap g = f tree := by
  have hsingle : ∀ tree, (if tree.isEnd then [] else [tree]).flatMap g = g tree := by
    intro tree
    split
    · rename_i hend
      exact (h.eq_nil hend).symm
    · exact List.flatMap_singleton g tree
  induction tree with
  | seq current rest _ ihr =>
    have hstatements : (seq current rest).statements =
        (if current.isEnd then [] else [current]) ++ rest.statements := by
      rw [statements]
      split <;> rfl
    rw [hstatements, List.flatMap_append, hsingle, ihr, h.seq_eq]
  | last current _ => exact (hsingle current).trans (h.last_eq current).symm
  | loop | leaf =>
    rw [statements_of_isSpine_eq_false rfl, hsingle, h.single_eq _ rfl]

theorem Gathers.program_eq (h : Gathers f g) (statements : List Tree) :
    f (program statements) = statements.flatMap g := by
  induction statements with
  | nil => exact (h.single_eq endMarker rfl).trans h.end_eq
  | cons tree statements ih =>
    rw [List.flatMap_cons, ← ih]
    exact h.seq_eq tree (program statements)

theorem Gathers.body?_eq (h : Gathers f g) (hbody : body? statements = some body) :
    f body = statements.flatMap g := by
  induction statements, body, hbody using body?_induction with
  | single tree => rw [h.last_eq, List.flatMap_singleton]
  | more tree statements body _ ih => rw [h.seq_eq, ih, List.flatMap_cons]

end Gathers

theorem gathers_spelling : Gathers spelling spelling :=
  ⟨fun _ _ => rfl, fun _ => rfl, fun _ _ => rfl, rfl⟩

theorem spelling_body? (h : body? statements = some body) :
    body.spelling = statements.flatMap spelling :=
  gathers_spelling.body?_eq h

theorem nesting_program_le_iff :
    (program statements).nesting ≤ n ↔ ∀ statement ∈ statements, statement.nesting ≤ n := by
  induction statements with
  | nil => simp [program, endMarker, nesting]
  | cons tree statements ih =>
    rw [List.forall_mem_cons, ← ih]
    exact Nat.max_le

theorem nesting_body?_le_iff (h : body? statements = some body) :
    body.nesting ≤ n ↔ ∀ statement ∈ statements, statement.nesting ≤ n := by
  induction statements, body, h using body?_induction with
  | single tree => simp [nesting]
  | more tree statements body _ ih =>
    rw [List.forall_mem_cons, ← ih]
    exact Nat.max_le

end Tree

end TurtleGraphics
