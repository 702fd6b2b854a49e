import Mathlib.Data.Nat.Digits.Defs
import TurtleGraphics.Proofs.SourceText

/-! A run of digits is read for exactly what it is worth, alone or as a loop's count. -/
namespace TurtleGraphics

namespace Lexeme

variable {digits typed lead trail rest : List Char} {c : Char} {value : UInt32} {n m : Nat}

/-- What a run of digits is worth, the last of them counting ones. -/
def decimalValue (digits : List Char) : Nat :=
  Nat.ofDigits 10 (digits.reverse.map fun c => c.toNat - '0'.toNat)

theorem decimalValue_eq (digits : List Char) :
    decimalValue digits = Nat.ofDigitChars 10 digits 0 := by
  -- The last digit counts ones, so the induction takes digits off the end.
  induction digits using List.reverseRecOn with
  | nil => rfl
  | append_singleton digits c ih =>
    rw [Nat.ofDigitChars_append, ← ih, Nat.ofDigitChars_cons, Nat.ofDigitChars_nil, decimalValue,
      List.reverse_append, List.reverse_singleton, List.singleton_append, List.map_cons,
      Nat.ofDigits_cons, Nat.add_comm]
    rfl

theorem value?_eq (digits : List Char) : value? digits = fits? (decimalValue digits) := by
  rw [decimalValue_eq]
  rfl

theorem fits?_eq_some_iff : fits? n = some value ↔ value.toNat = n := by
  unfold fits?
  split
  · rename_i h
    rw [Option.some_inj]
    constructor
    · rintro rfl
      exact UInt32.toNat_ofNatLT
    · intro hvalue
      apply UInt32.toNat_inj.1
      rw [UInt32.toNat_ofNatLT, hvalue]
  · rename_i h
    constructor
    · nofun
    · rintro rfl
      exact (h value.toNat_lt).elim

theorem fits?_eq_none_iff : fits? n = none ↔ 4294967295 < n := by
  have hsize : UInt32.size = 4294967296 := rfl
  unfold fits?
  split
  · rename_i h
    simp
    omega
  · rename_i h
    simp
    omega

theorem exists_fits (h : n ≤ 4294967295) : ∃ value, fits? n = some value ∧ value.toNat = n := by
  cases hfits : fits? n with
  | some value => exact ⟨value, rfl, fits?_eq_some_iff.1 hfits⟩
  | none => exact (Nat.not_lt.2 h (fits?_eq_none_iff.1 hfits)).elim

theorem appendDigit?_eq (value : UInt32) (c : Char) :
    appendDigit? value c = fits? (value.toNat * 10 + (c.toNat - '0'.toNat)) := by
  unfold appendDigit?
  cases htenfold : fits? (value.toNat * 10) with
  | some tenfold =>
    rw [Option.bind_some, fits?_eq_some_iff.1 htenfold]
  | none =>
    have hlarge := fits?_eq_none_iff.1 htenfold
    exact (fits?_eq_none_iff.2 (by omega)).symm

theorem le_ofDigitChars (n : Nat) (digits : List Char) : n ≤ Nat.ofDigitChars 10 digits n := by
  induction digits generalizing n with
  | nil => exact Nat.le_refl n
  | cons c digits ih =>
    rw [Nat.ofDigitChars_cons]
    have := ih (10 * n + (c.toNat - '0'.toNat))
    omega

/-- Where a number overflows on the way, it does so at the end. -/
theorem foldlM_appendDigit? (value : UInt32) (digits : List Char) :
    digits.foldlM appendDigit? value = fits? (Nat.ofDigitChars 10 digits value.toNat) := by
  induction digits generalizing value with
  | nil => exact (fits?_eq_some_iff.2 rfl).symm
  | cons c digits ih =>
    rw [List.foldlM_cons, appendDigit?_eq, Nat.ofDigitChars_cons, Nat.mul_comm 10]
    cases hnext : fits? (value.toNat * 10 + (c.toNat - '0'.toNat)) with
    | some next =>
      rw [← fits?_eq_some_iff.1 hnext]
      exact ih next
    | none =>
      have hlarge := fits?_eq_none_iff.1 hnext
      have hle := le_ofDigitChars (value.toNat * 10 + (c.toNat - '0'.toNat)) digits
      exact (fits?_eq_none_iff.2 (Nat.lt_of_lt_of_le hlarge hle)).symm

/-- Reading in 32 bits, digit by digit, is exact. -/
theorem foldlM_appendDigit?_eq_value? (digits : List Char) :
    digits.foldlM appendDigit? 0 = value? digits :=
  foldlM_appendDigit? 0 digits

theorem elim_value?_of_le (h : decimalValue digits ≤ 4294967295) :
    ∃ value, (value? digits).elim Token.Kind.unrecognized .number = .number value ∧
      value.toNat = decimalValue digits := by
  obtain ⟨value, hvalue, hnat⟩ := exists_fits h
  refine ⟨value, ?_, hnat⟩
  rw [value?_eq, hvalue]
  rfl

theorem elim_value?_of_lt (h : 4294967295 < decimalValue digits) :
    (value? digits).elim Token.Kind.unrecognized .number = .unrecognized := by
  rw [value?_eq, fits?_eq_none_iff.2 h]
  rfl

theorem isRun_padded (zeros n : Nat) :
    IsRun Char.isDigit (List.replicate zeros '0' ++ Nat.toDigits 10 n) := by
  refine ⟨List.append_ne_nil_of_right_ne_nil _ Nat.toDigits_ne_nil, ?_⟩
  refine List.forall_mem_append.2 ⟨?_, (isRun_toDigits n).all⟩
  intro c hc
  rw [List.eq_of_mem_replicate hc]
  rfl

/-- Zeros in front add nothing. -/
theorem decimalValue_padded (zeros n : Nat) :
    decimalValue (List.replicate zeros '0' ++ Nat.toDigits 10 n) = n := by
  rw [decimalValue_eq, Nat.ofDigitChars_append, Nat.ofDigitChars_replicate_zero, Nat.mul_zero,
    Nat.ofDigitChars_ten_toDigits]

end Lexeme

namespace Token

variable {text typed lead digits trail rest : List Char} {line : Nat}

/-- The count of a loop stands where the lexeme ends. -/
theorem read_loopWord (hmem : typed.map Char.toLower ∈ Lexeme.loopWords)
    (hlead : Lexeme.IsRun Lexeme.isSeparator lead) (hdigits : Lexeme.IsRun Char.isDigit digits)
    (htrail : Lexeme.IsRun Lexeme.isSeparator trail) (hrest : Lexeme.StartsApart rest)
    (htext : text = typed ++ (lead ++ (digits ++ trail))) :
    read line (text ++ rest) =
      ⟨.loop, line⟩ ::
        ⟨(Lexeme.value? digits).elim .unrecognized .number, line + text.count '\n'⟩ ::
          read (line + text.count '\n') rest := by
  have hmatch := Lexeme.match?_loopWord hmem rfl hlead hdigits htrail hrest
  have hsplit : typed ++ (lead ++ (digits ++ (trail ++ rest))) = text ++ rest := by
    rw [htext]
    simp only [List.append_assoc]
  rw [hsplit, ← htext] at hmatch
  rw [read_append_of_match hmatch]
  cases Lexeme.value? digits <;> rfl

/-- A run of digits, however long it is and however many zeros it starts with, gives one token, the
same on its own as for a loop's count: its value, if 32 bits hold it. That takes no wider
arithmetic. The digits that a tree's text has for a number give that number. -/
theorem read_decimal :
    (∀ digits : List Char, Lexeme.IsRun Char.isDigit digits →
      ∃ kind : Kind,
        (Lexeme.decimalValue digits ≤ 4294967295 →
          ∃ value, kind = .number value ∧ value.toNat = Lexeme.decimalValue digits) ∧
        (4294967295 < Lexeme.decimalValue digits → kind = .unrecognized) ∧
        (digits.foldlM Lexeme.appendDigit? 0).elim .unrecognized .number = kind ∧
        (∀ (line : Nat) (rest : List Char), (∀ c ∈ rest.head?, c.isDigit = false) →
          Lexeme.number? (digits ++ rest) = some ⟨.token kind, digits.length⟩ ∧
            Lexeme.match? (digits ++ rest) = some ⟨.token kind, digits.length⟩ ∧
            read line (digits ++ rest) = ⟨kind, line⟩ :: read line rest) ∧
        ∀ (line : Nat) (typed lead trail rest text : List Char),
          typed.map Char.toLower ∈ Lexeme.loopWords → Lexeme.IsRun Lexeme.isSeparator lead →
          Lexeme.IsRun Lexeme.isSeparator trail → Lexeme.StartsApart rest →
          text = typed ++ (lead ++ (digits ++ trail)) →
          ∃ count : Option UInt32, count.elim .unrecognized .number = kind ∧
            Lexeme.loop? (text ++ rest) = some ⟨.loop count, text.length⟩ ∧
            Lexeme.match? (text ++ rest) = some ⟨.loop count, text.length⟩ ∧
            read line (text ++ rest) =
              ⟨.loop, line⟩ :: ⟨kind, line + text.count '\n'⟩ ::
                read (line + text.count '\n') rest) ∧
    (∀ (value : UInt32) (zeros : Nat),
      Lexeme.IsRun Char.isDigit (List.replicate zeros '0' ++ value.toNat.repr.toList) ∧
        Lexeme.decimalValue (List.replicate zeros '0' ++ value.toNat.repr.toList) = value.toNat) ∧
    (∀ (direction : Direction) (amount : UInt32) (line : Nat),
      read line (Comment.remove (Tree.leaf (.move direction amount)).source.toList) =
        [⟨.move direction, line⟩, ⟨.number amount, line⟩, ⟨.period, line⟩]) ∧
    ∀ (count : UInt32) (body : Tree) (line : Nat), (Tree.loop count body).HasBodies →
      (∀ color ∈ body.colors, color.IsCode) →
      ∃ others, read line (Comment.remove (Tree.loop count body).source.toList) =
        ⟨.loop, line⟩ :: ⟨.number count, line⟩ :: others := by
  refine ⟨?_, ?_, ?_, ?_⟩
  · intro digits hdigits
    refine ⟨_, Lexeme.elim_value?_of_le, Lexeme.elim_value?_of_lt,
      congrArg (Option.elim · _ _) (Lexeme.foldlM_appendDigit?_eq_value? digits), ?_, ?_⟩
    · intro line rest hrest
      exact ⟨Lexeme.number?_digits hdigits hrest, Lexeme.match?_digits hdigits hrest,
        read_digits hdigits hrest⟩
    · intro line typed lead trail rest text hmem hlead htrail hrest htext
      have hsplit : text ++ rest = typed ++ (lead ++ (digits ++ (trail ++ rest))) := by
        rw [htext]
        simp only [List.append_assoc]
      refine ⟨Lexeme.value? digits, rfl, ?_, ?_,
        read_loopWord hmem hlead hdigits htrail hrest htext⟩
      · rw [hsplit, htext]
        exact Lexeme.loop?_loopWord hmem rfl hlead hdigits htrail hrest
      · rw [hsplit, htext]
        exact Lexeme.match?_loopWord hmem rfl hlead hdigits htrail hrest
  · intro value zeros
    rw [Nat.toList_repr]
    exact ⟨Lexeme.isRun_padded zeros value.toNat, Lexeme.decimalValue_padded zeros value.toNat⟩
  · intro direction amount line
    have hbodies : (Tree.leaf (.move direction amount)).HasBodies := trivial
    exact Tree.read_source hbodies nofun line
  · intro count body line hbodies hcolors
    exact ⟨_, Tree.read_source hbodies hcolors line⟩

theorem read_decimal_past_limit :
    Lexeme.IsRun Char.isDigit "0004294967296".toList ∧
      4294967295 < Lexeme.decimalValue "0004294967296".toList ∧
      read 1 ("0004294967296".toList ++ ".".toList) = ⟨.unrecognized, 1⟩ :: read 1 ".".toList ∧
      read 1 ("Rep\t0004294967296\n".toList ++ "UP.".toList) =
        ⟨.loop, 1⟩ :: ⟨.unrecognized, 2⟩ :: read 2 "UP.".toList ∧
      (Tree.loop 4294967295 (.leaf .penUp)).HasBodies ∧
      ∃ others, read 1 (Comment.remove (Tree.loop 4294967295 (.leaf .penUp)).source.toList) =
        ⟨.loop, 1⟩ :: ⟨.number 4294967295, 1⟩ :: others := by
  have hdigits : Lexeme.IsRun Char.isDigit "0004294967296".toList :=
    ⟨List.cons_ne_nil _ _, List.all_eq_true.1 rfl⟩
  have hlarge : 4294967295 < Lexeme.decimalValue "0004294967296".toList := by
    rw [Lexeme.decimalValue_eq]
    decide
  have hlead : Lexeme.IsRun Lexeme.isSeparator ['\t'] :=
    ⟨List.cons_ne_nil _ _, List.all_eq_true.1 rfl⟩
  have htrail : Lexeme.IsRun Lexeme.isSeparator ['\n'] :=
    ⟨List.cons_ne_nil _ _, List.all_eq_true.1 rfl⟩
  have hword : "Rep".toList.map Char.toLower ∈ Lexeme.loopWords := by decide
  have hperiod : ∀ c ∈ ".".toList.head?, c.isDigit = false := by
    rintro _ ⟨⟩
    rfl
  have hup : Lexeme.StartsApart "UP.".toList := by
    rintro _ ⟨⟩
    rfl
  have hbodies : (Tree.loop 4294967295 (.leaf .penUp)).HasBodies := ⟨rfl, trivial⟩
  obtain ⟨hread, _, _, hsource⟩ := read_decimal
  obtain ⟨kind, _, hkind, _, hnumber, hloop⟩ := hread _ hdigits
  obtain rfl := hkind hlarge
  obtain ⟨_, _, _, _, hcount⟩ := hloop 1 "Rep".toList _ _ _ _ hword hlead htrail hup rfl
  exact ⟨hdigits, hlarge, (hnumber 1 _ hperiod).2.2, hcount, hbodies, hsource _ _ 1 hbodies nofun⟩

end Token

end TurtleGraphics
