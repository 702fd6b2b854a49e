import Mathlib.Data.List.Forall2
import TurtleGraphics.Octets
import TurtleGraphics.Proofs.Digits
import TurtleGraphics.Proofs.Form

/-! Bytes are read as the characters that have them for numbers would be. -/
namespace TurtleGraphics

namespace Octets

variable {bytes : List UInt8} {text word : List Char} {b : UInt8} {c : Char}

theorem forall_octet {p : UInt8 → Prop} (h : ∀ n : Fin 256, p (UInt8.ofFin n)) (b : UInt8) : p b :=
  h b.toFin

theorem isSeparator_eq : ∀ b, isSeparator b = Lexeme.isSeparator (Char.ofUInt8 b) :=
  forall_octet (by decide +kernel)

theorem isDigit_eq : ∀ b, isDigit b = (Char.ofUInt8 b).isDigit :=
  forall_octet (by decide +kernel)

theorem isAlphanum_eq : ∀ b, isAlphanum b = (Char.ofUInt8 b).isAlphanum :=
  forall_octet (by decide +kernel)

theorem isBlank_eq :
    ∀ b : UInt8, (decide (b = 32) || decide (b = 9)) = Lexeme.isBlank (Char.ofUInt8 b) :=
  forall_octet (by decide +kernel)

theorem ofUInt8_toLower : ∀ b, Char.ofUInt8 (toLower b) = (Char.ofUInt8 b).toLower :=
  forall_octet (by decide +kernel)

theorem ofUInt8_injective : Function.Injective Char.ofUInt8 := by
  intro a b h
  have hval : a.toUInt32 = b.toUInt32 := congrArg Char.val h
  exact UInt8.toUInt32_inj.1 hval

theorem utf8_eq (text : List Char) : utf8 text = text.flatMap String.utf8EncodeChar := by
  rw [utf8, String.toUTF8_eq_toByteArray, String.toByteArray_ofList]
  exact List.toList_data_toByteArray

/-- A character with a number below 128 is one byte, that number. -/
theorem utf8EncodeChar_of_lt (hc : c.toNat < 128) :
    ∃ b, String.utf8EncodeChar c = [b] ∧ Char.ofUInt8 b = c := by
  have hsize : c.utf8Size = 1 := by
    rw [Char.utf8Size_eq_one_iff, UInt32.le_iff_toNat_le]
    exact Nat.le_of_lt_succ hc
  refine ⟨c.val.toUInt8, String.utf8EncodeChar_eq_singleton hsize, ?_⟩
  apply Char.ext
  apply UInt32.toNat_inj.1
  change c.val.toUInt8.toUInt32.toNat = c.val.toNat
  rw [UInt8.toNat_toUInt32, UInt32.toNat_toUInt8]
  exact Nat.mod_eq_of_lt (Nat.lt_trans hc (by decide))

theorem characters_utf8 (htext : ∀ c ∈ text, c.toNat < 128) : characters (utf8 text) = text := by
  rw [utf8_eq]
  induction text with
  | nil => rfl
  | cons c text ih =>
    obtain ⟨hc, htext⟩ := List.forall_mem_cons.1 htext
    obtain ⟨b, hb, hchar⟩ := utf8EncodeChar_of_lt hc
    rw [List.flatMap_cons, hb, List.singleton_append, characters, List.map_cons, hchar]
    exact congrArg (c :: ·) (ih htext)

theorem length_utf8 (htext : ∀ c ∈ text, c.toNat < 128) : (utf8 text).length = text.length := by
  have h := congrArg List.length (characters_utf8 htext)
  rwa [characters, List.length_map] at h

theorem utf8_characters (hbytes : ∀ b ∈ bytes, b < 128) : utf8 (characters bytes) = bytes := by
  have hchars : ∀ c ∈ characters bytes, c.toNat < 128 := by
    intro c hc
    obtain ⟨b, hb, rfl⟩ := List.mem_map.1 hc
    exact hbytes b hb
  exact List.map_injective_iff.2 ofUInt8_injective (characters_utf8 hchars)

theorem fromUTF8?_utf8 (text : List Char) :
    String.fromUTF8? (utf8 text).toByteArray = some (.ofList text) := by
  have hbytes : (utf8 text).toByteArray = text.utf8Encode :=
    congrArg List.toByteArray (utf8_eq text)
  have hvalid : (utf8 text).toByteArray.IsValidUTF8 := by
    rw [hbytes]
    exact ByteArray.isValidUTF8_utf8Encode
  rw [String.fromUTF8?, dif_pos hvalid, Option.some_inj, ← String.toByteArray_inj,
    String.toByteArray_ofList]
  exact hbytes

/-- Bytes below 128 are the text of their characters. -/
theorem fromUTF8?_of_lt (hbytes : ∀ b ∈ bytes, b < 128) :
    String.fromUTF8? bytes.toByteArray = some (.ofList (characters bytes)) := by
  rw [← fromUTF8?_utf8, utf8_characters hbytes]

theorem lt_of_isDigit : ∀ b, isDigit b = true → b < 128 :=
  forall_octet (by decide +kernel)

theorem lt_of_isAlphanum : ∀ b, isAlphanum b = true → b < 128 :=
  forall_octet (by decide +kernel)

/-- The bytes and their characters start with the same run. -/
theorem exists_run {p : UInt8 → Bool} {q : Char → Bool} (h : ∀ b, p b = q (Char.ofUInt8 b))
    (bytes : List UInt8) :
    ∃ run rest, bytes = run ++ rest ∧ (∀ b ∈ run, p b = true) ∧ countWhile p bytes = run.length ∧
      (characters bytes).takeWhile q = characters run ∧
      (characters bytes).dropWhile q = characters rest := by
  obtain rfl : p = q ∘ Char.ofUInt8 := funext h
  exact ⟨_, _, List.takeWhile_append_dropWhile.symm, List.all_eq_true.1 List.all_takeWhile, rfl,
    List.takeWhile_map .., List.dropWhile_map ..⟩

theorem lt_of_isLower (hc : c.isLower = true) : c.toNat < 128 := by
  simp only [Char.isLower, Bool.and_eq_true, decide_eq_true_eq] at hc
  exact Nat.lt_of_le_of_lt (UInt32.le_iff_toNat_le.1 hc.2) (by decide)

theorem map_toLower_of_isLower (hword : word.all Char.isLower = true) :
    word.map Char.toLower = word := by
  conv_rhs => rw [← List.map_id word]
  refine List.map_congr_left ?_
  intro c hc
  have hlower : c.isLower = true := List.all_eq_true.1 hword c hc
  exact Char.toLower_eq_of_not_isUpper (Char.not_isUpper_of_isLower hlower)

theorem characters_ne_cons {a : UInt8} (h : b ≠ a) (rest : List Char)
    (heq : characters (b :: bytes) = Char.ofUInt8 a :: rest) : False :=
  h (ofUInt8_injective (List.cons_eq_cons.1 heq).1)

theorem characters_append (bytes others : List UInt8) :
    characters (bytes ++ others) = characters bytes ++ characters others :=
  List.map_append

theorem characters_map_toLower (bytes : List UInt8) :
    characters (bytes.map toLower) = (characters bytes).map Char.toLower := by
  simp [characters, Function.comp_def, ofUInt8_toLower]

end Octets

end TurtleGraphics
