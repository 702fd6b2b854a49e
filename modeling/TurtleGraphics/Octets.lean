import TurtleGraphics.Scan

/-! Lexemes found in bytes, by lengths and slices. -/
namespace TurtleGraphics

namespace Octets

open Lexeme (Match Keyword)
open Scan (Finder slice)

/-- The bytes of a text in UTF-8. -/
def utf8 (text : List Char) : List UInt8 :=
  (String.ofList text).toUTF8.data.toList

/-- The characters that have the bytes for numbers. -/
def characters (bytes : List UInt8) : List Char :=
  bytes.map Char.ofUInt8

def isSeparator (b : UInt8) : Bool :=
  b = 32 || b = 9 || b = 10

def isDigit (b : UInt8) : Bool :=
  48 ≤ b && b ≤ 57

def isAlphanum (b : UInt8) : Bool :=
  isDigit b || (65 ≤ b && b ≤ 90) || (97 ≤ b && b ≤ 122)

def toLower (b : UInt8) : UInt8 :=
  if 65 ≤ b && b ≤ 90 then b + 32 else b

def countWhile (p : UInt8 → Bool) (bytes : List UInt8) : Nat :=
  (bytes.takeWhile p).length

/-- The length of a word that the bytes start with in any case. -/
def keyword? (word : List Char) (bytes : List UInt8) : Option Nat :=
  let letters := utf8 word
  match slice bytes 0 letters.length with
  | .ok start => if start.map toLower = letters.map toLower then some letters.length else none
  | .error _ => none

/-- The number that a text is, with or without a plus sign. -/
def parse? (text : List Char) : Option UInt32 :=
  let digits := if text.head? = some '+' then text.tail else text
  if digits.isEmpty || !digits.all Char.isDigit then none
  else digits.foldlM Lexeme.appendDigit? 0

def value? (digits : List UInt8) : Option UInt32 :=
  (String.fromUTF8? digits.toByteArray).bind fun text => parse? text.toList

def separated? (keyword : Keyword) : Finder UInt8 := fun bytes =>
  .ok <| (keyword? keyword.word bytes).bind fun length =>
    bytes[length]?.bind fun next =>
      if isSeparator next then some ⟨.token keyword.kind, length + 1⟩ else none

def standalone? (keyword : Keyword) : Finder UInt8 := fun bytes =>
  .ok <| (keyword? keyword.word bytes).map fun length => ⟨.token keyword.kind, length⟩

/-- The count after a word of the given length. -/
def countAfter? (length : Nat) : Finder UInt8 := fun bytes => do
  let lead := countWhile isSeparator (← slice bytes length bytes.length)
  if lead = 0 then return none
  else
    let start := length + lead
    let digits := countWhile isDigit (← slice bytes start bytes.length)
    if digits = 0 then return none
    else
      let stop := start + digits
      let trail := countWhile isSeparator (← slice bytes stop bytes.length)
      if trail = 0 then return none
      else return some ⟨.loop (value? (← slice bytes start stop)), stop + trail⟩

/-- A loop keyword with its count. -/
def counted? (word : List Char) : Finder UInt8 := fun bytes =>
  match keyword? word bytes with
  | some length => countAfter? length bytes
  | none => .ok none

def separatedWord? : Finder UInt8 :=
  Scan.first (Lexeme.separatedWords.map separated?)

def standaloneWord? : Finder UInt8 :=
  Scan.first (Lexeme.standaloneWords.map standalone?)

/-- The first loop keyword that the bytes start with is not given up for another, even where no
count follows it. -/
def loop? : Finder UInt8 := fun bytes =>
  match Lexeme.loopWords.findSome? (keyword? · bytes) with
  | some length => countAfter? length bytes
  | none => .ok none

def punctuation? : Finder UInt8 := fun bytes =>
  .ok <| match bytes.head? with
    | some 46 => some ⟨.token .period, 1⟩
    | some 34 => some ⟨.token .quote, 1⟩
    | _ => none

def number? : Finder UInt8 := fun bytes => do
  let length := countWhile isDigit bytes
  if length = 0 then return none
  else
    let digits ← slice bytes 0 length
    return some ⟨.token ((value? digits).elim .unrecognized .number), length⟩

/-- A color literal. `repair` makes a text of bytes that are not UTF-8. -/
def colorLiteral? (repair : List UInt8 → String) : Finder UInt8 := fun bytes =>
  if bytes.head? ≠ some 35 then .ok none
  else
    match slice bytes 1 7 with
    | .error _ => .ok none
    | .ok digits =>
      if digits.all isAlphanum then do
        let literal ← slice bytes 0 7
        let text := (String.fromUTF8? literal.toByteArray).getD (repair literal)
        return some ⟨.token (.colorLiteral text), 7⟩
      else .ok none

def newline? : Finder UInt8 := fun bytes =>
  .ok <| if bytes.head? = some 10 then some ⟨.blank, 1⟩ else none

def blank? : Finder UInt8 := fun bytes =>
  let length := countWhile (fun b => b = 32 || b = 9) bytes
  .ok <| if 0 < length then some ⟨.blank, length⟩ else none

/-- The readers in order of precedence. -/
def readers (repair : List UInt8 → String) : List (Finder UInt8) :=
  [separatedWord?, standaloneWord?, loop?, punctuation?, number?, colorLiteral? repair, newline?,
    blank?]

/-- The lexeme that the bytes start with. -/
def match? (repair : List UInt8 → String) : Finder UInt8 :=
  Scan.first (readers repair)

end Octets

end TurtleGraphics
