import TurtleGraphics.Token

/-! What can stand at a position of a program's text, and how long it is. -/
namespace TurtleGraphics

/-- Something the language knows. A loop's keyword takes its count along, which is absent when it
exceeds 32 bits. -/
inductive Lexeme
  | token (kind : Token.Kind)
  | loop (count : Option UInt32)
  | blank
deriving DecidableEq, Repr

namespace Lexeme

/-- A lexeme at the start of a text and the number of characters it takes. -/
structure Match where
  lexeme : Lexeme
  length : Nat
deriving DecidableEq, Repr

def isSeparator (c : Char) : Bool :=
  c = ' ' || c = '\t' || c = '\n'

/-- The number in 32 bits, if they hold it. -/
def fits? (n : Nat) : Option UInt32 :=
  if h : n < UInt32.size then some (.ofNatLT n h) else none

/-- The value of a digit run, if 32 bits hold it. -/
def value? (digits : List Char) : Option UInt32 :=
  fits? (Nat.ofDigitChars 10 digits 0)

/-- One more digit after those of `value`. Neither the product nor the sum may overflow. -/
def appendDigit? (value : UInt32) (c : Char) : Option UInt32 :=
  (fits? (value.toNat * 10)).bind fun tenfold => fits? (tenfold.toNat + (c.toNat - '0'.toNat))

/-- What follows `word`, itself in lower case, where the text starts with it in any case. -/
def afterWord? : List Char → List Char → Option (List Char)
  | [], text => some text
  | w :: word, c :: text => if c.toLower = w then afterWord? word text else none
  | _ :: _, [] => none

/-- A word in lower case and the token it stands for. -/
structure Keyword where
  word : List Char
  kind : Token.Kind
deriving DecidableEq, Repr

/-- Keywords that one separator must follow. -/
def separatedWords : List Keyword :=
  [⟨"forward".toList, .move .forward⟩, ⟨"forw".toList, .move .forward⟩,
    ⟨"backward".toList, .move .backward⟩, ⟨"back".toList, .move .backward⟩,
    ⟨"left".toList, .move .left⟩, ⟨"right".toList, .move .right⟩, ⟨"color".toList, .color⟩]

/-- The keyword with the separator after it. -/
def Keyword.separated? (text : List Char) (keyword : Keyword) : Option Match :=
  match afterWord? keyword.word text with
  | some (c :: _) =>
    if isSeparator c then some ⟨.token keyword.kind, keyword.word.length + 1⟩ else none
  | _ => none

def separatedWord? (text : List Char) : Option Match :=
  separatedWords.findSome? (Keyword.separated? text)

/-- Keywords that nothing need follow. -/
def standaloneWords : List Keyword :=
  [⟨"up".toList, .penUp⟩, ⟨"down".toList, .penDown⟩]

def Keyword.standalone? (text : List Char) (keyword : Keyword) : Option Match :=
  (afterWord? keyword.word text).map fun _ => ⟨.token keyword.kind, keyword.word.length⟩

def standaloneWord? (text : List Char) : Option Match :=
  standaloneWords.findSome? (Keyword.standalone? text)

/-- A loop's count between separators, all of which it takes, after a keyword of `length`
characters. -/
def countAfter? (length : Nat) (text : List Char) : Option Match :=
  let lead := text.takeWhile isSeparator
  let text := text.dropWhile isSeparator
  let digits := text.takeWhile Char.isDigit
  let trail := (text.dropWhile Char.isDigit).takeWhile isSeparator
  if lead.isEmpty || digits.isEmpty || trail.isEmpty then none
  else some ⟨.loop (value? digits), length + lead.length + digits.length + trail.length⟩

/-- The loop keyword, long or short. -/
def loopWords : List (List Char) :=
  ["repeat".toList, "rep".toList]

/-- A loop keyword with its count. -/
def loop? (text : List Char) : Option Match :=
  loopWords.findSome? fun word => (afterWord? word text).bind (countAfter? word.length)

def punctuation? : List Char → Option Match
  | '.' :: _ => some ⟨.token .period, 1⟩
  | '"' :: _ => some ⟨.token .quote, 1⟩
  | _ => none

def number? (text : List Char) : Option Match :=
  let digits := text.takeWhile Char.isDigit
  if digits.isEmpty then none
  else some ⟨.token ((value? digits).elim .unrecognized .number), digits.length⟩

/-- A hash sign and six ASCII letters or digits, kept as written. -/
def colorLiteral? : List Char → Option Match
  | '#' :: text =>
    let digits := text.take 6
    if digits.length = 6 && digits.all Char.isAlphanum then
      some ⟨.token (.colorLiteral (.ofList ('#' :: digits))), 7⟩
    else none
  | _ => none

def newline? : List Char → Option Match
  | '\n' :: _ => some ⟨.blank, 1⟩
  | _ => none

/-- A run of spaces and tabs. -/
def blank? (text : List Char) : Option Match :=
  let run := text.takeWhile fun c => c = ' ' || c = '\t'
  if run.isEmpty then none else some ⟨.blank, run.length⟩

/-- The readers in order of precedence. -/
def readers : List (List Char → Option Match) :=
  [separatedWord?, standaloneWord?, loop?, punctuation?, number?, colorLiteral?, newline?, blank?]

/-- The lexeme that the text starts with. -/
def match? (text : List Char) : Option Match :=
  readers.findSome? fun reader => reader text

end Lexeme

end TurtleGraphics
