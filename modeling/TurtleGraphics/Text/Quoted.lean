import TurtleGraphics.Text.Unprintable

/-! Text between quotes, with escapes for what would not show. -/
namespace TurtleGraphics.Text

/-- Backslash and quote take a backslash; a character that does not show is named. -/
def escape (c : Char) : String :=
  match c with
  | '"' => "\\\""
  | '\\' => "\\\\"
  | '\n' => "\\n"
  | '\r' => "\\r"
  | '\t' => "\\t"
  | '\x00' => "\\0"
  | c =>
    if isUnprintable c then "\\u\x7b" ++ .ofList (Nat.toDigits 16 c.toNat) ++ "\x7d"
    else c.toString

def quoted (text : String) : String :=
  "\"" ++ .join (text.toList.map escape) ++ "\""

end TurtleGraphics.Text
