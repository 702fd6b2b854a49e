/-! Program text without its comments. -/
namespace TurtleGraphics.Comment

/-- Drops each carriage return that a line feed follows; `kept` holds, last first, the text so
far. -/
def unifyBreaks (kept : List Char) : List Char → List Char
  | [] => kept.reverse
  | '\r' :: '\n' :: text => unifyBreaks ('\n' :: kept) text
  | c :: text => unifyBreaks (c :: kept) text

/-- Drops comments, each from its `%` to the end of its line. The line feed stays, so that lines
keep their numbers. -/
def cutComments (inside : Bool) (kept : List Char) : List Char → List Char
  | [] => kept.reverse
  | c :: text =>
    if c = '\n' then cutComments false (c :: kept) text
    else if inside || c = '%' then cutComments true kept text
    else cutComments false (c :: kept) text

/-- The text that tokens are read from. -/
def remove (text : List Char) : List Char :=
  cutComments false [] (unifyBreaks [] text)

end TurtleGraphics.Comment
