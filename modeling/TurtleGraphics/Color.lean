/-! Drawing colors. -/
namespace TurtleGraphics

/-- A color is known by its text alone. -/
structure Color where
  text : String
deriving DecidableEq, Repr

namespace Color

/-- ASCII letters count as upper case, so that a color has one text. -/
def ofText (text : String) : Color :=
  ⟨text.map Char.toUpper⟩

/-- What an agent starts with. -/
instance : Inhabited Color := ⟨ofText "#0000FF"⟩

end Color

end TurtleGraphics
