namespace Tablature.Yaml

/-- A place in a text: the bytes before it, the lines before its line, and the characters before it
on that line. -/
structure Mark where
  index : Nat := 0
  line : Nat := 0
  column : Nat := 0
deriving DecidableEq, Repr

namespace Mark

def atStart (m : Mark) : Bool :=
  m.line = 0 && m.column = 0

/-- Messages count lines and columns from 1 on. -/
def text (m : Mark) : String :=
  "line " ++ toString (m.line + 1) ++ " column " ++ toString (m.column + 1)

/-- What messages add for a place; the start of a text goes without saying. -/
def suffix (m : Mark) : String :=
  if m.atStart then "" else " at " ++ m.text

end Mark

end Tablature.Yaml
