import Tablature.Yaml.Cursor
import Tablature.Yaml.Defect

namespace Tablature.Yaml

/-- White space between two parts of a scalar: blanks within a line, or line breaks with whatever blanks
stood around them. The first break is absent where it was escaped. -/
inductive Gap where
  | blanks (chars : List Char)
  | breaks (first : List Char) (later : List Char)
deriving DecidableEq, Repr

namespace Gap

/-- A single line feed counts as a space; before further breaks it counts as nothing. -/
def text : Gap → List Char
  | blanks chars => chars
  | breaks first later =>
    if first = ['\n'] then if later.isEmpty then [' '] else later else first ++ later

def isBroken : Gap → Bool
  | blanks _ => false
  | breaks _ _ => true

private def addBlank (c : Char) : Gap → Gap
  | blanks chars => .blanks (chars ++ [c])
  | gap => gap

private def addBreak (cs : List Char) : Gap → Gap
  | blanks _ => .breaks cs []
  | breaks first later => .breaks first (later ++ cs)

/-- White space after what is known of it. Tabs in columns below `indentation` are not allowed once a line
has been broken. -/
def read (indentation : Nat) : List Char → Gap → Cursor → Except Defect (Gap × Cursor)
  | [], gap, c => .ok (gap, c)
  | _ :: fuel, gap, c =>
    match c.next? with
    | none => .ok (gap, c)
    | some d =>
      if isGap d then
        if d = '\t' && gap.isBroken && c.mark.column < indentation then
          .error { problem := .tabInIndentation, mark := c.mark }
        else read indentation fuel (gap.addBlank d) (c.advance 1)
      else if isBreak d then read indentation fuel (gap.addBreak c.breakText) c.skipBreak
      else .ok (gap, c)

end Gap

end Tablature.Yaml
