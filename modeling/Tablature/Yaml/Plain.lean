import Tablature.Yaml.Gap
import Tablature.Yaml.Token

namespace Tablature.Yaml

/-- The characters that structure a flow collection, apart from the colon. -/
def isFlowBound (c : Char) : Bool :=
  c = ',' || c = '[' || c = ']' || c = '\x7b' || c = '\x7d'

/-- A word of a plain scalar. A colon ends it before a blank, and the bounds of flow collections end it
inside of one. -/
private def readWord (flow : Bool) (start : Mark) :
    List Char → List Char → Cursor → Except Defect (List Char × Cursor)
  | [], done, c => .ok (done, c)
  | _ :: fuel, done, c =>
    match c.rest with
    | [] => .ok (done, c)
    | d :: rest =>
      if !isSolid d then .ok (done, c)
      else if flow && d = ':' && rest.head?.any (fun e => isFlowBound e || e = '?') then
        .error { problem := .unexpectedColon, mark := c.mark, during := some (.plainScalar, start) }
      else if (d = ':' && endsWord rest) || (flow && isFlowBound d) then .ok (done, c)
      else readWord flow start fuel (d :: done) (c.advance 1)

/-- What was read of a plain scalar: its text in reverse, the place after it, and where reading stands.
`broken` tells that a line break was passed since. -/
private structure Progress where
  done : List Char
  finish : Mark
  cursor : Cursor
  broken : Bool := false

private def readWords (flow : Bool) (indentation : Nat) (start : Mark) :
    List Char → Gap → Progress → Except Defect Progress
  | [], _, p => .ok p
  | _ :: fuel, gap, p =>
    if p.cursor.atDocumentBound || p.cursor.sees '#' then .ok p
    else do
      let (word, c) ← readWord flow start p.cursor.rounds [] p.cursor
      let p : Progress :=
        if word.isEmpty then p else ⟨word ++ gap.text.reverse ++ p.done, c.mark, c, false⟩
      if c.atEnd || c.atSolid then return p
      else
        let gap := if word.isEmpty then gap else .blanks []
        let (gap, c) ← (Gap.read indentation c.rounds gap c).mapError fun d =>
          { d with during := some (.plainScalar, start) }
        let p : Progress := { p with cursor := c, broken := gap.isBroken }
        if !flow && c.mark.column < indentation then return p
        else readWords flow indentation start fuel gap p

/-- A plain scalar, whose lines are indented by at least some columns. The last result tells whether
reading stopped on a later line than the scalar. -/
def readPlain (flow : Bool) (indentation : Nat) (c : Cursor) : Except Defect (Token × Cursor × Bool) := do
  let p ← readWords flow indentation c.mark c.rounds (.blanks []) ⟨[], c.mark, c, false⟩
  return (⟨.scalar (String.ofList p.done.reverse) .plain, c.mark, p.finish⟩, p.cursor, p.broken)

end Tablature.Yaml
