import Tablature.Yaml.Cursor
import Tablature.Yaml.Token

namespace Tablature.Yaml

/-- What becomes of the line breaks at the end of a block scalar. -/
inductive Chomping where
  | strip
  | clip
  | keep
deriving DecidableEq, Repr

/-- The line after the `|` or `>` of a block scalar: its chomping, and the columns it is indented by
against its parent, if they are given. -/
structure BlockHeader where
  chomping : Chomping := .clip
  indentation : Option Nat := none
deriving DecidableEq, Repr

private def chomping? (c : Cursor) : Option Chomping :=
  if c.sees '+' then some .keep else if c.sees '-' then some .strip else none

private def blockDefect (start : Mark) (problem : Problem) (c : Cursor) : Defect :=
  { problem, mark := c.mark, during := some (.blockScalar, start) }

private def readIndentation (start : Mark) (c : Cursor) : Except Defect (Option Nat × Cursor) :=
  match c.next? with
  | some d =>
    if !isDigit d then .ok (none, c)
    else if d = '0' then .error (blockDefect start .zeroIndentation c)
    else .ok (some (digitValue d), c.advance 1)
  | none => .ok (none, c)

/-- The two indicators of a header, in any order. -/
private def readIndicators (start : Mark) (c : Cursor) : Except Defect (BlockHeader × Cursor) := do
  match chomping? c with
  | some chomping =>
    let (indentation, c) ← readIndentation start (c.advance 1)
    return ({ chomping, indentation }, c)
  | none =>
    match ← readIndentation start c with
    | (none, c) => return ({}, c)
    | (indentation, c) =>
      match chomping? c with
      | some chomping => return ({ chomping, indentation }, c.advance 1)
      | none => return ({ indentation }, c)

private def readHeader (start : Mark) (c : Cursor) : Except Defect (BlockHeader × Cursor) := do
  let (header, c) ← readIndicators start c
  let c := (c.skipWhile isGap).skipComment
  if c.atSolid then throw (blockDefect start .expectedLineEnd c)
  else return (header, c.skipBreak)

/-- Empty lines and the indentation of the line after them, as far as `indentation` columns; all of it if
that is not known. Also gives the widest column that was reached and the place after the last break. -/
private def readEmptyLines (start : Mark) (indentation : Option Nat) :
    List Char → Nat → List Char → Mark → Cursor → Except Defect (Nat × List Char × Mark × Cursor)
  | [], widest, breaks, finish, c => .ok (widest, breaks, finish, c)
  | _ :: fuel, widest, breaks, finish, c =>
    let spaces := (c.rest.takeWhile (· = ' ')).length
    let c := c.advance (match indentation with
      | some n => min spaces (n - c.mark.column)
      | none => spaces)
    let widest := max widest c.mark.column
    if c.sees '\t' && indentation.all (c.mark.column < ·) then
      .error (blockDefect start .tabForIndentation c)
    else if c.atBreak then
      let next := c.skipBreak
      readEmptyLines start indentation fuel widest (breaks ++ c.breakText) next.mark next
    else .ok (widest, breaks, finish, c)

/-- A block scalar while its lines are read: the text in reverse, the break after the last line, the
empty lines after that, and whether the last line began with a blank. -/
private structure Lines where
  done : List Char := []
  lastBreak : List Char := []
  emptyLines : List Char
  indented : Bool := false
  finish : Mark

/-- A break between two lines is folded to a space if neither line begins with a blank. -/
private def Lines.join (fold : Bool) (lines : Lines) (indented : Bool) : List Char :=
  if fold && lines.lastBreak = ['\n'] && !lines.indented && !indented then
    if lines.emptyLines.isEmpty then [' '] else lines.emptyLines
  else lines.lastBreak ++ lines.emptyLines

private def readLines (fold : Bool) (start : Mark) (indentation : Nat) :
    List Char → Lines → Cursor → Except Defect (Lines × Cursor)
  | [], lines, c => .ok (lines, c)
  | _ :: fuel, lines, c =>
    if c.mark.column ≠ indentation || c.atEnd then .ok (lines, c)
    else do
      let line := c.rest.takeWhile fun d => !isBreak d
      let done := line.reverse ++ (lines.join fold c.atGap).reverse ++ lines.done
      let lineEnd := c.advance line.length
      let next := lineEnd.skipBreak
      let (_, emptyLines, finish, rest) ←
        readEmptyLines start (some indentation) next.rounds 0 [] next.mark next
      let lines := { done, lastBreak := lineEnd.breakText, emptyLines, indented := c.atGap, finish }
      readLines fold start indentation fuel lines rest

/-- A block scalar from its `|` or `>` on, inside a block in column `parent`. -/
def readBlockScalar (fold : Bool) (parent : Option Nat) (c : Cursor) : Except Defect (Token × Cursor) := do
  let start := c.mark
  let (header, c) ← readHeader start (c.advance 1)
  let given := header.indentation.map (· + parent.getD 0)
  let (widest, emptyLines, finish, c) ← readEmptyLines start given c.rounds 0 [] c.mark c
  let indentation := given.getD (max widest (max 1 (parent.elim 0 (· + 1))))
  let (lines, c) ← readLines fold start indentation c.rounds { emptyLines, finish } c
  let tail := match header.chomping with
    | .strip => []
    | .clip => lines.lastBreak
    | .keep => lines.lastBreak ++ lines.emptyLines
  let text := String.ofList (lines.done.reverse ++ tail)
  return (⟨.scalar text (if fold then .folded else .literal), start, lines.finish⟩, c)

end Tablature.Yaml
