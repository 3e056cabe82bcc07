import Tablature.Yaml.Gap
import Tablature.Yaml.Token
import Tablature.Json.Text

namespace Tablature.Yaml

/-- What a character after a backslash means. -/
inductive Escape where
  | char (c : Char)
  | code (digits : Nat)

def escape? : Char → Option Escape
  | '0' => some (.char '\x00')
  | 'a' => some (.char '\x07')
  | 'b' => some (.char '\x08')
  | 't' => some (.char '\t')
  | '\t' => some (.char '\t')
  | 'n' => some (.char '\n')
  | 'v' => some (.char '\x0b')
  | 'f' => some (.char '\x0c')
  | 'r' => some (.char '\r')
  | 'e' => some (.char '\x1b')
  | ' ' => some (.char ' ')
  | '"' => some (.char '"')
  | '/' => some (.char '/')
  | '\\' => some (.char '\\')
  | 'N' => some (.char '\x85')
  | '_' => some (.char '\xa0')
  | 'L' => some (.char '\u2028')
  | 'P' => some (.char '\u2029')
  | 'x' => some (.code 2)
  | 'u' => some (.code 4)
  | 'U' => some (.code 8)
  | _ => none

/-- A character by its code in hexadecimal digits. -/
private def readCode (start : Mark) (digits : Nat) (c : Cursor) : Except Defect (Char × Cursor) :=
  let values := (c.rest.take digits).filterMap Json.hexValue?
  let fail (problem : Problem) : Except Defect (Char × Cursor) :=
    .error { problem, mark := c.mark, during := some (.quotedCharacter, start) }
  if values.length < digits then fail .hexDigit
  else
    let code := values.foldl (fun n d => 16 * n + d) 0
    if (0xd800 ≤ code ∧ code ≤ 0xdfff) ∨ 0x10ffff < code then fail .escapedCode
    else .ok (Char.ofNat code, c.advance digits)

/-- A part of a quoted scalar up to its quote or to white space. Whether it ended with an escaped line
break is the last result. -/
private def readPart (double : Bool) (start : Mark) :
    List Char → List Char → Cursor → Except Defect (List Char × Cursor × Bool)
  | [], done, c => .ok (done, c, false)
  | _ :: fuel, done, c =>
    match c.rest with
    | [] => .ok (done, c, false)
    | d :: rest =>
      if !isSolid d then .ok (done, c, false)
      else if !double then
        if d = '\'' then
          match rest with
          | '\'' :: _ => readPart double start fuel (d :: done) (c.advance 2)
          | _ => .ok (done, c, false)
        else readPart double start fuel (d :: done) (c.advance 1)
      else if d = '"' then .ok (done, c, false)
      else if d = '\\' then
        if (c.advance 1).atBreak then .ok (done, (c.advance 1).skipBreak, true)
        else
          match rest.head?.bind escape? with
          | none =>
            .error { problem := .unknownEscape, mark := c.mark, during := some (.quotedCharacter, start) }
          | some (.char e) => readPart double start fuel (e :: done) (c.advance 2)
          | some (.code digits) => do
            let (e, c) ← readCode start digits (c.advance 2)
            readPart double start fuel (e :: done) c
      else readPart double start fuel (d :: done) (c.advance 1)

private def readParts (double : Bool) (start : Mark) :
    List Char → List Char → Cursor → Except Defect (List Char × Cursor)
  | [], done, c => .ok (done, c)
  | _ :: fuel, done, c =>
    let fail (problem : Problem) : Except Defect (List Char × Cursor) :=
      .error { problem, mark := c.mark, during := some (.quotedScalar, start) }
    if c.atDocumentBound then fail .documentBound
    else if c.atEnd then fail .endOfText
    else do
      let (done, c, escaped) ← readPart double start c.rounds done c
      if c.sees (if double then '"' else '\'') then return (done, c.advance 1)
      else
        let (gap, c) ← Gap.read 0 c.rounds (if escaped then .breaks [] [] else .blanks []) c
        readParts double start fuel (gap.text.reverse ++ done) c

/-- A quoted scalar from its opening quote on. -/
def readQuoted (double : Bool) (c : Cursor) : Except Defect (Token × Cursor) := do
  let (text, rest) ← readParts double c.mark c.rounds [] (c.advance 1)
  let style := if double then .doubleQuoted else .singleQuoted
  return (⟨.scalar (String.ofList text.reverse) style, c.mark, rest.mark⟩, rest)

end Tablature.Yaml
