import Tablature.Yaml.Cursor
import Tablature.Yaml.Token
import Tablature.Json.Text

namespace Tablature.Yaml

private def nameDefect (problem : Problem) (c : Cursor) (activity : Activity) (start : Mark) : Defect :=
  { problem, mark := c.mark, during := some (activity, start) }

private def word (c : Cursor) : List Char :=
  c.rest.takeWhile isWordChar

/-- What may follow the name of an anchor. -/
private def endsName (c : Cursor) : Bool :=
  match c.next? with
  | none => true
  | some d => !isSolid d || ['?', ':', ',', ']', '\x7d', '%', '@', '\x60'].contains d

/-- An anchor from its `&` on, or a reference to one from its `*` on. -/
def readAnchor (reference : Bool) (c : Cursor) : Except Defect (Token × Cursor) :=
  let name := word (c.advance 1)
  let rest := c.advance (1 + name.length)
  if name.isEmpty || !endsName rest then
    .error (nameDefect .nameCharacter rest (if reference then .reference else .anchor) c.mark)
  else
    let name := String.ofList name
    .ok (⟨if reference then .reference name else .anchor name, c.mark, rest.mark⟩, rest)

/-- Where a tag is written: at a node or in a directive. -/
private inductive TagPlace where
  | node
  | directive
deriving DecidableEq

/-- A handle: words between two exclamation marks, or just the first mark where a node's tag goes on with
its own words. -/
private def readHandle (place : TagPlace) (start : Mark) (c : Cursor) :
    Except Defect (List Char × Cursor) :=
  if !c.sees '!' then
    .error (nameDefect .expectedBang c (if place = .node then .tag else .tagDirectiveHandle) start)
  else
    let name := word (c.advance 1)
    let c := c.advance (1 + name.length)
    if c.sees '!' then .ok ('!' :: name ++ ['!'], c.advance 1)
    else if place = .directive && !name.isEmpty then
      .error (nameDefect .expectedBang c .tagDirectiveHandleEnd start)
    else .ok ('!' :: name, c)

private def isUriChar (list : Bool) (c : Char) : Bool :=
  isWordChar c || (list && [',', '[', ']'].contains c) ||
    [';', '/', '?', ':', '@', '&', '=', '+', '$', '.', '%', '!', '~', '*', '\'', '(', ')'].contains c

/-- How many bytes a character takes that begins with the given one. -/
private def encodedLength? (byte : Nat) : Option Nat :=
  if byte < 0x80 then some 1
  else if byte < 0xc0 then none
  else if byte < 0xe0 then some 2
  else if byte < 0xf0 then some 3
  else if byte < 0xf8 then some 4
  else none

private def readOctet (activity : Activity) (start : Mark) (c : Cursor) : Except Defect (Nat × Cursor) :=
  match c.rest with
  | '%' :: a :: b :: _ =>
    match Json.hexValue? a, Json.hexValue? b with
    | some high, some low => .ok (16 * high + low, c.advance 3)
    | _, _ => .error (nameDefect .noOctet c activity start)
  | _ => .error (nameDefect .noOctet c activity start)

/-- The bytes of a character after its first one, in front of those in `done`. -/
private def readTrailing (activity : Activity) (start : Mark) :
    Nat → List UInt8 → Cursor → Except Defect (List UInt8 × Cursor)
  | 0, done, c => .ok (done, c)
  | n + 1, done, c => do
    let (byte, rest) ← readOctet activity start c
    if byte < 0x80 || 0xc0 ≤ byte then throw (nameDefect .trailingOctet c activity start)
    else readTrailing activity start n (UInt8.ofNat byte :: done) rest

/-- The bytes of a character, each written in hexadecimal, in front of those in `done`. That they are as
many as the first one announces is all that is asked of them. -/
private def readEscaped (activity : Activity) (start : Mark) (done : List UInt8) (c : Cursor) :
    Except Defect (List UInt8 × Cursor) := do
  let (byte, rest) ← readOctet activity start c
  match encodedLength? byte with
  | none => throw (nameDefect .leadingOctet c activity start)
  | some length => readTrailing activity start (length - 1) (UInt8.ofNat byte :: done) rest

/-- The bytes of a tag, the latest first. -/
private def readUriChars (list : Bool) (activity : Activity) (start : Mark) :
    List Char → List UInt8 → Cursor → Except Defect (List UInt8 × Cursor)
  | [], done, c => .ok (done, c)
  | _ :: fuel, done, c =>
    match c.next? with
    | none => .ok (done, c)
    | some d =>
      if !isUriChar list d then .ok (done, c)
      else if d = '%' then do
        let (done, c) ← readEscaped activity start done c
        readUriChars list activity start fuel done c
      else readUriChars list activity start fuel (UInt8.ofNat d.toNat :: done) (c.advance 1)

/-- The words of a tag after some of its characters. The words may be missing where a handle came before
that holds for itself. -/
private def readUri (list optional : Bool) (place : TagPlace) (start : Mark) (lead : List Char) (c : Cursor) :
    Except Defect (Tag × Cursor) := do
  let activity : Activity := if place = .node then .tagUri else .tagDirectiveUri
  let (uri, rest) ← readUriChars list activity start c.rounds [] c
  if uri.isEmpty && !optional then throw (nameDefect .noUri rest activity start)
  else return (.ofBytes (lead.map (UInt8.ofNat ·.toNat) ++ uri.reverse), rest)

/-- The handle of a tag and the words after it. A tag between angles has no handle, and neither has the
one that is only an exclamation mark. -/
private def readTagParts (start : Mark) (c : Cursor) :
    Except Defect (List Char × Tag × Cursor) := do
  if (c.advance 1).sees '<' then
    let (uri, c) ← readUri true false .node start [] (c.advance 2)
    if c.sees '>' then return ([], uri, c.advance 1)
    else throw (nameDefect .expectedAngle c .tag start)
  else
    let (handle, c) ← readHandle .node start c
    match handle with
    | '!' :: name =>
      if name.getLast? = some '!' then
        let (uri, c) ← readUri false false .node start [] c
        return (handle, uri, c)
      else
        let (uri, c) ← readUri false true .node start name c
        return if uri.bytes.isEmpty then ([], .bang, c) else (['!'], uri, c)
    | _ => return (handle, ⟨[]⟩, c)

/-- A tag from its `!` on. -/
def readTag (flow : Bool) (c : Cursor) : Except Defect (Token × Cursor) := do
  let (handle, rest, c') ← readTagParts c.mark c
  if c'.atSolid && !(flow && c'.sees ',') then throw (nameDefect .expectedGapOrBreak c' .tag c.mark)
  else return (⟨.tag (String.ofList handle) rest, c.mark, c'.mark⟩, c')

/-- One of the two numbers of a version. -/
private def readVersionNumber (start : Mark) (c : Cursor) : Except Defect (Nat × Cursor) :=
  let digits := c.rest.takeWhile isDigit
  if digits.isEmpty then .error (nameDefect .noVersion c .versionDirective start)
  else if 9 < digits.length then .error (nameDefect .longVersion (c.advance 9) .versionDirective start)
  else .ok (digitsValue digits, c.advance digits.length)

private def readVersion (start : Mark) (c : Cursor) : Except Defect (TokenKind × Cursor) := do
  let (major, c) ← readVersionNumber start (c.skipWhile isGap)
  if c.sees '.' then
    let (minor, c) ← readVersionNumber start (c.advance 1)
    return (.version major minor, c)
  else throw (nameDefect .versionCharacter c .versionDirective start)

private def readTagHandle (start : Mark) (c : Cursor) : Except Defect (TokenKind × Cursor) := do
  let (handle, c) ← readHandle .directive start (c.skipWhile isGap)
  if !c.atGap then throw (nameDefect .expectedGap c .tagDirective start)
  else
    let (lead, c) ← readUri true false .directive start [] (c.skipWhile isGap)
    if c.atSolid then throw (nameDefect .expectedGapOrBreak c .tagDirective start)
    else return (.tagHandle (String.ofList handle) lead, c)

/-- A directive: a line that begins with `%`. -/
def readDirective (c : Cursor) : Except Defect (Token × Cursor) := do
  let start := c.mark
  let name := word (c.advance 1)
  let afterName := c.advance (1 + name.length)
  if name.isEmpty then throw (nameDefect .noDirectiveName afterName .directive start)
  else if afterName.atSolid then throw (nameDefect .directiveCharacter afterName .directive start)
  else
    let (kind, c) ←
      if name = ['Y', 'A', 'M', 'L'] then readVersion start afterName
      else if name = ['T', 'A', 'G'] then readTagHandle start afterName
      else throw (nameDefect .unknownDirective afterName .directive start)
    let lineEnd := (c.skipWhile isGap).skipComment
    if lineEnd.atSolid then throw (nameDefect .expectedLineEnd lineEnd .directive start)
    else return (⟨kind, start, c.mark⟩, lineEnd.skipBreak)

end Tablature.Yaml
