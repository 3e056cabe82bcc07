import Tablature.Yaml.Quoted
import Tablature.Yaml.Plain
import Tablature.Yaml.Block
import Tablature.Yaml.Name

namespace Tablature.Yaml

/-- A place where a key may turn out to have begun, when a colon is found after it. `number` is the number of
tokens before it. In a block's own column a key must follow. -/
structure SimpleKey where
  required : Bool
  number : Nat
  mark : Mark

/-- Reading a text into tokens, the latest first, which are counted. `columns` are those of the open block
collections, `outer` holds the possible keys around the open flow collections, both from the inside out. If
the text is cut off, `cut` tells the bytes before the cut and what is wrong after it. -/
structure Lexer where
  cursor : Cursor
  cut : Option (Nat × Defect) := none
  tokens : List Token := []
  count : Nat := 0
  columns : List Nat := []
  key : Option SimpleKey := none
  outer : List (Option SimpleKey) := []
  keyAllowed : Bool := true

/-- A key is given up when its line ends or after so many bytes. -/
def simpleKeyLimit : Nat :=
  1024

namespace Lexer

def inFlow (l : Lexer) : Bool :=
  !l.outer.isEmpty

private def emit (l : Lexer) (token : Token) : Lexer :=
  { l with tokens := token :: l.tokens, count := l.count + 1 }

/-- Puts a token in front of the one with a number. -/
private def insert (l : Lexer) (number : Nat) (token : Token) : Lexer :=
  let (after, before) := l.tokens.splitAt (l.count - number)
  { l with tokens := after ++ token :: before, count := l.count + 1 }

/-- Adds a token of some characters that come next. -/
private def take (l : Lexer) (n : Nat) (kind : TokenKind) : Lexer :=
  let rest := l.cursor.advance n
  { l.emit ⟨kind, l.cursor.mark, rest.mark⟩ with cursor := rest }

private def emitRead (l : Lexer) (read : Except Defect (Token × Cursor)) : Except Defect Lexer := do
  let (token, cursor) ← read
  return { l.emit token with cursor }

private def missedKey (l : Lexer) (key : SimpleKey) : Defect :=
  { problem := .expectedColon, mark := l.cursor.mark, during := some (.simpleKey, key.mark) }

private def SimpleKey.isStale (key : SimpleKey) (here : Mark) : Bool :=
  key.mark.line < here.line || key.mark.index + simpleKeyLimit < here.index

private def refreshed (l : Lexer) : Option SimpleKey → Except Defect (Option SimpleKey)
  | none => .ok none
  | some key =>
    if !SimpleKey.isStale key l.cursor.mark then .ok (some key)
    else if key.required then .error (l.missedKey key)
    else .ok none

/-- Gives up the keys that can no longer be followed by a colon. -/
private def dropStaleKeys (l : Lexer) : Except Defect Lexer := do
  let outer ← l.outer.reverse.mapM l.refreshed
  let key ← l.refreshed l.key
  return { l with outer := outer.reverse, key }

private def dropKey (l : Lexer) : Except Defect Lexer :=
  match l.key with
  | some key => if key.required then .error (l.missedKey key) else .ok { l with key := none }
  | none => .ok l

/-- Notes that a key may begin here. -/
private def saveKey (l : Lexer) : Except Defect Lexer :=
  if l.keyAllowed then do
    let required := !l.inFlow && l.columns.head? = some l.cursor.mark.column
    let l ← l.dropKey
    return { l with key := some ⟨required, l.count, l.cursor.mark⟩ }
  else .ok l

/-- Opens a block collection in front of the token with a number, if its column lies right of those that
are open. -/
private def openBlock (l : Lexer) (number : Nat) (kind : TokenKind) (mark : Mark) : Lexer :=
  if l.inFlow || l.columns.head?.any (mark.column ≤ ·) then l
  else { l.insert number ⟨kind, mark, mark⟩ with columns := mark.column :: l.columns }

/-- Closes the block collections while they stand in a column that is to be left. -/
private def closeBlocks (l : Lexer) (left : Nat → Bool) : Lexer :=
  if l.inFlow then l
  else
    let closed := l.columns.takeWhile left
    let l := closed.foldl (fun l _ => l.emit ⟨.blockEnd, l.cursor.mark, l.cursor.mark⟩) l
    { l with columns := l.columns.drop closed.length }

private def closeAllBlocks (l : Lexer) : Lexer :=
  l.closeBlocks fun _ => true

/-- Past blanks, comments and line breaks. A line may begin with a byte order mark. Tabs count as blanks
where no block can begin. -/
private def skipToToken : List Char → Lexer → Lexer
  | [], l => l
  | _ :: fuel, l =>
    let c := if l.cursor.mark.column = 0 && l.cursor.sees '\ufeff' then l.cursor.advance 1 else l.cursor
    let tabs := l.inFlow || !l.keyAllowed
    let c := (c.skipWhile fun d => d = ' ' || (tabs && d = '\t')).skipComment
    if c.atBreak then
      skipToToken fuel { l with cursor := c.skipBreak, keyAllowed := l.keyAllowed || !l.inFlow }
    else { l with cursor := c }

private def readStreamEnd (l : Lexer) : Except Defect Lexer := do
  let m := l.cursor.mark
  let mark : Mark := if m.column = 0 then m else { m with line := m.line + 1, column := 0 }
  let l ← { l with cursor := { l.cursor with mark } }.closeAllBlocks.dropKey
  return { l.take 0 .streamEnd with keyAllowed := false }

private def readDirectiveLine (l : Lexer) : Except Defect Lexer := do
  let l ← l.closeAllBlocks.dropKey
  { l with keyAllowed := false }.emitRead (readDirective l.cursor)

private def readDocumentBound (l : Lexer) : Except Defect Lexer := do
  let l ← l.closeAllBlocks.dropKey
  return { l.take 3 (if l.cursor.sees '-' then .documentStart else .documentEnd) with keyAllowed := false }

private def openFlow (l : Lexer) (kind : TokenKind) : Except Defect Lexer := do
  let l ← l.saveKey
  return { l.take 1 kind with key := none, outer := l.key :: l.outer, keyAllowed := true }

private def closeFlow (l : Lexer) (kind : TokenKind) : Except Defect Lexer := do
  let l ← l.dropKey
  let l := match l.outer with
    | [] => l
    | key :: outer => { l with key, outer }
  return { l.take 1 kind with keyAllowed := false }

private def readFlowEntry (l : Lexer) : Except Defect Lexer := do
  let l ← l.dropKey
  return { l.take 1 .flowEntry with keyAllowed := true }

/-- A block collection may only begin where a key may. -/
private def beginBlock (l : Lexer) (kind : TokenKind) (problem : Problem) : Except Defect Lexer :=
  if l.inFlow then .ok l
  else if !l.keyAllowed then .error { problem, mark := l.cursor.mark }
  else .ok (l.openBlock l.count kind l.cursor.mark)

private def readBlockEntry (l : Lexer) : Except Defect Lexer := do
  let l ← l.beginBlock .blockSequenceStart .entryNotAllowed
  let l ← l.dropKey
  return { l.take 1 .blockEntry with keyAllowed := true }

private def readKey (l : Lexer) : Except Defect Lexer := do
  let l ← l.beginBlock .blockMappingStart .keyNotAllowed
  let l ← l.dropKey
  return { l.take 1 .key with keyAllowed := !l.inFlow }

/-- The colon before a value. If a key was possible, it has now been found and is marked as one. -/
private def readValue (l : Lexer) : Except Defect Lexer := do
  match l.key with
  | some key =>
    let l := l.insert key.number ⟨.key, key.mark, key.mark⟩
    let l := l.openBlock key.number .blockMappingStart key.mark
    return { l.take 1 .value with key := none, keyAllowed := false }
  | none =>
    let l ← l.beginBlock .blockMappingStart .valueNotAllowed
    return { l.take 1 .value with keyAllowed := !l.inFlow }

/-- A token that may be a key as a whole. -/
private def readKeyable (l : Lexer) (read : Cursor → Except Defect (Token × Cursor)) : Except Defect Lexer := do
  let l ← l.saveKey
  { l with keyAllowed := false }.emitRead (read l.cursor)

private def readPlainScalar (l : Lexer) : Except Defect Lexer := do
  let l ← l.saveKey
  let (token, cursor, broken) ← readPlain l.inFlow (l.columns.head?.elim 0 (· + 1)) l.cursor
  return { l.emit token with cursor, keyAllowed := broken }

private def readBlock (l : Lexer) (fold : Bool) : Except Defect Lexer := do
  let l ← l.dropKey
  { l with keyAllowed := true }.emitRead (readBlockScalar fold l.columns.head? l.cursor)

/-- The characters that mean something at the start of a token. -/
private def isIndicator (c : Char) : Bool :=
  isFlowBound c ||
    ['-', '?', ':', '#', '&', '*', '!', '|', '>', '\'', '"', '%', '@', '\x60'].contains c

private def startsPlain (flow : Bool) (c : Char) (rest : List Char) : Bool :=
  !isIndicator c || (c = '-' && !rest.head?.any isGap) || (!flow && (c = '?' || c = ':') && !endsWord rest)

/-- The token that begins with a solid character. -/
private def readToken (l : Lexer) (c : Char) (rest : List Char) : Except Defect Lexer :=
  if l.cursor.mark.column = 0 && c = '%' then l.readDirectiveLine
  else if l.cursor.atDocumentBound then l.readDocumentBound
  else if c = '[' then l.openFlow .flowSequenceStart
  else if c = '\x7b' then l.openFlow .flowMappingStart
  else if c = ']' then l.closeFlow .flowSequenceEnd
  else if c = '\x7d' then l.closeFlow .flowMappingEnd
  else if c = ',' then l.readFlowEntry
  else if c = '-' && endsWord rest then l.readBlockEntry
  else if c = '?' && (l.inFlow || endsWord rest) then l.readKey
  else if c = ':' && (l.inFlow || endsWord rest) then l.readValue
  else if c = '*' then l.readKeyable (readAnchor true)
  else if c = '&' then l.readKeyable (readAnchor false)
  else if c = '!' then l.readKeyable (readTag l.inFlow)
  else if c = '|' && !l.inFlow then l.readBlock false
  else if c = '>' && !l.inFlow then l.readBlock true
  else if c = '\'' then l.readKeyable (readQuoted false)
  else if c = '"' then l.readKeyable (readQuoted true)
  else if isSolid c && startsPlain l.inFlow c rest then l.readPlainScalar
  else .error { problem := .noToken, mark := l.cursor.mark, during := some (.nextToken, l.cursor.mark) }

/-- Reads the next token with everything before it; `none` after the end of the text. -/
private def step (l : Lexer) : Except Defect (Lexer × Bool) := do
  let l ← (l.skipToToken l.cursor.rounds).dropStaleKeys
  let column := l.cursor.mark.column
  let l := l.closeBlocks (column < ·)
  let (l, more) ← match l.cursor.rest with
    | [] => (·, false) <$> l.readStreamEnd
    | c :: rest => (·, true) <$> l.readToken c rest
  return (← l.dropStaleKeys, more)

end Lexer

namespace Lexer

/-- How many bytes must be left after a token, and after the place of a defect, for neither to depend on
what follows a cut. -/
def outlook : Nat :=
  3

/-- A step that does not reach the cut. -/
private def stepBeforeCut (l : Lexer) : Except Defect (Lexer × Bool) :=
  match l.cut with
  | none => l.step
  | some (size, beyond) =>
    match l.step with
    | .ok (next, more) => if next.cursor.mark.index + outlook ≤ size then .ok (next, more) else .error beyond
    | .error defect => .error (if defect.mark.index + outlook < size then defect else beyond)

end Lexer

/-- The tokens of a text, up to its end or to a defect. -/
structure Tokens where
  tokens : List Token
  defect : Option Defect := none

namespace Lexer

/-- The tokens that no key can be put in front of any more. -/
private def settled (l : Lexer) : List Token :=
  let numbers := (l.key :: l.outer).filterMap (·.map SimpleKey.number)
  l.tokens.reverse.take (numbers.min?.getD l.count)

private def run : Nat → Lexer → Tokens
  | 0, l => { tokens := l.tokens.reverse }
  | fuel + 1, l =>
    match l.stepBeforeCut with
    | .ok (l, true) => run fuel l
    | .ok (l, false) => { tokens := l.tokens.reverse }
    | .error defect => { tokens := l.settled, defect := some defect }

end Lexer

/-- Characters that a text may hold. -/
def isTextChar (c : Char) : Bool :=
  let n := c.toNat
  n = 0x09 || n = 0x0a || n = 0x0d || (0x20 ≤ n && n ≤ 0x7e) || n = 0x85 ||
    (0xa0 ≤ n && n ≤ 0xd7ff) || (0xe000 ≤ n && n ≤ 0xfffd) || 0x10000 ≤ n

/-- A text is checked in blocks of so many bytes, each before anything in it is read. -/
def blockSize : Nat :=
  16384

/-- The blocks of a text before the first one with a character that it may not hold. -/
def checkedBlocks : List Char → List Char → List Char
  | [], _ => []
  | _ :: fuel, source =>
    let (block, rest) := splitAtByte blockSize source
    if block.isEmpty || !block.all isTextChar then [] else block ++ checkedBlocks fuel rest

/-- Why a text is cut off after its checked blocks, if it is. -/
def textDefect? (source : List Char) : Option Defect :=
  match source.dropWhile isTextChar with
  | [] => none
  | _ => some { problem := .controlCharacter (byteCount (source.takeWhile isTextChar)), mark := {} }

/-- The tokens of a text. Every token takes at least one character, apart from the last. Nothing is read of
a text whose first block is cut off. -/
def tokensOf (source : List Char) : Tokens :=
  let defect := textDefect? source
  let text := if defect.isSome then checkedBlocks source source else source
  if defect.isSome && text.isEmpty then { tokens := [], defect }
  else
    let start : Token := ⟨.streamStart, {}, {}⟩
    let cut := defect.map fun beyond => (byteCount text, beyond)
    Lexer.run (text.length + 2) { cursor := ⟨text, {}⟩, cut, tokens := [start], count := 1 }

end Tablature.Yaml
