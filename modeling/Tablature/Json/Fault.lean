import Tablature.Text.Bytes
import Tablature.Datum.Mismatch

namespace Tablature.Json

/-- What is wrong with a JSON text. -/
inductive Cause where
  | endOfValue
  | endOfList
  | endOfObject
  | endOfString
  | expectedColon
  | expectedListEnd
  | expectedObjectEnd
  | expectedIdent
  | expectedValue
  | invalidEscape
  | invalidNumber
  | numberOutOfRange
  | controlCharacter
  | keyNotString
  | loneSurrogate
  | unfinishedSurrogates
  | trailingComma
  | trailingCharacters
  | tooDeep
  | mismatch (mismatch : Mismatch)
deriving DecidableEq

/-- JSON messages call nothing `null` and write numbers as JSON does. -/
def wording : Wording :=
  ⟨"null", .data⟩

def Cause.message : Cause → String
  | endOfValue => "EOF while parsing a value"
  | endOfList => "EOF while parsing a list"
  | endOfObject => "EOF while parsing an object"
  | endOfString => "EOF while parsing a string"
  | expectedColon => "expected `:`"
  | expectedListEnd => "expected `,` or `]`"
  | expectedObjectEnd => "expected `,` or `\x7d`"
  | expectedIdent => "expected ident"
  | expectedValue => "expected value"
  | invalidEscape => "invalid escape"
  | invalidNumber => "invalid number"
  | numberOutOfRange => "number out of range"
  | controlCharacter => "control character (\\u0000-\\u001F) found while parsing a string"
  | keyNotString => "key must be a string"
  | loneSurrogate => "lone leading surrogate in hex escape"
  | unfinishedSurrogates => "unexpected end of hex escape"
  | trailingComma => "trailing comma"
  | trailingCharacters => "trailing characters"
  | tooDeep => "recursion limit exceeded"
  | mismatch m => m.message wording

/-- A reader that failed: the cause, the text that was still unread, and how many bytes into it the
fault lies. A fault that is not `placed` is moved by the list or object around it. -/
structure Fault where
  cause : Cause
  unread : List Char
  ahead : Nat := 0
  placed : Bool := true

/-- A fault right where reading stands. -/
def Fault.here (cause : Cause) (unread : List Char) : Fault :=
  { cause, unread }

/-- A fault at the next character, which was only looked at. -/
def Fault.next (cause : Cause) (unread : List Char) : Fault :=
  { cause, unread, ahead := 1 }

def Fault.adrift (mismatch : Mismatch) (unread : List Char) : Fault :=
  { cause := .mismatch mismatch, unread, placed := false }

/-- Moves a fault that is not placed to where `close` leads. -/
def Fault.place (close : List Char → List Char) (fault : Fault) : Fault :=
  if fault.placed then fault else { fault with unread := close fault.unread, placed := true }

/-- A line from 1 on, and the bytes of it that were read. -/
structure Position where
  line : Nat
  column : Nat
deriving DecidableEq, Repr

/-- The position after the first `count` bytes of a text. A line end lies wholly inside or outside of
them, as its character is one byte. -/
def Position.after (count : Nat) (p : Position) : List Char → Position
  | [] => p
  | c :: cs =>
    if count < c.utf8Size then ⟨p.line, p.column + count⟩
    else if c = '\n' then Position.after (count - 1) ⟨p.line + 1, 0⟩ cs
    else Position.after (count - c.utf8Size) ⟨p.line, p.column + c.utf8Size⟩ cs

def Fault.position (fault : Fault) (source : List Char) : Position :=
  Position.after (byteCount source - byteCount fault.unread + fault.ahead) ⟨1, 0⟩ source

end Tablature.Json
