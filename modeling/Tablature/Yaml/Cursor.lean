import Tablature.Yaml.Mark
import Tablature.Decimal.Reading
import Tablature.Text.Bytes

namespace Tablature.Yaml

/-- The two characters that keep words apart within a line. -/
def isGap (c : Char) : Bool :=
  c = ' ' || c = '\t'

/-- Line breaks: the usual two, and three that Unicode adds. -/
def isBreak (c : Char) : Bool :=
  c = '\n' || c = '\r' || c = '\x85' || c = '\u2028' || c = '\u2029'

/-- A character that is a word of its own or part of one on its line. -/
def isSolid (c : Char) : Bool :=
  !isGap c && !isBreak c

/-- The characters of handles, anchors and the names of directives. -/
def isWordChar (c : Char) : Bool :=
  isDigit c || ('a' ≤ c && c ≤ 'z') || ('A' ≤ c && c ≤ 'Z') || c = '_' || c = '-'

/-- Whether a text has no solid character ahead: it starts with a blank or break, or has ended. -/
def endsWord : List Char → Bool
  | [] => true
  | c :: _ => !isSolid c

/-- The unread text, and the place where it begins. -/
structure Cursor where
  rest : List Char
  mark : Mark := {}

namespace Cursor

/-- What a loop may use up that takes a character in every round: one thing more than are left. -/
def rounds (c : Cursor) : List Char :=
  ' ' :: c.rest

def next? (c : Cursor) : Option Char :=
  c.rest.head?

def atEnd (c : Cursor) : Bool :=
  c.rest.isEmpty

/-- Whether the given character comes next. -/
def sees (c : Cursor) (char : Char) : Bool :=
  c.next? == some char

def atGap (c : Cursor) : Bool :=
  c.next?.any isGap

def atBreak (c : Cursor) : Bool :=
  c.next?.any isBreak

def atSolid (c : Cursor) : Bool :=
  c.next?.any isSolid

/-- Past some characters of one line. -/
def advance (n : Nat) (c : Cursor) : Cursor :=
  ⟨c.rest.drop n,
    { c.mark with index := c.mark.index + byteCount (c.rest.take n), column := c.mark.column + n }⟩

/-- Past all characters of a kind, which holds no breaks. -/
def skipWhile (p : Char → Bool) (c : Cursor) : Cursor :=
  c.advance (c.rest.takeWhile p).length

private def onNextLine (m : Mark) (skipped : List Char) : Mark :=
  ⟨m.index + byteCount skipped, m.line + 1, 0⟩

/-- Past a line break; a carriage return and the line feed after it are one. -/
def skipBreak (c : Cursor) : Cursor :=
  match c.rest with
  | '\r' :: '\n' :: rest => ⟨rest, onNextLine c.mark ['\r', '\n']⟩
  | b :: rest => if isBreak b then ⟨rest, onNextLine c.mark [b]⟩ else c
  | [] => c

/-- What a line break stands for in a text: a line feed, but Unicode's separators stand for themselves. -/
def breakText (c : Cursor) : List Char :=
  match c.next? with
  | some b => if b = '\u2028' || b = '\u2029' then [b] else if isBreak b then ['\n'] else []
  | none => []

/-- Past the rest of the line, if it is a comment. -/
def skipComment (c : Cursor) : Cursor :=
  if c.sees '#' then c.skipWhile fun d => !isBreak d else c

/-- Whether a line begins with three dashes or three dots as a word: the marks between documents. -/
def atDocumentBound (c : Cursor) : Bool :=
  c.mark.column = 0 &&
    match c.rest with
    | '-' :: '-' :: '-' :: rest => endsWord rest
    | '.' :: '.' :: '.' :: rest => endsWord rest
    | _ => false

end Cursor

end Tablature.Yaml
