import Tablature.Json.Value
import Tablature.Decimal.Style

namespace Tablature.Json

/-- Two lower-case hexadecimal digits. -/
def twoHexDigits (n : Nat) : List Char :=
  [Nat.digitChar (n / 16), Nat.digitChar (n % 16)]

/-- How a character stands in a JSON string: controls are escaped, those with a letter by it. -/
def escaped (c : Char) : List Char :=
  if c = '"' then ['\\', '"']
  else if c = '\\' then ['\\', '\\']
  else if c = '\n' then ['\\', 'n']
  else if c = '\r' then ['\\', 'r']
  else if c = '\t' then ['\\', 't']
  else if c = '\x08' then ['\\', 'b']
  else if c = '\x0c' then ['\\', 'f']
  else if c.toNat < 0x20 then ['\\', 'u', '0', '0'] ++ twoHexDigits c.toNat
  else [c]

def textChars (s : String) : List Char :=
  '"' :: s.toList.flatMap escaped ++ ['"']

def intChars (i : Int) : List Char :=
  if i < 0 then '-' :: Nat.toDigits 10 i.natAbs else Nat.toDigits 10 i.natAbs

/-- JSON has no spelling for infinities and non-numbers: they are written as null. -/
def floatChars (x : Float) : List Char :=
  if x.isFinite then FloatStyle.data.chars x else ['n', 'u', 'l', 'l']

/-- How the parts of lists and objects are set apart. -/
structure Layout where
  /-- What stands in front of an item of a list or object at some depth. -/
  beforeItem : Nat → List Char
  /-- What stands in front of the closing bracket. -/
  beforeClose : Nat → List Char
  afterColon : List Char

def Layout.compact : Layout :=
  { beforeItem := fun _ => [], beforeClose := fun _ => [], afterColon := [] }

def lineAt (depth : Nat) : List Char :=
  '\n' :: List.replicate (2 * depth) ' '

/-- One item a line, two spaces deeper than its list. -/
def Layout.indented : Layout :=
  { beforeItem := fun depth => lineAt (depth + 1), beforeClose := lineAt, afterColon := [' '] }

mutual

def write (layout : Layout) (depth : Nat) : Json → List Char
  | .null => ['n', 'u', 'l', 'l']
  | .bool true => ['t', 'r', 'u', 'e']
  | .bool false => ['f', 'a', 'l', 's', 'e']
  | .int i => intChars i
  | .float x => floatChars x
  | .text s => textChars s
  | .list [] => ['[', ']']
  | .list (item :: items) =>
    '[' :: layout.beforeItem depth ++ write layout (depth + 1) item ++ writeItems layout depth items ++
      layout.beforeClose depth ++ [']']
  | .object [] => ['\x7b', '\x7d']
  | .object ((key, value) :: fields) =>
    '\x7b' :: layout.beforeItem depth ++ textChars key ++ ':' :: layout.afterColon ++
      write layout (depth + 1) value ++ writeFields layout depth fields ++ layout.beforeClose depth ++ ['\x7d']

def writeItems (layout : Layout) (depth : Nat) : List Json → List Char
  | [] => []
  | item :: items =>
    ',' :: layout.beforeItem depth ++ write layout (depth + 1) item ++ writeItems layout depth items

def writeFields (layout : Layout) (depth : Nat) : List (String × Json) → List Char
  | [] => []
  | (key, value) :: fields =>
    ',' :: layout.beforeItem depth ++ textChars key ++ ':' :: layout.afterColon ++
      write layout (depth + 1) value ++ writeFields layout depth fields

end

def compact (value : Json) : String :=
  String.ofList (write .compact 0 value)

def indented (value : Json) : String :=
  String.ofList (write .indented 0 value)

end Tablature.Json
