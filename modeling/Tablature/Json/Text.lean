import Tablature.Json.Fault
import Tablature.Decimal.Reading

namespace Tablature.Json

def isSpace (c : Char) : Bool :=
  c = ' ' || c = '\n' || c = '\t' || c = '\r'

def skipSpace (cs : List Char) : List Char :=
  cs.dropWhile isSpace

def hexValue? (c : Char) : Option Nat :=
  if isDigit c then some (digitValue c)
  else if 'a' ≤ c && c ≤ 'f' then some (c.toNat - 'a'.toNat + 10)
  else if 'A' ≤ c && c ≤ 'F' then some (c.toNat - 'A'.toNat + 10)
  else none

/-- A code unit of four hexadecimal digits. Whatever they are, four bytes are taken for it. -/
def readCodeUnit (cs : List Char) : Except Fault (Nat × List Char) :=
  let digits := (cs.take 4).filterMap hexValue?
  if digits.length = 4 then .ok (digits.foldl (fun n d => 16 * n + d) 0, cs.drop 4)
  else if byteCount (cs.take 4) < 4 then .error (.here .endOfString [])
  else .error { cause := .invalidEscape, unread := cs, ahead := 4 }

def expectInPair (c : Char) : List Char → Except Fault (List Char)
  | [] => .error (.here .endOfString [])
  | d :: cs => if d = c then .ok cs else .error (.next .unfinishedSurrogates (d :: cs))

/-- The character of a numeric escape; characters beyond the first plane take two of them. -/
def readEscapedChar (cs : List Char) : Except Fault (Char × List Char) := do
  let (first, cs) ← readCodeUnit cs
  if 0xdc00 ≤ first ∧ first ≤ 0xdfff then throw (.here .loneSurrogate cs)
  else if 0xd800 ≤ first ∧ first ≤ 0xdbff then
    let cs ← expectInPair '\\' cs
    let cs ← expectInPair 'u' cs
    let (second, cs) ← readCodeUnit cs
    if second < 0xdc00 ∨ 0xdfff < second then throw (.here .loneSurrogate cs)
    else return (Char.ofNat (0x10000 + (first - 0xd800) * 0x400 + (second - 0xdc00)), cs)
  else return (Char.ofNat first, cs)

/-- The character that a letter after a backslash stands for. -/
def simpleEscape? : Char → Option Char
  | '"' => some '"'
  | '\\' => some '\\'
  | '/' => some '/'
  | 'b' => some '\x08'
  | 'f' => some '\x0c'
  | 'n' => some '\n'
  | 'r' => some '\r'
  | 't' => some '\t'
  | _ => none

/-- The characters of a string after its opening quote, added to those read before in reverse. Each
step takes at least one character, so the length of the text is fuel enough. -/
def readChars : Nat → List Char → List Char → Except Fault (List Char × List Char)
  | 0, _, cs => .error (.here .endOfString cs)
  | _ + 1, _, [] => .error (.here .endOfString [])
  | fuel + 1, done, c :: cs =>
    if c = '"' then .ok (done.reverse, cs)
    else if c = '\\' then
      match cs with
      | [] => .error (.here .endOfString [])
      | e :: rest =>
        if e = 'u' then do
          let (escaped, rest) ← readEscapedChar rest
          readChars fuel (escaped :: done) rest
        else
          match simpleEscape? e with
          | some escaped => readChars fuel (escaped :: done) rest
          | none => .error (.next .invalidEscape (e :: rest))
    else if c.toNat < 0x20 then .error (.here .controlCharacter cs)
    else readChars fuel (c :: done) cs

/-- A string after its opening quote. -/
def readString (cs : List Char) : Except Fault (String × List Char) := do
  let (chars, rest) ← readChars (cs.length + 1) [] cs
  return (String.ofList chars, rest)

/-- Passes over a string after its opening quote. Code units are not put together, so lone surrogates
go unnoticed. -/
def skipString : Nat → List Char → Except Fault (List Char)
  | 0, cs => .error (.here .endOfString cs)
  | _ + 1, [] => .error (.here .endOfString [])
  | fuel + 1, c :: cs =>
    if c = '"' then .ok cs
    else if c = '\\' then
      match cs with
      | [] => .error (.here .endOfString [])
      | e :: rest =>
        if e = 'u' then do
          let (_, rest) ← readCodeUnit rest
          skipString fuel rest
        else if (simpleEscape? e).isSome then skipString fuel rest
        else .error (.next .invalidEscape (e :: rest))
    else if c.toNat < 0x20 then .error (.here .controlCharacter (c :: cs))
    else skipString fuel cs

end Tablature.Json
