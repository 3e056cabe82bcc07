import Tablature.Yaml.Event
import Tablature.Json.Text

namespace Tablature.Yaml

def isNullText (s : String) : Bool :=
  s = "null" || s = "Null" || s = "NULL" || s = "~"

def readBool (s : String) : Option Bool :=
  if s = "true" || s = "True" || s = "TRUE" then some true
  else if s = "false" || s = "False" || s = "FALSE" then some false
  else none

def digitIn? (base : Nat) (c : Char) : Option Nat :=
  (Json.hexValue? c).filter (· < base)

/-- The number that digits of some base stand for; at least one is needed. -/
def readDigits (base : Nat) (cs : List Char) : Option Nat :=
  if cs.isEmpty then none
  else cs.foldl (fun n c => do return base * (← n) + (← digitIn? base c)) (some 0)

/-- A sign may come first: `some` of whether it is a minus. -/
def splitSign : List Char → Option Bool × List Char
  | '+' :: cs => (some false, cs)
  | '-' :: cs => (some true, cs)
  | cs => (none, cs)

/-- Decimal digits with a needless zero in front, which make a text and no number. -/
def isPaddedNumber (cs : List Char) : Bool :=
  match (splitSign cs).2 with
  | '0' :: c :: rest => (c :: rest).all isDigit
  | _ => false

/-- An unsigned number with the mark of its base, if it has one. -/
def readBased : List Char → Option Nat
  | '0' :: 'x' :: cs => readDigits 16 cs
  | '0' :: 'o' :: cs => readDigits 8 cs
  | '0' :: 'b' :: cs => readDigits 2 cs
  | cs => if isPaddedNumber cs then none else readDigits 10 cs

/-- An integer that may be hexadecimal, octal or binary. -/
def readInteger (cs : List Char) : Option Int :=
  match splitSign cs with
  | (some true, cs) => (readBased cs).map fun n => -(n : Int)
  | (_, cs) => (readBased cs).map Int.ofNat

/-- A natural number of 64 bits. -/
def readNatural (s : String) : Option Nat :=
  match splitSign s.toList with
  | (some true, _) => none
  | (_, cs) => (readBased cs).filter (· < 0x10000000000000000)

def readMagnitude (cs : List Char) : Option Float :=
  (Tablature.readFloat cs).filter Float.isFinite

/-- A number that is finite or spelt out as infinite or as none. -/
def readNumber (s : String) : Option Float :=
  if s = ".inf" || s = ".Inf" || s = ".INF" || s = "+.inf" || s = "+.Inf" || s = "+.INF" then some (1.0 / 0.0)
  else if s = "-.inf" || s = "-.Inf" || s = "-.INF" then some (-1.0 / 0.0)
  else if s = ".nan" || s = ".NaN" || s = ".NAN" then some (0.0 / 0.0)
  else
    match s.toList with
    | '+' :: c :: cs => if c = '+' || c = '-' then none else readMagnitude (c :: cs)
    | cs => readMagnitude cs

/-- An integer as a datum. Those that take more than 64 bits are refused like something of another
type. -/
def integerDatum (expected : String) (negative : Bool) (i : Int) : Option (Except Mismatch Datum) :=
  if !negative then
    if i < 0x10000000000000000 then some (.ok (.nat i.toNat))
    else if i < 0x100000000000000000000000000000000 then some (.error (.wrongType (.wideInt i) expected))
    else none
  else if -0x8000000000000000 ≤ i then some (.ok (.int i))
  else if -0x80000000000000000000000000000000 ≤ i then some (.error (.wrongType (.wideInt i) expected))
  else none

def integer? (expected : String) (s : String) : Option (Except Mismatch Datum) :=
  (readInteger s.toList).bind (integerDatum expected (s.toList.head? == some '-'))

namespace Scalar

/-- What a plain scalar means that has no tag. -/
def plainDatum (expected : String) (s : String) : Except Mismatch Datum :=
  if s.isEmpty || isNullText s then .ok .null
  else
    match readBool s with
    | some b => .ok (.bool b)
    | none =>
      match integer? expected s with
      | some datum => datum
      | none =>
        match if isPaddedNumber s.toList then none else readNumber s with
        | some x => .ok (.float x)
        | none => .ok (.text s)

def untyped (expected : String) (s : Scalar) : Except Mismatch Datum :=
  if s.style = .plain then plainDatum expected s.text else .ok (.text s.text)

def demand (s : Scalar) (name : String) : Option α → Except Mismatch α
  | some a => .ok a
  | none => .error (.wrongValue (.text s.text) name)

/-- What a scalar means where it is not known what it should be. Tags of the basic types must fit;
other tags make a text of it. -/
def datum (expected : String) (s : Scalar) : Except Mismatch Datum :=
  match s.tag with
  | none => untyped expected s
  | some tag =>
    if tag = .bool then .bool <$> s.demand "a boolean" (readBool s.text)
    else if tag = .int then do (← s.demand "an integer" (integer? expected s.text))
    else if tag = .float then .float <$> s.demand "a float" (readNumber s.text)
    else if tag = .null then
      if isNullText s.text then .ok .null else .error (.wrongValue (.text s.text) "null")
    else if tag.isLocal then untyped expected s
    else .ok (.text s.text)

/-- A scalar where something else is expected. -/
def mismatch (expected : String) (s : Scalar) : Mismatch :=
  match s.datum expected with
  | .ok datum => .wrongType datum.found expected
  | .error mismatch => mismatch

/-- Whether a scalar is written like a number: plainly, or as a literal block with the tag. -/
def isBare (tag : Tag) (s : Scalar) : Bool :=
  s.style = .plain || (s.style = .literal && s.tag == some tag)

/-- Whether a plain scalar without a tag means nothing. -/
def isEmpty (s : Scalar) : Bool :=
  s.style = .plain && s.text.isEmpty

end Scalar

end Tablature.Yaml
