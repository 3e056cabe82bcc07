import Tablature.Decimal.Shortest

namespace Tablature

def isDigit (c : Char) : Bool :=
  '0' ≤ c && c ≤ '9'

def digitValue (c : Char) : Nat :=
  c.toNat - '0'.toNat

/-- The number that a run of decimal digits stands for, read after `start`. -/
def digitsValueFrom (start : Nat) (cs : List Char) : Nat :=
  cs.foldl (fun n c => 10 * n + digitValue c) start

def digitsValue (cs : List Char) : Nat :=
  digitsValueFrom 0 cs

/-- The double nearest to `digits * 10 ^ exponent`. Magnitudes beyond any double are not computed. -/
def Decimal.toFloat (d : Decimal) : Float :=
  if d.digits = 0 then 0.0
  else
    let size := (digitCount d.digits : Int) + d.exponent
    if 310 < size then 1.0 / 0.0
    else if size < -330 then 0.0
    else Float.ofScientific d.digits (d.exponent < 0) d.exponent.natAbs

def exponentOf (negative : Bool) (digits : List Char) : Option Int :=
  if digits.isEmpty || !digits.all isDigit then none
  else some (if negative then -(digitsValue digits : Int) else digitsValue digits)

/-- An exponent part: nothing, or `e` with a signed run of digits. -/
def readExponent : List Char → Option Int
  | [] => some 0
  | e :: rest =>
    if e = 'e' || e = 'E' then
      match rest with
      | '-' :: digits => exponentOf true digits
      | '+' :: digits => exponentOf false digits
      | digits => exponentOf false digits
    else none

/-- Digits with at most one point among them, at least one digit, and perhaps an exponent. -/
def readUnsignedDecimal (cs : List Char) : Option Decimal :=
  let whole := cs.takeWhile isDigit
  let rest := cs.dropWhile isDigit
  let (fraction, rest) := match rest with
    | '.' :: rest => (rest.takeWhile isDigit, rest.dropWhile isDigit)
    | _ => ([], rest)
  if whole.isEmpty && fraction.isEmpty then none
  else (readExponent rest).map fun e => ⟨digitsValue (whole ++ fraction), e - fraction.length⟩

def readMagnitude (cs : List Char) : Option Float :=
  let word := String.ofList (cs.map Char.toLower)
  if word = "inf" || word = "infinity" then some (1.0 / 0.0)
  else if word = "nan" then some (0.0 / 0.0)
  else (readUnsignedDecimal cs).map Decimal.toFloat

/-- A double written with an optional sign: a decimal number, or a name of infinity or of the
non-number in any case. -/
def readFloat (cs : List Char) : Option Float :=
  match cs with
  | '-' :: rest => (readMagnitude rest).map Neg.neg
  | '+' :: rest => readMagnitude rest
  | rest => readMagnitude rest

/-- A natural number below `2 ^ 64`: an optional plus sign and at least one decimal digit. -/
def readIndex (cs : List Char) : Option Nat :=
  let digits := match cs with
    | '+' :: rest => rest
    | rest => rest
  if digits.isEmpty || !digits.all isDigit then none
  else
    let n := digitsValue digits
    if n < 0x10000000000000000 then some n else none

end Tablature
