import Tablature.Json.Text

namespace Tablature.Json

/-- A number as it is read: integers of 64 bits stay integers. -/
inductive Number where
  | nat (value : Nat)
  | int (value : Int)
  | float (value : Float)

def Number.datum : Number → Datum
  | nat n => .nat n
  | int i => .int i
  | float x => .float x

def Number.toFloat : Number → Float
  | nat n => Float.ofNat n
  | int i => Float.ofInt i
  | float x => x

/-- The double `10 ^ n` for `n ≤ 308`. -/
def powerOfTen (n : Nat) : Float :=
  Float.ofScientific 1 false n

/-- A significand scaled by one power of ten, in as many steps as doubles need below 1e-308; `none` if it
is too large for a double. -/
def scale (x : Float) (exponent : Int) : Option Float :=
  if exponent.natAbs ≤ 308 then
    if 0 ≤ exponent then
      let y := x * powerOfTen exponent.natAbs
      if y.isInf then none else some y
    else some (x / powerOfTen exponent.natAbs)
  else if x == 0.0 then some x
  else if 0 ≤ exponent then none
  else scale (x / 1e308) (exponent + 308)
termination_by exponent.natAbs

/-- Significands are kept in 64 bits. -/
def significandLimit : Nat :=
  0x10000000000000000

def exponentLimit : Nat :=
  0x80000000

def signed (negative : Bool) (x : Float) : Float :=
  if negative then -x else x

def finishFloat (negative : Bool) (significand : Nat) (exponent : Int) (cs : List Char) :
    Except Fault (Number × List Char) :=
  match scale (Float.ofNat significand) exponent with
  | some x => .ok (.float (signed negative x), cs)
  | none => .error (.here .numberOutOfRange cs)

/-- The digits of an exponent, added to the value of those before. One that is too large leaves zero
or a number out of range. -/
def readExponentDigits (negative : Bool) (significand : Nat) (start : Int) (down : Bool) :
    Nat → List Char → Except Fault (Number × List Char)
  | value, [] => finishFloat negative significand (if down then start - value else start + value) []
  | value, c :: cs =>
    if isDigit c then
      let next := 10 * value + digitValue c
      if next < exponentLimit then readExponentDigits negative significand start down next cs
      else if significand ≠ 0 ∧ !down then .error (.here .numberOutOfRange cs)
      else .ok (.float (signed negative 0.0), cs.dropWhile isDigit)
    else finishFloat negative significand (if down then start - value else start + value) (c :: cs)

/-- An exponent after its letter. -/
def readExponent (negative : Bool) (significand : Nat) (start : Int) (cs : List Char) :
    Except Fault (Number × List Char) :=
  let (down, cs) := match cs with
    | '-' :: cs => (true, cs)
    | '+' :: cs => (false, cs)
    | cs => (false, cs)
  match cs with
  | [] => .error (.here .endOfValue [])
  | c :: rest =>
    if isDigit c then readExponentDigits negative significand start down (digitValue c) rest
    else .error (.next .invalidNumber (c :: rest))

def isExponentMark (c : Char) : Bool :=
  c = 'e' || c = 'E'

def afterDigits (negative : Bool) (significand : Nat) (exponent : Int) (cs : List Char) :
    Except Fault (Number × List Char) :=
  match cs with
  | c :: rest =>
    if isExponentMark c then readExponent negative significand exponent rest
    else finishFloat negative significand exponent cs
  | [] => finishFloat negative significand exponent []

/-- Digits after the point; those that no longer fit the significand are dropped. -/
def readFraction (negative : Bool) (before : Int) : Nat → Nat → List Char → Except Fault (Number × List Char)
  | significand, count, c :: cs =>
    if isDigit c then
      let next := 10 * significand + digitValue c
      if next < significandLimit then readFraction negative before next (count + 1) cs
      else afterDigits negative significand (before - count) (cs.dropWhile isDigit)
    else if count = 0 then .error (.next .invalidNumber (c :: cs))
    else afterDigits negative significand (before - count) (c :: cs)
  | significand, count, [] =>
    if count = 0 then .error (.here .endOfValue []) else afterDigits negative significand (before - count) []

/-- What may follow the digits before the point, once the significand is full: each further digit
counts as a power of ten. -/
def readLong (negative : Bool) (significand : Nat) : Nat → List Char → Except Fault (Number × List Char)
  | exponent, [] => finishFloat negative significand exponent []
  | exponent, c :: cs =>
    if isDigit c then readLong negative significand (exponent + 1) cs
    else if c = '.' then readFraction negative exponent significand 0 cs
    else afterDigits negative significand exponent (c :: cs)

def finishInteger (negative : Bool) (significand : Nat) : Number :=
  if !negative then .nat significand
  else if significand = 0 ∨ 0x8000000000000000 < significand then .float (-Float.ofNat significand)
  else .int (-(significand : Int))

def afterInteger (negative : Bool) (significand : Nat) (cs : List Char) : Except Fault (Number × List Char) :=
  match cs with
  | c :: rest =>
    if c = '.' then readFraction negative 0 significand 0 rest
    else if isExponentMark c then readExponent negative significand 0 rest
    else .ok (finishInteger negative significand, cs)
  | [] => .ok (finishInteger negative significand, [])

def readInteger (negative : Bool) : Nat → List Char → Except Fault (Number × List Char)
  | significand, [] => afterInteger negative significand []
  | significand, c :: cs =>
    if isDigit c then
      let next := 10 * significand + digitValue c
      if next < significandLimit then readInteger negative next cs
      else readLong negative significand 0 (c :: cs)
    else afterInteger negative significand (c :: cs)

/-- A number after its sign. Leading zeros are not allowed. -/
def readNumber (negative : Bool) (cs : List Char) : Except Fault (Number × List Char) :=
  match cs with
  | [] => .error (.here .endOfValue [])
  | '0' :: c :: rest =>
    if isDigit c then .error (.next .invalidNumber (c :: rest)) else afterInteger negative 0 (c :: rest)
  | c :: rest =>
    if isDigit c then readInteger negative (digitValue c) rest else .error (.next .invalidNumber (c :: rest))

/-- Passes over the digits of an exponent after its letter. -/
def skipExponent (cs : List Char) : Except Fault (List Char) :=
  let cs := match cs with
    | '-' :: cs => cs
    | '+' :: cs => cs
    | cs => cs
  match cs with
  | [] => .error (.here .invalidNumber [])
  | c :: rest => if isDigit c then .ok (rest.dropWhile isDigit) else .error (.next .invalidNumber (c :: rest))

def skipFraction (cs : List Char) : Except Fault (List Char) :=
  match cs with
  | [] => .error (.here .invalidNumber [])
  | c :: _ =>
    if isDigit c then
      match cs.dropWhile isDigit with
      | d :: rest => if isExponentMark d then skipExponent rest else .ok (d :: rest)
      | [] => .ok []
    else .error (.next .invalidNumber cs)

def skipAfterInteger (cs : List Char) : Except Fault (List Char) :=
  match cs with
  | c :: rest =>
    if c = '.' then skipFraction rest else if isExponentMark c then skipExponent rest else .ok cs
  | [] => .ok []

/-- Passes over a number after its sign, without a look at its size. -/
def skipNumber (cs : List Char) : Except Fault (List Char) :=
  match cs with
  | [] => .error (.here .invalidNumber [])
  | '0' :: c :: rest =>
    if isDigit c then .error (.next .invalidNumber (c :: rest)) else skipAfterInteger (c :: rest)
  | c :: rest =>
    if isDigit c then skipAfterInteger (rest.dropWhile isDigit) else .error (.next .invalidNumber (c :: rest))

end Tablature.Json
