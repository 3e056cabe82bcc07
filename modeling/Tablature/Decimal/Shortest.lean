import Tablature.Decimal.Binary

namespace Tablature

/-- The decimal number `digits * 10 ^ exponent`. -/
structure Decimal where
  digits : Nat
  exponent : Int
deriving DecidableEq, Repr

/-- Which of two equally near decimals is taken. -/
inductive Tie where
  | even
  | up
deriving DecidableEq, Repr

def digitCount (n : Nat) : Nat :=
  (Nat.toDigits 10 n).length

/-- The integer `e` with `10 ^ e ≤ num / den < 10 ^ (e + 1)`, for a positive fraction. -/
def decimalExponent (num den : Nat) : Int :=
  if den ≤ num then (digitCount (num / den) : Int) - 1
  else -(digitCount ((den + num - 1) / num - 1) : Int)

/-- The double `mantissa * 2 ^ exponent` and the reals that round to it, all three as numerators over
one denominator; the two ends round to it when the mantissa is even. -/
structure Rounding where
  low : Nat
  value : Nat
  high : Nat
  den : Nat
  closed : Bool

def Rounding.of (mantissa : Nat) (exponent : Int) : Rounding :=
  let narrow := mantissa == 0x10000000000000 && exponent != -1074
  let scale := if 2 ≤ exponent then Nat.pow 2 (exponent - 2).toNat else 1
  { low := (4 * mantissa - if narrow then 1 else 2) * scale
    value := 4 * mantissa * scale
    high := (4 * mantissa + 2) * scale
    den := if 2 ≤ exponent then 1 else Nat.pow 2 (2 - exponent).toNat
    closed := mantissa % 2 == 0 }

/-- Does `num / den` round to the double? -/
def Rounding.holds (r : Rounding) (num den : Nat) : Bool :=
  let low := r.low * den
  let here := num * r.den
  let high := r.high * den
  if r.closed then low ≤ here && here ≤ high else low < here && here < high

/-- The decimal of the grid `10 ^ place` nearest to the double among its two neighbours there, if one
of them rounds to it. -/
def Rounding.onGrid (r : Rounding) (tie : Tie) (place : Int) : Option Nat :=
  let num := if 0 ≤ place then r.value else r.value * Nat.pow 10 place.natAbs
  let den := if 0 ≤ place then r.den * Nat.pow 10 place.natAbs else r.den
  let below := num / den
  let rest := num % den
  let fits (n : Nat) : Bool :=
    if 0 ≤ place then r.holds (n * Nat.pow 10 place.natAbs) 1 else r.holds n (Nat.pow 10 place.natAbs)
  let upper :=
    den < 2 * rest || (den == 2 * rest && match tie with
      | .even => below % 2 == 1
      | .up => true)
  match fits below && below != 0, fits (below + 1) with
  | true, true => some (if upper then below + 1 else below)
  | true, false => some below
  | false, true => some (below + 1)
  | false, false => none

/-- Ten as often as it divides the digits moves into the exponent. -/
def Decimal.reduce (fuel : Nat) (d : Decimal) : Decimal :=
  match fuel with
  | 0 => d
  | fuel + 1 =>
    if d.digits % 10 == 0 && d.digits != 0 then Decimal.reduce fuel ⟨d.digits / 10, d.exponent + 1⟩ else d

def Rounding.search (r : Rounding) (tie : Tie) (place : Int) : Nat → Decimal
  | 0 => ⟨r.value / r.den, 0⟩
  | fuel + 1 =>
    match r.onGrid tie place with
    | some digits => Decimal.reduce 20 ⟨digits, place⟩
    | none => r.search tie (place - 1) fuel

/-- The fewest digits that round back to the positive double `mantissa * 2 ^ exponent`, and of those
the nearest to it. -/
def shortest (tie : Tie) (mantissa : Nat) (exponent : Int) : Decimal :=
  let r := Rounding.of mantissa exponent
  r.search tie (decimalExponent r.value r.den) 18

end Tablature
