import Tablature.Decimal.Shortest

namespace Tablature

/-- How a double is written: how ties between shortest digits go, where the point may stand for the
number to be written without an exponent, and whether a whole number shows a fraction. -/
structure FloatStyle where
  tie : Tie
  positional : Int → Bool
  fraction : Bool

/-- Numbers of data files: plain between 1e-5 and 1e16, always with a point or an exponent. -/
def FloatStyle.data : FloatStyle :=
  { tie := .even, positional := fun point => -5 < point && point ≤ 16, fraction := true }

/-- Numbers in running text: never an exponent, whole numbers without a point. -/
def FloatStyle.plain : FloatStyle :=
  { tie := .up, positional := fun _ => true, fraction := false }

/-- As `plain`, but a whole number ends in `.0`. -/
def FloatStyle.pointed : FloatStyle :=
  { FloatStyle.plain with fraction := true }

/-- Writes the digits with the decimal point after the first `point` of them. -/
def FloatStyle.positionalText (style : FloatStyle) (digits : List Char) (point : Int) : List Char :=
  if point ≤ 0 then ['0', '.'] ++ List.replicate point.natAbs '0' ++ digits
  else
    let count := point.toNat
    if digits.length ≤ count then
      digits ++ List.replicate (count - digits.length) '0' ++ if style.fraction then ['.', '0'] else []
    else digits.take count ++ '.' :: digits.drop count

def exponentText (digits : List Char) (exponent : Int) : List Char :=
  let sign := if exponent < 0 then '-' else '+'
  let tail := 'e' :: sign :: Nat.toDigits 10 exponent.natAbs
  match digits with
  | [] => []
  | [d] => d :: tail
  | d :: ds => d :: '.' :: ds ++ tail

/-- The magnitude `mantissa * 2 ^ exponent` in a style. -/
def FloatStyle.magnitude (style : FloatStyle) (mantissa : Nat) (exponent : Int) : List Char :=
  if mantissa = 0 then '0' :: if style.fraction then ['.', '0'] else []
  else
    let d := shortest style.tie mantissa exponent
    let digits := Nat.toDigits 10 d.digits
    let point := digits.length + d.exponent
    if style.positional point then style.positionalText digits point else exponentText digits (point - 1)

def FloatStyle.chars (style : FloatStyle) (x : Float) : List Char :=
  match Binary.ofFloat x with
  | .notANumber => ['N', 'a', 'N']
  | .infinite negative => if negative then ['-', 'i', 'n', 'f'] else ['i', 'n', 'f']
  | .finite negative mantissa exponent =>
    if negative then '-' :: style.magnitude mantissa exponent else style.magnitude mantissa exponent

def FloatStyle.text (style : FloatStyle) (x : Float) : String :=
  String.ofList (style.chars x)

end Tablature
