namespace Tablature

/-- The parts of a double: a finite one is `mantissa * 2 ^ exponent` with a sign. -/
inductive Binary where
  | finite (negative : Bool) (mantissa : Nat) (exponent : Int)
  | infinite (negative : Bool)
  | notANumber
deriving DecidableEq, Repr

def Binary.ofFloat (x : Float) : Binary :=
  let bits := x.toBits.toNat
  let negative := bits / 0x8000000000000000 % 2 == 1
  let field : Nat := bits / 0x10000000000000 % 0x800
  let fraction : Nat := bits % 0x10000000000000
  if field == 2047 then
    if fraction == 0 then .infinite negative else .notANumber
  else if field == 0 then .finite negative fraction (-1074)
  else .finite negative (0x10000000000000 + fraction) ((field : Int) - 1075)

/-- The least integer that is not below a double, with the sign of the double; infinities and
non-numbers are left alone. -/
def roundUp (x : Float) : Float :=
  match Binary.ofFloat x with
  | .finite negative mantissa exponent =>
    if 0 ≤ exponent then x
    else
      let unit : Nat := Nat.pow 2 exponent.natAbs
      if negative then -Float.ofNat (mantissa / unit)
      else Float.ofNat ((mantissa + (unit - 1)) / unit)
  | _ => x

end Tablature
