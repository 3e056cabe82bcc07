import Tablature.Decimal.Style

namespace Tablature

/-- A value of a data file, held until it is known what it should be. An integer with a sign is an
`int`, one without is a `nat`. -/
inductive Datum where
  | null
  | bool (value : Bool)
  | nat (value : Nat)
  | int (value : Int)
  | float (value : Float)
  | text (value : String)
  | list (items : List Datum)
  | map (entries : List (Datum × Datum))

/-- What a message says was found. -/
inductive Found where
  | null
  | bool (value : Bool)
  | int (value : Int)
  | float (value : Float)
  | text (value : String)
  | sequence
  | map
  | tagged
  | wideInt (value : Int)
deriving DecidableEq

def Datum.found : Datum → Found
  | null => .null
  | bool b => .bool b
  | nat n => .int n
  | int i => .int i
  | float x => .float x
  | text s => .text s
  | list _ => .sequence
  | map _ => .map

end Tablature
