namespace Tablature

/-- A JSON value to be written. Fields keep their order. -/
inductive Json where
  | null
  | bool (value : Bool)
  | int (value : Int)
  | float (value : Float)
  | text (value : String)
  | list (items : List Json)
  | object (fields : List (String × Json))

namespace Json

def nat (n : Nat) : Json :=
  .int n

def texts (values : List String) : Json :=
  .list (values.map .text)

def nats (values : List Nat) : Json :=
  .list (values.map nat)

def orNull (write : α → Json) : Option α → Json
  | some a => write a
  | none => .null

/-- A field that is left out when there is nothing to write. -/
def optional (key : String) (write : α → Json) : Option α → List (String × Json)
  | some a => [(key, write a)]
  | none => []

end Json

end Tablature
