import Tablature.Yaml.Token

namespace Tablature.Yaml

/-- A scalar as it is written, with its tag. -/
structure Scalar where
  tag : Option Tag := none
  text : String := ""
  style : ScalarStyle := .plain
deriving DecidableEq, Repr

/-- The nodes of documents one after another, a list or map from its start to its end. -/
inductive Event where
  | documentStart
  | documentEnd
  | scalar (anchor : Option String) (scalar : Scalar)
  | listStart (anchor : Option String) (tag : Option Tag)
  | listEnd
  | mapStart (anchor : Option String) (tag : Option Tag)
  | mapEnd
  | reference (name : String)
deriving DecidableEq, Repr

/-- An event and the place where it begins. -/
abbrev Placed (α : Type) :=
  α × Mark

end Tablature.Yaml
