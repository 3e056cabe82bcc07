import Tablature.Yaml.Defect
import Tablature.Yaml.Tag

namespace Tablature.Yaml

/-- How a scalar is written. -/
inductive ScalarStyle where
  | plain
  | singleQuoted
  | doubleQuoted
  | literal
  | folded
deriving DecidableEq, Repr

inductive TokenKind where
  | streamStart
  | streamEnd
  | version (major minor : Nat)
  | tagHandle (handle : String) (lead : Tag)
  | documentStart
  | documentEnd
  | blockSequenceStart
  | blockMappingStart
  | blockEnd
  | flowSequenceStart
  | flowSequenceEnd
  | flowMappingStart
  | flowMappingEnd
  | blockEntry
  | flowEntry
  | key
  | value
  | reference (name : String)
  | anchor (name : String)
  | tag (handle : String) (rest : Tag)
  | scalar (text : String) (style : ScalarStyle)
deriving DecidableEq, Repr

/-- A token and the places of its start and of what follows it. -/
structure Token where
  kind : TokenKind
  start : Mark
  finish : Mark
deriving DecidableEq, Repr

end Tablature.Yaml
