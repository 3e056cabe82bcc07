import Tablature.Datum.Mismatch
import Tablature.Yaml.Defect

namespace Tablature.Yaml

/-- A step from a node of a document to one inside it. The value of a key that is not a scalar has no
name. -/
inductive Step where
  | item (index : Nat)
  | field (key : String)
  | nameless
deriving DecidableEq, Repr

/-- The way to a node, its last step first. -/
abbrev Path :=
  List Step

namespace Path

def extend (outer : String) : Step → String
  | .item index => outer ++ "[" ++ toString index ++ "]"
  | .field key => (if outer.isEmpty then "" else outer ++ ".") ++ key
  | .nameless => (if outer.isEmpty then "" else outer ++ ".") ++ "?"

def text (path : Path) : String :=
  path.reverse.foldl extend ""

end Path

/-- Why a YAML text could not be read. A mismatch is placed at the innermost node that knows its own
place. -/
inductive Fault where
  | defect (defect : Defect)
  | mismatch (mismatch : Mismatch)
  | placedMismatch (mismatch : Mismatch) (mark : Mark) (path : Path)
  | unknownAnchor (mark : Mark)
  | tooDeep (mark : Mark)
  | tooManyReferences
  | endOfValue
  | manyDocuments

/-- YAML messages call nothing a unit value and always write numbers with a point. -/
def wording : Wording :=
  ⟨"unit value", .pointed⟩

namespace Fault

/-- Places a mismatch that has no place yet. -/
def place (mark : Mark) (path : Path) : Fault → Fault
  | mismatch m => .placedMismatch m mark path
  | fault => fault

def mark? : Fault → Option Mark
  | defect d => some d.mark
  | placedMismatch _ mark _ | unknownAnchor mark | tooDeep mark => some mark
  | _ => none

def message : Fault → String
  | defect d => d.message
  | mismatch m => m.message wording
  | placedMismatch m mark path =>
    (if path.isEmpty then "" else path.text ++ ": ") ++ m.message wording ++ mark.suffix
  | unknownAnchor mark => "unknown anchor" ++ mark.suffix
  | tooDeep mark => "recursion limit exceeded" ++ mark.suffix
  | tooManyReferences => "repetition limit exceeded"
  | endOfValue => "EOF while parsing a value"
  | manyDocuments => "deserializing from YAML containing more than one document is not supported"

end Fault

end Tablature.Yaml
