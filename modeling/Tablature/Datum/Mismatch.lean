import Tablature.Datum.Basic
import Tablature.Document.Column

namespace Tablature

/-- Why a value cannot be taken for what it should be. -/
inductive Mismatch where
  | wrongType (found : Found) (expected : String)
  | wrongValue (found : Found) (expected : String)
  | wrongLength (found : Nat) (expected : String)
  | missingField (name : String)
  | duplicateField (name : String)
  | unknownVariant (name : String) (expected : List String)
  | taggedContent
  | column (error : ColumnError)
deriving DecidableEq

/-- How a data format speaks of its values. -/
structure Wording where
  null : String
  float : FloatStyle

def Found.phrase (wording : Wording) : Found → String
  | null => wording.null
  | bool b => "boolean `" ++ toString b ++ "`"
  | int i => "integer `" ++ toString i ++ "`"
  | float x => "floating point `" ++ wording.float.text x ++ "`"
  | text s => "string " ++ quoted s
  | sequence => "sequence"
  | map => "map"
  | tagged => "enum"
  | wideInt i => "integer `" ++ toString i ++ if i < 0 then "` as i128" else "` as u128"

def variantList (names : List String) : String :=
  let quotedNames := names.map fun name => "`" ++ name ++ "`"
  match quotedNames with
  | [a] => a
  | [a, b] => a ++ " or " ++ b
  | names => "one of " ++ ", ".intercalate names

def Mismatch.message (wording : Wording) : Mismatch → String
  | wrongType found expected => "invalid type: " ++ found.phrase wording ++ ", expected " ++ expected
  | wrongValue found expected => "invalid value: " ++ found.phrase wording ++ ", expected " ++ expected
  | wrongLength found expected => "invalid length " ++ toString found ++ ", expected " ++ expected
  | missingField name => "missing field `" ++ name ++ "`"
  | duplicateField name => "duplicate field `" ++ name ++ "`"
  | unknownVariant name expected => "unknown variant `" ++ name ++ "`, expected " ++ variantList expected
  | taggedContent => "untagged and internally tagged enums do not support enum input"
  | column error => error.message

end Tablature
