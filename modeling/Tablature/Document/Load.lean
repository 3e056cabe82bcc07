import Tablature.Document.FromJson
import Tablature.Document.FromYaml

namespace Tablature

/-- Why a text could not be taken: no document, at a line and column (0 where unknown), or no options. -/
inductive LoadError where
  | document (line column : Nat) (message : String)
  | options (message : String)
deriving DecidableEq

def LoadError.text : LoadError → String
  | document line column message =>
    "Parse error at line " ++ toString line ++ ", column " ++ toString column ++ ": " ++ message
  | options message => "Invalid compile options: " ++ message

namespace Document

def loadJson (source : String) : Except LoadError Document :=
  (ofJson source.toList).mapError fun fault =>
    let p := fault.position source.toList
    .document p.line p.column
      (fault.cause.message ++ " at line " ++ toString p.line ++ " column " ++ toString p.column)

def loadYaml (source : String) : Except LoadError Document :=
  (ofYaml source.toList).mapError fun fault =>
    match fault.mark? with
    | some mark => .document (mark.line + 1) (mark.column + 1) fault.message
    | none => .document 0 0 fault.message

/-- A text whose first character after blanks is a brace is JSON, any other is YAML. -/
def load (source : String) : Except LoadError Document :=
  match dropBlanks source.toList with
  | '\x7b' :: _ => loadJson source
  | _ => loadYaml source

def toJson (d : Document) : String :=
  d.json.indented

end Document

def Options.validate (o : Options) : Except LoadError Options :=
  if isUsableTempo o.defaultBpm then .ok o
  else .error (.options ("defaultBpm must be a positive number, got " ++ FloatStyle.plain.text o.defaultBpm))

/-- Options from a YAML text, which JSON is too. -/
def Options.load (source : String) : Except LoadError Options := do
  (← (ofYaml source.toList).mapError fun fault => .options fault.message).validate

end Tablature
