import Tablature.Document.Load
import Tablature.Lint
import Tablature.Playback.Encode

namespace Tablature

/-- An editor's view of a problem: every field is there, the place null if unknown. -/
structure EditorDiagnostic where
  message : String
  kind : String
  severity : String
  location : Option Location

def EditorDiagnostic.json (d : EditorDiagnostic) : Json :=
  .object [("message", .text d.message), ("kind", .text d.kind), ("severity", .text d.severity),
    ("location", Json.orNull Location.json d.location)]

def Diagnostic.forEditor (d : Diagnostic) : EditorDiagnostic :=
  ⟨d.message, d.kind.name, d.severity.name, d.location⟩

def LoadError.forEditor (error : LoadError) : EditorDiagnostic :=
  let message := match error with
    | .document line column message => toString line ++ ":" ++ toString column ++ ": " ++ message
    | .options message => message
  ⟨message, "parse-error", "error", none⟩

/-- What an editor shows for a source: the problems of the document, or why it is none. -/
def editorDiagnostics (source : String) : List EditorDiagnostic :=
  match Document.load source with
  | .ok d => d.lint.map Diagnostic.forEditor
  | .error error => [error.forEditor]

def editorLint (source : String) : String :=
  (Json.list ((editorDiagnostics source).map EditorDiagnostic.json)).compact

end Tablature
